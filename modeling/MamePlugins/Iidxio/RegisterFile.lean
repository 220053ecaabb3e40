import MamePlugins.Iidxio.Session

/-!
# The port refines its register file

At every frame the panel lights, the top lamps, the top neons and the display text
are functions of the bytes stored last under their indices.
-/

namespace MamePlugins.Iidxio

open Library

/-- The index in force after the callbacks `before` a start and `es` from it on;
zero if none was ever selected. -/
def indexInForce (before es : List Event) : BitVec 8 :=
  selected 0 (seenWrites before ++ es.filterMap Event.portWrite)

/-- The byte stored last under an index since the start. -/
def lastStored (j : BitVec 8) (before es : List Event) : Option (BitVec 8) :=
  (storedUnder j (indexInForce before []) (es.filterMap Event.portWrite)).getLast?

/-- Callbacks from a start to before the next stop leave the plugin with the
register file of the bytes stored since. -/
theorem State.After.session {s₀ : State} {before : List Event} (h : s₀.After before)
    {start : Event} (hstart : s₀.Starts start) {es : List Event}
    (hes : ∀ e ∈ es, ∀ results, e ≠ .stop results) :
    ∃ s f, run s₀ (start :: es) = .ok s ∧ s.Mirrors f ∧ f.index = indexInForce before es ∧
      ∀ j, f.cell j = lastStored j before es := by
  obtain ⟨cell, hshows⟩ := h.shows
  obtain ⟨s₁, hstep, hs₁⟩ := hshows.start h.initialized hstart
  obtain ⟨s, hrun, hs⟩ := hs₁.session hes
  refine ⟨s, _, by rw [run, runEvents, hstep]; exact hrun, hs, ?_, fun j => ?_⟩
  · rw [PortFile.foldl_write_index, indexInForce, selected_append]
  · rw [PortFile.foldl_write_cell, Option.or_none, lastStored, indexInForce, List.filterMap_nil,
      List.append_nil]

/-- A frame update in a session hands over the text of the register file. -/
theorem State.Mirrors.frame {s : State} {f : PortFile (BitVec 8) (BitVec 8)} (h : s.Mirrors f)
    (results : FrameResults) :
    ∃ s' rest, step s (.frame results) = .ok s' ∧
      s'.calls =
        s.calls ++ .iidxioEp3Write16seg (textOf f.cell) results.ep3Write16seg :: rest ∧
      ∀ l, lastLight l s'.calls = lastLight l s.calls := by
  have hframe := frameUpdate_eq results s
  rw [if_pos h.initialized, h.shows.text] at hframe
  refine ⟨frameUpdate results s, _, rfl, by rw [hframe]; rfl, fun l => ?_⟩
  rw [hframe]
  exact lastLight_append_of_quiet (frameCalls_quiet _ results) l

/-- A bus write that stores nothing under an index leaves the register alone. -/
theorem write_cell_of_not_store {f : PortFile (BitVec 8) (BitVec 8)} {tap : WriteTap}
    {offset mask : LuaInt} (data : LuaInt) {j : BitVec 8}
    (hj : ¬(tap = .twinkleIoWrite ∧ offset = 0x1f220000 ∧ mask = 0xff ∧ f.index = j)) :
    ((Event.write tap offset data mask).portWrite.elim f f.write).cell j = f.cell j := by
  cases tap with
  | twinkleKeysWrite => rfl
  | twinkleIoWrite =>
    rw [Event.portWrite, portWrite]
    split_ifs with hstore hselect
    · have hne : j ≠ f.index := fun h => hj ⟨rfl, hstore.1, hstore.2, h.symm⟩
      exact Function.update_of_ne hne _ _
    · rfl
    · rfl

/-- **The port refines its register file.** Whatever happened before a successful
start, after any callbacks before the next stop: no callback fails; the three
words that the backend received last are those of the bytes stored last; a frame
update hands over ten bytes, nine characters of the bytes stored last and a null
byte; and a bus write elsewhere changes no word and no character. -/
theorem port_refines_register_file (before : List Event) {s₀ : State}
    (hbefore : run .load before = .ok s₀) (start : Event) (hstart : s₀.Starts start)
    (es : List Event) (hes : ∀ e ∈ es, ∀ results, e ≠ .stop results) :
    ∃ s, run s₀ (start :: es) = .ok s ∧
      (∀ l, lastLight l s.calls = some ((lastStored l.index before es).elim 0 l.word)) ∧
      (∀ results, ∃ s' text rest, step s (.frame results) = .ok s' ∧
        s'.calls = s.calls ++ .iidxioEp3Write16seg text results.ep3Write16seg :: rest ∧
        (∀ l, lastLight l s'.calls = lastLight l s.calls) ∧
        text.length = 10 ∧ text[9]? = some 0 ∧
        ∀ k < 9, text[k]? = some ((lastStored (charIndex k) before es).elim 0 displayChar)) ∧
      ∀ tap offset data mask, ∃ s', step s (.write tap offset data mask) = .ok s' ∧
        ∀ j, ¬(tap = .twinkleIoWrite ∧ offset = 0x1f220000 ∧ mask = 0xff ∧
            indexInForce before es = j) →
          (∀ l : PortLight, l.index = j → lastLight l s'.calls = lastLight l s.calls) ∧
          ∀ k < 9, charIndex k = j → s'.text16seg[k]? = s.text16seg[k]? := by
  obtain ⟨s, f, hrun, hs, hindex, hcell⟩ := (State.after_of_run hbefore).session hstart hes
  refine ⟨s, hrun, fun l => ?_, fun results => ?_, fun tap offset data mask => ?_⟩
  · rw [hs.lights, hcell]
  · obtain ⟨s', rest, hstep, hcalls, hlights⟩ := hs.frame results
    refine ⟨s', _, rest, hstep, hcalls, hlights, textOf_length f.cell,
      textOf_getElem?_nine f.cell, fun k hk => ?_⟩
    rw [textOf_getElem? f.cell hk, hcell]
  · obtain ⟨s', hstep, hs'⟩ := hs.next (e := .write tap offset data mask) (by simp)
    refine ⟨s', hstep, fun j hj => ?_⟩
    rw [← hindex] at hj
    have hkept := write_cell_of_not_store data hj
    refine ⟨?_, ?_⟩
    · rintro l rfl
      rw [hs'.lights, hs.lights, hkept]
    · rintro k hk rfl
      rw [hs'.shows.text, hs.shows.text, textOf_getElem? _ hk, textOf_getElem? _ hk, hkept]

/-- A panel light, a letter in the first cell, and a letter whose index was
overwritten. -/
theorem port_refines_register_file_letter :
    ∃ s, run .load [.start "bmiidxa".toList true ⟨true, true, true⟩,
        .write .twinkleIoWrite 0x1f220000 0x370000 0xff0000,
        .write .twinkleIoWrite 0x1f220000 0xfe 0xff,
        .write .twinkleIoWrite 0x1f220000 0x3f0000 0xff0000,
        .write .twinkleIoWrite 0x1f220000 0xbe 0xff,
        .write .twinkleIoWrite 0x1f220000 0xbd 0xff] = .ok s ∧
      lastLight .panel s.calls = some 1 ∧
      ∃ s' text rest, step s (.frame ⟨true, true, true⟩) = .ok s' ∧
        s'.calls = s.calls ++ .iidxioEp3Write16seg text true :: rest ∧
        text[0]? = some 0x42 := by
  obtain ⟨s, hrun, hlights, hframe, -⟩ := port_refines_register_file [] rfl
    (.start "bmiidxa".toList true ⟨true, true, true⟩) ⟨rfl, by decide, rfl⟩
    [.write .twinkleIoWrite 0x1f220000 0x370000 0xff0000,
      .write .twinkleIoWrite 0x1f220000 0xfe 0xff,
      .write .twinkleIoWrite 0x1f220000 0x3f0000 0xff0000,
      .write .twinkleIoWrite 0x1f220000 0xbe 0xff,
      .write .twinkleIoWrite 0x1f220000 0xbd 0xff] (by simp)
  obtain ⟨s', text, rest, hstep, hcalls, -, -, -, htext⟩ := hframe ⟨true, true, true⟩
  exact ⟨s, hrun, (hlights .panel).trans (by decide), s', text, rest, hstep, hcalls,
    (htext 0 (by decide)).trans (by decide)⟩

end MamePlugins.Iidxio
