import MamePlugins.Iidxio.DeckLights
import MamePlugins.Iidxio.Restart

/-!
# Inputs that the game can tell apart

The backend returns words, of which `iidxio.h` gives a meaning to some bits. This file
shows that these bits are all that ever reaches the game, and that each of them does.
-/

namespace MamePlugins.Iidxio

open Library

/-- The callback, with the inputs that the backend returns during it replaced. -/
def Event.withInputs (inputs : Inputs) : Event → Event
  | .read tap offset data mask _ => .read tap offset data mask inputs
  | e => e

/-- The same buttons and positions, by the bits that `iidxio.h` gives a meaning: a
turntable is at one of 256 positions, and a slider at one of 16. -/
structure SameInputs (a b : Inputs) : Prop where
  panel : ∀ button : IidxIoPanelBit, a.panel.getLsbD button.bit = b.panel.getLsbD button.bit
  sys : ∀ button : IidxIoSysBit, a.sys.getLsbD button.bit = b.sys.getLsbD button.bit
  keys : ∀ key : IidxIoKeyBit, a.keys.getLsbD key.bit = b.keys.getLsbD key.bit
  turntable : ∀ playerNo < 2, ∀ i < 8,
    (a.turntable playerNo).getLsbD i = (b.turntable playerNo).getLsbD i
  slider : ∀ sliderNo < 5, ∀ i < 4,
    (a.slider sliderNo).getLsbD i = (b.slider sliderNo).getLsbD i

/-! ### The header's bits suffice -/

theorem IidxIoPanelBit.exists_bit_iff {i : ℕ} :
    (∃ button : IidxIoPanelBit, button.bit = i) ↔ i < 4 := by
  constructor
  · rintro ⟨button, rfl⟩
    cases button <;> decide
  · intro hi
    interval_cases i
    · exact ⟨.panelP1Start, rfl⟩
    · exact ⟨.panelP2Start, rfl⟩
    · exact ⟨.panelVefx, rfl⟩
    · exact ⟨.panelEffect, rfl⟩

variable {a b : Inputs}

/-- A read tap masks all other bits out. -/
theorem SameInputs.readTap_eq (h : SameInputs a b) (tap : ReadTap) (offset data mask : LuaInt)
    (s : State) : readTap tap offset data mask a s = readTap tap offset data mask b s := by
  have hpanel : a.panel &&& 0x0f = b.panel &&& 0x0f := by
    refine (and_lowMask_eq_iff (n := 4) (by decide)).mpr fun i hi => ?_
    obtain ⟨button, rfl⟩ := IidxIoPanelBit.exists_bit_iff.mpr hi
    exact h.panel button
  have hsys : a.sys &&& 0x03 = b.sys &&& 0x03 := by
    refine (and_lowMask_eq_iff (n := 2) (by decide)).mpr fun i hi => ?_
    interval_cases i
    · exact h.sys .sysTest
    · exact h.sys .sysService
  have hcoin : (a.sys >>> 2) &&& (0x01 : LuaInt) = (b.sys >>> 2) &&& 0x01 := by
    refine (and_lowMask_eq_iff (n := 1) (by decide)).mpr fun i hi => ?_
    rw [BitVec.getLsbD_ushiftRight, BitVec.getLsbD_ushiftRight]
    interval_cases i
    exact h.sys .sysCoin
  have hkeys : a.keys &&& 0x3fff = b.keys &&& 0x3fff := by
    refine (and_lowMask_eq_iff (n := 14) (by decide)).mpr fun i hi => ?_
    obtain ⟨key, rfl⟩ := IidxIoKeyBit.exists_bit_iff.mpr hi
    exact h.keys key
  have hturntable (playerNo : ℕ) (hplayer : playerNo < 2) :
      a.turntable playerNo &&& 0xff = b.turntable playerNo &&& 0xff :=
    (and_lowMask_eq_iff (n := 8) (by decide)).mpr (h.turntable playerNo hplayer)
  have hslider (sliderNo : ℕ) (hno : sliderNo < 5) :
      a.slider sliderNo &&& 0x0f = b.slider sliderNo &&& 0x0f :=
    (and_lowMask_eq_iff (n := 4) (by decide)).mpr (h.slider sliderNo hno)
  have hsliders (i j : ℕ) (hi : i < 5) (hj : j < 5) :
      readSliders i j a s = readSliders i j b s := by
    rw [readSliders, readSliders, hslider j hj]
    exact congrArg (fun x => (some (x ||| _), _)) (hslider i hi)
  cases tap with
  | twinkleIoRead =>
    simp only [readTap, twinkleIoRead, hpanel, hsys, hturntable 0 (by decide),
      hturntable 1 (by decide), hsliders 0 1 (by decide) (by decide),
      hsliders 2 3 (by decide) (by decide), hslider 4 (by decide)]
  | twinkleKeysRead => simp only [readTap, twinkleKeysRead, hkeys, hcoin]

theorem SameInputs.step_eq (h : SameInputs a b) (s : State) (e : Event) :
    step s (e.withInputs a) = step s (e.withInputs b) := by
  cases e with
  | read tap offset data mask inputs => simp only [Event.withInputs, step, h.readTap_eq]
  | _ => rfl

/-! ### Each of them shows -/

variable {s : State}

/-- A byte selects an index, and a read finds it selected. -/
theorem run_selectAndRead (hwrite : s.writeCallback .twinkleIoWrite = true)
    (hread : s.readCallback .twinkleIoRead = true) (data : LuaInt) (inputs : Inputs) :
    ∃ s', run s [.write .twinkleIoWrite 0x1f220000 data 0xff0000,
        .read .twinkleIoRead 0x1f220004 0xff 0xff inputs] = .ok s' ∧
      s'.answers = s.answers ++ [(twinkleIoRead 0x1f220004 0xff 0xff inputs
        { s with curIoOffset := (data &&& 0xff0000) >>> 16 }).1] := by
  have hselect : step s (.write .twinkleIoWrite 0x1f220000 data 0xff0000) =
      .ok { s with curIoOffset := (data &&& 0xff0000) >>> 16 } := by
    rw [step, if_pos hwrite, writeTap, twinkleIoWrite, if_neg (by decide), if_pos ⟨rfl, rfl⟩]
  have hanswer := step_read (s := { s with curIoOffset := (data &&& 0xff0000) >>> 16 }) hread
    (Prod.mk.eta (p := readTap .twinkleIoRead 0x1f220004 0xff 0xff inputs _)).symm
  refine ⟨_, (runEvents_cons hselect _).trans (runEvents_cons hanswer _), ?_⟩
  rw [readTap_eq]
  rfl

/-- Two inputs that are merged into the same bit, over data that does not set it. -/
theorem eq_of_merged {word word' data x y : Bool} (hx : word = false ↔ data = false ∨ x = true)
    (hy : word' = false ↔ data = false ∨ y = true) (hword : word = word') (hdata : data = true) :
    x = y := by
  have hboth := hx.symm.trans (hword ▸ hy)
  rw [hdata] at hboth
  rw [Bool.eq_iff_iff]
  simpa only [Bool.true_eq_false, false_or] using hboth

/-- The positions of two sliders that are packed into a byte. -/
theorem getLsbD_packed {x y : LuaInt} {i : ℕ} (hi : i < 4) :
    ((x &&& (0x0f : LuaInt)) ||| ((y &&& (0x0f : LuaInt)) <<< 4)).getLsbD i = x.getLsbD i ∧
      ((x &&& (0x0f : LuaInt)) ||| ((y &&& (0x0f : LuaInt)) <<< 4)).getLsbD (i + 4) =
        y.getLsbD i := by
  have hmask (k : ℕ) : (0x0f : LuaInt).getLsbD k = decide (k < 4) :=
    getLsbD_lowMask (n := 4) (by decide)
  have hi64 : i + 4 < 64 := by omega
  have hnot : ¬i + 4 < 4 := by omega
  constructor
  · simp only [BitVec.getLsbD_or, BitVec.getLsbD_and, BitVec.getLsbD_shiftLeft, hmask]
    simp [hi]
  · simp only [BitVec.getLsbD_or, BitVec.getLsbD_and, BitVec.getLsbD_shiftLeft, hmask]
    simp [hi, hi64]

/-- What cannot be told apart by answers is the same. -/
theorem sameInputs_of_answers (hwrite : s.writeCallback .twinkleIoWrite = true)
    (hread : ∀ tap, s.readCallback tap = true)
    (h : ∀ (es : List Event) s₁ s₂, run s (es.map (Event.withInputs a)) = .ok s₁ →
      run s (es.map (Event.withInputs b)) = .ok s₂ → s₁.answers = s₂.answers) :
    SameInputs a b := by
  have hport (data : LuaInt) :
      (twinkleIoRead 0x1f220004 0xff 0xff a
        { s with curIoOffset := (data &&& 0xff0000) >>> 16 }).1 =
      (twinkleIoRead 0x1f220004 0xff 0xff b
        { s with curIoOffset := (data &&& 0xff0000) >>> 16 }).1 := by
    obtain ⟨s₁, hs₁, hanswers₁⟩ := run_selectAndRead hwrite (hread _) data a
    obtain ⟨s₂, hs₂, hanswers₂⟩ := run_selectAndRead hwrite (hread _) data b
    have hsame := h [.write .twinkleIoWrite 0x1f220000 data 0xff0000,
      .read .twinkleIoRead 0x1f220004 0xff 0xff a] s₁ s₂ hs₁ hs₂
    rw [hanswers₁, hanswers₂] at hsame
    exact List.singleton_inj.mp (List.append_cancel_left hsame)
  have hkeys : mergeActiveLow 0xffff 0xffff (keysPressed a) =
      mergeActiveLow 0xffff 0xffff (keysPressed b) := by
    have hstep (inputs : Inputs) := step_read (hread .twinkleKeysRead)
      (show readTap .twinkleKeysRead 0x1f240000 0xffff 0xffff inputs s = _ from twinkleKeysRead_eq)
    have hsame := h [.read .twinkleKeysRead 0x1f240000 0xffff 0xffff a] _ _
      (runEvents_cons (hstep a) _) (runEvents_cons (hstep b) _)
    exact Option.some.inj (List.singleton_inj.mp (List.append_cancel_left hsame))
  have hpanel := hport 0x070000
  rw [twinkleIoRead_eq rfl, twinkleIoRead_eq rfl, Option.some.injEq] at hpanel
  have hmergedKeys (inputs : Inputs) := mergedKeys 0xffff inputs
  have hmergedPanel (inputs : Inputs) := mergedPanel 0xff inputs
  have hpacked (x y x' y' : LuaInt)
      (heq : (x &&& (0x0f : LuaInt)) ||| ((y &&& (0x0f : LuaInt)) <<< 4) =
        (x' &&& (0x0f : LuaInt)) ||| ((y' &&& (0x0f : LuaInt)) <<< 4)) (i : ℕ) (hi : i < 4) :
      x.getLsbD i = x'.getLsbD i ∧ y.getLsbD i = y'.getLsbD i := by
    obtain ⟨hx, hy⟩ := getLsbD_packed (x := x) (y := y) hi
    obtain ⟨hx', hy'⟩ := getLsbD_packed (x := x') (y := y') hi
    exact ⟨by rw [← hx, heq, hx'], by rw [← hy, heq, hy']⟩
  refine ⟨fun button => ?_, fun button => ?_, fun key => ?_, fun playerNo hplayer => ?_,
    fun sliderNo hslider => ?_⟩
  · have hbit := IidxIoPanelBit.exists_bit_iff.mp ⟨button, rfl⟩
    exact eq_of_merged ((hmergedPanel a).panel _ hbit) ((hmergedPanel b).panel _ hbit)
      (by rw [hpanel]) (by cases button <;> decide)
  · cases button with
    | sysTest =>
      exact eq_of_merged (hmergedPanel a).test (hmergedPanel b).test (by rw [hpanel]) (by decide)
    | sysService =>
      exact eq_of_merged (hmergedPanel a).service (hmergedPanel b).service (by rw [hpanel])
        (by decide)
    | sysCoin =>
      exact eq_of_merged (hmergedKeys a).coin (hmergedKeys b).coin (by rw [hkeys]) (by decide)
  · have hbit := IidxIoKeyBit.exists_bit_iff.mp ⟨key, rfl⟩
    exact eq_of_merged ((hmergedKeys a).key _ hbit) ((hmergedKeys b).key _ hbit)
      (by rw [hkeys]) (by cases key <;> decide)
  · refine (and_lowMask_eq_iff (n := 8) (by decide)).mp ?_
    interval_cases playerNo
    · exact Option.some.inj (hport 0x170000)
    · exact Option.some.inj (hport 0x0f0000)
  · intro i hi
    interval_cases sliderNo
    · exact (hpacked _ _ _ _ (Option.some.inj (hport 0x1f0000)) i hi).1
    · exact (hpacked _ _ _ _ (Option.some.inj (hport 0x1f0000)) i hi).2
    · exact (hpacked _ _ _ _ (Option.some.inj (hport 0x270000)) i hi).1
    · exact (hpacked _ _ _ _ (Option.some.inj (hport 0x270000)) i hi).2
    · exact (and_lowMask_eq_iff (n := 4) (by decide)).mp (Option.some.inj (hport 0x2f0000)) i hi

/-- **Which inputs the game can tell apart.** Take any run of a started plugin, and two
sets of inputs for the backend to return. No further callbacks have the plugin answer or
call the backend differently for the two, exactly if they have the same buttons, keys
and positions: other bits of the words never matter, and each of these does. -/
theorem inputs_alike_iff (es : List Event) {s : State} (hrun : run .load es = .ok s)
    (hstarted : s.isInitialized = true) (a b : Inputs) :
    (∀ es' : List Event, ∃ s₁ s₂, run s (es'.map (Event.withInputs a)) = .ok s₁ ∧
      run s (es'.map (Event.withInputs b)) = .ok s₂ ∧ s₁.calls = s₂.calls ∧
      s₁.answers = s₂.answers) ↔ SameInputs a b := by
  have hafter := State.after_of_run hrun
  have htaps := State.tapsAgree_of_run hrun
  have hwrite : s.writeCallback .twinkleIoWrite = true := hafter.initialized hstarted
  constructor
  · intro h
    refine sameInputs_of_answers hwrite (fun tap => (htaps.read tap).trans hwrite)
      fun es' s₁ s₂ hs₁ hs₂ => ?_
    obtain ⟨t₁, t₂, ht₁, ht₂, -, hanswers⟩ := h es'
    obtain rfl : t₁ = s₁ := Except.ok.inj (ht₁.symm.trans hs₁)
    obtain rfl : t₂ = s₂ := Except.ok.inj (ht₂.symm.trans hs₂)
    exact hanswers
  · intro h es'
    obtain ⟨s₁, hs₁, -⟩ := run_load (es ++ es'.map (Event.withInputs a))
    rw [run, runEvents_append, show runEvents step .load es = .ok s from hrun] at hs₁
    exact ⟨s₁, s₁, hs₁, (runEvents_map_congr h.step_eq es').symm.trans hs₁, rfl, rfl⟩

/-- The second slider one step up is told apart, and a bit beyond its four is not. -/
theorem inputs_alike_slider :
    ∃ s, run .load [.start "bmiidxa".toList true ⟨true, true, true⟩] = .ok s ∧
      ¬(∀ es' : List Event, ∃ s₁ s₂,
        run s (es'.map (Event.withInputs ⟨0, 0, 0, fun _ => 0, fun _ => 0⟩)) = .ok s₁ ∧
        run s (es'.map (Event.withInputs ⟨0, 0, 0, fun _ => 0,
          fun sliderNo => if sliderNo = 1 then 1 else 0⟩)) = .ok s₂ ∧
        s₁.calls = s₂.calls ∧ s₁.answers = s₂.answers) ∧
      ∀ es' : List Event, ∃ s₁ s₂,
        run s (es'.map (Event.withInputs ⟨0, 0, 0, fun _ => 0, fun _ => 0⟩)) = .ok s₁ ∧
        run s (es'.map (Event.withInputs ⟨0, 0, 0, fun _ => 0,
          fun sliderNo => if sliderNo = 1 then 0x10 else 0⟩)) = .ok s₂ ∧
        s₁.calls = s₂.calls ∧ s₁.answers = s₂.answers := by
  have hiff := inputs_alike_iff [.start "bmiidxa".toList true ⟨true, true, true⟩] rfl rfl
    ⟨0, 0, 0, fun _ => 0, fun _ => 0⟩
  refine ⟨_, rfl, fun h => ?_, (hiff _).mpr ⟨fun _ => rfl, fun _ => rfl, fun _ => rfl,
    fun _ _ _ _ => rfl, ?_⟩⟩
  · exact absurd (((hiff _).mp h).slider 1 (by decide) 0 (by decide)) (by decide)
  · decide

end MamePlugins.Iidxio
