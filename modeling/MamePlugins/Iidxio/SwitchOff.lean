import MamePlugins.Iidxio.Session

/-!
# Switching the cabinet off

The lights that the plugin sets are staged until `ep1_send` transmits them. A stop sets
all of them to zero and leaves the transmission to a frame update. This file says when
the transmission takes place.
-/

namespace MamePlugins.Iidxio

open Library

/-- The lights that `ep1_send` transmits. -/
inductive Ep1Light
  | deck
  | panel
  | topLamps
  | topNeons
  deriving DecidableEq, Repr

/-- The light that a call stages. -/
def Call.ep1Light : Call → Option (Ep1Light × LuaInt)
  | .iidxioEp1SetDeckLights lights => some (.deck, lights)
  | .iidxioEp1SetPanelLights lights => some (.panel, lights)
  | .iidxioEp1SetTopLamps lamps => some (.topLamps, lamps)
  | .iidxioEp1SetTopNeons neons => some (.topNeons, neons)
  | _ => none

def Call.isEp1Send : Call → Bool
  | .iidxioEp1Send _ => true
  | _ => false

/-- Some `ep1_send` transmits all lights as zero, and no light is set after it but to
zero. -/
abbrev SwitchedOff (calls : List Call) : Prop :=
  Settles Call.ep1Light Call.isEp1Send (0 : LuaInt) calls

theorem lastSent_append_offCalls (l : Ep1Light) (calls : List Call) :
    lastSent Call.ep1Light l (calls ++ offCalls) = some 0 := by
  rw [lastSent, sent_append]
  cases l <;> simp [offCalls, sent, Call.ep1Light]

theorem offCalls_zero : ∀ c ∈ offCalls, ∀ l word, c.ep1Light = some (l, word) → word = 0 := by
  simp [offCalls, Call.ep1Light]

theorem frameCalls_ep1Light (text : LuaString) (results : FrameResults) :
    ∀ c ∈ frameCalls text results, c.ep1Light = none := by
  rw [frameCalls]
  split_ifs <;> simp [Call.ep1Light]

/-- The calls of a stop switch the cabinet off unless the display reports an error. -/
theorem switchedOff_append_iff (calls : List Call) (text : LuaString) (results : FrameResults) :
    SwitchedOff (calls ++ (offCalls ++ frameCalls text results)) ↔
      results.ep3Write16seg = true ∨ SwitchedOff calls := by
  have hframe : ∀ c ∈ frameCalls text results, ∀ l word,
      c.ep1Light = some (l, word) → word = 0 := by
    intro c hc l word hlight
    rw [frameCalls_ep1Light text results c hc] at hlight
    cases hlight
  cases hep3 : results.ep3Write16seg with
  | true =>
    refine iff_of_true ?_ (Or.inl rfl)
    obtain ⟨rest, hrest⟩ : ∃ rest, frameCalls text results =
        .iidxioEp3Write16seg text true :: .iidxioEp1Send results.ep1Send :: rest := by
      rw [frameCalls, hep3, if_neg (by decide)]
      exact ⟨_, rfl⟩
    rw [hrest] at hframe ⊢
    refine ⟨calls ++ offCalls ++ [.iidxioEp3Write16seg text true], .iidxioEp1Send results.ep1Send,
      rest, by simp, rfl, fun l => ?_, fun c hc => hframe c (List.mem_cons_of_mem _ hc)⟩
    rw [lastSent_append_of_forall, lastSent_append_offCalls]
    simp [Call.ep1Light]
  | false =>
    have honly : frameCalls text results = [.iidxioEp3Write16seg text false] := by
      rw [frameCalls, hep3, if_pos rfl]
    rw [honly] at hframe ⊢
    constructor
    · intro h
      right
      apply h.of_append
      simp [offCalls, Call.isEp1Send]
    · rintro (hfalse | h)
      · cases hfalse
      · refine h.append fun c hc => ?_
        exact (List.mem_append.mp hc).elim (offCalls_zero c) (hframe c)

theorem not_switchedOff_nil : ¬SwitchedOff [] := by
  rintro ⟨before, c, after, heq, -⟩
  simp at heq

/-- A stop of a started plugin has its own calls switch the cabinet off before the backend
is closed. -/
def State.StopsDark (s : State) (e : Event) : Prop :=
  ∀ results, e = .stop results → s.isInitialized = true → ∃ s' calls,
    step s e = .ok s' ∧ s'.calls = s.calls ++ calls ++ [.iidxioFini] ∧ SwitchedOff calls

/-- A stop of a started plugin gets no error from the display. -/
def State.StopsWithDisplay (s : State) (e : Event) : Prop :=
  ∀ results, e = .stop results → s.isInitialized = true → results.ep3Write16seg = true

/-- The calls of a stop, and when they, alone or after those before, switch the cabinet
off. -/
theorem stop_calls_iff {s : State} (hs : s.isInitialized = true) (results : FrameResults) :
    ∃ s' calls, step s (.stop results) = .ok s' ∧
      s'.calls = s.calls ++ calls ++ [.iidxioFini] ∧
      (SwitchedOff calls ↔ results.ep3Write16seg = true) ∧
      (SwitchedOff (s.calls ++ calls) ↔ results.ep3Write16seg = true ∨ SwitchedOff s.calls) := by
  refine ⟨_, offCalls ++ frameCalls text16segBlank results,
    congrArg Except.ok (deinit_eq hs results), by simp [stopCalls], ?_,
    switchedOff_append_iff ..⟩
  have hown := switchedOff_append_iff [] text16segBlank results
  rwa [List.nil_append, or_iff_left not_switchedOff_nil] at hown

theorem State.stopsDark_iff (s : State) (e : Event) : s.StopsDark e ↔ s.StopsWithDisplay e := by
  refine forall_congr' fun results => forall_congr' fun he => forall_congr' fun hs => ?_
  subst he
  obtain ⟨s₁, calls₁, hstep₁, hcalls₁, hown, -⟩ := stop_calls_iff hs results
  rw [← hown]
  constructor
  · rintro ⟨s', calls, hstep, hcalls, hoff⟩
    rw [hstep₁, Except.ok.injEq] at hstep
    rw [← hstep, hcalls₁, List.append_cancel_right_eq, List.append_cancel_left_eq] at hcalls
    rwa [hcalls]
  · exact fun hoff => ⟨s₁, calls₁, hstep₁, hcalls₁, hoff⟩

/-- **When a stop switches the cabinet off.** Over every run, the stops of a started
plugin switch the cabinet off exactly if none of them gets an error from the display.
Counting transmissions before the stop as well, a stop with such an error leaves the
cabinet off only where it already was. -/
theorem stop_switches_off_iff (es : List Event) :
    ∃ s, run .load es = .ok s ∧
      (EveryStep step State.StopsDark .load es ↔
        EveryStep step State.StopsWithDisplay .load es) ∧
      (s.isInitialized = true → ∀ results, ∃ s' calls,
        step s (.stop results) = .ok s' ∧ s'.calls = s.calls ++ calls ++ [.iidxioFini] ∧
        (SwitchedOff calls ↔ results.ep3Write16seg = true) ∧
        (SwitchedOff (s.calls ++ calls) ↔
          results.ep3Write16seg = true ∨ SwitchedOff s.calls)) := by
  obtain ⟨s, hrun, -⟩ := run_load es
  exact ⟨s, hrun, everyStep_congr State.stopsDark_iff, fun hs => stop_calls_iff hs⟩

/-- A deck light is on, and the display fails at the stop: the light is never
transmitted as off. -/
theorem stop_leaves_deck_light_on :
    ∃ s s' calls, run .load [.start "bmiidxa".toList true ⟨true, true, true⟩,
        .write .twinkleKeysWrite 0x1f250000 0x01 0xff, .frame ⟨true, true, true⟩] = .ok s ∧
      step s (.stop ⟨false, true, true⟩) = .ok s' ∧
      s'.calls = s.calls ++ calls ++ [.iidxioFini] ∧ ¬SwitchedOff (s.calls ++ calls) := by
  have hlit : ∃ s, run .load [.start "bmiidxa".toList true ⟨true, true, true⟩,
      .write .twinkleKeysWrite 0x1f250000 0x01 0xff, .frame ⟨true, true, true⟩] = .ok s ∧
      s.isInitialized = true ∧ lastSent Call.ep1Light .deck s.calls = some 1 :=
    ⟨_, rfl, rfl, by decide⟩
  obtain ⟨s, hrun, hs, hdeck⟩ := hlit
  obtain ⟨s', calls, hstep, hcalls, -, hlog⟩ := stop_calls_iff hs ⟨false, true, true⟩
  refine ⟨s, s', calls, hrun, hstep, hcalls, ?_⟩
  rw [hlog]
  rintro (hdisplay | hoff)
  · cases hdisplay
  · rw [hoff.lastSent_eq .deck] at hdeck
    revert hdeck
    decide

end MamePlugins.Iidxio
