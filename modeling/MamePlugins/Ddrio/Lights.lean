import MamePlugins.Library.LastSent
import MamePlugins.Ddrio.Cells

/-!
# Lights the backend knows of

The backend hears of a light word only when the word changes. This file follows
the backend's last words over a session, and shows that every light call switches
one lamp, the one wired to an output that changed.
-/

namespace MamePlugins.Ddrio

open Library

/-! ### Light calls -/

/-- The light word a call passes on. -/
def Call.light : Call → Option (LightWord × LuaInt)
  | .ddrIoSetLightsExtio light => some (.extio, light)
  | .ddrIoSetLightsP3io light => some (.p3io, light)
  | _ => none

/-- The value of a light word that the backend received last. -/
abbrev lastLight (w : LightWord) (calls : List Call) : Option LuaInt :=
  lastSent Call.light w calls

theorem LightWord.light_call (w : LightWord) (light : LuaInt) :
    (w.call light).light = some (w, light) := by
  cases w <;> rfl

/-- Calls of other kinds do not touch the backend's light words. -/
theorem lastLight_append_of_forall {calls calls' : List Call} (h : ∀ c ∈ calls', c.light = none)
    (w : LightWord) : lastLight w (calls ++ calls') = lastLight w calls :=
  lastSent_append_of_forall fun c hc light => by simp [h c hc]

/-- Each light call of `calls`, made after those of `before`, differs from the
backend's value of that word in the bit of one lamp, of which `P` holds. -/
def LampByLamp (P : Lamp → Prop) (before : List Call) : List Call → Prop
  | [] => True
  | c :: calls =>
    (∀ w light, c.light = some (w, light) →
      ∃ l last, P l ∧ l.word = w ∧ lastLight w before = some last ∧
        DifferOnlyAt l.bit last light) ∧
    LampByLamp P (before ++ [c]) calls

theorem LampByLamp.append {P : Lamp → Prop} {before calls calls' : List Call}
    (h : LampByLamp P before calls) (h' : LampByLamp P (before ++ calls) calls') :
    LampByLamp P before (calls ++ calls') := by
  induction calls generalizing before with
  | nil => simpa using h'
  | cons c calls ih => exact ⟨h.1, ih h.2 (by simpa using h')⟩

/-- Calls that are no light calls change no lamp. -/
theorem LampByLamp.of_forall {P : Lamp → Prop} {before calls : List Call}
    (h : ∀ c ∈ calls, c.light = none) : LampByLamp P before calls := by
  induction calls generalizing before with
  | nil => exact trivial
  | cons c calls ih =>
    refine ⟨fun w light hlight => ?_, ih fun c' hc' => h c' (by simp [hc'])⟩
    rw [h c (by simp)] at hlight
    exact absurd hlight (by simp)

/-! ### One output -/

/-- An output's level in a nibble differs from the register's copy. -/
def State.Changes (s : State) (offset : Fin 8) (data : ℕ) (i : Fin 4) : Prop :=
  outputLevel (s.ksys573DioWriteOutputData offset) i ≠ outputLevel data i

/-- An output either leaves the lights and calls alone, because it does not change,
or has no lamp, or its lamp is right already; or it switches its lamp, and tells
the backend. -/
theorem State.driveOutput_cases (s : State) (offset : Fin 8) (data : ℕ) (i : Fin 4) :
    ((∀ l : Lamp, l.output = (offset, i) → s.Changes offset data i →
        s.lit l = !outputLevel data i) ∧
      (s.driveOutput offset data i).calls = s.calls ∧
        ∀ w, (s.driveOutput offset data i).light w = s.light w) ∨
      ∃ l : Lamp, l.output = (offset, i) ∧ s.Changes offset data i ∧
        s.lit l ≠ !outputLevel data i ∧
        let light := assignBit (s.light l.word) l.bit !outputLevel data i
        (s.driveOutput offset data i).calls = s.calls ++ [l.word.call light] ∧
          ∀ w, (s.driveOutput offset data i).light w = if w = l.word then light else s.light w := by
  unfold State.Changes State.driveOutput
  by_cases hsame : outputLevel (s.ksys573DioWriteOutputData offset) i = outputLevel data i
  · rw [if_pos hsame]
    exact Or.inl ⟨fun _ _ hchanges => absurd hsame hchanges, rfl, fun _ => rfl⟩
  · rw [if_neg hsame]
    by_cases hlamp : ∃ l, wireAt (4 * offset + i) = .lamp l
    · obtain ⟨l, hwire⟩ := hlamp
      have hl := wireAt_eq_lamp_iff.mp hwire
      have hlight := s.putLamp_light l !outputLevel data i
      rw [hwire, State.drive]
      by_cases hlit : s.lit l = !outputLevel data i
      · have hassign := (assignBit_eq_self (Nat.lt_of_lt_of_le l.bit_lt (by decide))).mpr hlit
        refine Or.inl ⟨fun l' hl' _ => ?_, ?_, fun w => ?_⟩
        · have hwire' := wireAt_eq_lamp_iff.mpr hl'
          rw [hwire, Wire.lamp.injEq] at hwire'
          exact hwire' ▸ hlit
        · rw [State.putLamp, if_pos hassign]
        · rw [State.putLamp, if_pos hassign]
      · have hassign := mt (assignBit_eq_self (Nat.lt_of_lt_of_le l.bit_lt (by decide))).mp hlit
        refine Or.inr ⟨l, hl, hsame, hlit, ?_, fun w => ?_⟩
        · rw [State.putLamp, if_neg hassign]
          cases l.word <;> rfl
        · rw [hlight]
          split_ifs with hw
          · rw [hw]
          · rfl
    · have hnone : ∀ l, wireAt (4 * offset + i) ≠ .lamp l := fun l hl => hlamp ⟨l, hl⟩
      refine Or.inl ⟨fun l hl _ => ?_, ?_, s.drive_light_of_not_lamp hnone _⟩
      · exact absurd (wireAt_eq_lamp_iff.mpr hl) (hnone l)
      · cases hwire : wireAt (4 * offset + i) with
        | lamp l => exact absurd hwire (hnone l)
        | stageDo p => rfl
        | stageClk p => rfl
        | unconnected => rfl

/-! ### One register write -/

/-- The backend's words are the plugin's, and hold lamps of `ddrio.h` only. -/
structure State.InStep (s : State) : Prop where
  sent : ∀ w, lastLight w s.calls = some (s.light w)
  lamps : ∀ w k, (s.light w).getLsbD k = true → ∃ l : Lamp, l.word = w ∧ l.bit = k

/-- The lamps a register write may switch: those wired to an output it changes,
and not right yet. -/
def State.Switches (s : State) (offset : Fin 8) (data : ℕ) (l : Lamp) : Prop :=
  l.output.1 = offset ∧ s.Changes offset data l.output.2 ∧ s.lit l ≠ !outputLevel data l.output.2

theorem State.InStep.of_eq {s s' : State} (h : s.InStep)
    (hsent : ∀ w, lastLight w s'.calls = lastLight w s.calls)
    (hlight : ∀ w, s'.light w = s.light w) : s'.InStep :=
  ⟨fun w => by rw [hsent, hlight, h.sent], fun w => by rw [hlight]; exact h.lamps w⟩

/-- One output keeps the backend in step, with at most one call. -/
theorem State.InStep.driveOutput {s : State} (h : s.InStep) (offset : Fin 8) (data : ℕ)
    (i : Fin 4) :
    (s.driveOutput offset data i).InStep ∧
      ∃ calls, (s.driveOutput offset data i).calls = s.calls ++ calls ∧
        LampByLamp (fun l => l.output = (offset, i) ∧ s.Changes offset data i ∧
          s.lit l ≠ !outputLevel data i) s.calls calls := by
  rcases s.driveOutput_cases offset data i with ⟨-, hcalls, hlight⟩ |
    ⟨l, hl, hchanges, hlit, hcalls, hlight⟩
  · exact ⟨h.of_eq (fun w => by rw [hcalls]) hlight, [], by simpa using hcalls, trivial⟩
  · have hbit : l.bit < 64 := Nat.lt_of_lt_of_le l.bit_lt (by decide)
    refine ⟨⟨fun w => ?_, fun w k hk => ?_⟩, _, hcalls, ⟨fun w light hsent => ?_, trivial⟩⟩
    · rw [hcalls, hlight, lastLight, lastSent_concat (l.word.light_call _), ← lastLight, h.sent]
      split_ifs <;> rfl
    · rw [hlight] at hk
      split_ifs at hk with hw
      · rw [getLsbD_assignBit hbit] at hk
        split_ifs at hk with hkl
        · exact ⟨l, hw.symm, hkl.symm⟩
        · exact hw ▸ h.lamps l.word k hk
      · exact h.lamps w k hk
    · rw [l.word.light_call, Option.some.injEq, Prod.mk.injEq] at hsent
      obtain ⟨rfl, rfl⟩ := hsent
      exact ⟨l, s.light l.word, ⟨hl, hchanges, hlit⟩, rfl, h.sent _,
        differOnlyAt_assignBit hbit (mt (assignBit_eq_self hbit).mp hlit)⟩

theorem LampByLamp.mono {P Q : Lamp → Prop} (hPQ : ∀ l, P l → Q l) {before calls : List Call}
    (h : LampByLamp P before calls) : LampByLamp Q before calls := by
  induction calls generalizing before with
  | nil => exact trivial
  | cons c calls ih =>
    refine ⟨fun w light hlight => ?_, ih h.2⟩
    obtain ⟨l, last, hl, hrest⟩ := h.1 w light hlight
    exact ⟨l, last, hPQ l hl, hrest⟩

/-- A register write keeps the backend in step, and its calls switch lamps of
changed outputs one at a time. -/
theorem State.InStep.writeRegister {s : State} (h : s.InStep) (offset : Fin 8) (data : ℕ) :
    (s.writeRegister offset data).InStep ∧
      ∃ calls, (s.writeRegister offset data).calls = s.calls ++ calls ∧
        LampByLamp (s.Switches offset data) s.calls calls := by
  have hfold (outputs : List (Fin 4)) (houtputs : outputs.Nodup) :
      (outputs.foldl (State.driveOutput offset data) s).InStep ∧
        ∃ calls, (outputs.foldl (State.driveOutput offset data) s).calls = s.calls ++ calls ∧
          LampByLamp (s.Switches offset data) s.calls calls := by
    induction outputs using List.reverseRecOn with
    | nil => exact ⟨h, [], by simp, trivial⟩
    | append_singleton outputs i ih =>
      rw [List.nodup_append] at houtputs
      obtain ⟨hnodup, -, hnew⟩ := houtputs
      obtain ⟨hstep, calls, hcalls, hlamps⟩ := ih hnodup
      obtain ⟨hstep', calls', hcalls', hlamps'⟩ := hstep.driveOutput offset data i
      rw [List.foldl_concat]
      refine ⟨hstep', calls ++ calls', by rw [hcalls', hcalls, List.append_assoc], ?_⟩
      refine hlamps.append (hcalls ▸ hlamps'.mono ?_)
      rintro l ⟨hl, hchanges, hlit⟩
      -- Output `i` has not been driven before, so its lamp is still as it was.
      rw [State.Changes, outputFree_data.foldl] at hchanges
      have hi : i ∉ outputs := fun hi => hnew i hi i (by simp) rfl
      rw [State.foldl_driveOutput_lit, if_neg fun hd => hi (by simpa [hl] using hd.2.1)] at hlit
      rw [State.Switches, hl]
      exact ⟨rfl, hchanges, hlit⟩
  obtain ⟨hstep, calls, hcalls, hlamps⟩ := hfold [0, 1, 2, 3] (by decide)
  exact ⟨hstep.of_eq (fun _ => rfl) (fun w => by cases w <;> rfl), calls, hcalls, hlamps⟩

/-- A register write passes on light words and makes no other calls, and it makes none
exactly if it has no lamp to switch. -/
theorem State.writeRegister_calls (s : State) (offset : Fin 8) (data : ℕ) :
    ∃ calls, (s.writeRegister offset data).calls = s.calls ++ calls ∧
      (∀ c ∈ calls, ∃ (w : LightWord) (light : LuaInt), c = w.call light) ∧
      (calls = [] ↔ ∀ l, ¬s.Switches offset data l) := by
  have hfold (outputs : List (Fin 4)) (houtputs : outputs.Nodup) :
      ∃ calls, (outputs.foldl (State.driveOutput offset data) s).calls = s.calls ++ calls ∧
        (∀ c ∈ calls, ∃ (w : LightWord) (light : LuaInt), c = w.call light) ∧
        (calls = [] ↔ ∀ l, s.Switches offset data l → l.output.2 ∉ outputs) := by
    induction outputs using List.reverseRecOn with
    | nil => exact ⟨[], by simp, by simp, by simp⟩
    | append_singleton outputs i ih =>
      rw [List.nodup_append] at houtputs
      obtain ⟨hnodup, -, hnew⟩ := houtputs
      obtain ⟨calls, hcalls, hlights, hnil⟩ := ih hnodup
      have hi : i ∉ outputs := fun hi => hnew i hi i (by simp) rfl
      have hlit (l : Lamp) (hl : l.output = (offset, i)) :
          (outputs.foldl (State.driveOutput offset data) s).lit l = s.lit l := by
        rw [State.foldl_driveOutput_lit, if_neg fun hd => hi (by simpa [hl] using hd.2.1)]
      have hchanges : (outputs.foldl (State.driveOutput offset data) s).Changes offset data i ↔
          s.Changes offset data i := by
        rw [State.Changes, outputFree_data.foldl, State.Changes]
      rw [List.foldl_concat]
      rcases (outputs.foldl (State.driveOutput offset data) s).driveOutput_cases offset data i with
        ⟨hright, hcalls', -⟩ | ⟨l, hl, hch, hwrong, hcalls', -⟩
      · refine ⟨calls, hcalls'.trans hcalls, hlights, hnil.trans (forall_congr' fun l => ?_)⟩
        refine imp_congr_right fun hsw => ?_
        have hne : l.output.2 ≠ i := by
          intro hli
          have hl : l.output = (offset, i) := Prod.ext hsw.1 hli
          refine hsw.2.2 ?_
          rw [hli, ← hlit l hl]
          exact hright l hl (hchanges.mpr (hli ▸ hsw.2.1))
        simp [hne]
      · refine ⟨calls ++ [_], by rw [hcalls', hcalls, List.append_assoc], ?_, ?_⟩
        · rw [List.forall_mem_append, List.forall_mem_singleton]
          exact ⟨hlights, _, _, rfl⟩
        · refine iff_of_false (by simp) fun hall => hall l ⟨?_, ?_, ?_⟩ (by simp [hl])
          · rw [hl]
          · rw [hl]
            exact hchanges.mp hch
          · rw [hl, ← hlit l hl]
            exact hwrong
  obtain ⟨calls, hcalls, hlights, hnil⟩ := hfold [0, 1, 2, 3] (by decide)
  have hmem : ∀ i : Fin 4, i ∈ ([0, 1, 2, 3] : List (Fin 4)) := by decide
  refine ⟨calls, hcalls, hlights, hnil.trans (forall_congr' fun l => ?_)⟩
  exact ⟨fun h hsw => h hsw (hmem _), fun h hsw => absurd hsw h⟩

/-! ### Sessions -/

theorem AfterStart.inStep {s : State} (h : AfterStart s) : s.InStep := by
  obtain ⟨s₀, systemName, -, hs₀, hname, rfl⟩ := h
  rw [init_eq hs₀ hname]
  refine ⟨fun w => ?_, fun w k hk => ?_⟩
  · have hoff : sent Call.light w switchEverythingOff = [0] := by cases w <;> rfl
    rw [lastLight, lastSent, State.started, sent_append, hoff, List.getLast?_concat]
    cases w <;> rfl
  · cases w <;> simp [State.light, State.started] at hk

/-- In a session a callback keeps the backend in step. Its light calls switch
lamps of outputs that the register write changes, one at a time. -/
theorem State.InStep.next {s : State} (h : s.InStep) (hrunning : s.Running) {e : Event}
    (he : e ≠ .stop) :
    (s.next e).InStep ∧
      ∃ calls, (s.next e).calls = s.calls ++ calls ∧
        LampByLamp (fun l => ∃ r n, e.reached = some (r, n) ∧ s.Switches r n l) s.calls calls := by
  rcases hrunning.next_cases he with ⟨r, n, hreached, hnext⟩ | ⟨-, pad, answers, hnext⟩
  · obtain ⟨hstep, calls, hcalls, hlamps⟩ := h.writeRegister r n
    rw [hnext]
    exact ⟨hstep, calls, hcalls, hlamps.mono fun l hl => ⟨r, n, hreached, hl⟩⟩
  · have hquiet : ∀ c ∈ e.polledPad.toList.map .ddrIoReadPad, Call.light c = none := by
      simp [Call.light]
    rw [hnext]
    refine ⟨h.of_eq (fun w => lastLight_append_of_forall hquiet w) fun w => by cases w <;> rfl,
      _, rfl, LampByLamp.of_forall hquiet⟩

/-- In a session a callback that does not poll the pad passes on light words, if it
has lamps to switch, and makes no other calls. -/
theorem State.Running.next_calls {s : State} (h : s.Running) {e : Event} (he : e ≠ .stop) :
    ∃ calls, (s.next e).calls = s.calls ++ calls ∧
      (∀ pad, e.polledPad = some pad → calls = [.ddrIoReadPad pad]) ∧
      (e.polledPad = none →
        (∀ c ∈ calls, ∃ (w : LightWord) (light : LuaInt), c = w.call light) ∧
        (calls = [] ↔ ∀ r n l, e.reached = some (r, n) → ¬s.Switches r n l)) := by
  rcases h.next_cases he with ⟨r, n, hreached, hnext⟩ | ⟨hnone, pad, answers, hnext⟩
  · obtain ⟨calls, hcalls, hlights, hnil⟩ := s.writeRegister_calls r n
    have hpad : e.polledPad = none := by
      cases e with
      | write => rfl
      | _ => cases hreached
    rw [hnext]
    refine ⟨calls, hcalls, by simp [hpad], fun _ => ⟨hlights, hnil.trans ⟨?_, fun h l => ?_⟩⟩⟩
    · intro h r' n' l hreached'
      rw [hreached, Option.some.injEq, Prod.mk.injEq] at hreached'
      obtain ⟨rfl, rfl⟩ := hreached'
      exact h l
    · exact h r n l hreached
  · rw [hnext]
    exact ⟨_, rfl, fun pad hpad => by simp [hpad], fun hpad => by simp [hpad, hnone]⟩

theorem State.InStep.foldl_next {s : State} (h : s.InStep) (hrunning : s.Running)
    {es : List Event} (hes : ∀ e ∈ es, e ≠ .stop) : (es.foldl State.next s).InStep := by
  have hboth : (es.foldl State.next s).Running ∧ (es.foldl State.next s).InStep :=
    List.foldlRecOn (motive := fun s : State => s.Running ∧ s.InStep) es State.next ⟨hrunning, h⟩
      fun _ hs e he => ⟨hs.1.next (hes e he), (hs.2.next hs.1 (hes e he)).1⟩
  exact hboth.2

/-- **The backend's lights are in step, one lamp at a time.** Throughout a session
the backend's last light words are the plugin's, and hold lamps of `ddrio.h` only.
The next callback polls the pad and makes no other call, or its calls pass on light
words. Each differs from the word passed before in one bit, of a lamp wired to an
output that the callback changes; and there is none exactly if all lamps of changed
outputs are right already. -/
theorem lights_inStep {s₀ : State} (h₀ : AfterStart s₀) (es : List Event) (e : Event)
    (hes : ∀ e' ∈ es ++ [e], e' ≠ .stop) :
    ∃ s s' calls, run s₀ es = .ok s ∧ step s e = .ok s' ∧ s'.calls = s.calls ++ calls ∧
      (∀ w, lastLight w s.calls = some (s.light w)) ∧
      (∀ w k, (s.light w).getLsbD k = true → ∃ l : Lamp, l.word = w ∧ l.bit = k) ∧
      LampByLamp (fun l => ∃ n, e.reached = some (l.output.1, n) ∧
        s.Changes l.output.1 n l.output.2) s.calls calls ∧
      (∀ pad, e.polledPad = some pad → calls = [.ddrIoReadPad pad]) ∧
      (e.polledPad = none →
        (∀ c ∈ calls, ∃ (w : LightWord) (light : LuaInt), c = w.call light) ∧
        (calls = [] ↔ ∀ (l : Lamp) (n : ℕ), e.reached = some (l.output.1, n) →
          s.Changes l.output.1 n l.output.2 → s.lit l = !outputLevel n l.output.2)) := by
  have hbefore : ∀ e' ∈ es, e' ≠ .stop := fun e' he' => hes e' (by simp [he'])
  have he := hes e (by simp)
  have hrunning := h₀.running.foldl_next hbefore
  have hstep := h₀.inStep.foldl_next h₀.running hbefore
  obtain ⟨-, calls, hcalls, hlamps⟩ := hstep.next hrunning he
  obtain ⟨calls', hcalls', hpolls, hwrites⟩ := hrunning.next_calls he
  obtain rfl : calls = calls' := List.append_cancel_left (hcalls.symm.trans hcalls')
  refine ⟨_, _, calls, run_eq h₀.running.valid es, step_eq hrunning.valid e, hcalls, hstep.sent,
    hstep.lamps, hlamps.mono ?_, hpolls,
    fun hpad => ⟨(hwrites hpad).1, (hwrites hpad).2.trans ⟨fun hright l n hreached hl => ?_,
      fun hright r n l hreached hl => ?_⟩⟩⟩
  · rintro l ⟨r, n, hreached, hl⟩
    exact ⟨n, hl.1 ▸ hreached, hl.1 ▸ hl.2.1⟩
  · exact not_not.mp fun hlit => hright _ n l hreached ⟨rfl, hl, hlit⟩
  · exact hl.2.2 (hright l n (hl.1 ▸ hreached) (hl.1 ▸ hl.2.1))

/-- Player one's UP output is driven high, where its dark lamp is right already, and
then low, which lights it: one call, in which only the lamp's bit is new. -/
theorem lights_inStep_up :
    ∃ s s', run (init "ddr4mp".toList true .load)
        [.write .ksys573DioWrite_1_0 0x1f6400e0 0x10000000 0xffff0000] = .ok s ∧
      step s (.write .ksys573DioWrite_1_0 0x1f6400e0 0 0xffff0000) = .ok s' ∧
      s.calls = (init "ddr4mp".toList true .load).calls ∧
      lastLight .extio s.calls = some 0 ∧ s.ddrioStateExtioLight = 0 ∧
      s'.calls = s.calls ++ [.ddrIoSetLightsExtio 0x40000000] ∧
      ∃ l : Lamp, l.word = .extio ∧ l.output.1 = 0 ∧ l.bit = 0x1e ∧
        DifferOnlyAt l.bit 0 (0x40000000 : LuaInt) := by
  have hafter : AfterStart (init "ddr4mp".toList true .load) :=
    ⟨.load, "ddr4mp".toList, ⟨[], rfl⟩, rfl, by decide, rfl⟩
  obtain ⟨s, s', calls, hrun, hstep, hcalls, hsent, -, hlamps, -⟩ := lights_inStep hafter
    [.write .ksys573DioWrite_1_0 0x1f6400e0 0x10000000 0xffff0000]
    (.write .ksys573DioWrite_1_0 0x1f6400e0 0 0xffff0000) (by simp)
  refine ⟨s, s', hrun, hstep, ?_⟩
  rw [run_eq hafter.running.valid, Except.ok.injEq] at hrun
  subst hrun
  rw [step_eq (hafter.running.valid.foldl_next _), Except.ok.injEq] at hstep
  subst hstep
  obtain rfl : calls = [.ddrIoSetLightsExtio 0x40000000] :=
    List.append_cancel_left (hcalls.symm.trans (by decide))
  obtain ⟨l, last, ⟨n, hreached, -⟩, hword, hlast, honly⟩ := hlamps.1 .extio _ rfl
  have hzero := hsent .extio
  obtain rfl : last = 0 := Option.some.inj (hlast.symm.trans hzero)
  have hone : (0 : Fin 8) = l.output.1 := congrArg Prod.fst (Option.some.inj hreached)
  exact ⟨by decide, hlast, rfl, hcalls, l, hword, hone.symm, ((honly 0x1e).mp (by decide)).symm,
    honly⟩

end MamePlugins.Ddrio
