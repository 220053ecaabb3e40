import MamePlugins.Ddrio.RegisterModel

/-!
# Runs of the plugin

On valid stage cells no callback fails, so every run of the plugin is a fold of
a total step. A session is the part of a run from a successful start to the next
stop; `Running` is what holds in it throughout.
-/

namespace MamePlugins.Ddrio

open Library

/-! ### Which register a callback reaches -/

/-- A bus write at `address` carries a half-word for each of two registers; the
access mask tells which one is written. -/
def halfWord (address : LuaInt) (low high : Option (Fin 8)) (offset data mask : LuaInt) :
    Option (Fin 8 × ℕ) :=
  if offset = address then
    if mask = 0xffff then low.map (·, outputNibble (data &&& 0xffff))
    else if mask = 0xffff0000 then high.map (·, outputNibble ((data >>> 16) &&& 0xffff))
    else none
  else none

/-- The register a write-tap callback reaches, and the nibble it brings. -/
def reached : WriteTap → LuaInt → LuaInt → LuaInt → Option (Fin 8 × ℕ)
  | .ksys573DioWrite_1_0 => halfWord 0x1f6400e0 (some 1) (some 0)
  | .ksys573DioWrite_3_7 => halfWord 0x1f6400e4 (some 3) (some 7)
  | .ksys573DioWrite_4 => halfWord 0x1f6400f8 none (some 4)
  | .ksys573DioWrite_5_2 => halfWord 0x1f6400fc (some 5) (some 2)

/-- The register write a callback amounts to, if any. -/
def Event.reached : Event → Option (Fin 8 × ℕ)
  | .write tap offset data mask => Ddrio.reached tap offset data mask
  | _ => none

/-- The pad word a callback gets from the backend, if it polls it. -/
def Event.polledPad : Event → Option (BitVec 32)
  | .read .ksys573Jamma2Read offset _ mask pad =>
    if offset = 0x1f400008 ∧ mask = 0xffff then some pad else none
  | _ => none

/-- The nibbles that reach a register over a run, oldest first. -/
def nibbles (r : Fin 8) (es : List Event) : List ℕ :=
  es.filterMap fun e => e.reached.bind fun w => if w.1 = r then some w.2 else none

/-- A write tap does what the register write it reaches does. -/
theorem writeTap_eq (tap : WriteTap) (offset data mask : LuaInt) (s : State) :
    writeTap tap offset data mask s =
      match reached tap offset data mask with
      | some (r, n) => writeNibble r n s
      | none => .ok s := by
  cases tap with
  | ksys573DioWrite_1_0 =>
    simp only [writeTap, reached, halfWord, ksys573DioWrite_1_0, ksys573DioWriteOutput]
    split_ifs <;> rfl
  | ksys573DioWrite_3_7 =>
    simp only [writeTap, reached, halfWord, ksys573DioWrite_3_7, ksys573DioWriteOutput]
    split_ifs <;> rfl
  | ksys573DioWrite_4 =>
    have hlow (h : mask = 0xffff0000) : ¬mask = 0xffff := by
      rw [h]
      decide
    simp only [writeTap, reached, halfWord, ksys573DioWrite_4, ksys573DioWriteOutput]
    by_cases hhigh : mask = 0xffff0000
    · simp only [if_pos hhigh, if_neg (hlow hhigh)]
      split_ifs <;> rfl
    · simp only [if_neg hhigh]
      split_ifs <;> rfl
  | ksys573DioWrite_5_2 =>
    simp only [writeTap, reached, halfWord, ksys573DioWrite_5_2, ksys573DioWriteOutput]
    split_ifs <;> rfl

/-! ### The total step -/

/-- One callback, as a total function. -/
def State.next (s : State) (e : Event) : State :=
  match e with
  | .start systemName initResult => init systemName initResult s
  | .stop => deinit s
  | .read tap offset data mask pad =>
    if s.readCallback tap then
      let (answer, s) := readTap tap offset data mask pad s
      { s with answers := s.answers ++ [answer] }
    else s
  | .write tap offset data mask =>
    if s.writeCallback tap then
      match reached tap offset data mask with
      | some (r, n) => s.writeRegister r n
      | none => s
    else s

/-- A callback that is a successful start. -/
def State.Starts (s : State) : Event → Prop
  | .start systemName initResult =>
    s.isInitialized = false ∧ isSupported systemName = true ∧ initResult = true
  | _ => False

instance (s : State) (e : Event) : Decidable (s.Starts e) := by
  cases e <;> unfold State.Starts <;> infer_instance

/-- The state after a successful start: new registers, lights and mask, and the
stages as they were. -/
def State.started (s : State) : State :=
  { s with
    readCallback := fun _ => true
    writeCallback := fun _ => true
    calls := s.calls ++ [.ddrIoInit ddrioLogLevelInfo true] ++ switchEverythingOff
    ddrioStatePad := 0
    ddrioStateP3ioLight := 0
    ddrioStateExtioLight := 0
    ksys573DioWriteOutputData := fun _ => 0
    stageioInputMask := 0xffffffff
    isInitialized := true }

/-- What a callback can do: write a register, start the plugin, or touch neither
registers nor lights nor stages. Nothing but a start initializes the plugin. -/
theorem State.next_cases (s : State) (e : Event) :
    (∃ r n, e.reached = some (r, n) ∧ s.next e = s.writeRegister r n) ∨
      (s.Starts e ∧ s.next e = s.started) ∨
      (¬s.Starts e ∧ ∃ isInitialized readCallback writeCallback pad calls answers,
        (isInitialized = true → s.isInitialized = true) ∧ s.next e = { s with
          isInitialized := isInitialized
          readCallback := readCallback
          writeCallback := writeCallback
          ddrioStatePad := pad
          calls := calls
          answers := answers }) := by
  cases e with
  | start systemName initResult =>
    right
    rw [State.next, init, State.Starts]
    by_cases hs : s.isInitialized = true
    · exact Or.inr ⟨by simp [hs], _, _, _, _, _, _, id, if_pos hs⟩
    · rw [if_neg hs]
      by_cases hname : isSupported systemName = true
      · cases initResult with
        | true => exact Or.inl ⟨by simp [hs, hname], by simp [hname, State.call, State.started]⟩
        | false =>
          refine Or.inr ⟨by simp, _, _, _, _, _, _, ?_,
            (if_neg (not_not.mpr hname)).trans (if_pos rfl)⟩
          exact id
      · exact Or.inr ⟨by simp [hname], _, _, _, _, _, _, id, if_pos hname⟩
  | stop =>
    right; right
    rw [State.next, deinit]
    split_ifs
    · exact ⟨id, false, _, _, _, _, _, by simp, rfl⟩
    · exact ⟨id, _, _, _, _, _, _, id, rfl⟩
  | read tap offset data mask pad =>
    right; right
    refine ⟨id, ?_⟩
    rw [State.next]
    split_ifs
    · cases tap with
      | ksys573Jamma2Read =>
        unfold readTap ksys573Jamma2Read
        split_ifs <;> exact ⟨_, _, _, _, _, _, id, rfl⟩
      | ksys573Jamma1Read => exact ⟨_, _, _, _, _, _, id, rfl⟩
      | ksys573Jamma3Read => exact ⟨_, _, _, _, _, _, id, rfl⟩
    · exact ⟨_, _, _, _, _, _, id, rfl⟩
  | write tap offset data mask =>
    rw [State.next]
    split_ifs
    · cases hreached : reached tap offset data mask with
      | some w => exact Or.inl ⟨w.1, w.2, hreached, rfl⟩
      | none => exact Or.inr (Or.inr ⟨id, _, _, _, _, _, _, id, rfl⟩)
    · exact Or.inr (Or.inr ⟨id, _, _, _, _, _, _, id, rfl⟩)

/-- Only register writes change the stage cells, and they keep them valid. -/
theorem State.StagesValid.next {s : State} (h : s.StagesValid) (e : Event) :
    (s.next e).StagesValid := by
  rcases s.next_cases e with ⟨r, n, -, hnext⟩ | ⟨-, hnext⟩ | ⟨-, _, _, _, _, _, _, -, hnext⟩
  · rw [hnext]
    exact h.writeRegister r n
  · rw [hnext]
    exact h
  · rw [hnext]
    exact h

/-- No callback fails on valid stage cells. -/
theorem step_eq {s : State} (hvalid : s.StagesValid) (e : Event) : step s e = .ok (s.next e) := by
  cases e with
  | start systemName initResult => rfl
  | stop => rfl
  | read tap offset data mask pad =>
    rw [step, State.next]
    split_ifs <;> rfl
  | write tap offset data mask =>
    rw [step, State.next, writeTap_eq]
    split_ifs
    · cases reached tap offset data mask with
      | none => rfl
      | some w => exact writeNibble_eq hvalid w.1 w.2
    · rfl

/-- No run fails from valid stage cells. -/
theorem run_eq {s : State} (hvalid : s.StagesValid) (es : List Event) :
    run s es = .ok (es.foldl State.next s) := by
  induction es generalizing s with
  | nil => rfl
  | cons e es ih =>
    rw [run, runEvents, step_eq hvalid]
    exact ih (hvalid.next e)

theorem State.StagesValid.foldl_next {s : State} (h : s.StagesValid) (es : List Event) :
    (es.foldl State.next s).StagesValid :=
  List.foldlRecOn es State.next h fun _ hs e _ => hs.next e

theorem State.load_stagesValid : State.load.StagesValid := fun _ => Stage.fresh_valid

/-- A state the loaded plugin can reach. -/
def Reachable (s : State) : Prop := ∃ es, run .load es = .ok s

theorem Reachable.load : Reachable .load := ⟨[], rfl⟩

theorem Reachable.stagesValid {s : State} (h : Reachable s) : s.StagesValid := by
  obtain ⟨es, hrun⟩ := h
  rw [run_eq State.load_stagesValid, Except.ok.injEq] at hrun
  rw [← hrun]
  exact State.load_stagesValid.foldl_next es

theorem Reachable.next {s : State} (h : Reachable s) (e : Event) : Reachable (s.next e) := by
  have hstep := step_eq h.stagesValid e
  obtain ⟨es, hrun⟩ := h
  exact ⟨es ++ [e], runEvents_concat.mpr ⟨s, hrun, hstep⟩⟩

/-- Induction rule for reachable states. -/
theorem Reachable.induction {P : State → Prop} (h0 : P .load)
    (hnext : ∀ s e, Reachable s → P s → P (s.next e)) {s : State} (h : Reachable s) : P s := by
  obtain ⟨es, hrun⟩ := h
  induction es using List.reverseRecOn generalizing s with
  | nil =>
    rw [run, runEvents, Except.ok.injEq] at hrun
    exact hrun ▸ h0
  | append_singleton es e ih =>
    obtain ⟨s₁, hrun₁, hstep⟩ := runEvents_concat.mp hrun
    have hreach : Reachable s₁ := ⟨es, hrun₁⟩
    rw [step_eq hreach.stagesValid, Except.ok.injEq] at hstep
    exact hstep ▸ hnext s₁ e hreach (ih hrun₁)

/-! ### Sessions -/

/-- The state right after a start whose `ddr_io_init` succeeded, whatever
happened before. -/
def AfterStart (s : State) : Prop :=
  ∃ s₀ systemName, Reachable s₀ ∧ s₀.isInitialized = false ∧ isSupported systemName = true ∧
    s = init systemName true s₀

/-- The plugin is started: all taps are installed, and the stage cells are valid. -/
structure State.Running (s : State) : Prop where
  isInitialized : s.isInitialized = true
  readCallback : ∀ tap, s.readCallback tap = true
  writeCallback : ∀ tap, s.writeCallback tap = true
  valid : s.StagesValid

/-- A successful start, written out. -/
theorem init_eq {s : State} {systemName : List Char} (hs : s.isInitialized = false)
    (hname : isSupported systemName = true) : init systemName true s = s.started := by
  simp [init, hs, hname, State.call, State.started]

/-- A successful start in a reachable state begins a session. -/
theorem State.Starts.afterStart {s : State} {e : Event} (h : s.Starts e) (hreach : Reachable s) :
    AfterStart (s.next e) := by
  cases e with
  | start systemName initResult =>
    obtain ⟨hs, hname, rfl⟩ := h
    exact ⟨s, systemName, hreach, hs, hname, rfl⟩
  | stop => exact h.elim
  | read tap offset data mask pad => exact h.elim
  | write tap offset data mask => exact h.elim

theorem AfterStart.running {s : State} (h : AfterStart s) : s.Running := by
  obtain ⟨s₀, systemName, hreach, hs₀, hname, rfl⟩ := h
  rw [init_eq hs₀ hname]
  exact ⟨rfl, fun _ => rfl, fun _ => rfl, hreach.stagesValid⟩

/-- In a session a callback either writes a register or only polls the pad. A
reset calls `init`, which returns at once. -/
theorem State.Running.next_cases {s : State} (h : s.Running) {e : Event} (he : e ≠ .stop) :
    (∃ r n, e.reached = some (r, n) ∧ s.next e = s.writeRegister r n) ∨
      (e.reached = none ∧ ∃ pad answers,
        s.next e = { s with
          ddrioStatePad := pad
          calls := s.calls ++ e.polledPad.toList.map .ddrIoReadPad
          answers := s.answers ++ answers }) := by
  cases e with
  | start systemName initResult =>
    right
    refine ⟨rfl, s.ddrioStatePad, [], ?_⟩
    rw [State.next, init, if_pos h.isInitialized]
    simp [Event.polledPad]
  | stop => exact absurd rfl he
  | read tap offset data mask pad =>
    right
    refine ⟨rfl, ?_⟩
    rw [State.next, if_pos (h.readCallback tap)]
    cases tap with
    | ksys573Jamma1Read =>
      exact ⟨s.ddrioStatePad, [ksys573Jamma1Read offset data mask s],
        by simp [readTap, Event.polledPad]⟩
    | ksys573Jamma3Read =>
      exact ⟨s.ddrioStatePad, [ksys573Jamma3Read offset data mask s],
        by simp [readTap, Event.polledPad]⟩
    | ksys573Jamma2Read =>
      by_cases hhandled : offset = 0x1f400008 ∧ mask = 0xffff
      · refine ⟨pad.setWidth 64, [(ksys573Jamma2Read offset data mask pad s).1], ?_⟩
        rw [readTap, ksys573Jamma2Read, if_pos hhandled, Event.polledPad, if_pos hhandled]
        rfl
      · refine ⟨s.ddrioStatePad, [none], ?_⟩
        rw [readTap, ksys573Jamma2Read, if_neg hhandled, Event.polledPad, if_neg hhandled]
        simp
  | write tap offset data mask =>
    rw [State.next, if_pos (h.writeCallback tap)]
    cases hreached : reached tap offset data mask with
    | some w => exact Or.inl ⟨w.1, w.2, hreached, rfl⟩
    | none =>
      right
      exact ⟨hreached, s.ddrioStatePad, [], by simp [Event.polledPad]⟩

/-- A session lasts until the next stop. -/
theorem State.Running.next {s : State} (h : s.Running) {e : Event} (he : e ≠ .stop) :
    (s.next e).Running := by
  have hvalid := h.valid.next e
  rcases h.next_cases he with ⟨r, n, -, hnext⟩ | ⟨-, pad, answers, hnext⟩
  · rw [hnext] at hvalid ⊢
    exact ⟨by simp [h.isInitialized], by simp [h.readCallback], by simp [h.writeCallback], hvalid⟩
  · rw [hnext] at hvalid ⊢
    exact ⟨h.isInitialized, h.readCallback, h.writeCallback, hvalid⟩

end MamePlugins.Ddrio
