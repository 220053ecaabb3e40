import MamePlugins.Ddrio.InputMask

/-!
# Who masks whom

The stages share one mask word, and every handshake edge of either stage writes
both players' bits of it. So the mask is decided by the last edge that moved a
handshake: for that edge's own stage it says what the stage's state says, and
for the other stage it says what the edge says.
-/

namespace MamePlugins.Ddrio

open Library

/-! ### A player's share of the mask -/

/-- The two maskable bits of a player, UP and RIGHT, moved to bits 1 and 2. -/
def State.arrowMask (s : State) : Player → LuaInt
  | .p1 => (s.stageioInputMask >>> 8) &&& 0x06
  | .p2 => s.stageioInputMask &&& 0x06

/-- The two bits of a table entry that get into the mask. -/
def tableMask (bit : ℕ) : LuaInt := stageioBitMask.getD bit 0 &&& 0x06

/-- The mask of a player that its own stage asks for: nothing while idle, the
table entry of its counter during a handshake. -/
structure State.OwnMask (s : State) (p : Player) : Prop where
  idle : (s.stageio p).dataState = stageIoStateIdle → s.arrowMask p = 0x06
  init : (s.stageio p).dataState = stageIoStateInit →
    s.arrowMask p = tableMask (s.stageio p).dataBit

/-! ### Moves of a handshake -/

/-- What an edge can do to a handshake. -/
inductive Move
  | start
  | step
  | finish
  deriving DecidableEq, Repr

/-- The move that leads from the first cells to the second ones. -/
def Stage.move (st st' : Stage) : Option Move :=
  if st.dataState ≠ st'.dataState then
    if st'.dataState = stageIoStateInit then some .start else some .finish
  else if st.dataBit ≠ st'.dataBit then some .step
  else none

/-- The move of either stage between two states. -/
def State.move (s s' : State) : Option (Player × Move) :=
  match (s.stageio .p1).move (s'.stageio .p1) with
  | some m => some (.p1, m)
  | none => ((s.stageio .p2).move (s'.stageio .p2)).map (Player.p2, ·)

/-- The last move over a run, if there was one since the last successful start;
`last` is the one before the run. -/
def lastMove (s : State) (last : Option (Player × Move)) : List Event → Option (Player × Move)
  | [] => last
  | e :: es =>
    lastMove (s.next e) (if s.Starts e then none else (s.move (s.next e)).or last) es

/-- The mask that a player's move leaves the other player with. -/
def Move.otherMask (bit : ℕ) : Move → LuaInt
  | .start => 0
  | .step => tableMask bit
  | .finish => 0x06

/-- The mask is the one that the last move left. -/
def State.MaskedBy (s : State) : Option (Player × Move) → Prop
  | none => ∀ p, s.arrowMask p = 0x06
  | some (p, m) =>
    s.OwnMask p ∧ s.arrowMask p.other = m.otherMask (s.stageio p.other).dataBit

/-! ### Each move writes both shares -/

theorem Stage.move_self (st : Stage) : st.move st = none := by
  simp [Stage.move]

/-- The kinds of edges that move a handshake. -/
def ClockEdge.move : ClockEdge → Option Move
  | .shift => none
  | .start => some .start
  | .step => some .step
  | .finish => some .finish

/-- A register write moves the handshake as the edge it brings does. -/
theorem Stage.move_write {st : Stage} (h : st.Valid) (old n : ℕ) :
    st.move (st.write old n) = (st.writeEdge old n).bind ClockEdge.move := by
  have hhandshake := st.write_handshake old n
  cases hedge : st.writeEdge old n with
  | none =>
    rw [hedge] at hhandshake
    obtain ⟨hstate, hbit⟩ := Prod.mk.inj hhandshake
    simp [Stage.move, hstate, hbit]
  | some k =>
    have hidle := Stage.writeEdge_idle hedge
    rw [hedge] at hhandshake
    have hinit (hne : st.dataState ≠ stageIoStateIdle) : st.dataState = stageIoStateInit :=
      h.state_eq.resolve_left hne
    cases k with
    | shift =>
      obtain ⟨hstate, hbit⟩ := Prod.mk.inj hhandshake
      simp [Stage.move, hstate, hbit, ClockEdge.move]
    | start =>
      obtain ⟨hstate, -⟩ := Prod.mk.inj hhandshake
      have hi := hidle.mpr (Or.inr rfl)
      simp [Stage.move, hstate, hi, ClockEdge.move, stageIoStateIdle, stageIoStateInit]
    | step =>
      obtain ⟨hstate, hbit⟩ := Prod.mk.inj hhandshake
      simp [Stage.move, hstate, hbit, ClockEdge.move]
    | finish =>
      obtain ⟨hstate, -⟩ := Prod.mk.inj hhandshake
      have hi := hinit fun hi => by simpa using hidle.mp hi
      simp [Stage.move, hstate, hi, ClockEdge.move, stageIoStateIdle, stageIoStateInit]

/-- A player's share of the mask is decided by the mask word. -/
theorem arrowMask_step {s : State} {bits : Player → ℕ} (hbits : ∀ p, bits p ≤ 21)
    (hmask : s.stageioInputMask =
      (0xffff0000 : LuaInt) ||| (maskByte (bits .p1) <<< 8) ||| maskByte (bits .p2))
    (p : Player) : s.arrowMask p = tableMask (bits p) := by
  have hown (bit : ℕ) (hbit : bit ≤ 21) : maskByte bit &&& 0x06 = tableMask bit := by
    interval_cases bit <;> decide
  have h1 := maskByte_mem (hbits .p1)
  have h2 := maskByte_mem (hbits .p2)
  rw [← hown _ (hbits p)]
  simp only [List.mem_cons, List.not_mem_nil, or_false] at h1 h2
  cases p with
  | p1 =>
    rw [State.arrowMask, hmask]
    rcases h1 with h1 | h1 | h1 | h1 <;> rcases h2 with h2 | h2 | h2 | h2 <;> rw [h1, h2] <;>
      decide
  | p2 =>
    rw [State.arrowMask, hmask]
    rcases h1 with h1 | h1 | h1 | h1 <;> rcases h2 with h2 | h2 | h2 | h2 <;> rw [h1, h2] <;>
      decide

/-- With the same mask, states and counters, the mask stays the last move's. -/
theorem State.MaskedBy.of_eq {s s' : State} {last : Option (Player × Move)} (h : s.MaskedBy last)
    (hmask : s'.stageioInputMask = s.stageioInputMask)
    (hstate : ∀ p, (s'.stageio p).dataState = (s.stageio p).dataState)
    (hbit : ∀ p, (s'.stageio p).dataBit = (s.stageio p).dataBit) : s'.MaskedBy last := by
  have harrow (p : Player) : s'.arrowMask p = s.arrowMask p := by
    cases p <;> simp only [State.arrowMask, hmask]
  cases last with
  | none => exact fun p => (harrow p).trans (h p)
  | some move =>
    obtain ⟨hown, hother⟩ := h
    refine ⟨⟨fun hi => ?_, fun hi => ?_⟩, ?_⟩
    · rw [harrow, hown.idle (hstate move.1 ▸ hi)]
    · rw [harrow, hbit, hown.init (hstate move.1 ▸ hi)]
    · rw [harrow, hbit, hother]

/-- Only the written stage can have moved. -/
theorem State.move_writeRegister (s : State) (p : Player) (n : ℕ) :
    s.move (s.writeRegister p.register n) =
      ((s.stageio p).move ((s.writeRegister p.register n).stageio p)).map (p, ·) := by
  cases p with
  | p1 =>
    have hother : (s.writeRegister Player.p1.register n).stageio .p2 = s.stageio .p2 :=
      s.writeRegister_stageio_of_ne (by decide) n
    rw [State.move, hother, Stage.move_self]
    cases (s.stageio .p1).move ((s.writeRegister Player.p1.register n).stageio .p1) <;> rfl
  | p2 =>
    have hother : (s.writeRegister Player.p2.register n).stageio .p1 = s.stageio .p1 :=
      s.writeRegister_stageio_of_ne (by decide) n
    rw [State.move, hother, Stage.move_self]

/-- A write to a stage's register leaves the mask of its move, if it moves. -/
theorem State.MaskedBy.writeStage {s : State} {last : Option (Player × Move)}
    (h : s.MaskedBy last) (hinv : s.StageInv) (p : Player) (n : ℕ) :
    (s.writeRegister p.register n).MaskedBy ((s.move (s.writeRegister p.register n)).or last) := by
  have hinv' := hinv.writeStage p n
  have hmask := s.writeRegister_stageioInputMask p n
  have hself := s.writeRegister_stageio_self p n
  have hhandshake := (s.stageio p).write_handshake (s.ksys573DioWriteOutputData p.register) n
  have hmove := Stage.move_write (hinv.valid p) (s.ksys573DioWriteOutputData p.register) n
  rw [State.move_writeRegister]
  rw [← hself] at hhandshake hmove
  rw [hmove]
  have hstay (hp : (((s.writeRegister p.register n).stageio p).dataState,
      ((s.writeRegister p.register n).stageio p).dataBit) =
        ((s.stageio p).dataState, (s.stageio p).dataBit))
      (hkeep : (s.writeRegister p.register n).stageioInputMask = s.stageioInputMask) :
      (s.writeRegister p.register n).MaskedBy last := by
    obtain ⟨hstate, hbit⟩ := Prod.mk.inj hp
    refine h.of_eq hkeep (fun q => ?_) fun q => ?_
    · by_cases hq : q = p
      · rw [hq, hstate]
      · rw [s.writeRegister_stageio_of_ne hq]
    · by_cases hq : q = p
      · rw [hq, hbit]
      · rw [s.writeRegister_stageio_of_ne hq]
  cases hedge : (s.stageio p).writeEdge (s.ksys573DioWriteOutputData p.register) n with
  | none =>
    rw [hedge] at hhandshake hmask
    exact hstay hhandshake hmask
  | some k =>
    have hidle := Stage.writeEdge_idle hedge
    rw [hedge] at hhandshake hmask
    generalize s.writeRegister p.register n = s' at *
    cases k with
    | shift => exact hstay hhandshake hmask
    | start =>
      obtain ⟨hstate, hbit⟩ := Prod.mk.inj hhandshake
      have hmask : s'.stageioInputMask = 0xfffff9f9 := hmask
      have harrow (q : Player) : s'.arrowMask q = 0 := by
        cases q <;> rw [State.arrowMask, hmask] <;> decide
      refine ⟨⟨fun hi => ?_, fun _ => ?_⟩, harrow p.other⟩
      · rw [hstate] at hi
        exact absurd hi (by decide)
      · rw [harrow, hbit]
        decide
    | step =>
      obtain ⟨hstate, -⟩ := Prod.mk.inj hhandshake
      have harrow := arrowMask_step (fun q => (hinv'.valid q).bit_le) hmask
      refine ⟨⟨fun hi => ?_, fun _ => harrow p⟩, harrow p.other⟩
      rw [hstate] at hi
      simpa using hidle.mp hi
    | finish =>
      obtain ⟨hstate, -⟩ := Prod.mk.inj hhandshake
      have hmask : s'.stageioInputMask = 0xffffffff := hmask
      have harrow (q : Player) : s'.arrowMask q = 0x06 := by
        cases q <;> rw [State.arrowMask, hmask] <;> decide
      refine ⟨⟨fun _ => harrow p, fun hi => ?_⟩, harrow p.other⟩
      rw [hstate] at hi
      exact absurd hi (by decide)

/-- One callback: a start unmasks everything, and any other callback but a move
leaves the mask to the last move. -/
theorem State.MaskedBy.next {s : State} {last : Option (Player × Move)} (h : s.MaskedBy last)
    (hinv : s.StageInv) (e : Event) :
    (s.next e).MaskedBy (if s.Starts e then none else (s.move (s.next e)).or last) := by
  rcases s.next_stage_cases e with ⟨p, n, hnext, hstart⟩ | ⟨hstages, hmask⟩
  · rw [if_neg hstart, hnext]
    exact h.writeStage hinv p n
  · by_cases hstart : s.Starts e
    · rw [if_pos hstart] at hmask ⊢
      intro p
      cases p <;> rw [State.arrowMask, hmask] <;> decide
    · rw [if_neg hstart] at hmask ⊢
      have hmove : s.move (s.next e) = none := by
        simp [State.move, hstages, Stage.move_self]
      rw [hmove]
      exact h.of_eq hmask (fun p => by rw [hstages]) fun p => by rw [hstages]

theorem State.MaskedBy.foldl_next {s : State} {last : Option (Player × Move)}
    (h : s.MaskedBy last) (hinv : s.StageInv) (es : List Event) :
    (es.foldl State.next s).MaskedBy (lastMove s last es) := by
  induction es generalizing s last with
  | nil => exact h
  | cons e es ih => exact ih (h.next hinv e) (hinv.next e)

/-- **The last move owns the mask.** In every reachable state, take the last
callback since the last successful start that started, advanced or finished a
handshake. Its own player's arrows are masked as that player's stage asks. The
other player's are masked as the move asks: both after a start, by the other
stage's own counter after a step, and not at all after a finish. Without such a
callback nothing is masked. -/
theorem inputMask_of_lastMove (es : List Event) :
    ∃ s, run .load es = .ok s ∧
      match lastMove .load none es with
      | none => ∀ p, s.arrowMask p = 0x06
      | some (p, move) =>
        s.OwnMask p ∧ s.arrowMask p.other = move.otherMask (s.stageio p.other).dataBit := by
  refine ⟨es.foldl State.next .load, run_eq State.load_stagesValid es, ?_⟩
  have hload : State.load.MaskedBy none := fun p => by cases p <;> decide
  exact hload.foldl_next State.load_stageInv es

/-- Player one's handshake presses player two's arrows, whose stage is idle. -/
theorem arrowMask_not_own :
    ¬∀ (es : List Event) (s : State),
      (∀ e ∈ es, ∃ tap offset data mask, e = .write tap offset data mask) →
      run .load (.start "ddr4mp".toList true :: es) = .ok s → ∀ p, s.OwnMask p := by
  intro h
  have hrun := run_eq State.load_stagesValid
    (.start "ddr4mp".toList true :: startBits.flatMap (clockIn .p1))
  have hidle := (h _ _ clockIn_isWrite hrun .p2).idle (by decide)
  exact absurd hidle (by decide)

end MamePlugins.Ddrio
