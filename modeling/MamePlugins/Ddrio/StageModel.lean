import MamePlugins.Ddrio.StageIo

/-!
# One stage as a machine of its own

A stage's cells change only through its own two lines. This file gives that
machine without the shared state around it: what a rising clock edge does, what
the lines' levels do, and the invariant of the cells. The last section proves
that `gn845pwbb_do_w` and `gn845pwbb_clk_w` run this machine, never meet `nil`,
and change the shared input mask as the kind of edge says.
-/

namespace MamePlugins.Ddrio

/-- What a rising clock edge is to a stage: a bit shifted in while idle, the
start of a handshake, a step of it, or its end. -/
inductive ClockEdge
  | shift
  | start
  | step
  | finish
  deriving DecidableEq, Repr

/-- The shift register after a rising edge. -/
def Stage.shifted (st : Stage) : ℕ := (st.dataShift >>> 1) ||| (st.dataDo <<< 12)

/-- The kind of a rising edge arriving in these cells. -/
def Stage.edge (st : Stage) : ClockEdge :=
  if st.dataState = stageIoStateIdle then
    if st.shifted = 0xc90 then .start else .shift
  else if st.dataBit + 1 < 22 then .step
  else .finish

/-- The cells after a rising edge. -/
def Stage.rise (st : Stage) : Stage :=
  let st' := { st with dataClk := 1, dataShift := st.shifted }
  match st.edge with
  | .shift => st'
  | .start => { st' with dataState := stageIoStateInit, dataBit := 0 }
  | .step => { st' with dataBit := st.dataBit + 1 }
  | .finish => { st' with dataBit := 0, dataState := stageIoStateIdle }

/-- The rising edge, if any, when the clock line goes to `level`. -/
def Stage.clockEdge (st : Stage) (level : Bool) : Option ClockEdge :=
  if level.toNat ≠ st.dataClk ∧ level then some st.edge else none

/-- The cells after the clock line goes to `level`. -/
def Stage.clock (st : Stage) (level : Bool) : Stage :=
  if level.toNat = st.dataClk then st
  else if level then st.rise
  else { st with dataClk := 0 }

/-- The cells after the data line goes to `level`. -/
def Stage.data (st : Stage) (level : Bool) : Stage := { st with dataDo := level.toNat }

/-- The invariant of the cells. -/
structure Stage.Valid (st : Stage) : Prop where
  do_le : st.dataDo ≤ 1
  clk_le : st.dataClk ≤ 1
  shift_lt : st.dataShift < 2 ^ 13
  state_eq : st.dataState = stageIoStateIdle ∨ st.dataState = stageIoStateInit
  bit_le : st.dataBit ≤ 21
  bit_of_idle : st.dataState = stageIoStateIdle → st.dataBit = 0

theorem Stage.fresh_valid : Stage.fresh.Valid :=
  ⟨by decide, by decide, by decide, Or.inl rfl, by decide, fun _ => rfl⟩

/-- The bit shifted in does not overlap the twelve kept ones. -/
theorem Stage.shifted_eq {st : Stage} (hshift : st.dataShift < 2 ^ 13) :
    st.shifted = st.dataShift / 2 + st.dataDo * 2 ^ 12 := by
  have hlow : st.dataShift >>> 1 < 2 ^ 12 := by
    rw [Nat.shiftRight_eq_div_pow]
    omega
  rw [Stage.shifted, Nat.or_comm, ← Nat.shiftLeft_add_eq_or_of_lt hlow,
    Nat.shiftRight_eq_div_pow, Nat.shiftLeft_eq, Nat.add_comm]

theorem Stage.Valid.shifted_lt {st : Stage} (h : st.Valid) : st.shifted < 2 ^ 13 := by
  have hshift := h.shift_lt
  have hdo := h.do_le
  rw [Stage.shifted_eq hshift]
  omega

theorem Stage.Valid.data {st : Stage} (h : st.Valid) (level : Bool) : (st.data level).Valid :=
  { h with do_le := Bool.toNat_le _ }

/-- A rising edge keeps the invariant; in a handshake it counts at most to 21. -/
theorem Stage.Valid.rise {st : Stage} (h : st.Valid) : st.rise.Valid := by
  have hshift := h.shifted_lt
  unfold Stage.rise Stage.edge
  by_cases hidle : st.dataState = stageIoStateIdle
  · rw [if_pos hidle]
    by_cases hstart : st.shifted = 0xc90
    · rw [if_pos hstart]
      exact ⟨h.do_le, le_rfl, hshift, Or.inr rfl, Nat.zero_le _, fun _ => rfl⟩
    · rw [if_neg hstart]
      exact ⟨h.do_le, le_rfl, hshift, h.state_eq, h.bit_le, h.bit_of_idle⟩
  · rw [if_neg hidle]
    by_cases hbit : st.dataBit + 1 < 22
    · rw [if_pos hbit]
      exact ⟨h.do_le, le_rfl, hshift, h.state_eq, Nat.le_of_lt_succ hbit,
        fun hi => absurd hi hidle⟩
    · rw [if_neg hbit]
      exact ⟨h.do_le, le_rfl, hshift, Or.inl rfl, Nat.zero_le _, fun _ => rfl⟩

theorem Stage.Valid.clock {st : Stage} (h : st.Valid) (level : Bool) :
    (st.clock level).Valid := by
  unfold Stage.clock
  split_ifs
  · exact h
  · exact h.rise
  · exact { h with clk_le := Nat.zero_le _ }

/-! ### The code runs this machine -/

/-- The byte of the input mask while a stage is `bit` edges into a handshake. -/
def maskByte (bit : ℕ) : LuaInt := (~~~0x06 ||| stageioBitMask.getD bit 0) &&& 0xff

/-- The shared input mask after an edge of either stage, from both players' bit
counters after that edge. Without a rising edge the mask stays. -/
def maskAfter (edge : Option ClockEdge) (bits : Player → ℕ) (mask : LuaInt) : LuaInt :=
  match edge with
  | none | some .shift => mask
  | some .start => 0xfffff9f9
  | some .step => (0xffff0000 : LuaInt) ||| (maskByte (bits .p1) <<< 8) ||| maskByte (bits .p2)
  | some .finish => 0xffffffff

/-- Every counter of the invariant has an entry in the table. -/
theorem stageMaskByte_eq {bit : ℕ} (hbit : bit ≤ 21) : stageMaskByte bit = .ok (maskByte bit) := by
  have hlt : bit < stageioBitMask.length := Nat.lt_of_le_of_lt hbit (by decide)
  have hentry : luaIndex stageioBitMask (bit + 1) = some (stageioBitMask.getD bit 0) := by
    rw [luaIndex, if_neg (Nat.succ_ne_zero _), Nat.add_sub_cancel, List.getElem?_eq_getElem hlt,
      List.getD_eq_getElem?_getD, List.getElem?_eq_getElem hlt, Option.getD_some]
  rw [stageMaskByte, hentry]
  rfl

/-- The data line is inverted twice on its way into the cell. -/
theorem gn845pwbbDoW_eq (p : Player) (level : Bool) (s : State) :
    gn845pwbbDoW p (!level).toNat s = s.setStage p ((s.stageio p).data level) := by
  cases level <;> rfl

/-- The state after a clock line write: the stage's own machine has run, and the
shared mask has followed the kind of the edge. -/
def State.clock (s : State) (p : Player) (level : Bool) : State :=
  let s' := s.setStage p ((s.stageio p).clock level)
  s'.setInputMask (maskAfter ((s.stageio p).clockEdge level) (fun q => (s'.stageio q).dataBit)
    s.stageioInputMask)

/-- A rising edge in the code: the branches are those of `Stage.edge`, and both
table indices of the `INIT` branch are in range. -/
theorem gn845pwbbClkW_rise {s : State} (hvalid : ∀ p, (s.stageio p).Valid) {p : Player}
    (hclk : 1 ≠ (s.stageio p).dataClk) : gn845pwbbClkW p 0 s = .ok (s.clock p true) := by
  have hrise : (s.stageio p).clock true = (s.stageio p).rise := by simp [Stage.clock, hclk]
  have hedge : (s.stageio p).clockEdge true = some (s.stageio p).edge := by
    simp [Stage.clockEdge, hclk]
  have hrange : ∀ q, ((s.setStage p (s.stageio p).rise).stageio q).dataBit ≤ 21 := by
    intro q
    by_cases hq : q = p
    · rw [hq, State.setStage_stageio_self]
      exact (hvalid p).rise.bit_le
    · rw [State.setStage_stageio_of_ne hq]
      exact (hvalid q).bit_le
  have hshifted (st : Stage) : (st.dataShift >>> 1) ||| (st.dataDo <<< 12) = st.shifted := rfl
  rw [State.clock, hrise, hedge]
  unfold Stage.rise Stage.edge at hrange ⊢
  simp only [gn845pwbbClkW, gt_iff_lt, lt_self_iff_false, if_false, hclk, Nat.zero_lt_one, if_true,
    State.setStage_stageio_self, State.setStage_setStage, hshifted]
  by_cases hidle : (s.stageio p).dataState = stageIoStateIdle
  · simp only [if_pos hidle]
    by_cases hstart : (s.stageio p).shifted = 0xc90
    · simp only [if_pos hstart, maskAfter]
    · simp only [if_neg hstart, maskAfter]
      rfl
  · have hinit := (hvalid p).state_eq.resolve_left hidle
    simp only [if_neg hidle, if_pos hinit] at hrange ⊢
    by_cases hbit : (s.stageio p).dataBit + 1 < 22
    · simp only [if_pos hbit] at hrange ⊢
      rw [stageMaskByte_eq (hrange .p1), stageMaskByte_eq (hrange .p2)]
      simp only [Bind.bind, Except.bind, BitVec.shiftLeft_zero, maskAfter]
    · simp only [if_neg hbit, maskAfter]

/-- The clock line, inverted twice as well, runs the stage's own machine. -/
theorem gn845pwbbClkW_eq {s : State} (hvalid : ∀ p, (s.stageio p).Valid) (p : Player)
    (level : Bool) : gn845pwbbClkW p (!level).toNat s = .ok (s.clock p level) := by
  by_cases hclk : level.toNat = (s.stageio p).dataClk
  · -- The cell already has the level: nothing happens.
    have hsame : s.clock p level = s := by
      simp [State.clock, Stage.clock, Stage.clockEdge, hclk, maskAfter]
    rw [hsame]
    cases level with
    | false => exact if_pos hclk
    | true => exact if_pos hclk
  · cases level with
    | true => exact gn845pwbbClkW_rise hvalid hclk
    | false =>
      have hclk' : ¬0 = (s.stageio p).dataClk := hclk
      simp [gn845pwbbClkW, State.clock, Stage.clock, Stage.clockEdge, hclk', maskAfter]
      rfl

end MamePlugins.Ddrio
