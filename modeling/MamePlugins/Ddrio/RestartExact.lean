import MamePlugins.Ddrio.Restart
import MamePlugins.Ddrio.MaskOwner
import MamePlugins.Ddrio.Jamma

/-!
# When a restart is a fresh start

A start that finds both stages at rest is a fresh one. Otherwise some writes tell
the two apart: the start word for a stale line or old bits in the shift register,
and clock pulses under the other player's handshake for one that never ended.
-/

namespace MamePlugins.Ddrio

open Library

/-! ### Samples and old bits -/

/-- The two lines and the shift register after a write: the clock line shifts the
new data in if it rises and the cell has not the level yet. -/
theorem Stage.write_lines {st : Stage} (hst : st.Valid) (old n : ℕ) :
    (st.write old n).dataDo =
        (if old.testBit 0 = n.testBit 0 then st.dataDo else (n.testBit 0).toNat) ∧
      (st.write old n).dataClk =
        (if old.testBit 1 = n.testBit 1 then st.dataClk else (n.testBit 1).toNat) ∧
      (st.write old n).dataShift =
        if old.testBit 1 = false ∧ n.testBit 1 = true ∧ st.dataClk = 0 then
          st.dataShift / 2 + (st.write old n).dataDo * 2 ^ 12
        else st.dataShift := by
  have hclock (st : Stage) (hst : st.Valid) (level : Bool) :
      (st.clock level).dataDo = st.dataDo ∧ (st.clock level).dataClk = level.toNat ∧
        (st.clock level).dataShift =
          if level = true ∧ st.dataClk = 0 then st.dataShift / 2 + st.dataDo * 2 ^ 12
          else st.dataShift := by
    have hrise : st.rise.dataDo = st.dataDo ∧ st.rise.dataClk = 1 ∧
        st.rise.dataShift = st.shifted := by
      unfold Stage.rise
      cases st.edge <;> exact ⟨rfl, rfl, rfl⟩
    have hclk := hst.clk_le
    unfold Stage.clock
    by_cases hsame : level.toNat = st.dataClk
    · rw [if_pos hsame, if_neg (by rintro ⟨rfl, hlow⟩; simp [hlow] at hsame)]
      exact ⟨rfl, hsame.symm, rfl⟩
    · rw [if_neg hsame]
      cases level with
      | false => exact ⟨rfl, rfl, rfl⟩
      | true =>
        have hlow : st.dataClk = 0 := by
          have hne : 1 ≠ st.dataClk := hsame
          omega
        rw [if_pos rfl, if_pos ⟨rfl, hlow⟩, hrise.2.2, Stage.shifted_eq hst.shift_lt]
        exact ⟨hrise.1, hrise.2.1, rfl⟩
  -- The cells between the two lines: only the data cell may have changed.
  obtain ⟨st', hwrite, hst', hdo', hclk', hshift'⟩ : ∃ st' : Stage,
      st.write old n =
        (if old.testBit 1 = n.testBit 1 then st' else st'.clock (n.testBit 1)) ∧ st'.Valid ∧
      st'.dataDo = (if old.testBit 0 = n.testBit 0 then st.dataDo else (n.testBit 0).toNat) ∧
      st'.dataClk = st.dataClk ∧ st'.dataShift = st.dataShift := by
    refine ⟨_, rfl, ?_⟩
    split_ifs
    · exact ⟨hst, rfl, rfl, rfl⟩
    · exact ⟨hst.data _, rfl, rfl, rfl⟩
  rw [hwrite]
  by_cases hsame : old.testBit 1 = n.testBit 1
  · have hkeep : ¬(old.testBit 1 = false ∧ n.testBit 1 = true ∧ st.dataClk = 0) := by
      rintro ⟨hlow, hhigh, -⟩
      rw [hlow, hhigh] at hsame
      exact absurd hsame (by decide)
    rw [if_pos hsame, if_pos hsame, if_neg hkeep]
    exact ⟨hdo', hclk', hshift'⟩
  · have hiff : (old.testBit 1 = false ∧ n.testBit 1 = true ∧ st.dataClk = 0) ↔
        (n.testBit 1 = true ∧ st.dataClk = 0) := by
      cases hn : n.testBit 1 <;> cases ho : old.testBit 1 <;> simp_all
    obtain ⟨hdo, hclk, hshift⟩ := hclock st' hst' (n.testBit 1)
    rw [if_neg hsame, if_neg hsame, hdo, hclk, hshift, hclk', hshift']
    exact ⟨hdo', rfl, by simp only [hiff]⟩

/-- Bits shifted into a register, oldest first. -/
def shiftIn (x : ℕ) (bits : List Bool) : ℕ := bits.foldl (fun x b => x / 2 + b.toNat * 2 ^ 12) x

/-- The nibbles that clock one bit in. -/
def pulse (b : Bool) : List ℕ := [b.toNat, 2 + b.toNat]

/-- A pulse after a high clock samples the data line, whatever the cells. -/
theorem Stage.track_pulse {st : Stage} (hst : st.Valid) {last : ℕ}
    (hlast : last.testBit 1 = true) (b : Bool) :
    let st' := track Stage.write st last (pulse b)
    st'.Valid ∧ st'.dataDo = (if last.testBit 0 = b then st.dataDo else b.toNat) ∧
      st'.dataShift = st.dataShift / 2 + st'.dataDo * 2 ^ 12 := by
  have hbits : b.toNat.testBit 0 = b ∧ b.toNat.testBit 1 = false ∧
      (2 + b.toNat).testBit 0 = b ∧ (2 + b.toNat).testBit 1 = true := by
    cases b <;> decide
  obtain ⟨h0, h1, h2, h3⟩ := hbits
  obtain ⟨hdo, hclk, hshift⟩ := Stage.write_lines hst last b.toNat
  have hst' := hst.write last b.toNat
  obtain ⟨hdo', -, hshift'⟩ := Stage.write_lines hst' b.toNat (2 + b.toNat)
  rw [h0] at hdo
  rw [hlast, h1, if_neg (by decide)] at hclk
  rw [hlast, if_neg (by simp)] at hshift
  rw [h0, h2, if_pos rfl] at hdo'
  rw [h1, h3, if_pos ⟨rfl, rfl, hclk⟩, hshift] at hshift'
  exact ⟨hst'.write _ _, hdo'.trans hdo, hshift'⟩

/-- Further pulses shift exactly their bits in. -/
theorem Stage.track_pulses {st : Stage} (hst : st.Valid) {last : ℕ}
    (hlast : last.testBit 1 = true) (hdo : st.dataDo = (last.testBit 0).toNat)
    (bits : List Bool) :
    (track Stage.write st last (bits.flatMap pulse)).dataShift = shiftIn st.dataShift bits := by
  induction bits generalizing st last with
  | nil => rfl
  | cons b bits ih =>
    obtain ⟨hst', hdo', hshift'⟩ := Stage.track_pulse hst hlast b
    have hsync : (track Stage.write st last (pulse b)).dataDo = b.toNat := by
      rw [hdo']
      split_ifs with hb
      · rw [hdo, hb]
      · rfl
    have hlast' : (2 + b.toNat).testBit 1 = true := by cases b <;> decide
    have hdata' : ((2 + b.toNat).testBit 0).toNat = b.toNat := by cases b <;> decide
    rw [hsync] at hshift'
    have hrest := ih hst' hlast' (hsync.trans hdata'.symm)
    rw [hshift'] at hrest
    exact hrest

/-- The first pulse after a start: a high clock cell swallows its edge, and a
stale data cell is read for a zero. -/
theorem Stage.track_first_pulse {st : Stage} (hst : st.Valid) (b : Bool) :
    let st' := track Stage.write st 0 (pulse b)
    st'.Valid ∧ st'.dataDo = (if b then 1 else st.dataDo) ∧
      st'.dataShift =
        if st.dataClk = 0 then st.dataShift / 2 + st'.dataDo * 2 ^ 12 else st.dataShift := by
  have hbits : b.toNat.testBit 0 = b ∧ b.toNat.testBit 1 = false ∧
      (2 + b.toNat).testBit 0 = b ∧ (2 + b.toNat).testBit 1 = true := by
    cases b <;> decide
  obtain ⟨h0, h1, h2, h3⟩ := hbits
  obtain ⟨hdo, hclk, hshift⟩ := Stage.write_lines hst 0 b.toNat
  have hst' := hst.write 0 b.toNat
  obtain ⟨hdo', -, hshift'⟩ := Stage.write_lines hst' b.toNat (2 + b.toNat)
  rw [h0, Nat.zero_testBit] at hdo
  rw [h1, Nat.zero_testBit, if_pos rfl] at hclk
  rw [h1, if_neg (by simp)] at hshift
  rw [h0, h2, if_pos rfl] at hdo'
  rw [h1, h3, hclk, hshift] at hshift'
  refine ⟨hst'.write _ _, hdo'.trans (hdo.trans ?_), ?_⟩
  · cases b <;> rfl
  · refine hshift'.trans ?_
    simp only [true_and]
    rfl

/-- The start word but for its first bit, with what the old bits become. -/
theorem shiftIn_startBits (x : ℕ) : shiftIn x startBits.tail = x / 2 ^ 8 + 0xc80 := by
  have hstep (y c : ℕ) (b : Bool) (bits : List Bool) :
      shiftIn (y + 2 * c) (b :: bits) = shiftIn (y / 2 + (c + b.toNat * 2 ^ 12)) bits := by
    rw [shiftIn, List.foldl_cons, Nat.add_mul_div_left _ _ Nat.two_pos, Nat.add_assoc, shiftIn]
  calc shiftIn x startBits.tail
    _ = shiftIn (x / 2 + 2 * 0) [false, true, false, false, true, true, false] := hstep x 0 ..
    _ = shiftIn (x / 2 / 2 + 2 * 0) [true, false, false, true, true, false] := hstep _ 0 ..
    _ = shiftIn (x / 2 / 2 / 2 + 2 * 0x800) [false, false, true, true, false] := hstep _ 0 ..
    _ = shiftIn (x / 2 / 2 / 2 / 2 + 2 * 0x400) [false, true, true, false] := hstep _ 0x800 ..
    _ = shiftIn (x / 2 / 2 / 2 / 2 / 2 + 2 * 0x200) [true, true, false] := hstep _ 0x400 ..
    _ = shiftIn (x / 2 / 2 / 2 / 2 / 2 / 2 + 2 * 0x900) [true, false] := hstep _ 0x200 ..
    _ = shiftIn (x / 2 / 2 / 2 / 2 / 2 / 2 / 2 + 2 * 0xc80) [false] := hstep _ 0x900 ..
    _ = x / 2 / 2 / 2 / 2 / 2 / 2 / 2 / 2 + 0xc80 := hstep _ 0xc80 ..
    _ = x / 2 ^ 8 + 0xc80 := by simp only [Nat.div_div_eq_div_mul, Nat.reduceMul, Nat.reducePow]

/-- Only clean cells hold the start word both after its own bits, and after a zero
and its own bits. -/
theorem Stage.clean_of_startWord {st : Stage} (hst : st.Valid)
    (hword : (track Stage.write st 0 (startBits.flatMap pulse)).dataShift = 0xc90)
    (hzero : (track Stage.write st 0 ((false :: startBits).flatMap pulse)).dataShift = 0xc90) :
    st.dataDo = 0 ∧ st.dataClk = 0 ∧ st.dataShift < 2 ^ 9 := by
  have htail {st : Stage} (hst : st.Valid) (hdo : st.dataDo = 1) :
      (track Stage.write st (2 + true.toNat) (startBits.tail.flatMap pulse)).dataShift =
        st.dataShift / 2 ^ 8 + 0xc80 := by
    rw [Stage.track_pulses hst (by decide) (by rw [hdo]; decide), shiftIn_startBits]
  have hclk := hst.clk_le
  have hdo := hst.do_le
  -- The word alone: its first one sets the data cell.
  have hsplit : startBits.flatMap pulse = pulse true ++ startBits.tail.flatMap pulse := rfl
  have hlast (b : Bool) (last : ℕ) : (pulse b).getLastD last = 2 + b.toNat := rfl
  rw [hsplit, track_append, hlast] at hword
  obtain ⟨hst₁, hdo₁, hshift₁⟩ := Stage.track_first_pulse hst true
  rw [htail hst₁ hdo₁, hshift₁, hdo₁, if_pos rfl] at hword
  -- After a zero: that one is read from the data cell as it was.
  have hsplit' : (false :: startBits).flatMap pulse =
      pulse false ++ (pulse true ++ startBits.tail.flatMap pulse) := rfl
  rw [hsplit', track_append, track_append, hlast, hlast] at hzero
  obtain ⟨hst₂, hdo₂, hshift₂⟩ := Stage.track_first_pulse hst false
  have hclk : (2 + false.toNat).testBit 1 = true := by decide
  obtain ⟨hst₃, hdo₃, hshift₃⟩ := Stage.track_pulse hst₂ hclk true
  rw [if_neg (by decide)] at hdo₂ hdo₃
  rw [htail hst₃ hdo₃, hshift₃, hdo₃, hshift₂, hdo₂] at hzero
  by_cases hlow : st.dataClk = 0
  · rw [if_pos hlow] at hword hzero
    norm_num at hword hzero
    omega
  · rw [if_neg hlow] at hword hzero
    norm_num at hword hzero
    omega

/-! ### Writes to a stage's register -/

/-- In a session the emulator's write of a nibble is a register write. -/
theorem State.Running.next_stageWrite {s : State} (h : s.Running) (p : Player) {n : ℕ}
    (hn : n < 4) : s.next (stageWrite p n) = s.writeRegister p.register n := by
  have hreached : (stageWrite p n).reached = some (p.register, n) := by
    cases p <;> interval_cases n <;> decide
  have hne : stageWrite p n ≠ .stop := by
    cases p <;> exact Event.noConfusion
  rcases h.next_cases hne with ⟨r, n', hreached', hnext⟩ | ⟨hnone, -⟩
  · rw [hreached, Option.some.injEq, Prod.mk.injEq] at hreached'
    obtain ⟨rfl, rfl⟩ := hreached'
    exact hnext
  · rw [hreached] at hnone
    cases hnone

/-- Clocking bits into one stage's register is pulses to it and nothing to the other's. -/
theorem nibbles_clockIn (p q : Player) (bits : List Bool) :
    nibbles q.register (bits.flatMap (clockIn p)) = if q = p then bits.flatMap pulse else [] := by
  have hbit (b : Bool) : nibbles q.register (clockIn p b) = if q = p then pulse b else [] := by
    cases p <;> cases q <;> cases b <;> decide
  induction bits with
  | nil => cases p <;> cases q <;> rfl
  | cons b bits ih =>
    rw [List.flatMap_cons, nibbles, List.filterMap_append]
    change nibbles q.register (clockIn p b) ++ nibbles q.register (bits.flatMap (clockIn p)) = _
    rw [hbit, ih]
    split_ifs <;> rfl

/-- Only a start word starts a handshake. -/
theorem Stage.write_shift_of_start {st : Stage} {old n : ℕ}
    (h : st.writeEdge old n = some .start) : (st.write old n).dataShift = 0xc90 := by
  have hclock (st : Stage) (level : Bool) (h : st.clockEdge level = some .start) :
      (st.clock level).dataShift = 0xc90 := by
    unfold Stage.clockEdge at h
    split_ifs at h with hlevel
    have hedge : st.edge = .start := Option.some.inj h
    have hword : st.shifted = 0xc90 := by
      unfold Stage.edge at hedge
      split_ifs at hedge with hidle hword
      exact hword
    rw [Stage.clock, if_neg hlevel.1, if_pos hlevel.2, Stage.rise, hedge, hword]
  unfold Stage.writeEdge at h
  unfold Stage.write
  dsimp only at h ⊢
  split_ifs at h ⊢
  · exact hclock st _ h
  · exact hclock (st.data _) _ h

/-! ### What the input mask gives away -/

/-- As long as nothing is masked, an idle stage stays idle. -/
theorem State.idle_of_unmasked {s : State} {p : Player}
    (hidle : (s.stageio p).dataState = stageIoStateIdle) {es : List Event}
    (hmask : ∀ es' ∈ es.inits, (es'.foldl State.next s).stageioInputMask = 0xffffffff) :
    ((es.foldl State.next s).stageio p).dataState = stageIoStateIdle := by
  induction es using List.reverseRecOn with
  | nil => exact hidle
  | append_singleton es e ih =>
    have hidle' := ih fun es' hes' => hmask es' (by
      rw [List.mem_inits] at hes' ⊢
      exact hes'.trans (List.prefix_append es [e]))
    have hlast := hmask (es ++ [e]) (by simp)
    rw [List.foldl_concat] at hlast ⊢
    generalize es.foldl State.next s = s' at hidle' hlast ⊢
    rcases s'.next_stage_cases e with ⟨q, n, hnext, -⟩ | ⟨hstages, -⟩
    · rw [hnext] at hlast ⊢
      by_cases hp : p = q
      · subst hp
        have hhandshake :=
          (s'.stageio p).write_handshake (s'.ksys573DioWriteOutputData p.register) n
        rw [← s'.writeRegister_stageio_self p n] at hhandshake
        rw [s'.writeRegister_stageioInputMask p n] at hlast
        cases hedge : (s'.stageio p).writeEdge (s'.ksys573DioWriteOutputData p.register) n with
        | none =>
          rw [hedge] at hhandshake
          exact (congrArg Prod.fst hhandshake).trans hidle'
        | some k =>
          have hkind := (Stage.writeEdge_idle hedge).mp hidle'
          rw [hedge] at hhandshake hlast
          rcases hkind with rfl | rfl
          · exact (congrArg Prod.fst hhandshake).trans hidle'
          · exact absurd (show (0xfffff9f9 : LuaInt) = 0xffffffff from hlast) (by decide)
      · rw [s'.writeRegister_stageio_of_ne hp]
        exact hidle'
    · rw [hstages]
      exact hidle'

/-- An idle stage's write that masks the arrows completes the start word. -/
theorem State.shift_of_masked {s : State} {p : Player} {n : ℕ}
    (hidle : (s.stageio p).dataState = stageIoStateIdle)
    (hmask : s.stageioInputMask = 0xffffffff)
    (hmask' : (s.writeRegister p.register n).stageioInputMask = 0xfffff9f9) :
    ((s.writeRegister p.register n).stageio p).dataShift = 0xc90 := by
  have hne : (0xffffffff : LuaInt) ≠ 0xfffff9f9 := by decide
  rw [s.writeRegister_stageioInputMask p n, hmask] at hmask'
  rw [s.writeRegister_stageio_self]
  cases hedge : (s.stageio p).writeEdge (s.ksys573DioWriteOutputData p.register) n with
  | none =>
    rw [hedge] at hmask'
    exact absurd hmask' hne
  | some k =>
    rw [hedge] at hmask'
    rcases (Stage.writeEdge_idle hedge).mp hidle with rfl | rfl
    · exact absurd hmask' hne
    · exact Stage.write_shift_of_start hedge

/-- A write that keeps both arrows masked leaves a handshake under way, and an edge
takes it to a clear entry of the table. -/
theorem State.StageInv.write_masked {s : State} (h : s.StageInv) {p : Player} {n : ℕ}
    (hinit : (s.stageio p).dataState = stageIoStateInit)
    (hmask : (s.writeRegister p.register n).stageioInputMask = 0xfffff9f9) :
    let st := (s.writeRegister p.register n).stageio p
    st.dataState = stageIoStateInit ∧
      ((s.stageio p).writeEdge (s.ksys573DioWriteOutputData p.register) n ≠ none →
        st.dataBit = (s.stageio p).dataBit + 1 ∧ tableMask st.dataBit = 0) := by
  have hhandshake := (s.stageio p).write_handshake (s.ksys573DioWriteOutputData p.register) n
  have hmask' := s.writeRegister_stageioInputMask p n
  rw [← s.writeRegister_stageio_self p n] at hhandshake
  have hbusy : (s.stageio p).dataState ≠ stageIoStateIdle := by
    rw [hinit]
    decide
  cases hedge : (s.stageio p).writeEdge (s.ksys573DioWriteOutputData p.register) n with
  | none =>
    rw [hedge] at hhandshake
    exact ⟨(congrArg Prod.fst hhandshake).trans hinit, fun hne => absurd rfl hne⟩
  | some k =>
    have hkind := mt (Stage.writeEdge_idle hedge).mpr hbusy
    rw [hedge] at hhandshake hmask'
    cases k with
    | shift => exact absurd (Or.inl rfl) hkind
    | start => exact absurd (Or.inr rfl) hkind
    | step =>
      have harrow := arrowMask_step (fun q => ((h.writeStage p n).valid q).bit_le) hmask' p
      refine ⟨(congrArg Prod.fst hhandshake).trans hinit, fun _ =>
        ⟨congrArg Prod.snd hhandshake, harrow.symm.trans ?_⟩⟩
      cases p <;> rw [State.arrowMask, hmask] <;> decide
    | finish =>
      exact absurd ((show _ = (0xffffffff : LuaInt) from hmask').symm.trans hmask) (by decide)

/-- A clock pulse with both arrows masked throughout: the handshake is still under
way, and if the clock was high before, it took a step. -/
theorem State.StageInv.pulse_masked {s : State} (h : s.StageInv) (hrunning : s.Running)
    {p : Player} (hinit : (s.stageio p).dataState = stageIoStateInit)
    (hmask : (s.next (stageWrite p 0)).stageioInputMask = 0xfffff9f9)
    (hmask' : ((s.next (stageWrite p 0)).next (stageWrite p 2)).stageioInputMask = 0xfffff9f9) :
    let s' := (s.next (stageWrite p 0)).next (stageWrite p 2)
    (s'.stageio p).dataState = stageIoStateInit ∧
      (s'.ksys573DioWriteOutputData p.register).testBit 1 = true ∧
      ((s.ksys573DioWriteOutputData p.register).testBit 1 = true →
        (s'.stageio p).dataBit = (s.stageio p).dataBit + 1 ∧
          tableMask (s'.stageio p).dataBit = 0) := by
  have hlow : s.next (stageWrite p 0) = s.writeRegister p.register 0 :=
    hrunning.next_stageWrite p (by decide)
  have hrunning' := hrunning.next (e := stageWrite p 0) (by cases p <;> exact Event.noConfusion)
  have hhigh : (s.next (stageWrite p 0)).next (stageWrite p 2) =
      (s.writeRegister p.register 0).writeRegister p.register 2 := by
    rw [hrunning'.next_stageWrite p (by decide), hlow]
  rw [hlow] at hmask
  rw [hhigh] at hmask'
  obtain ⟨hinit₁, -⟩ := h.write_masked hinit hmask
  obtain ⟨hinit₂, hstep⟩ := (h.writeStage p 0).write_masked hinit₁ hmask'
  rw [hhigh]
  refine ⟨hinit₂, by rw [State.writeRegister_data, Function.update_self]; decide, fun hclk => ?_⟩
  -- The falling edge clears the clock cell and moves nothing else.
  obtain ⟨-, hcell, -⟩ :=
    Stage.write_lines (h.valid p) (s.ksys573DioWriteOutputData p.register) 0
  rw [hclk, Nat.zero_testBit, if_neg (by decide)] at hcell
  have hfall : (s.stageio p).writeEdge (s.ksys573DioWriteOutputData p.register) 0 = none := by
    simp [Stage.writeEdge, Stage.clockEdge]
  have hhandshake := (s.stageio p).write_handshake (s.ksys573DioWriteOutputData p.register) 0
  rw [hfall] at hhandshake
  -- The rising edge then reaches the stage.
  rw [State.writeRegister_data, Function.update_self, s.writeRegister_stageio_self] at hstep
  have hrise : ((s.stageio p).write (s.ksys573DioWriteOutputData p.register) 0).writeEdge 0 2 ≠
      none := by
    have h0 : Nat.testBit 0 0 = Nat.testBit 2 0 := by decide
    have h1 : ¬Nat.testBit 0 1 = Nat.testBit 2 1 := by decide
    have h2 : Nat.testBit 2 1 = true := by decide
    rw [Stage.writeEdge, if_pos h0, if_neg h1, h2, Stage.clockEdge, hcell]
    simp
  obtain ⟨hbit, htable⟩ := hstep hrise
  exact ⟨hbit.trans (congrArg (· + 1) (congrArg Prod.snd hhandshake)), htable⟩

/-! ### Clean stages -/

/-- The cells from which a start is a fresh one: both lines low, no handshake, and
only old bits in the shift register that nine edges push out. -/
structure Stage.Clean (st : Stage) : Prop where
  do_eq : st.dataDo = 0
  clk_eq : st.dataClk = 0
  state_eq : st.dataState = stageIoStateIdle
  shift_lt : st.dataShift < 2 ^ 9

/-- A memory access that a tap sees. -/
def Event.IsAccess : Event → Prop
  | .read .. | .write .. => True
  | .start .. | .stop => False

theorem Event.IsAccess.ne_stop {e : Event} (h : e.IsAccess) : e ≠ .stop := by
  rintro rfl
  exact h

theorem clockIn_isAccess {p : Player} {bits : List Bool} :
    ∀ e ∈ bits.flatMap (clockIn p), e.IsAccess := by
  intro e he
  obtain ⟨tap, offset, data, mask, rfl⟩ := clockIn_isWrite e he
  exact trivial

/-- What the input mask of a fresh plugin does under the start word, also after a
zero, and under pulses of the other stage's clock after it. -/
theorem fresh_masks (p : Player) :
    (∀ bits ∈ [startBits, false :: startBits],
      (∀ es ∈ (bits.flatMap (clockIn p)).dropLast.inits,
        (es.foldl State.next State.load.started).stageioInputMask = 0xffffffff) ∧
      ((bits.flatMap (clockIn p)).foldl State.next State.load.started).stageioInputMask =
        0xfffff9f9) ∧
    ∀ es ∈ ([false, false, false].flatMap (clockIn p.other)).inits,
      ((startBits.flatMap (clockIn p) ++ es).foldl State.next
        State.load.started).stageioInputMask = 0xfffff9f9 := by
  cases p <;> decide

section Tests

variable {s : State} (hrunning : s.Running) (hinv : s.StageInv)
  (hdata : ∀ r, s.ksys573DioWriteOutputData r = 0)
  (hmask : ∀ es : List Event, (∀ e ∈ es, e.IsAccess) →
    (es.foldl State.next s).stageioInputMask =
      (es.foldl State.next State.load.started).stageioInputMask)
include hrunning hinv hmask

/-- If the input mask is always that of a fresh plugin, no handshake is under way:
its own pulses would touch the mask that the other stage's start word sets. -/
theorem idle_of_masks (p : Player) : (s.stageio p).dataState = stageIoStateIdle := by
  refine (hinv.valid p).state_eq.resolve_right fun hinit => ?_
  have hother : p.other.other = p := by cases p <;> rfl
  have hword : ∀ e ∈ startBits.flatMap (clockIn p.other), e.IsAccess := clockIn_isAccess
  have hpulses := (fresh_masks p.other).2
  rw [hother] at hpulses
  have hsession : ∀ e ∈ startBits.flatMap (clockIn p.other), e ≠ .stop :=
    fun e he => (hword e he).ne_stop
  have hcell := (registerCell_stage p).foldl_next hrunning hsession
  have hp : p ≠ p.other := by cases p <;> decide
  rw [nibbles_clockIn, if_neg hp] at hcell
  -- The state after the other player's start word.
  have hafter (es : List Event) (hes : es ∈ ([false, false, false].flatMap (clockIn p)).inits) :
      (es.foldl State.next ((startBits.flatMap (clockIn p.other)).foldl State.next
        s)).stageioInputMask = 0xfffff9f9 := by
    rw [← List.foldl_append, ← hpulses es hes]
    refine hmask _ fun e he => ?_
    rcases List.mem_append.mp he with he | he
    · exact hword e he
    · exact clockIn_isAccess e (((List.mem_inits _ _).mp hes).subset he)
  have hu := hrunning.foldl_next hsession
  have hinvu := hinv.foldl_next (startBits.flatMap (clockIn p.other))
  rw [← hcell.trans (show _ = s.stageio p from rfl)] at hinit
  generalize (startBits.flatMap (clockIn p.other)).foldl State.next s = u at *
  have hbefore (es rest : List Event)
      (hes : es ++ rest = [false, false, false].flatMap (clockIn p)) :
      (es.foldl State.next u).stageioInputMask = 0xfffff9f9 :=
    hafter es ((List.mem_inits _ _).mpr ⟨rest, hes⟩)
  have hnext (u : State) (hu : u.Running) :
      ((u.next (stageWrite p 0)).next (stageWrite p 2)).Running := by
    cases p <;> exact (hu.next Event.noConfusion).next Event.noConfusion
  -- Three pulses. The first may meet a clock that is high already, the others are edges.
  obtain ⟨hinit₁, hclk₁, -⟩ := hinvu.pulse_masked hu hinit
    (hbefore [stageWrite p 0] _ rfl) (hbefore [stageWrite p 0, stageWrite p 2] _ rfl)
  have hinv₁ := (hinvu.next (stageWrite p 0)).next (stageWrite p 2)
  obtain ⟨hinit₂, hclk₂, hstep₂⟩ := hinv₁.pulse_masked (hnext u hu) hinit₁
    (hbefore [stageWrite p 0, stageWrite p 2, stageWrite p 0] _ rfl)
    (hbefore [stageWrite p 0, stageWrite p 2, stageWrite p 0, stageWrite p 2] _ rfl)
  have hinv₂ := (hinv₁.next (stageWrite p 0)).next (stageWrite p 2)
  obtain ⟨-, -, hstep₃⟩ := hinv₂.pulse_masked (hnext _ (hnext u hu)) hinit₂
    (hbefore [stageWrite p 0, stageWrite p 2, stageWrite p 0, stageWrite p 2, stageWrite p 0] _ rfl)
    (hbefore [stageWrite p 0, stageWrite p 2, stageWrite p 0, stageWrite p 2, stageWrite p 0,
      stageWrite p 2] _ rfl)
  have hinv₃ := (hinv₂.next (stageWrite p 0)).next (stageWrite p 2)
  obtain ⟨-, htable₂⟩ := hstep₂ hclk₁
  obtain ⟨hbit₃, htable₃⟩ := hstep₃ hclk₂
  -- Clear entries of the table are never next to each other.
  have hentries : ∀ bit ≤ 20, bit ≠ 0 → tableMask bit = 0 → tableMask (bit + 1) ≠ 0 := by decide
  have hle := (hinv₃.valid p).bit_le
  rw [hbit₃] at hle htable₃
  exact hentries _ (by omega) (by rw [(hstep₂ hclk₁).1]; omega) htable₂ htable₃

include hdata in
/-- And both lines are low and the old bits few: otherwise it would not take the
start word when a fresh stage does, or take it when a fresh stage does not. -/
theorem clean_of_masks (p : Player) : (s.stageio p).Clean := by
  have hidle := idle_of_masks hrunning hinv hmask p
  have hshift : ∀ bits ∈ [startBits, false :: startBits],
      (track Stage.write (s.stageio p) 0 (bits.flatMap pulse)).dataShift = 0xc90 := by
    intro bits hbits
    obtain ⟨hclear, hset⟩ := (fresh_masks p).1 bits hbits
    have hwrites : ∀ e ∈ bits.flatMap (clockIn p), e.IsAccess := clockIn_isAccess
    have hlast : (bits.flatMap (clockIn p)).dropLast ++ [stageWrite p 2] =
        bits.flatMap (clockIn p) := by
      simp only [List.mem_cons, List.not_mem_nil, or_false] at hbits
      rcases hbits with rfl | rfl <;> rfl
    have hcell := (registerCell_stage p).foldl_next hrunning fun e he => (hwrites e he).ne_stop
    rw [nibbles_clockIn, if_pos rfl, hdata] at hcell
    generalize bits.flatMap (clockIn p) = es at hclear hset hwrites hlast hcell
    have hinits : ∀ es' ∈ es.dropLast.inits,
        (es'.foldl State.next s).stageioInputMask = 0xffffffff := by
      intro es' hes'
      rw [← hclear es' hes']
      exact hmask _ fun e he =>
        hwrites e (List.dropLast_subset _ (((List.mem_inits _ _).mp hes').subset he))
    have hrunning' : (es.dropLast.foldl State.next s).Running :=
      hrunning.foldl_next fun e he => (hwrites e (List.dropLast_subset _ he)).ne_stop
    have hfinal : es.foldl State.next s =
        (es.dropLast.foldl State.next s).writeRegister p.register 2 :=
      calc es.foldl State.next s
        _ = (es.dropLast ++ [stageWrite p 2]).foldl State.next s := by rw [hlast]
        _ = (es.dropLast.foldl State.next s).next (stageWrite p 2) := by rw [List.foldl_concat]
        _ = _ := hrunning'.next_stageWrite p (by decide)
    rw [← hcell, hfinal]
    refine State.shift_of_masked (State.idle_of_unmasked hidle hinits)
      (hinits _ ((List.mem_inits _ _).mpr (List.prefix_refl _))) ?_
    rw [← hfinal, hmask es hwrites, hset]
  obtain ⟨hdo, hclk, hlt⟩ := Stage.clean_of_startWord (hinv.valid p)
    (hshift _ (by simp)) (hshift _ (by simp))
  exact ⟨hdo, hclk, hidle, hlt⟩

end Tests

/-! ### Restarts -/

/-- The calls that set lights. -/
def Call.setsLight : Call → Bool
  | .ddrIoSetLightsExtio _ | .ddrIoSetLightsP3io _ | .ddrIoSetLightsHdxsPanel _
  | .ddrIoSetLightsHdxsRgb .. => true
  | .ddrIoInit .. | .ddrIoFini | .ddrIoReadPad _ => false

/-- Since `s₀` and `t₀`, the runs to `s` and `t` have set the same lights and given
the same answers to reads. -/
def SameSince (s₀ t₀ s t : State) : Prop :=
  ∃ calls calls' answers, s.calls = s₀.calls ++ calls ∧ t.calls = t₀.calls ++ calls' ∧
    calls.filter Call.setsLight = calls'.filter Call.setsLight ∧
    s.answers = s₀.answers ++ answers ∧ t.answers = t₀.answers ++ answers

/-- A stop and a start lead from any state to a started one with the same stages. -/
theorem next_stop_start (s : State) {systemName : List Char}
    (hname : isSupported systemName = true) :
    (s.next .stop).next (.start systemName true) = (deinit s).started := by
  have hstopped : (deinit s).isInitialized = false := by
    unfold deinit
    split_ifs with h
    · rfl
    · simpa using h
  exact init_eq hstopped hname

/-- A start from clean stages mirrors the first start. -/
theorem mirrors_of_clean {s : State} (hclean : ∀ p, (s.stageio p).Clean) (hvalid : s.StagesValid) :
    Mirrors (deinit s).started State.load.started (deinit s).started State.load.started := by
  have hstages : (deinit s).stageio = s.stageio := by
    unfold deinit
    split_ifs <;> rfl
  refine ⟨rfl, rfl, rfl, rfl, fun p => ?_, ⟨[], by simp, by simp⟩, ⟨[], by simp, by simp⟩⟩
  have hp := hclean p
  have hbit := (hvalid p).bit_of_idle hp.state_eq
  change ((deinit s).stageio p).Like Stage.fresh
  rw [hstages]
  refine ⟨Prod.ext hp.do_eq hp.clk_eq, Prod.ext hp.state_eq hbit, Or.inr ⟨0, by decide, ?_⟩⟩
  have hlt := hp.shift_lt
  have hfresh : Stage.fresh.dataShift = 0 := rfl
  rw [hfresh]
  norm_num at hlt ⊢
  omega

/-- Reading the second port shows the whole input mask. -/
theorem mask_eq_of_sameSince {s₁ t₁ : State} (hs : s₁.Running) (ht : t₁.Running)
    (hsinv : s₁.StageInv) (htinv : t₁.StageInv) (hanswers : t₁.answers = [])
    (hsame : ∀ es : List Event, (∀ e ∈ es, e.IsAccess) →
      SameSince s₁ t₁ (es.foldl State.next s₁) (es.foldl State.next t₁))
    {es : List Event} (hes : ∀ e ∈ es, e.IsAccess) :
    (es.foldl State.next s₁).stageioInputMask = (es.foldl State.next t₁).stageioInputMask := by
  have hread : ∀ e ∈ es ++ [.read .ksys573Jamma2Read 0x1f400008 0 0xffff 0], e.IsAccess := by
    intro e he
    rcases List.mem_append.mp he with he | he
    · exact hes e he
    · rw [List.mem_singleton.mp he]
      exact trivial
  have hsession : ∀ e ∈ es, e ≠ .stop := fun e he => (hes e he).ne_stop
  obtain ⟨-, -, answers, -, -, -, hsanswers, htanswers⟩ := hsame _ hread
  have hs' := hs.foldl_next hsession
  have ht' := ht.foldl_next hsession
  have hsinv' := hsinv.foldl_next es
  have htinv' := htinv.foldl_next es
  rw [List.foldl_concat] at hsanswers htanswers
  generalize es.foldl State.next s₁ = s at *
  generalize es.foldl State.next t₁ = t at *
  have hhandled : ReadTap.ksys573Jamma2Read.Handles 0x1f400008 0xffff := ⟨rfl, rfl⟩
  rw [hs'.next_read hhandled, hs'.next_pad Event.noConfusion] at hsanswers
  rw [ht'.next_read hhandled, ht'.next_pad Event.noConfusion, hanswers] at htanswers
  rw [← List.nil_append answers, ← htanswers, ← List.append_assoc] at hsanswers
  have hanswer := Option.some.inj (List.singleton_inj.mp (List.append_inj' hsanswers rfl).2)
  apply BitVec.eq_of_getLsbD_eq
  intro k hk
  by_cases hlow : k < 32
  · by_cases hmaskable : (0x0606#64).getLsbD k = false
    · rw [hsinv'.mask.set k hlow hmaskable, htinv'.mask.set k hlow hmaskable]
    · have hinput : ∀ k < 32, ¬(0x0606#64).getLsbD k = false →
          k ∈ ReadTap.ksys573Jamma2Read.inputBits ∧ (0xffff : LuaInt).getLsbD k = true ∧
            ReadTap.ksys573Jamma2Read.pressed 0 k = false := by decide
      obtain ⟨hmem, hbus, hup⟩ := hinput k hlow hmaskable
      have hpad (pad : LuaInt) : ((Event.polledPad (.read .ksys573Jamma2Read 0x1f400008 0 0xffff
          0)).map (BitVec.setWidth 64)).getD pad = 0 := rfl
      have hbit := congrArg (BitVec.getLsbD · k) hanswer
      simp only [ReadTap.getLsbD_answer, hbus, if_pos hmem, Bool.true_and, hpad, hup,
        Bool.not_false, Bool.and_true] at hbit
      exact hbit
  · have hhigh (x : LuaInt) (hx : x.toNat < 2 ^ 32) : x.getLsbD k = false :=
      Nat.testBit_lt_two_pow (Nat.lt_of_lt_of_le hx (Nat.pow_le_pow_right (by decide) (by omega)))
    rw [hhigh _ hsinv'.mask.lt, hhigh _ htinv'.mask.lt]

/-- **A restart is a fresh start, if it finds the stages at rest.** After a stop and
a successful start, all accesses are answered and set lights as after the first start
of a freshly loaded plugin, if and only if both stages were clean. -/
theorem restart_eq_fresh_iff {s : State} (hs : Reachable s) {systemName : List Char}
    (hname : isSupported systemName = true) :
    (∀ es : List Event, (∀ e ∈ es, e.IsAccess) →
      ∃ s₁ t₁ s' t', run s [.stop, .start systemName true] = .ok s₁ ∧
        run .load [.start systemName true] = .ok t₁ ∧ run s₁ es = .ok s' ∧ run t₁ es = .ok t' ∧
        SameSince s₁ t₁ s' t') ↔
      ∀ p, (s.stageio p).Clean := by
  have hrun₁ : run s [.stop, .start systemName true] = .ok (deinit s).started := by
    rw [← next_stop_start s hname]
    exact run_eq hs.stagesValid _
  have hrun₂ : run .load [.start systemName true] = .ok State.load.started := by
    rw [← init_eq rfl hname]
    exact run_eq State.load_stagesValid _
  have hreach₁ : Reachable (deinit s).started := by
    rw [← next_stop_start s hname]
    exact (hs.next .stop).next _
  have hreach₂ : Reachable State.load.started := ⟨_, hrun₂⟩
  have hrunning₁ := (hreach₁.inSession rfl).1
  have hrunning₂ := (hreach₂.inSession rfl).1
  have hstages : (deinit s).started.stageio = s.stageio := by
    change (deinit s).stageio = _
    unfold deinit
    split_ifs <;> rfl
  constructor
  · intro h p
    have hsame (es : List Event) (hes : ∀ e ∈ es, e.IsAccess) :
        SameSince (deinit s).started State.load.started
          (es.foldl State.next (deinit s).started) (es.foldl State.next State.load.started) := by
      obtain ⟨s₁, t₁, s', t', hs₁, ht₁, hs', ht', hsince⟩ := h es hes
      rw [hrun₁, Except.ok.injEq] at hs₁
      rw [hrun₂, Except.ok.injEq] at ht₁
      subst hs₁ ht₁
      rw [run_eq hrunning₁.valid, Except.ok.injEq] at hs'
      rw [run_eq hrunning₂.valid, Except.ok.injEq] at ht'
      subst hs' ht'
      exact hsince
    rw [← hstages]
    exact clean_of_masks hrunning₁ hreach₁.stageInv (fun _ => rfl)
      (fun es hes => mask_eq_of_sameSince hrunning₁ hrunning₂ hreach₁.stageInv hreach₂.stageInv
        rfl hsame hes) p
  · intro hclean es hes
    have hmirrors := (mirrors_of_clean hclean hs.stagesValid).foldl_next hrunning₁ hrunning₂
      fun e he => (hes e he).ne_stop
    obtain ⟨calls, hcalls, hcalls'⟩ := hmirrors.calls
    obtain ⟨answers, hanswers, hanswers'⟩ := hmirrors.answers
    exact ⟨_, _, _, _, hrun₁, hrun₂, run_eq hrunning₁.valid es, run_eq hrunning₂.valid es,
      calls, calls, answers, hcalls, hcalls', rfl, hanswers, hanswers'⟩

/-- The first lamp is lit, and the second port read. -/
def lampAndRead : List Event :=
  [.write .ksys573DioWrite_1_0 0x1f6400e0 0x10000000 0xffff0000,
    .write .ksys573DioWrite_1_0 0x1f6400e0 0 0xffff0000,
    .read .ksys573Jamma2Read 0x1f400008 0 0xffff 0x20000]

/-- A session that also clocks a one and four zeros in, and leaves both lines low. -/
def lampAndBits : List Event :=
  .start "ddr4mp".toList true :: lampAndRead ++
    [true, false, false, false, false].flatMap (clockIn .p1) ++ [stageWrite .p1 0]

/-- The session leaves an old bit in player one's shift register, but a harmless one:
after a restart the lamp is lit and the port read as after a first start. -/
theorem restart_eq_fresh_after_session :
    ∃ s s₁ t₁ s' t', run .load lampAndBits = .ok s ∧ (s.stageio .p1).dataShift = 0x100 ∧
      run s [.stop, .start "ddr4mp".toList true] = .ok s₁ ∧
      run .load [.start "ddr4mp".toList true] = .ok t₁ ∧
      run s₁ lampAndRead = .ok s' ∧ run t₁ lampAndRead = .ok t' ∧ SameSince s₁ t₁ s' t' ∧
      s'.calls = s₁.calls ++ [.ddrIoSetLightsExtio 0x40000000, .ddrIoReadPad 0x20000] ∧
      s'.answers = s₁.answers ++ [some 0xebef] := by
  have hname : isSupported "ddr4mp".toList = true := by decide
  have hrun := run_eq State.load_stagesValid lampAndBits
  have hreach : Reachable (lampAndBits.foldl State.next .load) := ⟨_, hrun⟩
  have hclean (p : Player) : ((lampAndBits.foldl State.next .load).stageio p).Clean := by
    cases p <;> exact ⟨by decide, by decide, by decide, by decide⟩
  obtain ⟨s₁, t₁, s', t', hs₁, ht₁, hs', ht', hsince⟩ :=
    (restart_eq_fresh_iff hreach hname).mpr hclean lampAndRead
      (by simp [lampAndRead, Event.IsAccess])
  refine ⟨_, s₁, t₁, s', t', hrun, by decide, hs₁, ht₁, hs', ht', hsince, ?_⟩
  rw [run_eq hreach.stagesValid, Except.ok.injEq] at hs₁
  subst hs₁
  rw [run_eq (hreach.stagesValid.foldl_next _), Except.ok.injEq] at hs'
  subst hs'
  exact ⟨by decide, by decide⟩

/-- Stopped with player one's clock high, the plugin swallows an edge of the next
start word, and the next read shows it. -/
theorem restart_not_fresh :
    ¬∀ s, Reachable s → ∀ es : List Event, (∀ e ∈ es, e.IsAccess) →
      ∃ s₁ t₁ s' t', run s [.stop, .start "ddr4mp".toList true] = .ok s₁ ∧
        run .load [.start "ddr4mp".toList true] = .ok t₁ ∧ run s₁ es = .ok s' ∧
        run t₁ es = .ok t' ∧ SameSince s₁ t₁ s' t' := by
  intro h
  have hname : isSupported "ddr4mp".toList = true := by decide
  have hreach : Reachable (State.load.started.next (stageWrite .p1 2)) :=
    Reachable.next ⟨[.start "ddr4mp".toList true], by rw [← init_eq rfl hname]; rfl⟩ _
  obtain ⟨s₁, t₁, s', t', hs₁, ht₁, hs', ht', calls, calls', answers, -, -, -, hs, ht⟩ :=
    h _ hreach (startBits.flatMap (clockIn .p1) ++ [.read .ksys573Jamma2Read 0x1f400008 0 0xffff 0])
    (by
      intro e he
      rcases List.mem_append.mp he with he | he
      · exact clockIn_isAccess e he
      · rw [List.mem_singleton.mp he]
        exact trivial)
  rw [run_eq hreach.stagesValid, Except.ok.injEq] at hs₁
  rw [run_eq State.load_stagesValid, Except.ok.injEq] at ht₁
  subst hs₁ ht₁
  rw [run_eq (hreach.stagesValid.foldl_next _), Except.ok.injEq] at hs'
  rw [run_eq (State.load_stagesValid.foldl_next _), Except.ok.injEq] at ht'
  subst hs' ht'
  have hs₁ : ([.stop, .start "ddr4mp".toList true].foldl State.next
      (State.load.started.next (stageWrite .p1 2))).answers = [] := by decide
  have ht₁ : ([.start "ddr4mp".toList true].foldl State.next State.load).answers = [] := by decide
  rw [hs₁, List.nil_append] at hs
  rw [ht₁, List.nil_append] at ht
  exact absurd (hs.trans ht.symm) (by decide)

end MamePlugins.Ddrio
