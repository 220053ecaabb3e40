import MamePlugins.Ddrio.Handshake

/-!
# The shared input mask

Both stages write one input mask. This file proves the invariant that ties the
mask to the stages over every run of the plugin, restarts included, and then
determines the mask from the last edge that moved one of the handshakes.
-/

namespace MamePlugins.Ddrio

open Library

/-! ### Edges and handshake states -/

/-- A handshake begins only in an idle stage, and goes on only in a busy one. -/
theorem Stage.writeEdge_idle {st : Stage} {old n : ℕ} {k : ClockEdge}
    (h : st.writeEdge old n = some k) :
    st.dataState = stageIoStateIdle ↔ k = .shift ∨ k = .start := by
  have hedge (st : Stage) (hk : st.edge = k) :
      st.dataState = stageIoStateIdle ↔ k = .shift ∨ k = .start := by
    unfold Stage.edge at hk
    subst hk
    split_ifs <;> simp_all
  unfold Stage.writeEdge at h
  dsimp only at h
  unfold Stage.clockEdge at h
  split_ifs at h
  · exact hedge st (Option.some.inj h)
  · exact hedge (st.data _) (Option.some.inj h)

/-- The handshake state and counter after a register write, by the kind of edge. -/
theorem Stage.write_handshake (st : Stage) (old n : ℕ) :
    ((st.write old n).dataState, (st.write old n).dataBit) =
      match st.writeEdge old n with
      | none | some .shift => (st.dataState, st.dataBit)
      | some .start => (stageIoStateInit, 0)
      | some .step => (st.dataState, st.dataBit + 1)
      | some .finish => (stageIoStateIdle, 0) := by
  have hclock (st : Stage) (level : Bool) :
      ((st.clock level).dataState, (st.clock level).dataBit) =
        match st.clockEdge level with
        | none | some .shift => (st.dataState, st.dataBit)
        | some .start => (stageIoStateInit, 0)
        | some .step => (st.dataState, st.dataBit + 1)
        | some .finish => (stageIoStateIdle, 0) := by
    unfold Stage.clock Stage.clockEdge
    by_cases hsame : level.toNat = st.dataClk
    · simp [hsame]
    · cases level with
      | false =>
        have hclk : ¬0 = st.dataClk := hsame
        simp [hclk]
      | true =>
        have hclk : ¬1 = st.dataClk := hsame
        simp only [Bool.toNat_true, hclk, ne_eq, not_false_eq_true, and_self, if_true, if_false]
        unfold Stage.rise
        cases st.edge <;> rfl
  unfold Stage.write Stage.writeEdge
  dsimp only
  split_ifs
  · rfl
  · rfl
  · exact hclock st _
  · exact hclock (st.data _) _

/-! ### The invariant over all runs -/

/-- A mask of 32 bits that clears at most the UP and RIGHT arrows of both stages. -/
structure MaskValid (mask : LuaInt) : Prop where
  lt : mask.toNat < 2 ^ 32
  set : ∀ i < 32, (0x0606#64).getLsbD i = false → mask.getLsbD i = true

theorem maskByte_mem {bit : ℕ} (hbit : bit ≤ 21) :
    maskByte bit ∈ ([0xf9, 0xfb, 0xfd, 0xff] : List LuaInt) := by
  interval_cases bit <;> decide

theorem maskAfter_valid {edge : Option ClockEdge} {bits : Player → ℕ} {mask : LuaInt}
    (hmask : MaskValid mask) (hbits : ∀ p, bits p ≤ 21) : MaskValid (maskAfter edge bits mask) := by
  have h1 := maskByte_mem (hbits .p1)
  have h2 := maskByte_mem (hbits .p2)
  simp only [List.mem_cons, List.not_mem_nil, or_false] at h1 h2
  rcases edge with _ | _ | _ | _ | _
  · exact hmask
  · exact hmask
  · change MaskValid 0xfffff9f9
    exact ⟨by decide, by decide⟩
  · change MaskValid ((0xffff0000 : LuaInt) ||| (maskByte (bits .p1) <<< 8) ||| maskByte (bits .p2))
    rcases h1 with h1 | h1 | h1 | h1 <;> rcases h2 with h2 | h2 | h2 | h2 <;> rw [h1, h2] <;>
      exact ⟨by decide, by decide⟩
  · change MaskValid 0xffffffff
    exact ⟨by decide, by decide⟩

/-- The joint invariant of both stages and the mask they share. -/
structure State.StageInv (s : State) : Prop where
  valid : s.StagesValid
  mask : MaskValid s.stageioInputMask
  masked : s.stageioInputMask ≠ 0xffffffff → ∃ p, (s.stageio p).dataState = stageIoStateInit

theorem State.load_stageInv : State.load.StageInv :=
  ⟨State.load_stagesValid, ⟨by decide, by decide⟩, fun h => absurd rfl h⟩

/-- The invariant depends on the stages and the mask only, and an all-ones mask
satisfies it with any valid stages. -/
theorem State.StageInv.of_eq {s s' : State} (h : s.StageInv) (hstages : s'.stageio = s.stageio)
    (hmask : s'.stageioInputMask = s.stageioInputMask ∨ s'.stageioInputMask = 0xffffffff) :
    s'.StageInv := by
  have hvalid : s'.StagesValid := fun p => hstages ▸ h.valid p
  rcases hmask with hmask | hmask
  · exact ⟨hvalid, hmask ▸ h.mask, by rw [hmask, hstages]; exact h.masked⟩
  · exact ⟨hvalid, by rw [hmask]; exact ⟨by decide, by decide⟩, fun hne => absurd hmask hne⟩

/-- An edge that ends a handshake clears the mask; any other leaves the stage it
came from in its handshake, or changes nothing. -/
theorem State.StageInv.writeStage {s : State} (h : s.StageInv) (p : Player) (n : ℕ) :
    (s.writeRegister p.register n).StageInv := by
  have hvalid := h.valid.writeRegister p.register n
  have hmask := s.writeRegister_stageioInputMask p n
  have hhandshake := (s.stageio p).write_handshake (s.ksys573DioWriteOutputData p.register) n
  rw [← s.writeRegister_stageio_self p n] at hhandshake
  refine ⟨hvalid, hmask ▸ maskAfter_valid h.mask fun q => (hvalid q).bit_le, ?_⟩
  intro hne
  rw [hmask] at hne
  have hkeep (hstate : ((s.writeRegister p.register n).stageio p).dataState =
        (s.stageio p).dataState) (hne : s.stageioInputMask ≠ 0xffffffff) :
      ∃ q, ((s.writeRegister p.register n).stageio q).dataState = stageIoStateInit := by
    obtain ⟨q, hq⟩ := h.masked hne
    refine ⟨q, ?_⟩
    by_cases hqp : q = p
    · rw [hqp, hstate, ← hqp, hq]
    · rw [s.writeRegister_stageio_of_ne hqp, hq]
  cases hedge : (s.stageio p).writeEdge (s.ksys573DioWriteOutputData p.register) n with
  | none =>
    rw [hedge] at hhandshake hne
    exact hkeep (congrArg Prod.fst hhandshake) hne
  | some k =>
    have hidle := Stage.writeEdge_idle hedge
    rw [hedge] at hhandshake hne
    cases k with
    | shift => exact hkeep (congrArg Prod.fst hhandshake) hne
    | start => exact ⟨p, congrArg Prod.fst hhandshake⟩
    | step =>
      have hbusy : (s.stageio p).dataState ≠ stageIoStateIdle :=
        fun hi => by simpa using hidle.mp hi
      exact ⟨p, (congrArg Prod.fst hhandshake).trans
        ((h.valid p).state_eq.resolve_left hbusy)⟩
    | finish => exact absurd rfl hne

/-- What a callback does to the stages and their mask: it writes a stage's
register, or it leaves the stages alone and resets the mask if it is a start. -/
theorem State.next_stage_cases (s : State) (e : Event) :
    (∃ p n, s.next e = s.writeRegister (Player.register p) n ∧ ¬s.Starts e) ∨
      ((s.next e).stageio = s.stageio ∧
        (s.next e).stageioInputMask = if s.Starts e then 0xffffffff else s.stageioInputMask) := by
  rcases s.next_cases e with ⟨r, n, hreached, hnext⟩ | ⟨hstart, hnext⟩ |
    ⟨hstart, _, _, _, _, _, _, -, hnext⟩
  · have hstart : ¬s.Starts e := by
      cases e <;> simp_all [State.Starts, Event.reached]
    rw [hnext, if_neg hstart]
    cases hstage : stageOf r with
    | none => exact Or.inr (s.writeRegister_stages_of_none hstage n)
    | some p =>
      rw [stageOf_eq_some_iff.mp hstage]
      exact Or.inl ⟨p, n, rfl, hstart⟩
  · rw [hnext, if_pos hstart]
    exact Or.inr ⟨rfl, rfl⟩
  · rw [hnext, if_neg hstart]
    exact Or.inr ⟨rfl, rfl⟩

/-- Every callback keeps the invariant: a restart resets the mask but not the
stages, which is harmless since an all-ones mask asks nothing of them. -/
theorem State.StageInv.next {s : State} (h : s.StageInv) (e : Event) : (s.next e).StageInv := by
  rcases s.next_stage_cases e with ⟨p, n, hnext, -⟩ | ⟨hstages, hmask⟩
  · rw [hnext]
    exact h.writeStage p n
  · refine h.of_eq hstages ?_
    rw [hmask]
    split_ifs
    · exact Or.inr rfl
    · exact Or.inl rfl

theorem State.StageInv.foldl_next {s : State} (h : s.StageInv) (es : List Event) :
    (es.foldl State.next s).StageInv :=
  List.foldlRecOn es State.next h fun _ hs e _ => hs.next e

/-- **Stage state invariant.** No sequence of callbacks fails, so no bit operation
meets `nil`, and in the state it leads to the cells of both stages are in range,
their counters have entries in the table, and the mask is masked only while a
handshake is under way. -/
theorem stageio_invariant (es : List Event) :
    ∃ s, run .load es = .ok s ∧
      (∀ p, ((s.stageio p).dataDo = 0 ∨ (s.stageio p).dataDo = 1) ∧
        ((s.stageio p).dataClk = 0 ∨ (s.stageio p).dataClk = 1) ∧
        (s.stageio p).dataShift < 2 ^ 13 ∧
        ((s.stageio p).dataState = stageIoStateIdle ∨
          (s.stageio p).dataState = stageIoStateInit) ∧
        (s.stageio p).dataBit ≤ 21 ∧
        ((s.stageio p).dataState = stageIoStateIdle → (s.stageio p).dataBit = 0) ∧
        (luaIndex stageioBitMask ((s.stageio p).dataBit + 1)).isSome) ∧
      s.stageioInputMask.toNat < 2 ^ 32 ∧
      (∀ i < 32, (0x0606#64).getLsbD i = false → s.stageioInputMask.getLsbD i = true) ∧
      (s.stageioInputMask ≠ 0xffffffff →
        ∃ p, (s.stageio p).dataState = stageIoStateInit) := by
  have hnext (e : Event) (s : State) (_ : True) (h : s.StageInv) :
      ∃ s', step s e = .ok s' ∧ s'.StageInv := ⟨s.next e, step_eq h.valid e, h.next e⟩
  obtain ⟨s, hrun, hinv⟩ := runEvents_invariant (fun _ => True) State.StageInv
    State.load_stageInv hnext es fun _ _ => trivial
  refine ⟨s, hrun, fun p => ?_, hinv.mask.lt, hinv.mask.set, hinv.masked⟩
  have hvalid := hinv.valid p
  have hdo := hvalid.do_le
  have hclk := hvalid.clk_le
  have hbit := hvalid.bit_le
  have hindex : (s.stageio p).dataBit < stageioBitMask.length :=
    Nat.lt_of_le_of_lt hbit (by decide)
  exact ⟨by omega, by omega, hvalid.shift_lt, hvalid.state_eq, hbit, hvalid.bit_of_idle,
    by simp [luaIndex, hindex]⟩

end MamePlugins.Ddrio
