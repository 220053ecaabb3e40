import MamePlugins.Library.GreedyMatch
import MamePlugins.Ddrio.Cells

/-!
# The stage handshake

A stage listens on two bits of its register: bit 1 of the nibble is the clock,
bit 0 the data. This file connects the stage's cells to the bits sampled at the
rising edges: the shift register holds their last thirteen, and the handshake
state is that of the greedy matcher for `0xc90`.
-/

namespace MamePlugins.Ddrio

open Library

/-- The samples of a nibble sequence, oldest first: the data bit of every nibble
that raises the clock bit. -/
def edgeSamples (last : ℕ) : List ℕ → List Bool
  | [] => []
  | n :: ns =>
    if n.testBit 1 ∧ ¬last.testBit 1 then n.testBit 0 :: edgeSamples n ns
    else edgeSamples n ns

theorem edgeSamples_concat (last : ℕ) (ns : List ℕ) (n : ℕ) :
    edgeSamples last (ns ++ [n]) =
      edgeSamples last ns ++
        if n.testBit 1 ∧ ¬(ns.getLastD last).testBit 1 then [n.testBit 0] else [] := by
  induction ns generalizing last with
  | nil => rfl
  | cons m ns ih =>
    rw [List.cons_append, edgeSamples, edgeSamples, ih, List.getLastD_cons]
    split_ifs <;> rfl

/-- The thirteen newest samples, newest first in the list, spell the start word. -/
def startWord (samples : List Bool) : Bool := window 13 samples == 0xc90

/-- The cells of a stage whose lines have these levels and which has seen these
samples, newest first. -/
structure Stage.Follows (st : Stage) (data clk : Bool) (samples : List Bool) : Prop where
  data : st.dataDo = data.toNat
  clk : st.dataClk = clk.toNat
  shift : st.dataShift = window 13 samples
  handshake : match matchAge startWord 22 samples with
    | none => st.dataState = stageIoStateIdle ∧ st.dataBit = 0
    | some k => st.dataState = stageIoStateInit ∧ st.dataBit = k

/-- A fresh stage has seen nothing. -/
theorem Stage.fresh_follows : Stage.fresh.Follows false false [] :=
  ⟨rfl, rfl, (window_nil 13).symm, ⟨rfl, rfl⟩⟩

/-- A rising edge shifts the data line's level into the window and advances the
matcher. -/
theorem Stage.Follows.rise {st : Stage} {data clk : Bool} {samples : List Bool}
    (h : st.Follows data clk samples) : st.rise.Follows data true (data :: samples) := by
  have hlt : st.dataShift < 2 ^ 13 := h.shift ▸ window_lt 12 samples
  have hshifted : st.shifted = window 13 (data :: samples) := by
    rw [Stage.shifted_eq hlt, window_cons, h.shift, h.data]
  have hstart : startWord (data :: samples) = decide (st.shifted = 0xc90) := by
    rw [startWord, hshifted]
    rfl
  have hhandshake := h.handshake
  cases hage : matchAge startWord 22 samples with
  | none =>
    simp only [hage] at hhandshake
    obtain ⟨hidle, hbit⟩ := hhandshake
    by_cases hword : st.shifted = 0xc90
    · have hrise : st.rise = { st with
          dataClk := 1, dataShift := st.shifted, dataState := stageIoStateInit, dataBit := 0 } := by
        simp [Stage.rise, Stage.edge, hidle, hword]
      rw [hrise]
      refine ⟨h.data, rfl, hshifted, ?_⟩
      simp [matchAge, hage, hstart, hword]
    · have hrise : st.rise = { st with dataClk := 1, dataShift := st.shifted } := by
        simp [Stage.rise, Stage.edge, hidle, hword]
      rw [hrise]
      refine ⟨h.data, rfl, hshifted, ?_⟩
      simp [matchAge, hage, hstart, hword, hidle, hbit]
  | some k =>
    simp only [hage] at hhandshake
    obtain ⟨hinit, hbit⟩ := hhandshake
    have hidle : st.dataState ≠ stageIoStateIdle := by
      rw [hinit]
      decide
    by_cases hk : k + 1 < 22
    · have hrise : st.rise = { st with
          dataClk := 1, dataShift := st.shifted, dataBit := k + 1 } := by
        simp [Stage.rise, Stage.edge, hidle, hbit, hk]
      rw [hrise]
      refine ⟨h.data, rfl, hshifted, ?_⟩
      simp [matchAge, hage, hk, hinit]
    · have hrise : st.rise = { st with
          dataClk := 1, dataShift := st.shifted, dataBit := 0, dataState := stageIoStateIdle } := by
        simp [Stage.rise, Stage.edge, hidle, hbit, hk]
      rw [hrise]
      refine ⟨h.data, rfl, hshifted, ?_⟩
      simp [matchAge, hage, hk]

/-- A level on the clock line samples the data line if it rises. -/
theorem Stage.Follows.clock {st : Stage} {data clk : Bool} {samples : List Bool}
    (h : st.Follows data clk samples) (level : Bool) :
    (st.clock level).Follows data level (if level ∧ ¬clk then data :: samples else samples) := by
  have hsame : level.toNat = st.dataClk ↔ level = clk := by
    rw [h.clk]
    cases level <;> cases clk <;> decide
  unfold Stage.clock
  by_cases hlevel : level = clk
  · rw [if_pos (hsame.mpr hlevel), if_neg (by simp [hlevel]), hlevel]
    exact h
  · rw [if_neg fun heq => hlevel (hsame.mp heq)]
    cases level with
    | true =>
      rw [if_pos rfl, if_pos ⟨rfl, fun hclk => hlevel hclk.symm⟩]
      exact h.rise
    | false => exact ⟨h.data, rfl, h.shift, h.handshake⟩

/-- The cells and samples of a register that goes from `last` to `n`. The data
line is driven before the clock line, so the sample is a bit of this very write. -/
theorem Stage.Follows.write {st : Stage} {last : ℕ} {samples : List Bool}
    (h : st.Follows (last.testBit 0) (last.testBit 1) samples) (n : ℕ) :
    (st.write last n).Follows (n.testBit 0) (n.testBit 1)
      (if n.testBit 1 ∧ ¬last.testBit 1 then n.testBit 0 :: samples else samples) := by
  have hdata : (if last.testBit 0 = n.testBit 0 then st else st.data (n.testBit 0)).Follows
      (n.testBit 0) (last.testBit 1) samples := by
    split_ifs with hsame
    · exact hsame ▸ h
    · exact ⟨rfl, h.clk, h.shift, h.handshake⟩
  unfold Stage.write
  generalize (if last.testBit 0 = n.testBit 0 then st else st.data (n.testBit 0)) = st' at hdata ⊢
  by_cases hclk : last.testBit 1 = n.testBit 1
  · rw [hclk] at hdata
    simpa [hclk] using hdata
  · simp only [if_neg hclk]
    exact hdata.clock (n.testBit 1)

/-- Over a whole sequence of nibbles the cells follow the samples. -/
theorem Stage.Follows.track {st : Stage} {last : ℕ}
    (h : st.Follows (last.testBit 0) (last.testBit 1) []) (ns : List ℕ) :
    (Library.track Stage.write st last ns).Follows ((ns.getLastD last).testBit 0)
      ((ns.getLastD last).testBit 1) (edgeSamples last ns).reverse := by
  induction ns using List.reverseRecOn with
  | nil => exact h
  | append_singleton ns n ih =>
    rw [track_concat, List.getLastD_concat, edgeSamples_concat, List.reverse_append]
    have hwrite := ih.write n
    split_ifs at hwrite ⊢
    · exact hwrite
    · exact hwrite

/-- The state after loading the plugin and a first successful start. -/
theorem afterStart_load {systemName : List Char} (hname : isSupported systemName = true) :
    AfterStart (init systemName true .load) :=
  ⟨.load, systemName, ⟨[], rfl⟩, rfl, hname, rfl⟩

/-- **Stage handshake recogniser.** After a first successful start and any digital
output writes, a stage's shift register is the word of its last thirteen samples,
and it is `k` edges into a handshake exactly if the edge `k` edges ago started one.
In the list of samples, and in the list of starts, the newest edge is first. -/
theorem stageio_recognises_handshakes {systemName : List Char}
    (hname : isSupported systemName = true) (es : List Event)
    (hes : ∀ e ∈ es, ∃ tap offset data mask, e = .write tap offset data mask) (p : Player) :
    ∃ s, run .load (.start systemName true :: es) = .ok s ∧
      let samples := (edgeSamples 0 (nibbles p.register es)).reverse
      let st := s.stageio p
      st.dataShift = ∑ i ∈ Finset.range 13, (samples.getD i false).toNat * 2 ^ (12 - i) ∧
      (∀ k, st.dataState = stageIoStateInit ∧ st.dataBit = k ↔
        k ≤ 21 ∧ (starts startWord 22 samples)[k]? = some true) ∧
      ((¬∃ k ≤ 21, (starts startWord 22 samples)[k]? = some true) →
        st.dataState = stageIoStateIdle ∧ st.dataBit = 0) := by
  have hrunning := (afterStart_load hname).running
  have hsession : ∀ e ∈ es, e ≠ .stop := by
    intro e he
    obtain ⟨tap, offset, data, mask, rfl⟩ := hes e he
    exact Event.noConfusion
  refine ⟨es.foldl State.next (init systemName true .load), run_eq hrunning.valid es, ?_⟩
  have hcell := (registerCell_stage p).foldl_next hrunning hsession
  have hstart : (init systemName true .load).stageio p = Stage.fresh := by
    rw [init_eq rfl hname]
    rfl
  have hdata : (init systemName true .load).ksys573DioWriteOutputData p.register = 0 := by
    rw [init_eq rfl hname]
    rfl
  have hfresh : Stage.fresh.Follows (Nat.testBit 0 0) (Nat.testBit 0 1) [] := Stage.fresh_follows
  have hfollows := hfresh.track (nibbles p.register es)
  rw [hstart, hdata] at hcell
  dsimp only at hcell ⊢
  rw [← hcell] at hfollows
  generalize (List.foldl State.next (init systemName true State.load) es).stageio p = st
    at hfollows ⊢
  generalize (edgeSamples 0 (nibbles p.register es)).reverse = samples at hfollows ⊢
  have hage (k : ℕ) : (k ≤ 21 ∧ (starts startWord 22 samples)[k]? = some true) ↔
      matchAge startWord 22 samples = some k := by
    rw [matchAge_eq_some_iff (by decide), Nat.lt_succ_iff]
  have hhandshake := hfollows.handshake
  refine ⟨hfollows.shift, ?_, ?_⟩
  · intro k
    rw [hage]
    cases hmatch : matchAge startWord 22 samples with
    | none =>
      rw [hmatch] at hhandshake
      simp [hhandshake.1, stageIoStateIdle, stageIoStateInit]
    | some j =>
      rw [hmatch] at hhandshake
      simp [hhandshake.1, hhandshake.2]
  · intro hnone
    cases hmatch : matchAge startWord 22 samples with
    | none =>
      rw [hmatch] at hhandshake
      exact hhandshake
    | some j => exact (hnone ⟨j, (hage j).mpr hmatch⟩).elim

/-- A write of a nibble to a stage's register, as the emulator makes it. -/
def stageWrite (p : Player) (n : ℕ) : Event :=
  match p with
  | .p1 => .write .ksys573DioWrite_1_0 0x1f6400e0 (BitVec.ofNat 64 (n <<< 12)) 0xffff
  | .p2 => .write .ksys573DioWrite_3_7 0x1f6400e4 (BitVec.ofNat 64 (n <<< 12)) 0xffff

/-- Clock one bit into a stage: set the data line, then raise the clock. -/
def clockIn (p : Player) (b : Bool) : List Event :=
  [stageWrite p b.toNat, stageWrite p (2 + b.toNat)]

/-- Clocking bits in takes nothing but digital output writes. -/
theorem clockIn_isWrite {p : Player} {bits : List Bool} :
    ∀ e ∈ bits.flatMap (clockIn p), ∃ tap offset data mask, e = .write tap offset data mask := by
  have hstage (n : ℕ) :
      ∃ tap offset data mask, stageWrite p n = .write tap offset data mask := by
    cases p <;> exact ⟨_, _, _, _, rfl⟩
  intro e he
  obtain ⟨b, -, hb⟩ := List.mem_flatMap.mp he
  rcases List.mem_cons.mp hb with rfl | hb
  · exact hstage _
  · rw [List.mem_singleton.mp hb]
    exact hstage _

/-- The shortest bit sequence that a stage with an empty register takes for `0xc90`. -/
def startBits : List Bool := [true, false, false, true, false, false, true, true, false]

/-- After the start word, and nothing else, player one's handshake has begun. -/
theorem stageio_recognises_startBits :
    ∃ s, run .load (.start "ddr4mp".toList true :: startBits.flatMap (clockIn .p1)) = .ok s ∧
      (s.stageio .p1).dataState = stageIoStateInit ∧ (s.stageio .p1).dataBit = 0 := by
  have hname : isSupported "ddr4mp".toList = true := by decide
  obtain ⟨s, hrun, -, hk, -⟩ := stageio_recognises_handshakes hname _ clockIn_isWrite .p1
  exact ⟨s, hrun, (hk 0).mpr (by decide)⟩

end MamePlugins.Ddrio
