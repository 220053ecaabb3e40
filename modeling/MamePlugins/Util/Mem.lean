import Mathlib.Algebra.Order.Group.Nat
import Mathlib.Data.BitVec

/-!
# Signature search

`mem_find_signiture` compares a signature with the memory at every aligned address of an
area. The area bounds the start of a comparison and not its end. This file determines
what the search finds and reads, and when it stays inside its area.
-/

namespace MamePlugins.Util

/-- `memcmp`: the difference of the first two bytes that differ, or zero. -/
def memcmp (s₁ s₂ : ℕ → BitVec 8) : ℕ → ℤ
  | 0 => 0
  | n + 1 =>
    if s₁ 0 = s₂ 0 then memcmp (fun i => s₁ (i + 1)) (fun i => s₂ (i + 1)) n
    else (s₁ 0).toNat - (s₂ 0).toNat

/-- The loop of `mem_find_signiture`, for a number of iterations: the pointer it returns,
and the addresses of the area's side of its comparisons. A comparison needs all of its
bytes to be readable. -/
def memFindSignitureLoop (mem sig : ℕ → BitVec 8) (sigLen sigOffset : BitVec 32)
    (endAddr : BitVec 64) (alignment : BitVec 32) :
    ℕ → BitVec 64 → Option (BitVec 64 × List ℕ)
  | 0, _ => none
  | fuel + 1, pos =>
    if pos < endAddr then
      let reads := List.range' pos.toNat sigLen.toNat
      if memcmp (fun i => mem (pos.toNat + i)) sig sigLen.toNat = 0 then
        some (pos + sigOffset.signExtend 64, reads)
      else do
        let (result, later) ← memFindSignitureLoop mem sig sigLen sigOffset endAddr alignment
          fuel (pos + alignment.signExtend 64)
        some (result, reads ++ later)
    else some (0, [])

/-- `mem_find_signiture`. The null pointer is zero. -/
def memFindSigniture (mem sig : ℕ → BitVec 8) (sigLen sigOffset : BitVec 32)
    (startAddr endAddr : BitVec 64) (alignment : BitVec 32) (fuel : ℕ) :
    Option (BitVec 64 × List ℕ) :=
  memFindSignitureLoop mem sig sigLen sigOffset endAddr alignment fuel startAddr

/-! ### Comparisons -/

variable {mem sig : ℕ → BitVec 8}

/-- The signature stands at an address. -/
def MatchesAt (mem sig : ℕ → BitVec 8) (n a : ℕ) : Prop := ∀ i < n, mem (a + i) = sig i

theorem memcmp_eq_zero_iff {s₁ s₂ : ℕ → BitVec 8} {n : ℕ} :
    memcmp s₁ s₂ n = 0 ↔ ∀ i < n, s₁ i = s₂ i := by
  induction n generalizing s₁ s₂ with
  | zero => simp [memcmp]
  | succ n ih =>
    rw [memcmp]
    by_cases hfirst : s₁ 0 = s₂ 0
    · rw [if_pos hfirst, ih]
      constructor
      · intro h i hi
        cases i with
        | zero => exact hfirst
        | succ i => exact h i (by omega)
      · exact fun h i hi => h (i + 1) (by omega)
    · rw [if_neg hfirst]
      refine iff_of_false (fun hzero => hfirst ?_) fun h => hfirst (h 0 (by omega))
      apply BitVec.eq_of_toNat_eq
      omega

/-! ### The loop -/

/-- The addresses at which the search compares. -/
def candidate (c alignment k : ℕ) : ℕ := c + k * alignment

/-- What the loop finds and reads from address `c` on, for a signature of `n` bytes: the
first candidate below the end at which the signature stands, whether it ends inside the
area or not. -/
inductive Scans (mem sig : ℕ → BitVec 8) (n : ℕ) (sigOffset : BitVec 32) (endAddr alignment c : ℕ) :
    BitVec 64 × List ℕ → Prop
  | found (k : ℕ) (outcome : BitVec 64 × List ℕ)
      (hend : candidate c alignment k < endAddr)
      (hmatch : MatchesAt mem sig n (candidate c alignment k))
      (hfirst : ∀ j < k, ¬MatchesAt mem sig n (candidate c alignment j))
      (hresult : outcome.1 = BitVec.ofNat 64 (candidate c alignment k) + sigOffset.signExtend 64)
      (hreads : ∀ r, r ∈ outcome.2 ↔ ∃ j ≤ k, candidate c alignment j ≤ r ∧
        r < candidate c alignment j + n) : Scans mem sig n sigOffset endAddr alignment c outcome
  | missed (outcome : BitVec 64 × List ℕ)
      (hnone : ∀ k, candidate c alignment k < endAddr →
        ¬MatchesAt mem sig n (candidate c alignment k))
      (hresult : outcome.1 = 0)
      (hreads : ∀ r, r ∈ outcome.2 ↔ ∃ j, candidate c alignment j < endAddr ∧
        candidate c alignment j ≤ r ∧ r < candidate c alignment j + n) :
      Scans mem sig n sigOffset endAddr alignment c outcome

theorem candidate_zero (c alignment : ℕ) : candidate c alignment 0 = c := by
  rw [candidate, Nat.zero_mul, Nat.add_zero]

/-- The candidates from the next address on are the later candidates. -/
theorem candidate_succ (c alignment k : ℕ) :
    candidate c alignment (k + 1) = candidate (c + alignment) alignment k := by
  rw [candidate, candidate, Nat.succ_mul]
  omega

theorem candidate_mono {c alignment j k : ℕ} (h : j ≤ k) :
    candidate c alignment j ≤ candidate c alignment k :=
  Nat.add_le_add_left (Nat.mul_le_mul_right alignment h) c

variable {n c alignment endAddr : ℕ} {sigOffset : BitVec 32} {outcome : BitVec 64 × List ℕ}

/-- At the end of the area nothing is found and nothing read. -/
theorem Scans.past (h : endAddr ≤ c) :
    Scans mem sig n sigOffset endAddr alignment c (0, []) := by
  have hpast (k : ℕ) : ¬candidate c alignment k < endAddr := by
    have hk : candidate c alignment 0 ≤ candidate c alignment k := candidate_mono (Nat.zero_le k)
    rw [candidate_zero] at hk
    omega
  refine .missed _ (fun k hk => absurd hk (hpast k)) rfl fun r => ?_
  refine iff_of_false List.not_mem_nil ?_
  rintro ⟨j, hj, -⟩
  exact hpast j hj

/-- A match ends the scan. -/
theorem Scans.here (hc : c < endAddr) (hmatch : MatchesAt mem sig n c) :
    Scans mem sig n sigOffset endAddr alignment c
      (BitVec.ofNat 64 c + sigOffset.signExtend 64, List.range' c n) := by
  refine .found 0 _ ?_ ?_ (fun j hj => absurd hj (Nat.not_lt_zero j)) ?_ fun r => ?_
  · rwa [candidate_zero]
  · rwa [candidate_zero]
  · rw [candidate_zero]
  · rw [List.mem_range'_1]
    constructor
    · intro hr
      exact ⟨0, le_rfl, by rwa [candidate_zero]⟩
    · rintro ⟨j, hj, hr⟩
      rwa [Nat.le_zero.mp hj, candidate_zero] at hr

/-- A mismatch passes the scan on to the next candidate. -/
theorem Scans.next (hc : c < endAddr) (hmiss : ¬MatchesAt mem sig n c)
    (h : Scans mem sig n sigOffset endAddr alignment (c + alignment) outcome) :
    Scans mem sig n sigOffset endAddr alignment c
      (outcome.1, List.range' c n ++ outcome.2) := by
  cases h with
  | found k _ hend hmatch hfirst hresult hreads =>
    refine .found (k + 1) _ ?_ ?_ (fun j hj => ?_) ?_ fun r => ?_
    · rwa [candidate_succ]
    · rwa [candidate_succ]
    · cases j with
      | zero => rwa [candidate_zero]
      | succ j =>
        rw [candidate_succ]
        exact hfirst j (by omega)
    · rwa [candidate_succ]
    · rw [List.mem_append, List.mem_range'_1, hreads]
      constructor
      · rintro (hr | ⟨j, hj, hr⟩)
        · exact ⟨0, Nat.zero_le _, by rwa [candidate_zero]⟩
        · exact ⟨j + 1, by omega, by rwa [candidate_succ]⟩
      · rintro ⟨j, hj, hr⟩
        cases j with
        | zero =>
          left
          rwa [candidate_zero] at hr
        | succ j =>
          right
          rw [candidate_succ] at hr
          exact ⟨j, by omega, hr⟩
  | missed _ hnone hresult hreads =>
    refine .missed _ (fun k hk => ?_) hresult fun r => ?_
    · cases k with
      | zero => rwa [candidate_zero]
      | succ k =>
        rw [candidate_succ] at hk ⊢
        exact hnone k hk
    · rw [List.mem_append, List.mem_range'_1, hreads]
      constructor
      · rintro (hr | ⟨j, hj, hr⟩)
        · exact ⟨0, by rwa [candidate_zero], by rwa [candidate_zero]⟩
        · exact ⟨j + 1, by rwa [candidate_succ], by rwa [candidate_succ]⟩
      · rintro ⟨j, hj, hr⟩
        cases j with
        | zero =>
          left
          rwa [candidate_zero] at hr
        | succ j =>
          right
          rw [candidate_succ] at hj hr
          exact ⟨j, hj, hr⟩

/-- Where no step wraps, the loop ends and its outcome is that of the scan. -/
theorem memFindSignitureLoop_scans (mem sig : ℕ → BitVec 8) {sigLen sigOffset : BitVec 32}
    {endAddr : BitVec 64} {alignment : BitVec 32} (halign : 1 ≤ alignment.toInt)
    (hwrap : endAddr.toNat + alignment.toNat ≤ 2 ^ 64) (pos : BitVec 64) :
    ∃ outcome, (∃ fuel₀, ∀ fuel ≥ fuel₀, memFindSignitureLoop mem sig sigLen sigOffset endAddr
        alignment fuel pos = some outcome) ∧
      Scans mem sig sigLen.toNat sigOffset endAddr.toNat alignment.toNat pos.toNat outcome := by
  have hmsb : alignment.msb = false := by
    rw [BitVec.msb_eq_toInt, decide_eq_false_iff_not]
    omega
  have hstep : (alignment.signExtend 64).toNat = alignment.toNat := by
    rw [BitVec.signExtend_eq_setWidth_of_msb_false hmsb, BitVec.toNat_setWidth,
      Nat.mod_eq_of_lt (by omega)]
  have hpositive : 0 < alignment.toNat := by
    have hint := BitVec.toInt_eq_toNat_of_msb hmsb
    omega
  induction hdistance : endAddr.toNat - pos.toNat using Nat.strong_induction_on
    generalizing pos with
  | _ distance ih =>
    by_cases hpos : pos < endAddr
    · have hlt : pos.toNat < endAddr.toNat := hpos
      by_cases hmatch : MatchesAt mem sig sigLen.toNat pos.toNat
      · refine ⟨_, ⟨1, fun fuel hfuel => ?_⟩, Scans.here hlt hmatch⟩
        obtain ⟨fuel, rfl⟩ := Nat.exists_eq_add_of_le' hfuel
        rw [memFindSignitureLoop, if_pos hpos]
        dsimp only
        rw [if_pos (memcmp_eq_zero_iff.mpr hmatch), BitVec.ofNat_toNat, BitVec.setWidth_eq]
      · have hnext : (pos + alignment.signExtend 64).toNat = pos.toNat + alignment.toNat := by
          rw [BitVec.toNat_add, hstep, Nat.mod_eq_of_lt (by omega)]
        obtain ⟨outcome, ⟨fuel₀, hloop⟩, hscans⟩ :=
          ih _ (by omega) (pos + alignment.signExtend 64) rfl
        rw [hnext] at hscans
        refine ⟨_, ⟨fuel₀ + 1, fun fuel hfuel => ?_⟩, Scans.next hlt hmatch hscans⟩
        obtain ⟨fuel, rfl⟩ := Nat.exists_eq_add_of_le' (show 1 ≤ fuel by omega)
        rw [memFindSignitureLoop, if_pos hpos]
        dsimp only
        rw [if_neg (fun hzero => hmatch (memcmp_eq_zero_iff.mp hzero)), hloop fuel (by omega)]
        rfl
    · have hle : endAddr.toNat ≤ pos.toNat := Nat.not_lt.mp hpos
      refine ⟨_, ⟨1, fun fuel hfuel => ?_⟩, Scans.past hle⟩
      obtain ⟨fuel, rfl⟩ := Nat.exists_eq_add_of_le' hfuel
      rw [memFindSignitureLoop, if_neg hpos]

/-! ### The area -/

/-- The whole signature lies inside the area and matches. -/
def IsHit (mem sig : ℕ → BitVec 8) (n endAddr a : ℕ) : Prop :=
  a + n ≤ endAddr ∧ MatchesAt mem sig n a

/-- The search stays inside the area, and returns the first hit with the offset added, or
the null pointer where there is none. -/
structure FindsInside (mem sig : ℕ → BitVec 8) (n : ℕ) (sigOffset : BitVec 32)
    (startAddr endAddr alignment : ℕ) (outcome : BitVec 64 × List ℕ) : Prop where
  reads : ∀ r ∈ outcome.2, startAddr ≤ r ∧ r < endAddr
  result :
    (∃ k, IsHit mem sig n endAddr (candidate startAddr alignment k) ∧
      (∀ j < k, ¬IsHit mem sig n endAddr (candidate startAddr alignment j)) ∧
      outcome.1 =
        BitVec.ofNat 64 (candidate startAddr alignment k) + sigOffset.signExtend 64) ∨
    (∀ k, ¬IsHit mem sig n endAddr (candidate startAddr alignment k)) ∧ outcome.1 = 0

theorem le_candidate (c alignment k : ℕ) : c ≤ candidate c alignment k := Nat.le_add_right ..

/-- A scan stays inside the area exactly if it has a hit, or no candidate reaches over
the end. -/
theorem Scans.findsInside_iff (hn : 0 < n)
    (h : Scans mem sig n sigOffset endAddr alignment c outcome) :
    FindsInside mem sig n sigOffset c endAddr alignment outcome ↔
      (∃ k, IsHit mem sig n endAddr (candidate c alignment k)) ∨
        ∀ k, candidate c alignment k < endAddr → candidate c alignment k + n ≤ endAddr := by
  cases h with
  | found k _ hend hmatch hfirst hresult hreads =>
    by_cases hfits : candidate c alignment k + n ≤ endAddr
    · refine iff_of_true ⟨fun r hr => ?_, Or.inl ?_⟩ (Or.inl ⟨k, hfits, hmatch⟩)
      · obtain ⟨j, hj, hle, hlt⟩ := (hreads r).mp hr
        have hstart := le_candidate c alignment j
        have hmono : candidate c alignment j ≤ candidate c alignment k := candidate_mono hj
        omega
      · exact ⟨k, ⟨hfits, hmatch⟩, fun j hj hhit => hfirst j hj hhit.2, hresult⟩
    · refine iff_of_false (fun hinside => ?_) ?_
      · -- The last byte of the match is read, and lies outside.
        have hlast := hinside.reads (candidate c alignment k + n - 1)
          ((hreads _).mpr ⟨k, le_rfl, by omega, by omega⟩)
        omega
      · rintro (⟨j, hfit, hhit⟩ | hall)
        · have hkj : k ≤ j := Nat.not_lt.mp fun hj => hfirst j hj hhit
          have hmono : candidate c alignment k ≤ candidate c alignment j := candidate_mono hkj
          omega
        · exact hfits (hall k hend)
  | missed _ hnone hresult hreads =>
    have hnohit (k : ℕ) : ¬IsHit mem sig n endAddr (candidate c alignment k) := by
      rintro ⟨hfit, hhit⟩
      exact hnone k (by omega) hhit
    rw [or_iff_right (fun hhit => hhit.elim hnohit)]
    constructor
    · intro hinside k hk
      by_contra hover
      have hlast := hinside.reads (candidate c alignment k + n - 1)
        ((hreads _).mpr ⟨k, hk, by omega, by omega⟩)
      omega
    · intro hall
      refine ⟨fun r hr => ?_, Or.inr ⟨hnohit, hresult⟩⟩
      obtain ⟨j, hj, hle, hlt⟩ := (hreads r).mp hr
      have hstart := le_candidate c alignment j
      have hfit := hall j hj
      omega

/-- **When the search stays inside its area.** For every memory, non-empty signature,
offset, area and positive alignment where no step wraps: the search ends, and it stays
inside the area and returns the first hit exactly if there is a hit, or no candidate
reaches over the end of the area. -/
theorem signature_search_inside_iff (mem sig : ℕ → BitVec 8) (sigLen sigOffset : BitVec 32)
    (startAddr endAddr : BitVec 64) (alignment : BitVec 32) (hlen : 0 < sigLen.toNat)
    (halign : 1 ≤ alignment.toInt) (hwrap : endAddr.toNat + alignment.toNat ≤ 2 ^ 64) :
    ∃ outcome, (∃ fuel₀, ∀ fuel ≥ fuel₀, memFindSigniture mem sig sigLen sigOffset startAddr
        endAddr alignment fuel = some outcome) ∧
      (FindsInside mem sig sigLen.toNat sigOffset startAddr.toNat endAddr.toNat
          alignment.toNat outcome ↔
        (∃ k, IsHit mem sig sigLen.toNat endAddr.toNat
          (candidate startAddr.toNat alignment.toNat k)) ∨
        ∀ k, candidate startAddr.toNat alignment.toNat k < endAddr.toNat →
          candidate startAddr.toNat alignment.toNat k + sigLen.toNat ≤ endAddr.toNat) := by
  obtain ⟨outcome, hends, hscans⟩ :=
    memFindSignitureLoop_scans mem sig halign hwrap startAddr
  exact ⟨outcome, hends, hscans.findsInside_iff hlen⟩

/-- Two bytes at the end of an area, found. -/
theorem signature_search_inside_last :
    ∃ outcome, FindsInside (fun a => if 0x1002 ≤ a then 0x90 else 0) (fun _ => 0x90) 2 1
      0x1000 0x1004 1 outcome := by
  obtain ⟨outcome, -, hiff⟩ := signature_search_inside_iff
    (fun a => if 0x1002 ≤ a then 0x90 else 0) (fun _ => 0x90) 2 1 0x1000 0x1004 1
    (by decide) (by decide) (by decide)
  refine ⟨outcome, hiff.mpr (Or.inl ⟨2, by decide, ?_⟩)⟩
  intro i hi
  exact if_pos (Nat.le_add_right 0x1002 i)

/-- A signature that reaches over the end of the area by one byte is compared there, and
found, although there is no hit. -/
theorem signature_search_reaches_over :
    ∃ outcome, memFindSigniture (fun a => if 0x1001 ≤ a then 0x90 else 0) (fun _ => 0x90) 2 0
        0x1000 0x1002 1 2 = some outcome ∧ outcome.1 = 0x1001 ∧
      (∀ k, ¬IsHit (fun a => if 0x1001 ≤ a then 0x90 else 0) (fun _ => 0x90) 2 0x1002
        (candidate 0x1000 1 k)) ∧
      ¬FindsInside (fun a => if 0x1001 ≤ a then 0x90 else 0) (fun _ => 0x90) 2 0
        0x1000 0x1002 1 outcome := by
  refine ⟨(0x1001, [0x1000, 0x1001, 0x1001, 0x1002]), by decide, rfl, fun k hhit => ?_,
    fun hinside => ?_⟩
  · obtain ⟨hfit, hmatch⟩ := hhit
    rw [candidate] at hfit hmatch
    obtain rfl : k = 0 := by omega
    exact absurd (hmatch 0 (by decide)) (by decide)
  · have hover := hinside.reads 0x1002 (by decide)
    omega

end MamePlugins.Util
