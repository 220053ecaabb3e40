import Mathlib.Data.BitVec

/-!
# Single bits of a word

Lamps and buttons are single bits of a word. This file has the assignment of one
bit, in the form programs write it, the relation of differing in one bit, the masks
of low bits, and the merge of active-high inputs into an active-low word.
-/

namespace MamePlugins.Library

variable {w : ℕ} {x y : BitVec w} {i k : ℕ} {b : Bool}

/-- Set or clear bit `k`, by a disjunction or a masked conjunction. -/
def assignBit (x : BitVec w) (k : ℕ) (b : Bool) : BitVec w :=
  if b then x ||| (1#w <<< k) else x &&& ~~~(1#w <<< k)

/-- An assignment decides its own bit and keeps every other one. -/
theorem getLsbD_assignBit (hk : k < w) :
    (assignBit x k b).getLsbD i = if i = k then b else x.getLsbD i := by
  rw [assignBit, ← BitVec.twoPow_eq]
  cases b with
  | true =>
    by_cases hik : i = k
    · simp [hik, hk]
    · simp [hik, Ne.symm hik]
  | false =>
    by_cases hik : i = k
    · simp [hik, hk]
    · by_cases hi : i < w
      · simp [hik, hi]
      · simp [hik, BitVec.getLsbD_of_ge x i (by omega)]

/-- Assigning the value a bit already has changes nothing. -/
theorem assignBit_eq_self (hk : k < w) : assignBit x k b = x ↔ x.getLsbD k = b := by
  constructor
  · intro h
    rw [← h, getLsbD_assignBit hk, if_pos rfl]
  · intro h
    apply BitVec.eq_of_getLsbD_eq
    intro i _
    rw [getLsbD_assignBit hk]
    by_cases hik : i = k
    · rw [if_pos hik, hik, h]
    · rw [if_neg hik]

/-- The two words differ in bit `k` and nowhere else. -/
def DifferOnlyAt (k : ℕ) (x y : BitVec w) : Prop := ∀ i, x.getLsbD i ≠ y.getLsbD i ↔ i = k

/-- An assignment that changes the word changes exactly the assigned bit. -/
theorem differOnlyAt_assignBit (hk : k < w) (h : assignBit x k b ≠ x) :
    DifferOnlyAt k x (assignBit x k b) := by
  have hb : x.getLsbD k ≠ b := fun hb => h ((assignBit_eq_self hk).mpr hb)
  intro i
  rw [getLsbD_assignBit hk]
  by_cases hik : i = k
  · simpa only [hik, if_true, ne_eq, iff_true] using hb
  · simp [hik]

/-! ### Masks -/

/-- The mask of the low `n` bits. -/
theorem getLsbD_lowMask {n : ℕ} (hn : n ≤ w) :
    (BitVec.ofNat w (2 ^ n - 1)).getLsbD i = decide (i < n) := by
  rw [BitVec.getLsbD_ofNat, Nat.testBit_two_pow_sub_one]
  by_cases hi : i < n
  · have hiw : i < w := by omega
    simp [hi, hiw]
  · simp [hi]

/-- Words have the same low bits exactly if these are the same one by one. -/
theorem and_lowMask_eq_iff {n : ℕ} (hn : n ≤ w) :
    x &&& BitVec.ofNat w (2 ^ n - 1) = y &&& BitVec.ofNat w (2 ^ n - 1) ↔
      ∀ i < n, x.getLsbD i = y.getLsbD i := by
  constructor
  · intro h i hi
    have hbit := congrArg (BitVec.getLsbD · i) h
    simpa [getLsbD_lowMask hn, hi] using hbit
  · intro h
    apply BitVec.eq_of_getLsbD_eq
    intro i _
    rw [BitVec.getLsbD_and, BitVec.getLsbD_and, getLsbD_lowMask hn]
    by_cases hi : i < n
    · rw [h i hi]
    · simp [hi]

/-- Any set of bit numbers below the width is that of a word. -/
theorem exists_getLsbD_iff (p : ℕ → Prop) (hp : ∀ i, p i → i < w) :
    ∃ x : BitVec w, ∀ i, x.getLsbD i = true ↔ p i := by
  classical
  have hbelow (n : ℕ) (hn : n ≤ w) : ∃ x : BitVec w, ∀ i, x.getLsbD i = true ↔ p i ∧ i < n := by
    induction n with
    | zero => exact ⟨0, fun i => by simp⟩
    | succ n ih =>
      obtain ⟨x, hx⟩ := ih (by omega)
      refine ⟨assignBit x n (decide (p n)), fun i => ?_⟩
      rw [getLsbD_assignBit (by omega)]
      by_cases hi : i = n
      · simp [hi]
      · have hlt : i < n + 1 ↔ i < n := by omega
        rw [if_neg hi, hx, hlt]
  obtain ⟨x, hx⟩ := hbelow w le_rfl
  exact ⟨x, fun i => (hx i).trans (and_iff_left_of_imp (hp i))⟩

/-- Active-high `pressed` bits merged into the masked part of an active-low word:
the word is inverted, or-ed with them, and inverted back. -/
def mergeActiveLow (mask data pressed : BitVec w) : BitVec w :=
  (((data &&& mask) ^^^ mask) ||| pressed) ^^^ mask

/-- A bit of a merged word is active if it is in the word or among the pressed ones. -/
theorem getLsbD_mergeActiveLow {mask data pressed : BitVec w}
    (h : pressed.getLsbD i = true → mask.getLsbD i = true) :
    (mergeActiveLow mask data pressed).getLsbD i =
      (mask.getLsbD i && (data.getLsbD i && !pressed.getLsbD i)) := by
  rw [mergeActiveLow, BitVec.getLsbD_xor, BitVec.getLsbD_or, BitVec.getLsbD_xor,
    BitVec.getLsbD_and]
  cases hmask : mask.getLsbD i with
  | false =>
    have hup : pressed.getLsbD i = false := by
      by_contra hdown
      rw [Bool.not_eq_false] at hdown
      rw [h hdown] at hmask
      cases hmask
    simp [hup]
  | true => simp

/-- The merge into the low `n` bits of a word, of pressed bits among these. -/
theorem getLsbD_mergeActiveLow_low {n : ℕ} {data pressed : BitVec w} (hn : n ≤ w)
    (h : ∀ i, pressed.getLsbD i = true → i < n) (i : ℕ) :
    (mergeActiveLow (BitVec.ofNat w (2 ^ n - 1)) data pressed).getLsbD i =
      (decide (i < n) && (data.getLsbD i && !pressed.getLsbD i)) := by
  rw [getLsbD_mergeActiveLow, getLsbD_lowMask hn]
  intro hpressed
  rw [getLsbD_lowMask hn, decide_eq_true_eq]
  exact h i hpressed

end MamePlugins.Library
