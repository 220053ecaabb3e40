import Mathlib.Algebra.BigOperators.Group.Finset.Basic
import Mathlib.Algebra.Order.BigOperators.Group.Finset
import Mathlib.Algebra.BigOperators.Ring.Finset
import Mathlib.Tactic.Ring

/-!
# Greedy matching on a bit stream

A receiver shifts a serial bit stream into a register and looks for a pattern.
After a match it ignores the stream for a fixed number of bits. Streams are
lists with the newest bit first, so that a longer stream is a `cons`.
-/

namespace MamePlugins.Library

/-- The word of the newest `width` bits, the newest one most significant. Bits
before the beginning of the stream count as zero. -/
def window (width : ℕ) (bits : List Bool) : ℕ :=
  ∑ i ∈ Finset.range width, (bits.getD i false).toNat * 2 ^ (width - 1 - i)

/-- A right shift that drops the oldest bit, then the new bit on top. -/
theorem window_cons (width : ℕ) (b : Bool) (bits : List Bool) :
    window (width + 1) (b :: bits) = window (width + 1) bits / 2 + b.toNat * 2 ^ width := by
  have hnew : window (width + 1) (b :: bits) = window width bits + b.toNat * 2 ^ width := by
    rw [window, Finset.sum_range_succ']
    congr 1
    refine Finset.sum_congr rfl fun i hi => ?_
    rw [show width + 1 - 1 - (i + 1) = width - 1 - i by omega]
    rfl
  have hold : window (width + 1) bits =
      2 * window width bits + (bits.getD width false).toNat := by
    rw [window, Finset.sum_range_succ, window, Finset.mul_sum]
    congr 1
    · refine Finset.sum_congr rfl fun i hi => ?_
      have hi' := Finset.mem_range.mp hi
      rw [show width + 1 - 1 - i = (width - 1 - i) + 1 by omega, pow_succ]
      ring
    · simp
  have hbit : (bits.getD width false).toNat < 2 := Bool.toNat_lt _
  rw [hnew, hold]
  omega

/-- The window of no bits at all. -/
theorem window_nil (width : ℕ) : window width [] = 0 := by
  simp [window]

/-- A window is a word of its width. -/
theorem window_lt (width : ℕ) (bits : List Bool) : window (width + 1) bits < 2 ^ (width + 1) := by
  induction bits with
  | nil =>
    rw [window_nil]
    exact Nat.two_pow_pos _
  | cons b bits ih =>
    have hb : b.toNat * 2 ^ width ≤ 2 ^ width := by
      cases b <;> simp
    rw [pow_succ] at ih
    rw [window_cons, pow_succ]
    omega

section Starts

variable {α : Type*} (hit : List α → Bool) (hold : ℕ)

/-- Which positions of the stream start a match, newest first: those where the
pattern is hit and none of the `hold` positions before starts one. -/
def starts : List α → List Bool
  | [] => []
  | b :: bits =>
    (hit (b :: bits) && !((starts bits).take hold).any id) :: starts bits

/-- The receiver: `some k` while it ignores the stream, `k` bits after a start. -/
def matchAge : List α → Option ℕ
  | [] => none
  | b :: bits =>
    match matchAge bits with
    | none => if hit (b :: bits) then some 0 else none
    | some k => if k + 1 < hold then some (k + 1) else none

variable {hit hold}

/-- The receiver is `k` bits into a match exactly when the position `k` bits ago
is a start and the match is not over. -/
theorem matchAge_eq_some_iff (hpos : 0 < hold) {bits : List α} {k : ℕ} :
    matchAge hit hold bits = some k ↔ k < hold ∧ (starts hit hold bits)[k]? = some true := by
  induction bits generalizing k with
  | nil => simp [matchAge, starts]
  | cons b bits ih =>
    cases hage : matchAge hit hold bits with
    | none =>
      -- No start in the last `hold` positions: the pattern alone decides.
      have hnone : ∀ j, j < hold → (starts hit hold bits)[j]? ≠ some true := by
        intro j hj hstart
        have := ih.mpr ⟨hj, hstart⟩
        simp [hage] at this
      have hany : ((starts hit hold bits).take hold).any id = false := by
        rw [List.any_eq_false]
        intro f hf
        obtain ⟨j, hj⟩ := List.mem_iff_getElem?.mp hf
        have hjlt : j < hold := by
          by_contra hge
          simp [hge] at hj
        rw [List.getElem?_take_of_lt hjlt] at hj
        cases f with
        | false => simp
        | true => exact absurd hj (hnone j hjlt)
      simp only [matchAge, hage, starts, hany, Bool.not_false, Bool.and_true]
      cases k with
      | zero => cases hit (b :: bits) <;> simp [hpos]
      | succ k =>
        have hk := hnone k
        simp only [List.getElem?_cons_succ]
        constructor
        · intro h
          split at h <;> simp at h
        · rintro ⟨hlt, hstart⟩
          exact absurd hstart (hk (by omega))
    | some j =>
      obtain ⟨hj, hstart⟩ := ih.mp hage
      have hany : ((starts hit hold bits).take hold).any id = true := by
        rw [List.any_eq_true]
        refine ⟨true, List.mem_iff_getElem?.mpr ⟨j, ?_⟩, rfl⟩
        rwa [List.getElem?_take_of_lt hj]
      simp only [matchAge, hage, starts, hany, Bool.not_true, Bool.and_false]
      cases k with
      | zero => simp
      | succ k =>
        simp only [List.getElem?_cons_succ]
        constructor
        · intro h
          split at h
          · simp only [Option.some.injEq, Nat.add_right_cancel_iff] at h
            subst h
            exact ⟨by assumption, hstart⟩
          · simp at h
        · rintro ⟨hlt, hstart'⟩
          have hkj : matchAge hit hold bits = some k := ih.mpr ⟨by omega, hstart'⟩
          rw [hage, Option.some.injEq] at hkj
          subst hkj
          rw [if_pos hlt]

end Starts

end MamePlugins.Library
