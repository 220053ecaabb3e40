import Mathlib.Data.List.Basic

/-!
# Self-delimiting encodings

An encoding is self-delimiting if a word and what follows it can be told apart. A
sequence of such words determines the values that it encodes.
-/

namespace MamePlugins.Library

variable {α β : Type*}

/-- A field that ends at the first delimiter can be told from what follows it. -/
theorem append_delimiter_inj {xs xs' ys ys' : List β} {d : β} (h : d ∉ xs) (h' : d ∉ xs')
    (heq : xs ++ d :: ys = xs' ++ d :: ys') : xs = xs' ∧ ys = ys' := by
  rcases List.append_eq_append_iff.mp heq with ⟨as, hxs', hys⟩ | ⟨as, hxs, hys⟩
  · cases as with
    | nil => exact ⟨by simpa using hxs'.symm, (List.cons.inj hys).2⟩
    | cons a as =>
      obtain ⟨rfl, -⟩ := List.cons.inj hys
      exact absurd (by simp [hxs']) h'
  · cases as with
    | nil => exact ⟨by simpa using hxs, (List.cons.inj hys).2.symm⟩
    | cons a as =>
      obtain ⟨rfl, -⟩ := List.cons.inj hys
      exact absurd (by simp [hxs]) h

/-- The values that are encoded by words that end by themselves. -/
structure SelfDelimiting (encode : α → List β) (valid : α → Prop) : Prop where
  ne_nil : ∀ a, encode a ≠ []
  split : ∀ {a a' rest rest'}, valid a → valid a' →
    encode a ++ rest = encode a' ++ rest' → a = a' ∧ rest = rest'

/-- A sequence of self-delimiting words has one reading. -/
theorem SelfDelimiting.flatMap_inj {encode : α → List β} {valid : α → Prop}
    (h : SelfDelimiting encode valid) {as as' : List α} (has : ∀ a ∈ as, valid a)
    (has' : ∀ a ∈ as', valid a) (heq : as.flatMap encode = as'.flatMap encode) : as = as' := by
  induction as generalizing as' with
  | nil =>
    cases as' with
    | nil => rfl
    | cons a' as' => exact absurd (List.append_eq_nil_iff.mp heq.symm).1 (h.ne_nil a')
  | cons a as ih =>
    cases as' with
    | nil => exact absurd (List.append_eq_nil_iff.mp heq).1 (h.ne_nil a)
    | cons a' as' =>
      rw [List.forall_mem_cons] at has has'
      rw [List.flatMap_cons, List.flatMap_cons] at heq
      obtain ⟨rfl, hrest⟩ := h.split has.1 has'.1 heq
      rw [ih has.2 has'.2 hrest]

end MamePlugins.Library
