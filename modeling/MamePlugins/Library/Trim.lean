import Mathlib.Data.List.DropRight
import Mathlib.Data.List.Induction
import Mathlib.Data.List.Infix

/-!
# Trimming the end of a list

The longest start of a list that is empty or ends in an element without a property. It
is `List.rdropWhile`.
-/

namespace MamePlugins.Library

variable {α : Type*} {p : α → Bool} {s t : List α}

/-- The list is empty or ends in an element without the property. -/
def Trimmed (p : α → Bool) (s : List α) : Prop := ∀ hne : s ≠ [], ¬p (s.getLast hne)

/-- The longest trimmed start of a list. -/
structure IsTrimOf (p : α → Bool) (s t : List α) : Prop where
  start : t <+: s
  trimmed : Trimmed p t
  longest : ∀ t', t' <+: s → Trimmed p t' → t'.length ≤ t.length

/-- A start of a list trims to a start of what the list trims to. -/
theorem rdropWhile_mono (h : t <+: s) : t.rdropWhile p <+: s.rdropWhile p := by
  induction s using List.reverseRecOn with
  | nil => rw [List.prefix_nil.mp h]
  | append_singleton s b ih =>
    rcases List.prefix_concat_iff.mp h with rfl | hstart
    · exact List.prefix_rfl
    · refine (ih hstart).trans ?_
      by_cases hb : p b = true
      · rw [List.rdropWhile_concat_pos p s b hb]
      · rw [List.rdropWhile_concat_neg p s b hb]
        exact (List.rdropWhile_prefix p s).trans (List.prefix_append s [b])

theorem isTrimOf_rdropWhile (p : α → Bool) (s : List α) : IsTrimOf p s (s.rdropWhile p) := by
  refine ⟨List.rdropWhile_prefix p s, List.rdropWhile_last_not p s, fun t' hstart ht' => ?_⟩
  have hmono := rdropWhile_mono (p := p) hstart
  rw [List.rdropWhile_eq_self_iff.mpr ht'] at hmono
  exact hmono.length_le

/-- There is one longest trimmed start. -/
theorem isTrimOf_iff : IsTrimOf p s t ↔ t = s.rdropWhile p := by
  constructor
  · intro h
    have htrim := isTrimOf_rdropWhile p s
    have hlength : t.length = (s.rdropWhile p).length :=
      Nat.le_antisymm (htrim.longest t h.start h.trimmed)
        (h.longest _ htrim.start htrim.trimmed)
    exact (List.prefix_of_prefix_length_le h.start htrim.start hlength.le).eq_of_length hlength
  · rintro rfl
    exact isTrimOf_rdropWhile p s

/-- Trimming all but the first element is trimming the list, unless everything goes. -/
theorem cons_rdropWhile_eq_iff {a : α} :
    a :: s.rdropWhile p = (a :: s).rdropWhile p ↔ ∃ b ∈ a :: s, p b = false := by
  induction s using List.reverseRecOn with
  | nil =>
    rw [List.rdropWhile_nil, List.rdropWhile_singleton]
    cases h : p a <;> simp [h]
  | append_singleton s b ih =>
    by_cases hb : p b = true
    · rw [List.rdropWhile_concat_pos p s b hb, ← List.cons_append,
        List.rdropWhile_concat_pos p (a :: s) b hb, ih]
      simp [hb]
    · rw [List.rdropWhile_concat_neg p s b hb, ← List.cons_append,
        List.rdropWhile_concat_neg p (a :: s) b hb]
      refine iff_of_true rfl ⟨b, by simp, by simpa using hb⟩

end MamePlugins.Library
