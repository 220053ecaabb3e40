import Mathlib.Data.List.Destutter

/-!
# Change-driven cells

A register is written with a sequence of values, and a cell behind it reacts to
the changes: from the value before and the value written. A cell that ignores a
write of the same value is a function of the sequence without repetitions.
-/

namespace MamePlugins.Library

variable {α β : Type*} (react : β → α → α → β)

/-- The cell after a list of writes, `last` being the register's value before it. -/
def track (x : β) (last : α) : List α → β
  | [] => x
  | a :: as => track (react x last a) a as

variable {react} {x : β} {last a : α} {as as' : List α}

/-- Further writes. The register then held the last value written before. -/
theorem track_append :
    track react x last (as ++ as') =
      track react (track react x last as) (as.getLastD last) as' := by
  induction as generalizing x last with
  | nil => rfl
  | cons b as ih =>
    rw [List.cons_append, track, ih, List.getLastD_cons]
    rfl

theorem track_concat :
    track react x last (as ++ [a]) = react (track react x last as) (as.getLastD last) a :=
  track_append

/-- Invariant rule for cells: what each reaction keeps holds after all writes. -/
theorem track_invariant (Inv : β → α → Prop) (h0 : Inv x last)
    (hreact : ∀ x last a, Inv x last → Inv (react x last a) a) (as : List α) :
    Inv (track react x last as) (as.getLastD last) := by
  induction as generalizing x last with
  | nil => exact h0
  | cons a as ih =>
    rw [List.getLastD_cons]
    exact ih (hreact x last a h0)

variable [DecidableEq α]

/-- Removing repetitions keeps the value the register started with in front. -/
theorem exists_destutter'_eq_cons (a : α) (as : List α) :
    ∃ bs, as.destutter' (· ≠ ·) a = a :: bs := by
  induction as with
  | nil => exact ⟨[], rfl⟩
  | cons b as ih =>
    by_cases h : a = b
    · rw [List.destutter'_cons_neg _ (by simpa using h)]
      exact ih
    · exact ⟨_, List.destutter'_cons_pos _ h⟩

/-- Writes of the value a register already has can be dropped. -/
theorem track_destutter' (hsame : ∀ x a, react x a a = x) :
    track react x last (as.destutter' (· ≠ ·) last).tail = track react x last as := by
  induction as generalizing x last with
  | nil => rfl
  | cons a as ih =>
    by_cases h : last = a
    · subst h
      rw [List.destutter'_cons_neg _ (by simp), track, hsame, ih]
    · obtain ⟨bs, hbs⟩ := exists_destutter'_eq_cons a as
      rw [List.destutter'_cons_pos _ h, List.tail_cons, track, ← ih, hbs, track, List.tail_cons]

/-- Two sequences equal up to repetitions leave a change-driven cell the same. -/
theorem track_congr (hsame : ∀ x a, react x a a = x)
    (h : as.destutter' (· ≠ ·) last = as'.destutter' (· ≠ ·) last) :
    track react x last as = track react x last as' := by
  rw [← track_destutter' hsame, h, track_destutter' hsame]

/-- They also leave the register itself with the same value. -/
theorem getLastD_congr (h : as.destutter' (· ≠ ·) last = as'.destutter' (· ≠ ·) last) :
    as.getLastD last = as'.getLastD last := by
  have hcopy (as : List α) :
      track (fun x a b => if a = b then x else b) last last as = as.getLastD last := by
    refine track_invariant (· = ·) rfl (fun x last a hx => ?_) as
    split_ifs with hsame
    · exact hx.trans hsame
    · rfl
  calc as.getLastD last
    _ = track (fun x a b => if a = b then x else b) last last as := (hcopy as).symm
    _ = track (fun x a b => if a = b then x else b) last last as' :=
        track_congr (fun _ _ => if_pos rfl) h
    _ = as'.getLastD last := hcopy as'

end MamePlugins.Library
