import Mathlib.Data.List.Induction
import Mathlib.Logic.Function.Basic

/-!
# Accounts of memory

Blocks of memory change hands: a program hands them out with their contents, and is
given them back. Who is to hold what follows from the transfers so far, and can be
compared with the blocks in use.
-/

namespace MamePlugins.Library

/-- The contents of some blocks, by their addresses. -/
abbrev Blocks (A α : Type*) := A → Option (List α)

/-- A block changes hands. -/
inductive Transfer (A α : Type*)
  | handedOut (address : A) (content : List α)
  | givenBack (address : A)
  deriving DecidableEq

variable {A α : Type*}

def Transfer.address : Transfer A α → A
  | .handedOut address _ => address
  | .givenBack address => address

/-- What its address refers to after a transfer. -/
def Transfer.content : Transfer A α → Option (List α)
  | .handedOut _ content => some content
  | .givenBack _ => none

variable [DecidableEq A]

def Transfer.apply (blocks : Blocks A α) (t : Transfer A α) : Blocks A α :=
  Function.update blocks t.address t.content

/-- The blocks after some transfers. -/
def settle (blocks : Blocks A α) (ts : List (Transfer A α)) : Blocks A α :=
  ts.foldl Transfer.apply blocks

variable {blocks : Blocks A α} {ts ts' : List (Transfer A α)} {p : A} {content : List α}

theorem settle_append : settle blocks (ts ++ ts') = settle (settle blocks ts) ts' :=
  List.foldl_append

/-- A block is held exactly if it was handed out, with the contents that it has, and has
not changed hands since. -/
theorem settle_eq_some_iff :
    settle (fun _ => none) ts p = some content ↔
      ∃ before after, ts = before ++ .handedOut p content :: after ∧
        ∀ t ∈ after, t.address ≠ p := by
  induction ts using List.reverseRecOn with
  | nil => simp [settle]
  | append_singleton ts t ih =>
    rw [settle_append]
    by_cases hp : t.address = p
    · have hlast : settle (settle (fun _ => none) ts) [t] p = t.content := by
        rw [← hp]
        exact Function.update_self ..
      rw [hlast]
      constructor
      · intro hcontent
        refine ⟨ts, [], ?_, fun _ h => absurd h List.not_mem_nil⟩
        cases t with
        | handedOut address content' =>
          rw [Transfer.address] at hp
          rw [Transfer.content, Option.some.injEq] at hcontent
          rw [hp, hcontent]
        | givenBack address => cases hcontent
      · rintro ⟨before, after, heq, hafter⟩
        rcases List.eq_nil_or_concat after with rfl | ⟨after, t', rfl⟩
        · obtain ⟨-, ht⟩ := List.append_inj' heq rfl
          rw [List.singleton_inj.mp ht, Transfer.content]
        · rw [List.concat_eq_append, ← List.cons_append, ← List.append_assoc] at heq
          obtain ⟨-, ht⟩ := List.append_inj' heq rfl
          exact absurd hp (hafter t (by simp [List.singleton_inj.mp ht]))
    · have hold : settle (settle (fun _ => none) ts) [t] p = settle (fun _ => none) ts p :=
        Function.update_of_ne (Ne.symm hp) ..
      rw [hold, ih]
      constructor
      · rintro ⟨before, after, rfl, hafter⟩
        refine ⟨before, after ++ [t], by simp, ?_⟩
        rw [List.forall_mem_append, List.forall_mem_singleton]
        exact ⟨hafter, hp⟩
      · rintro ⟨before, after, heq, hafter⟩
        rcases List.eq_nil_or_concat after with rfl | ⟨after, t', rfl⟩
        · obtain ⟨-, ht⟩ := List.append_inj' heq rfl
          exact absurd (congrArg Transfer.address (List.singleton_inj.mp ht)) hp
        · rw [List.concat_eq_append, ← List.cons_append, ← List.append_assoc] at heq
          obtain ⟨rfl, -⟩ := List.append_inj' heq rfl
          exact ⟨before, after, rfl, fun t ht => hafter t (by simp [ht])⟩

end MamePlugins.Library
