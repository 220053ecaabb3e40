import MamePlugins.Library.LastSent
import Mathlib.Data.List.DropRight

/-!
# What was sent before the last call of a kind

Where values are only staged until a further call is made, what counts is the value
that a channel was sent last before that call. This file follows these values over a
list of calls.
-/

namespace MamePlugins.Library

variable {κ ω α : Type*} [DecidableEq ω] (message : κ → Option (ω × α)) (p : κ → Bool)

/-- The part of a list up to its last element of a kind. -/
abbrev upToLast (calls : List κ) : List κ := calls.rdropWhile fun c => !p c

/-- The value a channel received last before the last call of a kind. -/
def sentBefore (w : ω) (calls : List κ) : Option α := lastSent message w (upToLast p calls)

variable {message} {p} {calls calls' : List κ} {c : κ} {w : ω}

theorem upToLast_append_of_forall (h : ∀ c ∈ calls', p c = false) :
    upToLast p (calls ++ calls') = upToLast p calls := by
  induction calls' using List.reverseRecOn with
  | nil => rw [List.append_nil]
  | append_singleton calls' c ih =>
    rw [← List.append_assoc, upToLast, List.rdropWhile_concat_pos _ _ _ (by simp [h c])]
    exact ih fun c' hc' => h c' (by simp [hc'])

theorem upToLast_concat (h : p c = true) : upToLast p (calls ++ [c]) = calls ++ [c] :=
  List.rdropWhile_concat_neg _ _ _ (by simp [h])

/-- Calls of other kinds leave it as it is. -/
theorem sentBefore_append_of_forall (h : ∀ c ∈ calls', p c = false) :
    sentBefore message p w (calls ++ calls') = sentBefore message p w calls := by
  rw [sentBefore, upToLast_append_of_forall h, sentBefore]

/-- After one more call of the kind it is what the channel received last. -/
theorem sentBefore_append_cons (hc : p c = true) (hmessage : message c = none)
    (h : ∀ c ∈ calls', p c = false) :
    sentBefore message p w (calls ++ c :: calls') = lastSent message w calls := by
  have hsplit : calls ++ c :: calls' = (calls ++ [c]) ++ calls' := by simp
  rw [hsplit, sentBefore_append_of_forall h, sentBefore, upToLast_concat hc,
    lastSent_append_of_forall]
  intro c' hc' a hm
  rw [List.mem_singleton.mp hc', hmessage] at hm
  cases hm

end MamePlugins.Library
