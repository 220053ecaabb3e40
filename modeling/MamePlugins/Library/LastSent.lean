import Mathlib.Data.List.Induction

/-!
# What a device has been sent

A program talks to a device through calls, some of which carry a value for one of
the device's channels. The device knows the values of a channel in order, and the
last of them. Where values are only staged until a further call transmits them, it
matters which value each channel had then.
-/

namespace MamePlugins.Library

variable {κ ω α : Type*} [DecidableEq ω] (message : κ → Option (ω × α))

/-- The values sent to a channel by a list of calls, in order. -/
def sent (w : ω) (calls : List κ) : List α :=
  calls.filterMap fun c => (message c).bind fun m => if m.1 = w then some m.2 else none

/-- The value a channel received last. -/
def lastSent (w : ω) (calls : List κ) : Option α := (sent message w calls).getLast?

variable {message} {w w' : ω} {calls calls' : List κ} {c : κ} {a : α}

theorem sent_append : sent message w (calls ++ calls') =
    sent message w calls ++ sent message w calls' :=
  List.filterMap_append ..

theorem sent_singleton (h : message c = some (w', a)) :
    sent message w [c] = if w' = w then [a] else [] := by
  by_cases hw : w' = w <;> simp [sent, h, hw]

theorem sent_cons_of_none (h : message c = none) :
    sent message w (c :: calls) = sent message w calls := by
  rw [sent, List.filterMap_cons_none (by rw [h, Option.bind_none]), sent]

/-- Calls that carry nothing for a channel leave it alone. -/
theorem lastSent_append_of_forall (h : ∀ c ∈ calls', ∀ a, message c ≠ some (w, a)) :
    lastSent message w (calls ++ calls') = lastSent message w calls := by
  have hnone : sent message w calls' = [] := by
    rw [sent, List.filterMap_eq_nil_iff]
    intro c hc
    cases hm : message c with
    | none => rfl
    | some m =>
      obtain ⟨w', a⟩ := m
      have hw : w' ≠ w := by
        rintro rfl
        exact h c hc a hm
      simp [hw]
  rw [lastSent, sent_append, hnone, List.append_nil, lastSent]

/-- One more call replaces the value of its own channel. -/
theorem lastSent_concat (h : message c = some (w', a)) :
    lastSent message w (calls ++ [c]) = if w = w' then some a else lastSent message w calls := by
  by_cases hw : w = w'
  · have hsent : sent message w [c] = [a] := by
      simp [sent, h, hw]
    rw [if_pos hw, lastSent, sent_append, hsent, List.getLast?_concat]
  · rw [if_neg hw]
    refine lastSent_append_of_forall fun c' hc' a' hm => ?_
    rw [List.mem_singleton.mp hc', h, Option.some.injEq, Prod.mk.injEq] at hm
    exact hw hm.1.symm

/-! ### Transmission -/

variable (message) in
/-- A call of the list transmits the value `a` for every channel, and no call from there
on stages another value. -/
def Settles (transmits : κ → Bool) (a : α) (calls : List κ) : Prop :=
  ∃ before c after, calls = before ++ c :: after ∧ transmits c = true ∧
    (∀ w, lastSent message w before = some a) ∧
    ∀ c' ∈ c :: after, ∀ w a', message c' = some (w, a') → a' = a

variable {transmits : κ → Bool}

/-- Calls that stage only `a` leave a channel at `a`. -/
theorem lastSent_append_of_forall_eq (hcalls : lastSent message w calls = some a)
    (h : ∀ c ∈ calls', ∀ w a', message c = some (w, a') → a' = a) :
    lastSent message w (calls ++ calls') = some a := by
  induction calls' using List.reverseRecOn with
  | nil => rwa [List.append_nil]
  | append_singleton calls' c ih =>
    have hold := ih fun c' hc' => h c' (by simp [hc'])
    rw [← List.append_assoc]
    cases hm : message c with
    | none =>
      rwa [lastSent_append_of_forall]
      intro c' hc' a' hm'
      rw [List.mem_singleton.mp hc', hm] at hm'
      cases hm'
    | some m =>
      obtain ⟨w', a'⟩ := m
      have ha' := h c (by simp) w' a' hm
      rw [lastSent_concat hm, ha', hold, ite_self]

/-- Every channel of a settled device is at its value. -/
theorem Settles.lastSent_eq (h : Settles message transmits a calls) (w : ω) :
    lastSent message w calls = some a := by
  obtain ⟨before, c, after, rfl, -, hbefore, hafter⟩ := h
  exact lastSent_append_of_forall_eq (hbefore w) hafter

/-- Calls that stage only `a` leave the device settled. -/
theorem Settles.append (h : Settles message transmits a calls)
    (h' : ∀ c ∈ calls', ∀ w a', message c = some (w, a') → a' = a) :
    Settles message transmits a (calls ++ calls') := by
  obtain ⟨before, c, after, rfl, hc, hbefore, hafter⟩ := h
  refine ⟨before, c, after ++ calls', by simp, hc, hbefore, fun c' hc' => ?_⟩
  rw [← List.cons_append] at hc'
  exact (List.mem_append.mp hc').elim (hafter c') (h' c')

/-- Calls that transmit nothing do not settle the device. -/
theorem Settles.of_append (h : Settles message transmits a (calls ++ calls'))
    (h' : ∀ c ∈ calls', transmits c = false) : Settles message transmits a calls := by
  obtain ⟨before, c, after, heq, hc, hbefore, hafter⟩ := h
  rcases List.append_eq_append_iff.mp heq with ⟨rest, rfl, hrest⟩ | ⟨rest, rfl, hrest⟩
  · have hmem : c ∈ calls' := by simp [hrest]
    rw [h' c hmem] at hc
    cases hc
  · cases rest with
    | nil =>
      have hmem : c ∈ calls' := by
        rw [List.nil_append] at hrest
        simp [← hrest]
      rw [h' c hmem] at hc
      cases hc
    | cons c' rest =>
      rw [List.cons_append, List.cons.injEq] at hrest
      obtain ⟨rfl, rfl⟩ := hrest
      refine ⟨before, c, rest, rfl, hc, hbefore, fun c' hc' => hafter c' ?_⟩
      exact List.mem_append_left _ hc'

end MamePlugins.Library
