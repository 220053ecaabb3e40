import MamePlugins.Library.Runs
import Mathlib.Data.List.Basic

/-!
# Bracketed use of a device

A device is opened, used and closed by calls. Use is bracketed if every call but
an opening one comes while the device is open, and an opening one only while it is
not. A fold over the calls decides this, and one rule carries it over the runs of a
machine that is meant to keep track of the device in a flag.
-/

namespace MamePlugins.Library

/-- What a call means for the life of a device. -/
inductive Use
  | opened
  | refused
  | closed
  | used
  deriving DecidableEq, Repr

variable {κ : Type*} (use : κ → Use) {calls calls' : List κ} {c : κ} {b b' : Bool}

/-- The device was opened, and not closed since. -/
def IsOpen (calls : List κ) : Prop :=
  ∃ before c after, calls = before ++ c :: after ∧ use c = .opened ∧
    ∀ c' ∈ after, use c' ≠ .closed

/-- Exactly the calls that do not open the device are made while it is open. -/
def Bracketed (calls : List κ) : Prop :=
  ∀ before c after, calls = before ++ c :: after →
    (IsOpen use before ↔ use c = .closed ∨ use c = .used)

/-- Whether the device is open after a call, if the call is in its place. -/
def Use.next (isOpen : Bool) : Use → Option Bool
  | .opened => if isOpen then none else some true
  | .refused => if isOpen then none else some false
  | .closed => if isOpen then some false else none
  | .used => if isOpen then some true else none

/-- Whether the device is open after some calls, if all are in their places. -/
def bracket (isOpen : Bool) (calls : List κ) : Option Bool :=
  calls.foldlM (fun isOpen c => (use c).next isOpen) isOpen

variable {use}

theorem bracket_append :
    bracket use b (calls ++ calls') = (bracket use b calls).bind (bracket use · calls') :=
  List.foldlM_append

theorem bracket_cons : bracket use b (c :: calls) = ((use c).next b).bind (bracket use · calls) :=
  List.foldlM_cons

/-! ### The fold decides the property -/

theorem not_isOpen_nil : ¬IsOpen use [] := by
  rintro ⟨before, c, after, h, -⟩
  simp at h

theorem isOpen_concat :
    IsOpen use (calls ++ [c]) ↔ use c = .opened ∨ use c ≠ .closed ∧ IsOpen use calls := by
  constructor
  · rintro ⟨before, c', after, h, hopened, hclosed⟩
    rcases List.eq_nil_or_concat' after with rfl | ⟨after, d, rfl⟩
    · obtain ⟨-, hc⟩ := List.append_inj' h rfl
      rw [List.cons.injEq] at hc
      exact Or.inl (hc.1 ▸ hopened)
    · rw [← List.cons_append, ← List.append_assoc] at h
      obtain ⟨hcalls, hd⟩ := List.append_inj' h rfl
      rw [List.cons.injEq] at hd
      rw [hd.1]
      exact Or.inr ⟨hclosed d (by simp),
        before, c', after, hcalls, hopened, fun d' hd' => hclosed d' (by simp [hd'])⟩
  · rintro (hopened | ⟨hc, before, c', after, rfl, hopened, hclosed⟩)
    · exact ⟨calls, c, [], rfl, hopened, by simp⟩
    · refine ⟨before, c', after ++ [c], by simp, hopened, fun d hd => ?_⟩
      rcases List.mem_append.mp hd with hd | hd
      · exact hclosed d hd
      · exact List.mem_singleton.mp hd ▸ hc

theorem bracketed_concat :
    Bracketed use (calls ++ [c]) ↔
      Bracketed use calls ∧ (IsOpen use calls ↔ use c = .closed ∨ use c = .used) := by
  constructor
  · intro h
    refine ⟨fun before d after hcalls => ?_, h calls c [] rfl⟩
    exact h before d (after ++ [c]) (by simp [hcalls])
  · rintro ⟨h, hc⟩ before d after hcalls
    rcases List.eq_nil_or_concat' after with rfl | ⟨after, d', rfl⟩
    · obtain ⟨rfl, hd⟩ := List.append_inj' hcalls rfl
      rw [List.cons.injEq] at hd
      exact hd.1 ▸ hc
    · rw [← List.cons_append, ← List.append_assoc] at hcalls
      exact h before d after (List.append_inj' hcalls rfl).1

/-- The fold ends on whether the device is open, exactly if its use is bracketed. -/
theorem bracket_eq_some_iff :
    bracket use false calls = some b ↔ Bracketed use calls ∧ (b = true ↔ IsOpen use calls) := by
  induction calls using List.reverseRecOn generalizing b with
  | nil =>
    have hnil : Bracketed use [] := fun before c after h => by simp at h
    have hclosed : bracket use false [] = some false := rfl
    rw [hclosed]
    cases b <;> simp [hnil, not_isOpen_nil]
  | append_singleton calls c ih =>
    rw [bracket_append, Option.bind_eq_some_iff]
    simp only [ih, bracketed_concat, isOpen_concat, bracket_cons]
    by_cases hopen : IsOpen use calls
    · cases hc : use c <;> cases b <;> simp [hopen, Use.next, bracket]
    · cases hc : use c <;> cases b <;> simp [hopen, Use.next, bracket]

theorem isSome_bracket_iff : (bracket use false calls).isSome = true ↔ Bracketed use calls := by
  rw [Option.isSome_iff_exists]
  simp only [bracket_eq_some_iff]
  constructor
  · exact fun ⟨b, h, _⟩ => h
  · intro h
    by_cases hopen : IsOpen use calls
    · exact ⟨true, h, by simpa using hopen⟩
    · exact ⟨false, h, by simpa using hopen⟩

/-! ### A machine that keeps track of the device -/

/-- The calls of one step: it opens the device, attempts to, closes it, or uses it.
The flags say whether the machine takes the device to be open, before and after.
`P` is the condition under which a step of the last kind uses a device that the
machine takes not to be open. -/
inductive Episode (use : κ → Use) (P : Prop) : Bool → Bool → List κ → Prop
  | opened {c : κ} {calls : List κ} (hP : ¬P) (hc : use c = .opened)
      (hcalls : ∀ c' ∈ calls, use c' = .used) : Episode use P false true (c :: calls)
  | refused {c : κ} (hP : ¬P) (hc : use c = .refused) : Episode use P false false [c]
  | closed {c : κ} {calls : List κ} (hcalls : ∀ c' ∈ calls, use c' = .used)
      (hc : use c = .closed) : Episode use P true false (calls ++ [c])
  | used {calls : List κ} {b : Bool} (hcalls : ∀ c' ∈ calls, use c' = .used)
      (hP : b = false → (calls ≠ [] ↔ P)) : Episode use P b b calls

theorem bracket_used (hcalls : ∀ c ∈ calls, use c = .used) :
    bracket use true calls = some true := by
  induction calls with
  | nil => rfl
  | cons c calls ih =>
    rw [bracket_cons, hcalls c (by simp)]
    exact ih fun c' hc' => hcalls c' (by simp [hc'])

/-- The calls of a step are in their places unless it uses the device early. -/
theorem Episode.bracket_eq {P : Prop} [Decidable P] (h : Episode use P b b' calls) :
    bracket use b calls = if b = false ∧ P then none else some b' := by
  cases h with
  | opened hP hc hcalls =>
    rw [if_neg fun h => hP h.2, bracket_cons, hc]
    exact bracket_used hcalls
  | refused hP hc =>
    rw [if_neg fun h => hP h.2, bracket_cons, hc]
    rfl
  | closed hcalls hc =>
    rw [if_neg (by simp), bracket_append, bracket_used hcalls, Option.bind_some, bracket_cons, hc]
    rfl
  | used hcalls hP =>
    cases b with
    | true => rw [if_neg (by simp), bracket_used hcalls]
    | false =>
      cases calls with
      | nil =>
        rw [if_neg fun h => (hP rfl).mpr h.2 rfl]
        rfl
      | cons c calls =>
        rw [if_pos ⟨rfl, (hP rfl).mp (by simp)⟩, bracket_cons, hcalls c (by simp)]
        rfl

variable {σ ε ω : Type*} {step : σ → ε → Except ω σ} {s₀ : σ}

/-- Bracketing rule: if every step is an episode, then over a run the use of the
device is bracketed exactly if no step uses it early. -/
theorem bracketed_run_iff (I : σ → Prop) (P : σ → ε → Prop) (flag : σ → Bool) (log : σ → List κ)
    (h0 : I s₀) (hflag : flag s₀ = false) (hlog : log s₀ = [])
    (hstep : ∀ s e, I s → ∃ s' calls, step s e = .ok s' ∧ I s' ∧ log s' = log s ++ calls ∧
      Episode use (P s e) (flag s) (flag s') calls) (es : List ε) :
    ∃ s, runEvents step s₀ es = .ok s ∧
      (Bracketed use (log s) ↔ EveryStep step (fun s e => flag s = false → ¬P s e) s₀ es) := by
  classical
  have hfold : ∃ s, runEvents step s₀ es = .ok s ∧ I s ∧
      bracket use false (log s) =
        if EveryStep step (fun s e => flag s = false → ¬P s e) s₀ es then some (flag s)
        else none := by
    induction es using List.reverseRecOn with
    | nil =>
      refine ⟨s₀, rfl, h0, ?_⟩
      rw [if_pos (by exact trivial), hflag, hlog]
      rfl
    | append_singleton es e ih =>
      obtain ⟨s, hrun, hI, hbracket⟩ := ih
      obtain ⟨s', calls, hs', hI', hcalls, hepisode⟩ := hstep s e hI
      refine ⟨s', runEvents_concat.mpr ⟨s, hrun, hs'⟩, hI', ?_⟩
      have hlast : (∀ s₁, runEvents step s₀ es = .ok s₁ → flag s₁ = false → ¬P s₁ e) ↔
          ¬(flag s = false ∧ P s e) := by
        rw [hrun]
        simp
      rw [hcalls, bracket_append, hbracket]
      simp only [everyStep_concat, hlast]
      split_ifs with hevery hboth hboth
      · exact hepisode.bracket_eq.trans (if_neg hboth.2)
      · exact hepisode.bracket_eq.trans (if_pos (by tauto))
      · exact absurd hboth.1 hevery
      · rfl
  obtain ⟨s, hrun, -, hbracket⟩ := hfold
  refine ⟨s, hrun, ?_⟩
  rw [← isSome_bracket_iff, hbracket]
  split_ifs with hevery
  · simp [hevery]
  · simp [hevery]

end MamePlugins.Library
