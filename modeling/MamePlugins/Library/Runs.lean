import Mathlib.Data.List.Induction

/-!
# Runs of a fallible machine

A machine consumes events one at a time and may fail on any of them. The rules
below reduce statements about all its runs to statements about one step: an
invariant, which may mention the history, and a condition imposed on every step of
a run.
-/

namespace MamePlugins.Library

variable {σ ε κ : Type*}

/-- The state after a list of events; the first error ends the run. -/
def runEvents (step : σ → ε → Except κ σ) (s : σ) : List ε → Except κ σ
  | [] => .ok s
  | e :: es => (step s e).bind fun s' => runEvents step s' es

variable {step : σ → ε → Except κ σ} {s s' : σ}

/-- A run goes on from where its first step ended. -/
theorem runEvents_cons {e : ε} (h : step s e = .ok s') (es : List ε) :
    runEvents step s (e :: es) = runEvents step s' es := by
  rw [runEvents, h]
  rfl

/-- A run over a concatenation is the second run from where the first one ended. -/
theorem runEvents_append (es es' : List ε) :
    runEvents step s (es ++ es') = (runEvents step s es).bind fun s' => runEvents step s' es' := by
  induction es generalizing s with
  | nil => rfl
  | cons e es ih =>
    rw [List.cons_append, runEvents, runEvents]
    cases step s e with
    | error x => rfl
    | ok s₁ => exact ih

/-- The last step of a successful run starts where the run before it ended. -/
theorem runEvents_concat {es : List ε} {e : ε} :
    runEvents step s (es ++ [e]) = .ok s' ↔
      ∃ s₁, runEvents step s es = .ok s₁ ∧ step s₁ e = .ok s' := by
  rw [runEvents_append]
  cases runEvents step s es with
  | error x => simp [Except.bind]
  | ok s₁ =>
    cases hstep : step s₁ e with
    | error x => simp [Except.bind, runEvents, hstep]
    | ok s₂ => simp [Except.bind, runEvents, hstep]

/-- Events that do the same one by one do the same over a run. -/
theorem runEvents_map_congr {ι : Type*} {f g : ι → ε} (h : ∀ s i, step s (f i) = step s (g i))
    (is : List ι) : runEvents step s (is.map f) = runEvents step s (is.map g) := by
  induction is generalizing s with
  | nil => rfl
  | cons i is ih =>
    rw [List.map_cons, List.map_cons, runEvents, runEvents, h]
    simp only [ih]

/-- History rule: an invariant on the events so far and the state, kept by every
admissible step, holds after every admissible run, and no such run fails. -/
theorem runEvents_history (P : ε → Prop) (Inv : List ε → σ → Prop) (h0 : Inv [] s)
    (hstep : ∀ es e s, P e → Inv es s → ∃ s', step s e = .ok s' ∧ Inv (es ++ [e]) s')
    (es : List ε) (hes : ∀ e ∈ es, P e) : ∃ s', runEvents step s es = .ok s' ∧ Inv es s' := by
  induction es using List.reverseRecOn with
  | nil => exact ⟨s, rfl, h0⟩
  | append_singleton es e ih =>
    obtain ⟨s₁, hrun, hinv⟩ := ih fun e' he' => hes e' (by simp [he'])
    obtain ⟨s₂, hs₂, hinv'⟩ := hstep es e s₁ (hes e (by simp)) hinv
    exact ⟨s₂, runEvents_concat.mpr ⟨s₁, hrun, hs₂⟩, hinv'⟩

/-- Invariant rule: the case of `runEvents_history` without the history. -/
theorem runEvents_invariant (P : ε → Prop) (Inv : σ → Prop) (h0 : Inv s)
    (hstep : ∀ e s, P e → Inv s → ∃ s', step s e = .ok s' ∧ Inv s')
    (es : List ε) (hes : ∀ e ∈ es, P e) : ∃ s', runEvents step s es = .ok s' ∧ Inv s' :=
  runEvents_history P (fun _ => Inv) h0 (fun _ e s he hs => hstep e s he hs) es hes

/-- Every step of a run meets `P`, in the state the step is taken from. -/
def EveryStep (step : σ → ε → Except κ σ) (P : σ → ε → Prop) (s : σ) : List ε → Prop
  | [] => True
  | e :: es => P s e ∧ ∀ s', step s e = .ok s' → EveryStep step P s' es

theorem everyStep_congr {P Q : σ → ε → Prop} (h : ∀ s e, P s e ↔ Q s e) {es : List ε} :
    EveryStep step P s es ↔ EveryStep step Q s es := by
  induction es generalizing s with
  | nil => rfl
  | cons e es ih => simp only [EveryStep, h, ih]

/-- The condition on a concatenation is that on both parts. -/
theorem everyStep_append {P : σ → ε → Prop} {es es' : List ε} :
    EveryStep step P s (es ++ es') ↔
      EveryStep step P s es ∧ ∀ s', runEvents step s es = .ok s' → EveryStep step P s' es' := by
  induction es generalizing s with
  | nil => simp [EveryStep, runEvents]
  | cons e es ih =>
    simp only [List.cons_append, EveryStep, ih, runEvents]
    cases step s e with
    | error x => simp [Except.bind]
    | ok s₁ => simp [Except.bind, and_assoc]

/-- The condition on a run extended by one step. -/
theorem everyStep_concat {P : σ → ε → Prop} {es : List ε} {e : ε} :
    EveryStep step P s (es ++ [e]) ↔
      EveryStep step P s es ∧ ∀ s', runEvents step s es = .ok s' → P s' e := by
  rw [everyStep_append]
  simp [EveryStep]

end MamePlugins.Library
