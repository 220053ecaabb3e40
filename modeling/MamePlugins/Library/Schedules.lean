import MamePlugins.Library.Runs

/-!
# Schedules of several parties

The parties of a system take turns, and a schedule lists their acts. An act that is
not possible yet is an error of the machine, so that the successful runs are the
interleavings, and a condition says which acts are admissible. The rules below are an
invariant, a bound on the acts of some parties, and the completion of what they have
begun.
-/

namespace MamePlugins.Library

variable {σ ε κ : Type*} {step : σ → ε → Except κ σ} {P : σ → ε → Prop} {s s' s'' : σ}
  {es es' : List ε} {e : ε}

/-- The acts are possible one after the other, and all of them are admissible. -/
structure Schedule (step : σ → ε → Except κ σ) (P : σ → ε → Prop) (s : σ) (es : List ε)
    (s' : σ) : Prop where
  run : runEvents step s es = .ok s'
  admissible : EveryStep step P s es

theorem Schedule.nil : Schedule step P s [] s := ⟨rfl, trivial⟩

theorem Schedule.cons (he : P s e) (hstep : step s e = .ok s') (h : Schedule step P s' es s'') :
    Schedule step P s (e :: es) s'' := by
  refine ⟨?_, he, fun s₁ hs₁ => ?_⟩
  · rw [runEvents, hstep]
    exact h.run
  · obtain rfl := Except.ok.inj (hstep.symm.trans hs₁)
    exact h.admissible

theorem Schedule.uncons (h : Schedule step P s (e :: es) s'') :
    ∃ s', P s e ∧ step s e = .ok s' ∧ Schedule step P s' es s'' := by
  have hrun := h.run
  rw [runEvents] at hrun
  cases hstep : step s e with
  | error x =>
    rw [hstep] at hrun
    cases hrun
  | ok s' =>
    rw [hstep] at hrun
    exact ⟨s', h.admissible.1, rfl, hrun, h.admissible.2 s' hstep⟩

theorem Schedule.append (h : Schedule step P s es s') (h' : Schedule step P s' es' s'') :
    Schedule step P s (es ++ es') s'' := by
  induction es generalizing s with
  | nil =>
    obtain rfl := Except.ok.inj h.run
    exact h'
  | cons e es ih =>
    obtain ⟨s₁, he, hstep, h⟩ := h.uncons
    exact .cons he hstep (ih h)

/-- A run of acts that are admissible anywhere. -/
theorem Schedule.of_forall (hrun : runEvents step s es = .ok s') (hes : ∀ e ∈ es, ∀ s, P s e) :
    Schedule step P s es s' := by
  induction es generalizing s with
  | nil =>
    obtain rfl := Except.ok.inj hrun
    exact .nil
  | cons e es ih =>
    rw [runEvents] at hrun
    obtain ⟨hhead, htail⟩ := List.forall_mem_cons.mp hes
    cases hstep : step s e with
    | error x =>
      rw [hstep] at hrun
      cases hrun
    | ok s₁ =>
      rw [hstep] at hrun
      exact .cons (hhead s) hstep (ih hrun htail)

/-- A condition on the acts alone. -/
theorem Schedule.and_forall {Q : ε → Prop} (h : Schedule step P s es s') (hes : ∀ e ∈ es, Q e) :
    Schedule step (fun s e => P s e ∧ Q e) s es s' := by
  induction es generalizing s with
  | nil =>
    obtain rfl := Except.ok.inj h.run
    exact .nil
  | cons e es ih =>
    obtain ⟨s₁, he, hstep, h⟩ := h.uncons
    obtain ⟨hhead, htail⟩ := List.forall_mem_cons.mp hes
    exact .cons ⟨he, hhead⟩ hstep (ih h htail)

/-- Cause rule: if only some acts bring about a fact, a schedule that does has one of
them. -/
theorem Schedule.exists_cause (h : Schedule step P s es s') (Fact : σ → Prop) (Cause : ε → Prop)
    (hbefore : ¬Fact s) (hafter : Fact s')
    (hstep : ∀ s e s', step s e = .ok s' → ¬Fact s → Fact s' → Cause e) : ∃ e ∈ es, Cause e := by
  induction es generalizing s with
  | nil =>
    obtain rfl := Except.ok.inj h.run
    exact absurd hafter hbefore
  | cons e es ih =>
    obtain ⟨s₁, -, hs₁, h⟩ := h.uncons
    by_cases hfact : Fact s₁
    · exact ⟨e, List.mem_cons_self, hstep s e s₁ hs₁ hbefore hfact⟩
    · obtain ⟨e', he', hcause⟩ := ih h hfact
      exact ⟨e', List.mem_cons_of_mem e he', hcause⟩

/-- Invariant rule: what every admissible act keeps, every schedule keeps. -/
theorem Schedule.invariant (h : Schedule step P s es s') (Inv : σ → Prop) (hinv : Inv s)
    (hstep : ∀ s e s', P s e → Inv s → step s e = .ok s' → Inv s') : Inv s' := by
  induction es generalizing s with
  | nil => exact Except.ok.inj h.run ▸ hinv
  | cons e es ih =>
    obtain ⟨s₁, he, hs₁, h⟩ := h.uncons
    exact ih h (hstep s e s₁ he hinv hs₁)

/-- Bound rule: a goal that is not left again is reached, or a schedule has at most as
many acts of a kind as a measure allows. Acts of that kind make the measure smaller, and
no act makes it larger. -/
theorem Schedule.reaches_or_countP_le (h : Schedule step P s es s') (Inv Goal : σ → Prop)
    (μ : σ → ℕ) (kind : ε → Bool) (hinv : Inv s)
    (hgoal : ∀ s e s', P s e → Inv s ∧ Goal s → step s e = .ok s' → Inv s' ∧ Goal s')
    (hstep : ∀ s e s', P s e → Inv s → step s e = .ok s' →
      Inv s' ∧ (Goal s' ∨ (if kind e then 1 else 0) + μ s' ≤ μ s)) :
    Goal s' ∨ es.countP kind + μ s' ≤ μ s := by
  induction es generalizing s with
  | nil =>
    obtain rfl := Except.ok.inj h.run
    exact Or.inr (by simp)
  | cons e es ih =>
    obtain ⟨s₁, he, hs₁, h⟩ := h.uncons
    obtain ⟨hinv₁, hreached | hμ⟩ := hstep s e s₁ he hinv hs₁
    · exact Or.inl (h.invariant (fun s => Inv s ∧ Goal s) ⟨hinv₁, hreached⟩ hgoal).2
    · refine (ih h hinv₁).imp id fun hrest => ?_
      rw [List.countP_cons]
      omega

end MamePlugins.Library
