import MamePlugins.Library.Runs

/-!
# States that cannot be told apart

The environment of a machine sees what it adds to its logs. Two states cannot be told
apart if every sequence of events adds the same to the logs of both. A relation that
every step keeps, with the same additions, is a proof of this.
-/

namespace MamePlugins.Library

variable {σ ε κ α β : Type*}

/-- A log grows by the same from `s` to `s'` as from `t` to `t'`. -/
def SameGrowth (log : σ → List α) (s s' t t' : σ) : Prop :=
  ∃ new, log s' = log s ++ new ∧ log t' = log t ++ new

theorem SameGrowth.refl (log : σ → List α) (s t : σ) : SameGrowth log s s t t :=
  ⟨[], by simp, by simp⟩

theorem SameGrowth.trans {log : σ → List α} {s s' s'' t t' t'' : σ}
    (h : SameGrowth log s s' t t') (h' : SameGrowth log s' s'' t' t'') :
    SameGrowth log s s'' t t'' := by
  obtain ⟨new, hs, ht⟩ := h
  obtain ⟨new', hs', ht'⟩ := h'
  exact ⟨new ++ new', by rw [hs', hs, List.append_assoc], by rw [ht', ht, List.append_assoc]⟩

/-- No run tells the two states apart, and none fails. The machine has two logs. -/
def Indistinguishable (step : σ → ε → Except κ σ) (log : σ → List α) (log' : σ → List β)
    (s t : σ) : Prop :=
  ∀ es, ∃ s' t', runEvents step s es = .ok s' ∧ runEvents step t es = .ok t' ∧
    SameGrowth log s s' t t' ∧ SameGrowth log' s s' t t'

variable {step : σ → ε → Except κ σ} {log : σ → List α} {log' : σ → List β} {s s' t t' : σ}

/-- Bisimulation rule. -/
theorem Indistinguishable.of_bisimulation (R : σ → σ → Prop)
    (hstep : ∀ s t e, R s t → ∃ s' t', step s e = .ok s' ∧ step t e = .ok t' ∧ R s' t' ∧
      SameGrowth log s s' t t' ∧ SameGrowth log' s s' t t')
    (h : R s t) : Indistinguishable step log log' s t := by
  intro es
  induction es generalizing s t with
  | nil => exact ⟨s, t, rfl, rfl, .refl log s t, .refl log' s t⟩
  | cons e es ih =>
    obtain ⟨s₁, t₁, hs₁, ht₁, hR, hlog, hlog'⟩ := hstep s t e h
    obtain ⟨s₂, t₂, hs₂, ht₂, hlog₂, hlog₂'⟩ := ih hR
    refine ⟨s₂, t₂, ?_, ?_, hlog.trans hlog₂, hlog'.trans hlog₂'⟩
    · rw [runEvents, hs₁]
      exact hs₂
    · rw [runEvents, ht₁]
      exact ht₂

/-- A run that adds different things to the first log tells the states apart. -/
theorem Indistinguishable.sameGrowth (h : Indistinguishable step log log' s t) {es : List ε}
    (hs : runEvents step s es = .ok s') (ht : runEvents step t es = .ok t') :
    SameGrowth log s s' t t' := by
  obtain ⟨s₁, t₁, hs₁, ht₁, hlog, -⟩ := h es
  have hs' : s₁ = s' := Except.ok.inj (hs₁.symm.trans hs)
  have ht' : t₁ = t' := Except.ok.inj (ht₁.symm.trans ht)
  rwa [hs', ht'] at hlog

end MamePlugins.Library
