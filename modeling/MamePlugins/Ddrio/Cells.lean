import MamePlugins.Library.ChangeDriven
import MamePlugins.Ddrio.Session

/-!
# Lamps and stages as change-driven cells

A lamp and a stage each react to the writes of one register and to nothing else.
Over a session each of them is therefore determined by the nibbles that reach its
register.
-/

namespace MamePlugins.Ddrio

open Library

variable {β : Type*} {c : State → β} {r : Fin 8} {react : β → ℕ → ℕ → β} {s : State}

/-- A part of the state that reacts to the writes of register `r` alone. -/
structure RegisterCell (c : State → β) (r : Fin 8) (react : β → ℕ → ℕ → β) : Prop where
  self : ∀ s n, c (s.writeRegister r n) = react (c s) (s.ksys573DioWriteOutputData r) n
  other : ∀ s r' n, r' ≠ r → c (s.writeRegister r' n) = c s
  quiet : ∀ s pad calls answers,
    c { s with ddrioStatePad := pad, calls := calls, answers := answers } = c s

theorem nibbles_concat (r : Fin 8) (es : List Event) (e : Event) :
    nibbles r (es ++ [e]) =
      nibbles r es ++ (e.reached.bind fun w => if w.1 = r then some w.2 else none).toList := by
  rw [nibbles, List.filterMap_append]
  rfl

theorem State.Running.foldl_next (h : s.Running) {es : List Event} (hes : ∀ e ∈ es, e ≠ .stop) :
    (es.foldl State.next s).Running :=
  List.foldlRecOn es State.next h fun _ hs e he => hs.next (hes e he)

/-- A lamp follows a changed bit, active low. -/
def reactLamp (i : Fin 4) (lit : Bool) (old n : ℕ) : Bool :=
  if outputLevel old i ≠ outputLevel n i then !outputLevel n i else lit

theorem registerCell_lit (l : Lamp) :
    RegisterCell (·.lit l) l.output.1 (reactLamp l.output.2) where
  self s n := by
    rw [State.writeRegister_lit, reactLamp]
    simp only [true_and]
  other s r' n hr := by
    rw [State.writeRegister_lit, if_neg fun h => hr h.1.symm]
  quiet s _ _ _ := by cases h : l.word <;> simp only [State.lit, State.light, h]

theorem registerCell_stage (p : Player) :
    RegisterCell (·.stageio p) p.register Stage.write where
  self s n := State.writeRegister_stageio_self s p n
  other s r' n hr := by
    cases hstage : stageOf r' with
    | none => exact congrFun (s.writeRegister_stages_of_none hstage n).1 p
    | some q =>
      rw [stageOf_eq_some_iff.mp hstage]
      apply State.writeRegister_stageio_of_ne
      rintro rfl
      exact hr (stageOf_eq_some_iff.mp hstage)
  quiet _ _ _ _ := rfl

/-- Over a session a register copy ends with the last nibble of its register. -/
theorem State.Running.foldl_data (h : s.Running) {es : List Event} (hes : ∀ e ∈ es, e ≠ .stop)
    (r : Fin 8) :
    (es.foldl State.next s).ksys573DioWriteOutputData r =
      (nibbles r es).getLastD (s.ksys573DioWriteOutputData r) := by
  induction es using List.reverseRecOn with
  | nil => rfl
  | append_singleton es e ih =>
    have hbefore : ∀ e' ∈ es, e' ≠ .stop := fun e' he' => hes e' (by simp [he'])
    rw [List.foldl_concat, nibbles_concat]
    rcases (h.foldl_next hbefore).next_cases (hes e (by simp)) with
      ⟨r', n, hreached, hnext⟩ | ⟨hreached, pad, answers, hnext⟩
    · rw [hreached, hnext, State.writeRegister_data]
      by_cases hr : r' = r
      · simp [hr]
      · simp only [Option.bind_some, if_neg hr, Option.toList_none, List.append_nil]
        rw [Function.update_of_ne (Ne.symm hr), ih hbefore]
    · rw [hreached, hnext]
      simp only [Option.bind_none, Option.toList_none, List.append_nil]
      exact ih hbefore

/-- A cell ends as its reactions to those nibbles leave it. -/
theorem RegisterCell.foldl_next (hc : RegisterCell c r react) (h : s.Running) {es : List Event}
    (hes : ∀ e ∈ es, e ≠ .stop) :
    c (es.foldl State.next s) =
      track react (c s) (s.ksys573DioWriteOutputData r) (nibbles r es) := by
  induction es using List.reverseRecOn with
  | nil => rfl
  | append_singleton es e ih =>
    have hbefore : ∀ e' ∈ es, e' ≠ .stop := fun e' he' => hes e' (by simp [he'])
    rw [List.foldl_concat, nibbles_concat]
    rcases (h.foldl_next hbefore).next_cases (hes e (by simp)) with
      ⟨r', n, hreached, hnext⟩ | ⟨hreached, pad, answers, hnext⟩
    · rw [hreached, hnext]
      by_cases hr : r' = r
      · subst hr
        simp only [Option.bind_some, if_true, Option.toList_some]
        rw [track_concat, hc.self, h.foldl_data hbefore, ih hbefore]
      · simp only [Option.bind_some, if_neg hr, Option.toList_none, List.append_nil]
        rw [hc.other _ _ _ hr, ih hbefore]
    · rw [hreached, hnext, hc.quiet]
      simp only [Option.bind_none, Option.toList_none, List.append_nil]
      exact ih hbefore

end MamePlugins.Ddrio
