import MamePlugins.Ddrio.Jamma
import MamePlugins.Ddrio.Lights

/-!
# The calls of a callback

A callback either writes a register, whose calls are lights of lamps, or makes one of
five kinds of calls and leaves the lights of the plugin alone or puts them out.
-/

namespace MamePlugins.Ddrio

/-- The calls of a callback that writes no register. -/
inductive Event.Makes : Event → List Call → Prop
  | nothing {e : Event} : e.Makes []
  | started {systemName : List Char} : (Event.start systemName true).Makes
      (.ddrIoInit ddrioLogLevelInfo true :: switchEverythingOff)
  | refused {systemName : List Char} :
      (Event.start systemName false).Makes [.ddrIoInit ddrioLogLevelInfo false]
  | stopped : Event.stop.Makes (switchEverythingOff ++ [.ddrIoFini])
  | polled {e : Event} {pad : BitVec 32} (h : e.polledPad = some pad) :
      e.Makes [.ddrIoReadPad pad]

/-- A callback writes a register, or makes its calls without one. -/
theorem State.next_makes (s : State) (e : Event) :
    (∃ r n, s.next e = s.writeRegister r n) ∨
      ∃ calls, e.Makes calls ∧ (s.next e).calls = s.calls ++ calls ∧
        ∀ w, (s.next e).light w = s.light w ∨ (s.next e).light w = 0 := by
  have hquiet (hnext : s.next e = s) :
      ∃ calls, e.Makes calls ∧ (s.next e).calls = s.calls ++ calls ∧
        ∀ w, (s.next e).light w = s.light w ∨ (s.next e).light w = 0 := by
    rw [hnext]
    exact ⟨[], .nothing, (List.append_nil _).symm, fun w => Or.inl rfl⟩
  cases e with
  | start systemName initResult =>
    right
    by_cases hs : s.isInitialized = true
    · exact hquiet (if_pos hs)
    · have hclosed : s.isInitialized = false := by simpa using hs
      by_cases hname : isSupported systemName = true
      · cases initResult with
        | true =>
          rw [State.next, init_eq hclosed hname]
          exact ⟨_, .started, List.append_assoc .., fun w => Or.inr (by cases w <;> rfl)⟩
        | false =>
          refine ⟨_, .refused, ?_, fun w => Or.inl ?_⟩
          · simp [State.next, init, hclosed, hname, State.call]
          · cases w <;> simp [State.next, init, hclosed, hname, State.call, State.light]
      · exact hquiet ((if_neg hs).trans (if_pos hname))
  | stop =>
    right
    by_cases hs : s.isInitialized = true
    · rw [State.next, deinit, if_neg (not_not.mpr hs)]
      exact ⟨_, .stopped, List.append_assoc .., fun w => Or.inl (by cases w <;> rfl)⟩
    · exact hquiet (if_pos hs)
  | read tap offset data mask pad =>
    right
    by_cases htap : s.readCallback tap = true
    · cases tap with
      | ksys573Jamma2Read =>
        rw [State.next, if_pos htap, readTap, ksys573Jamma2Read]
        by_cases hhandled : offset = 0x1f400008 ∧ mask = 0xffff
        · rw [if_pos hhandled]
          exact ⟨_, .polled (if_pos hhandled), rfl, fun w => Or.inl (by cases w <;> rfl)⟩
        · rw [if_neg hhandled]
          exact ⟨[], .nothing, (List.append_nil _).symm, fun w => Or.inl (by cases w <;> rfl)⟩
      | _ =>
        rw [State.next, if_pos htap]
        exact ⟨[], .nothing, (List.append_nil _).symm, fun w => Or.inl (by cases w <;> rfl)⟩
    · exact hquiet (if_neg htap)
  | write tap offset data mask =>
    by_cases htap : s.writeCallback tap = true
    · cases hreached : reached tap offset data mask with
      | none => exact Or.inr (hquiet (by rw [State.next, if_pos htap, hreached]))
      | some w => exact Or.inl ⟨w.1, w.2, by rw [State.next, if_pos htap, hreached]⟩
    · exact Or.inr (hquiet (if_neg htap))

end MamePlugins.Ddrio
