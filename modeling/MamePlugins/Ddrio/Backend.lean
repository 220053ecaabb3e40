import MamePlugins.Library.Brackets
import MamePlugins.Ddrio.Lights

/-!
# Use of the ddrio backend

`init` opens the backend, `deinit` closes it, and both look at `is_initialized`. The
memory taps use the backend without looking.
-/

namespace MamePlugins.Ddrio

open Library

def Call.use : Call → Use
  | .ddrIoInit _ true => .opened
  | .ddrIoInit _ false => .refused
  | .ddrIoFini => .closed
  | _ => .used

theorem switchEverythingOff_used : ∀ c ∈ switchEverythingOff, c.use = .used := by
  decide

/-- A tap access that has the plugin call the backend: a read of the pads, or an
output write with a lamp to switch. -/
def State.TapCalls (s : State) : Event → Prop
  | .read tap offset _ mask _ =>
    s.readCallback tap = true ∧ tap = .ksys573Jamma2Read ∧ offset = 0x1f400008 ∧ mask = 0xffff
  | .write tap offset data mask =>
    s.writeCallback tap = true ∧
      ∃ r n l, reached tap offset data mask = some (r, n) ∧ s.Switches r n l
  | _ => False

theorem LightWord.use_call (w : LightWord) (light : LuaInt) : (w.call light).use = .used := by
  cases w <;> rfl

/-- A read tap uses the backend to read the pads, and for nothing else. -/
theorem readTap_calls (tap : ReadTap) (offset data mask : LuaInt) (pad : BitVec 32) (s : State) :
    ∃ calls, (readTap tap offset data mask pad s).2.calls = s.calls ++ calls ∧
      (readTap tap offset data mask pad s).2.isInitialized = s.isInitialized ∧
      (∀ c ∈ calls, c.use = .used) ∧
      (calls ≠ [] ↔ tap = .ksys573Jamma2Read ∧ offset = 0x1f400008 ∧ mask = 0xffff) := by
  cases tap with
  | ksys573Jamma1Read => exact ⟨[], by simp [readTap], rfl, by simp, by simp⟩
  | ksys573Jamma3Read => exact ⟨[], by simp [readTap], rfl, by simp, by simp⟩
  | ksys573Jamma2Read =>
    rw [readTap, ksys573Jamma2Read]
    by_cases hhandled : offset = 0x1f400008 ∧ mask = 0xffff
    · rw [if_pos hhandled]
      exact ⟨[.ddrIoReadPad pad], rfl, rfl, by simp [Call.use], by simp [hhandled]⟩
    · rw [if_neg hhandled]
      exact ⟨[], by simp, rfl, by simp, by simpa using hhandled⟩

/-- A start opens the backend, fails to, or does not try. -/
theorem init_episode {P : Prop} (hP : ¬P) (systemName : List Char) (initResult : Bool)
    (s : State) :
    ∃ calls, (init systemName initResult s).calls = s.calls ++ calls ∧
      Episode Call.use P s.isInitialized (init systemName initResult s).isInitialized calls := by
  have hquiet (hinit : init systemName initResult s = s) :
      ∃ calls, (init systemName initResult s).calls = s.calls ++ calls ∧
        Episode Call.use P s.isInitialized (init systemName initResult s).isInitialized calls := by
    rw [hinit]
    exact ⟨[], by simp, .used (by simp) fun _ => by simpa using hP⟩
  by_cases hs : s.isInitialized = true
  · exact hquiet (by rw [init, if_pos hs])
  · by_cases hname : isSupported systemName = true
    · have hclosed : s.isInitialized = false := by simpa using hs
      cases initResult with
      | true =>
        rw [init_eq hclosed hname, hclosed]
        exact ⟨.ddrIoInit ddrioLogLevelInfo true :: switchEverythingOff, List.append_assoc ..,
          .opened hP rfl switchEverythingOff_used⟩
      | false =>
        rw [init, if_neg hs, if_neg (not_not.mpr hname)]
        dsimp only
        rw [if_pos rfl, State.call]
        dsimp only
        rw [hclosed]
        exact ⟨[.ddrIoInit ddrioLogLevelInfo false], rfl, .refused hP rfl⟩
    · exact hquiet (by rw [init, if_neg hs, if_pos hname])

/-- Every callback is an episode of the backend's life, in which only a tap access
may come too early. -/
theorem State.next_episode (s : State) (e : Event) :
    ∃ calls, (s.next e).calls = s.calls ++ calls ∧
      Episode Call.use (s.TapCalls e) s.isInitialized (s.next e).isInitialized calls := by
  have hquiet (hnext : s.next e = s) (hP : ¬s.TapCalls e) :
      ∃ calls, (s.next e).calls = s.calls ++ calls ∧
        Episode Call.use (s.TapCalls e) s.isInitialized (s.next e).isInitialized calls := by
    rw [hnext]
    exact ⟨[], by simp, .used (by simp) fun _ => by simpa using hP⟩
  cases e with
  | start systemName initResult => exact init_episode id systemName initResult s
  | stop =>
    by_cases hs : s.isInitialized = true
    · rw [State.next, deinit, if_neg (not_not.mpr hs), hs]
      exact ⟨switchEverythingOff ++ [.ddrIoFini], List.append_assoc ..,
        .closed switchEverythingOff_used rfl⟩
    · exact hquiet (by rw [State.next, deinit, if_pos hs]) id
  | read tap offset data mask pad =>
    by_cases htap : s.readCallback tap = true
    · obtain ⟨calls, hcalls, hflag, hused, hnil⟩ := readTap_calls tap offset data mask pad s
      rw [State.next, if_pos htap]
      dsimp only
      rw [hflag]
      exact ⟨calls, hcalls, .used hused fun _ => hnil.trans (and_iff_right htap).symm⟩
    · exact hquiet (by rw [State.next, if_neg htap]) fun h => htap h.1
  | write tap offset data mask =>
    by_cases htap : s.writeCallback tap = true
    · cases hreached : reached tap offset data mask with
      | none =>
        refine hquiet (by rw [State.next, if_pos htap, hreached]) ?_
        rintro ⟨-, r, n, l, hsome, -⟩
        rw [hreached] at hsome
        cases hsome
      | some w =>
        obtain ⟨r, n⟩ := w
        obtain ⟨calls, hcalls, hlights, hnil⟩ := s.writeRegister_calls r n
        have hused : ∀ c ∈ calls, c.use = .used := by
          intro c hc
          obtain ⟨word, light, rfl⟩ := hlights c hc
          exact word.use_call light
        rw [State.next, if_pos htap, hreached]
        dsimp only
        rw [State.writeRegister_isInitialized]
        refine ⟨calls, hcalls, .used hused fun _ => ?_⟩
        rw [Ne, hnil, State.TapCalls]
        simp [htap, hreached]
    · exact hquiet (by rw [State.next, if_neg htap]) fun h => htap h.1

end MamePlugins.Ddrio
