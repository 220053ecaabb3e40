import MamePlugins.Iidxio.Session

/-!
# Use of the iidxio backend

`init` opens the backend, `deinit` closes it, and both look at `is_initialized`, as
a frame update does. The memory taps use the backend without looking.
-/

namespace MamePlugins.Iidxio

open Library

/-- A byte stored under an index calls the backend exactly if the index is a light's. -/
theorem storeCalls_ne_nil_iff {index data : BitVec 8} :
    storeCalls index data ≠ [] ↔ ∃ l : PortLight, index = l.index := by
  cases hlight : lightAt index with
  | none =>
    refine iff_of_false (by simp [storeCalls, hlight]) ?_
    rintro ⟨l, hl⟩
    rw [lightAt_eq_some_iff.mpr hl] at hlight
    cases hlight
  | some l => exact iff_of_true (by simp [storeCalls, hlight]) ⟨l, lightAt_eq_some_iff.mp hlight⟩

theorem storeCalls_used {index data : BitVec 8} : ∀ c ∈ storeCalls index data, c.use = .used := by
  intro c hc
  rw [storeCalls, Option.mem_toList, Option.map_eq_some_iff] at hc
  obtain ⟨l, -, rfl⟩ := hc
  cases l <;> rfl

/-- A write to the port is an episode of the backend's life. -/
theorem State.Shows.portNext_episode {s : State} {f : PortFile (BitVec 8) (BitVec 8)}
    (h : s.Shows f) (htap : s.writeCallback .twinkleIoWrite = true) {e : Event}
    {w : PortWrite (BitVec 8) (BitVec 8)} (he : e.portWrite = some w) :
    ∃ calls, (s.portNext f.index f.cell w).calls = s.calls ++ calls ∧
      Episode Call.use (s.TapCalls e) s.isInitialized
        (s.portNext f.index f.cell w).isInitialized calls := by
  rcases e with _ | _ | _ | _ | ⟨_ | _, offset, data, mask⟩
  case write.twinkleIoWrite =>
    rw [Event.portWrite, Iidxio.portWrite] at he
    split_ifs at he with hstore hselect
    · cases he
      refine ⟨storeCalls f.index (data.setWidth 8), rfl, .used storeCalls_used fun _ => ?_⟩
      rw [storeCalls_ne_nil_iff, State.TapCalls, h.index]
      simp only [setWidth_eq_iff, htap, hstore.1, hstore.2, true_and]
    · cases he
      refine ⟨[], by simp [State.portNext], .used (by simp) fun _ => iff_of_false (by simp) ?_⟩
      exact fun hcalls => hstore ⟨hcalls.2.1, hcalls.2.2.1⟩
  all_goals cases he

/-- Every callback is an episode of the backend's life, in which only a tap access
may come too early. -/
theorem State.After.episode {s : State} {es : List Event} (h : s.After es) (e : Event) :
    ∃ s' calls, step s e = .ok s' ∧ s'.After (es ++ [e]) ∧ s'.calls = s.calls ++ calls ∧
      Episode Call.use (s.TapCalls e) s.isInitialized s'.isInitialized calls := by
  obtain ⟨s', hs', hafter⟩ := h.next e
  obtain ⟨cell, hshows⟩ := h.shows
  suffices hepisode : ∃ calls, s'.calls = s.calls ++ calls ∧
      Episode Call.use (s.TapCalls e) s.isInitialized s'.isInitialized calls by
    obtain ⟨calls, hcalls, hepisode⟩ := hepisode
    exact ⟨s', calls, hs', hafter, hcalls, hepisode⟩
  rcases hshows.step_cases h.initialized e with ⟨w, hport, htap, hstep⟩ |
    ⟨hstarts, calls, hstep, hquiet⟩ | ⟨⟨systemName, results, rfl⟩, -, hclosed, hstep⟩ |
    ⟨⟨results, rfl⟩, hopen, calls, hstep, hused⟩ | ⟨-, -, -, calls, answers, hstep, hquiet, hnil⟩
  · rw [hstep, Except.ok.injEq] at hs'
    exact hs' ▸ hshows.portNext_episode htap hport
  · cases e with
    | start systemName initResult results =>
      rw [hstep, Except.ok.injEq] at hs'
      rw [← hs', hstarts.1]
      refine ⟨.iidxioInit true :: (offCalls ++ calls), by simp, .opened id rfl fun c hc => ?_⟩
      rcases List.mem_append.mp hc with hc | hc
      · exact offCalls_used c hc
      · exact (hquiet c hc).2
    | _ => cases hstarts
  · rw [hstep, Except.ok.injEq] at hs'
    rw [← hs', hclosed]
    exact ⟨[.iidxioInit false], rfl, .refused id rfl⟩
  · rw [hstep, Except.ok.injEq] at hs'
    rw [← hs', hopen]
    exact ⟨calls ++ [.iidxioFini], List.append_assoc .., .closed hused rfl⟩
  · rw [hstep, Except.ok.injEq] at hs'
    rw [← hs']
    exact ⟨calls, rfl, .used (fun c hc => (hquiet c hc).2) hnil⟩

end MamePlugins.Iidxio
