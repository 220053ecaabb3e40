import MamePlugins.Ddrio.Backend
import MamePlugins.Iidxio.Backend

/-!
# Bracketed use of the backends

Both plugins use their backend between a successful `init` and the next `fini`, as
long as no memory tap fires outside of this time. The taps are installed before
`init` is tried and stay installed after `fini`.
-/

namespace MamePlugins

open Library

/-- **Backend calls are bracketed unless a tap fires early.** In a run of
either plugin, and whatever the backend returns, all calls but `init` come after a
successful `init` and before the following `fini`, and `init` does not, if and only
if no tap access that has the plugin call the backend finds it uninitialized. -/
theorem backend_bracketed_iff (es : List Ddrio.Event) (es' : List Iidxio.Event) :
    (∃ s, Ddrio.run .load es = .ok s ∧
      (Bracketed Ddrio.Call.use s.calls ↔
        EveryStep Ddrio.step (fun s e => s.isInitialized = false → ¬s.TapCalls e) .load es)) ∧
    ∃ s, Iidxio.run .load es' = .ok s ∧
      (Bracketed Iidxio.Call.use s.calls ↔
        EveryStep Iidxio.step (fun s e => s.isInitialized = false → ¬s.TapCalls e) .load es') := by
  constructor
  · refine bracketed_run_iff Ddrio.State.StagesValid Ddrio.State.TapCalls
      Ddrio.State.isInitialized Ddrio.State.calls Ddrio.State.load_stagesValid rfl rfl
      (fun s e hs => ?_) es
    obtain ⟨calls, hcalls, hepisode⟩ := s.next_episode e
    exact ⟨s.next e, calls, Ddrio.step_eq hs e, hs.next e, hcalls, hepisode⟩
  · refine bracketed_run_iff (fun s => ∃ es, s.After es) Iidxio.State.TapCalls
      Iidxio.State.isInitialized Iidxio.State.calls ⟨[], Iidxio.State.load_after⟩ rfl rfl
      (fun s e hs => ?_) es'
    obtain ⟨es, hs⟩ := hs
    obtain ⟨s', calls, hstep, hs', hcalls, hepisode⟩ := hs.episode e
    exact ⟨s', calls, hstep, ⟨_, hs'⟩, hcalls, hepisode⟩

/-- After a refused `init`, a read of the pads and a write of the key lights reach a
backend that was never opened. -/
theorem backend_used_early :
    (∃ s, Ddrio.run .load [.start "ddr4mp".toList false,
        .read .ksys573Jamma2Read 0x1f400008 0 0xffff 0] = .ok s ∧
      ¬Bracketed Ddrio.Call.use s.calls) ∧
    ∃ s, Iidxio.run .load [.start "bmiidx".toList false ⟨true, true, true⟩,
        .write .twinkleKeysWrite 0x1f250000 0 0xff] = .ok s ∧
      ¬Bracketed Iidxio.Call.use s.calls := by
  refine ⟨⟨_, rfl, ?_⟩, ⟨_, rfl, ?_⟩⟩
  · rw [← isSome_bracket_iff]
    decide
  · rw [← isSome_bracket_iff]
    decide

end MamePlugins
