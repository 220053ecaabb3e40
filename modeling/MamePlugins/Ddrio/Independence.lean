import MamePlugins.Ddrio.Cells
import MamePlugins.Ddrio.Lights

/-!
# Registers are independent

Lamps and stages react to changes of their own register only. So two runs from
the same started state end alike as soon as each register goes through the same
values in both, however the registers interleave and whatever is repeated.
-/

namespace MamePlugins.Ddrio

open Library

/-- What holds of the plugin whenever it is started. -/
def State.InSession (s : State) : Prop := s.isInitialized = true → s.Running ∧ s.InStep

/-- A start begins a session, and every other callback but the stop continues it. -/
theorem State.InSession.next {s : State} (h : s.InSession) (hreach : Reachable s) (e : Event) :
    (s.next e).InSession := by
  intro hnext
  by_cases hs : s.isInitialized = true
  · have he : e ≠ .stop := by
      rintro rfl
      simp [State.next, deinit, hs] at hnext
    obtain ⟨hrunning, hstep⟩ := h hs
    exact ⟨hrunning.next he, (hstep.next hrunning he).1⟩
  · rcases s.next_cases e with ⟨r, n, -, hwrite⟩ | ⟨hstart, -⟩ |
      ⟨-, _, _, _, _, _, _, hinit, hquiet⟩
    · rw [hwrite, State.writeRegister_isInitialized] at hnext
      exact absurd hnext hs
    · have hafter := hstart.afterStart hreach
      exact ⟨hafter.running, hafter.inStep⟩
    · rw [hquiet] at hnext
      exact absurd (hinit hnext) hs

theorem Reachable.inSession {s : State} (h : Reachable s) : s.InSession :=
  h.induction (fun hload => absurd hload (by decide)) fun _ e hreach hs => hs.next hreach e

/-- A light word is the lamps of `ddrio.h` in it. -/
theorem State.light_eq_of_lit {s s' : State} (h : s.InStep) (h' : s'.InStep)
    (hlit : ∀ l, s.lit l = s'.lit l) (w : LightWord) : s.light w = s'.light w := by
  apply BitVec.eq_of_getLsbD_eq
  intro k _
  by_cases hlamp : ∃ l : Lamp, l.word = w ∧ l.bit = k
  · obtain ⟨l, rfl, rfl⟩ := hlamp
    exact hlit l
  · have hdark := mt (h.lamps w k) hlamp
    have hdark' := mt (h'.lamps w k) hlamp
    rw [Bool.not_eq_true] at hdark hdark'
    rw [hdark, hdark']

/-- A nibble that repeats the register's value leaves its lamps and its stage. -/
theorem reactLamp_self (i : Fin 4) (lit : Bool) (n : ℕ) : reactLamp i lit n n = lit := by
  simp [reactLamp]

theorem Stage.write_self (st : Stage) (n : ℕ) : st.write n n = st := by
  simp [Stage.write]

/-- **Registers are independent and repeats are invisible.** Take two runs from the
same started state. If the nibbles that reach each register agree once those equal
to the register's value are dropped, then both runs end with the same register
copies, the same light words, in the plugin and in the backend, and the same
stage cells. -/
theorem run_eq_of_nibbles {s : State} (hreach : Reachable s) (hs : s.isInitialized = true)
    (es es' : List Event) (hes : ∀ e ∈ es, e ≠ .stop) (hes' : ∀ e ∈ es', e ≠ .stop)
    (hnibbles : ∀ r,
      (nibbles r es).destutter' (· ≠ ·) (s.ksys573DioWriteOutputData r) =
        (nibbles r es').destutter' (· ≠ ·) (s.ksys573DioWriteOutputData r)) :
    ∃ s₁ s₂, run s es = .ok s₁ ∧ run s es' = .ok s₂ ∧
      s₁.ksys573DioWriteOutputData = s₂.ksys573DioWriteOutputData ∧
      s₁.ddrioStateExtioLight = s₂.ddrioStateExtioLight ∧
      s₁.ddrioStateP3ioLight = s₂.ddrioStateP3ioLight ∧
      (∀ w, lastLight w s₁.calls = lastLight w s₂.calls) ∧
      s₁.stageio = s₂.stageio := by
  obtain ⟨hrunning, hstep⟩ := hreach.inSession hs
  have hstep₁ := hstep.foldl_next hrunning hes
  have hstep₂ := hstep.foldl_next hrunning hes'
  have hlit (l : Lamp) : (es.foldl State.next s).lit l = (es'.foldl State.next s).lit l := by
    rw [(registerCell_lit l).foldl_next hrunning hes,
      (registerCell_lit l).foldl_next hrunning hes']
    exact track_congr (reactLamp_self _) (hnibbles _)
  have hlight := State.light_eq_of_lit hstep₁ hstep₂ hlit
  refine ⟨_, _, run_eq hrunning.valid es, run_eq hrunning.valid es', ?_, hlight .extio,
    hlight .p3io, fun w => ?_, ?_⟩
  · funext r
    rw [hrunning.foldl_data hes, hrunning.foldl_data hes']
    exact getLastD_congr (hnibbles r)
  · rw [hstep₁.sent, hstep₂.sent, hlight]
  · funext p
    rw [(registerCell_stage p).foldl_next hrunning hes,
      (registerCell_stage p).foldl_next hrunning hes']
    exact track_congr Stage.write_self (hnibbles _)

/-- Two interleavings of the same changes, one with a repeated value and noise in
the low data bits. -/
theorem run_eq_of_nibbles_swap :
    ∃ s₁ s₂,
      run (init "ddr4mp".toList true .load)
        [.write .ksys573DioWrite_1_0 0x1f6400e0 0x30000000 0xffff0000,
          .write .ksys573DioWrite_1_0 0x1f6400e0 0x30000000 0xffff0000,
          .write .ksys573DioWrite_5_2 0x1f6400fc 0x50000000 0xffff0000] = .ok s₁ ∧
      run (init "ddr4mp".toList true .load)
        [.write .ksys573DioWrite_5_2 0x1f6400fc 0x5fff0000 0xffff0000,
          .write .ksys573DioWrite_1_0 0x1f6400e0 0x3abc0000 0xffff0000] = .ok s₂ ∧
      s₁.ksys573DioWriteOutputData = s₂.ksys573DioWriteOutputData ∧
      s₁.ddrioStateExtioLight = s₂.ddrioStateExtioLight := by
  have hreach : Reachable (init "ddr4mp".toList true .load) :=
    ⟨[.start "ddr4mp".toList true], rfl⟩
  obtain ⟨s₁, s₂, hrun₁, hrun₂, hdata, hlight, -⟩ := run_eq_of_nibbles hreach (by decide)
    [.write .ksys573DioWrite_1_0 0x1f6400e0 0x30000000 0xffff0000,
      .write .ksys573DioWrite_1_0 0x1f6400e0 0x30000000 0xffff0000,
      .write .ksys573DioWrite_5_2 0x1f6400fc 0x50000000 0xffff0000]
    [.write .ksys573DioWrite_5_2 0x1f6400fc 0x5fff0000 0xffff0000,
      .write .ksys573DioWrite_1_0 0x1f6400e0 0x3abc0000 0xffff0000]
    (by simp) (by simp) (by decide)
  exact ⟨s₁, s₂, hrun₁, hrun₂, hdata, hlight⟩

end MamePlugins.Ddrio
