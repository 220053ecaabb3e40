import MamePlugins.Library.SentBefore
import MamePlugins.Ddrio.Calls
import MamePlugins.Ddrio.LampHistory

/-!
# The lights at the last poll

A backend may flush the lights where it is asked for the pads; `ddrio.h` notes so for
geninput. This file determines the light words that were passed before the last such
call of the log, over a session and after its stop. What becomes of the words behind
the call is up to the backend.
-/

namespace MamePlugins.Ddrio

open Library

/-- The call is a `ddr_io_read_pad`. -/
def Call.isReadPad : Call → Bool
  | .ddrIoReadPad _ => true
  | _ => false

/-- The callback is a read that asks for the pads. -/
def Event.polls (e : Event) : Bool := e.polledPad.isSome

/-- The light word passed last before the last `ddr_io_read_pad`. -/
abbrev polledLight (w : LightWord) (calls : List Call) : Option LuaInt :=
  sentBefore Call.light Call.isReadPad w calls

/-! ### One callback -/

/-- Only a read that asks for the pads makes the call. -/
theorem State.next_calls_of_not_polls (s : State) {e : Event} (he : e.polls = false) :
    ∃ calls, (s.next e).calls = s.calls ++ calls ∧ ∀ c ∈ calls, c.isReadPad = false := by
  rcases s.next_makes e with ⟨r, n, hnext⟩ | ⟨calls, hmakes, hcalls, -⟩
  · rw [hnext]
    obtain ⟨calls, hcalls, hlights, -⟩ := s.writeRegister_calls r n
    refine ⟨calls, hcalls, fun c hc => ?_⟩
    obtain ⟨w, light, rfl⟩ := hlights c hc
    cases w <;> rfl
  · refine ⟨calls, hcalls, ?_⟩
    cases hmakes with
    | nothing => simp
    | started => decide
    | refused => decide
    | stopped => decide
    | polled hpad =>
      rw [Event.polls, hpad] at he
      cases he

/-- A read of the pads makes this one call, and leaves the plugin's lights alone. -/
theorem State.Running.next_polls {s : State} (h : s.Running) {e : Event} (he : e.polls = true) :
    (∃ pad, (s.next e).calls = s.calls ++ [.ddrIoReadPad pad]) ∧
      ∀ w, (s.next e).light w = s.light w := by
  have hstop : e ≠ .stop := by
    rintro rfl
    cases he
  obtain ⟨pad, hpad⟩ := Option.isSome_iff_exists.mp he
  rcases h.next_cases hstop with ⟨r, n, hreached, -⟩ | ⟨-, pad', answers, hnext⟩
  · cases e with
    | write => cases hpad
    | _ => cases hreached
  · rw [hnext, hpad]
    exact ⟨⟨pad, rfl⟩, fun w => by cases w <;> rfl⟩

/-- Without another poll the words at the last one stay, whatever else happens. -/
theorem polledLight_foldl_of_not_polls (s : State) {es : List Event}
    (hes : es.any Event.polls = false) (w : LightWord) :
    polledLight w (es.foldl State.next s).calls = polledLight w s.calls := by
  induction es generalizing s with
  | nil => rfl
  | cons e es ih =>
    rw [List.any_cons, Bool.or_eq_false_iff] at hes
    obtain ⟨calls, hcalls, hquiet⟩ := s.next_calls_of_not_polls hes.1
    rw [List.foldl_cons, ih _ hes.2, hcalls, polledLight, sentBefore_append_of_forall hquiet]

/-! ### Sessions -/

/-- In a session they are the words of the plugin as of the last poll. -/
theorem AfterStart.polledLight {s₁ : State} (h₁ : AfterStart s₁) {es : List Event}
    (hes : ∀ e ∈ es, e ≠ .stop) (hpolls : es.any Event.polls = true) (w : LightWord) :
    Ddrio.polledLight w (es.foldl State.next s₁).calls =
      some (((upToLast Event.polls es).foldl State.next s₁).light w) := by
  induction es using List.reverseRecOn with
  | nil => cases hpolls
  | append_singleton es e ih =>
    have hbefore : ∀ e ∈ es, e ≠ .stop := fun e he => hes e (by simp [he])
    have hrunning := h₁.running.foldl_next hbefore
    have hstep := h₁.inStep.foldl_next h₁.running hbefore
    rw [List.foldl_concat]
    cases he : e.polls with
    | true =>
      obtain ⟨⟨pad, hcalls⟩, hlight⟩ := hrunning.next_polls he
      rw [upToLast_concat he, List.foldl_concat, hlight, hcalls, Ddrio.polledLight,
        sentBefore_append_cons rfl rfl (by simp)]
      exact hstep.sent w
    | false =>
      obtain ⟨calls, hcalls, hquiet⟩ := (es.foldl State.next s₁).next_calls_of_not_polls he
      rw [upToLast_append_of_forall (by simp [he]), hcalls, Ddrio.polledLight,
        sentBefore_append_of_forall hquiet]
      exact ih hbefore (by simpa [he] using hpolls)

/-- A lamp in a session, by the nibbles of its register. -/
theorem AfterStart.foldl_lit {s₁ : State} (h₁ : AfterStart s₁) {es : List Event}
    (hes : ∀ e ∈ es, e ≠ .stop) (l : Lamp) :
    (es.foldl State.next s₁).lit l =
      ((nibbles l.output.1 es).any (outputLevel · l.output.2) &&
        !outputLevel ((nibbles l.output.1 es).getLastD 0) l.output.2) := by
  have hcell := (registerCell_lit l).foldl_next h₁.running hes
  rwa [h₁.lit, h₁.data, track_reactLamp] at hcell

/-- **The lamps at the last poll.** Whatever happened before a successful start, and
after any callbacks before the next stop: the words passed last before the last
`ddr_io_read_pad` have exactly the lamps whose output was driven high at some time since
the start, and low last, both as of that read. If the pads have not been read since the
start, they are what they were before it. A stop, which passes zeros on, leaves them so,
whatever follows, until the pads are read again. -/
theorem polled_lamps (before : List Event) {s₀ : State} (hbefore : run .load before = .ok s₀)
    {systemName : List Char} (hclosed : s₀.isInitialized = false)
    (hname : isSupported systemName = true) (es : List Event) (hes : ∀ e ∈ es, e ≠ .stop) :
    ∃ s, run s₀ (.start systemName true :: es) = .ok s ∧
      (es.any Event.polls = true → ∀ w, ∃ light, polledLight w s.calls = some light ∧
        ∀ k, light.getLsbD k = true ↔ ∃ l : Lamp, l.word = w ∧ l.bit = k ∧
          (∃ n ∈ nibbles l.output.1 (upToLast Event.polls es),
            outputLevel n l.output.2 = true) ∧
          outputLevel ((nibbles l.output.1 (upToLast Event.polls es)).getLastD 0)
            l.output.2 = false) ∧
      (es.any Event.polls = false → ∀ w, polledLight w s.calls = polledLight w s₀.calls) ∧
      ∀ es', es'.any Event.polls = false → ∃ s', run s (.stop :: es') = .ok s' ∧
        ∀ w, polledLight w s'.calls = polledLight w s.calls := by
  have hreach : Reachable s₀ := ⟨before, hbefore⟩
  have h₁ : AfterStart (s₀.next (.start systemName true)) :=
    ⟨s₀, systemName, hreach, hclosed, hname, rfl⟩
  have hrun := run_eq hreach.stagesValid (.start systemName true :: es)
  have hvalid := hreach.stagesValid.foldl_next (.start systemName true :: es)
  refine ⟨_, hrun, fun hpolls w => ⟨_, h₁.polledLight hes hpolls w, fun k => ?_⟩,
    fun hpolls w => ?_, fun es' hes' => ⟨_, run_eq hvalid (.stop :: es'), fun w => ?_⟩⟩
  · have hprefix : ∀ e ∈ upToLast Event.polls es, e ≠ .stop := fun e he =>
      hes e ((List.rdropWhile_prefix _ es).subset he)
    have hlit := h₁.foldl_lit hprefix
    have hstep := h₁.inStep.foldl_next h₁.running hprefix
    have hiff (l : Lamp) :
        ((upToLast Event.polls es).foldl State.next
            (s₀.next (.start systemName true))).lit l = true ↔
          (∃ n ∈ nibbles l.output.1 (upToLast Event.polls es), outputLevel n l.output.2 = true) ∧
            outputLevel ((nibbles l.output.1 (upToLast Event.polls es)).getLastD 0)
              l.output.2 = false := by
      rw [hlit l, Bool.and_eq_true, List.any_eq_true, Bool.not_eq_true']
    constructor
    · intro hk
      obtain ⟨l, rfl, rfl⟩ := hstep.lamps w k hk
      exact ⟨l, rfl, rfl, (hiff l).mp hk⟩
    · rintro ⟨l, rfl, rfl, hl⟩
      exact (hiff l).mpr hl
  · refine polledLight_foldl_of_not_polls s₀ ?_ w
    simpa [Event.polls, Event.polledPad] using hpolls
  · refine polledLight_foldl_of_not_polls _ ?_ w
    simpa [Event.polls, Event.polledPad] using hes'

/-- A lamp is driven high and low before the pads are read. After the stop too, it is in
the word that was passed last before a read. -/
theorem polled_lamps_up :
    ∃ s s', run .load [.start "ddr4mp".toList true,
        .write .ksys573DioWrite_1_0 0x1f6400e0 0x10000000 0xffff0000,
        .write .ksys573DioWrite_1_0 0x1f6400e0 0 0xffff0000,
        .read .ksys573Jamma2Read 0x1f400008 0 0xffff 0] = .ok s ∧ run s [.stop] = .ok s' ∧
      ∃ light, polledLight .extio s'.calls = some light ∧ light.getLsbD 0x1e = true := by
  obtain ⟨s, hrun, hlit, -, hstop⟩ := polled_lamps [] rfl
    (show State.load.isInitialized = false from rfl)
    (show isSupported "ddr4mp".toList = true by decide)
    [.write .ksys573DioWrite_1_0 0x1f6400e0 0x10000000 0xffff0000,
      .write .ksys573DioWrite_1_0 0x1f6400e0 0 0xffff0000,
      .read .ksys573Jamma2Read 0x1f400008 0 0xffff 0] (by simp)
  obtain ⟨s', hrun', hkept⟩ := hstop [] rfl
  obtain ⟨light, hlight, hiff⟩ := hlit rfl .extio
  refine ⟨s, s', hrun, hrun', light, (hkept .extio).trans hlight, (hiff 0x1e).mpr ?_⟩
  exact ⟨.extio .lightP1Up, rfl, rfl, ⟨1, by decide, by decide⟩, by decide⟩

end MamePlugins.Ddrio
