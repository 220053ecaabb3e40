import MamePlugins.Library.SentBefore
import MamePlugins.Iidxio.InputMerge
import MamePlugins.Iidxio.RegisterFile
import MamePlugins.Iidxio.SwitchOff

/-!
# The lights that were sent

The lights that the plugin sets are staged until `ep1_send` transmits them, which may
fail. This file determines the words that were staged at the last `ep1_send` of the log
that returned true, over a session, from the bytes stored in the port and the words
written to the key lights. What becomes of the words behind the call is up to the
backend.
-/

namespace MamePlugins.Iidxio

open Library

/-! ### Staged lights -/

/-- The call is an `iidxio_ep1_send` that returned true. -/
def Call.isEp1Sent : Call → Bool
  | .iidxioEp1Send result => result
  | _ => false

/-- The frame update makes an `iidxio_ep1_send`, and it returns true. -/
def FrameResults.sends (results : FrameResults) : Bool :=
  results.ep3Write16seg && results.ep1Send

/-- The word of the deck lights that a callback stages. -/
def Event.deckWord : Event → Option LuaInt
  | .write .twinkleKeysWrite offset data mask =>
    if offset = 0x1f250000 ∧ mask = 0xff then some (data &&& 0xffff &&& 0x3fff) else none
  | _ => none

/-- The word of a light after the callbacks `before` a start and `es` from it on. -/
def stagedWord (before es : List Event) : Ep1Light → LuaInt
  | .deck => (es.filterMap Event.deckWord).getLast?.getD 0
  | .panel => (lastStored PortLight.panel.index before es).elim 0 PortLight.panel.word
  | .topLamps => (lastStored PortLight.topLamps.index before es).elim 0 PortLight.topLamps.word
  | .topNeons => (lastStored PortLight.topNeons.index before es).elim 0 PortLight.topNeons.word

/-- The lights that have a register behind the port. -/
def PortLight.ep1Light : PortLight → Ep1Light
  | .panel => .panel
  | .topLamps => .topLamps
  | .topNeons => .topNeons

theorem lastSent_ep1Light (l : PortLight) (calls : List Call) :
    lastSent Call.ep1Light l.ep1Light calls = lastLight l calls := by
  have hmessage (c : Call) :
      (c.ep1Light.bind fun m => if m.1 = l.ep1Light then some m.2 else none) =
        c.portLight.bind fun m => if m.1 = l then some m.2 else none := by
    cases l <;> cases c <;> rfl
  rw [lastLight, lastSent, lastSent, sent, sent]
  congr 2
  exact funext hmessage

/-! ### The calls of a callback -/

/-- A call that is no such send and stages no deck lights. -/
def Call.IsPassive (c : Call) : Prop :=
  c.isEp1Sent = false ∧ ∀ word, c ≠ .iidxioEp1SetDeckLights word

theorem readCalls_passive (tap : ReadTap) (offset mask curIoOffset : LuaInt) :
    ∀ c ∈ readCalls tap offset mask curIoOffset, c.IsPassive := by
  rw [readCalls.eq_def]
  cases tap with
  | twinkleIoRead =>
    dsimp only
    split_ifs <;> simp [Call.IsPassive, Call.isEp1Sent]
  | twinkleKeysRead =>
    dsimp only
    split_ifs <;> simp [Call.IsPassive, Call.isEp1Sent]

theorem storeCalls_passive (index data : BitVec 8) :
    ∀ c ∈ storeCalls index data, c.IsPassive := by
  intro c hc
  rw [storeCalls, Option.mem_toList, Option.map_eq_some_iff] at hc
  obtain ⟨l, -, rfl⟩ := hc
  cases l <;> exact ⟨rfl, by simp [PortLight.call]⟩

theorem sent_deck_of_passive {calls : List Call} (h : ∀ c ∈ calls, c.IsPassive) :
    sent Call.ep1Light .deck calls = [] := by
  rw [sent, List.filterMap_eq_nil_iff]
  intro c hc
  cases c with
  | iidxioEp1SetDeckLights word => exact absurd rfl ((h _ hc).2 word)
  | _ => rfl

/-- A frame update that sends finds the words that are staged. -/
theorem sentWord_frameCalls (l : Ep1Light) (calls : List Call) (text : LuaString)
    (results : FrameResults) :
    sentBefore Call.ep1Light Call.isEp1Sent l (calls ++ frameCalls text results) =
      if results.sends then lastSent Call.ep1Light l calls
      else sentBefore Call.ep1Light Call.isEp1Sent l calls := by
  cases hep3 : results.ep3Write16seg with
  | false =>
    rw [frameCalls, hep3, if_pos rfl, FrameResults.sends, hep3, Bool.false_and,
      if_neg Bool.false_ne_true, sentBefore_append_of_forall]
    simp [Call.isEp1Sent]
  | true =>
    rw [frameCalls, hep3, if_neg (by decide), FrameResults.sends, hep3, Bool.true_and]
    cases hep1 : results.ep1Send with
    | false =>
      rw [if_pos rfl, if_neg Bool.false_ne_true, sentBefore_append_of_forall]
      simp [Call.isEp1Sent]
    | true =>
      rw [if_neg (by decide), if_pos rfl, List.append_cons,
        sentBefore_append_cons rfl rfl (by simp [Call.isEp1Sent]),
        lastSent_append_of_forall (by simp [Call.ep1Light])]

/-- What a callback in a session does: stage deck lights, update a frame, or neither. -/
theorem State.callsOf_cases {s : State} (hinit : s.isInitialized = true)
    (htap : s.writeCallback .twinkleKeysWrite = true) {e : Event}
    (he : ∀ results, e ≠ .stop results) :
    (∃ results, e = .frame results ∧ s.callsOf e = frameCalls s.text16seg results) ∨
      (∃ word, e.deckWord = some word ∧ s.callsOf e = [.iidxioEp1SetDeckLights word]) ∨
      (e.deckWord = none ∧ (∀ results, e ≠ .frame results) ∧ ∀ c ∈ s.callsOf e, c.IsPassive) := by
  cases e with
  | start systemName initResult results =>
    right; right
    rw [State.callsOf, if_neg (by simp [hinit])]
    exact ⟨rfl, by simp, by simp⟩
  | stop results => exact absurd rfl (he results)
  | frame results =>
    left
    exact ⟨results, rfl, by rw [State.callsOf, if_pos hinit]⟩
  | read tap offset data mask inputs =>
    right; right
    refine ⟨rfl, by simp, ?_⟩
    rw [State.callsOf]
    split_ifs
    · exact readCalls_passive tap offset mask s.curIoOffset
    · simp
  | write tap offset data mask =>
    right
    cases tap with
    | twinkleIoWrite =>
      right
      refine ⟨rfl, by simp, ?_⟩
      rw [State.callsOf]
      split_ifs
      · exact storeCalls_passive _ _
      · simp
    | twinkleKeysWrite =>
      rw [State.callsOf, Event.deckWord]
      simp only [htap, true_and]
      split_ifs
      · exact Or.inl ⟨_, rfl, rfl⟩
      · exact Or.inr ⟨rfl, by simp, by simp⟩

/-! ### Sessions -/

/-- The callback is a frame update that sends. -/
def Event.sends : Event → Bool
  | .frame results => results.sends
  | _ => false

/-- The word of a light that was staged at the last `iidxio_ep1_send` that returned true. -/
abbrev sentWord (l : Ep1Light) (calls : List Call) : Option LuaInt :=
  sentBefore Call.ep1Light Call.isEp1Sent l calls

/-- A successful start stages zero, and sends it if its frame update does. -/
theorem sentWord_start {s : State} {systemName : List Char} (hs : s.isInitialized = false)
    (hname : isSupported systemName = true) (results : FrameResults) (l : Ep1Light) :
    lastSent Call.ep1Light l (init systemName true results s).calls = some 0 ∧
      sentWord l (init systemName true results s).calls =
        if results.sends then some 0 else sentWord l s.calls := by
  have hcalls : (init systemName true results s).calls =
      s.calls ++ .iidxioInit true :: offCalls ++ frameCalls text16segBlank results := by
    rw [init_eq hs hname]
  have hoff : lastSent Call.ep1Light l (s.calls ++ .iidxioInit true :: offCalls) = some 0 := by
    rw [List.append_cons]
    exact lastSent_append_offCalls l _
  rw [hcalls]
  constructor
  · rw [lastSent_append_of_forall, hoff]
    intro c hc word hlight
    rw [frameCalls_ep1Light _ _ c hc] at hlight
    cases hlight
  · rw [sentWord, sentWord_frameCalls, hoff, sentBefore_append_of_forall]
    simp [offCalls, Call.isEp1Sent]

/-- A stop sends zero, if its frame update does. -/
theorem sentWord_stop {s : State} (hs : s.isInitialized = true) (results : FrameResults)
    (l : Ep1Light) :
    sentWord l (deinit results s).calls = if results.sends then some 0 else sentWord l s.calls := by
  have hcalls : (deinit results s).calls =
      s.calls ++ offCalls ++ frameCalls text16segBlank results ++ [.iidxioFini] := by
    rw [deinit_eq hs, stopCalls]
    simp
  rw [hcalls, sentWord, sentBefore_append_of_forall (by simp [Call.isEp1Sent]),
    sentWord_frameCalls, lastSent_append_offCalls, sentBefore_append_of_forall]
  simp [offCalls, Call.isEp1Sent]

/-- What is staged and was sent in a session. -/
structure State.Sent (s : State) (before es : List Event) (first : Ep1Light → Option LuaInt) :
    Prop where
  staged : ∀ l, lastSent Call.ep1Light l s.calls = some (stagedWord before es l)
  sent : ∀ l, sentWord l s.calls =
    if es.any Event.sends then some (stagedWord before (upToLast Event.sends es) l)
    else first l

/-- The state in a session, with the lights that have a register staged. -/
theorem session_state {before : List Event} {s₀ : State} (hbefore : run .load before = .ok s₀)
    {start : Event} (hstart : s₀.Starts start) {es : List Event}
    (hes : ∀ e ∈ es, ∀ results, e ≠ .stop results) :
    ∃ s, run s₀ (start :: es) = .ok s ∧ s.After (before ++ start :: es) ∧
      s.isInitialized = true ∧ s.writeCallback .twinkleKeysWrite = true ∧
      ∀ l : PortLight,
        lastSent Call.ep1Light l.ep1Light s.calls = some (stagedWord before es l.ep1Light) := by
  obtain ⟨s, f, hrun, hs, -, hcell⟩ := (State.after_of_run hbefore).session hstart hes
  have hload : run .load (before ++ start :: es) = .ok s := by
    rw [run, runEvents_append, show runEvents step .load before = .ok s₀ from hbefore]
    exact hrun
  refine ⟨s, hrun, State.after_of_run hload, hs.initialized, ?_, fun l => ?_⟩
  · rw [(State.tapsAgree_of_run hload).write, hs.installed]
  · rw [lastSent_ep1Light, hs.lights, hcell]
    cases l <;> rfl

/-- A frame update stores nothing. -/
theorem stagedWord_concat_frame (before es : List Event) (results : FrameResults) (l : Ep1Light) :
    stagedWord before (es ++ [.frame results]) l = stagedWord before es l := by
  have hdeck : (es ++ [Event.frame results]).filterMap Event.deckWord =
      es.filterMap Event.deckWord := by
    rw [List.filterMap_append]
    exact List.append_nil _
  have hport : (es ++ [Event.frame results]).filterMap Event.portWrite =
      es.filterMap Event.portWrite := by
    rw [List.filterMap_append]
    exact List.append_nil _
  cases l <;> simp only [stagedWord, lastStored, hdeck, hport]

theorem session_sent {before : List Event} {s₀ : State} (hbefore : run .load before = .ok s₀)
    {systemName : List Char} (hclosed : s₀.isInitialized = false)
    (hname : isSupported systemName = true) (results : FrameResults) {es : List Event}
    (hes : ∀ e ∈ es, ∀ results, e ≠ .stop results) :
    ∃ s, run s₀ (.start systemName true results :: es) = .ok s ∧
      s.Sent before es fun l => if results.sends then some 0 else sentWord l s₀.calls := by
  have hstart : s₀.Starts (.start systemName true results) := ⟨hclosed, hname, rfl⟩
  induction es using List.reverseRecOn with
  | nil =>
    refine ⟨init systemName true results s₀, rfl, fun l => ?_, fun l => ?_⟩
    · rw [(sentWord_start hclosed hname results l).1]
      cases l <;> rfl
    · exact (sentWord_start hclosed hname results l).2
  | append_singleton es e ih =>
    have hes' : ∀ e ∈ es, ∀ results, e ≠ .stop results := fun e he => hes e (by simp [he])
    obtain ⟨s, hrun, hs⟩ := ih hes'
    obtain ⟨s₁, hrun₁, hafter, hinit, htap, -⟩ := session_state hbefore hstart hes'
    obtain rfl : s₁ = s := Except.ok.inj (hrun₁.symm.trans hrun)
    obtain ⟨s', hrun', -, -, -, hport⟩ := session_state hbefore hstart hes
    have hstep : step s₁ e = .ok s' := by
      have hconcat := hrun'
      rw [run, ← List.cons_append] at hconcat
      obtain ⟨s₂, hs₂, hstep⟩ := runEvents_concat.mp hconcat
      obtain rfl : s₂ = s₁ := Except.ok.inj (hs₂.symm.trans hrun)
      exact hstep
    have hcalls := step_calls hafter hstep
    have hcases := State.callsOf_cases hinit htap (hes e (by simp))
    refine ⟨s', hrun', fun l => ?_, fun l => ?_⟩
    · cases l with
      | panel => exact hport .panel
      | topLamps => exact hport .topLamps
      | topNeons => exact hport .topNeons
      | deck =>
        rw [hcalls]
        rcases hcases with ⟨results', rfl, heq⟩ | ⟨word, hword, heq⟩ | ⟨hword, -, hpassive⟩
        · rw [heq, stagedWord_concat_frame, lastSent_append_of_forall, hs.staged]
          intro c hc word hlight
          rw [frameCalls_ep1Light _ _ c hc] at hlight
          cases hlight
        · have hlight : (Call.iidxioEp1SetDeckLights word).ep1Light = some (.deck, word) := rfl
          rw [heq, lastSent_concat hlight, if_pos rfl]
          simp [stagedWord, hword]
        · rw [lastSent, sent_append, sent_deck_of_passive hpassive, List.append_nil]
          have hstaged := hs.staged .deck
          simpa [lastSent, stagedWord, hword] using hstaged
    · have hkept (hquiet : ∀ c ∈ s₁.callsOf e, c.isEp1Sent = false)
          (he : e.sends = false) : sentWord l s'.calls =
            if (es ++ [e]).any Event.sends then
              some (stagedWord before (upToLast Event.sends (es ++ [e])) l)
            else if results.sends then some 0 else sentWord l s₀.calls := by
        rw [hcalls, sentWord, sentBefore_append_of_forall hquiet,
          upToLast_append_of_forall (by simp [he]), List.any_append]
        simpa [he] using hs.sent l
      rcases hcases with ⟨results', rfl, heq⟩ | ⟨word, hword, heq⟩ | ⟨-, hframe, hpassive⟩
      · cases hsends : results'.sends with
        | true =>
          have hframe : (Event.frame results').sends = true := hsends
          rw [hcalls, heq, sentWord, sentWord_frameCalls, hsends, if_pos rfl, hs.staged,
            upToLast_concat hframe, stagedWord_concat_frame, List.any_append]
          simp [hframe]
        | false =>
          rw [List.any_append, upToLast_append_of_forall (by simp [Event.sends, hsends]),
            hcalls, heq, sentWord, sentWord_frameCalls, hsends, if_neg Bool.false_ne_true]
          simpa [Event.sends, hsends] using hs.sent l
      · refine hkept (by simp [heq, Call.isEp1Sent]) ?_
        cases e <;> first | rfl | cases hword
      · refine hkept (fun c hc => (hpassive c hc).1) ?_
        cases e with
        | frame results' => exact absurd rfl (hframe results')
        | _ => rfl

/-- **The lights at the last send.** Whatever happened before a successful start, and
after any callbacks before the next stop: the word passed last for a light before the
last `iidxio_ep1_send` that returned true is that of the byte stored last, or the one
written to the key lights last, as of the last frame update with such a send. If there
was none, it is zero if the start had one, and the same as before the start otherwise.
After a stop it is zero if the stop had one, and the same as before otherwise. -/
theorem lights_sent (before : List Event) {s₀ : State} (hbefore : run .load before = .ok s₀)
    {systemName : List Char} (hclosed : s₀.isInitialized = false)
    (hname : isSupported systemName = true) (results : FrameResults) (es : List Event)
    (hes : ∀ e ∈ es, ∀ results, e ≠ .stop results) :
    ∃ s, run s₀ (.start systemName true results :: es) = .ok s ∧
      (∀ l, sentWord l s.calls =
        if es.any Event.sends then
          some (stagedWord before (upToLast Event.sends es) l)
        else if results.sends then some 0 else sentWord l s₀.calls) ∧
      ∀ stopResults, ∃ s', step s (.stop stopResults) = .ok s' ∧
        ∀ l, sentWord l s'.calls = if stopResults.sends then some 0 else sentWord l s.calls := by
  obtain ⟨s, hrun, hs⟩ := session_sent hbefore hclosed hname results hes
  have hstart : s₀.Starts (.start systemName true results) := ⟨hclosed, hname, rfl⟩
  obtain ⟨s', hrun', -, hinit, -⟩ := session_state hbefore hstart hes
  obtain rfl : s' = s := Except.ok.inj (hrun'.symm.trans hrun)
  exact ⟨s', hrun, hs.sent, fun stopResults => ⟨_, rfl, sentWord_stop hinit stopResults⟩⟩

/-- A deck light is written before a frame update that sends, and another one before
one whose `iidxio_ep1_send` returns false. -/
theorem lights_sent_deck :
    ∃ s, run .load [.start "bmiidxa".toList true ⟨true, true, true⟩,
        .write .twinkleKeysWrite 0x1f250000 0x01 0xff, .frame ⟨true, true, true⟩,
        .write .twinkleKeysWrite 0x1f250000 0x02 0xff, .frame ⟨true, false, true⟩] = .ok s ∧
      sentWord .deck s.calls = some 1 := by
  obtain ⟨s, hrun, hsent, -⟩ := lights_sent [] rfl
    (show State.load.isInitialized = false from rfl)
    (show isSupported "bmiidxa".toList = true by decide) ⟨true, true, true⟩
    [.write .twinkleKeysWrite 0x1f250000 0x01 0xff, .frame ⟨true, true, true⟩,
      .write .twinkleKeysWrite 0x1f250000 0x02 0xff, .frame ⟨true, false, true⟩] (by simp)
  exact ⟨s, hrun, (hsent .deck).trans (by decide)⟩

end MamePlugins.Iidxio
