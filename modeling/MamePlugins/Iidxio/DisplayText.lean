import MamePlugins.Iidxio.LuaBind
import MamePlugins.Iidxio.RegisterFile

/-!
# The text as a C string

The plugin hands ten bytes to the binding, and the backend reads them up to the first
null byte. This file determines the texts that every callback hands over, and when
the backend reads nine characters.
-/

namespace MamePlugins.Iidxio

open Library

/-! ### Nine characters -/

/-- A data byte shows a character exactly if it leaves one of the seven bits low. -/
theorem displayChar_ne_zero_iff :
    ∀ data : BitVec 8, displayChar data ≠ 0 ↔ data &&& 0x7f ≠ 0x7f := by
  decide

/-- The backend reads nine characters exactly if each cell has a byte that shows one. -/
theorem length_checkString_textOf_iff (cell : BitVec 8 → Option (BitVec 8)) :
    (checkString (textOf cell)).length = 9 ↔
      ∀ k < 9, ∃ data, cell (charIndex k) = some data ∧ data &&& 0x7f ≠ 0x7f := by
  have hlength : ((List.range 9).map fun k =>
      (cell (charIndex k)).elim 0 displayChar).length = 9 := by simp
  rw [checkString, textOf, List.append_assoc, List.singleton_append,
    CString.ofBuffer_append_null]
  nth_rewrite 2 [← hlength]
  rw [CString.length_ofBuffer_eq_iff, List.mem_map]
  constructor
  · intro hnull k hk
    cases hcell : cell (charIndex k) with
    | none => exact absurd ⟨k, List.mem_range.mpr hk, by rw [hcell]; rfl⟩ hnull
    | some data =>
      refine ⟨data, rfl, (displayChar_ne_zero_iff data).mp fun hzero => hnull ?_⟩
      exact ⟨k, List.mem_range.mpr hk, by rw [hcell]; exact hzero⟩
  · rintro hcells ⟨k, hk, hzero⟩
    obtain ⟨data, hcell, hshown⟩ := hcells k (List.mem_range.mp hk)
    rw [hcell] at hzero
    exact (displayChar_ne_zero_iff data).mpr hshown hzero

theorem length_checkString_blank : (checkString text16segBlank).length = 0 := by
  decide

/-! ### What a callback hands over -/

/-- The text that a call hands to the binding. -/
def Call.text : Call → Option LuaString
  | .iidxioEp3Write16seg text _ => some text
  | _ => none

/-- The texts handed over by some calls, in order. -/
def handedTexts (calls : List Call) : List LuaString := calls.filterMap Call.text

theorem handedTexts_append (calls calls' : List Call) :
    handedTexts (calls ++ calls') = handedTexts calls ++ handedTexts calls' :=
  List.filterMap_append ..

/-- The strings of the backend are the texts, read as C strings. -/
theorem forall_handsOver_iff {calls : List Call} {p : CString → Prop} :
    (∀ c ∈ calls, ∀ text, c.HandsOver text → p text) ↔
      ∀ luaText ∈ handedTexts calls, p (checkString luaText) := by
  constructor
  · intro h luaText hmem
    obtain ⟨c, hc, htext⟩ := List.mem_filterMap.mp hmem
    cases c with
    | iidxioEp3Write16seg text result =>
      rw [Call.text, Option.some.injEq] at htext
      exact h _ hc _ (Call.handsOver_iff.mpr ⟨text, result, rfl, congrArg checkString htext⟩)
    | _ => cases htext
  · intro h c hc text hover
    obtain ⟨luaText, result, rfl, rfl⟩ := Call.handsOver_iff.mp hover
    exact h luaText (List.mem_filterMap.mpr ⟨_, hc, rfl⟩)

theorem handedTexts_frameCalls (text : LuaString) (results : FrameResults) :
    handedTexts (frameCalls text results) = [text] := by
  rw [frameCalls]
  split_ifs <;> rfl

theorem handedTexts_readCalls (tap : ReadTap) (offset mask curIoOffset : LuaInt) :
    handedTexts (readCalls tap offset mask curIoOffset) = [] := by
  rw [readCalls.eq_def]
  cases tap with
  | twinkleIoRead =>
    dsimp only
    split_ifs <;> rfl
  | twinkleKeysRead =>
    dsimp only
    split_ifs <;> rfl

theorem handedTexts_storeCalls (index data : BitVec 8) :
    handedTexts (storeCalls index data) = [] := by
  rw [storeCalls]
  cases lightAt index with
  | none => rfl
  | some l => cases l <;> rfl

/-- The texts that a callback hands over. -/
def State.textsOf (s : State) : Event → List LuaString
  | .start systemName initResult _ =>
    if s.isInitialized = false ∧ isSupported systemName = true ∧ initResult = true
    then [text16segBlank] else []
  | .stop _ => if s.isInitialized = true then [text16segBlank] else []
  | .frame _ => if s.isInitialized = true then [s.text16seg] else []
  | .read .. => []
  | .write .. => []

/-- Every callback hands over these texts, and no other. -/
theorem handedTexts_callsOf (s : State) (e : Event) :
    handedTexts (s.callsOf e) = s.textsOf e := by
  cases e with
  | start systemName initResult results =>
    rw [State.callsOf, State.textsOf]
    by_cases hopens : s.isInitialized = false ∧ isSupported systemName = true
    · rw [if_pos hopens]
      cases initResult with
      | true =>
        have hoff : handedTexts (.iidxioInit true :: offCalls) = [] := rfl
        rw [if_pos rfl, if_pos ⟨hopens.1, hopens.2, rfl⟩, ← List.cons_append,
          handedTexts_append, handedTexts_frameCalls, hoff, List.nil_append]
      | false =>
        rw [if_neg (by simp), if_neg (by simp)]
        rfl
    · rw [if_neg hopens, if_neg fun h => hopens ⟨h.1, h.2.1⟩]
      rfl
  | stop results =>
    rw [State.callsOf, State.textsOf]
    split_ifs
    · rw [stopCalls, handedTexts_append, handedTexts_append, handedTexts_frameCalls]
      rfl
    · rfl
  | frame results =>
    rw [State.callsOf, State.textsOf]
    split_ifs
    · exact handedTexts_frameCalls _ results
    · rfl
  | read tap offset data mask inputs =>
    rw [State.callsOf, State.textsOf]
    split_ifs
    · exact handedTexts_readCalls tap offset mask s.curIoOffset
    · rfl
  | write tap offset data mask =>
    rw [State.textsOf]
    cases tap with
    | twinkleIoWrite =>
      rw [State.callsOf]
      split_ifs
      · exact handedTexts_storeCalls _ _
      · rfl
    | twinkleKeysWrite =>
      rw [State.callsOf]
      split_ifs <;> rfl

/-! ### Runs -/

/-- What it takes for the texts of a callback after `es` to have nine characters: it
neither starts nor stops the plugin, and at a frame update each display cell has been
stored a byte since the start, of which the last shows a character. -/
def State.ShowsNine (s : State) (es : List Event) : Event → Prop
  | .stop _ => s.isInitialized = false
  | .frame _ => ∀ before start session s₀, es = before ++ start :: session →
      run .load before = .ok s₀ → s₀.Starts start →
      (∀ e ∈ session, ∀ results, e ≠ .stop results) →
      ∀ k < 9, ∃ data, lastStored (charIndex k) before session = some data ∧
        data &&& 0x7f ≠ 0x7f
  | e => ¬s.Starts e

/-- The text of a session has nine characters if all nine cells show one. -/
theorem length_session_text_iff {before session : List Event} {start : Event} {s₀ s : State}
    (hbefore : run .load before = .ok s₀) (hstart : s₀.Starts start)
    (hnone : ∀ e ∈ session, ∀ results, e ≠ .stop results)
    (hrun : run .load (before ++ start :: session) = .ok s) :
    s.isInitialized = true ∧ ((checkString s.text16seg).length = 9 ↔
      ∀ k < 9, ∃ data, lastStored (charIndex k) before session = some data ∧
        data &&& 0x7f ≠ 0x7f) := by
  obtain ⟨s', f, hsession, hmirrors, -, hcell⟩ :=
    (State.after_of_run hbefore).session hstart hnone
  have hs' : s' = s := by
    rw [run, runEvents_append, ← run, hbefore] at hrun
    exact Except.ok.inj (hsession.symm.trans hrun)
  rw [hs'] at hmirrors
  refine ⟨hmirrors.initialized, ?_⟩
  rw [hmirrors.shows.text, length_checkString_textOf_iff]
  simp only [hcell]

/-- The texts of a callback have nine characters in these cases, and in no other. -/
theorem textsOf_nine_iff {es : List Event} {s : State} (hrun : run .load es = .ok s)
    (e : Event) :
    (∀ text ∈ s.textsOf e, (checkString text).length = 9) ↔ s.ShowsNine es e := by
  have hblank {c : Prop} [Decidable c] :
      (∀ text ∈ (if c then [text16segBlank] else []), (checkString text).length = 9) ↔ ¬c := by
    split_ifs with hc
    · simp [hc, length_checkString_blank]
    · simp [hc]
  cases e with
  | start systemName initResult results => exact hblank
  | stop results => exact hblank.trans (by rw [Bool.not_eq_true]; rfl)
  | frame results =>
    rw [State.textsOf]
    constructor
    · rintro hnine before start session s₀ rfl hbefore hstart hnone
      obtain ⟨hinit, hiff⟩ := length_session_text_iff hbefore hstart hnone hrun
      rw [if_pos hinit] at hnine
      exact hiff.mp (hnine _ (List.mem_singleton.mpr rfl))
    · intro hshown
      obtain ⟨s₁, hrun₁, hsession⟩ := exists_session es
      rw [hrun, Except.ok.injEq] at hrun₁
      subst hrun₁
      split_ifs with hinit
      · obtain ⟨before, start, session, s₀, rfl, hbefore, hstart, hnone⟩ := hsession hinit
        obtain ⟨-, hiff⟩ := length_session_text_iff hbefore hstart hnone hrun
        intro text htext
        rw [List.mem_singleton.mp htext]
        exact hiff.mpr (hshown before start session s₀ rfl hbefore hstart hnone)
      · simp
  | read tap offset data mask inputs => simp [State.textsOf, State.ShowsNine, State.Starts]
  | write tap offset data mask => simp [State.textsOf, State.ShowsNine, State.Starts]

/-- A plugin that no callback started is not started. -/
theorem not_initialized_of_everyStep {es : List Event} {s : State}
    (hrun : run .load es = .ok s)
    (hnever : EveryStep step (fun s e => ¬s.Starts e) .load es) : s.isInitialized = false := by
  by_contra hinit
  rw [Bool.not_eq_false] at hinit
  obtain ⟨s₁, hrun₁, hsession⟩ := exists_session es
  rw [hrun, Except.ok.injEq] at hrun₁
  subst hrun₁
  obtain ⟨before, start, session, s₀, rfl, hbefore, hstart, -⟩ := hsession hinit
  exact ((everyStep_append.mp hnever).2 s₀ hbefore).1 hstart

/-- The texts of a whole run have nine characters only if no start succeeds. -/
theorem handedTexts_nine_iff (es : List Event) : ∃ s, run .load es = .ok s ∧
    ((∀ text ∈ handedTexts s.calls, (checkString text).length = 9) ↔
      EveryStep step (fun s e => ¬s.Starts e) .load es) := by
  induction es using List.reverseRecOn with
  | nil => exact ⟨.load, rfl, by simp [EveryStep, State.load, handedTexts]⟩
  | append_singleton es e ih =>
    obtain ⟨s, hrun, hiff⟩ := ih
    have hafter := State.after_of_run hrun
    obtain ⟨s', hstep, -⟩ := hafter.next e
    refine ⟨s', runEvents_concat.mpr ⟨s, hrun, hstep⟩, ?_⟩
    rw [step_calls hafter hstep, handedTexts_append, handedTexts_callsOf,
      List.forall_mem_append, hiff, everyStep_concat]
    refine and_congr_right fun hnever => ?_
    have hclosed := not_initialized_of_everyStep hrun hnever
    have hstarts : (∀ s', runEvents step .load es = .ok s' → ¬s'.Starts e) ↔ ¬s.Starts e := by
      constructor
      · exact fun h => h s hrun
      · intro h s₁ hrun₁
        exact Except.ok.inj (hrun.symm.trans hrun₁) ▸ h
    rw [hstarts, textsOf_nine_iff hrun]
    cases e with
    | start systemName initResult results => rfl
    | stop results => exact iff_of_true hclosed id
    | frame results =>
      refine iff_of_true ?_ id
      rintro before start session s₀ rfl hbefore hstart -
      exact absurd hstart ((everyStep_append.mp hnever).2 s₀ hbefore).1
    | read tap offset data mask inputs => rfl
    | write tap offset data mask => rfl

/-- **When the backend reads nine characters.** Every call of every run passes the
binding. The strings of a whole run have nine characters exactly if no start succeeds;
those of one more callback, exactly if it is no start or stop of the plugin, and no
frame update while one of the nine display cells shows no character. -/
theorem display_text_nine_iff (es : List Event) :
    ∃ s, run .load es = .ok s ∧ s.Converts ∧
      ((∀ c ∈ s.calls, ∀ text, c.HandsOver text → text.length = 9) ↔
        EveryStep step (fun s e => ¬s.Starts e) .load es) ∧
      ∀ e, ∃ s' calls, step s e = .ok s' ∧ s'.calls = s.calls ++ calls ∧
        ((∀ c ∈ calls, ∀ text, c.HandsOver text → text.length = 9) ↔ s.ShowsNine es e) := by
  obtain ⟨s, hrun, hiff⟩ := handedTexts_nine_iff es
  refine ⟨s, hrun, State.converts_of_run hrun, ?_, fun e => ?_⟩
  · rwa [forall_handsOver_iff]
  · have hafter := State.after_of_run hrun
    obtain ⟨s', hstep, -⟩ := hafter.next e
    refine ⟨s', s.callsOf e, hstep, step_calls hafter hstep, ?_⟩
    rw [forall_handsOver_iff, handedTexts_callsOf, textsOf_nine_iff hrun]

/-- A start hands over ten null bytes, which the backend reads as the empty string. -/
theorem display_text_empty_at_start :
    ∃ s c text, run .load [.start "bmiidxa".toList true ⟨true, true, true⟩] = .ok s ∧
      c ∈ s.calls ∧ c.HandsOver text ∧ text.length ≠ 9 := by
  refine ⟨_, .iidxioEp3Write16seg text16segBlank true, checkString text16segBlank, rfl, ?_,
    Call.handsOver_iff.mpr ⟨_, _, rfl, rfl⟩, ?_⟩
  · decide
  · rw [length_checkString_blank]
    omega

end MamePlugins.Iidxio
