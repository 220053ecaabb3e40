import MamePlugins.Library.Indistinguishable
import MamePlugins.Iidxio.InputMerge

/-!
# Restarts of the iidxio plugin

A start resets the text and the lights, but not the index that the port has selected.
This file says which starts can be told apart by what follows them: those that find
different indices, unless no register is behind either of them.
-/

namespace MamePlugins.Iidxio

open Library

/-! ### Live indices -/

/-- The indices with an input, a light or a display cell behind them. -/
def liveIndices : List (BitVec 8) :=
  servedIndices ++ [0x37, 0x87, 0x8f] ++ (List.range 9).map charIndex

theorem lightAt_of_not_live {index : BitVec 8} (h : index ∉ liveIndices) :
    lightAt index = none := by
  rw [lightAt, if_neg, if_neg, if_neg]
  · rintro rfl
    exact h (by decide)
  · rintro rfl
    exact h (by decide)
  · rintro rfl
    exact h (by decide)

theorem ne_charIndex_of_not_live {index : BitVec 8} (h : index ∉ liveIndices) :
    ∀ k < 9, index ≠ charIndex k := by
  rintro k hk rfl
  refine h (List.mem_append_right _ ?_)
  exact List.mem_map.mpr ⟨k, List.mem_range.mpr hk, rfl⟩

theorem not_served_of_not_live {index : BitVec 8} (h : index ∉ liveIndices) :
    index ∉ servedIndices :=
  fun hserved => h (List.mem_append_left _ (List.mem_append_left _ hserved))

/-- The two indices have the same behind them. -/
def SameRegister (i j : BitVec 8) : Prop := i = j ∨ i ∉ liveIndices ∧ j ∉ liveIndices

/-! ### The same state, seen at another index and after other logs -/

/-- A state with another index, and with more at the beginning of its logs. -/
def State.view (s : State) (index : BitVec 8) (calls : List Call)
    (answers : List (Option LuaInt)) : State :=
  { s with
    curIoOffset := index.setWidth 64
    calls := calls ++ s.calls
    answers := answers ++ s.answers }

section View

variable (s : State) (i : BitVec 8) (calls : List Call) (answers : List (Option LuaInt))

theorem frameUpdate_view (results : FrameResults) :
    frameUpdate results (s.view i calls answers) =
      (frameUpdate results s).view i calls answers := by
  by_cases hs : s.isInitialized = true
  · simp [frameUpdate_eq, State.view, hs]
  · simp [frameUpdate, State.view, hs]

theorem deinit_view (results : FrameResults) :
    deinit results (s.view i calls answers) = (deinit results s).view i calls answers := by
  by_cases hs : s.isInitialized = true
  · rw [deinit_eq hs, deinit_eq (s := s.view i calls answers) hs]
    simp [State.view]
  · simp [deinit, State.view, hs]

theorem init_view (systemName : List Char) (initResult : Bool) (results : FrameResults) :
    init systemName initResult results (s.view i calls answers) =
      (init systemName initResult results s).view i calls answers := by
  by_cases hs : s.isInitialized = true
  · simp [init, State.view, hs]
  · have hclosed : s.isInitialized = false := by simpa using hs
    by_cases hname : isSupported systemName = true
    · cases initResult with
      | true =>
        rw [init_eq hclosed hname, init_eq (s := s.view i calls answers) hclosed hname]
        simp [State.view]
      | false => simp [init, hname, hclosed, State.view, State.call]
    · simp [init, hname, State.view]

theorem twinkleKeysWrite_view (offset data mask : LuaInt) :
    twinkleKeysWrite offset data mask (s.view i calls answers) =
      (twinkleKeysWrite offset data mask s).view i calls answers := by
  rw [twinkleKeysWrite, twinkleKeysWrite]
  split_ifs
  · simp [State.call, State.view]
  · rfl

end View

/-- An answer depends on the index and the inputs, and on no other variable. -/
theorem readTap_answer_congr {s t : State} (h : s.curIoOffset = t.curIoOffset) (tap : ReadTap)
    (offset data mask : LuaInt) (inputs : Inputs) :
    (readTap tap offset data mask inputs s).1 = (readTap tap offset data mask inputs t).1 := by
  cases tap with
  | twinkleIoRead =>
    simp only [readTap, twinkleIoRead, readSliders, h]
    split_ifs <;> rfl
  | twinkleKeysRead =>
    simp only [readTap, twinkleKeysRead]
    split_ifs <;> rfl

/-! ### A step on two views -/

/-- The text shows the bytes of some registers. -/
def State.HasText (s : State) : Prop := ∃ cell, s.text16seg = textOf cell

theorem State.HasText.of_eq {s s' : State} (h : s.HasText) (heq : s'.text16seg = s.text16seg) :
    s'.HasText := by
  obtain ⟨cell, hcell⟩ := h
  exact ⟨cell, heq.trans hcell⟩

theorem hasText_init {s : State} (h : s.HasText) (systemName : List Char) (initResult : Bool)
    (results : FrameResults) : (init systemName initResult results s).HasText := by
  by_cases hs : s.isInitialized = true
  · exact h.of_eq (by simp [init, hs])
  · have hclosed : s.isInitialized = false := by simpa using hs
    by_cases hname : isSupported systemName = true
    · cases initResult with
      | true =>
        rw [init_eq hclosed hname]
        exact ⟨fun _ => none, textOf_none.symm⟩
      | false => exact h.of_eq (by simp [init, hname, hclosed, State.call])
    · exact h.of_eq (by simp [init, hname])

theorem hasText_deinit {s : State} (h : s.HasText) (results : FrameResults) :
    (deinit results s).HasText := by
  by_cases hs : s.isInitialized = true
  · rw [deinit_eq hs]
    exact ⟨fun _ => none, textOf_none.symm⟩
  · exact h.of_eq (by simp [deinit, hs])

variable {u : State} {i j : BitVec 8}

/-- A read does the same to both views: it reaches the same input, or none. -/
theorem readTap_view (hij : SameRegister i j) (tap : ReadTap) (offset data mask : LuaInt)
    (inputs : Inputs) :
    ∃ answer new, ∀ calls answers,
      readTap tap offset data mask inputs (u.view i calls answers) =
        (answer, { u with calls := u.calls ++ new }.view i calls answers) ∧
      readTap tap offset data mask inputs (u.view j calls answers) =
        (answer, { u with calls := u.calls ++ new }.view j calls answers) := by
  have hread (k : BitVec 8) (calls : List Call) (answers : List (Option LuaInt)) :
      readTap tap offset data mask inputs (u.view k calls answers) =
        ((readTap tap offset data mask inputs (u.view k [] [])).1,
          { u with calls := u.calls ++ readCalls tap offset mask (k.setWidth 64) }.view k
            calls answers) := by
    have hanswer := readTap_answer_congr (s := u.view k calls answers) (t := u.view k [] []) rfl
      tap offset data mask inputs
    refine Prod.ext hanswer ?_
    rw [readTap_eq]
    simp [State.view]
  rcases hij with rfl | ⟨hi, hj⟩
  · exact ⟨_, _, fun calls answers => ⟨hread i calls answers, hread i calls answers⟩⟩
  · cases tap with
    | twinkleKeysRead =>
      have hkeys : (readTap .twinkleKeysRead offset data mask inputs (u.view j [] [])).1 =
          (readTap .twinkleKeysRead offset data mask inputs (u.view i [] [])).1 := by
        simp only [readTap, twinkleKeysRead]
        split_ifs <;> rfl
      refine ⟨_, _, fun calls answers => ⟨hread i calls answers, ?_⟩⟩
      rw [hread j calls answers, hkeys]
      rfl
    | twinkleIoRead =>
      have hnone (k : BitVec 8) (hk : k ∉ liveIndices) (calls : List Call)
          (answers : List (Option LuaInt)) :
          readTap .twinkleIoRead offset data mask inputs (u.view k calls answers) =
            (none, u.view k calls answers) :=
        readTap_eq_none rfl fun _ => ⟨rfl, not_served_of_not_live hk⟩
      refine ⟨none, [], fun calls answers => ⟨?_, ?_⟩⟩
      · rw [hnone i hi, List.append_nil]
      · rw [hnone j hj, List.append_nil]

/-- A write to the port does the same to both views: it stores under the same register,
or under none, or it selects the same index for both. -/
theorem ioWrite_view (htext : u.HasText) (hij : SameRegister i j) (offset data mask : LuaInt) :
    ∃ u' i' j', State.HasText u' ∧ SameRegister i' j' ∧ ∀ calls answers,
      twinkleIoWrite offset data mask (u.view i calls answers) =
        .ok (u'.view i' calls answers) ∧
      twinkleIoWrite offset data mask (u.view j calls answers) =
        .ok (u'.view j' calls answers) := by
  obtain ⟨cell, hcell⟩ := htext
  have hwrite (k : BitVec 8) (calls : List Call) (answers : List (Option LuaInt)) :
      twinkleIoWrite offset data mask (u.view k calls answers) =
        .ok ((portWrite offset data mask).elim (u.view k calls answers)
          ((u.view k calls answers).portNext k cell)) :=
    twinkleIoWrite_eq (s := u.view k calls answers) rfl hcell offset data mask
  cases hport : portWrite offset data mask with
  | none =>
    refine ⟨u, i, j, ⟨cell, hcell⟩, hij, fun calls answers => ⟨?_, ?_⟩⟩
    · rw [hwrite, hport, Option.elim_none]
    · rw [hwrite, hport, Option.elim_none]
  | some w =>
    cases w with
    | select k =>
      refine ⟨u, k, k, ⟨cell, hcell⟩, Or.inl rfl, fun calls answers => ⟨?_, ?_⟩⟩
      · rw [hwrite, hport]
        rfl
      · rw [hwrite, hport]
        rfl
    | store byte =>
      have hstore (k : BitVec 8) (calls : List Call) (answers : List (Option LuaInt)) :
          (u.view k calls answers).portNext k cell (.store byte) =
            { u with
              text16seg := textOf (Function.update cell k (some byte))
              calls := u.calls ++ storeCalls k byte }.view k calls answers := by
        simp [State.portNext, State.view]
      rcases hij with rfl | ⟨hi, hj⟩
      · refine ⟨{ u with
          text16seg := textOf (Function.update cell i (some byte))
          calls := u.calls ++ storeCalls i byte }, i, i, ⟨_, rfl⟩, Or.inl rfl,
          fun calls answers => ⟨?_, ?_⟩⟩
        · rw [hwrite, hport, Option.elim_some, hstore]
        · rw [hwrite, hport, Option.elim_some, hstore]
      · have hdead (k : BitVec 8) (hk : k ∉ liveIndices) :
            { u with
              text16seg := textOf (Function.update cell k (some byte))
              calls := u.calls ++ storeCalls k byte } = u := by
          rw [textOf_update_of_ne cell (ne_charIndex_of_not_live hk), storeCalls,
            lightAt_of_not_live hk, ← hcell]
          simp
        refine ⟨u, i, j, ⟨cell, hcell⟩, Or.inr ⟨hi, hj⟩, fun calls answers => ⟨?_, ?_⟩⟩
        · rw [hwrite, hport, Option.elim_some, hstore, hdead i hi]
        · rw [hwrite, hport, Option.elim_some, hstore, hdead j hj]

/-- A callback does the same to both views. -/
theorem step_view (htext : u.HasText) (hij : SameRegister i j) (e : Event) :
    ∃ u' i' j', State.HasText u' ∧ SameRegister i' j' ∧ ∀ calls answers,
      step (u.view i calls answers) e = .ok (u'.view i' calls answers) ∧
      step (u.view j calls answers) e = .ok (u'.view j' calls answers) := by
  cases e with
  | start systemName initResult results =>
    refine ⟨_, i, j, hasText_init htext systemName initResult results, hij,
      fun calls answers => ⟨?_, ?_⟩⟩
    · exact congrArg Except.ok (init_view u i calls answers systemName initResult results)
    · exact congrArg Except.ok (init_view u j calls answers systemName initResult results)
  | stop results =>
    refine ⟨_, i, j, hasText_deinit htext results, hij, fun calls answers => ⟨?_, ?_⟩⟩
    · exact congrArg Except.ok (deinit_view u i calls answers results)
    · exact congrArg Except.ok (deinit_view u j calls answers results)
  | frame results =>
    have hframe : (frameUpdate results u).HasText := by
      rw [frameUpdate_eq]
      exact htext
    refine ⟨_, i, j, hframe, hij, fun calls answers => ⟨?_, ?_⟩⟩
    · exact congrArg Except.ok (frameUpdate_view u i calls answers results)
    · exact congrArg Except.ok (frameUpdate_view u j calls answers results)
  | read tap offset data mask inputs =>
    by_cases htap : u.readCallback tap = true
    · obtain ⟨answer, new, hread⟩ := readTap_view (u := u) hij tap offset data mask inputs
      refine ⟨{ u with calls := u.calls ++ new, answers := u.answers ++ [answer] }, i, j, htext,
        hij, fun calls answers => ⟨?_, ?_⟩⟩
      · rw [step_read (s := u.view i calls answers) htap (hread calls answers).1]
        simp [State.view]
      · rw [step_read (s := u.view j calls answers) htap (hread calls answers).2]
        simp [State.view]
    · refine ⟨u, i, j, htext, hij, fun calls answers => ⟨?_, ?_⟩⟩
      · exact if_neg htap
      · exact if_neg htap
  | write tap offset data mask =>
    by_cases htap : u.writeCallback tap = true
    · cases tap with
      | twinkleIoWrite =>
        obtain ⟨u', i', j', htext', hij', hwrite⟩ := ioWrite_view htext hij offset data mask
        refine ⟨u', i', j', htext', hij', fun calls answers => ⟨?_, ?_⟩⟩
        · exact (if_pos htap).trans (hwrite calls answers).1
        · exact (if_pos htap).trans (hwrite calls answers).2
      | twinkleKeysWrite =>
        have hkeys : (twinkleKeysWrite offset data mask u).HasText := by
          rw [twinkleKeysWrite]
          split_ifs <;> exact htext
        refine ⟨_, i, j, hkeys, hij, fun calls answers => ⟨?_, ?_⟩⟩
        · exact (if_pos htap).trans
            (congrArg Except.ok (twinkleKeysWrite_view u i calls answers offset data mask))
        · exact (if_pos htap).trans
            (congrArg Except.ok (twinkleKeysWrite_view u j calls answers offset data mask))
    · refine ⟨u, i, j, htext, hij, fun calls answers => ⟨?_, ?_⟩⟩
      · exact if_neg htap
      · exact if_neg htap

/-- Two views of one state, at indices with the same behind them. -/
def Alike (s t : State) : Prop :=
  ∃ (u : State) (i j : BitVec 8) (calls calls' : List Call)
    (answers answers' : List (Option LuaInt)), u.calls = [] ∧ u.answers = [] ∧ u.HasText ∧
    SameRegister i j ∧ s = u.view i calls answers ∧ t = u.view j calls' answers'

theorem Alike.of_views {calls calls' : List Call} {answers answers' : List (Option LuaInt)}
    (htext : u.HasText) (hij : SameRegister i j) :
    Alike (u.view i calls answers) (u.view j calls' answers') := by
  refine ⟨{ u with calls := [], answers := [] }, i, j, calls ++ u.calls, calls' ++ u.calls,
    answers ++ u.answers, answers' ++ u.answers, rfl, rfl, htext, hij, ?_, ?_⟩
  · simp [State.view]
  · simp [State.view]

theorem Alike.indistinguishable {s t : State} (h : Alike s t) :
    Indistinguishable step State.calls State.answers s t := by
  refine .of_bisimulation Alike (fun s t e hst => ?_) h
  obtain ⟨u, i, j, calls, calls', answers, answers', hcalls, hanswers, htext, hij, rfl, rfl⟩ :=
    hst
  obtain ⟨u', i', j', htext', hij', hstep⟩ := step_view htext hij e
  refine ⟨_, _, (hstep calls answers).1, (hstep calls' answers').2, .of_views htext' hij',
    ⟨u'.calls, ?_, ?_⟩, u'.answers, ?_, ?_⟩
  · simp [State.view, hcalls]
  · simp [State.view, hcalls]
  · simp [State.view, hanswers]
  · simp [State.view, hanswers]

/-! ### Telling indices apart -/

/-- A read of the port, a byte stored in it, and a frame update. -/
def probe : List Event :=
  [.read .twinkleIoRead 0x1f220004 0 0xff ⟨0, 0, 0, fun _ => 0, fun _ => 0⟩,
    .write .twinkleIoWrite 0x1f220000 0 0xff, .frame ⟨true, true, true⟩]

/-- The backend calls of these, at an index. -/
def probeCalls (index : BitVec 8) : List Call :=
  readCalls .twinkleIoRead 0x1f220004 0xff (index.setWidth 64) ++ storeCalls index 0 ++
    frameCalls (textOf (Function.update (fun _ => none) index (some 0))) ⟨true, true, true⟩

theorem probeCalls_of_not_live (h : i ∉ liveIndices) :
    probeCalls i = frameCalls text16segBlank ⟨true, true, true⟩ := by
  have hread : readCalls .twinkleIoRead 0x1f220004 0xff (i.setWidth 64) = [] := by
    have hnone : readTap .twinkleIoRead 0x1f220004 0 0xff ⟨0, 0, 0, fun _ => 0, fun _ => 0⟩
        (State.load.view i [] []) = (none, State.load.view i [] []) :=
      readTap_eq_none rfl fun _ => ⟨rfl, not_served_of_not_live h⟩
    have hcalls := congrArg (fun r => r.2.calls) hnone
    rwa [readTap_eq, List.append_right_eq_self] at hcalls
  rw [probeCalls, hread, storeCalls, lightAt_of_not_live h,
    textOf_update_of_ne _ (ne_charIndex_of_not_live h), textOf_none]
  rfl

/-- Equal calls, and the same behind the two indices. -/
theorem sameRegister_of_probeCalls_eq (h : probeCalls i = probeCalls j) : SameRegister i j := by
  have hlive : ∀ i ∈ liveIndices, ∀ j ∈ liveIndices, probeCalls i = probeCalls j → i = j := by
    decide
  have hdead : ∀ i ∈ liveIndices,
      probeCalls i ≠ frameCalls text16segBlank ⟨true, true, true⟩ := by
    decide
  by_cases hi : i ∈ liveIndices
  · by_cases hj : j ∈ liveIndices
    · exact Or.inl (hlive i hi j hj h)
    · exact absurd (h.trans (probeCalls_of_not_live hj)) (hdead i hi)
  · by_cases hj : j ∈ liveIndices
    · exact absurd (h.symm.trans (probeCalls_of_not_live hi)) (hdead j hj)
    · exact Or.inr ⟨hi, hj⟩

/-- A plugin right after a start, but for its index and its logs. -/
def State.started : State where
  isInitialized := true
  readCallback := fun _ => true
  writeCallback := fun _ => true
  curIoOffset := 0
  text16seg := text16segBlank
  exited := false
  calls := []
  answers := []

theorem step_probeRead (i : BitVec 8) (calls : List Call) (answers : List (Option LuaInt)) :
    ∃ answers', step (State.started.view i calls answers)
      (.read .twinkleIoRead 0x1f220004 0 0xff ⟨0, 0, 0, fun _ => 0, fun _ => 0⟩) =
        .ok (State.started.view i
          (calls ++ readCalls .twinkleIoRead 0x1f220004 0xff (i.setWidth 64)) answers') := by
  refine ⟨answers ++ [(readTap .twinkleIoRead 0x1f220004 0 0xff
    ⟨0, 0, 0, fun _ => 0, fun _ => 0⟩ (State.started.view i calls answers)).1], ?_⟩
  refine (step_read (s := State.started.view i calls answers) rfl Prod.mk.eta.symm).trans ?_
  rw [readTap_eq]
  simp [State.view, State.started]

theorem step_probeWrite (i : BitVec 8) (calls : List Call) (answers : List (Option LuaInt)) :
    step (State.started.view i calls answers) (.write .twinkleIoWrite 0x1f220000 0 0xff) =
      .ok { State.started.view i (calls ++ storeCalls i 0) answers with
        text16seg := textOf (Function.update (fun _ => none) i (some 0)) } := by
  have hport := twinkleIoWrite_eq (s := State.started.view i calls answers) rfl
    textOf_none.symm 0x1f220000 0 0xff
  have hstore : portWrite 0x1f220000 0 0xff = some (.store 0) := rfl
  rw [hstore, Option.elim_some] at hport
  rw [step, if_pos (by rfl), writeTap, hport]
  simp [State.portNext, State.view, State.started]

theorem run_probe (i : BitVec 8) (calls : List Call) (answers : List (Option LuaInt)) :
    ∃ s, run (State.started.view i calls answers) probe = .ok s ∧
      s.calls = calls ++ probeCalls i := by
  obtain ⟨answers', hread⟩ := step_probeRead i calls answers
  let reads := calls ++ readCalls .twinkleIoRead 0x1f220004 0xff (i.setWidth 64)
  refine ⟨frameUpdate ⟨true, true, true⟩
    { State.started.view i (reads ++ storeCalls i 0) answers' with
      text16seg := textOf (Function.update (fun _ => none) i (some 0)) }, ?_, ?_⟩
  · rw [run, probe, runEvents, hread, Except.bind, runEvents, step_probeWrite]
    rfl
  · rw [frameUpdate_eq]
    simp [State.view, State.started, probeCalls, reads]

/-- Started plugins cannot be told apart exactly if they have the same behind their
indices. -/
theorem started_indistinguishable_iff (calls calls' : List Call)
    (answers answers' : List (Option LuaInt)) :
    Indistinguishable step State.calls State.answers (State.started.view i calls answers)
      (State.started.view j calls' answers') ↔ SameRegister i j := by
  constructor
  · intro h
    obtain ⟨s, hs, hcalls⟩ := run_probe i calls answers
    obtain ⟨t, ht, hcalls'⟩ := run_probe j calls' answers'
    obtain ⟨new, hnew, hnew'⟩ := h.sameGrowth hs ht
    rw [hcalls] at hnew
    rw [hcalls'] at hnew'
    refine sameRegister_of_probeCalls_eq ?_
    simp only [State.view, State.started, List.append_nil] at hnew hnew'
    rw [List.append_cancel_left hnew, List.append_cancel_left hnew']
  · intro hij
    exact (Alike.of_views ⟨fun _ => none, textOf_none.symm⟩ hij).indistinguishable

/-! ### Starts after a run -/

/-- The plugin never asks the machine to exit. -/
theorem exited_of_run {es : List Event} {s : State} (hrun : run .load es = .ok s) :
    s.exited = false := by
  refine State.of_run (P := fun s => s.exited = false) rfl (fun e s' hafter h hstep => ?_) hrun
  obtain ⟨cell, hshows⟩ := hafter.shows
  rcases hshows.step_cases hafter.initialized e with ⟨w, -, -, hok⟩ | ⟨-, calls, hok, -⟩ |
    ⟨-, -, -, hok⟩ | ⟨-, -, calls, hok, -⟩ | ⟨-, -, -, calls, answers, hok, -, -⟩
  all_goals obtain rfl := Except.ok.inj (hok.symm.trans hstep)
  · cases w <;> exact h
  all_goals exact h

/-- After a successful start the plugin is the started one, at the index selected last. -/
theorem step_start {es : List Event} {s : State} (hrun : run .load es = .ok s) {e : Event}
    (he : s.Starts e) :
    ∃ calls answers, step s e =
      .ok (State.started.view (selected 0 (seenWrites es)) calls answers) := by
  obtain ⟨cell, hshows⟩ := (State.after_of_run hrun).shows
  cases e with
  | start systemName initResult results =>
    obtain ⟨hclosed, hname, rfl⟩ := he
    refine ⟨s.calls ++ .iidxioInit true :: offCalls ++ frameCalls text16segBlank results,
      s.answers, ?_⟩
    rw [step, init_eq hclosed hname, hshows.index, exited_of_run hrun]
    simp [State.view, State.started]
  | _ => cases he

/-- **Which restarts differ.** Take two histories of the plugin, each followed by a
successful start. No further callbacks can tell the two plugins apart, neither by calls
of the backend nor by answers to reads, exactly if the histories selected the same index
last, or both selected one that nothing is behind. -/
theorem restart_indistinguishable_iff (es es' : List Event) {s s' : State}
    (hrun : run .load es = .ok s) (hrun' : run .load es' = .ok s') {e e' : Event}
    (he : s.Starts e) (he' : s'.Starts e') :
    ∃ s₁ s₁', step s e = .ok s₁ ∧ step s' e' = .ok s₁' ∧
      (Indistinguishable step State.calls State.answers s₁ s₁' ↔
        SameRegister (selected 0 (seenWrites es)) (selected 0 (seenWrites es'))) := by
  obtain ⟨calls, answers, hstep⟩ := step_start hrun he
  obtain ⟨calls', answers', hstep'⟩ := step_start hrun' he'
  exact ⟨_, _, hstep, hstep', started_indistinguishable_iff calls calls' answers answers'⟩

/-- A session that selected the panel lights leaves them selected for the next one. -/
theorem restart_indistinguishable_panel :
    ∃ s s' s₁ s₁', run .load [.start "bmiidxa".toList true ⟨true, true, true⟩,
        .write .twinkleIoWrite 0x1f220000 0x370000 0xff0000, .stop ⟨true, true, true⟩] = .ok s ∧
      run .load [] = .ok s' ∧
      step s (.start "bmiidxa".toList true ⟨true, true, true⟩) = .ok s₁ ∧
      step s' (.start "bmiidxa".toList true ⟨true, true, true⟩) = .ok s₁' ∧
      ¬Indistinguishable step State.calls State.answers s₁ s₁' := by
  have hstarts (s : State) (hs : s.isInitialized = false) :
      s.Starts (.start "bmiidxa".toList true ⟨true, true, true⟩) := ⟨hs, rfl, rfl⟩
  obtain ⟨s₁, s₁', hstep, hstep', hiff⟩ := restart_indistinguishable_iff
    [.start "bmiidxa".toList true ⟨true, true, true⟩,
      .write .twinkleIoWrite 0x1f220000 0x370000 0xff0000, .stop ⟨true, true, true⟩] [] rfl rfl
    (hstarts _ rfl) (hstarts _ rfl)
  refine ⟨_, _, s₁, s₁', rfl, rfl, hstep, hstep', fun h => ?_⟩
  rcases hiff.mp h with heq | ⟨hlive, -⟩
  · exact absurd heq (by decide)
  · exact hlive (by decide)

end MamePlugins.Iidxio
