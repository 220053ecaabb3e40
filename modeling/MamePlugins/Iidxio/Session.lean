import MamePlugins.Library.Brackets
import MamePlugins.Iidxio.PortModel
import Mathlib.Data.List.TakeWhile

/-!
# Runs of the plugin

One lemma says what each callback can do; the rest follows from it. Over any run
the text buffer stays well-formed, so no callback fails. From a start to the next
stop the text and the lights are those of the register file behind the port.
-/

namespace MamePlugins.Iidxio

open Library

/-! ### What a callback can do -/

/-- The write to the port that a callback brings. -/
def Event.portWrite : Event → Option (PortWrite (BitVec 8) (BitVec 8))
  | .write .twinkleIoWrite offset data mask => Iidxio.portWrite offset data mask
  | _ => none

/-- A machine start that finds a supported system, and so has the taps installed. -/
def Event.installs : Event → Bool
  | .start systemName _ _ => isSupported systemName
  | _ => false

/-- A callback that is a successful start. -/
def State.Starts (s : State) : Event → Prop
  | .start systemName initResult _ =>
    s.isInitialized = false ∧ isSupported systemName = true ∧ initResult = true
  | _ => False

/-- The index in force and the text of a register file. -/
structure State.Shows (s : State) (f : PortFile (BitVec 8) (BitVec 8)) : Prop where
  index : s.curIoOffset = f.index.setWidth 64
  text : s.text16seg = textOf f.cell

def Call.use : Call → Use
  | .iidxioInit true => .opened
  | .iidxioInit false => .refused
  | .iidxioFini => .closed
  | _ => .used

/-- A call that uses the backend, and sets no light of the port. -/
def Call.IsQuiet (c : Call) : Prop := c.portLight = none ∧ c.use = .used

/-- A tap access that has the plugin call the backend: a byte for a light, a write
of the key lights, or a read of inputs. -/
def State.TapCalls (s : State) : Event → Prop
  | .write .twinkleIoWrite offset _ mask =>
    s.writeCallback .twinkleIoWrite = true ∧ offset = 0x1f220000 ∧ mask = 0xff ∧
      ∃ l : PortLight, s.curIoOffset = l.index.setWidth 64
  | .write .twinkleKeysWrite offset _ mask =>
    s.writeCallback .twinkleKeysWrite = true ∧ offset = 0x1f250000 ∧ mask = 0xff
  | .read .twinkleIoRead offset _ mask _ =>
    s.readCallback .twinkleIoRead = true ∧ offset = 0x1f220004 ∧ mask = 0xff ∧
      s.curIoOffset ∈ ([0x07, 0x0f, 0x17, 0x1f, 0x27, 0x2f] : List LuaInt)
  | .read .twinkleKeysRead offset _ mask _ =>
    s.readCallback .twinkleKeysRead = true ∧ offset = 0x1f240000 ∧ mask = 0xffff
  | _ => False

/-- The backend calls of a frame update. An error of the backend ends it. -/
def frameCalls (text : LuaString) (results : FrameResults) : List Call :=
  .iidxioEp3Write16seg text results.ep3Write16seg ::
    if results.ep3Write16seg = false then []
    else .iidxioEp1Send results.ep1Send ::
      if results.ep1Send = false then [] else [.iidxioEp2Recv results.ep2Recv]

theorem frameCalls_quiet (text : LuaString) (results : FrameResults) :
    ∀ c ∈ frameCalls text results, c.IsQuiet := by
  rw [frameCalls]
  split_ifs <;> simp [Call.IsQuiet, Call.portLight, Call.use]

/-- A frame update calls the backend in a session, and does nothing outside it. -/
theorem frameUpdate_eq (results : FrameResults) (s : State) :
    frameUpdate results s = { s with
      calls := s.calls ++
        if s.isInitialized = true then frameCalls s.text16seg results else [] } := by
  unfold frameUpdate frameCalls
  by_cases hs : s.isInitialized = true
  · rw [if_neg (not_not.mpr hs), if_pos hs]
    dsimp only
    split_ifs <;> simp [State.call]
  · rw [if_pos hs, if_neg hs, List.append_nil]

/-- The backend calls of a read at its tap. -/
def readCalls (tap : ReadTap) (offset mask curIoOffset : LuaInt) : List Call :=
  match tap with
  | .twinkleIoRead =>
    if offset = 0x1f220004 ∧ mask = 0xff then
      if curIoOffset = 0x07 then [.iidxioEp2GetPanel, .iidxioEp2GetSys]
      else if curIoOffset = 0x0f then [.iidxioEp2GetTurntable 1]
      else if curIoOffset = 0x17 then [.iidxioEp2GetTurntable 0]
      else if curIoOffset = 0x1f then [.iidxioEp2GetSlider 0, .iidxioEp2GetSlider 1]
      else if curIoOffset = 0x27 then [.iidxioEp2GetSlider 2, .iidxioEp2GetSlider 3]
      else if curIoOffset = 0x2f then [.iidxioEp2GetSlider 4]
      else []
    else []
  | .twinkleKeysRead =>
    if offset = 0x1f240000 ∧ mask = 0xffff then [.iidxioEp2GetKeys, .iidxioEp2GetSys] else []

/-- A read only asks the backend for inputs. -/
theorem readTap_eq (tap : ReadTap) (offset data mask : LuaInt) (inputs : Inputs) (s : State) :
    (readTap tap offset data mask inputs s).2 =
      { s with calls := s.calls ++ readCalls tap offset mask s.curIoOffset } := by
  cases tap with
  | twinkleIoRead =>
    simp only [readTap, twinkleIoRead, enableGameExitButtonCombination, Bool.false_eq_true,
      false_and, if_false, readSliders, State.call, readCalls]
    split_ifs <;> simp
  | twinkleKeysRead =>
    simp only [readTap, twinkleKeysRead, State.call, readCalls]
    split_ifs <;> simp

theorem readCalls_quiet (tap : ReadTap) (offset mask curIoOffset : LuaInt) :
    ∀ c ∈ readCalls tap offset mask curIoOffset, c.IsQuiet := by
  unfold readCalls
  cases tap with
  | twinkleIoRead =>
    dsimp only
    split_ifs <;> simp [Call.IsQuiet, Call.portLight, Call.use]
  | twinkleKeysRead =>
    dsimp only
    split_ifs <;> simp [Call.IsQuiet, Call.portLight, Call.use]

/-- A read reaches the backend only at the right addresses. -/
theorem readCalls_ne_nil_iff {s : State} {tap : ReadTap} (htap : s.readCallback tap = true)
    (offset data mask : LuaInt) (inputs : Inputs) :
    readCalls tap offset mask s.curIoOffset ≠ [] ↔
      s.TapCalls (.read tap offset data mask inputs) := by
  rw [readCalls.eq_def]
  cases tap with
  | twinkleIoRead =>
    dsimp only
    by_cases hhandled : offset = 0x1f220004 ∧ mask = 0xff
    · have hserved : s.TapCalls (.read .twinkleIoRead offset data mask inputs) ↔
          s.curIoOffset ∈ ([0x07, 0x0f, 0x17, 0x1f, 0x27, 0x2f] : List LuaInt) :=
        ⟨fun h => h.2.2.2, fun h => ⟨htap, hhandled.1, hhandled.2, h⟩⟩
      rw [if_pos hhandled, hserved]
      simp only [List.mem_cons, List.not_mem_nil, or_false]
      split_ifs with h07 h0f h17 h1f h27 h2f
      · exact iff_of_true (by simp) (Or.inl h07)
      · exact iff_of_true (by simp) (Or.inr (Or.inl h0f))
      · exact iff_of_true (by simp) (Or.inr (Or.inr (Or.inl h17)))
      · exact iff_of_true (by simp) (Or.inr (Or.inr (Or.inr (Or.inl h1f))))
      · exact iff_of_true (by simp) (Or.inr (Or.inr (Or.inr (Or.inr (Or.inl h27)))))
      · exact iff_of_true (by simp) (Or.inr (Or.inr (Or.inr (Or.inr (Or.inr h2f)))))
      · simp only [h07, h0f, h17, h1f, h27, h2f, or_self, ne_eq, not_true_eq_false]
    · rw [if_neg hhandled]
      exact iff_of_false (by simp) fun h => hhandled ⟨h.2.1, h.2.2.1⟩
  | twinkleKeysRead =>
    dsimp only
    by_cases hhandled : offset = 0x1f240000 ∧ mask = 0xffff
    · rw [if_pos hhandled]
      exact iff_of_true (by simp) ⟨htap, hhandled⟩
    · rw [if_neg hhandled]
      exact iff_of_false (by simp) fun h => hhandled h.2

/-- The calls that switch everything off. -/
def offCalls : List Call :=
  [.iidxioEp1SetDeckLights 0, .iidxioEp1SetPanelLights 0, .iidxioEp1SetTopLamps 0,
    .iidxioEp1SetTopNeons 0]

theorem offCalls_used : ∀ c ∈ offCalls, c.use = .used := by
  decide

/-- A successful start, written out. -/
theorem init_eq {s : State} {systemName : List Char} (hs : s.isInitialized = false)
    (hname : isSupported systemName = true) (results : FrameResults) :
    init systemName true results s = { s with
      isInitialized := true
      readCallback := fun _ => true
      writeCallback := fun _ => true
      text16seg := text16segBlank
      calls := s.calls ++ .iidxioInit true :: offCalls ++ frameCalls text16segBlank results } := by
  rw [init, if_neg (by simp [hs]), if_neg (not_not.mpr hname)]
  dsimp only
  rw [if_neg (by decide), frameUpdate_eq, if_pos rfl]
  simp [switchEverythingOff, State.call, offCalls]

/-- The backend calls of a stop. -/
def stopCalls (results : FrameResults) : List Call :=
  offCalls ++ frameCalls text16segBlank results ++ [.iidxioFini]

/-- A stop of a started plugin, written out. -/
theorem deinit_eq {s : State} (hs : s.isInitialized = true) (results : FrameResults) :
    deinit results s = { s with
      isInitialized := false
      text16seg := text16segBlank
      calls := s.calls ++ stopCalls results } := by
  have hoff : (switchEverythingOff s).isInitialized = true := hs
  rw [deinit, if_neg (not_not.mpr hs)]
  dsimp only
  rw [frameUpdate_eq, if_pos hoff]
  simp [switchEverythingOff, State.call, offCalls, stopCalls]

/-- Before the backend is closed, a stop only uses it. -/
theorem stopCalls_used (results : FrameResults) :
    ∃ calls, stopCalls results = calls ++ [.iidxioFini] ∧ ∀ c ∈ calls, c.use = .used := by
  refine ⟨_, rfl, fun c hc => ?_⟩
  rcases List.mem_append.mp hc with hc | hc
  · exact offCalls_used c hc
  · exact (frameCalls_quiet _ results c hc).2

/-- A callback that only calls the backend, to use it. An idle plugin does so exactly
for the tap accesses above. -/
def State.OnlyCalls (s : State) (e : Event) : Prop :=
  ∃ calls answers, step s e = .ok { s with calls := s.calls ++ calls, answers := answers } ∧
    (∀ c ∈ calls, c.IsQuiet) ∧ (s.isInitialized = false → (calls ≠ [] ↔ s.TapCalls e))

theorem State.OnlyCalls.of_same {s : State} {e : Event} (hstep : step s e = .ok s)
    (hnot : ¬s.TapCalls e) : s.OnlyCalls e :=
  ⟨[], s.answers, by simpa using hstep, by simp, fun _ => by simpa using hnot⟩

theorem State.onlyCalls_frame (s : State) (results : FrameResults) :
    s.OnlyCalls (.frame results) := by
  refine ⟨_, s.answers, congrArg Except.ok (frameUpdate_eq results s), fun c hc => ?_,
    fun hclosed => ?_⟩
  · split_ifs at hc
    · exact frameCalls_quiet _ results c hc
    · cases hc
  · simp [hclosed, State.TapCalls]

theorem State.onlyCalls_read (s : State) (tap : ReadTap) (offset data mask : LuaInt)
    (inputs : Inputs) : s.OnlyCalls (.read tap offset data mask inputs) := by
  by_cases htap : s.readCallback tap = true
  · refine ⟨_, s.answers ++ [(readTap tap offset data mask inputs s).1], ?_,
      readCalls_quiet tap offset mask s.curIoOffset,
      fun _ => readCalls_ne_nil_iff htap offset data mask inputs⟩
    rw [step, if_pos htap]
    dsimp only
    rw [readTap_eq]
  · refine .of_same (by rw [step, if_neg htap]) fun h => htap ?_
    cases tap <;> exact h.1

theorem State.onlyCalls_keysWrite (s : State) (offset data mask : LuaInt) :
    s.OnlyCalls (.write .twinkleKeysWrite offset data mask) := by
  by_cases htap : s.writeCallback .twinkleKeysWrite = true
  · rw [State.OnlyCalls, step, if_pos htap, writeTap, twinkleKeysWrite]
    dsimp only
    split_ifs with hhandled
    · exact ⟨[_], s.answers, rfl, by simp [Call.IsQuiet, Call.portLight, Call.use],
        fun _ => iff_of_true (by simp) ⟨htap, hhandled⟩⟩
    · exact ⟨[], s.answers, by simp, by simp,
        fun _ => iff_of_false (by simp) fun h => hhandled h.2⟩
  · exact .of_same (by rw [step, if_neg htap]) fun h => htap h.1

/-- An access to the port writes to it or does nothing. -/
theorem State.Shows.ioWrite_cases {s : State} {f : PortFile (BitVec 8) (BitVec 8)} (h : s.Shows f)
    (offset data mask : LuaInt) :
    (∃ w, Iidxio.portWrite offset data mask = some w ∧ s.writeCallback .twinkleIoWrite = true ∧
        step s (.write .twinkleIoWrite offset data mask) = .ok (s.portNext f.index f.cell w)) ∨
      ((Iidxio.portWrite offset data mask = none ∨ s.writeCallback .twinkleIoWrite = false) ∧
        s.OnlyCalls (.write .twinkleIoWrite offset data mask)) := by
  by_cases htap : s.writeCallback .twinkleIoWrite = true
  · have hwrite := twinkleIoWrite_eq h.index h.text offset data mask
    cases hport : Iidxio.portWrite offset data mask with
    | some w =>
      left
      exact ⟨w, rfl, htap, by rw [step, if_pos htap, writeTap, hwrite, hport]; rfl⟩
    | none =>
      right
      refine ⟨Or.inl rfl, .of_same (by rw [step, if_pos htap, writeTap, hwrite, hport]; rfl) ?_⟩
      rintro ⟨-, hoffset, hmask, -⟩
      rw [Iidxio.portWrite, if_pos ⟨hoffset, hmask⟩] at hport
      cases hport
  · right
    exact ⟨Or.inr (by simpa using htap), .of_same (by rw [step, if_neg htap]) fun h => htap h.1⟩

/-- What a callback can do: write to the port, start the plugin, fail to, stop it, or
only call the backend. It never fails. -/
theorem State.Shows.step_cases {s : State} {f : PortFile (BitVec 8) (BitVec 8)} (h : s.Shows f)
    (hinstalled : s.isInitialized = true → s.writeCallback .twinkleIoWrite = true) (e : Event) :
    (∃ w, e.portWrite = some w ∧ s.writeCallback .twinkleIoWrite = true ∧
        step s e = .ok (s.portNext f.index f.cell w)) ∨
      (s.Starts e ∧ ∃ calls,
        step s e = .ok { s with
          isInitialized := true
          readCallback := fun _ => true
          writeCallback := fun _ => true
          text16seg := text16segBlank
          calls := s.calls ++ .iidxioInit true :: offCalls ++ calls } ∧
        ∀ c ∈ calls, c.IsQuiet) ∨
      ((∃ systemName results, e = .start systemName false results) ∧ e.installs = true ∧
        s.isInitialized = false ∧
        step s e = .ok { s with
          readCallback := fun _ => true
          writeCallback := fun _ => true
          calls := s.calls ++ [.iidxioInit false] }) ∨
      ((∃ results, e = .stop results) ∧ s.isInitialized = true ∧ ∃ calls,
        step s e = .ok { s with
          isInitialized := false
          text16seg := text16segBlank
          calls := s.calls ++ calls ++ [.iidxioFini] } ∧
        ∀ c ∈ calls, c.use = .used) ∨
      ((e.portWrite = none ∨ s.writeCallback .twinkleIoWrite = false) ∧ ¬s.Starts e ∧
        (e.installs = true → s.writeCallback .twinkleIoWrite = true) ∧ s.OnlyCalls e) := by
  have hnever (h : e.installs = false) :
      e.installs = true → s.writeCallback .twinkleIoWrite = true := by
    simp [h]
  cases e with
  | start systemName initResult results =>
    by_cases hs : s.isInitialized = true
    · right; right; right; right
      exact ⟨Or.inl rfl, by simp [State.Starts, hs], fun _ => hinstalled hs,
        .of_same (by simp [step, init, hs]) id⟩
    · have hclosed : s.isInitialized = false := by simpa using hs
      by_cases hname : isSupported systemName = true
      · cases initResult with
        | true =>
          right; left
          exact ⟨⟨hclosed, hname, rfl⟩, _, congrArg Except.ok (init_eq hclosed hname results),
            frameCalls_quiet _ results⟩
        | false =>
          right; right; left
          exact ⟨⟨systemName, results, rfl⟩, hname, hclosed,
            by simp [step, init, hclosed, hname, State.call]⟩
      · right; right; right; right
        exact ⟨Or.inl rfl, by simp [State.Starts, hname], fun h => absurd h hname,
          .of_same (by simp [step, init, hclosed, hname]) id⟩
  | stop results =>
    by_cases hs : s.isInitialized = true
    · right; right; right; left
      obtain ⟨calls, hcalls, hused⟩ := stopCalls_used results
      have hdeinit := deinit_eq hs results
      rw [hcalls, ← List.append_assoc] at hdeinit
      exact ⟨⟨results, rfl⟩, hs, calls, congrArg Except.ok hdeinit, hused⟩
    · right; right; right; right
      exact ⟨Or.inl rfl, id, hnever rfl, .of_same (by simp [step, deinit, hs]) id⟩
  | frame results =>
    right; right; right; right
    exact ⟨Or.inl rfl, id, hnever rfl, s.onlyCalls_frame results⟩
  | read tap offset data mask inputs =>
    right; right; right; right
    exact ⟨Or.inl rfl, id, hnever rfl, s.onlyCalls_read tap offset data mask inputs⟩
  | write tap offset data mask =>
    cases tap with
    | twinkleIoWrite =>
      rcases h.ioWrite_cases offset data mask with hwrite | ⟨hport, hcalls⟩
      · exact Or.inl hwrite
      · right; right; right; right
        exact ⟨hport, id, hnever rfl, hcalls⟩
    | twinkleKeysWrite =>
      right; right; right; right
      exact ⟨Or.inl rfl, id, hnever rfl, s.onlyCalls_keysWrite offset data mask⟩

/-! ### All runs -/

/-- The writes to the port that find its tap installed. -/
def seenWrites (es : List Event) : List (PortWrite (BitVec 8) (BitVec 8)) :=
  (es.dropWhile fun e => !e.installs).filterMap Event.portWrite

theorem seenWrites_concat (es : List Event) (e : Event) :
    seenWrites (es ++ [e]) =
      seenWrites es ++ (if es.any Event.installs then e.portWrite else none).toList := by
  rw [seenWrites, seenWrites, List.dropWhile_append]
  cases hdropped : es.dropWhile fun e => !e.installs with
  | nil =>
    have hnone : es.any Event.installs = false := by
      simpa [List.dropWhile_eq_nil_iff] using hdropped
    rw [hnone]
    cases e with
    | start systemName initResult results =>
      cases hname : Event.installs (.start systemName initResult results) <;>
        simp [hname, Event.portWrite]
    | _ => simp [Event.installs]
  | cons e' es' =>
    have hsome : es.any Event.installs = true := by
      by_contra hnone
      have hnil : (es.dropWhile fun e => !e.installs) = [] := by
        simpa [List.dropWhile_eq_nil_iff] using hnone
      rw [hdropped] at hnil
      cases hnil
    rw [hsome]
    rw [if_pos rfl, if_neg (by simp), List.filterMap_append]
    rfl

/-- What holds after any run: the tap is there since the first start that found a
supported system, and the index is the one selected last. -/
structure State.After (s : State) (es : List Event) : Prop where
  installed : s.writeCallback .twinkleIoWrite = es.any Event.installs
  initialized : s.isInitialized = true → s.writeCallback .twinkleIoWrite = true
  shows : ∃ cell, s.Shows ⟨selected 0 (seenWrites es), cell⟩

theorem State.After.next {s : State} {es : List Event} (h : s.After es) (e : Event) :
    ∃ s', step s e = .ok s' ∧ s'.After (es ++ [e]) := by
  obtain ⟨cell, hshows⟩ := h.shows
  have hany : (es ++ [e]).any Event.installs =
      (s.writeCallback .twinkleIoWrite || e.installs) := by
    rw [List.any_append, h.installed]
    simp
  have hkept (hquiet : e.portWrite = none ∨ s.writeCallback .twinkleIoWrite = false) :
      selected 0 (seenWrites (es ++ [e])) = selected 0 (seenWrites es) := by
    rw [seenWrites_concat, ← h.installed]
    rcases hquiet with hport | htap
    · simp [hport]
    · simp [htap]
  rcases hshows.step_cases h.initialized e with ⟨w, hport, htap, hstep⟩ |
    ⟨hstarts, calls, hstep, -⟩ | ⟨⟨systemName, results, rfl⟩, hinstalls, -, hstep⟩ |
    ⟨⟨results, rfl⟩, -, calls, hstep, -⟩ | ⟨hquiet, -, hinstalls, calls, answers, hstep, -, -⟩
  · have hinstalls : e.installs = false := by
      cases e <;> first | rfl | cases hport
    have hindex : selected 0 (seenWrites (es ++ [e])) =
        selected (selected 0 (seenWrites es)) [w] := by
      rw [seenWrites_concat, ← h.installed, htap, if_pos rfl, hport, Option.toList_some,
        selected_append]
    refine ⟨_, hstep, ?_⟩
    cases w with
    | select i =>
      exact ⟨by rw [hany, hinstalls, Bool.or_false]; rfl, fun _ => htap,
        cell, by rw [hindex]; rfl, hshows.text⟩
    | store data =>
      exact ⟨by rw [hany, hinstalls, Bool.or_false]; rfl, fun _ => htap,
        Function.update cell (selected 0 (seenWrites es)) (some data),
        by rw [hindex]; exact hshows.index, rfl⟩
  · have hport : e.portWrite = none := by
      cases e <;> first | rfl | cases hstarts
    have hinstalls : e.installs = true := by
      cases e <;> first | exact hstarts.2.1 | cases hstarts
    exact ⟨_, hstep, by rw [hany, hinstalls, Bool.or_true], fun _ => rfl, fun _ => none,
      by rw [hkept (Or.inl hport)]; exact hshows.index, textOf_none.symm⟩
  · exact ⟨_, hstep, by rw [hany, hinstalls, Bool.or_true], fun _ => rfl, cell,
      by rw [hkept (Or.inl rfl)]; exact hshows.index, hshows.text⟩
  · exact ⟨_, hstep, by rw [hany]; simp [Event.installs], by simp, fun _ => none,
      by rw [hkept (Or.inl rfl)]; exact hshows.index, textOf_none.symm⟩
  · exact ⟨_, hstep, by rw [hany, Bool.or_eq_left_iff_imp.mpr hinstalls], h.initialized, cell,
      by rw [hkept hquiet]; exact hshows.index, hshows.text⟩

theorem State.load_after : State.load.After [] :=
  ⟨rfl, by simp [State.load], fun _ => none, rfl, textOf_none.symm⟩

/-- No run fails. -/
theorem run_load (es : List Event) : ∃ s, run .load es = .ok s ∧ s.After es :=
  runEvents_history (fun _ => True) (fun es (s : State) => s.After es) State.load_after
    (fun _ e _ _ h => h.next e) es fun _ _ => trivial

theorem State.after_of_run {es : List Event} {s : State} (hrun : run .load es = .ok s) :
    s.After es := by
  obtain ⟨s', hrun', hafter⟩ := run_load es
  have heq : s' = s := Except.ok.inj (hrun'.symm.trans hrun)
  exact heq ▸ hafter

/-- What holds of the loaded plugin and is preserved by every callback holds after any
run. -/
theorem State.of_run {P : State → Prop} (hload : P .load)
    (hnext : ∀ {es s} e s', State.After s es → P s → step s e = .ok s' → P s')
    {es : List Event} {s : State} (hrun : run .load es = .ok s) : P s := by
  obtain ⟨s', hrun', -, hP⟩ := runEvents_history (fun _ => True)
    (fun es s => State.After s es ∧ P s) ⟨State.load_after, hload⟩ (fun es e s _ hs => by
      obtain ⟨s', hstep, hs'⟩ := hs.1.next e
      exact ⟨s', hstep, hs', hnext e s' hs.1 hs.2 hstep⟩) es fun _ _ => trivial
  exact Except.ok.inj (hrun'.symm.trans hrun) ▸ hP

/-! ### The calls of a callback -/

/-- The backend calls of a callback. -/
def State.callsOf (s : State) : Event → List Call
  | .start systemName initResult results =>
    if s.isInitialized = false ∧ isSupported systemName = true then
      .iidxioInit initResult ::
        if initResult = true then offCalls ++ frameCalls text16segBlank results else []
    else []
  | .stop results => if s.isInitialized = true then stopCalls results else []
  | .frame results => if s.isInitialized = true then frameCalls s.text16seg results else []
  | .read tap offset _ mask _ =>
    if s.readCallback tap = true then readCalls tap offset mask s.curIoOffset else []
  | .write .twinkleIoWrite offset data mask =>
    if s.writeCallback .twinkleIoWrite = true ∧ offset = 0x1f220000 ∧ mask = 0xff then
      storeCalls (s.curIoOffset.setWidth 8) (data.setWidth 8)
    else []
  | .write .twinkleKeysWrite offset data mask =>
    if s.writeCallback .twinkleKeysWrite = true ∧ offset = 0x1f250000 ∧ mask = 0xff then
      [.iidxioEp1SetDeckLights (data &&& 0xffff &&& 0x3fff)]
    else []

theorem init_calls (s : State) (systemName : List Char) (initResult : Bool)
    (results : FrameResults) : (init systemName initResult results s).calls =
      s.calls ++ s.callsOf (.start systemName initResult results) := by
  rw [State.callsOf]
  by_cases hs : s.isInitialized = true
  · simp [init, hs]
  · have hclosed : s.isInitialized = false := by simpa using hs
    by_cases hname : isSupported systemName = true
    · rw [if_pos ⟨hclosed, hname⟩]
      cases initResult with
      | true =>
        rw [init_eq hclosed hname, if_pos rfl]
        simp
      | false => simp [init, hclosed, hname, State.call]
    · simp [init, hclosed, hname]

/-- A callback appends its calls to those before it. -/
theorem step_calls {s s' : State} {es : List Event} (hafter : s.After es) {e : Event}
    (hstep : step s e = .ok s') : s'.calls = s.calls ++ s.callsOf e := by
  cases e with
  | start systemName initResult results =>
    obtain rfl := Except.ok.inj hstep
    exact init_calls s systemName initResult results
  | stop results =>
    obtain rfl := Except.ok.inj hstep
    rw [State.callsOf]
    by_cases hs : s.isInitialized = true
    · rw [deinit_eq hs, if_pos hs]
    · simp [deinit, hs]
  | frame results =>
    obtain rfl := Except.ok.inj hstep
    rw [frameUpdate_eq, State.callsOf]
  | read tap offset data mask inputs =>
    rw [State.callsOf]
    rw [step] at hstep
    split_ifs at hstep with htap
    · have hcalls := congrArg State.calls (readTap_eq tap offset data mask inputs s)
      obtain rfl := Except.ok.inj hstep
      rw [if_pos htap]
      exact hcalls
    · obtain rfl := Except.ok.inj hstep
      rw [if_neg htap, List.append_nil]
  | write tap offset data mask =>
    rw [step] at hstep
    cases tap with
    | twinkleIoWrite =>
      rw [State.callsOf]
      split_ifs at hstep with htap
      · obtain ⟨cell, hshows⟩ := hafter.shows
        rw [writeTap, twinkleIoWrite_eq hshows.index hshows.text, portWrite] at hstep
        obtain rfl := Except.ok.inj hstep
        have hindex : s.curIoOffset.setWidth 8 = selected 0 (seenWrites es) := by
          rw [hshows.index, BitVec.setWidth_setWidth_of_le _ (by decide), BitVec.setWidth_eq]
        by_cases hstore : offset = 0x1f220000 ∧ mask = 0xff
        · rw [if_pos hstore, if_pos ⟨htap, hstore⟩, hindex]
          rfl
        · have hnone : ¬(s.writeCallback .twinkleIoWrite = true ∧ offset = 0x1f220000 ∧
              mask = 0xff) := fun h => hstore h.2
          rw [if_neg hstore, if_neg hnone, List.append_nil]
          split_ifs <;> rfl
      · obtain rfl := Except.ok.inj hstep
        rw [if_neg (fun h => htap h.1), List.append_nil]
    | twinkleKeysWrite =>
      rw [State.callsOf]
      split_ifs at hstep with htap
      · rw [writeTap, twinkleKeysWrite] at hstep
        obtain rfl := Except.ok.inj hstep
        by_cases hkeys : offset = 0x1f250000 ∧ mask = 0xff
        · rw [if_pos hkeys, if_pos ⟨htap, hkeys⟩]
          rfl
        · rw [if_neg hkeys, if_neg (fun h => hkeys h.2), List.append_nil]
      · obtain rfl := Except.ok.inj hstep
        rw [if_neg (fun h => htap h.1), List.append_nil]

/-! ### A session -/

/-- A started plugin is in a session: there is a last successful start, and no stop
since. -/
theorem exists_session (es : List Event) : ∃ s, run .load es = .ok s ∧
    (s.isInitialized = true → ∃ before start session s₀, es = before ++ start :: session ∧
      run .load before = .ok s₀ ∧ s₀.Starts start ∧
      ∀ e ∈ session, ∀ results, e ≠ .stop results) := by
  induction es using List.reverseRecOn with
  | nil => exact ⟨.load, rfl, fun h => by cases h⟩
  | append_singleton es e ih =>
    obtain ⟨s, hrun, hsession⟩ := ih
    have hafter := State.after_of_run hrun
    obtain ⟨cell, hshows⟩ := hafter.shows
    have hkept (hinit : s.isInitialized = true) (he : ∀ results, e ≠ .stop results) :
        ∃ before start session s₀, es ++ [e] = before ++ start :: session ∧
          run .load before = .ok s₀ ∧ s₀.Starts start ∧
          ∀ e ∈ session, ∀ results, e ≠ .stop results := by
      obtain ⟨before, start, session, s₀, rfl, hbefore, hstart, hnone⟩ := hsession hinit
      refine ⟨before, start, session ++ [e], s₀, by simp, hbefore, hstart, fun e' he' => ?_⟩
      rcases List.mem_append.mp he' with hold | hnew
      · exact hnone e' hold
      · rwa [List.mem_singleton.mp hnew]
    rcases hshows.step_cases hafter.initialized e with ⟨w, hport, -, hstep⟩ |
      ⟨hstarts, calls, hstep, -⟩ | ⟨-, -, hclosed, hstep⟩ | ⟨-, -, calls, hstep, -⟩ |
      ⟨-, -, -, calls, answers, hstep, -, -⟩
    · refine ⟨_, runEvents_concat.mpr ⟨s, hrun, hstep⟩, fun hinit => hkept ?_ ?_⟩
      · cases w <;> exact hinit
      · rintro results rfl
        cases hport
    · refine ⟨_, runEvents_concat.mpr ⟨s, hrun, hstep⟩, fun _ => ?_⟩
      exact ⟨es, e, [], s, rfl, hrun, hstarts, by simp⟩
    · refine ⟨_, runEvents_concat.mpr ⟨s, hrun, hstep⟩, fun hinit => ?_⟩
      exact absurd (hclosed.symm.trans hinit) Bool.false_ne_true
    · exact ⟨_, runEvents_concat.mpr ⟨s, hrun, hstep⟩, fun hinit => by cases hinit⟩
    · refine ⟨_, runEvents_concat.mpr ⟨s, hrun, hstep⟩, fun hinit => hkept hinit ?_⟩
      rintro results rfl
      have hdeinit : deinit results s = { s with
          calls := s.calls ++ calls, answers := answers } := Except.ok.inj hstep
      have hopen : s.isInitialized = true := hinit
      rw [deinit_eq hopen] at hdeinit
      have hflag := congrArg State.isInitialized hdeinit
      exact Bool.false_ne_true (hflag.trans hopen)

/-- What holds from a start to the next stop: text and lights are those of the
register file behind the port. -/
structure State.Mirrors (s : State) (f : PortFile (BitVec 8) (BitVec 8)) : Prop where
  initialized : s.isInitialized = true
  installed : s.writeCallback .twinkleIoWrite = true
  shows : s.Shows f
  lights : ∀ l, lastLight l s.calls = some ((f.cell l.index).elim 0 l.word)

/-- Calls that set no light leave the lights alone. -/
theorem lastLight_append_of_quiet {calls calls' : List Call}
    (hquiet : ∀ c ∈ calls', c.IsQuiet) (l : PortLight) :
    lastLight l (calls ++ calls') = lastLight l calls :=
  lastSent_append_of_forall fun c hc _ h => by simp [(hquiet c hc).1] at h

/-- A successful start resets the registers, but not the index. -/
theorem State.Shows.start {s : State} {f : PortFile (BitVec 8) (BitVec 8)} (h : s.Shows f)
    (hinstalled : s.isInitialized = true → s.writeCallback .twinkleIoWrite = true) {e : Event}
    (he : s.Starts e) :
    ∃ s', step s e = .ok s' ∧ s'.Mirrors ⟨f.index, fun _ => none⟩ := by
  rcases h.step_cases hinstalled e with ⟨w, hport, -, -⟩ | ⟨-, calls, hstep, hquiet⟩ |
    ⟨⟨systemName, results, rfl⟩, -⟩ | ⟨⟨results, rfl⟩, -⟩ | ⟨-, hnot, -⟩
  · cases e with
    | start => cases hport
    | _ => cases he
  · refine ⟨_, hstep, rfl, rfl, ⟨h.index, textOf_none.symm⟩, fun l => ?_⟩
    dsimp only
    rw [lastLight_append_of_quiet hquiet, lastLight, lastSent, sent_append]
    cases l <;> simp [offCalls, sent, Call.portLight]
  · exact absurd he.2.2 (by decide)
  · cases he
  · exact absurd he hnot

/-- A callback in a session is a write to the register file or leaves it alone. -/
theorem State.Mirrors.next {s : State} {f : PortFile (BitVec 8) (BitVec 8)} (h : s.Mirrors f)
    {e : Event} (he : ∀ results, e ≠ .stop results) :
    ∃ s', step s e = .ok s' ∧ s'.Mirrors (e.portWrite.elim f f.write) := by
  rcases h.shows.step_cases (fun _ => h.installed) e with ⟨w, hport, -, hstep⟩ |
    ⟨hstarts, -⟩ | ⟨-, -, hclosed, -⟩ | ⟨⟨results, rfl⟩, -⟩ |
    ⟨hport, -, -, calls, answers, hstep, hquiet, -⟩
  · refine ⟨_, hstep, ?_⟩
    rw [hport, Option.elim_some]
    cases w with
    | select i => exact ⟨h.initialized, h.installed, ⟨rfl, h.shows.text⟩, h.lights⟩
    | store data =>
      refine ⟨h.initialized, h.installed, ⟨h.shows.index, rfl⟩, fun l => ?_⟩
      rw [State.portNext, PortFile.write]
      dsimp only
      rw [lastLight_append_storeCalls]
      by_cases hl : f.index = l.index
      · rw [if_pos hl, hl, Function.update_self]
        rfl
      · rw [if_neg hl, Function.update_of_ne (Ne.symm hl), h.lights]
  · have hinit := h.initialized
    cases e with
    | start => rw [hstarts.1] at hinit; cases hinit
    | _ => cases hstarts
  · have hinit := h.initialized
    rw [hclosed] at hinit
    cases hinit
  · exact absurd rfl (he results)
  · have hport : e.portWrite = none :=
      hport.resolve_right fun htap => by simp [h.installed] at htap
    rw [hport]
    exact ⟨_, hstep, h.initialized, h.installed, ⟨h.shows.index, h.shows.text⟩,
      fun l => (lastLight_append_of_quiet hquiet l).trans (h.lights l)⟩

/-- The register file behind the port is written as the callbacks say. -/
theorem State.Mirrors.session {s : State} {f : PortFile (BitVec 8) (BitVec 8)} (h : s.Mirrors f)
    {es : List Event} (hes : ∀ e ∈ es, ∀ results, e ≠ .stop results) :
    ∃ s', run s es = .ok s' ∧
      s'.Mirrors ((es.filterMap Event.portWrite).foldl PortFile.write f) := by
  refine runEvents_history (fun e => ∀ results, e ≠ .stop results)
    (fun es (s : State) => s.Mirrors ((es.filterMap Event.portWrite).foldl PortFile.write f)) h
    (fun es e s he hs => ?_) es hes
  obtain ⟨s', hstep, hs'⟩ := hs.next he
  refine ⟨s', hstep, ?_⟩
  rw [List.filterMap_append, List.foldl_append]
  cases hport : e.portWrite with
  | none => simpa [hport] using hs'
  | some w => simpa [hport] using hs'

end MamePlugins.Iidxio
