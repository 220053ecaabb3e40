import MamePlugins.Util.ThreadHandover

/-!
# The return of a thread's creation, and its join

`crt_thread_create` does not look at what `_beginthreadex` returns either: without a
thread nobody signals the event that it waits for. It returns the handle of the thread
as an `int`. This file says when it returns, and what a join of that `int` waits for.
-/

namespace MamePlugins.Util

open Library

variable {π κ : Type} {s s' : ThreadState π κ} {n : ℕ} {threadId : Handle}

theorem step_beginThread (hcreate : s.create = .beginThread) (hfresh : s.IsFresh threadId) :
    threadStep s (.create threadId) = .ok { s with
      handles := s.allocate threadId (.thread s.calls)
      threads := if threadId = 0 then s.threads
        else Function.update s.threads s.calls (some .readProc)
      create := .wait threadId } := by
  rw [threadStep, crtThreadCreate, hcreate]
  exact if_pos hfresh

/-! ### The way to the return -/

/-- An act of the `n`-th call or of its thread. -/
def ThreadAct.isOwn (n : ℕ) : ThreadAct π κ → Bool
  | .create _ => true
  | .shim m => m = n
  | _ => false

/-- The `n`-th call has its thread, and has not returned. -/
def ThreadState.IsReturning (s : ThreadState π κ) (n : ℕ) (threadId : Handle) : Prop :=
  s.calls = n ∧ (s.create = .wait threadId ∨ s.create = .closeHandle threadId ∨
    s.create = .leave threadId)

/-- The `n`-th call has returned. -/
structure ThreadState.HasReturned (s : ThreadState π κ) (n : ℕ) (threadId : Handle) : Prop where
  result : s.returned n = some (threadId.setWidth 32)
  left : s.calls = n → s.create = .outside
  began : n ≤ s.calls

/-- How many acts `crt_thread_create` still has to its return. -/
def CreateNext.distance : CreateNext π κ → ℕ
  | .wait _ => 3
  | .closeHandle _ => 2
  | .leave _ => 1
  | _ => 0

/-- How many acts a thread still has to its procedure. -/
def ShimNext.distance : ShimNext π κ → ℕ
  | .readProc => 5
  | .readCtx _ => 4
  | .readBarrier _ _ => 3
  | .setEvent _ _ _ => 2
  | .callProc _ _ => 1
  | _ => 0

/-- How many acts the two still have. -/
def ThreadState.distance (s : ThreadState π κ) (n : ℕ) : ℕ :=
  s.create.distance + (s.threads n).elim 0 ShimNext.distance

theorem ShimNext.distance_after {sctx : ShimCtx π κ} {next next' : ShimNext π κ}
    (h : next.after sctx = some next') : next'.distance + 1 = next.distance := by
  cases next with
  | running => cases h
  | exited exitCode => cases h
  | _ =>
    obtain rfl := Option.some.inj h
    rfl

theorem ShimNext.distance_le (next : Option (ShimNext π κ)) :
    next.elim 0 ShimNext.distance ≤ 5 := by
  cases next with
  | none => exact Nat.zero_le 5
  | some next => cases next <;> simp [ShimNext.distance]

theorem ThreadState.IsReturning.distance_pos (h : s.IsReturning n threadId) :
    0 < s.distance n := by
  rw [ThreadState.distance]
  rcases h.2 with hcreate | hcreate | hcreate
  all_goals
    rw [hcreate, CreateNext.distance]
    omega

theorem ThreadState.IsReturning.not_hasReturned (h : s.IsReturning n threadId) :
    ¬s.HasReturned n threadId := by
  intro hreturned
  have houtside := hreturned.left h.1
  rcases h.2 with hcreate | hcreate | hcreate
  all_goals
    rw [hcreate] at houtside
    cases houtside

/-! ### The return -/

/-- What the next act does to a call that has its thread. -/
theorem ThreadState.IsReturning.next (h : s.IsReturning n threadId) {act : ThreadAct π κ}
    (hstep : threadStep s act = .ok s') :
    s'.HasReturned n threadId ∨ (s'.IsReturning n threadId ∧
      (if act.isOwn n then 1 else 0) + s'.distance n ≤ s.distance n) := by
  obtain ⟨rfl, hcreate⟩ := h
  cases act with
  | call proc ctx =>
    obtain ⟨houtside, -⟩ := callCreate_cases hstep
    rw [houtside] at hcreate
    rcases hcreate with hcreate | hcreate | hcreate <;> cases hcreate
  | create systemResult =>
    rcases crtThreadCreate_cases hstep with ⟨_, _, heq, -⟩ | ⟨_, _, heq, -⟩ | ⟨_, heq, -⟩ |
      ⟨heq, -⟩ | ⟨id, heq, -, rfl⟩ | ⟨id, heq, rfl⟩ | ⟨id, heq, rfl⟩
    all_goals rw [heq] at hcreate; simp only [reduceCtorEq, false_or, or_false] at hcreate
    · cases hcreate
      right
      refine ⟨⟨rfl, Or.inr (Or.inl rfl)⟩, ?_⟩
      simp [ThreadState.distance, heq, CreateNext.distance, ThreadAct.isOwn]
      omega
    · cases hcreate
      right
      refine ⟨⟨rfl, Or.inr (Or.inr rfl)⟩, ?_⟩
      simp [ThreadState.distance, heq, CreateNext.distance, ThreadAct.isOwn]
      omega
    · cases hcreate
      left
      exact ⟨Function.update_self .., fun _ => rfl, Nat.le_refl _⟩
  | shim m =>
    obtain ⟨next, next', hm, hnext, rfl⟩ := crtThreadShim_eq_ok_iff.mp hstep
    right
    refine ⟨⟨rfl, hcreate⟩, ?_⟩
    by_cases hown : m = s.calls
    · subst hown
      have hdistance := ShimNext.distance_after hnext
      simp [ThreadState.distance, ThreadAct.isOwn, hm]
      omega
    · simp [ThreadState.distance, ThreadAct.isOwn, hown, Function.update_of_ne (Ne.symm hown)]
  | exit m result =>
    obtain ⟨hm, rfl⟩ := procExit_eq_ok_iff.mp hstep
    right
    refine ⟨⟨rfl, hcreate⟩, ?_⟩
    by_cases hown : m = s.calls
    · subst hown
      simp [ThreadState.distance, ThreadAct.isOwn, hm, ShimNext.distance]
    · simp [ThreadState.distance, ThreadAct.isOwn, Function.update_of_ne (Ne.symm hown)]
  | join id wantsResult =>
    obtain ⟨-, rfl⟩ := crtThreadJoin_eq_ok_iff.mp hstep
    right
    exact ⟨⟨rfl, hcreate⟩, by simp [ThreadState.distance, ThreadAct.isOwn]⟩
  | destroy id =>
    obtain rfl := Except.ok.inj hstep
    right
    exact ⟨⟨rfl, hcreate⟩, by simp [ThreadState.distance, ThreadAct.isOwn, crtThreadDestroy]⟩

/-- A call that has returned stays so. -/
theorem ThreadState.HasReturned.next (h : s.HasReturned n threadId) {act : ThreadAct π κ}
    (hstep : threadStep s act = .ok s') : s'.HasReturned n threadId := by
  have hbegan := h.began
  cases act with
  | call proc ctx =>
    obtain ⟨-, rfl⟩ := callCreate_cases hstep
    exact ⟨h.result, fun heq => by dsimp only at heq; omega, Nat.le_succ_of_le h.began⟩
  | create systemResult =>
    have hother (hcreate : s.create ≠ .outside) : s.calls ≠ n := fun heq => hcreate (h.left heq)
    rcases crtThreadCreate_cases hstep with ⟨_, _, heq, -, rfl⟩ | ⟨_, _, heq, rfl⟩ |
      ⟨_, heq, rfl⟩ | ⟨heq, -, rfl⟩ | ⟨id, heq, -, rfl⟩ | ⟨id, heq, rfl⟩ | ⟨id, heq, rfl⟩
    all_goals have hne := hother (by rw [heq]; simp)
    case inr.inr.inr.inr.inr.inr =>
      refine ⟨?_, fun _ => rfl, h.began⟩
      dsimp only
      rw [Function.update_of_ne (Ne.symm hne), h.result]
    all_goals exact ⟨h.result, fun hcalls => absurd hcalls hne, h.began⟩
  | shim m =>
    obtain ⟨next, next', -, -, rfl⟩ := crtThreadShim_eq_ok_iff.mp hstep
    exact ⟨h.result, h.left, h.began⟩
  | exit m result =>
    obtain ⟨-, rfl⟩ := procExit_eq_ok_iff.mp hstep
    exact ⟨h.result, h.left, h.began⟩
  | join id wantsResult =>
    obtain ⟨-, rfl⟩ := crtThreadJoin_eq_ok_iff.mp hstep
    exact ⟨h.result, h.left, h.began⟩
  | destroy id =>
    obtain rfl := Except.ok.inj hstep
    exact ⟨h.result, h.left, h.began⟩

/-- Until the call returns, there is something for it or its thread to do. -/
theorem ThreadState.IsReturning.exists_own (h : s.IsReturning n threadId) (hs : s.Handover)
    (hne : threadId ≠ 0) :
    ∃ act s', act.isOwn n = true ∧ s.Orderly act ∧ threadStep s act = .ok s' := by
  obtain ⟨rfl, hcreate⟩ := h
  rcases hcreate with hcreate | hcreate | hcreate
  · have hprepared := hs.prepared
    rw [hcreate] at hprepared
    obtain ⟨-, hevent, hnull⟩ := hprepared
    cases hn : s.threads s.calls with
    | none => exact absurd (hnull.mp hn) hne
    | some next =>
      cases hsignalled : next.hasSignalled with
      | false =>
        obtain ⟨next', hnext⟩ : ∃ next', next.after s.sctx = some next' := by
          cases next <;> first | exact ⟨_, rfl⟩ | cases hsignalled
        exact ⟨.shim s.calls, _, by simp [ThreadAct.isOwn], trivial,
          crtThreadShim_eq_ok_iff.mpr ⟨next, next', hn, hnext, rfl⟩⟩
      | true =>
        have hwaits : ¬s.waits s.sctx.barrier = true := by
          rw [ThreadState.waits, hevent, hn, Option.any_some, hsignalled]
          exact Bool.false_ne_true
        refine ⟨.create 0, { s with create := .closeHandle threadId }, rfl,
          ThreadState.orderly_create (by simp [hcreate]) 0, ?_⟩
        rw [threadStep, crtThreadCreate, hcreate]
        exact if_neg hwaits
  · refine ⟨.create 0, { s with
      handles := Function.update s.handles s.sctx.barrier none
      create := .leave threadId }, rfl, ThreadState.orderly_create (by simp [hcreate]) 0, ?_⟩
    rw [threadStep, crtThreadCreate, hcreate]
  · refine ⟨.create 0, { s with
      returned := Function.update s.returned s.calls (some (threadId.setWidth 32))
      create := .outside }, rfl, ThreadState.orderly_create (by simp [hcreate]) 0, ?_⟩
    rw [threadStep, crtThreadCreate, hcreate]

/-- Nothing can be done for a call that waits for a thread which has not started. -/
theorem ThreadState.Handover.stuck (h : s.Handover) (hwait : s.create = .wait 0)
    {act : ThreadAct π κ} (hstep : threadStep s act = .ok s') : s'.create = .wait 0 := by
  cases act with
  | call proc ctx =>
    obtain ⟨houtside, -⟩ := callCreate_cases hstep
    rw [hwait] at houtside
    cases houtside
  | create systemResult =>
    have hprepared := h.prepared
    rw [hwait] at hprepared
    obtain ⟨-, hevent, hnull⟩ := hprepared
    have hwaits : s.waits s.sctx.barrier = true := by
      rw [ThreadState.waits, hevent, hnull.mpr rfl]
      rfl
    rw [threadStep, Util.crtThreadCreate, hwait] at hstep
    cases (if_pos hwaits).symm.trans hstep
  | shim m =>
    obtain ⟨next, next', -, -, rfl⟩ := crtThreadShim_eq_ok_iff.mp hstep
    exact hwait
  | exit m result =>
    obtain ⟨-, rfl⟩ := procExit_eq_ok_iff.mp hstep
    exact hwait
  | join id wantsResult =>
    obtain ⟨-, rfl⟩ := crtThreadJoin_eq_ok_iff.mp hstep
    exact hwait
  | destroy id =>
    obtain rfl := Except.ok.inj hstep
    exact hwait

/-- **When the creation of a thread returns.** Take any orderly schedule, in which every
`CreateEvent` succeeds and only threads are destroyed, up to where `crt_thread_create`
waits for its event. If the thread has started, then in every orderly continuation the
call has returned, or it and its thread have had at most seven acts and can do another;
what it returns is the low half of the thread's handle. If the thread has not started,
the call waits in every orderly continuation, however long. An earlier call without an
event is excluded: its thread could signal this one's. -/
theorem create_returns (garbage : ShimCtx π κ) (acts : List (ThreadAct π κ))
    {s : ThreadState π κ} (hacts : OrderlySchedule (.initial garbage) acts s)
    {threadId : Handle} (hwait : s.create = .wait threadId) :
    (threadId ≠ 0 → ∀ acts' s', OrderlySchedule s acts' s' →
      s'.returned s.calls = some (threadId.setWidth 32) ∨
        (acts'.countP (ThreadAct.isOwn s.calls) ≤ 7 ∧ ∃ act s'', act.isOwn s.calls = true ∧
          s'.Orderly act ∧ threadStep s' act = .ok s'')) ∧
    (threadId = 0 → ∀ acts' s', OrderlySchedule s acts' s' → s'.create = .wait 0) := by
  have h := (ThreadState.Handover.initial garbage).of_schedule hacts
  constructor
  · intro hne acts' s' hacts'
    have hinv : s.Handover ∧ (s.HasReturned s.calls threadId ∨ s.IsReturning s.calls threadId) :=
      ⟨h, Or.inr ⟨rfl, Or.inl hwait⟩⟩
    have hkept := hacts'.invariant
      (fun t => t.Handover ∧ (t.HasReturned s.calls threadId ∨ t.IsReturning s.calls threadId)) hinv
      fun t act t' he ht hstep => ⟨ht.1.next he hstep, ht.2.elim
        (fun hreturned => Or.inl (hreturned.next hstep))
        fun hreturning => (hreturning.next hstep).imp id And.left⟩
    rcases hkept with ⟨h', hreturned | hreturning⟩
    · exact Or.inl hreturned.result
    · right
      refine ⟨?_, hreturning.exists_own h' hne⟩
      have hbound := hacts'.reaches_or_countP_le
        (fun t => t.HasReturned s.calls threadId ∨ t.IsReturning s.calls threadId)
        (fun t => t.HasReturned s.calls threadId) (fun t => t.distance s.calls)
        (ThreadAct.isOwn s.calls) hinv.2
        (fun t act t' _ ht hstep => ⟨Or.inl (ht.2.next hstep), ht.2.next hstep⟩)
        fun t act t' _ ht hstep => by
          rcases ht with hreturned | hreturning
          · exact ⟨Or.inl (hreturned.next hstep), Or.inl (hreturned.next hstep)⟩
          · exact (hreturning.next hstep).elim (fun hdone => ⟨Or.inl hdone, Or.inl hdone⟩)
              fun hmore => ⟨Or.inr hmore.1, Or.inr hmore.2⟩
      have hleft := hbound.resolve_left hreturning.not_hasReturned
      have hstart : s.distance s.calls ≤ 8 := by
        rw [ThreadState.distance, hwait]
        exact Nat.add_le_add_left (ShimNext.distance_le _) 3
      have hend := hreturning.distance_pos
      omega
  · rintro rfl acts' s' hacts'
    exact (hacts'.invariant (fun t => t.Handover ∧ t.create = .wait 0) ⟨h, hwait⟩
      fun t act t' he ht hstep => ⟨ht.1.next he hstep, ht.1.stuck ht.2 hstep⟩).2

/-- A call whose thread has started, and one whose thread has not. -/
theorem create_returns_first :
    (∃ acts s, OrderlySchedule (.initial (⟨0, false, ()⟩ : ShimCtx Bool Unit)) acts s ∧
      ∀ acts' s', OrderlySchedule s acts' s' → s'.returned s.calls = some 8 ∨
        (acts'.countP (ThreadAct.isOwn s.calls) ≤ 7 ∧ ∃ act s'', act.isOwn s.calls = true ∧
          s'.Orderly act ∧ threadStep s' act = .ok s'')) ∧
    ∃ acts s, OrderlySchedule (.initial (⟨0, false, ()⟩ : ShimCtx Bool Unit)) acts s ∧
      ∀ acts' s', OrderlySchedule s acts' s' → s'.create = .wait 0 := by
  obtain ⟨acts, s, hacts, hcreate, -, -, -, -, hhandles⟩ := exists_prepared
    (s := .initial (⟨0, false, ()⟩ : ShimCtx Bool Unit)) rfl (show (4 : Handle) ≠ 0 by decide) rfl
    true ()
  have hbegin (handle : Handle) (hne : handle ≠ 4) :
      ∃ s', OrderlySchedule (.initial ⟨0, false, ()⟩) (acts ++ [.create handle]) s' ∧
        s'.create = .wait handle := by
    have hfresh : s.IsFresh handle := by
      right
      rw [hhandles, Function.update_of_ne hne]
      rfl
    exact ⟨_, hacts.append (.cons (ThreadState.orderly_create (by simp [hcreate]) handle)
      (step_beginThread hcreate hfresh) .nil), rfl⟩
  obtain ⟨s₁, hacts₁, hwait₁⟩ := hbegin 8 (by decide)
  obtain ⟨s₂, hacts₂, hwait₂⟩ := hbegin 0 (by decide)
  exact ⟨⟨_, s₁, hacts₁, (create_returns _ _ hacts₁ hwait₁).1 (by decide)⟩,
    _, s₂, hacts₂, (create_returns _ _ hacts₂ hwait₂).2 rfl⟩

/-! ### The join -/

theorem ThreadState.signal_of_thread {barrier handle : Handle} {m : ℕ}
    (h : s.handles handle = some (.thread m)) :
    s.signal barrier handle = some (.thread m) := by
  rw [ThreadState.signal]
  cases hbarrier : s.handles barrier with
  | none => exact h
  | some object =>
    cases object with
    | thread k => exact h
    | event signalled =>
      dsimp only
      rw [Function.update_of_ne, h]
      rintro rfl
      rw [h] at hbarrier
      cases hbarrier

/-- A thread's handle stays open until it is destroyed. -/
theorem ThreadState.Handover.thread_open (h : s.Handover) {m : ℕ} {handle : Handle}
    (hopen : s.handles handle = some (.thread m)) {act : ThreadAct π κ}
    (hact : ∀ id, act = .destroy id → threadHandle id ≠ handle)
    (hstep : threadStep s act = .ok s') : s'.handles handle = some (.thread m) := by
  have hused : s.handles handle ≠ none := by simp [hopen]
  cases act with
  | call proc ctx =>
    obtain ⟨-, rfl⟩ := callCreate_cases hstep
    exact hopen
  | create systemResult =>
    rcases crtThreadCreate_cases hstep with ⟨_, _, -, hfresh, rfl⟩ | ⟨_, _, -, rfl⟩ |
      ⟨_, -, rfl⟩ | ⟨-, hfresh, rfl⟩ | ⟨id, -, -, rfl⟩ | ⟨id, hcreate, rfl⟩ | ⟨id, -, rfl⟩
    · exact (ThreadState.allocate_of_ne hused hfresh).trans hopen
    · exact hopen
    · exact hopen
    · exact (ThreadState.allocate_of_ne hused hfresh).trans hopen
    · exact hopen
    · have hprepared := h.prepared
      rw [hcreate] at hprepared
      dsimp only
      rw [Function.update_of_ne, hopen]
      rintro rfl
      have hevent := hprepared.1
      rw [hopen] at hevent
      cases hevent
    · exact hopen
  | shim k =>
    obtain ⟨next, next', -, -, rfl⟩ := crtThreadShim_eq_ok_iff.mp hstep
    cases next with
    | setEvent proc innerCtx barrier => exact ThreadState.signal_of_thread hopen
    | _ => exact hopen
  | exit k result =>
    obtain ⟨-, rfl⟩ := procExit_eq_ok_iff.mp hstep
    exact hopen
  | join id wantsResult =>
    obtain ⟨-, rfl⟩ := crtThreadJoin_eq_ok_iff.mp hstep
    exact hopen
  | destroy id =>
    obtain rfl := Except.ok.inj hstep
    exact (Function.update_of_ne (hact id rfl).symm _ _).trans hopen

/-- Only the end of its procedure has a thread exit. -/
theorem exit_of_exited {exitCode : BitVec 32} {act : ThreadAct π κ}
    (hstep : threadStep s act = .ok s') (hbefore : s.threads n ≠ some (.exited exitCode))
    (hafter : s'.threads n = some (.exited exitCode)) : act = .exit n exitCode := by
  cases act with
  | call proc ctx =>
    obtain ⟨-, rfl⟩ := callCreate_cases hstep
    exact absurd hafter hbefore
  | create systemResult =>
    rcases crtThreadCreate_cases hstep with ⟨_, _, -, -, rfl⟩ | ⟨_, _, -, rfl⟩ | ⟨_, -, rfl⟩ |
      ⟨-, -, rfl⟩ | ⟨id, -, -, rfl⟩ | ⟨id, -, rfl⟩ | ⟨id, -, rfl⟩
    case inr.inr.inr.inl =>
      dsimp only at hafter
      split_ifs at hafter with hnull
      · exact absurd hafter hbefore
      · rw [Function.update_apply] at hafter
        split_ifs at hafter with hn
        · cases hafter
        · exact absurd hafter hbefore
    all_goals exact absurd hafter hbefore
  | shim k =>
    obtain ⟨next, next', hk, hnext, rfl⟩ := crtThreadShim_eq_ok_iff.mp hstep
    dsimp only at hafter
    rw [Function.update_apply] at hafter
    split_ifs at hafter with hn
    · obtain rfl := Option.some.inj hafter
      cases next <;> cases hnext
    · exact absurd hafter hbefore
  | exit k result =>
    obtain ⟨-, rfl⟩ := procExit_eq_ok_iff.mp hstep
    dsimp only at hafter
    rw [Function.update_apply] at hafter
    split_ifs at hafter with hn
    · cases hafter
      rw [hn]
    · exact absurd hafter hbefore
  | join id wantsResult =>
    obtain ⟨-, rfl⟩ := crtThreadJoin_eq_ok_iff.mp hstep
    exact absurd hafter hbefore
  | destroy id =>
    obtain rfl := Except.ok.inj hstep
    exact absurd hafter hbefore

/-- A join of an open thread waits for its exit and yields its exit code. -/
theorem join_open {id : BitVec 32} (hopen : s.handles (threadHandle id) = some (.thread n))
    (wantsResult : Bool) :
    threadStep s (.join id wantsResult) = .ok s' ↔
      ∃ exitCode, s.threads n = some (.exited exitCode) ∧ s' = { s with
        joined := s.joined ++ [(id, if wantsResult then some exitCode else none)] } := by
  rw [threadStep, crtThreadJoin_eq_ok_iff, ThreadState.waits, ThreadState.exitCode, hopen]
  dsimp only
  cases s.threads n with
  | none => simp
  | some next => cases next <;> simp

theorem setWidth_threadHandle (id : BitVec 32) : (threadHandle id).setWidth 32 = id := by
  ext i hi
  have hi64 : i < 64 := by omega
  rw [threadHandle, BitVec.getElem_setWidth, BitVec.getLsbD_signExtend, if_pos hi]
  simp [hi, hi64]

/-- **A join waits for its own thread.** Take any orderly schedule, in which every
`CreateEvent` succeeds and only threads are destroyed, where a thread has just started,
with a handle of thirty-two significant bits, and any orderly continuation that does not
destroy this thread. The call returns an id that the caller can join: a join of it is
possible exactly once the thread has exited, and stores the result of the procedure that
the call asked for. -/
theorem join_yields_result (garbage : ShimCtx π κ) (acts : List (ThreadAct π κ))
    {s s₁ s' : ThreadState π κ} (hacts : OrderlySchedule (.initial garbage) acts s)
    (hcreate : s.create = .beginThread) {threadId : Handle} (hne : threadId ≠ 0)
    (hwidth : threadHandle (threadId.setWidth 32) = threadId)
    (hstep : threadStep s (.create threadId) = .ok s₁) {acts' : List (ThreadAct π κ)}
    (hacts' : OrderlySchedule s₁ acts' s')
    (hkept : ∀ act ∈ acts', act ≠ .destroy (threadId.setWidth 32)) :
    (s'.returned s.calls = some (threadId.setWidth 32) ∨ s'.IsReturning s.calls threadId) ∧
    ∀ wantsResult s'', threadStep s' (.join (threadId.setWidth 32) wantsResult) = .ok s'' ↔
      ∃ exitCode, s'.threads s.calls = some (.exited exitCode) ∧
        .exit s.calls exitCode ∈ acts' ∧
        (∃ proc ctx, s'.requests s.calls = some (proc, ctx) ∧
          (s.calls, proc, ctx) ∈ s'.started) ∧
        s'' = { s' with joined := s'.joined ++
          [(threadId.setWidth 32, if wantsResult then some exitCode else none)] } := by
  have h := (ThreadState.Handover.initial garbage).of_schedule hacts
  have horderly : s.Orderly (.create threadId) :=
    ThreadState.orderly_create (by simp [hcreate]) threadId
  have h₁ := h.next horderly hstep
  obtain ⟨hfresh, rfl⟩ : s.IsFresh threadId ∧ s₁ = { s with
      handles := s.allocate threadId (.thread s.calls)
      threads := Function.update s.threads s.calls (some .readProc)
      create := .wait threadId } := by
    rcases crtThreadCreate_cases hstep with ⟨_, _, heq, -⟩ | ⟨_, _, heq, -⟩ | ⟨_, heq, -⟩ |
      ⟨-, hfresh, heq⟩ | ⟨_, heq, -⟩ | ⟨_, heq, -⟩ | ⟨_, heq, -⟩
    case inr.inr.inr.inl =>
      rw [if_neg hne] at heq
      exact ⟨hfresh, heq⟩
    all_goals
      rw [hcreate] at heq
      cases heq
  have hcase := hacts'.invariant
    (fun t => t.HasReturned s.calls threadId ∨ t.IsReturning s.calls threadId)
    (Or.inr ⟨rfl, Or.inl rfl⟩) fun t act t' _ ht hstep => ht.elim
      (fun hreturned => Or.inl (hreturned.next hstep))
      fun hreturning => (hreturning.next hstep).imp id And.left
  have hdestroys (act : ThreadAct π κ) (hact : act ≠ .destroy (threadId.setWidth 32)) :
      ∀ id, act = .destroy id → threadHandle id ≠ threadId := by
    rintro id rfl heq
    rw [← heq, setWidth_threadHandle] at hact
    exact hact rfl
  have hopen := (hacts'.and_forall hkept).invariant
    (fun t => t.Handover ∧ t.handles threadId = some (.thread s.calls))
    ⟨h₁, by dsimp only; rw [ThreadState.allocate, if_neg hne, Function.update_self]⟩
    fun t act t' hact ht hstep =>
      ⟨ht.1.next hact.1 hstep, ht.1.thread_open ht.2 (hdestroys act hact.2) hstep⟩
  refine ⟨hcase.imp ThreadState.HasReturned.result id, fun wantsResult s'' => ?_⟩
  rw [join_open (by rw [hwidth]; exact hopen.2)]
  constructor
  · rintro ⟨exitCode, hexited, rfl⟩
    refine ⟨exitCode, hexited, ?_, ?_, rfl⟩
    · obtain ⟨act, hact, rfl⟩ := hacts'.exists_cause
        (fun t => t.threads s.calls = some (.exited exitCode)) (· = .exit s.calls exitCode)
        (by simp) hexited fun t act t' hstep hbefore hafter => exit_of_exited hstep hbefore hafter
      exact hact
    · have hran := (hopen.1.called s.calls).mpr (by rw [hexited]; rfl)
      obtain ⟨⟨_, proc, ctx⟩, hstarted, rfl⟩ := List.mem_map.mp hran
      exact ⟨proc, ctx, hopen.1.runs.asked _ proc ctx hstarted, hstarted⟩
  · rintro ⟨exitCode, hexited, -, -, hs''⟩
    exact ⟨exitCode, hexited, hs''⟩

/-- A thread whose procedure returns seven. -/
theorem join_yields_result_seven :
    ∃ s s₁ s' s'' : ThreadState Bool Unit, runThreads (.initial ⟨0, false, ()⟩)
        [.call true (), .create 4, .create 4, .create 4] = .ok s ∧
      threadStep s (.create 8) = .ok s₁ ∧
      runThreads s₁ [.shim 1, .shim 1, .shim 1, .shim 1, .create 4, .create 4, .create 4,
        .shim 1, .exit 1 7] = .ok s' ∧
      threadStep s' (.join 8 true) = .ok s'' ∧ s''.joined = [(8, some 7)] := by
  have hexit : .exit 1 7 ∈ ([.shim 1, .shim 1, .shim 1, .shim 1, .create 4, .create 4,
      .create 4, .shim 1, .exit 1 7] : List (ThreadAct Bool Unit)) := by
    simp
  obtain ⟨-, hjoin⟩ := join_yields_result (⟨0, false, ()⟩ : ShimCtx Bool Unit)
    [.call true (), .create 4, .create 4, .create 4]
    (.of_forall rfl (by simp [ThreadState.Orderly])) rfl (show (8 : Handle) ≠ 0 by decide)
    (by decide) rfl (show OrderlySchedule _ [.shim 1, .shim 1, .shim 1, .shim 1, .create 4,
      .create 4, .create 4, .shim 1, .exit 1 7] _ from
        .of_forall rfl (by simp [ThreadState.Orderly])) (by simp)
  exact ⟨_, _, _, _, rfl, rfl, rfl,
    (hjoin true _).mpr ⟨7, rfl, hexit, ⟨true, (), rfl, List.mem_singleton_self _⟩, rfl⟩, rfl⟩

end MamePlugins.Util
