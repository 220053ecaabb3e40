import MamePlugins.Library.Schedules
import MamePlugins.Util.Thread

/-!
# The hand-over of a thread's arguments

`crt_thread_create` does not look at what `CreateEvent` returns. This file says what
comes of that: with an event every thread runs what its own call asked for, and without
one it can run what a later call asks for.
-/

namespace MamePlugins.Util

open Library

variable {π κ : Type}

/-! ### Conditions on a schedule -/

/-- `CreateEvent` succeeds, and only threads are destroyed. -/
def ThreadState.Orderly (s : ThreadState π κ) : ThreadAct π κ → Prop
  | .create systemResult => ∀ proc ctx, s.create = .createEvent proc ctx → systemResult ≠ 0
  | .destroy threadId => ∃ n, s.handles (threadHandle threadId) = some (.thread n)
  | _ => True

/-- Every thread that has run anything has run what its call asked for, and once. -/
structure ThreadState.RunsAsRequested (s : ThreadState π κ) : Prop where
  asked : ∀ n proc ctx, (n, proc, ctx) ∈ s.started → s.requests n = some (proc, ctx)
  once : (s.started.map Prod.fst).Nodup

/-! ### The invariant -/

/-- The thread has left the struct behind. -/
def ShimNext.hasSignalled : ShimNext π κ → Bool
  | .callProc _ _ | .running | .exited _ => true
  | _ => false

/-- The thread has come to its procedure. -/
def ShimNext.hasCalled : ShimNext π κ → Bool
  | .running | .exited _ => true
  | _ => false

/-- What the thread has read from the struct is from its own call. -/
def ShimNext.Holds (proc : π) (ctx : κ) (barrier : Handle) : ShimNext π κ → Prop
  | .readCtx p => p = proc
  | .readBarrier p c | .callProc p c => p = proc ∧ c = ctx
  | .setEvent p c b => p = proc ∧ c = ctx ∧ b = barrier
  | _ => True

/-- What the call in progress has put into the struct, and whether its thread has
signalled the event. -/
def ThreadState.Prepared (s : ThreadState π κ) : CreateNext π κ → Prop
  | .outside => True
  | .createEvent proc ctx =>
    s.requests s.calls = some (proc, ctx) ∧ s.threads s.calls = none
  | .setProc proc ctx =>
    s.requests s.calls = some (proc, ctx) ∧ s.threads s.calls = none ∧
      s.handles s.sctx.barrier = some (.event false)
  | .setCtx ctx =>
    s.requests s.calls = some (s.sctx.proc, ctx) ∧ s.threads s.calls = none ∧
      s.handles s.sctx.barrier = some (.event false)
  | .beginThread =>
    s.requests s.calls = some (s.sctx.proc, s.sctx.ctx) ∧ s.threads s.calls = none ∧
      s.handles s.sctx.barrier = some (.event false)
  | .wait threadId =>
    s.requests s.calls = some (s.sctx.proc, s.sctx.ctx) ∧
      s.handles s.sctx.barrier =
        some (.event ((s.threads s.calls).any ShimNext.hasSignalled)) ∧
      (s.threads s.calls = none ↔ threadId = 0)
  | .closeHandle threadId => s.handles s.sctx.barrier = some (.event true) ∧ threadId ≠ 0
  | .leave threadId => threadId ≠ 0

/-- The invariant: a thread that has not signalled its event belongs to the call in
progress, which waits for it. -/
structure ThreadState.Handover (s : ThreadState π κ) : Prop where
  null : s.handles 0 = none
  unborn : ∀ n, s.calls < n → s.threads n = none ∧ s.requests n = none
  prepared : s.Prepared s.create
  early : ∀ n next, s.threads n = some next → next.hasSignalled = false →
    n = s.calls ∧ (∃ threadId, s.create = .wait threadId) ∧
      next.Holds s.sctx.proc s.sctx.ctx s.sctx.barrier
  late : ∀ n proc ctx, s.threads n = some (.callProc proc ctx) →
    s.requests n = some (proc, ctx)
  called : ∀ n, n ∈ s.started.map Prod.fst ↔ (s.threads n).any ShimNext.hasCalled = true
  runs : s.RunsAsRequested

theorem ThreadState.Handover.initial (garbage : ShimCtx π κ) :
    (ThreadState.initial garbage).Handover where
  null := rfl
  unborn _ _ := ⟨rfl, rfl⟩
  prepared := trivial
  early _ _ h := by cases h
  late _ _ _ h := by cases h
  called _ := by simp [ThreadState.initial]
  runs := ⟨fun _ _ _ h => absurd h List.not_mem_nil, List.nodup_nil⟩

/-! ### What keeps the invariant -/

variable {s s' : ThreadState π κ}

/-- All threads have left the struct behind. -/
def ThreadState.AllSignalled (s : ThreadState π κ) : Prop :=
  ∀ n next, s.threads n = some next → next.hasSignalled = true

theorem ThreadState.Handover.allSignalled (h : s.Handover)
    (hwait : ∀ threadId, s.create ≠ .wait threadId) : s.AllSignalled := by
  intro n next hn
  by_contra hearly
  obtain ⟨-, ⟨threadId, heq⟩, -⟩ := h.early n next hn (by simpa using hearly)
  exact hwait threadId heq

/-- An act of `crt_thread_create` that leaves all threads alone. -/
theorem ThreadState.Handover.of_create (h : s.Handover) (hall : s.AllSignalled)
    (hcalls : s'.calls = s.calls) (hthreads : s'.threads = s.threads)
    (hrequests : s'.requests = s.requests) (hstarted : s'.started = s.started)
    (hnull : s'.handles 0 = none) (hprepared : s'.Prepared s'.create) : s'.Handover where
  null := hnull
  unborn n hn := by
    rw [hthreads, hrequests]
    exact h.unborn n (hcalls ▸ hn)
  prepared := hprepared
  early n next hn hearly := by
    rw [hthreads] at hn
    exact absurd (hall n next hn) (by simp [hearly])
  late n proc ctx hn := by
    rw [hthreads] at hn
    rw [hrequests]
    exact h.late n proc ctx hn
  called n := by
    rw [hstarted, hthreads]
    exact h.called n
  runs := by
    refine ⟨fun n proc ctx hn => ?_, ?_⟩
    · rw [hstarted] at hn
      rw [hrequests]
      exact h.runs.asked n proc ctx hn
    · rw [hstarted]
      exact h.runs.once

theorem ThreadState.allocate_of_ne {handle other : Handle} {object : HandleObject}
    (h : s.handles other ≠ none) (hfresh : s.IsFresh handle) :
    s.allocate handle object other = s.handles other := by
  rw [ThreadState.allocate]
  split_ifs with hnull
  · rfl
  · refine Function.update_of_ne ?_ _ _
    rintro rfl
    exact h (hfresh.resolve_left hnull)

theorem ThreadState.allocate_null (h : s.handles 0 = none) (handle : Handle)
    (object : HandleObject) : s.allocate handle object 0 = none := by
  rw [ThreadState.allocate]
  split_ifs with hnull
  · exact h
  · rw [Function.update_of_ne (Ne.symm hnull), h]

theorem ThreadState.Handover.callCreate (h : s.Handover) {proc : π} {ctx : κ}
    (hstep : callCreate proc ctx s = .ok s') : s'.Handover := by
  obtain ⟨hcreate, rfl⟩ := callCreate_cases hstep
  obtain ⟨hthread, hrequest⟩ := h.unborn (s.calls + 1) (by omega)
  have hall := h.allSignalled (by simp [hcreate])
  have hkept {n : ℕ} {r : π × κ} (hn : s.requests n = some r) :
      Function.update s.requests (s.calls + 1) (some (proc, ctx)) n = some r := by
    rwa [Function.update_of_ne]
    rintro rfl
    rw [hrequest] at hn
    cases hn
  exact {
    null := h.null
    unborn := fun n hn => by
      dsimp only at hn ⊢
      rw [Function.update_of_ne (by omega)]
      exact h.unborn n (by omega)
    prepared := ⟨Function.update_self .., hthread⟩
    early := fun n next hn hearly => absurd (hall n next hn) (by simp [hearly])
    late := fun n proc ctx hn => hkept (h.late n proc ctx hn)
    called := h.called
    runs := ⟨fun n proc ctx hn => hkept (h.runs.asked n proc ctx hn), h.runs.once⟩ }

/-- A thread is started while all others have left the struct behind. -/
theorem ThreadState.Handover.beginThread (h : s.Handover) (hcreate : s.create = .beginThread)
    {systemResult : Handle} (hfresh : s.IsFresh systemResult) :
    ThreadState.Handover { s with
      handles := s.allocate systemResult (.thread s.calls)
      threads := if systemResult = 0 then s.threads
        else Function.update s.threads s.calls (some .readProc)
      create := .wait systemResult } := by
  have hall := h.allSignalled (by simp [hcreate])
  have hprepared := h.prepared
  rw [hcreate] at hprepared
  obtain ⟨hrequest, hthread, hevent⟩ := hprepared
  have hkept : s.allocate systemResult (.thread s.calls) s.sctx.barrier =
      some (.event false) :=
    (ThreadState.allocate_of_ne (by simp [hevent]) hfresh).trans hevent
  by_cases hnull : systemResult = 0
  · refine h.of_create hall rfl (if_pos hnull) rfl rfl (ThreadState.allocate_null h.null ..)
      ⟨hrequest, ?_, ?_⟩
    · simp only [hnull, if_true, hthread, Option.any_none, ← hkept]
    · simp only [hnull, if_true, hthread]
  · rw [if_neg hnull]
    exact {
      null := ThreadState.allocate_null h.null ..
      unborn := fun n hn => by
        dsimp only at hn ⊢
        rw [Function.update_of_ne (by omega)]
        exact h.unborn n hn
      prepared := by
        refine ⟨hrequest, ?_, ?_⟩
        · simp only [Function.update_self, Option.any_some, ShimNext.hasSignalled, hkept]
        · simp only [Function.update_self, reduceCtorEq, hnull]
      early := fun n next hn hearly => by
        by_cases hcall : n = s.calls
        · subst hcall
          dsimp only at hn
          rw [Function.update_self, Option.some.injEq] at hn
          subst hn
          exact ⟨rfl, ⟨systemResult, rfl⟩, trivial⟩
        · dsimp only at hn
          rw [Function.update_of_ne hcall] at hn
          exact absurd (hall n next hn) (by simp [hearly])
      late := fun n proc ctx hn => by
        by_cases hcall : n = s.calls
        · subst hcall
          dsimp only at hn
          rw [Function.update_self, Option.some.injEq] at hn
          cases hn
        · dsimp only at hn
          rw [Function.update_of_ne hcall] at hn
          exact h.late n proc ctx hn
      called := fun n => by
        dsimp only
        rw [h.called n]
        by_cases hcall : n = s.calls
        · rw [hcall, Function.update_self, hthread]
          rfl
        · rw [Function.update_of_ne hcall]
      runs := ⟨h.runs.asked, h.runs.once⟩ }

theorem ThreadState.Handover.crtThreadCreate (h : s.Handover) {systemResult : Handle}
    (horderly : s.Orderly (.create systemResult))
    (hstep : crtThreadCreate systemResult s = .ok s') : s'.Handover := by
  have hprepared := h.prepared
  rcases crtThreadCreate_cases hstep with ⟨proc, ctx, hcreate, hfresh, rfl⟩ |
    ⟨proc, ctx, hcreate, rfl⟩ | ⟨ctx, hcreate, rfl⟩ | ⟨hcreate, hfresh, rfl⟩ |
    ⟨threadId, hcreate, hwaits, rfl⟩ | ⟨threadId, hcreate, rfl⟩ | ⟨threadId, hcreate, rfl⟩
  · have hne := horderly proc ctx hcreate
    rw [hcreate] at hprepared
    refine h.of_create (h.allSignalled (by simp [hcreate])) rfl rfl rfl rfl
      (ThreadState.allocate_null h.null ..) ⟨hprepared.1, hprepared.2, ?_⟩
    dsimp only
    rw [ThreadState.allocate, if_neg hne, Function.update_self]
  · rw [hcreate] at hprepared
    exact h.of_create (h.allSignalled (by simp [hcreate])) rfl rfl rfl rfl h.null hprepared
  · rw [hcreate] at hprepared
    exact h.of_create (h.allSignalled (by simp [hcreate])) rfl rfl rfl rfl h.null hprepared
  · exact h.beginThread hcreate hfresh
  · rw [hcreate] at hprepared
    obtain ⟨-, hevent, hnull⟩ := hprepared
    have hsignalled : (s.threads s.calls).any ShimNext.hasSignalled = true := by
      rw [ThreadState.waits, hevent] at hwaits
      simpa using hwaits
    refine h.of_create (fun n next hn => ?_) rfl rfl rfl rfl h.null ⟨?_, ?_⟩
    · by_contra hearly
      obtain ⟨rfl, -⟩ := h.early n next hn (by simpa using hearly)
      rw [hn, Option.any_some] at hsignalled
      exact hearly hsignalled
    · dsimp only
      rw [hevent, hsignalled]
    · rw [Ne, ← hnull]
      rintro hnone
      rw [hnone] at hsignalled
      cases hsignalled
  · rw [hcreate] at hprepared
    refine h.of_create (h.allSignalled (by simp [hcreate])) rfl rfl rfl rfl ?_ hprepared.2
    dsimp only
    rw [Function.update_apply, h.null, ite_self]
  · exact h.of_create (h.allSignalled (by simp [hcreate])) rfl rfl rfl rfl h.null trivial

/-- The call that an early thread belongs to is waiting for it. -/
theorem ThreadState.Handover.early_cases (h : s.Handover) {n : ℕ} {next : ShimNext π κ}
    (hn : s.threads n = some next) (hearly : next.hasSignalled = false) :
    n = s.calls ∧ next.Holds s.sctx.proc s.sctx.ctx s.sctx.barrier ∧
      ∃ threadId, threadId ≠ 0 ∧ s.create = .wait threadId ∧
        s.requests n = some (s.sctx.proc, s.sctx.ctx) ∧
        s.handles s.sctx.barrier = some (.event false) := by
  obtain ⟨rfl, ⟨threadId, hwait⟩, hholds⟩ := h.early n next hn hearly
  have hprepared := h.prepared
  rw [hwait] at hprepared
  obtain ⟨hrequest, hevent, hnull⟩ := hprepared
  refine ⟨rfl, hholds, threadId, ?_, hwait, hrequest, ?_⟩
  · rw [Ne, ← hnull, hn]
    exact Option.some_ne_none next
  · rw [hevent, hn, Option.any_some, hearly]

theorem any_hasSignalled_update {next next' : ShimNext π κ} {n m : ℕ}
    {threads : ℕ → Option (ShimNext π κ)} (hn : threads n = some next)
    (heq : next'.hasSignalled = next.hasSignalled) :
    (Function.update threads n (some next') m).any ShimNext.hasSignalled =
      (threads m).any ShimNext.hasSignalled := by
  by_cases hm : m = n
  · subst hm
    rw [Function.update_self, hn, Option.any_some, Option.any_some, heq]
  · rw [Function.update_of_ne hm]

/-- A thread that does not signal its event leaves the preparations alone. -/
theorem ThreadState.Prepared.of_thread {n : ℕ} {next next' : ShimNext π κ}
    {create : CreateNext π κ} (h : s.Prepared create) (hn : s.threads n = some next)
    (hthreads : s'.threads = Function.update s.threads n (some next'))
    (heq : next'.hasSignalled = next.hasSignalled)
    (hs' : s'.calls = s.calls ∧ s'.sctx = s.sctx ∧ s'.handles = s.handles ∧
      s'.requests = s.requests) : s'.Prepared create := by
  obtain ⟨hcalls, hsctx, hhandles, hrequests⟩ := hs'
  have hnone : s'.threads s.calls = none ↔ s.threads s.calls = none := by
    rw [hthreads]
    by_cases hcall : s.calls = n
    · rw [hcall, Function.update_self, hn]
      simp
    · rw [Function.update_of_ne hcall]
  have hany : (s'.threads s.calls).any ShimNext.hasSignalled =
      (s.threads s.calls).any ShimNext.hasSignalled := by
    rw [hthreads, any_hasSignalled_update hn heq]
  cases create with
  | outside => trivial
  | leave threadId => exact h
  | _ => simpa only [ThreadState.Prepared, hnone, hany, hcalls, hsctx, hhandles, hrequests] using h

/-- An act of one thread. -/
theorem ThreadState.Handover.of_thread (h : s.Handover) {n : ℕ} {next next' : ShimNext π κ}
    (hn : s.threads n = some next) (hcreate : s'.create = s.create)
    (hcalls : s'.calls = s.calls) (hsctx : s'.sctx = s.sctx)
    (hrequests : s'.requests = s.requests)
    (hthreads : s'.threads = Function.update s.threads n (some next'))
    (hnull : s'.handles 0 = none) (hprepared : s'.Prepared s.create)
    (hearly : next'.hasSignalled = false → next.hasSignalled = false ∧
      (next.Holds s.sctx.proc s.sctx.ctx s.sctx.barrier →
        next'.Holds s.sctx.proc s.sctx.ctx s.sctx.barrier))
    (hlate : ∀ proc ctx, next' = .callProc proc ctx → s.requests n = some (proc, ctx))
    (hstarted : (s'.started = s.started ∧ next'.hasCalled = next.hasCalled) ∨
      ∃ proc ctx, s'.started = s.started ++ [(n, proc, ctx)] ∧
        s.requests n = some (proc, ctx) ∧ next.hasCalled = false ∧ next'.hasCalled = true) :
    s'.Handover := by
  have hthread (m : ℕ) : s'.threads m = if m = n then some next' else s.threads m := by
    rw [hthreads, Function.update_apply]
  refine ⟨hnull, fun m hm => ?_, hcreate ▸ hprepared, fun m next'' hm hearly'' => ?_,
    fun m proc ctx hm => ?_, ?_, ?_⟩
  · rw [hthread, hrequests]
    rw [hcalls] at hm
    split_ifs with heq
    · rw [heq] at hm
      have hnone := (h.unborn n hm).1
      rw [hn] at hnone
      cases hnone
    · exact h.unborn m hm
  · rw [hcreate, hcalls, hsctx]
    rw [hthread] at hm
    split_ifs at hm with heq
    · obtain rfl := Option.some.inj hm
      obtain ⟨hearly, hholds⟩ := hearly hearly''
      obtain ⟨hcall, hwait, hholds'⟩ := h.early n next hn hearly
      exact ⟨heq.trans hcall, hwait, hholds hholds'⟩
    · exact h.early m next'' hm hearly''
  · rw [hrequests]
    rw [hthread] at hm
    split_ifs at hm with heq
    · exact heq ▸ hlate proc ctx (Option.some.inj hm)
    · exact h.late m proc ctx hm
  · intro m
    rw [hthread]
    rcases hstarted with ⟨hstarted, hsame⟩ | ⟨proc, ctx, hstarted, -, -, hnew⟩
    · rw [hstarted, h.called m]
      split_ifs with heq
      · rw [heq, hn, Option.any_some, Option.any_some, hsame]
      · rfl
    · rw [hstarted, List.map_append, List.mem_append, h.called m, List.map_singleton,
        List.mem_singleton]
      split_ifs with heq
      · simp [heq, hnew]
      · simp [heq]
  · rcases hstarted with ⟨hstarted, -⟩ | ⟨proc, ctx, hstarted, hrequest, hold, -⟩
    · refine ⟨fun m proc ctx hm => ?_, hstarted ▸ h.runs.once⟩
      rw [hstarted] at hm
      rw [hrequests]
      exact h.runs.asked m proc ctx hm
    · refine ⟨fun m proc' ctx' hm => ?_, ?_⟩
      · rw [hrequests]
        rw [hstarted, List.mem_append, List.mem_singleton] at hm
        rcases hm with hm | hm
        · exact h.runs.asked m proc' ctx' hm
        · cases hm
          exact hrequest
      · rw [hstarted, List.map_append, List.nodup_append]
        refine ⟨h.runs.once, by simp, fun m hm m' hm' => ?_⟩
        obtain rfl := List.mem_singleton.mp hm'
        rintro rfl
        have hbefore := (h.called _).mp hm
        rw [hn, Option.any_some, hold] at hbefore
        cases hbefore

/-- An act of a thread that does not signal its event. -/
theorem ThreadState.Handover.of_read (h : s.Handover) {n : ℕ} {next next' : ShimNext π κ}
    (hn : s.threads n = some next) (heq : next'.hasSignalled = next.hasSignalled)
    (hholds : next.hasSignalled = false → next.Holds s.sctx.proc s.sctx.ctx s.sctx.barrier →
      next'.Holds s.sctx.proc s.sctx.ctx s.sctx.barrier)
    (hlate : ∀ proc ctx, next' ≠ .callProc proc ctx) (hcalled : next'.hasCalled = next.hasCalled) :
    ThreadState.Handover { s with threads := Function.update s.threads n (some next') } :=
  h.of_thread hn rfl rfl rfl rfl rfl h.null (h.prepared.of_thread hn rfl heq ⟨rfl, rfl, rfl, rfl⟩)
    (fun hearly => ⟨heq.symm.trans hearly, hholds (heq.symm.trans hearly)⟩)
    (fun proc ctx hcall => absurd hcall (hlate proc ctx)) (Or.inl ⟨rfl, hcalled⟩)

/-- A thread signals its event. -/
theorem ThreadState.Handover.shimSetEvent (h : s.Handover) {n : ℕ} {proc : π} {innerCtx : κ}
    {barrier : Handle} (hn : s.threads n = some (.setEvent proc innerCtx barrier)) :
    ThreadState.Handover { s with
      handles := s.signal barrier
      threads := Function.update s.threads n (some (.callProc proc innerCtx))
      started := s.started ++ [] } := by
  obtain ⟨rfl, ⟨rfl, rfl, rfl⟩, threadId, hne, hwait, hrequest, hevent⟩ := h.early_cases hn rfl
  have hsignal : s.signal s.sctx.barrier =
      Function.update s.handles s.sctx.barrier (some (.event true)) := by
    rw [ThreadState.signal, hevent]
  refine h.of_thread hn rfl rfl rfl rfl rfl ?_ ?_ (fun hearly => by cases hearly) ?_
    (Or.inl ⟨List.append_nil _, rfl⟩)
  · dsimp only
    rw [hsignal, Function.update_of_ne, h.null]
    intro hnull
    rw [← hnull, h.null] at hevent
    cases hevent
  · rw [hwait]
    refine ⟨hrequest, ?_, ?_⟩
    · simp only [hsignal, Function.update_self, Option.any_some, ShimNext.hasSignalled]
    · simp only [Function.update_self, reduceCtorEq, hne]
  · rintro proc ctx heq
    cases heq
    exact hrequest

theorem ThreadState.Handover.crtThreadShim (h : s.Handover) {n : ℕ}
    (hstep : crtThreadShim n s = .ok s') : s'.Handover := by
  obtain ⟨next, next', hn, hnext, rfl⟩ := crtThreadShim_eq_ok_iff.mp hstep
  cases next with
  | readProc =>
    obtain rfl := Option.some.inj hnext
    simp only [ShimNext.runs, List.append_nil]
    exact h.of_read hn rfl (fun _ _ => rfl) (by simp) rfl
  | readCtx proc =>
    obtain rfl := Option.some.inj hnext
    simp only [ShimNext.runs, List.append_nil]
    exact h.of_read hn rfl (fun _ hholds => ⟨hholds, rfl⟩) (by simp) rfl
  | readBarrier proc innerCtx =>
    obtain rfl := Option.some.inj hnext
    simp only [ShimNext.runs, List.append_nil]
    exact h.of_read hn rfl (fun _ hholds => ⟨hholds.1, hholds.2, rfl⟩) (by simp) rfl
  | setEvent proc innerCtx barrier =>
    obtain rfl := Option.some.inj hnext
    exact h.shimSetEvent hn
  | callProc proc innerCtx =>
    obtain rfl := Option.some.inj hnext
    refine h.of_thread hn rfl rfl rfl rfl rfl h.null
      (h.prepared.of_thread hn rfl rfl ⟨rfl, rfl, rfl, rfl⟩) (fun hearly => by cases hearly)
      (fun _ _ heq => by cases heq) (Or.inr ?_)
    exact ⟨proc, innerCtx, rfl, h.late n proc innerCtx hn, rfl, rfl⟩
  | running => cases hnext
  | exited exitCode => cases hnext

theorem ThreadState.Handover.procExit (h : s.Handover) {n : ℕ} {result : BitVec 32}
    (hstep : procExit n result s = .ok s') : s'.Handover := by
  obtain ⟨hn, rfl⟩ := procExit_eq_ok_iff.mp hstep
  exact h.of_read hn rfl (fun hearly => by cases hearly) (by simp) rfl

/-- Every possible act of an orderly schedule keeps the invariant. -/
theorem ThreadState.Handover.next (h : s.Handover) {act : ThreadAct π κ}
    (horderly : s.Orderly act) (hstep : threadStep s act = .ok s') : s'.Handover := by
  cases act with
  | call proc ctx => exact h.callCreate hstep
  | create systemResult => exact h.crtThreadCreate horderly hstep
  | shim n => exact h.crtThreadShim hstep
  | exit n result => exact h.procExit hstep
  | join threadId wantsResult =>
    obtain ⟨-, rfl⟩ := crtThreadJoin_eq_ok_iff.mp hstep
    exact ⟨h.null, h.unborn, h.prepared, h.early, h.late, h.called, h.runs.asked, h.runs.once⟩
  | destroy threadId =>
    obtain rfl := Except.ok.inj hstep
    obtain ⟨n, hthread⟩ := horderly
    have hkept {handle : Handle} {signalled : Bool}
        (hevent : s.handles handle = some (.event signalled)) :
        Function.update s.handles (threadHandle threadId) none handle =
          some (.event signalled) := by
      rwa [Function.update_of_ne]
      rintro rfl
      rw [hthread] at hevent
      cases hevent
    refine ⟨?_, h.unborn, ?_, h.early, h.late, h.called, h.runs.asked, h.runs.once⟩
    · simp only [crtThreadDestroy, Function.update_apply, h.null, ite_self]
    · have hprepared := h.prepared
      simp only [crtThreadDestroy]
      cases hcreate : s.create with
      | setProc proc ctx =>
        rw [hcreate] at hprepared
        exact ⟨hprepared.1, hprepared.2.1, hkept hprepared.2.2⟩
      | setCtx ctx =>
        rw [hcreate] at hprepared
        exact ⟨hprepared.1, hprepared.2.1, hkept hprepared.2.2⟩
      | beginThread =>
        rw [hcreate] at hprepared
        exact ⟨hprepared.1, hprepared.2.1, hkept hprepared.2.2⟩
      | wait threadId =>
        rw [hcreate] at hprepared
        exact ⟨hprepared.1, hkept hprepared.2.1, hprepared.2.2⟩
      | closeHandle threadId =>
        rw [hcreate] at hprepared
        exact ⟨hkept hprepared.1, hprepared.2⟩
      | _ =>
        rw [hcreate] at hprepared
        exact hprepared

/-- An orderly schedule: every `CreateEvent` in it succeeds, and only threads are
destroyed. -/
abbrev OrderlySchedule (s : ThreadState π κ) (acts : List (ThreadAct π κ))
    (s' : ThreadState π κ) : Prop :=
  Schedule threadStep ThreadState.Orderly s acts s'

/-- The invariant holds after every orderly schedule. -/
theorem ThreadState.Handover.of_schedule (h : s.Handover) {acts : List (ThreadAct π κ)}
    (hacts : OrderlySchedule s acts s') : s'.Handover :=
  hacts.invariant ThreadState.Handover h fun _ _ _ horderly h hstep => h.next horderly hstep

/-! ### Without an event -/

theorem ThreadState.orderly_create (h : ∀ proc ctx, s.create ≠ .createEvent proc ctx)
    (systemResult : Handle) : s.Orderly (.create systemResult) :=
  fun proc ctx hcreate => absurd hcreate (h proc ctx)

/-- A call without an event does not wait for its thread. -/
theorem exists_unwaited {proc : π} {ctx : κ} (hcreate : s.create = .setProc proc ctx)
    (hbarrier : s.sctx.barrier = 0) (hnull : s.handles 0 = none) {handle : Handle}
    (hhandle : handle ≠ 0) (hfree : s.handles handle = none) :
    ∃ acts s', OrderlySchedule s acts s' ∧ s'.create = .outside ∧ s'.calls = s.calls ∧
      s'.requests = s.requests ∧ s'.threads s.calls = some .readProc ∧
      ∀ other ≠ handle, s.handles other = none → s'.handles other = none := by
  obtain ⟨create, calls, ⟨barrier, _, _⟩, handles, threads, requests, returned, started,
    joined⟩ := s
  dsimp only at hcreate hbarrier hnull hfree
  subst hcreate hbarrier
  have hwaits {t : ThreadState π κ} (ht : t.handles 0 = none) : ¬t.waits 0 = true := by
    rw [ThreadState.waits, ht]
    exact Bool.false_ne_true
  refine ⟨[.create 0, .create 0, .create handle, .create 0, .create 0, .create 0], _,
    .cons (ThreadState.orderly_create (by simp) _) rfl
      (.cons (ThreadState.orderly_create (by simp) _) rfl
      (.cons (ThreadState.orderly_create (by simp) _) (if_pos (Or.inr hfree))
      (.cons (ThreadState.orderly_create (by simp) _) (if_neg (hwaits ?_))
      (.cons (ThreadState.orderly_create (by simp) _) rfl
      (.cons (ThreadState.orderly_create (by simp) _) rfl .nil))))),
    rfl, rfl, rfl, ?_, fun other hother hnone => ?_⟩
  · exact ThreadState.allocate_null hnull ..
  · dsimp only
    rw [if_neg hhandle, Function.update_self]
  · dsimp only
    rw [Function.update_apply, ThreadState.allocate, if_neg hhandle,
      Function.update_of_ne hother, hnone, ite_self]

/-- A call writes what it is asked to run into the struct. -/
theorem exists_prepared (hcreate : s.create = .outside) {event : Handle} (hevent : event ≠ 0)
    (hfree : s.handles event = none) (proc : π) (ctx : κ) :
    ∃ acts s', OrderlySchedule s acts s' ∧ s'.create = .beginThread ∧ s'.sctx.proc = proc ∧
      s'.sctx.ctx = ctx ∧ s'.threads = s.threads ∧ s'.requests s.calls = s.requests s.calls ∧
      s'.handles = Function.update s.handles event (some (.event false)) := by
  obtain ⟨create, calls, sctx, handles, threads, requests, returned, started, joined⟩ := s
  dsimp only at hcreate hfree
  subst hcreate
  refine ⟨[.call proc ctx, .create event, .create 0, .create 0], _,
    .cons trivial rfl (.cons (fun _ _ _ => hevent) (if_pos (Or.inr hfree))
      (.cons (ThreadState.orderly_create (by simp) _) rfl
      (.cons (ThreadState.orderly_create (by simp) _) rfl .nil))), rfl, rfl, rfl, rfl, ?_,
    if_neg hevent⟩
  dsimp only
  rw [Function.update_of_ne (by omega)]

/-- A thread that has not read the struct can run what is in it. -/
theorem exists_started {n : ℕ} (hn : s.threads n = some .readProc) :
    ∃ acts s', OrderlySchedule s acts s' ∧ (n, s.sctx.proc, s.sctx.ctx) ∈ s'.started ∧
      s'.requests = s.requests := by
  have hshim {t : ThreadState π κ} {next next' : ShimNext π κ} (ht : t.threads n = some next)
      (hnext : next.after t.sctx = some next') :
      ∃ t', threadStep t (.shim n) = .ok t' ∧ t'.sctx = t.sctx ∧ t'.requests = t.requests ∧
        t'.threads n = some next' ∧ t'.started = t.started ++ next.runs n :=
    ⟨_, crtThreadShim_eq_ok_iff.mpr ⟨next, next', ht, hnext, rfl⟩, rfl, rfl,
      Function.update_self .., rfl⟩
  obtain ⟨s₁, h₁, hsctx₁, hrequests₁, hn₁, -⟩ := hshim hn rfl
  obtain ⟨s₂, h₂, hsctx₂, hrequests₂, hn₂, -⟩ := hshim hn₁ rfl
  obtain ⟨s₃, h₃, -, hrequests₃, hn₃, -⟩ := hshim hn₂ rfl
  obtain ⟨s₄, h₄, -, hrequests₄, hn₄, -⟩ := hshim hn₃ rfl
  obtain ⟨s₅, h₅, -, hrequests₅, -, hstarted₅⟩ := hshim hn₄ rfl
  refine ⟨[.shim n, .shim n, .shim n, .shim n, .shim n], s₅, .cons trivial h₁ (.cons trivial h₂
    (.cons trivial h₃ (.cons trivial h₄ (.cons trivial h₅ .nil)))), ?_, ?_⟩
  · rw [hstarted₅, ShimNext.runs, hsctx₁]
    simp
  · rw [hrequests₅, hrequests₄, hrequests₃, hrequests₂, hrequests₁]

/-- Without an event, a thread can run what the next call asks for. The two handles are
those of the thread and of the next call's event. -/
theorem ThreadState.Handover.exists_stolen (h : s.Handover) {proc : π} {ctx : κ}
    (hcreate : s.create = .createEvent proc ctx) {handle event : Handle} (hhandle : handle ≠ 0)
    (hfree : s.handles handle = none) (hevent : event ≠ 0) (hfree' : s.handles event = none)
    (hne : event ≠ handle) (proc' : π) (ctx' : κ) :
    ∃ s₁ acts s', threadStep s (.create 0) = .ok s₁ ∧ OrderlySchedule s₁ acts s' ∧
      (s.calls, proc', ctx') ∈ s'.started ∧ s'.requests s.calls = some (proc, ctx) := by
  have hprepared := h.prepared
  rw [hcreate] at hprepared
  have hstep : threadStep s (.create 0) = .ok { s with
      sctx := { s.sctx with barrier := 0 }
      create := .setProc proc ctx } := by
    simp [threadStep, Util.crtThreadCreate, hcreate, ThreadState.IsFresh, ThreadState.allocate]
  obtain ⟨acts₁, s₁, hacts₁, hcreate₁, hcalls₁, hrequests₁, hthread₁, hfree₁⟩ :=
    exists_unwaited (s := { s with
      sctx := { s.sctx with barrier := 0 }
      create := .setProc proc ctx }) rfl rfl h.null hhandle hfree
  obtain ⟨acts₂, s₂, hacts₂, -, hproc₂, hctx₂, hthreads₂, hrequests₂, -⟩ :=
    exists_prepared hcreate₁ hevent (hfree₁ event hne hfree') proc' ctx'
  obtain ⟨acts₃, s₃, hacts₃, hstarted₃, hrequests₃⟩ :=
    exists_started ((congrFun hthreads₂ _).trans hthread₁)
  refine ⟨_, _, _, hstep, (hacts₁.append hacts₂).append hacts₃, ?_, ?_⟩
  · rwa [hproc₂, hctx₂] at hstarted₃
  · rw [hcalls₁] at hrequests₂
    dsimp only at hrequests₂
    rw [hrequests₃, hrequests₂, hrequests₁]
    exact hprepared.1

/-! ### When the hand-over works -/

/-- Threads run what their calls asked for, and none has yet to read a struct that its
call has left. -/
structure ThreadState.HandsOver (s : ThreadState π κ) : Prop where
  runs : s.RunsAsRequested
  reads : ∀ n next, s.threads n = some next → next.hasSignalled = false →
    n = s.calls ∧ ∃ threadId, s.create = .wait threadId

theorem ThreadState.Handover.handsOver (h : s.Handover) : s.HandsOver where
  runs := h.runs
  reads n next hn hearly := by
    obtain ⟨hcall, hwait, -⟩ := h.early n next hn hearly
    exact ⟨hcall, hwait⟩

end MamePlugins.Util
