import MamePlugins.Library.Runs
import Mathlib.Logic.Function.Basic

/-!
# Threads

`crt_thread_create` starts a thread and hands it its arguments in a struct on its own
stack, which it may leave only once the thread has read them. The thread says so
through an event. This file has the two sides of that, one act at a time, with the
handles of the process between them.
-/

namespace MamePlugins.Util

open Library

/-- A `HANDLE`. Zero is `NULL`. -/
abbrev Handle := BitVec 64

/-- What a handle of the process refers to. Threads are counted by the calls that
create them. -/
inductive HandleObject
  | event (signalled : Bool)
  | thread (call : ℕ)
  deriving DecidableEq

/-- `struct shim_ctx` -/
structure ShimCtx (π κ : Type) where
  barrier : Handle
  proc : π
  ctx : κ

/-- What `crt_thread_create` does next. -/
inductive CreateNext (π κ : Type)
  | outside
  | createEvent (proc : π) (ctx : κ)
  | setProc (proc : π) (ctx : κ)
  | setCtx (ctx : κ)
  | beginThread
  | wait (threadId : Handle)
  | closeHandle (threadId : Handle)
  | leave (threadId : Handle)

/-- What `crt_thread_shim` does next. -/
inductive ShimNext (π κ : Type)
  | readProc
  | readCtx (proc : π)
  | readBarrier (proc : π) (innerCtx : κ)
  | setEvent (proc : π) (innerCtx : κ) (barrier : Handle)
  | callProc (proc : π) (innerCtx : κ)
  | running
  | exited (exitCode : BitVec 32)

/-- The process: one thread calls `crt_thread_create` again and again, and so always has
the struct in the same place. -/
structure ThreadState (π κ : Type) where
  create : CreateNext π κ
  /-- The calls of `crt_thread_create` so far, the one in progress included. -/
  calls : ℕ
  sctx : ShimCtx π κ
  handles : Handle → Option HandleObject
  threads : ℕ → Option (ShimNext π κ)
  /-- What the calls were asked to run. -/
  requests : ℕ → Option (π × κ)
  /-- What the calls have returned. -/
  returned : ℕ → Option (BitVec 32)
  /-- What the threads have run. -/
  started : List (ℕ × π × κ)
  /-- The joins so far, each with the result that it has stored. -/
  joined : List (BitVec 32 × Option (BitVec 32))

/-- An act of one of the parties. Where `crt_thread_create` calls the system,
`systemResult` is what that returns. -/
inductive ThreadAct (π κ : Type)
  | call (proc : π) (ctx : κ)
  | create (systemResult : Handle)
  | shim (thread : ℕ)
  | exit (thread : ℕ) (result : BitVec 32)
  | join (threadId : BitVec 32) (wantsResult : Bool)
  | destroy (threadId : BitVec 32)

/-- The act is not possible: it waits for another one, or is not due. -/
inductive Blocked
  | blocked

variable {π κ : Type}

/-- The system returns `NULL` or a handle that is not in use. -/
def ThreadState.IsFresh (s : ThreadState π κ) (handle : Handle) : Prop :=
  handle = 0 ∨ s.handles handle = none

instance (s : ThreadState π κ) (handle : Handle) : Decidable (s.IsFresh handle) :=
  inferInstanceAs (Decidable (handle = 0 ∨ s.handles handle = none))

/-- The handles with a new one, unless that is `NULL`. -/
def ThreadState.allocate (s : ThreadState π κ) (handle : Handle) (object : HandleObject) :
    Handle → Option HandleObject :=
  if handle = 0 then s.handles else Function.update s.handles handle (some object)

/-- `WaitForSingleObject` waits for an event to be signalled or a thread to exit. With any
other handle it fails at once. -/
def ThreadState.waits (s : ThreadState π κ) (handle : Handle) : Bool :=
  match s.handles handle with
  | some (.event signalled) => !signalled
  | some (.thread n) =>
    match s.threads n with
    | some (.exited _) => false
    | _ => true
  | none => false

/-- `SetEvent` -/
def ThreadState.signal (s : ThreadState π κ) (handle : Handle) : Handle → Option HandleObject :=
  match s.handles handle with
  | some (.event _) => Function.update s.handles handle (some (.event true))
  | _ => s.handles

/-- `GetExitCodeThread` -/
def ThreadState.exitCode (s : ThreadState π κ) (handle : Handle) : Option (BitVec 32) :=
  match s.handles handle with
  | some (.thread n) =>
    match s.threads n with
    | some (.exited exitCode) => some exitCode
    | _ => none
  | _ => none

/-- The handle behind a thread id: `(HANDLE)(uintptr_t) thread_id`. -/
def threadHandle (threadId : BitVec 32) : Handle := threadId.signExtend 64

/-- `crt_thread_create` -/
def crtThreadCreate (systemResult : Handle) (s : ThreadState π κ) :
    Except Blocked (ThreadState π κ) :=
  match s.create with
  | .outside => .error .blocked
  | .createEvent proc ctx =>
    if s.IsFresh systemResult then
      .ok { s with
        sctx := { s.sctx with barrier := systemResult }
        handles := s.allocate systemResult (.event false)
        create := .setProc proc ctx }
    else .error .blocked
  | .setProc proc ctx =>
    .ok { s with sctx := { s.sctx with proc := proc }, create := .setCtx ctx }
  | .setCtx ctx => .ok { s with sctx := { s.sctx with ctx := ctx }, create := .beginThread }
  | .beginThread =>
    if s.IsFresh systemResult then
      .ok { s with
        handles := s.allocate systemResult (.thread s.calls)
        threads := if systemResult = 0 then s.threads
          else Function.update s.threads s.calls (some .readProc)
        create := .wait systemResult }
    else .error .blocked
  | .wait threadId =>
    if s.waits s.sctx.barrier then .error .blocked
    else .ok { s with create := .closeHandle threadId }
  | .closeHandle threadId =>
    .ok { s with
      handles := Function.update s.handles s.sctx.barrier none
      create := .leave threadId }
  | .leave threadId =>
    .ok { s with
      returned := Function.update s.returned s.calls (some (threadId.setWidth 32))
      create := .outside }

/-- `crt_thread_shim`, in a thread. It reads the struct wherever `crt_thread_create` is. -/
def crtThreadShim (n : ℕ) (s : ThreadState π κ) : Except Blocked (ThreadState π κ) :=
  match s.threads n with
  | some .readProc =>
    .ok { s with threads := Function.update s.threads n (some (.readCtx s.sctx.proc)) }
  | some (.readCtx proc) =>
    .ok { s with threads := Function.update s.threads n (some (.readBarrier proc s.sctx.ctx)) }
  | some (.readBarrier proc innerCtx) =>
    .ok { s with
      threads := Function.update s.threads n (some (.setEvent proc innerCtx s.sctx.barrier)) }
  | some (.setEvent proc innerCtx barrier) =>
    .ok { s with
      handles := s.signal barrier
      threads := Function.update s.threads n (some (.callProc proc innerCtx)) }
  | some (.callProc proc innerCtx) =>
    .ok { s with
      threads := Function.update s.threads n (some .running)
      started := s.started ++ [(n, proc, innerCtx)] }
  | _ => .error .blocked

/-- `return proc(inner_ctx)`, once `proc` has come to its end. -/
def procExit (n : ℕ) (result : BitVec 32) (s : ThreadState π κ) :
    Except Blocked (ThreadState π κ) :=
  match s.threads n with
  | some .running =>
    .ok { s with threads := Function.update s.threads n (some (.exited result)) }
  | _ => .error .blocked

/-- `crt_thread_join`. The caller may have no use for the result. -/
def crtThreadJoin (threadId : BitVec 32) (wantsResult : Bool) (s : ThreadState π κ) :
    Except Blocked (ThreadState π κ) :=
  if s.waits (threadHandle threadId) then .error .blocked
  else
    let result := if wantsResult then s.exitCode (threadHandle threadId) else none
    .ok { s with joined := s.joined ++ [(threadId, result)] }

/-- `crt_thread_destroy` -/
def crtThreadDestroy (threadId : BitVec 32) (s : ThreadState π κ) : ThreadState π κ :=
  { s with handles := Function.update s.handles (threadHandle threadId) none }

/-- The caller asks for a thread. -/
def callCreate (proc : π) (ctx : κ) (s : ThreadState π κ) : Except Blocked (ThreadState π κ) :=
  match s.create with
  | .outside =>
    .ok { s with
      create := .createEvent proc ctx
      calls := s.calls + 1
      requests := Function.update s.requests (s.calls + 1) (some (proc, ctx)) }
  | _ => .error .blocked

/-- One act. -/
def threadStep (s : ThreadState π κ) : ThreadAct π κ → Except Blocked (ThreadState π κ)
  | .call proc ctx => callCreate proc ctx s
  | .create systemResult => crtThreadCreate systemResult s
  | .shim n => crtThreadShim n s
  | .exit n result => procExit n result s
  | .join threadId wantsResult => crtThreadJoin threadId wantsResult s
  | .destroy threadId => .ok (crtThreadDestroy threadId s)

/-- A schedule of the process. -/
abbrev runThreads (s : ThreadState π κ) (acts : List (ThreadAct π κ)) :
    Except Blocked (ThreadState π κ) :=
  runEvents threadStep s acts

/-- Before any call. Where the struct is going to be, there is anything. -/
def ThreadState.initial (garbage : ShimCtx π κ) : ThreadState π κ where
  create := .outside
  calls := 0
  sctx := garbage
  handles := fun _ => none
  threads := fun _ => none
  requests := fun _ => none
  returned := fun _ => none
  started := []
  joined := []

/-! ### What an act can do -/

variable {s s' : ThreadState π κ}

theorem callCreate_cases {proc : π} {ctx : κ} (hstep : callCreate proc ctx s = .ok s') :
    s.create = .outside ∧ s' = { s with
      create := .createEvent proc ctx
      calls := s.calls + 1
      requests := Function.update s.requests (s.calls + 1) (some (proc, ctx)) } := by
  cases hcreate : s.create with
  | outside =>
    rw [callCreate, hcreate] at hstep
    exact ⟨rfl, (Except.ok.inj hstep).symm⟩
  | _ =>
    rw [callCreate, hcreate] at hstep
    cases hstep

theorem crtThreadCreate_cases {systemResult : Handle}
    (hstep : crtThreadCreate systemResult s = .ok s') :
    (∃ proc ctx, s.create = .createEvent proc ctx ∧ s.IsFresh systemResult ∧ s' = { s with
        sctx := { s.sctx with barrier := systemResult }
        handles := s.allocate systemResult (.event false)
        create := .setProc proc ctx }) ∨
      (∃ proc ctx, s.create = .setProc proc ctx ∧
        s' = { s with sctx := { s.sctx with proc := proc }, create := .setCtx ctx }) ∨
      (∃ ctx, s.create = .setCtx ctx ∧
        s' = { s with sctx := { s.sctx with ctx := ctx }, create := .beginThread }) ∨
      (s.create = .beginThread ∧ s.IsFresh systemResult ∧ s' = { s with
        handles := s.allocate systemResult (.thread s.calls)
        threads := if systemResult = 0 then s.threads
          else Function.update s.threads s.calls (some .readProc)
        create := .wait systemResult }) ∨
      (∃ threadId, s.create = .wait threadId ∧ s.waits s.sctx.barrier = false ∧
        s' = { s with create := .closeHandle threadId }) ∨
      (∃ threadId, s.create = .closeHandle threadId ∧ s' = { s with
        handles := Function.update s.handles s.sctx.barrier none
        create := .leave threadId }) ∨
      ∃ threadId, s.create = .leave threadId ∧ s' = { s with
        returned := Function.update s.returned s.calls (some (threadId.setWidth 32))
        create := .outside } := by
  cases hcreate : s.create with
  | outside =>
    rw [crtThreadCreate, hcreate] at hstep
    cases hstep
  | createEvent proc ctx =>
    rw [crtThreadCreate, hcreate] at hstep
    by_cases hfresh : s.IsFresh systemResult
    · have hs' := (if_pos hfresh).symm.trans hstep
      exact Or.inl ⟨proc, ctx, rfl, hfresh, (Except.ok.inj hs').symm⟩
    · have hs' := (if_neg hfresh).symm.trans hstep
      cases hs'
  | setProc proc ctx =>
    rw [crtThreadCreate, hcreate] at hstep
    right; left
    exact ⟨proc, ctx, rfl, (Except.ok.inj hstep).symm⟩
  | setCtx ctx =>
    rw [crtThreadCreate, hcreate] at hstep
    right; right; left
    exact ⟨ctx, rfl, (Except.ok.inj hstep).symm⟩
  | beginThread =>
    rw [crtThreadCreate, hcreate] at hstep
    by_cases hfresh : s.IsFresh systemResult
    · have hs' := (if_pos hfresh).symm.trans hstep
      right; right; right; left
      exact ⟨rfl, hfresh, (Except.ok.inj hs').symm⟩
    · have hs' := (if_neg hfresh).symm.trans hstep
      cases hs'
  | wait threadId =>
    rw [crtThreadCreate, hcreate] at hstep
    by_cases hwaits : s.waits s.sctx.barrier = true
    · have hs' := (if_pos hwaits).symm.trans hstep
      cases hs'
    · have hs' := (if_neg hwaits).symm.trans hstep
      right; right; right; right; left
      exact ⟨threadId, rfl, by simpa using hwaits, (Except.ok.inj hs').symm⟩
  | closeHandle threadId =>
    rw [crtThreadCreate, hcreate] at hstep
    right; right; right; right; right; left
    exact ⟨threadId, rfl, (Except.ok.inj hstep).symm⟩
  | leave threadId =>
    rw [crtThreadCreate, hcreate] at hstep
    right; right; right; right; right; right
    exact ⟨threadId, rfl, (Except.ok.inj hstep).symm⟩

/-- What `crt_thread_shim` does after its next act. -/
def ShimNext.after (sctx : ShimCtx π κ) : ShimNext π κ → Option (ShimNext π κ)
  | .readProc => some (.readCtx sctx.proc)
  | .readCtx proc => some (.readBarrier proc sctx.ctx)
  | .readBarrier proc innerCtx => some (.setEvent proc innerCtx sctx.barrier)
  | .setEvent proc innerCtx _ => some (.callProc proc innerCtx)
  | .callProc _ _ => some .running
  | _ => none

/-- What it runs in its next act. -/
def ShimNext.runs (n : ℕ) : ShimNext π κ → List (ℕ × π × κ)
  | .callProc proc innerCtx => [(n, proc, innerCtx)]
  | _ => []

/-- What its next act makes of the handles. -/
def ShimNext.signals (s : ThreadState π κ) : ShimNext π κ → Handle → Option HandleObject
  | .setEvent _ _ barrier => s.signal barrier
  | _ => s.handles

/-- A thread does not wait for anything before it has come to its procedure. -/
theorem crtThreadShim_eq_ok_iff {n : ℕ} :
    crtThreadShim n s = .ok s' ↔ ∃ next next', s.threads n = some next ∧
      next.after s.sctx = some next' ∧ s' = { s with
        handles := next.signals s
        threads := Function.update s.threads n (some next')
        started := s.started ++ next.runs n } := by
  rw [crtThreadShim]
  cases hn : s.threads n with
  | none => simp
  | some next =>
    cases next <;> simp [ShimNext.after, ShimNext.signals, ShimNext.runs, eq_comm]

theorem procExit_eq_ok_iff {n : ℕ} {result : BitVec 32} :
    procExit n result s = .ok s' ↔ s.threads n = some .running ∧
      s' = { s with threads := Function.update s.threads n (some (.exited result)) } := by
  rw [procExit]
  cases hn : s.threads n with
  | none => simp
  | some next => cases next <;> simp [eq_comm]

theorem crtThreadJoin_eq_ok_iff {threadId : BitVec 32} {wantsResult : Bool} :
    crtThreadJoin threadId wantsResult s = .ok s' ↔ s.waits (threadHandle threadId) = false ∧
      s' = { s with joined := s.joined ++
        [(threadId, if wantsResult then s.exitCode (threadHandle threadId) else none)] } := by
  rw [crtThreadJoin]
  cases s.waits (threadHandle threadId) with
  | true => simp
  | false => simp [eq_comm]

end MamePlugins.Util
