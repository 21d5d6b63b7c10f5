import CoroRedis.ClientStepProofs

/-! # Fetching under the lock — the call chain of a fetch

    The machine of the client takes an operation of the pool as one step.
    Here the operations are followed through `pool_mutex_`: a lock guard fails
    if the chain of calls holds the lock already, and `resume` runs the
    coroutine, nested in the suspend callback, up to its next suspension.
    What the coroutine does with the connection is any `Continuation`.

    * `reuse_never` — with a connection free the suspend callback resumes
      before anything is stored in the awaiter, and `value()` on an empty
      optional leaves the `noexcept` `await_resume`;
    * `resumeCallback_locked` — with the pointer stored, the nested
      `fetch_from_free_pool` would take the lock a second time;
    * `run_agrees` — the chain does to the pool what the client's step
      does. -/

namespace FetchLock

open TaskAwaiters ClientConnect ClientPool ClientRuns ClientSteps SharedPool

/-! ## The chain of calls -/

/-- What a coroutine does from one resumption to its next suspension. -/
inductive Continuation where
  /-- It suspends on something else, or finishes. -/
  | suspend
  /-- It drops a handle on a connection. -/
  | drop (c : ConnPtr) (next : Continuation)
  /-- It awaits `fetch_coro_conn()`. -/
  | fetch (next : Option ConnPtr → Continuation)

inductive ChainFault where
  /-- `pool_mutex_` is locked while it is held. -/
  | lockHeld
  /-- `coro_return().value()` with nothing stored. -/
  | emptyOptional
  deriving DecidableEq

/-- What a `co_await fetch_coro_conn()` yields, and the two lists then. -/
structure Yield where
  conn : Option ConnPtr
  free : List ConnPtr
  inuse : List ConnPtr
  deriving DecidableEq

/-- The state along the chain. -/
structure Chain where
  pool : Pool
  locked : Bool
  nextAwaiter : AwaiterPtr
  yields : List Yield

namespace Chain

/-- The constructor of `std::lock_guard`. -/
def lock (s : Chain) : Except ChainFault Chain :=
  if s.locked then .error .lockHeld else .ok { s with locked := true }

/-- Its destructor. -/
def unlock (s : Chain) : Chain := { s with locked := false }

/-- `fetch_from_free_pool`. -/
def fetchFromFreePool (s : Chain) :
    Except ChainFault (Option ConnPtr × Chain) := do
  let s ← s.lock
  let r := s.pool.fetchFromFreePool
  return (r.1, { s with pool := r.2 }.unlock)

/-- The resume callback of `fetch_coro_conn` on `coro_return()`. -/
def resumeCallback (s : Chain) (stored : Option ClientPtr) :
    Except ChainFault (Option ConnPtr × Chain) :=
  match stored with
  | none => .error .emptyOptional
  | some _ => s.fetchFromFreePool

/-- A handle goes out of scope; the deleter is `recycle_conn`. -/
def dropHandle (s : Chain) (c : ConnPtr) : Except ChainFault Chain :=
  let held : Pool := { s.pool with handles := s.pool.handles.erase c }
  if held.useCount c = 0 then do
    let s ← s.lock
    return { s with pool := s.pool.dropHandle c }.unlock
  else .ok { s with pool := held }

/-- The coroutine runs on. -/
def run : Continuation → Chain → Except ChainFault Chain
  | .suspend, s => .ok s
  | .drop c next, s => do
      let s ← s.dropHandle c
      run next s
  | .fetch next, s => do
      -- the suspend callback, with its lock guard
      let s ← s.lock
      let a := s.nextAwaiter
      let s := { s with nextAwaiter := a + 1 }
      if s.pool.clt.freePool ≠ [] then
        let aw : TaskAwaiter ClientPtr := .suspended a
        let (conn, s) ← s.resumeCallback aw.coroTmpReturn
        let s ← run (next conn) { s with
          yields := s.yields ++
            [⟨conn, s.pool.clt.freePool, s.pool.clt.inusePool⟩] }
        return s.unlock
      else if s.pool.clt.poolIos ≠ [] then
        -- the guard unlocks however the attempt ends
        return { s with pool := s.pool.takeIo }.unlock
      else
        return { s with pool := s.pool.parkAwaiter a }.unlock

end Chain

/-- The fetch yields `c` at once and nothing goes wrong along the chain: the
    first thing yielded is `c`, with the lists moved on by it. -/
def Reuses (c : ConnPtr) (rest : List ConnPtr) (s : Chain)
    (r : Except ChainFault Chain) : Prop :=
  ∃ s' later, r = .ok s' ∧ s'.yields
    = s.yields ++ ⟨some c, rest, s.pool.clt.inusePool ++ [c]⟩ :: later

section chain

variable {s : Chain}

theorem lock_of_free (h : s.locked = false) :
    s.lock = .ok { s with locked := true } := by
  rw [Chain.lock, h]
  rfl

/-- With the pointer stored, the resume callback would take the lock that the
    suspend callback holds. -/
theorem resumeCallback_locked (h : s.locked = true) (clt : ClientPtr) :
    s.resumeCallback (some clt) = .error .lockHeld := by
  show s.fetchFromFreePool = _
  rw [Chain.fetchFromFreePool, Chain.lock, h]
  rfl

/-- A fetch that finds a free connection. -/
theorem run_fetch_reuse {next : Option ConnPtr → Continuation}
    (hl : s.locked = false) (hfree : s.pool.clt.freePool ≠ []) :
    s.run (.fetch next) = .error .emptyOptional := by
  rw [Chain.run, lock_of_free hl]
  show (if s.pool.clt.freePool ≠ [] then _ else _) = _
  rw [if_pos hfree]
  rfl

/-- A fetch that creates a connection. -/
theorem run_fetch_create {next : Option ConnPtr → Continuation}
    (hl : s.locked = false) (hfree : s.pool.clt.freePool = [])
    (hio : s.pool.clt.poolIos ≠ []) :
    s.run (.fetch next) = .ok { s with
      pool := s.pool.takeIo
      nextAwaiter := s.nextAwaiter + 1
      locked := false } := by
  rw [Chain.run, lock_of_free hl]
  show (if s.pool.clt.freePool ≠ [] then _
    else if s.pool.clt.poolIos ≠ [] then _ else _) = _
  rw [if_neg (not_not.mpr hfree), if_pos hio]
  rfl

/-- A fetch that waits. -/
theorem run_fetch_park {next : Option ConnPtr → Continuation}
    (hl : s.locked = false) (hfree : s.pool.clt.freePool = [])
    (hio : s.pool.clt.poolIos = []) :
    s.run (.fetch next) = .ok { s with
      pool := s.pool.parkAwaiter s.nextAwaiter
      nextAwaiter := s.nextAwaiter + 1
      locked := false } := by
  rw [Chain.run, lock_of_free hl]
  show (if s.pool.clt.freePool ≠ [] then _
    else if s.pool.clt.poolIos ≠ [] then _ else _) = _
  rw [if_neg (not_not.mpr hfree), if_neg (not_not.mpr hio)]
  rfl

end chain

/-- **THE CHAIN AND THE STEP AGREE**: on the pool, and on whether the process
    ends. -/
theorem run_agrees {w : World} {k : CoroHandle} (hk : w.coros k = .active)
    (o : Attempt) (next : Option ConnPtr → Continuation) :
    ((w.fetchCoroConn k o).1.fault = some .terminated ∧ w.fault = none →
      Chain.run (.fetch next) ⟨w.pool, false, w.nextAwaiter, []⟩
        = .error .emptyOptional)
    ∧ (w.pool.clt.freePool = [] →
      ∃ s, Chain.run (.fetch next) ⟨w.pool, false, w.nextAwaiter, []⟩
          = .ok s
        ∧ s.pool = (w.fetchCoroConn k o).1.pool ∧ s.locked = false) := by
  have ho := outcome_fetch (o := o) hk
  generalize (w.fetchCoroConn k o).1 = w' at ho ⊢
  generalize (w.fetchCoroConn k o).2 = es at ho
  have hnone : ∀ {f : Option Fault}, f = some .terminated ∧ w.fault = none →
      f ≠ w.fault := by
    rintro f ⟨rfl, hf⟩
    rw [hf]
    simp
  cases ho with
  | fetchThrows _ hfree =>
      exact ⟨fun _ => run_fetch_reuse rfl hfree, fun h => absurd h hfree⟩
  | fetchExit _ hfree hio _ =>
      refine ⟨fun h => absurd rfl (hnone h), fun _ => ?_⟩
      exact ⟨_, run_fetch_create rfl hfree
        (List.ne_nil_of_mem (List.mem_of_getLast? hio)), rfl, rfl⟩
  | fetchPending _ hfree hio _ =>
      refine ⟨fun h => absurd rfl (hnone h), fun _ => ?_⟩
      exact ⟨_, run_fetch_create rfl hfree
        (List.ne_nil_of_mem (List.mem_of_getLast? hio)), rfl, rfl⟩
  | fetchParked _ hfree hio =>
      refine ⟨fun h => absurd rfl (hnone h), fun _ => ?_⟩
      exact ⟨_, run_fetch_park rfl hfree hio, rfl, rfl⟩
  | moved _ _ hl => exact absurd hl (by simp)

/-- **REUSE NEVER WORKS**: whatever the pool holds besides a free connection
    and whatever the coroutine does next, the fetch ends the process. -/
theorem reuse_never (s : Chain) (c : ConnPtr) (rest : List ConnPtr)
    (next : Option ConnPtr → Continuation)
    (hl : s.locked = false) (hfree : s.pool.clt.freePool = c :: rest) :
    s.run (.fetch next) = .error .emptyOptional
      ∧ ¬ Reuses c rest s (s.run (.fetch next)) := by
  have hrun : s.run (.fetch next) = .error .emptyOptional :=
    run_fetch_reuse hl (by rw [hfree]; exact List.cons_ne_nil _ _)
  refine ⟨hrun, ?_⟩
  rintro ⟨s', later, hok, -⟩
  rw [hrun] at hok
  exact absurd hok (by simp)

/-- A pool with one connection, which is free. -/
def oneFree : Chain :=
  ⟨⟨{ ClientImpl.new with freePool := [0] }, [⟨some 0⟩], []⟩, false, 0, []⟩

theorem reuse_never_oneFree :
    oneFree.run (.fetch fun _ => .suspend) = .error .emptyOptional
      ∧ ¬ Reuses 0 [] oneFree (oneFree.run (.fetch fun _ => .suspend)) :=
  reuse_never oneFree 0 [] _ rfl rfl

/-- The coroutine asks for nothing but the one free connection. -/
theorem free_conn_is_not_yielded :
    oneFree.pool.clt.freePool = [0]
      ∧ ¬ Reuses 0 [] oneFree (oneFree.run (.fetch fun _ => .suspend)) := by
  refine ⟨rfl, ?_⟩
  rintro ⟨s', later, hok, -⟩
  rw [run_fetch_reuse rfl (List.cons_ne_nil _ _)] at hok
  exact absurd hok (by simp)

end FetchLock
