import Mathlib.Logic.Function.Basic
import CoroRedis.SharedPoolProofs

/-! # Coroutines connecting and fetching — the client as a machine

    A `World` is the client with its pool, the asynchronous contexts hiredis
    holds callbacks for, the live awaiters and the coroutines.  The step
    function follows `coro_connect` and `fetch_coro_conn` callback by
    callback.  Resuming a coroutine runs `await_resume` and frees its awaiter;
    what the coroutine does next is a later step.

    An awaiter is built at `nextAwaiter`, and here every `co_await` gets an
    address of its own: an address says which `co_await` is meant.  In
    `ClientSlotProofs` the addresses of awaits that are over are used again.

    Undefined behaviour and termination are recorded in `fault`, after which
    nothing runs: an awaiter that is used after its `co_await` is over, and
    `value()` on an empty `coro_tmp_return_` inside the `noexcept`
    `await_resume`. -/

namespace ClientRuns

open CoroBytes TaskAwaiters ClientConnect ClientPool SharedPool

/-! ## The data -/

/-- Which of the two functions set the callbacks of a context. -/
inductive CtxKind where
  | connect
  | fetch
  deriving DecidableEq

/-- The life of a context whose callbacks are set. -/
inductive Phase where
  /-- The connect callback is outstanding. -/
  | pending
  /-- It reported `REDIS_OK`. -/
  | established
  | failed
  | disconnected
  deriving DecidableEq

/-- `redisAsyncContext` with the event loop it is attached to. -/
structure AsyncContext where
  opt : RedisOptions
  ioc : IoPtr
  kind : CtxKind
  data : AwaiterPtr
  phase : Phase

/-- The `client_impl*` in the `std::any` of a fetch awaiter; there is one
    client. -/
abbrev ClientPtr := Unit

/-- `awaiter_t` and `fetch_awaiter_t`. -/
inductive Awaiter where
  | connect (aw : TaskAwaiter (Option CtxPtr))
  | fetch (aw : TaskAwaiter ClientPtr)

def Awaiter.hCoro : Awaiter → Option CoroHandle
  | .connect aw => aw.hCoro
  | .fetch aw => aw.hCoro

inductive CoroStatus where
  | active
  | awaiting (a : AwaiterPtr)
  /-- Suspended on something other than connecting and fetching. -/
  | elsewhere
  | finished
  deriving DecidableEq

inductive Fault where
  /-- A dead awaiter is used. -/
  | undefined
  /-- An exception leaves `await_resume`. -/
  | terminated
  deriving DecidableEq

structure World where
  pool : Pool
  /-- The contexts whose callbacks are set, by address. -/
  ctxs : List AsyncContext
  awaiters : AwaiterPtr → Option Awaiter
  nextAwaiter : AwaiterPtr
  coros : CoroHandle → CoroStatus
  fault : Option Fault

/-- What a `co_await` yields: the `shared_ptr`, null or not. -/
inductive AwaitValue where
  | connect (conn : Option CoroConnection)
  | fetch (conn : Option ConnPtr)
  deriving DecidableEq

/-- The value is `nullptr`. -/
def AwaitValue.isNull : AwaitValue → Bool
  | .connect conn => conn.isNone
  | .fetch conn => conn.isNone

inductive Event where
  /-- An `ASSERT_RETURN` leaves the suspend callback of the awaiter. -/
  | earlyExit (a : AwaiterPtr)
  /-- A callback calls `set_coro_return` on the awaiter. -/
  | setCoroReturn (a : AwaiterPtr)
  /-- `resume` is called on the awaiter. -/
  | resume (a : AwaiterPtr)
  /-- `await_resume` has returned. -/
  | returned (a : AwaiterPtr) (v : AwaitValue)
  deriving DecidableEq

/-- The outcome of the hiredis calls of one attempt: no context, or a context
    with its `err`; and what `attach` returns. -/
structure Attempt where
  err : Option Int
  attach : Int
  deriving DecidableEq

/-- The context, if there is one, has address `x`. -/
def Attempt.created (o : Attempt) (x : CtxPtr) : Created :=
  match o.err with
  | none => .null
  | some err => .ctx x err

/-- A context without error, attached. -/
def Attempt.Ok (o : Attempt) : Prop := o.err = some 0 ∧ o.attach = REDIS_OK

instance (o : Attempt) : Decidable o.Ok :=
  inferInstanceAs (Decidable (o.err = some 0 ∧ o.attach = REDIS_OK))

namespace World

/-- No coroutine has started, so nobody waits for the pool. -/
def init (pool : Pool) : World where
  pool := { pool with clt := { pool.clt with fetchAwaiters := [] } }
  ctxs := []
  awaiters _ := none
  nextAwaiter := 0
  coros _ := .active
  fault := none

/-- Coroutine `k` is suspended on the next awaiter. -/
def awaitOn (w : World) (k : CoroHandle) (aw : Awaiter) : World :=
  { w with
    awaiters := Function.update w.awaiters w.nextAwaiter (some aw)
    nextAwaiter := w.nextAwaiter + 1
    coros := Function.update w.coros k (.awaiting w.nextAwaiter) }

/-- The callbacks of a new context are set. -/
def register (w : World) (c : AsyncContext) : World :=
  { w with ctxs := w.ctxs ++ [c] }

def setPhase (w : World) (x : CtxPtr) (ph : Phase) : World :=
  { w with ctxs := w.ctxs.modify x (fun c => { c with phase := ph }) }

def setAwaiter (w : World) (a : AwaiterPtr) (aw : Awaiter) : World :=
  { w with awaiters := Function.update w.awaiters a (some aw) }

/-- The `co_await` on `a` is over and coroutine `k` runs. -/
def finishAwait (w : World) (k : CoroHandle) (a : AwaiterPtr) : World :=
  { w with
    awaiters := Function.update w.awaiters a none
    coros := Function.update w.coros k .active }

/-! ## The functions of the client -/

/-- `resume()` on the awaiter `a`: the coroutine runs `await_resume`. -/
def resume (w : World) (a : AwaiterPtr) : World × List Event :=
  match w.awaiters a with
  | none => ({ w with fault := some .undefined }, [.resume a])
  | some aw =>
      match aw.hCoro with
      | none => ({ w with fault := some .undefined }, [.resume a])
      | some k =>
          let w := w.finishAwait k a
          match aw with
          | .connect aw =>
              (w, [.resume a, .returned a (.connect (connectResume aw))])
          | .fetch aw =>
              match aw.coroTmpReturn with
              | none => ({ w with fault := some .terminated }, [.resume a])
              | some _ =>
                  let r := w.pool.fetchFromFreePool
                  ({ w with pool := r.2 },
                    [.resume a, .returned a (.fetch r.1)])

/-- `co_await coro_connect(…)` in coroutine `k`. -/
def coroConnect (w : World) (k : CoroHandle) (ioc : IoPtr) (host : Bytes)
    (port : UInt16) (timeoutSeconds : Int) (o : Attempt) : World × List Event :=
  let a := w.nextAwaiter
  let w₁ := w.awaitOn k (.connect (.suspended k))
  match coroConnectSuspend host port (o.created w.ctxs.length)
      (fun _ => o.attach) with
  | none => (w₁, [.earlyExit a])
  | some _ =>
      (w₁.register ⟨redisOptions host port timeoutSeconds, ioc, .connect, a,
        .pending⟩, [])

/-- `co_await fetch_coro_conn()` in coroutine `k`. -/
def fetchCoroConn (w : World) (k : CoroHandle) (o : Attempt) :
    World × List Event :=
  let a := w.nextAwaiter
  let clt := w.pool.clt
  let w₁ := w.awaitOn k (.fetch (.suspended k))
  if clt.freePool ≠ [] then w₁.resume a
  else match clt.poolIos.getLast? with
    | some ioc =>
        let w₂ := { w₁ with pool := w₁.pool.takeIo }
        match (o.created w.ctxs.length).usable (fun _ => o.attach) with
        | none => (w₂, [.earlyExit a])
        | some _ =>
            let aw := (TaskAwaiter.suspended k).setCoroReturn ()
            ((w₂.setAwaiter a (.fetch aw)).register
              ⟨redisOptions clt.host clt.port clt.timeout, ioc, .fetch, a,
                .pending⟩, [.setCoroReturn a])
    | none => ({ w₁ with pool := w₁.pool.parkAwaiter a }, [])

/-- The connect callback of context `x`. -/
def connectCb (w : World) (x : CtxPtr) (c : AsyncContext) (status : Int) :
    World × List Event :=
  let w := w.setPhase x
    (if status = REDIS_OK then .established else .failed)
  match c.kind, w.awaiters c.data with
  | .connect, some (.connect aw) =>
      let r := (w.setAwaiter c.data
        (.connect (connectCallback aw x status))).resume c.data
      (r.1, .setCoroReturn c.data :: r.2)
  | .connect, _ =>
      ({ w with fault := some .undefined }, [.setCoroReturn c.data])
  | .fetch, some (.fetch aw) =>
      match aw.coroTmpReturn with
      | none => ({ w with fault := some .terminated }, [])
      | some _ =>
          -- the value of `add_new_conn` is a temporary
          let p := w.pool.addNewConn x
          { w with pool := p.2.dropHandle p.1 }.resume c.data
  | .fetch, _ => ({ w with fault := some .undefined }, [])

/-- The disconnect callback of context `x`. -/
def disconnectCb (w : World) (x : CtxPtr) (c : AsyncContext) :
    World × List Event :=
  let w := w.setPhase x .disconnected
  match c.kind with
  | .connect =>
      match w.awaiters c.data with
      | some (.connect aw) =>
          (w.setAwaiter c.data (.connect (aw.setCoroReturn none)),
            [.setCoroReturn c.data])
      | _ => ({ w with fault := some .undefined }, [.setCoroReturn c.data])
  | .fetch =>
      match w.awaiters c.data with
      | some (.fetch _) => w.resume c.data
      | _ => ({ w with fault := some .undefined }, [.resume c.data])

end World

/-! ## Steps -/

inductive Label where
  | connect (k : CoroHandle) (ioc : IoPtr) (host : Bytes) (port : UInt16)
    (timeoutSeconds : Int) (o : Attempt)
  | fetch (k : CoroHandle) (o : Attempt)
  | connectCb (x : CtxPtr) (status : Int)
  | disconnectCb (x : CtxPtr)
  /-- A handle on a pooled connection goes out of scope. -/
  | dropHandle (c : ConnPtr)
  /-- Coroutine `k` suspends elsewhere, goes on from there, or finishes and its
      frame is destroyed. -/
  | suspend (k : CoroHandle)
  | wake (k : CoroHandle)
  | finish (k : CoroHandle)

/-- The callback of a context in the given phase. -/
def onContext (w : World) (x : CtxPtr) (ph : Phase)
    (f : AsyncContext → World × List Event) : Option (World × List Event) :=
  match w.ctxs[x]? with
  | none => none
  | some c => if c.phase = ph then some (f c) else none

/-- Coroutine `k` leaves one status for another. -/
def move (w : World) (k : CoroHandle) (old new : CoroStatus) :
    Option (World × List Event) :=
  if w.coros k = old then
    some ({ w with coros := Function.update w.coros k new }, [])
  else none

/-- What is enabled while nothing has gone wrong.  The connect callback fires
    at most once, the disconnect callback at most once and only after a
    connect callback with `REDIS_OK`. -/
def stepOk (w : World) : Label → Option (World × List Event)
  | .connect k ioc host port timeoutSeconds o =>
      if w.coros k = .active then
        some (w.coroConnect k ioc host port timeoutSeconds o)
      else none
  | .fetch k o =>
      if w.coros k = .active then some (w.fetchCoroConn k o) else none
  | .connectCb x status =>
      onContext w x .pending fun c => w.connectCb x c status
  | .disconnectCb x => onContext w x .established fun c => w.disconnectCb x c
  | .dropHandle c =>
      if c ∈ w.pool.handles then
        some ({ w with pool := w.pool.dropHandle c }, [])
      else none
  | .suspend k => move w k .active .elsewhere
  | .wake k => move w k .elsewhere .active
  | .finish k => move w k .active .finished

/-- The transition function; a fault is the end. -/
def step (w : World) (l : Label) : Option (World × List Event) :=
  if w.fault = none then stepOk w l else none

/-! ## A small client -/

/-- A pool with one event loop. -/
def oneIoPool : Pool := Pool.init [1] (lit "127.0.0.1") 6379 5

/-- Every hiredis call of an attempt succeeds. -/
def allOk : Attempt := ⟨some 0, REDIS_OK⟩

end ClientRuns
