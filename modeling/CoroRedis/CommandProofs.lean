import Mathlib.Logic.Function.Basic
import CoroRedis.HiredisFormatProofs
import CoroRedis.ReplyProofs
import CoroRedis.TaskAwaiterProofs
import CoroRedis.Lib.RunProofs

/-! # `coro_connection_impl::command` — coroutines sharing one connection

    Any number of coroutines run against one connection.  A coroutine is a
    `Program`: what it does next, given everything its awaits have yielded so
    far.  It may `co_await` a freshly built command, suspend on something
    else, or finish.

    `Session` is the connection with everything hanging on it: hiredis'
    context state and callback queue, the live awaiters, the coroutines.  The
    definitions below follow the two overloads of `command` call by call:
    the suspend callback formats the text and submits the buffer without
    looking at either result, the hiredis callback stores the reply if there
    is one and resumes, and the resume callback decodes what is stored.
    Resuming runs the coroutine up to its next suspension inside the callback.

    What hiredis does with a null buffer is not documented; the model takes it
    as a parameter (`Hiredis.queuesNull`).  The commands are those that get one
    reply each, so neither `subscribe` nor `monitor`. -/

namespace CoroCommand

open CoroBytes HiredisFormat RedisReplies TaskAwaiters

/-! ## Commands -/

/-- The `CORO_RET` of the first overload. -/
inductive RetType where
  | string | strings | uint64
  deriving DecidableEq

/-- What the resume callback does with a reply: `deal_redis_reply<CORO_RET>`
    (first overload) or the given function, which may be empty (second). -/
inductive ResumeOp where
  | deal (ret : RetType)
  | replyOp (op : Option (RedisReply → Option ScanRet))

/-- A command as its caller builds it. -/
structure Command where
  text : Bytes
  op : ResumeOp

/-- The `std::optional` a `co_await` yields. -/
inductive Value where
  | string (v : Option Bytes)
  | strings (v : Option (List Bytes))
  | uint64 (v : Option UInt64)
  | scan (v : Option ScanRet)
  deriving DecidableEq

/-- The value is `std::nullopt`. -/
def Value.isNullopt : Value → Bool
  | .string v => v.isNone
  | .strings v => v.isNone
  | .uint64 v => v.isNone
  | .scan v => v.isNone

/-- The resume callbacks of the two overloads, on `coro_return()`. -/
def ResumeOp.resumeCallback : ResumeOp → Option RedisReply → Value
  | .deal .string, none => .string none
  | .deal .strings, none => .strings none
  | .deal .uint64, none => .uint64 none
  | .replyOp _, none => .scan none
  | .deal .string, some reply => .string (dealRedisReplyString (some reply))
  | .deal .strings, some reply => .strings (dealRedisReplyStrings (some reply))
  | .deal .uint64, some reply => .uint64 (dealRedisReplyUint64 (some reply))
  | .replyOp none, some _ => .scan none
  | .replyOp (some op), some reply => .scan (op reply)

/-- Without a stored reply every command yields `nullopt`. -/
theorem resumeCallback_none (op : ResumeOp) :
    (op.resumeCallback none).isNullopt = true := by
  cases op with
  | deal ret => cases ret <;> rfl
  | replyOp op => rfl

/-! ## Coroutines -/

/-- What a coroutine learns while it runs. -/
inductive Item where
  | result (v : Value)
  | woken

/-- What a coroutine does when it runs. -/
inductive Next where
  | send (cmd : Command)
  | pause
  | finish

/-- A coroutine body: its next action after everything it has learnt. -/
abbrev Program := List Item → Next

inductive CoroStatus where
  | fresh
  | running
  | suspended (a : AwaiterPtr)
  | paused
  | finished
  deriving DecidableEq

structure Coroutine where
  status : CoroStatus
  history : List Item

/-! ## The connection -/

/-- The flags of the hiredis context that matter to a sender. -/
inductive CtxState where
  | connected
  | disconnecting
  | freeing
  deriving DecidableEq

/-- The hiredis in use. -/
structure Hiredis where
  fmt : RedisFormat
  queuesNull : Bool

/-- Whether `redisAsyncFormattedCommand` queues the callback: never while the
    context is disconnecting or being freed. -/
def Hiredis.queues (H : Hiredis) (ctx : CtxState)
    (buf : Option (List Bytes)) : Bool :=
  ctx = .connected && (buf.isSome || H.queuesNull)

/-- An awaiter together with what its two callbacks captured. -/
structure CommandAwaiter where
  base : TaskAwaiter RedisReply
  cmd : Command

/-- One connection with all that hangs on it. -/
structure Session where
  ctx : CtxState
  /-- The queued callbacks, by their private data. -/
  replies : List AwaiterPtr
  awaiters : AwaiterPtr → Option CommandAwaiter
  nextAwaiter : AwaiterPtr
  coros : CoroHandle → Coroutine

/-- What an observer of the connection sees. -/
inductive Event where
  /-- Coroutine `k` awaits `cmd` on the awaiter `a`. -/
  | sent (k : CoroHandle) (a : AwaiterPtr) (cmd : Command)
  /-- The buffer handed to `redisAsyncFormattedCommand`. -/
  | submitted (a : AwaiterPtr) (buf : Option (List Bytes))
  | accepted (a : AwaiterPtr) (cmd : Command)
  | refused (a : AwaiterPtr)
  /-- hiredis runs the callback of `a`. -/
  | callback (a : AwaiterPtr) (reply : Option RedisReply)
  /-- The `co_await` of coroutine `k` on `a` yields `v`. -/
  | resumed (k : CoroHandle) (a : AwaiterPtr) (v : Value)
  /-- A callback reaches an awaiter that no longer exists. -/
  | dangling (a : AwaiterPtr)

/-- A fresh connection; no coroutine has started. -/
def Session.init : Session where
  ctx := .connected
  replies := []
  awaiters _ := none
  nextAwaiter := 0
  coros _ := ⟨.fresh, []⟩

namespace Session

def setCoro (s : Session) (k : CoroHandle) (c : Coroutine) : Session :=
  { s with coros := Function.update s.coros k c }

/-- `redisAsyncFormattedCommand(ctx, cb, awaiter, pcmd, cmd_len)`. -/
def redisAsyncFormattedCommand (H : Hiredis) (s : Session) (a : AwaiterPtr)
    (cmd : Command) (buf : Option (List Bytes)) : Session × List Event :=
  if H.queues s.ctx buf then
    ({ s with replies := s.replies ++ [a] },
      [.submitted a buf, .accepted a cmd])
  else (s, [.submitted a buf, .refused a])

/-- The suspend callback of `command`: both results are ignored. -/
def suspendCallback (H : Hiredis) (s : Session) (a : AwaiterPtr)
    (cmd : Command) : Session × List Event :=
  s.redisAsyncFormattedCommand H a cmd (H.fmt.format cmd.text)

/-- `co_await command(cmd)` in coroutine `k`. -/
def coAwait (H : Hiredis) (s : Session) (k : CoroHandle) (cmd : Command) :
    Session × List Event :=
  let a := s.nextAwaiter
  let s₁ : Session :=
    { s with
      awaiters := Function.update s.awaiters a (some ⟨.suspended k, cmd⟩)
      nextAwaiter := a + 1
      coros := Function.update s.coros k
        ⟨.suspended a, (s.coros k).history⟩ }
  let r := s₁.suspendCallback H a cmd
  (r.1, .sent k a cmd :: r.2)

/-- Coroutine `k` runs to its next suspension. -/
def advance (H : Hiredis) (prog : CoroHandle → Program) (s : Session)
    (k : CoroHandle) : Session × List Event :=
  match prog k (s.coros k).history with
  | .send cmd => s.coAwait H k cmd
  | .pause => (s.setCoro k ⟨.paused, (s.coros k).history⟩, [])
  | .finish => (s.setCoro k ⟨.finished, (s.coros k).history⟩, [])

/-- Coroutine `k` is given `items` and starts running. -/
def wakeUp (s : Session) (k : CoroHandle) (items : List Item) : Session :=
  s.setCoro k ⟨.running, (s.coros k).history ++ items⟩

/-- The hiredis callback up to the point where `await_resume` has returned:
    store the reply if there is one, resume, decode; the awaiter is gone. -/
def callback (s : Session) (a : AwaiterPtr) (aw : CommandAwaiter)
    (k : CoroHandle) (reply : Option RedisReply) : Session × List Event :=
  let base := match reply with
    | some r => aw.base.setCoroReturn r
    | none => aw.base
  let v := aw.cmd.op.resumeCallback base.coroTmpReturn
  let s₁ := { s with awaiters := Function.update s.awaiters a none }
  (s₁.wakeUp k [.result v], [.callback a reply, .resumed k a v])

/-- hiredis takes the front callback `a` off the queue and runs it. -/
def deliver (s : Session) (a : AwaiterPtr) (rest : List AwaiterPtr)
    (reply : Option RedisReply) :
    Session × List Event × Option CoroHandle :=
  let s := { s with replies := rest }
  match s.awaiters a with
  | none => (s, [.callback a reply, .dangling a], none)
  | some aw =>
      match aw.base.hCoro with
      | none => (s, [.callback a reply, .dangling a], none)
      | some k =>
          let r := s.callback a aw k reply
          (r.1, r.2, some k)

end Session

/-- One external event. -/
inductive Label where
  /-- Coroutine `k` is called. -/
  | start (k : CoroHandle)
  /-- What coroutine `k` waits for outside this connection happens. -/
  | wake (k : CoroHandle)
  /-- The server answers the oldest outstanding command. -/
  | reply (r : RedisReply)
  /-- `redisAsyncDisconnect`. -/
  | disconnect
  /-- The context is being freed: the sweep over the queue begins. -/
  | free
  /-- One callback of the sweep. -/
  | nullReply

/-- What an external event does before a coroutine runs, and the coroutine it
    lets run. -/
def arrive (s : Session) : Label →
    Option (Session × List Event × Option CoroHandle)
  | .start k =>
      if (s.coros k).status = .fresh then some (s.wakeUp k [], [], some k)
      else none
  | .wake k =>
      if (s.coros k).status = .paused then
        some (s.wakeUp k [.woken], [], some k)
      else none
  | .reply r =>
      if s.ctx = .freeing then none
      else match s.replies with
        | [] => none
        | a :: rest => some (s.deliver a rest (some r))
  | .disconnect =>
      if s.ctx = .connected then
        some ({ s with ctx := .disconnecting }, [], none)
      else none
  | .free =>
      if s.ctx = .freeing then none
      else some ({ s with ctx := .freeing }, [], none)
  | .nullReply =>
      if s.ctx = .freeing then
        match s.replies with
        | [] => none
        | a :: rest => some (s.deliver a rest none)
      else none

/-- The transition function: the coroutine that is let run runs to its next
    suspension before the event is over. -/
def step (H : Hiredis) (prog : CoroHandle → Program) (s : Session)
    (l : Label) : Option (Session × List Event) :=
  match arrive s l with
  | none => none
  | some (s₁, es, none) => some (s₁, es)
  | some (s₁, es, some k) =>
      let r := s₁.advance H prog k
      some (r.1, es ++ r.2)

end CoroCommand
