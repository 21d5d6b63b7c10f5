import CoroRedis.BytesProofs
import CoroRedis.TaskAwaiterProofs

/-! # `coro_connect` and `sync_connect` — what a non-null connection means

    Both functions check host and port, fill a `redisOptions` and ask hiredis
    for a context.  The suspend callback of `coro_connect` leaves through an
    `ASSERT_RETURN` at every failure; otherwise the connect callback stores a
    context pointer, or `nullptr`, in the awaiter, and the resume callback
    wraps whatever is stored.  `sync_connect` wraps every context that is not
    null.

    hiredis and the event loop are parameters: what `…ConnectWithOptions`
    returns, what `attach` returns, which status the connect callback reports,
    if it runs at all. -/

namespace ClientConnect

open CoroBytes TaskAwaiters

/-- A `redisAsyncContext` or `redisContext`, by its address. -/
abbrev CtxPtr := Nat

/-- `coro_connection`; `redis_ctx_` may be null. -/
structure CoroConnection where
  redisCtx : Option CtxPtr
  deriving DecidableEq

/-- `sync_connection`. -/
structure SyncConnection where
  redisCtx : Option CtxPtr
  deriving DecidableEq

def REDIS_OK : Int := 0

/-- `timeval_t`. -/
structure Timeval where
  tvSec : Int
  tvUsec : Int
  deriving DecidableEq

/-- The fields of `redisOptions` that are set. -/
structure RedisOptions where
  ip : Bytes
  port : UInt16
  connectTimeout : Timeval
  commandTimeout : Timeval
  deriving DecidableEq

/-- The options both functions build; hiredis reads the host as a C string. -/
def redisOptions (host : Bytes) (port : UInt16) (timeoutSeconds : Int) :
    RedisOptions where
  ip := cstr host
  port := port
  connectTimeout := ⟨timeoutSeconds, 0⟩
  commandTimeout := ⟨timeoutSeconds, 0⟩

/-- What `redisConnectWithOptions` and `redisAsyncConnectWithOptions` return:
    null, or a context with its `err`. -/
inductive Created where
  | null
  | ctx (x : CtxPtr) (err : Int)
  deriving DecidableEq

/-- hiredis' asynchronous side and the event loop, during one connect. -/
structure AsyncEnv where
  redisAsyncConnectWithOptions : RedisOptions → Created
  attach : CtxPtr → Int
  /-- The status the connect callback reports, if it runs. -/
  status : CtxPtr → Option Int

/-! ## The two functions -/

/-- The three checks that follow `redisAsyncConnectWithOptions`: the context
    that gets the callbacks, `none` where an `ASSERT_RETURN` leaves. -/
def Created.usable (actx : Created) (attach : CtxPtr → Int) : Option CtxPtr :=
  match actx with
  | .null => none
  | .ctx x err =>
      if err ≠ 0 then none
      else if attach x ≠ REDIS_OK then none
      else some x

/-- The suspend callback of `coro_connect`, likewise. -/
def coroConnectSuspend (host : Bytes) (port : UInt16) (created : Created)
    (attach : CtxPtr → Int) : Option CtxPtr :=
  if host = [] then none
  else if ¬ port > 0 then none
  else created.usable attach

/-- The connect callback of `coro_connect`, before it resumes. -/
def connectCallback (aw : TaskAwaiter (Option CtxPtr)) (x : CtxPtr)
    (status : Int) : TaskAwaiter (Option CtxPtr) :=
  if status = REDIS_OK then aw.setCoroReturn (some x)
  else aw.setCoroReturn none

/-- The resume callback of `coro_connect`. -/
def connectResume (aw : TaskAwaiter (Option CtxPtr)) : Option CoroConnection :=
  match aw.coroTmpReturn with
  | none => none
  | some actx => some ⟨actx⟩

section connect

variable (host : Bytes) (port : UInt16) (timeoutSeconds : Int) (env : AsyncEnv)

/-- The connect callback that runs for this call, if one does: its context and
    its status. -/
def callbackRun : Option (CtxPtr × Int) :=
  (coroConnectSuspend host port (env.redisAsyncConnectWithOptions
    (redisOptions host port timeoutSeconds)) env.attach).bind
    fun x => (env.status x).map fun st => (x, st)

/-- `co_await coro_connect(…)`: the value it yields, `none` while it has not
    completed. -/
def coroConnect : Option (Option CoroConnection) :=
  (callbackRun host port timeoutSeconds env).map fun r =>
    connectResume (connectCallback .ofCallbacks r.1 r.2)

end connect

/-- `sync_connect`. -/
def syncConnect (host : Bytes) (port : UInt16) (timeoutSeconds : Int)
    (redisConnectWithOptions : RedisOptions → Created) :
    Option SyncConnection :=
  if host = [] then none
  else if ¬ port > 0 then none
  else match redisConnectWithOptions
      (redisOptions host port timeoutSeconds) with
    | .null => none
    | .ctx x _ => some ⟨some x⟩

/-! ## One spec lemma for each -/

/-- `!host.empty()` and `port > 0`. -/
def Valid (host : Bytes) (port : UInt16) : Prop := host ≠ [] ∧ port > 0

instance (host : Bytes) (port : UInt16) : Decidable (Valid host port) :=
  inferInstanceAs (Decidable (host ≠ [] ∧ port > 0))

/-- A usable context is one that nothing is wrong with. -/
theorem usable_eq_some_iff {actx : Created} {attach : CtxPtr → Int}
    {x : CtxPtr} :
    actx.usable attach = some x ↔ actx = .ctx x 0 ∧ attach x = REDIS_OK := by
  cases actx with
  | null => simp [Created.usable]
  | ctx y err =>
      show (if err ≠ 0 then none else if attach y ≠ REDIS_OK then none
        else some y) = some x ↔ _
      by_cases he : err = 0
      · rw [if_neg (not_not.mpr he)]
        by_cases ha : attach y = REDIS_OK
        · rw [if_neg (not_not.mpr ha)]
          constructor
          · rintro ⟨rfl⟩
            exact ⟨by rw [he], ha⟩
          · rintro ⟨hc, -⟩
            injection hc with hxy
            rw [hxy]
        · rw [if_pos ha]
          constructor
          · intro h
            exact absurd h (by simp)
          · rintro ⟨hc, hx⟩
            injection hc with hxy
            rw [← hxy] at hx
            exact absurd hx ha
      · simp [he]

/-- The callbacks are set exactly for valid arguments and a usable context. -/
theorem coroConnectSuspend_eq_some_iff {host : Bytes} {port : UInt16}
    {created : Created} {attach : CtxPtr → Int} {x : CtxPtr} :
    coroConnectSuspend host port created attach = some x
      ↔ Valid host port ∧ created = .ctx x 0 ∧ attach x = REDIS_OK := by
  rw [coroConnectSuspend]
  by_cases hh : host = []
  · simp [hh, Valid]
  · rw [if_neg hh]
    by_cases hp : port > 0
    · rw [if_neg (not_not.mpr hp), usable_eq_some_iff]
      constructor
      · intro h
        exact ⟨⟨hh, hp⟩, h⟩
      · rintro ⟨-, h⟩
        exact h
    · simp [hp, Valid]

/-- The resume callback yields a connection whatever the callback reported. -/
theorem connectResume_connectCallback (aw : TaskAwaiter (Option CtxPtr))
    (x : CtxPtr) (status : Int) :
    connectResume (connectCallback aw x status)
      = some ⟨if status = REDIS_OK then some x else none⟩ := by
  rw [connectCallback, connectResume]
  by_cases h : status = REDIS_OK
  · rw [if_pos h, if_pos h]
    rfl
  · rw [if_neg h, if_neg h]
    rfl

/-- `coro_connect` never yields null. -/
theorem coroConnect_ne_null (host : Bytes) (port : UInt16)
    (timeoutSeconds : Int) (env : AsyncEnv) :
    coroConnect host port timeoutSeconds env ≠ some none := by
  rw [coroConnect]
  cases callbackRun host port timeoutSeconds env with
  | none => simp
  | some r => simp [connectResume_connectCallback]

/-- `sync_connect` yields null exactly for bad arguments and a null context. -/
theorem syncConnect_eq_none_iff {host : Bytes} {port : UInt16}
    {timeoutSeconds : Int} {connect : RedisOptions → Created} :
    syncConnect host port timeoutSeconds connect = none
      ↔ (Valid host port →
          connect (redisOptions host port timeoutSeconds) = .null) := by
  rw [syncConnect]
  by_cases hh : host = []
  · simp [hh, Valid]
  · rw [if_neg hh]
    by_cases hp : port > 0
    · rw [if_neg (not_not.mpr hp)]
      have hv : Valid host port := ⟨hh, hp⟩
      cases connect (redisOptions host port timeoutSeconds) with
      | null => simp
      | ctx x err => simp [hv]
    · simp [hp, Valid]

/-! ## What the result should mean -/

/-- What became of one connection. -/
inductive ConnectResult where
  | null
  | failed
  | established
  deriving DecidableEq

/-- The outcome on the asynchronous side; `none` if it is not decided, or if
    it is the event loop that failed. -/
def AsyncEnv.result (env : AsyncEnv) (opt : RedisOptions) :
    Option ConnectResult :=
  match env.redisAsyncConnectWithOptions opt with
  | .null => some .null
  | .ctx x err =>
      if err ≠ 0 then some .failed
      else if env.attach x ≠ REDIS_OK then none
      else (env.status x).map fun st =>
        if st = REDIS_OK then .established else .failed

/-- The outcome on the synchronous side. -/
def Created.result : Created → ConnectResult
  | .null => .null
  | .ctx _ err => if err ≠ 0 then .failed else .established

section meaning

variable (host : Bytes) (port : UInt16) (timeoutSeconds : Int) (env : AsyncEnv)
  (connect : RedisOptions → Created)

/-- The two calls, given the same arguments, meet the same outcome. -/
def SameOutcome : Prop :=
  Valid host port →
    env.result (redisOptions host port timeoutSeconds)
      = some (connect (redisOptions host port timeoutSeconds)).result

/-- A non-null connection means an established one, on both paths. -/
structure NonNullMeansEstablished : Prop where
  coro : ∀ v x st, coroConnect host port timeoutSeconds env = some v →
    callbackRun host port timeoutSeconds env = some (x, st) →
    (v ≠ none ↔ st = REDIS_OK) ∧ (v ≠ none → v = some ⟨some x⟩)
  sync : syncConnect host port timeoutSeconds connect ≠ none
    ↔ Valid host port
      ∧ ∃ x, connect (redisOptions host port timeoutSeconds) = .ctx x 0
  agree : SameOutcome host port timeoutSeconds env connect →
    (coroConnect host port timeoutSeconds env = some none
      ↔ syncConnect host port timeoutSeconds connect = none)

/-- No failure is reported: the connect callback, if it runs, reports success,
    the synchronous context has no error, and where the two paths are compared
    the arguments are valid and the context is not null. -/
structure NoFailureReported : Prop where
  status : Valid host port → ∀ x st,
    env.redisAsyncConnectWithOptions (redisOptions host port timeoutSeconds)
      = .ctx x 0 → env.attach x = REDIS_OK → env.status x = some st →
    st = REDIS_OK
  err : Valid host port → ∀ x err,
    connect (redisOptions host port timeoutSeconds) = .ctx x err → err = 0
  compared : SameOutcome host port timeoutSeconds env connect →
    Valid host port
      ∧ connect (redisOptions host port timeoutSeconds) ≠ .null

variable {host port timeoutSeconds env connect}

theorem callbackRun_eq_some_iff {x : CtxPtr} {st : Int} :
    callbackRun host port timeoutSeconds env = some (x, st)
      ↔ Valid host port
        ∧ env.redisAsyncConnectWithOptions
          (redisOptions host port timeoutSeconds) = .ctx x 0
        ∧ env.attach x = REDIS_OK ∧ env.status x = some st := by
  rw [callbackRun]
  rw [Option.bind_eq_some_iff]
  constructor
  · rintro ⟨y, hy, hst⟩
    obtain ⟨hv, hc, ha⟩ := coroConnectSuspend_eq_some_iff.mp hy
    obtain ⟨st', hst', heq⟩ := Option.map_eq_some_iff.mp hst
    obtain ⟨rfl, rfl⟩ := Prod.mk.inj heq
    exact ⟨hv, hc, ha, hst'⟩
  · rintro ⟨hv, hc, ha, hst⟩
    refine ⟨x, coroConnectSuspend_eq_some_iff.mpr ⟨hv, hc, ha⟩, ?_⟩
    rw [hst]
    rfl

/-- The asynchronous part: exact condition. -/
theorem coro_iff :
    (∀ v x st, coroConnect host port timeoutSeconds env = some v →
      callbackRun host port timeoutSeconds env = some (x, st) →
      (v ≠ none ↔ st = REDIS_OK) ∧ (v ≠ none → v = some ⟨some x⟩))
    ↔ ∀ x st, callbackRun host port timeoutSeconds env = some (x, st) →
      st = REDIS_OK := by
  constructor
  · intro h x st hrun
    have hv : coroConnect host port timeoutSeconds env
        = some (connectResume (connectCallback .ofCallbacks x st)) := by
      rw [coroConnect, hrun]
      rfl
    refine ((h _ x st hv hrun).1).mp ?_
    rw [connectResume_connectCallback]
    simp
  · intro h v x st hv hrun
    have hst := h x st hrun
    rw [coroConnect, hrun, Option.map_some, connectResume_connectCallback,
      if_pos hst, Option.some.injEq] at hv
    rw [← hv]
    exact ⟨⟨fun _ => hst, fun _ => by simp⟩, fun _ => rfl⟩

/-- The synchronous part: exact condition. -/
theorem sync_iff :
    (syncConnect host port timeoutSeconds connect ≠ none
      ↔ Valid host port
        ∧ ∃ x, connect (redisOptions host port timeoutSeconds) = .ctx x 0)
    ↔ (Valid host port → ∀ x err,
        connect (redisOptions host port timeoutSeconds) = .ctx x err →
        err = 0) := by
  rw [Ne, syncConnect_eq_none_iff]
  by_cases hv : Valid host port
  · cases hc : connect (redisOptions host port timeoutSeconds) with
    | null => simp
    | ctx x err =>
        simp only [hv, true_and, forall_const, Created.ctx.injEq,
          exists_eq_left', reduceCtorEq, not_false_eq_true, true_iff]
        constructor
        · rintro h y e ⟨rfl, rfl⟩
          exact h
        · intro h
          exact h x err ⟨rfl, rfl⟩
  · simp [hv]

/-- The comparison: exact condition. -/
theorem agree_iff :
    (SameOutcome host port timeoutSeconds env connect →
      (coroConnect host port timeoutSeconds env = some none
        ↔ syncConnect host port timeoutSeconds connect = none))
    ↔ (SameOutcome host port timeoutSeconds env connect → Valid host port
        ∧ connect (redisOptions host port timeoutSeconds) ≠ .null) := by
  have hnever := coroConnect_ne_null host port timeoutSeconds env
  have hnone : (coroConnect host port timeoutSeconds env = some none
      ↔ syncConnect host port timeoutSeconds connect = none)
      ↔ Valid host port
        ∧ connect (redisOptions host port timeoutSeconds) ≠ .null := by
    rw [syncConnect_eq_none_iff, iff_false_left hnever, Classical.not_imp]
  exact imp_congr_right fun _ => hnone

/-- **WHEN NON-NULL MEANS ESTABLISHED**: exactly when no failure is
    reported. -/
theorem nonNullMeansEstablished_iff (host : Bytes) (port : UInt16)
    (timeoutSeconds : Int) (env : AsyncEnv) (connect : RedisOptions → Created) :
    NonNullMeansEstablished host port timeoutSeconds env connect
      ↔ NoFailureReported host port timeoutSeconds env connect := by
  constructor
  · rintro ⟨hcoro, hsync, hagree⟩
    refine ⟨?_, sync_iff.mp hsync, agree_iff.mp hagree⟩
    intro hv x st hc ha hst
    exact coro_iff.mp hcoro x st
      (callbackRun_eq_some_iff.mpr ⟨hv, hc, ha, hst⟩)
  · rintro ⟨hstatus, herr, hcompared⟩
    refine ⟨coro_iff.mpr ?_, sync_iff.mpr herr, agree_iff.mpr hcompared⟩
    intro x st hrun
    obtain ⟨hv, hc, ha, hst⟩ := callbackRun_eq_some_iff.mp hrun
    exact hstatus hv x st hc ha hst

end meaning

/-- A server that refuses: the context is created, then the connect callback
    reports `REDIS_ERR`. -/
def refusing : AsyncEnv := ⟨fun _ => .ctx 1 0, fun _ => REDIS_OK, fun _ => some (-1)⟩

/-- The coroutine gets a non-null connection around a null context. -/
theorem refused_connect_is_non_null :
    coroConnect (lit "127.0.0.1") 6379 5 refusing = some (some ⟨none⟩)
    ∧ ¬ NonNullMeansEstablished (lit "127.0.0.1") 6379 5 refusing
      (fun _ => .ctx 2 111) := by
  have hrun : callbackRun (lit "127.0.0.1") 6379 5 refusing = some (1, -1) :=
    by decide
  have hval : coroConnect (lit "127.0.0.1") 6379 5 refusing
      = some (some ⟨none⟩) := by decide
  refine ⟨hval, ?_⟩
  intro h
  have hok := (h.coro _ 1 (-1) hval hrun).1.mp (by simp)
  exact absurd hok (by decide)

end ClientConnect
