import CoroRedis.ClientStepProofs

/-! # Waiting for a connection — a release reaches nobody

    A fetch that finds neither a free connection nor an event loop puts its
    awaiter in `fetch_awaiters_`.  The list is only ever appended to: a
    released connection goes to the free list while the waiter stays where it
    is.

    * `serves_iff` — one operation of the pool, from any state in which no
      connection is free while somebody waits, keeps it so and hands a
      released connection to the first waiter exactly if it is neither a
      release while somebody waits nor a fetch that finds a free connection,
      which ends the process. -/

namespace PoolWaiters

open CoroBytes TaskAwaiters ClientConnect ClientPool ClientRuns ClientSteps
open RunLog
open SharedPool hiding step

/-! ## The operations of the pool -/

inductive PoolCall where
  /-- The suspend callback of `fetch_coro_conn`. -/
  | fetch (k : CoroHandle) (o : Attempt)
  /-- Its connect callback. -/
  | connected (x : CtxPtr) (status : Int)
  | fetchFromFreePool
  | recycleConn (p : ConnPtr)

/-- What is enabled: the connect callback while the awaiter of its context is
    suspended, `recycle_conn` on a connection in use. -/
def Enabled (w : World) : PoolCall → Prop
  | .fetch k _ => w.coros k = .active
  | .connected x _ => ∃ c k, w.ctxs[x]? = some c ∧ c.phase = .pending
      ∧ c.kind = .fetch ∧ Suspended w k c.data (pendingAwaiter .fetch k)
  | .fetchFromFreePool => True
  | .recycleConn p => p ∈ w.pool.clt.inusePool

/-- One operation; the two callbacks are steps of the client. -/
def call (w : World) : PoolCall → Option (World × List Event)
  | .fetch k o => stepOk w (.fetch k o)
  | .connected x status => stepOk w (.connectCb x status)
  | .fetchFromFreePool =>
      some ({ w with pool := w.pool.fetchFromFreePool.2 }, [])
  | .recycleConn p =>
      some ({ w with pool := { w.pool with
        clt := w.pool.clt.recycleConn p } }, [])

/-- No connection is free while somebody waits. -/
def NoneIdle (clt : ClientImpl) : Prop :=
  clt.freePool ≠ [] → clt.fetchAwaiters = []

/-- The operation ends with no connection idle, and a release with the first
    waiter resumed once and given the connection. -/
structure Serves (w : World) (op : PoolCall) (w' : World) (es : List Event) :
    Prop where
  ends : w'.fault = none
  noneIdle : NoneIdle w'.pool.clt
  handsOver : ∀ p a ws, op = .recycleConn p →
    w.pool.clt.fetchAwaiters = a :: ws →
      w'.pool.clt.fetchAwaiters = ws ∧ es.count (.resume a) = 1
        ∧ .returned a (.fetch (some p)) ∈ es

/-! ## The lists after an operation -/

/-- The entry in the in-use list keeps the temporary handle from being the
    last, whatever else the pool holds. -/
theorem addTemporary_clt (pool : Pool) (x : CtxPtr) :
    (addTemporary pool x).clt = pool.clt.addNewConn pool.conns.length := by
  have hpos : 0 < (pool.clt.inusePool ++ [pool.conns.length]).count
      pool.conns.length :=
    List.count_pos_iff.mpr (List.mem_append_right _ (List.mem_singleton_self _))
  show ((pool.addNewConn x).2.dropHandle pool.conns.length).clt = _
  rw [Pool.dropHandle, if_neg]
  · rfl
  · show ¬ (_ + _ + (pool.clt.inusePool ++ [pool.conns.length]).count _ = 0)
    omega

/-- Fetching takes from the free list and leaves the waiters. -/
theorem noneIdle_fetchFromFreePool {pool : Pool} (h : NoneIdle pool.clt) :
    NoneIdle pool.fetchFromFreePool.2.clt := by
  intro hfree
  rw [fetchAwaiters_fetchFromFreePool]
  refine h ?_
  intro hnil
  apply hfree
  rw [Pool.fetchFromFreePool, ClientImpl.fetchFromFreePool]
  simp only [hnil]

section calls

variable {w w' : World} {es : List Event}

/-- The suspend callback of a fetch. -/
theorem serves_fetch_iff {k : CoroHandle} {o : Attempt}
    (hfault : w.fault = none) (hk : w.coros k = .active)
    (h : call w (.fetch k o) = some (w', es)) :
    Serves w (.fetch k o) w' es ↔ w.pool.clt.freePool = [] := by
  have hr : some (w.fetchCoroConn k o) = some (w', es) := by
    simpa only [call, stepOk, if_pos hk] using h
  have ho := outcome_fetch (o := o) hk
  rw [Option.some.inj hr] at ho
  -- with no connection free the pool may gain a waiter or lose an event loop
  have hserves : ∀ {pool : Pool} {es' : List Event},
      w.pool.clt.freePool = [] → w'.fault = none → w'.pool = pool →
      pool.clt.freePool = w.pool.clt.freePool →
        Serves w (.fetch k o) w' es' := by
    intro pool es' hfree hf hp hpf
    refine ⟨hf, ?_, fun p a ws heq => by simp at heq⟩
    intro hne
    rw [hp, hpf] at hne
    exact absurd hfree hne
  cases ho with
  | fetchThrows _ hfree =>
      refine iff_of_false ?_ hfree
      intro hs
      exact absurd hs.ends (by simp)
  | fetchExit _ hfree _ _ =>
      exact iff_of_true (hserves hfree hfault rfl rfl) hfree
  | fetchPending _ hfree _ _ =>
      exact iff_of_true (hserves hfree hfault rfl rfl) hfree
  | fetchParked _ hfree _ =>
      exact iff_of_true (hserves hfree hfault rfl rfl) hfree
  | moved _ _ hl => exact absurd hl (by simp)

/-- The connect callback of a fetch. -/
theorem serves_connected {x : CtxPtr} {status : Int}
    (hw : NoneIdle w.pool.clt) (hfault : w.fault = none)
    (hen : Enabled w (.connected x status))
    (h : call w (.connected x status) = some (w', es)) :
    Serves w (.connected x status) w' es := by
  obtain ⟨c, k, hx, hc, hkind, hk⟩ := hen
  have hr : some (w.connectCb x c status) = some (w', es) := by
    simpa only [call, stepOk, onContext, hx, if_pos hc] using h
  rw [connectCb_fetch status hkind hk.2.1] at hr
  obtain ⟨rfl, rfl⟩ := Prod.mk.inj (Option.some.inj hr)
  refine ⟨hfault, ?_, fun p a ws heq => by simp at heq⟩
  refine noneIdle_fetchFromFreePool ?_
  rw [addTemporary_clt]
  exact hw

/-- A release: the free list grows and no awaiter is touched. -/
theorem serves_recycleConn_iff {p : ConnPtr} (hfault : w.fault = none)
    (hp : p ∈ w.pool.clt.inusePool)
    (h : call w (.recycleConn p) = some (w', es)) :
    Serves w (.recycleConn p) w' es ↔ w.pool.clt.fetchAwaiters = [] := by
  simp only [call, ClientImpl.recycleConn_of_mem hp, Option.some.injEq,
    Prod.mk.injEq] at h
  obtain ⟨rfl, rfl⟩ := h
  constructor
  · intro hs
    exact hs.noneIdle (by simp)
  · intro hnil
    refine ⟨hfault, fun _ => hnil, ?_⟩
    intro q a ws _ hcons
    rw [hnil] at hcons
    exact absurd hcons (by simp)

end calls

/-- **WHEN WAITERS ARE SERVED**: an operation of the pool keeps connections
    from idling and hands a release over exactly if it is no release while
    somebody waits and no fetch that finds a free connection. -/
theorem serves_iff (w : World) (op : PoolCall) (w' : World)
    (es : List Event) (hw : NoneIdle w.pool.clt) (hfault : w.fault = none)
    (hen : Enabled w op) (h : call w op = some (w', es)) :
    Serves w op w' es
      ↔ (∀ p, op = .recycleConn p → w.pool.clt.fetchAwaiters = [])
        ∧ (∀ k o, op = .fetch k o → w.pool.clt.freePool = []) := by
  cases op with
  | fetch k o =>
      rw [serves_fetch_iff hfault hen h]
      constructor
      · intro hfree
        exact ⟨fun p heq => by simp at heq, fun _ _ _ => hfree⟩
      · rintro ⟨-, hfree⟩
        exact hfree k o rfl
  | connected x status =>
      refine iff_of_true (serves_connected hw hfault hen h) ?_
      exact ⟨fun p heq => by simp at heq, fun k o heq => by simp at heq⟩
  | fetchFromFreePool =>
      refine iff_of_true ?_
        ⟨fun p heq => by simp at heq, fun k o heq => by simp at heq⟩
      obtain ⟨rfl, rfl⟩ := Prod.mk.inj (Option.some.inj h)
      exact ⟨hfault, noneIdle_fetchFromFreePool hw,
        fun p a ws heq => by simp at heq⟩
  | recycleConn p =>
      rw [serves_recycleConn_iff hfault hen h]
      constructor
      · intro hnil
        exact ⟨fun _ _ => hnil, fun k o heq => by simp at heq⟩
      · rintro ⟨hnil, -⟩
        exact hnil p rfl

theorem serves_iff_firstFetch :
    NoneIdle (World.init oneIoPool).pool.clt
      ∧ ∃ w' es, call (World.init oneIoPool) (.fetch 0 allOk) = some (w', es)
      ∧ (Serves (World.init oneIoPool) (.fetch 0 allOk) w' es
        ↔ (∀ p, PoolCall.fetch 0 allOk = .recycleConn p →
            (World.init oneIoPool).pool.clt.fetchAwaiters = [])
          ∧ (∀ k o, PoolCall.fetch 0 allOk = .fetch k o →
            (World.init oneIoPool).pool.clt.freePool = [])) :=
  ⟨fun _ => rfl, _, _, rfl,
    serves_iff (World.init oneIoPool) (.fetch 0 allOk) _ _ (fun _ => rfl) rfl
      rfl rfl⟩

/-- One connection in use and one coroutine waiting: the released connection
    idles in the free list. -/
theorem released_past_waiter :
    ∃ w tr w' es, Run step (World.init oneIoPool)
        [.fetch 0 allOk, .connectCb 0 REDIS_OK, .fetch 1 allOk] w tr
      ∧ w.pool.clt.inusePool = [0] ∧ NoneIdle w.pool.clt
      ∧ call w (.recycleConn 0) = some (w', es)
      ∧ w'.pool.clt.freePool = [0] ∧ w'.pool.clt.fetchAwaiters = [1]
      ∧ es = [] ∧ ¬ Serves w (.recycleConn 0) w' es := by
  obtain ⟨w, tr, w', es, hrun, hu, hfree, hcall, hf, ha, hes⟩ :
      ∃ w tr w' es, Run step (World.init oneIoPool)
        [.fetch 0 allOk, .connectCb 0 REDIS_OK, .fetch 1 allOk] w tr
      ∧ w.pool.clt.inusePool = [0] ∧ w.pool.clt.freePool = []
      ∧ call w (.recycleConn 0) = some (w', es)
      ∧ w'.pool.clt.freePool = [0] ∧ w'.pool.clt.fetchAwaiters = [1]
      ∧ es = [] := ⟨_, _, _, _, run_of_exec rfl, rfl, rfl, rfl, rfl, rfl, rfl⟩
  refine ⟨w, tr, w', es, hrun, hu, fun hne => absurd hfree hne, hcall, hf, ha,
    hes, ?_⟩
  intro hs
  have hidle := hs.noneIdle (by rw [hf]; simp)
  rw [ha] at hidle
  exact absurd hidle (by simp)

end PoolWaiters
