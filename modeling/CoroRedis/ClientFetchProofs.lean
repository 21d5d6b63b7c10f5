import Mathlib.Data.List.Perm.Basic
import CoroRedis.ClientStepProofs

/-! # Fetching from the pool — what the coroutine gets and what the pool keeps

    Every step of the client is, for its pool, a sequence of pool operations
    (`world_refines_pool`), so what holds of every reachable pool holds in
    every run of the client: the free list is empty and nothing leaves the
    in-use list.

    * `fetch_delivers_null` — the resume callback looks in the free list,
      `add_new_conn` has put the new connection in the in-use list: the
      coroutine always gets null.
    * `poolRestored_iff` — event loops come back and only established
      connections are pooled exactly as long as no attempt fails. -/

namespace ClientFetches

open CoroBytes TaskAwaiters ClientConnect ClientPool ClientRuns ClientSteps
open RunLog
open SharedPool hiding step

/-! ## The client refines the pool -/

section refinement

variable {w w' : World} {l : Label} {tr es : List Event}

/-- Executing operations one after the other. -/
theorem exec_poolOps (pool : Pool) (x : CtxPtr) :
    exec SharedPool.step pool [.addNewConn x, .dropHandle pool.conns.length,
        .fetchFromFreePool]
      = some ((addTemporary pool x).fetchFromFreePool.2, []) := by
  have hmem : pool.conns.length ∈ (pool.addNewConn x).2.handles :=
    List.mem_append_right _ (by simp)
  simp only [exec, SharedPool.step, if_pos hmem]
  rfl

/-- **SIMULATION STEP**: what a step does to the pool. -/
theorem outcome_refines_pool (ho : Outcome w l w' es) :
    ∃ ops, exec SharedPool.step w.pool ops = some (w'.pool, []) := by
  cases ho with
  | connectExit _ _ => exact ⟨[], rfl⟩
  | connectPending _ _ => exact ⟨[], rfl⟩
  | fetchThrows _ _ => exact ⟨[], rfl⟩
  | fetchExit _ _ hio _ =>
      refine ⟨[.takeIo], ?_⟩
      have hne := List.ne_nil_of_mem (List.mem_of_getLast? hio)
      simp only [exec, SharedPool.step, if_neg hne]
      rfl
  | fetchPending _ _ hio _ =>
      refine ⟨[.takeIo], ?_⟩
      have hne := List.ne_nil_of_mem (List.mem_of_getLast? hio)
      simp only [exec, SharedPool.step, if_neg hne]
      rfl
  | fetchParked _ _ _ => exact ⟨[.parkAwaiter w.nextAwaiter], rfl⟩
  | connected _ _ _ _ => exact ⟨[], rfl⟩
  | fetched _ _ _ _ => exact ⟨_, exec_poolOps w.pool _⟩
  | lateSet _ _ _ => exact ⟨[], rfl⟩
  | lateResume _ _ _ => exact ⟨[], rfl⟩
  | @dropped c hc =>
      refine ⟨[.dropHandle c], ?_⟩
      simp only [exec, SharedPool.step, if_pos hc]
      rfl
  | moved _ _ _ => exact ⟨[], rfl⟩

/-- **SIMULATION**: a run of the client is a run of its pool. -/
theorem world_refines_pool {pool : Pool} {ls : List Label}
    (h : Run step (World.init pool) ls w tr) :
    ∃ ops tr', Run SharedPool.step (World.init pool).pool ops w.pool tr' := by
  induction h with
  | start => exact ⟨[], [], Run.start⟩
  | next hr hstep ih =>
      obtain ⟨ops, tr', hpr⟩ := ih
      have hs := sound_run (sound_init pool) hr
      obtain ⟨ops', he⟩ := outcome_refines_pool (step_outcome hs hstep).2
      exact ⟨ops ++ ops', tr' ++ [], run_append_exec ops' hpr he⟩

/-- In every run from a `pool_init` the in-use list holds every connection,
    and the free list none. -/
theorem held_of_run {poolIos : List IoPtr} {host : Bytes} {port : UInt16}
    {timeoutSeconds : Int} {ls : List Label}
    (h : Run step (World.init (Pool.init poolIos host port timeoutSeconds))
      ls w tr) : Held w.pool := by
  obtain ⟨ops, tr', hr⟩ := world_refines_pool h
  exact held_run (held_init _ _ _ _) hr

end refinement

/-! ## What the coroutine gets -/

/-- The pool once the connection of context `x` has been added and its
    temporary handle dropped. -/
theorem addTemporary_of_held {pool : Pool} (h : Held pool) (x : CtxPtr) :
    (addTemporary pool x).fetchFromFreePool
      = (none, ⟨pool.clt.addNewConn pool.conns.length,
        pool.conns ++ [⟨some x⟩],
        (pool.handles ++ [pool.conns.length]).erase pool.conns.length⟩) := by
  have hadd := held_addNewConn h x
  have hmem : pool.conns.length ∈ (pool.addNewConn x).2.handles :=
    List.mem_append_right _ (by simp)
  have htmp : Held (addTemporary pool x) := held_dropHandle hadd hmem
  rw [fetchFromFreePool_of_held htmp]
  show (none, (pool.addNewConn x).2.dropHandle pool.conns.length) = _
  rw [dropHandle_of_held hadd hmem]
  rfl

/-- The coroutine waiting on `a` is given a connection around context `x`,
    which is now in use. -/
def Delivered (w : World) (es : List Event) (a : AwaiterPtr) (x : CtxPtr) :
    Prop :=
  ∃ c, Event.returned a (.fetch (some c)) ∈ es
    ∧ w.pool.conns[c]? = some ⟨some x⟩
    ∧ c ∈ w.pool.clt.inusePool ∧ c ∉ w.pool.clt.freePool

/-- **NEVER DELIVERED**: whenever the connect callback of a fetch reports
    success, the coroutine is resumed with null. -/
theorem fetch_delivers_null (poolIos : List IoPtr) (host : Bytes)
    (port : UInt16) (timeoutSeconds : Int) (ls : List Label) (w w' : World)
    (tr es : List Event) (x : CtxPtr) (c : AsyncContext)
    (h : Run step (World.init (Pool.init poolIos host port timeoutSeconds))
      ls w tr)
    (hx : w.ctxs[x]? = some c) (hkind : c.kind = .fetch)
    (hstep : step w (.connectCb x REDIS_OK) = some (w', es)) :
    Event.returned c.data (.fetch none) ∈ es ∧ ¬ Delivered w' es c.data x := by
  have hheld := held_of_run h
  have hs := sound_run (sound_init _) h
  have ho := (step_outcome hs hstep).2
  cases ho with
  | connected hx' _ hkind' _ =>
      rw [hx, Option.some.injEq] at hx'
      rw [← hx', hkind] at hkind'
      exact absurd hkind' (by simp)
  | fetched hx' _ _ _ =>
      rw [hx, Option.some.injEq] at hx'
      subst hx'
      rw [addTemporary_of_held hheld]
      refine ⟨by simp, ?_⟩
      rintro ⟨n, hn, -⟩
      exact absurd hn (by simp)
  | moved _ _ hl => exact absurd hl (by simp)

/-- One fetch that succeeds: the new connection is in use, the coroutine has
    null. -/
theorem successful_fetch_yields_null :
    ∃ w tr, Run step (World.init oneIoPool)
        [.fetch 0 allOk, .connectCb 0 REDIS_OK] w tr
      ∧ tr = [.setCoroReturn 0, .resume 0, .returned 0 (.fetch none)]
      ∧ w.pool.clt.inusePool = [0] ∧ ¬ Delivered w tr 0 0 := by
  obtain ⟨w, tr, hrun, htr, hu⟩ : ∃ w tr, Run step (World.init oneIoPool)
        [.fetch 0 allOk, .connectCb 0 REDIS_OK] w tr
      ∧ tr = [.setCoroReturn 0, .resume 0, .returned 0 (.fetch none)]
      ∧ w.pool.clt.inusePool = [0] := ⟨_, _, run_of_exec rfl, rfl, rfl⟩
  refine ⟨w, tr, hrun, htr, hu, ?_⟩
  rintro ⟨c, hc, -⟩
  rw [htr] at hc
  exact absurd hc (by simp)

theorem fetch_delivers_null_first :
    ∃ w tr w' es, Run step (World.init oneIoPool) [.fetch 0 allOk] w tr
      ∧ step w (.connectCb 0 REDIS_OK) = some (w', es)
      ∧ Event.returned 0 (.fetch none) ∈ es ∧ ¬ Delivered w' es 0 0 := by
  obtain ⟨w, tr, w', es, c, hrun, hstep, hx, hkind, hdata⟩ : ∃ w tr w' es c,
      Run step (World.init oneIoPool) [.fetch 0 allOk] w tr
      ∧ step w (.connectCb 0 REDIS_OK) = some (w', es)
      ∧ w.ctxs[0]? = some c ∧ c.kind = .fetch ∧ c.data = 0 :=
    ⟨_, _, _, _, _, run_of_exec rfl, rfl, rfl, rfl, rfl⟩
  have hnull := fetch_delivers_null [1] (lit "127.0.0.1") 6379 5 _ w w' tr es 0
    c hrun hx hkind hstep
  rw [hdata] at hnull
  exact ⟨w, tr, w', es, hrun, hstep, hnull⟩

/-! ## What the pool keeps -/

/-- The context holds an event loop of the pool: its attempt has not failed. -/
def Holding (c : AsyncContext) : Prop := c.kind = .fetch ∧ c.phase ≠ .failed

instance (c : AsyncContext) : Decidable (Holding c) :=
  inferInstanceAs (Decidable (c.kind = .fetch ∧ c.phase ≠ .failed))

/-- The event loops in the pool and those of attempts that have not failed. -/
def slots (w : World) : List IoPtr :=
  w.pool.clt.poolIos
    ++ (w.ctxs.filter (fun c => Holding c)).map AsyncContext.ioc

/-- The connect callback of the context has reported `REDIS_OK`. -/
def Reported (w : World) (x : CtxPtr) : Prop :=
  ∃ c, w.ctxs[x]? = some c
    ∧ (c.phase = .established ∨ c.phase = .disconnected)

/-- No event loop is lost, and only connections whose connect callback
    reported success are pooled. -/
structure PoolRestored (poolIos : List IoPtr) (w : World) : Prop where
  capacity : (slots w).Perm poolIos
  members : ∀ c ∈ w.pool.clt.freePool ++ w.pool.clt.inusePool,
    ∃ x, w.pool.conns[c]? = some ⟨some x⟩ ∧ Reported w x

/-- The step is not the failure of a fetch: neither the creation of its
    context fails, nor its connect callback reports an error. -/
def NoFailedFetch (w : World) : Label → Prop
  | .fetch _ o =>
      w.pool.clt.freePool = [] → w.pool.clt.poolIos ≠ [] → o.Ok
  | .connectCb x status =>
      ∀ c, w.ctxs[x]? = some c → c.kind = .fetch → status = REDIS_OK
  | _ => True

/-- What holds as long as no fetch fails. -/
structure Restored (poolIos : List IoPtr) (w : World) : Prop where
  sound : Sound w
  held : Held w.pool
  pool : PoolRestored poolIos w

section restored

variable {poolIos : List IoPtr} {w w' : World} {tr es : List Event} {l : Label}

/-- The list of contexts around one of them, before and after its callback. -/
theorem ctxs_split {x : CtxPtr} {c : AsyncContext} (hx : w.ctxs[x]? = some c)
    (ph : Phase) : ∃ l₁ l₂, w.ctxs = l₁ ++ c :: l₂
      ∧ (w.setPhase x ph).ctxs = l₁ ++ { c with phase := ph } :: l₂ := by
  obtain ⟨hlt, hget⟩ := List.getElem?_eq_some_iff.mp hx
  refine ⟨w.ctxs.take x, w.ctxs.drop (x + 1), ?_, ?_⟩
  · rw [← hget, List.getElem_cons_drop, List.take_append_drop]
  · show w.ctxs.modify x _ = _
    rw [List.modify_eq_take_cons_drop hlt, hget]

/-- A context of `coro_connect` holds no event loop of the pool. -/
theorem not_holding_connect {c : AsyncContext} (hc : c.kind = .connect)
    (ph : Phase) : ¬ Holding { c with phase := ph } := by
  rintro ⟨hf, -⟩
  exact absurd (hc.symm.trans hf) (by simp)

/-- A callback that does not change what a context holds leaves the slots. -/
theorem slots_setPhase {x : CtxPtr} {c : AsyncContext} {ph : Phase}
    (hx : w.ctxs[x]? = some c)
    (hh : Holding { c with phase := ph } ↔ Holding c) :
    ((w.setPhase x ph).ctxs.filter (fun c => Holding c)).map AsyncContext.ioc
      = (w.ctxs.filter (fun c => Holding c)).map AsyncContext.ioc := by
  obtain ⟨l₁, l₂, h1, h2⟩ := ctxs_split hx ph
  rw [h1, h2, List.filter_append, List.filter_append]
  by_cases hc : Holding c
  · rw [List.filter_cons_of_pos (by simpa using hh.mpr hc),
      List.filter_cons_of_pos (by simpa using hc)]
    simp
  · rw [List.filter_cons_of_neg (by simpa using fun h => hc (hh.mp h)),
      List.filter_cons_of_neg (by simpa using hc)]

/-- A callback after which the context holds its event loop no more. -/
theorem length_slots_failed {x : CtxPtr} {c : AsyncContext} (ph : Phase)
    (hx : w.ctxs[x]? = some c) (hc : Holding c)
    (hn : ¬ Holding { c with phase := ph }) :
    ((w.setPhase x ph).ctxs.filter (fun c => Holding c)).length + 1
      = (w.ctxs.filter (fun c => Holding c)).length := by
  obtain ⟨l₁, l₂, h1, h2⟩ := ctxs_split hx ph
  rw [h1, h2, List.filter_append, List.filter_append,
    List.filter_cons_of_neg (by simpa using hn),
    List.filter_cons_of_pos (by simpa using hc)]
  simp only [List.length_append, List.length_cons]
  omega

/-- Contexts that reported success stay so. -/
theorem reported_setPhase {x y : CtxPtr} {ph : Phase} (h : Reported w y)
    (hph : x = y → ph = .established ∨ ph = .disconnected) :
    Reported (w.setPhase x ph) y := by
  obtain ⟨c, hy, hc⟩ := h
  by_cases hxy : x = y
  · exact ⟨{ c with phase := ph },
      getElem?_setPhase.mpr ⟨c, hy, by rw [if_pos hxy]⟩, hph hxy⟩
  · exact ⟨c, getElem?_setPhase.mpr ⟨c, hy, by rw [if_neg hxy]⟩, hc⟩

theorem reported_register {c : AsyncContext} {y : CtxPtr} (h : Reported w y) :
    Reported (w.register c) y := by
  obtain ⟨d, hy, hd⟩ := h
  exact ⟨d, getElem?_concat.mpr (Or.inl hy), hd⟩

/-- A step that touches neither list nor any context. -/
theorem poolRestored_frame (h : PoolRestored poolIos w)
    (hslots : slots w' = slots w)
    (hfree : w'.pool.clt.freePool = w.pool.clt.freePool)
    (hinuse : w'.pool.clt.inusePool = w.pool.clt.inusePool)
    (hconns : w'.pool.conns = w.pool.conns)
    (hrep : ∀ x, Reported w x → Reported w' x) : PoolRestored poolIos w' where
  capacity := by
    rw [hslots]
    exact h.capacity
  members c hc := by
    rw [hfree, hinuse] at hc
    obtain ⟨x, hx, hr⟩ := h.members c hc
    exact ⟨x, by rw [hconns]; exact hx, hrep x hr⟩

/-- The event loop taken out is the one the new context holds. -/
theorem slots_fetchPending {k : CoroHandle} {ioc : IoPtr}
    (hio : w.pool.clt.poolIos.getLast? = some ioc) :
    (slots (({ w.awaitOn k (pendingAwaiter .fetch k) with
        pool := w.pool.takeIo } : World).register
      ⟨redisOptions w.pool.clt.host w.pool.clt.port w.pool.clt.timeout, ioc,
        .fetch, w.nextAwaiter, .pending⟩)).Perm (slots w) := by
  have hsplit : w.pool.clt.poolIos = w.pool.clt.poolIos.dropLast ++ [ioc] :=
    (List.dropLast_append_getLast? ioc hio).symm
  rw [slots]
  show (w.pool.clt.poolIos.dropLast ++ ((w.ctxs ++ [_]).filter _).map _).Perm
    (w.pool.clt.poolIos ++ _)
  rw [List.filter_append, List.map_append]
  have hnew : (([⟨redisOptions w.pool.clt.host w.pool.clt.port
      w.pool.clt.timeout, ioc, .fetch, w.nextAwaiter, .pending⟩] :
      List AsyncContext).filter (fun c => Holding c)).map AsyncContext.ioc
      = [ioc] := rfl
  rw [hnew]
  conv_rhs => rw [hsplit]
  rw [List.append_assoc]
  exact List.Perm.append_left _ List.perm_append_comm

/-- A fetch succeeds: its new connection joins the in-use list. -/
theorem poolRestored_fetched {x : CtxPtr} {c : AsyncContext}
    (h : Restored poolIos w) (hx : w.ctxs[x]? = some c)
    (hc : c.phase = .pending) (hkind : c.kind = .fetch)
    (hctxs : w'.ctxs = (w.setPhase x .established).ctxs)
    (hpool : w'.pool = (addTemporary w.pool x).fetchFromFreePool.2) :
    PoolRestored poolIos w' := by
  rw [addTemporary_of_held h.held x] at hpool
  have hrep : ∀ y, Reported w y → Reported w' y := by
    intro y hy
    obtain ⟨d, hd, hph⟩ := reported_setPhase (x := x) hy (fun _ => Or.inl rfl)
    exact ⟨d, by rw [hctxs]; exact hd, hph⟩
  constructor
  · have hslots : slots w' = slots w := by
      rw [slots, slots, hctxs, hpool]
      refine congrArg (w.pool.clt.poolIos ++ ·) (slots_setPhase hx ?_)
      exact iff_of_true ⟨hkind, by simp⟩ ⟨hkind, by rw [hc]; simp⟩
    rw [hslots]
    exact h.pool.capacity
  · intro b hb
    rw [hpool] at hb ⊢
    have hb' : b ∈ w.pool.clt.freePool
        ++ (w.pool.clt.inusePool ++ [w.pool.conns.length]) := hb
    rw [← List.append_assoc] at hb'
    rcases List.mem_append.mp hb' with hold | hnew
    · obtain ⟨y, hy, hr⟩ := h.pool.members b hold
      exact ⟨y, getElem?_concat.mpr (Or.inl hy), hrep y hr⟩
    · -- the new connection wraps the context that has just reported success
      refine ⟨x, getElem?_concat.mpr (Or.inr
        ⟨List.mem_singleton.mp hnew, rfl⟩), { c with phase := .established }, ?_,
        Or.inl rfl⟩
      rw [hctxs]
      exact getElem?_setPhase.mpr ⟨c, hx, by rw [if_pos rfl]⟩

/-- **GOOD STEPS KEEP IT**: every step that is not the failure of a fetch. -/
theorem restored_step (h : Restored poolIos w) (hl : NoFailedFetch w l)
    (hstep : step w l = some (w', es)) : Restored poolIos w' := by
  have ho := (step_outcome h.sound hstep).2
  have hs := sound_outcome h.sound ho
  have hheld : Held w'.pool := by
    obtain ⟨ops, he⟩ := outcome_refines_pool ho
    exact held_run h.held (run_of_exec he)
  refine ⟨hs, hheld, ?_⟩
  cases ho with
  | connectExit _ _ =>
      exact poolRestored_frame h.pool rfl rfl rfl rfl (fun _ hr => hr)
  | connectPending _ _ =>
      refine poolRestored_frame h.pool ?_ rfl rfl rfl
        (fun _ hr => reported_register hr)
      rw [slots]
      show _ ++ ((w.ctxs ++ [_]).filter _).map _ = _
      rw [List.filter_append, List.map_append]
      exact congrArg _ (List.append_nil _)
  | fetchThrows _ _ =>
      exact poolRestored_frame h.pool rfl rfl rfl rfl (fun _ hr => hr)
  | fetchExit _ hfree hio ho =>
      exact absurd (hl hfree (List.ne_nil_of_mem (List.mem_of_getLast? hio)))
        ho
  | fetchPending _ _ hio _ =>
      -- the event loop moves from the pool to the new context
      refine ⟨(slots_fetchPending hio).trans h.pool.capacity, ?_⟩
      intro c hc
      obtain ⟨x, hx, hr⟩ := h.pool.members c hc
      exact ⟨x, hx, reported_register hr⟩
  | fetchParked _ _ _ =>
      exact poolRestored_frame h.pool rfl rfl rfl rfl (fun _ hr => hr)
  | @connected x c status k hx hc hkind _ =>
      have hnot := not_holding_connect hkind
      refine poolRestored_frame h.pool ?_ rfl rfl rfl ?_
      · exact congrArg (w.pool.clt.poolIos ++ ·) (slots_setPhase hx
          (iff_of_false (hnot _) (hnot c.phase)))
      · -- a pending context has not reported success
        rintro y ⟨d, hy, hd⟩
        refine reported_setPhase (w := w) ⟨d, hy, hd⟩ ?_
        rintro rfl
        rw [hx, Option.some.injEq] at hy
        rw [← hy, hc] at hd
        exact absurd hd (by simp)
  | fetched hx hc hkind _ =>
      have hst := hl _ hx hkind
      subst hst
      exact poolRestored_fetched h hx hc hkind rfl rfl
  | @lateSet x c hx hc hkind =>
      have hnot := not_holding_connect hkind
      refine poolRestored_frame h.pool ?_ rfl rfl rfl ?_
      · exact congrArg (w.pool.clt.poolIos ++ ·) (slots_setPhase hx
          (iff_of_false (hnot _) (hnot c.phase)))
      · intro y hy
        exact reported_setPhase (w := w) hy (fun _ => Or.inr rfl)
  | @lateResume x c hx hc hkind =>
      refine poolRestored_frame h.pool ?_ rfl rfl rfl ?_
      · exact congrArg (w.pool.clt.poolIos ++ ·) (slots_setPhase hx
          (iff_of_true ⟨hkind, by simp⟩ ⟨hkind, by rw [hc]; simp⟩))
      · intro y hy
        exact reported_setPhase (w := w) hy (fun _ => Or.inr rfl)
  | dropped hc =>
      have hdrop := dropHandle_of_held h.held hc
      refine poolRestored_frame h.pool ?_ ?_ ?_ ?_ (fun _ hr => hr)
      · rw [slots, hdrop]
        rfl
      · rw [hdrop]
      · rw [hdrop]
      · rw [hdrop]
  | moved _ _ _ =>
      exact poolRestored_frame h.pool rfl rfl rfl rfl (fun _ hr => hr)

/-- **BAD STEPS BREAK IT**: a failed fetch loses its event loop. -/
theorem not_poolRestored_step (h : Restored poolIos w)
    (hl : ¬ NoFailedFetch w l) (hstep : step w l = some (w', es)) :
    ¬ PoolRestored poolIos w' := by
  intro hpool
  have hlen := hpool.capacity.length_eq.trans h.pool.capacity.length_eq.symm
  have ho := (step_outcome h.sound hstep).2
  cases ho with
  | fetchExit _ _ hio _ =>
      -- popped, and held by no context
      have hlast := List.dropLast_append_getLast? _ hio
      have hshort := congrArg List.length hlast
      rw [List.length_append, List.length_singleton] at hshort
      have hlen' : (w.pool.clt.poolIos.dropLast ++ _ : List IoPtr).length
        = (w.pool.clt.poolIos ++ _).length := hlen
      rw [List.length_append, List.length_append] at hlen'
      have : w.pool.clt.poolIos.dropLast.length
        = w.pool.clt.poolIos.length := Nat.add_right_cancel hlen'
      omega
  | @fetched x c status k hx hc hkind _ =>
      -- the context has failed and keeps the event loop it was given
      have hst : status ≠ REDIS_OK := by
        intro hst
        exact hl fun _ _ _ => hst
      have hph : phaseOf status = .failed := by
        rw [phaseOf, if_neg hst]
      have hadd := addTemporary_of_held h.held x
      have hless := length_slots_failed (phaseOf status) hx
        ⟨hkind, by rw [hc]; simp⟩ (by rw [hph]; exact fun hh => hh.2 rfl)
      have hios : (addTemporary w.pool x).fetchFromFreePool.2.clt.poolIos
        = w.pool.clt.poolIos := by rw [hadd]; rfl
      have hlen' : ((addTemporary w.pool x).fetchFromFreePool.2.clt.poolIos
          ++ ((w.setPhase x (phaseOf status)).ctxs.filter _).map
            AsyncContext.ioc).length
        = (w.pool.clt.poolIos ++ (w.ctxs.filter _).map
            AsyncContext.ioc).length := hlen
      rw [hios, List.length_append, List.length_append, List.length_map,
        List.length_map] at hlen'
      omega
  | connectExit _ _ => exact hl trivial
  | connectPending _ _ => exact hl trivial
  | fetchThrows _ hfree => exact hl fun hnil => absurd hnil hfree
  | fetchPending _ _ _ ho => exact hl fun _ _ => ho
  | fetchParked _ _ hio => exact hl fun _ hne => absurd hio hne
  | @connected x c status k hx _ hkind _ =>
      refine hl ?_
      intro d hd hf
      rw [hx, Option.some.injEq] at hd
      rw [← hd, hkind] at hf
      exact absurd hf (by simp)
  | lateSet _ _ _ => exact hl trivial
  | lateResume _ _ _ => exact hl trivial
  | dropped _ => exact hl trivial
  | moved _ _ hl' =>
      rcases hl' with rfl | rfl | rfl
      · exact hl trivial
      · exact hl trivial
      · exact hl trivial

end restored

/-- **WHEN THE POOL IS RESTORED**: throughout a run exactly if no fetch fails
    in it. -/
theorem poolRestored_iff (poolIos : List IoPtr) (host : Bytes) (port : UInt16)
    (timeoutSeconds : Int) (ls : List Label) (w : World) (tr : List Event)
    (h : Run step (World.init (Pool.init poolIos host port timeoutSeconds))
      ls w tr) :
    HoldsThroughout step
        (World.init (Pool.init poolIos host port timeoutSeconds)) ls
        (fun w _ => PoolRestored poolIos w)
      ↔ EveryStep step
        (World.init (Pool.init poolIos host port timeoutSeconds)) ls
        NoFailedFetch := by
  have hinit : Restored poolIos
      (World.init (Pool.init poolIos host port timeoutSeconds)) := by
    refine ⟨sound_init _, held_init poolIos host port timeoutSeconds, ?_, ?_⟩
    · show (poolIos ++ []).Perm poolIos
      rw [List.append_nil]
    · intro c hc
      exact absurd hc List.not_mem_nil
  exact holdsThroughout_iff_everyStep (fun w _ => Restored poolIos w) hinit
    (fun _ _ hinv => hinv.pool)
    (fun _ _ _ _ _ hinv hgood hstep => restored_step hinv hgood hstep)
    (fun _ _ _ _ _ hinv hbad hstep => not_poolRestored_step hinv hbad hstep) h

/-- One fetch whose connect callback reports `REDIS_ERR`: the event loop is
    gone and the dead connection is in use. -/
theorem failed_fetch_fills_pool :
    ∃ w tr, Run step (World.init oneIoPool) [.fetch 0 allOk, .connectCb 0 (-1)]
        w tr
      ∧ w.pool.clt.poolIos = [] ∧ w.pool.clt.inusePool = [0]
      ∧ ¬ PoolRestored [1] w := by
  obtain ⟨w, tr, hrun, hio, hu, hslots⟩ : ∃ w tr,
      Run step (World.init oneIoPool) [.fetch 0 allOk, .connectCb 0 (-1)] w tr
      ∧ w.pool.clt.poolIos = [] ∧ w.pool.clt.inusePool = [0]
      ∧ slots w = [] := ⟨_, _, run_of_exec rfl, rfl, rfl, rfl⟩
  refine ⟨w, tr, hrun, hio, hu, ?_⟩
  intro hpool
  have hlen := hpool.capacity.length_eq
  rw [hslots] at hlen
  exact absurd hlen (by simp)

theorem poolRestored_iff_oneFetch :
    ∃ w tr, Run step (World.init oneIoPool)
        [.fetch 0 allOk, .connectCb 0 REDIS_OK] w tr
      ∧ (HoldsThroughout step (World.init oneIoPool)
          [.fetch 0 allOk, .connectCb 0 REDIS_OK]
          (fun w _ => PoolRestored [1] w)
        ↔ EveryStep step (World.init oneIoPool)
          [.fetch 0 allOk, .connectCb 0 REDIS_OK] NoFailedFetch) := by
  obtain ⟨w, tr, hrun⟩ : ∃ w tr, Run step (World.init oneIoPool)
      [.fetch 0 allOk, .connectCb 0 REDIS_OK] w tr := ⟨_, _, run_of_exec rfl⟩
  exact ⟨w, tr, hrun,
    poolRestored_iff [1] (lit "127.0.0.1") 6379 5 _ w tr hrun⟩

end ClientFetches
