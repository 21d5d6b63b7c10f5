import Mathlib.Data.List.Perm.Subperm
import CoroRedis.ClientStepProofs

/-! # The pool stays within its capacity

    A connection attempt takes an event loop out of `pool_ios_`, whatever
    becomes of the attempt; nothing else touches that list.  So the event
    loops still there and those of the attempts made are the ones `pool_init`
    was given, and a fetch can only be parked once they are all used up.

    The runs here do not stop where the client goes wrong: the step function
    is the one without the fault check, so every run of the client is among
    them (`run_attemptStep`).

    * `capacity_kept` — the conservation law, in every run. -/

namespace PoolCapacity

open CoroBytes TaskAwaiters ClientConnect ClientPool ClientRuns ClientSteps
open RunLog
open SharedPool hiding step

/-! ## Attempts -/

/-- What one connection attempt of the pool does: the event loop it pops,
    whether hiredis makes a context, and whether that is attached. -/
structure IoAttempt where
  ioc : IoPtr
  created : Bool
  attached : Bool
  deriving DecidableEq

/-- The attempt a step makes: none unless it is a fetch that finds no free
    connection.  `attach` is called on a context without error. -/
def attempts (w : World) : Label → List IoAttempt
  | .fetch _ o =>
      if w.pool.clt.freePool ≠ [] then []
      else match w.pool.clt.poolIos.getLast? with
        | some ioc => [⟨ioc, o.err.isSome, o.err = some 0⟩]
        | none => []
  | _ => []

/-- The client with its connection attempts, going on past any fault. -/
def attemptStep : World → Label → Option (World × List IoAttempt) :=
  observed stepOk attempts

/-- The event loops of the contexts the pool's fetches have registered. -/
def fetchIos (ctxs : List AsyncContext) : List IoPtr :=
  ctxs.filterMap fun c => if c.kind = .fetch then some c.ioc else none

/-- No event loop is lost or used twice, and no more contexts are made than
    there were event loops. -/
structure WithinCapacity (poolIos : List IoPtr) (w : World)
    (tr : List IoAttempt) : Prop where
  conserved : (w.pool.clt.poolIos ++ tr.map IoAttempt.ioc).Perm poolIos
  created : (tr.filter IoAttempt.created).length ≤ poolIos.length
  attached : ((tr.filter IoAttempt.attached).map IoAttempt.ioc).Subperm poolIos
  registered : (fetchIos w.ctxs).Sublist
    ((tr.filter IoAttempt.attached).map IoAttempt.ioc)

/-! ## Steps that leave the event loops alone -/

/-- Neither `pool_ios_` nor `fetch_awaiters_` nor the fetched contexts
    change. -/
structure SameIos (w w' : World) : Prop where
  poolIos : w'.pool.clt.poolIos = w.pool.clt.poolIos
  awaiters : w'.pool.clt.fetchAwaiters = w.pool.clt.fetchAwaiters
  ctxs : fetchIos w'.ctxs = fetchIos w.ctxs

theorem poolIos_dropHandle (pool : Pool) (c : ConnPtr) :
    (pool.dropHandle c).clt.poolIos = pool.clt.poolIos := by
  rw [Pool.dropHandle]
  simp only
  split_ifs
  · show (ClientImpl.recycleConn pool.clt c).poolIos = _
    rw [ClientImpl.recycleConn]
    cases pool.clt.inusePool.find? (fun pp => pp = c) <;> rfl
  · rfl

theorem poolIos_fetchFromFreePool (pool : Pool) :
    pool.fetchFromFreePool.2.clt.poolIos = pool.clt.poolIos := by
  rw [Pool.fetchFromFreePool, ClientImpl.fetchFromFreePool]
  cases pool.clt.freePool <;> rfl

section frame

variable {w w' w'' : World}

theorem sameIos_trans (h : SameIos w w') (h' : SameIos w' w'') :
    SameIos w w'' :=
  ⟨h'.poolIos.trans h.poolIos, h'.awaiters.trans h.awaiters,
    h'.ctxs.trans h.ctxs⟩

/-- What does not look at the phases does not see one change. -/
theorem filterMap_phase {β : Type} {f : AsyncContext → Option β}
    (hf : ∀ (c : AsyncContext) ph, f { c with phase := ph } = f c)
    (ctxs : List AsyncContext) (x : Nat) (ph : Phase) :
    (ctxs.modify x fun c => { c with phase := ph }).filterMap f
      = ctxs.filterMap f := by
  induction ctxs generalizing x with
  | nil => rw [List.modify_nil]
  | cons c ctxs ih =>
      cases x with
      | zero =>
          rw [List.modify_zero_cons, List.filterMap_cons, List.filterMap_cons, hf]
      | succ x =>
          rw [List.modify_succ_cons, List.filterMap_cons, List.filterMap_cons, ih]

/-- A phase is not an event loop. -/
theorem fetchIos_modify (ctxs : List AsyncContext) (x : Nat) (ph : Phase) :
    fetchIos (ctxs.modify x fun c => { c with phase := ph })
      = fetchIos ctxs :=
  filterMap_phase (fun _ _ => rfl) ctxs x ph

theorem sameIos_setPhase (x : CtxPtr) (ph : Phase) :
    SameIos w (w.setPhase x ph) :=
  ⟨rfl, rfl, fetchIos_modify w.ctxs x ph⟩

theorem sameIos_resume (a : AwaiterPtr) : SameIos w (w.resume a).1 := by
  rw [World.resume]
  cases w.awaiters a with
  | none => exact ⟨rfl, rfl, rfl⟩
  | some aw =>
      simp only
      cases aw.hCoro with
      | none => exact ⟨rfl, rfl, rfl⟩
      | some k =>
          cases aw with
          | connect aw => exact ⟨rfl, rfl, rfl⟩
          | fetch aw =>
              simp only
              cases aw.coroTmpReturn with
              | none => exact ⟨rfl, rfl, rfl⟩
              | some _ =>
                  exact ⟨poolIos_fetchFromFreePool w.pool,
                    fetchAwaiters_fetchFromFreePool w.pool, rfl⟩

theorem sameIos_dropHandle (c : ConnPtr) :
    SameIos w { w with pool := w.pool.dropHandle c } :=
  ⟨poolIos_dropHandle w.pool c, fetchAwaiters_dropHandle w.pool c, rfl⟩

theorem sameIos_connectCb (x : CtxPtr) (c : AsyncContext) (status : Int) :
    SameIos w (w.connectCb x c status).1 := by
  refine sameIos_trans (sameIos_setPhase x
    (if status = REDIS_OK then .established else .failed)) ?_
  rw [World.connectCb]
  generalize w.setPhase x _ = v
  split
  · rename_i aw _ _
    have hset : SameIos v (v.setAwaiter c.data
        (.connect (connectCallback aw x status))) := ⟨rfl, rfl, rfl⟩
    exact sameIos_trans hset (sameIos_resume _)
  · exact ⟨rfl, rfl, rfl⟩
  · split
    · exact ⟨rfl, rfl, rfl⟩
    · -- the new connection joins the in-use list only
      refine sameIos_trans ?_ (sameIos_resume _)
      exact ⟨poolIos_dropHandle _ _, fetchAwaiters_dropHandle _ _, rfl⟩
  · exact ⟨rfl, rfl, rfl⟩

theorem sameIos_disconnectCb (x : CtxPtr) (c : AsyncContext) :
    SameIos w (w.disconnectCb x c).1 := by
  refine sameIos_trans (sameIos_setPhase x .disconnected) ?_
  rw [World.disconnectCb]
  split
  · split
    · exact ⟨rfl, rfl, rfl⟩
    · exact ⟨rfl, rfl, rfl⟩
  · split
    · exact sameIos_resume _
    · exact ⟨rfl, rfl, rfl⟩

end frame

/-! ## What a step does with the event loops -/

/-- The outcomes of a step from `w` as far as event loops go, with the attempts
    it makes. -/
inductive IosOutcome (w w' : World) : List IoAttempt → Prop where
  | same (h : SameIos w w') : IosOutcome w w' []
  | attempt {at₁ : IoAttempt}
      (hio : w.pool.clt.poolIos.getLast? = some at₁.ioc)
      (hp : w'.pool.clt.poolIos = w.pool.clt.poolIos.dropLast)
      (ha : w'.pool.clt.fetchAwaiters = w.pool.clt.fetchAwaiters)
      (hc : fetchIos w'.ctxs = fetchIos w.ctxs ∨ (at₁.attached = true
        ∧ fetchIos w'.ctxs = fetchIos w.ctxs ++ [at₁.ioc])) :
      IosOutcome w w' [at₁]
  | park (hfree : w.pool.clt.freePool = []) (hio : w.pool.clt.poolIos = [])
      (hp : w'.pool.clt.poolIos = w.pool.clt.poolIos)
      (hc : fetchIos w'.ctxs = fetchIos w.ctxs) : IosOutcome w w' []

section steps

variable {poolIos : List IoPtr} {w w' : World} {l : Label}
  {es : List Event} {tr ats : List IoAttempt}

theorem iosOutcome_fetch {k : CoroHandle} {o : Attempt}
    (hk : w.coros k = .active) :
    IosOutcome w (w.fetchCoroConn k o).1 (attempts w (.fetch k o)) := by
  have ho := outcome_fetch (o := o) hk
  generalize (w.fetchCoroConn k o).1 = w' at ho
  generalize (w.fetchCoroConn k o).2 = es at ho
  cases ho with
  | fetchThrows _ hfree =>
      rw [attempts, if_pos hfree]
      exact .same ⟨rfl, rfl, rfl⟩
  | fetchExit _ hfree hio _ =>
      rw [attempts, if_neg (not_not.mpr hfree)]
      simp only [hio]
      exact .attempt hio rfl rfl (Or.inl rfl)
  | fetchPending _ hfree hio ho =>
      rw [attempts, if_neg (not_not.mpr hfree)]
      simp only [hio]
      refine .attempt hio rfl rfl (Or.inr ⟨decide_eq_true ho.1, ?_⟩)
      show fetchIos (w.ctxs ++ [_]) = _
      rw [fetchIos, List.filterMap_append]
      rfl
  | fetchParked _ hfree hio =>
      rw [attempts, if_neg (not_not.mpr hfree)]
      simp only [hio, List.getLast?_nil]
      exact .park hfree hio rfl rfl
  | moved _ _ hl => exact absurd hl (by simp)

/-- `coro_connect` has an event loop of its own. -/
theorem sameIos_coroConnect (k : CoroHandle) (ioc : IoPtr) (host : Bytes)
    (port : UInt16) (timeoutSeconds : Int) (o : Attempt) :
    SameIos w (w.coroConnect k ioc host port timeoutSeconds o).1 := by
  rw [World.coroConnect]
  cases coroConnectSuspend host port (o.created w.ctxs.length)
      (fun _ => o.attach) with
  | none => exact ⟨rfl, rfl, rfl⟩
  | some _ =>
      refine ⟨rfl, rfl, ?_⟩
      show fetchIos (w.ctxs ++ [_]) = _
      rw [fetchIos, List.filterMap_append]
      exact List.append_nil _

theorem sameIos_move {k : CoroHandle} {old new : CoroStatus}
    (h : move w k old new = some (w', es)) : SameIos w w' := by
  rw [move] at h
  by_cases hk : w.coros k = old
  · rw [if_pos hk] at h
    obtain ⟨rfl, -⟩ := Prod.mk.inj (Option.some.inj h)
    exact ⟨rfl, rfl, rfl⟩
  · rw [if_neg hk] at h
    exact absurd h (by simp)

/-- **INVERSION**: any step, whatever the state. -/
theorem iosOutcome_step (h : stepOk w l = some (w', es)) :
    IosOutcome w w' (attempts w l) := by
  cases l with
  | connect k ioc host port timeoutSeconds o =>
      by_cases hk : w.coros k = .active
      · simp only [stepOk, if_pos hk, Option.some.injEq] at h
        have hw : (w.coroConnect k ioc host port timeoutSeconds o).1 = w' :=
          congrArg Prod.fst h
        rw [← hw]
        exact .same (sameIos_coroConnect k ioc host port timeoutSeconds o)
      · simp [stepOk, hk] at h
  | fetch k o =>
      by_cases hk : w.coros k = .active
      · simp only [stepOk, if_pos hk, Option.some.injEq] at h
        have hw : (w.fetchCoroConn k o).1 = w' := congrArg Prod.fst h
        rw [← hw]
        exact iosOutcome_fetch hk
      · simp [stepOk, hk] at h
  | connectCb x status =>
      obtain ⟨c, -, -, heq⟩ := onContext_eq_some h
      have hw : (w.connectCb x c status).1 = w' := congrArg Prod.fst heq
      rw [← hw]
      exact .same (sameIos_connectCb x c status)
  | disconnectCb x =>
      obtain ⟨c, -, -, heq⟩ := onContext_eq_some h
      have hw : (w.disconnectCb x c).1 = w' := congrArg Prod.fst heq
      rw [← hw]
      exact .same (sameIos_disconnectCb x c)
  | dropHandle c =>
      by_cases hc : c ∈ w.pool.handles
      · simp only [stepOk, if_pos hc, Option.some.injEq, Prod.mk.injEq] at h
        rw [← h.1]
        exact .same (sameIos_dropHandle c)
      · simp [stepOk, hc] at h
  | suspend k => exact .same (sameIos_move h)
  | wake k => exact .same (sameIos_move h)
  | finish k => exact .same (sameIos_move h)

/-! ## The conservation law -/

theorem withinCapacity_same (h : WithinCapacity poolIos w tr)
    (hp : w'.pool.clt.poolIos = w.pool.clt.poolIos)
    (hc : fetchIos w'.ctxs = fetchIos w.ctxs) :
    WithinCapacity poolIos w' tr where
  conserved := hp ▸ h.conserved
  created := h.created
  attached := h.attached
  registered := hc ▸ h.registered

/-- Contexts are made, and attached, by attempts only. -/
theorem withinCapacity_of_conserved
    (h : (w.pool.clt.poolIos ++ tr.map IoAttempt.ioc).Perm poolIos)
    (hreg : (fetchIos w.ctxs).Sublist
      ((tr.filter IoAttempt.attached).map IoAttempt.ioc)) :
    WithinCapacity poolIos w tr where
  conserved := h
  created := by
    have hlen := h.length_eq
    rw [List.length_append, List.length_map] at hlen
    have hle := List.length_filter_le IoAttempt.created tr
    omega
  attached := by
    have hsub : ((tr.filter IoAttempt.attached).map IoAttempt.ioc).Sublist
        (w.pool.clt.poolIos ++ tr.map IoAttempt.ioc) :=
      (List.filter_sublist.map _).trans (List.sublist_append_right _ _)
    exact hsub.subperm.trans h.subperm
  registered := hreg

/-- **STEP**: the event loop that leaves the list is that of the attempt. -/
theorem withinCapacity_step (h : WithinCapacity poolIos w tr)
    (hstep : attemptStep w l = some (w', ats)) :
    WithinCapacity poolIos w' (tr ++ ats) := by
  obtain ⟨rfl, es', hok⟩ := observed_eq_some.mp hstep
  have ho := iosOutcome_step hok
  generalize attempts w l = ats at ho
  cases ho with
  | same hsame =>
      rw [List.append_nil]
      exact withinCapacity_same h hsame.poolIos hsame.ctxs
  | @attempt at₁ hio hp _ hc =>
      refine withinCapacity_of_conserved ?_ ?_
      · have hsplit := List.dropLast_append_getLast? _ hio
        have hcons := h.conserved
        rw [← hsplit, List.append_assoc] at hcons
        rw [hp, List.map_append]
        exact (List.perm_append_comm.append_left _).trans hcons
      · rw [List.filter_append, List.map_append]
        rcases hc with hsame | ⟨hatt, hnew⟩
        · rw [hsame]
          exact h.registered.trans (List.sublist_append_left _ _)
        · rw [hnew, List.filter_cons_of_pos hatt]
          exact h.registered.append (List.Sublist.refl _)
  | park _ _ hp hc =>
      rw [List.append_nil]
      exact withinCapacity_same h hp hc

/-- A fetch is parked only with nothing free and no event loop left. -/
theorem parked_step (hok : stepOk w l = some (w', es))
    (hne : w'.pool.clt.fetchAwaiters ≠ w.pool.clt.fetchAwaiters) :
    w.pool.clt.freePool = [] ∧ w.pool.clt.poolIos = [] := by
  have ho := iosOutcome_step hok
  generalize attempts w l = ats at ho
  cases ho with
  | same hsame => exact absurd hsame.awaiters hne
  | attempt _ _ ha _ => exact absurd ha hne
  | park hfree hio _ _ => exact ⟨hfree, hio⟩

end steps

/-- Every run of the client is a run that goes on past faults. -/
theorem run_stepOk {w₀ w : World} {ls : List Label} {tr : List Event}
    (h : Run step w₀ ls w tr) : Run stepOk w₀ ls w tr := by
  induction h with
  | start => exact Run.start
  | @next ls w w' tr es l _ hstep ih =>
      refine Run.next ih ?_
      rw [step] at hstep
      by_cases hf : w.fault = none
      · rw [if_pos hf] at hstep
        exact hstep
      · rw [if_neg hf] at hstep
        exact absurd hstep (by simp)

/-- ... so every run of the client has its connection attempts. -/
theorem run_attemptStep {w₀ w : World} {ls : List Label} {tr : List Event}
    (h : Run step w₀ ls w tr) : ∃ tr', Run attemptStep w₀ ls w tr' :=
  run_observed (run_stepOk h)

/-- **CAPACITY**: in every run from a `pool_init` the event loops left and
    those used up are the ones it was given, no more contexts are made than
    these, none is attached twice, and a fetch is parked only when nothing is
    free and all of them are used up. -/
theorem capacity_kept (poolIos : List IoPtr) (host : Bytes) (port : UInt16)
    (timeoutSeconds : Int) (ls : List Label) (w : World)
    (tr : List IoAttempt)
    (h : Run attemptStep
      (World.init (Pool.init poolIos host port timeoutSeconds)) ls w tr) :
    WithinCapacity poolIos w tr
      ∧ ∀ l w' es, stepOk w l = some (w', es) →
        w'.pool.clt.fetchAwaiters ≠ w.pool.clt.fetchAwaiters →
          w.pool.clt.freePool = [] ∧ tr.length = poolIos.length := by
  have hcap : WithinCapacity poolIos w tr := by
    refine Run.invariant (WithinCapacity poolIos) ?_ ?_ h
    · refine withinCapacity_of_conserved ?_ (List.Sublist.refl _)
      show (poolIos ++ []).Perm poolIos
      rw [List.append_nil]
    · intro w tr l w' ats hinv hstep
      exact withinCapacity_step hinv hstep
  refine ⟨hcap, ?_⟩
  intro l w' es hok hne
  obtain ⟨hfree, hio⟩ := parked_step hok hne
  refine ⟨hfree, ?_⟩
  have hlen := hcap.conserved.length_eq
  rw [hio, List.nil_append, List.length_map] at hlen
  exact hlen

/-- One event loop: the second fetch is parked after the one attempt. -/
theorem capacity_kept_secondFetch :
    ∃ w tr, Run attemptStep (World.init oneIoPool) [.fetch 0 allOk] w tr
      ∧ tr = [⟨1, true, true⟩]
      ∧ WithinCapacity [1] w tr
      ∧ (w.fetchCoroConn 1 allOk).1.pool.clt.fetchAwaiters = [1]
      ∧ w.pool.clt.freePool = [] ∧ tr.length = [1].length := by
  obtain ⟨w, tr, w', es, hrun, htr, hok, hw', ha, hp⟩ : ∃ w tr w' es,
      Run attemptStep (World.init oneIoPool) [.fetch 0 allOk] w tr
      ∧ tr = [⟨1, true, true⟩] ∧ stepOk w (.fetch 1 allOk) = some (w', es)
      ∧ w' = (w.fetchCoroConn 1 allOk).1
      ∧ w'.pool.clt.fetchAwaiters = [1] ∧ w.pool.clt.fetchAwaiters = [] :=
    ⟨_, _, _, _, run_of_exec rfl, rfl, rfl, rfl, rfl, rfl⟩
  obtain ⟨hcap, hpark⟩ :=
    capacity_kept [1] (lit "127.0.0.1") 6379 5 _ w tr hrun
  obtain ⟨hfree, hlen⟩ := hpark (.fetch 1 allOk) w' es hok
    (by rw [ha, hp]; simp)
  exact ⟨w, tr, hrun, htr, hcap, hw' ▸ ha, hfree, hlen⟩

end PoolCapacity
