import CoroRedis.ClientStepProofs

/-! # The client with awaiters in slots

    An awaiter lives in the frame of its coroutine, and the next `co_await` of
    a loop is built where the last one was.  Here a `co_await` may be built at
    any address without a live awaiter, so a callback that comes late meets
    whatever awaiter is there by then: a disconnect callback can resume a
    fetch that has nothing to do with its connection.

    * `step_outcome` — what a step can do, late callbacks included;
    * `owned_run` — live awaiters and suspended coroutines are one to one;
    * `slots_of_run` — the runs of `ClientRuns` are runs in which no address
      is used twice. -/

namespace ClientSlots

open CoroBytes TaskAwaiters ClientConnect ClientPool ClientSteps
open ClientRuns hiding step
open RunLog
open SharedPool hiding step

/-! ## The machine -/

/-- A label, and the address of the awaiter where it starts a `co_await`. -/
structure SlotLabel where
  slot : AwaiterPtr
  label : Label

/-- Which labels start a `co_await`. -/
def awaits : Label → Bool
  | .connect _ _ _ _ _ _ => true
  | .fetch _ _ => true
  | _ => false

/-- The next awaiter is built at `a`. -/
def buildAt (w : World) (a : AwaiterPtr) : World := { w with nextAwaiter := a }

/-- Coroutine `k` is suspended on an awaiter at `a`. -/
def awaitAt (w : World) (a : AwaiterPtr) (k : CoroHandle) (aw : Awaiter) :
    World := (buildAt w a).awaitOn k aw

/-- The transition function; a slot is taken as long as its awaiter lives. -/
def step (w : World) (l : SlotLabel) : Option (World × List Event) :=
  if awaits l.label then
    if w.awaiters l.slot = none then ClientRuns.step (buildAt w l.slot) l.label
    else none
  else ClientRuns.step w l.label

/-! ## What a step can do -/

/-- What the connect callback of a context counts on in its awaiter. -/
def Given : CtxKind → Awaiter → Prop
  | .connect, .connect _ => True
  | .fetch, .fetch aw => aw.coroTmpReturn = some ()
  | _, _ => False

/-- A callback of context `x`. -/
def OfContext (x : CtxPtr) (l : Label) : Prop :=
  (∃ status, l = .connectCb x status) ∨ l = .disconnectCb x

/-- What a step can do. -/
inductive Outcome (w : World) : SlotLabel → World → List Event → Prop where
  | connectExit {a k ioc host port timeoutSeconds o}
      (hslot : w.awaiters a = none) (hk : w.coros k = .active)
      (ho : ¬ (Valid host port ∧ o.Ok)) :
      Outcome w ⟨a, .connect k ioc host port timeoutSeconds o⟩
        (awaitAt w a k (.connect (.suspended k))) [.earlyExit a]
  | connectPending {a k ioc host port timeoutSeconds o}
      (hslot : w.awaiters a = none) (hk : w.coros k = .active)
      (ho : Valid host port ∧ o.Ok) :
      Outcome w ⟨a, .connect k ioc host port timeoutSeconds o⟩
        ((awaitAt w a k (.connect (.suspended k))).register
          ⟨redisOptions host port timeoutSeconds, ioc, .connect, a, .pending⟩) []
  | fetchThrows {a k o} (hslot : w.awaiters a = none)
      (hk : w.coros k = .active) (hfree : w.pool.clt.freePool ≠ []) :
      Outcome w ⟨a, .fetch k o⟩
        { (awaitAt w a k (.fetch (.suspended k))).finishAwait k a with
          fault := some .terminated } [.resume a]
  | fetchExit {a k o ioc} (hslot : w.awaiters a = none)
      (hk : w.coros k = .active) (hfree : w.pool.clt.freePool = [])
      (hio : w.pool.clt.poolIos.getLast? = some ioc) (ho : ¬ o.Ok) :
      Outcome w ⟨a, .fetch k o⟩
        { awaitAt w a k (.fetch (.suspended k)) with pool := w.pool.takeIo }
        [.earlyExit a]
  | fetchPending {a k o ioc} (hslot : w.awaiters a = none)
      (hk : w.coros k = .active) (hfree : w.pool.clt.freePool = [])
      (hio : w.pool.clt.poolIos.getLast? = some ioc) (ho : o.Ok) :
      Outcome w ⟨a, .fetch k o⟩
        (({ awaitAt w a k (pendingAwaiter .fetch k) with
            pool := w.pool.takeIo } : World).register
          ⟨redisOptions w.pool.clt.host w.pool.clt.port w.pool.clt.timeout, ioc,
            .fetch, a, .pending⟩) [.setCoroReturn a]
  | fetchParked {a k o} (hslot : w.awaiters a = none)
      (hk : w.coros k = .active) (hfree : w.pool.clt.freePool = [])
      (hio : w.pool.clt.poolIos = []) :
      Outcome w ⟨a, .fetch k o⟩
        { awaitAt w a k (.fetch (.suspended k)) with
          pool := w.pool.parkAwaiter a } []
  | connected {s x c status k aw} (hx : w.ctxs[x]? = some c)
      (hc : c.phase = .pending) (hkind : c.kind = .connect)
      (hk : Suspended w k c.data (.connect aw)) :
      Outcome w ⟨s, .connectCb x status⟩
        ((w.setPhase x (phaseOf status)).finishAwait k c.data)
        [.setCoroReturn c.data, .resume c.data, .returned c.data
          (.connect (some ⟨if status = REDIS_OK then some x else none⟩))]
  | fetched {s x c status k aw} (hx : w.ctxs[x]? = some c)
      (hc : c.phase = .pending) (hkind : c.kind = .fetch)
      (hk : Suspended w k c.data (.fetch aw))
      (haw : aw.coroTmpReturn = some ()) :
      Outcome w ⟨s, .connectCb x status⟩
        { (w.setPhase x (phaseOf status)).finishAwait k c.data with
          pool := (addTemporary w.pool x).fetchFromFreePool.2 }
        [.resume c.data, .returned c.data
          (.fetch (addTemporary w.pool x).fetchFromFreePool.1)]
  /-- The disconnect callback of a connect meets another connect. -/
  | stored {s x c k aw} (hx : w.ctxs[x]? = some c)
      (hc : c.phase = .established) (hkind : c.kind = .connect)
      (hk : Suspended w k c.data (.connect aw)) :
      Outcome w ⟨s, .disconnectCb x⟩
        ((w.setPhase x .disconnected).setAwaiter c.data
          (.connect (aw.setCoroReturn none))) [.setCoroReturn c.data]
  /-- The disconnect callback of a fetch meets a fetch that waits for its own
      connect callback, and resumes it. -/
  | refetched {s x c k aw} (hx : w.ctxs[x]? = some c)
      (hc : c.phase = .established) (hkind : c.kind = .fetch)
      (hk : Suspended w k c.data (.fetch aw))
      (haw : aw.coroTmpReturn = some ()) :
      Outcome w ⟨s, .disconnectCb x⟩
        { (w.setPhase x .disconnected).finishAwait k c.data with
          pool := w.pool.fetchFromFreePool.2 }
        [.resume c.data, .returned c.data (.fetch w.pool.fetchFromFreePool.1)]
  /-- It meets one with nothing stored in it, and `await_resume` throws. -/
  | threw {s x c k aw} (hx : w.ctxs[x]? = some c)
      (hc : c.phase = .established) (hkind : c.kind = .fetch)
      (hk : Suspended w k c.data (.fetch aw))
      (haw : aw.coroTmpReturn = none) :
      Outcome w ⟨s, .disconnectCb x⟩
        { (w.setPhase x .disconnected).finishAwait k c.data with
          fault := some .terminated } [.resume c.data]
  /-- The callback finds no awaiter of its kind, or a connect callback one
      with nothing stored in it. -/
  | dangled {l x c ph f es} (hx : w.ctxs[x]? = some c)
      (hl : OfContext x l.label) (hph : ph ≠ .pending)
      (hc : c.phase = .pending →
        ∀ k aw, Suspended w k c.data aw → ¬ Given c.kind aw)
      (hes : es = [] ∨ es = [.setCoroReturn c.data] ∨ es = [.resume c.data]) :
      Outcome w l { w.setPhase x ph with fault := some f } es
  | dropped {s c} (hc : c ∈ w.pool.handles) :
      Outcome w ⟨s, .dropHandle c⟩ { w with pool := w.pool.dropHandle c } []
  | moved {l k st} (hk : ∀ a, w.coros k ≠ .awaiting a)
      (hst : ∀ a, st ≠ .awaiting a) (hl : awaits l.label = false) :
      Outcome w l { w with coros := Function.update w.coros k st } []

/-- Live awaiters and suspended coroutines are the same thing. -/
structure Owned (w : World) : Prop where
  alive : ∀ k a, w.coros k = .awaiting a → ∃ aw, Suspended w k a aw
  owned : ∀ a aw, w.awaiters a = some aw → ∃ k, Suspended w k a aw

section outcome

variable {w w' : World} {a : AwaiterPtr} {k : CoroHandle} {es : List Event}

/-! ### Resuming -/

theorem resume_connect {aw : TaskAwaiter (Option CtxPtr)}
    (haw : w.awaiters a = some (.connect aw)) (hk : aw.hCoro = some k) :
    w.resume a = (w.finishAwait k a,
      [.resume a, .returned a (.connect (connectResume aw))]) := by
  simp only [World.resume, haw, Awaiter.hCoro, hk]

theorem resume_fetch {aw : TaskAwaiter ClientPtr}
    (haw : w.awaiters a = some (.fetch aw)) (hk : aw.hCoro = some k)
    (htmp : aw.coroTmpReturn = some ()) :
    w.resume a = ({ w.finishAwait k a with pool := w.pool.fetchFromFreePool.2 },
      [.resume a, .returned a (.fetch w.pool.fetchFromFreePool.1)]) := by
  simp only [World.resume, haw, Awaiter.hCoro, hk, htmp]
  rfl

theorem resume_throws {aw : TaskAwaiter ClientPtr}
    (haw : w.awaiters a = some (.fetch aw)) (hk : aw.hCoro = some k)
    (htmp : aw.coroTmpReturn = none) :
    w.resume a = ({ w.finishAwait k a with fault := some .terminated },
      [.resume a]) := by
  simp only [World.resume, haw, Awaiter.hCoro, hk, htmp]

/-! ### The callbacks -/

theorem hCoro_connectCallback (aw : TaskAwaiter (Option CtxPtr)) (x : CtxPtr)
    (status : Int) : (connectCallback aw x status).hCoro = aw.hCoro := by
  rw [connectCallback]
  split_ifs <;> rfl

theorem outcome_connectCb (h : Owned w) (s : AwaiterPtr) {x : CtxPtr}
    {c : AsyncContext} {status : Int} (hx : w.ctxs[x]? = some c)
    (hc : c.phase = .pending) :
    Outcome w ⟨s, .connectCb x status⟩ (w.connectCb x c status).1
      (w.connectCb x c status).2 := by
  have hph : ∀ ph, (w.setPhase x ph).awaiters = w.awaiters := fun _ => rfl
  -- nobody of the right kind is there
  have hdangled : ∀ (f : Fault) (es : List Event),
      (∀ k aw, Suspended w k c.data aw → ¬ Given c.kind aw) →
      (es = [] ∨ es = [.setCoroReturn c.data] ∨ es = [.resume c.data]) →
      Outcome w ⟨s, .connectCb x status⟩
        { w.setPhase x (phaseOf status) with fault := some f } es :=
    fun f es hnone hes => .dangled hx (Or.inl ⟨status, rfl⟩)
      (phaseOf_ne_pending status) (fun _ => hnone) hes
  cases hkind : c.kind with
  | connect =>
      cases haw : w.awaiters c.data with
      | none =>
          simp only [World.connectCb, hkind, hph, haw]
          refine hdangled _ _ (fun k aw hk => ?_) (by simp)
          exact absurd (haw.symm.trans hk.2.1) (by simp)
      | some aw =>
          obtain ⟨k, hk⟩ := h.owned _ _ haw
          cases aw with
          | connect aw =>
              have hres := resume_connect
                (w := (w.setPhase x (phaseOf status)).setAwaiter c.data
                  (.connect (connectCallback aw x status)))
                (Function.update_self c.data _ _)
                ((hCoro_connectCallback aw x status).trans hk.2.2)
              have heq : w.connectCb x c status
                  = ((w.setPhase x (phaseOf status)).finishAwait k c.data,
                    [.setCoroReturn c.data, .resume c.data, .returned c.data
                      (.connect (some
                        ⟨if status = REDIS_OK then some x else none⟩))]) := by
                simp only [World.connectCb, hkind, hph, haw, phaseOf] at hres ⊢
                rw [hres, connectResume_connectCallback]
                simp only [World.finishAwait, World.setAwaiter,
                  Function.update_idem]
              rw [heq]
              exact .connected hx hc hkind hk
          | fetch aw =>
              simp only [World.connectCb, hkind, hph, haw]
              refine hdangled _ _ (fun k' aw' hk' => ?_) (by simp)
              rw [hkind, ← (suspended_unique hk hk').2]
              exact id
  | fetch =>
      cases haw : w.awaiters c.data with
      | none =>
          simp only [World.connectCb, hkind, hph, haw]
          refine hdangled _ _ (fun k aw hk => ?_) (by simp)
          exact absurd (haw.symm.trans hk.2.1) (by simp)
      | some aw =>
          obtain ⟨k, hk⟩ := h.owned _ _ haw
          cases aw with
          | connect aw =>
              simp only [World.connectCb, hkind, hph, haw]
              refine hdangled _ _ (fun k' aw' hk' => ?_) (by simp)
              rw [hkind, ← (suspended_unique hk hk').2]
              exact id
          | fetch aw =>
              cases htmp : aw.coroTmpReturn with
              | none =>
                  simp only [World.connectCb, hkind, hph, haw, htmp]
                  refine hdangled _ _ (fun k' aw' hk' => ?_) (by simp)
                  rw [hkind, ← (suspended_unique hk hk').2]
                  show ¬ aw.coroTmpReturn = some ()
                  simp [htmp]
              | some u =>
                  have hres := resume_fetch
                    (w := { w.setPhase x (phaseOf status) with
                      pool := addTemporary w.pool x })
                    (a := c.data) (by exact haw) hk.2.2 htmp
                  have heq : w.connectCb x c status
                      = ({ (w.setPhase x (phaseOf status)).finishAwait k
                            c.data with
                          pool := (addTemporary w.pool x).fetchFromFreePool.2 },
                        [.resume c.data, .returned c.data (.fetch
                          (addTemporary w.pool x).fetchFromFreePool.1)]) := by
                    simp only [World.connectCb, hkind, hph, haw, htmp]
                    exact hres
                  rw [heq]
                  exact .fetched hx hc hkind hk htmp

theorem outcome_disconnectCb (h : Owned w) (s : AwaiterPtr) {x : CtxPtr}
    {c : AsyncContext} (hx : w.ctxs[x]? = some c)
    (hc : c.phase = .established) :
    Outcome w ⟨s, .disconnectCb x⟩ (w.disconnectCb x c).1
      (w.disconnectCb x c).2 := by
  have hph : ∀ ph, (w.setPhase x ph).awaiters = w.awaiters := fun _ => rfl
  have hdangled : ∀ es : List Event,
      (es = [] ∨ es = [.setCoroReturn c.data] ∨ es = [.resume c.data]) →
      Outcome w ⟨s, .disconnectCb x⟩
        { w.setPhase x .disconnected with fault := some .undefined } es :=
    fun es hes => .dangled hx (Or.inr rfl) (by simp)
      (fun hpend => absurd (hc.symm.trans hpend) (by simp)) hes
  cases hkind : c.kind with
  | connect =>
      cases haw : w.awaiters c.data with
      | none =>
          simp only [World.disconnectCb, hkind, hph, haw]
          exact hdangled _ (by simp)
      | some aw =>
          obtain ⟨k, hk⟩ := h.owned _ _ haw
          cases aw with
          | connect aw =>
              simp only [World.disconnectCb, hkind, hph, haw]
              exact .stored hx hc hkind hk
          | fetch aw =>
              simp only [World.disconnectCb, hkind, hph, haw]
              exact hdangled _ (by simp)
  | fetch =>
      cases haw : w.awaiters c.data with
      | none =>
          simp only [World.disconnectCb, hkind, hph, haw]
          exact hdangled _ (by simp)
      | some aw =>
          obtain ⟨k, hk⟩ := h.owned _ _ haw
          cases aw with
          | connect aw =>
              simp only [World.disconnectCb, hkind, hph, haw]
              exact hdangled _ (by simp)
          | fetch aw =>
              simp only [World.disconnectCb, hkind, hph, haw]
              cases htmp : aw.coroTmpReturn with
              | none =>
                  rw [resume_throws (w := w.setPhase x .disconnected) haw
                    hk.2.2 htmp]
                  exact .threw hx hc hkind hk htmp
              | some u =>
                  rw [resume_fetch (w := w.setPhase x .disconnected) haw
                    hk.2.2 htmp]
                  exact .refetched hx hc hkind hk htmp

/-! ### Inversion -/

theorem outcome_awaits {l : Label} (hl : awaits l = true)
    (hslot : w.awaiters a = none)
    (hstep : stepOk (buildAt w a) l = some (w', es)) :
    Outcome w ⟨a, l⟩ w' es := by
  cases l with
  | connect k ioc host port timeoutSeconds o =>
      by_cases hk : (buildAt w a).coros k = .active
      · have hout : ClientSteps.Outcome (buildAt w a)
            (.connect k ioc host port timeoutSeconds o) _ _ :=
          outcome_connect hk
        simp only [stepOk] at hstep
        rw [if_pos hk, Option.some.injEq] at hstep
        rw [hstep] at hout
        cases hout with
        | connectExit _ ho => exact .connectExit hslot hk ho
        | connectPending _ ho => exact .connectPending hslot hk ho
        | moved _ _ hl => exact absurd hl (by simp)
      · simp only [stepOk] at hstep
        rw [if_neg hk] at hstep
        exact absurd hstep (by simp)
  | fetch k o =>
      by_cases hk : (buildAt w a).coros k = .active
      · have hout : ClientSteps.Outcome (buildAt w a) (.fetch k o) _ _ :=
          outcome_fetch hk
        simp only [stepOk] at hstep
        rw [if_pos hk, Option.some.injEq] at hstep
        rw [hstep] at hout
        cases hout with
        | fetchThrows _ hfree => exact .fetchThrows hslot hk hfree
        | fetchExit _ hfree hio ho => exact .fetchExit hslot hk hfree hio ho
        | fetchPending _ hfree hio ho => exact .fetchPending hslot hk hfree hio ho
        | fetchParked _ hfree hio => exact .fetchParked hslot hk hfree hio
        | moved _ _ hl => exact absurd hl (by simp)
      · simp only [stepOk] at hstep
        rw [if_neg hk] at hstep
        exact absurd hstep (by simp)
  | connectCb x status => exact absurd hl (by simp [awaits])
  | disconnectCb x => exact absurd hl (by simp [awaits])
  | dropHandle c => exact absurd hl (by simp [awaits])
  | suspend k => exact absurd hl (by simp [awaits])
  | wake k => exact absurd hl (by simp [awaits])
  | finish k => exact absurd hl (by simp [awaits])

theorem moved_of_move {s : AwaiterPtr} {l : Label} {old new : CoroStatus}
    (hold : ∀ a, old ≠ .awaiting a) (hnew : ∀ a, new ≠ .awaiting a)
    (hl : awaits l = false) (hm : move w k old new = some (w', es)) :
    Outcome w ⟨s, l⟩ w' es := by
  rw [move] at hm
  by_cases hk : w.coros k = old
  · rw [if_pos hk, Option.some.injEq, Prod.mk.injEq] at hm
    obtain ⟨rfl, rfl⟩ := hm
    refine .moved (fun a => ?_) hnew hl
    rw [hk]
    exact hold a
  · rw [if_neg hk] at hm
    exact absurd hm (by simp)

/-- **INVERSION**: a step has one of the outcomes. -/
theorem step_outcome {l : SlotLabel} (h : Owned w)
    (hstep : step w l = some (w', es)) :
    w.fault = none ∧ Outcome w l w' es := by
  obtain ⟨s, l⟩ := l
  rw [step] at hstep
  by_cases hl : awaits l = true
  · by_cases hslot : w.awaiters s = none
    · rw [if_pos hl, if_pos hslot, ClientRuns.step] at hstep
      by_cases hf : (buildAt w s).fault = none
      · rw [if_pos hf] at hstep
        exact ⟨hf, outcome_awaits hl hslot hstep⟩
      · rw [if_neg hf] at hstep
        exact absurd hstep (by simp)
    · rw [if_pos hl, if_neg hslot] at hstep
      exact absurd hstep (by simp)
  · rw [if_neg hl, ClientRuns.step] at hstep
    by_cases hf : w.fault = none
    · rw [if_pos hf] at hstep
      refine ⟨hf, ?_⟩
      cases l with
      | connect k ioc host port timeoutSeconds o => exact absurd rfl hl
      | fetch k o => exact absurd rfl hl
      | connectCb x status =>
          obtain ⟨c, hx, hc, heq⟩ := onContext_eq_some hstep
          have hout : Outcome w ⟨s, .connectCb x status⟩ _ _ :=
            outcome_connectCb h s hx hc
          rw [heq] at hout
          exact hout
      | disconnectCb x =>
          obtain ⟨c, hx, hc, heq⟩ := onContext_eq_some hstep
          have hout := outcome_disconnectCb h s hx hc
          rw [heq] at hout
          exact hout
      | dropHandle c =>
          by_cases hc : c ∈ w.pool.handles
          · simp only [stepOk, if_pos hc, Option.some.injEq,
              Prod.mk.injEq] at hstep
            obtain ⟨rfl, rfl⟩ := hstep
            exact .dropped hc
          · simp [stepOk, hc] at hstep
      | suspend k => exact moved_of_move (by simp) (by simp) rfl hstep
      | wake k => exact moved_of_move (by simp) (by simp) rfl hstep
      | finish k => exact moved_of_move (by simp) (by simp) rfl hstep
    · rw [if_neg hf] at hstep
      exact absurd hstep (by simp)

end outcome

/-! ## Who is suspended where -/

section suspended

variable {w w' : World} {k k' : CoroHandle} {a b : AwaiterPtr} {aw aw' : Awaiter}

theorem suspended_awaitAt_self (haw : aw.hCoro = some k) :
    Suspended (awaitAt w a k aw) k a aw :=
  ⟨Function.update_self _ _ _, Function.update_self _ _ _, haw⟩

/-- Whoever is suspended stays so when `k` starts to wait. -/
theorem suspended_awaitAt (hslot : w.awaiters a = none)
    (hk : w.coros k = .active) (h : Suspended w k' b aw') :
    Suspended (awaitAt w a k aw) k' b aw' := by
  have hkk : k' ≠ k := by
    rintro rfl
    exact absurd (hk.symm.trans h.1) (by simp)
  have hba : b ≠ a := by
    rintro rfl
    exact absurd (hslot.symm.trans h.2.1) (by simp)
  exact ⟨(Function.update_of_ne hkk _ _).trans h.1,
    (Function.update_of_ne hba _ _).trans h.2.1, h.2.2⟩

/-- Nobody else does. -/
theorem suspended_of_awaitAt (haw : aw.hCoro = some k)
    (h : Suspended (awaitAt w a k aw) k' b aw') :
    (k' = k ∧ b = a ∧ aw' = aw) ∨ Suspended w k' b aw' := by
  obtain ⟨hst, hlive, hh⟩ := h
  have hlive' : Function.update w.awaiters a (some aw) b = some aw' := hlive
  rcases awaiting_of_update_awaiting hst with ⟨rfl, rfl⟩ | ⟨hkk, hold⟩
  · have hself : Function.update w.awaiters b (some aw) b = some aw' := hlive
    rw [Function.update_self] at hself
    exact Or.inl ⟨rfl, rfl, (Option.some.inj hself).symm⟩
  · by_cases hba : b = a
    · rw [hba, Function.update_self] at hlive'
      rw [← Option.some.inj hlive', haw] at hh
      exact absurd (Option.some.inj hh).symm hkk
    · rw [Function.update_of_ne hba] at hlive'
      exact Or.inr ⟨hold, hlive', hh⟩

/-- Once an await is over, the others are those that were there before. -/
theorem suspended_of_finishAwait
    (h : Suspended (w.finishAwait k a) k' b aw') :
    Suspended w k' b aw' ∧ b ≠ a := by
  obtain ⟨hst, hlive, hh⟩ := h
  have hlive' : Function.update w.awaiters a none b = some aw' := hlive
  have hba : b ≠ a := by
    rintro rfl
    rw [Function.update_self] at hlive'
    exact absurd hlive' (by simp)
  rw [Function.update_of_ne hba] at hlive'
  exact ⟨⟨(awaiting_of_update active_ne_awaiting hst).2, hlive', hh⟩, hba⟩

/-- An awaiter of `k` is replaced by another. -/
theorem suspended_setAwaiter (hk : Suspended w k a aw)
    (haw' : aw'.hCoro = some k) :
    Suspended (w.setAwaiter a aw') k a aw' :=
  ⟨hk.1, Function.update_self _ _ _, haw'⟩

theorem suspended_setAwaiter_ne (hb : b ≠ a) {aw₀ : Awaiter}
    (h : Suspended w k' b aw') : Suspended (w.setAwaiter a aw₀) k' b aw' :=
  ⟨h.1, (Function.update_of_ne hb _ _).trans h.2.1, h.2.2⟩

theorem suspended_of_setAwaiter {aw₀ : Awaiter}
    (h : Suspended (w.setAwaiter a aw₀) k' b aw') :
    (b = a ∧ aw' = aw₀) ∨ b ≠ a ∧ Suspended w k' b aw' := by
  obtain ⟨hst, hlive, hh⟩ := h
  have hlive' : Function.update w.awaiters a (some aw₀) b = some aw' := hlive
  by_cases hba : b = a
  · rw [hba, Function.update_self] at hlive'
    exact Or.inl ⟨hba, (Option.some.inj hlive').symm⟩
  · rw [Function.update_of_ne hba] at hlive'
    exact Or.inr ⟨hba, hst, hlive', hh⟩

end suspended

section owned

variable {w w' : World} {k : CoroHandle} {a : AwaiterPtr} {aw : Awaiter}

theorem owned_awaitAt (h : Owned w) (hslot : w.awaiters a = none)
    (hk : w.coros k = .active) (haw : aw.hCoro = some k) :
    Owned (awaitAt w a k aw) where
  alive k' b hb := by
    rcases awaiting_of_update_awaiting hb with ⟨rfl, rfl⟩ | ⟨-, hold⟩
    · exact ⟨aw, suspended_awaitAt_self haw⟩
    · obtain ⟨aw', h'⟩ := h.alive k' b hold
      exact ⟨aw', suspended_awaitAt hslot hk h'⟩
  owned b aw' hb := by
    have hb' : Function.update w.awaiters a (some aw) b = some aw' := hb
    by_cases hba : b = a
    · subst hba
      rw [Function.update_self] at hb'
      rw [← Option.some.inj hb']
      exact ⟨k, suspended_awaitAt_self haw⟩
    · rw [Function.update_of_ne hba] at hb'
      obtain ⟨k', h'⟩ := h.owned b aw' hb'
      exact ⟨k', suspended_awaitAt hslot hk h'⟩

theorem owned_finishAwait (h : Owned w) (hk : Suspended w k a aw) :
    Owned (w.finishAwait k a) where
  alive k' b hb := by
    obtain ⟨hne, hold⟩ := awaiting_of_update active_ne_awaiting hb
    obtain ⟨aw', h'⟩ := h.alive k' b hold
    refine ⟨aw', suspended_finishAwait hk ?_ h'⟩
    rintro rfl
    exact hne (suspended_unique h' hk).1
  owned b aw' hb := by
    have hb' : Function.update w.awaiters a none b = some aw' := hb
    have hba : b ≠ a := by
      rintro rfl
      rw [Function.update_self] at hb'
      exact absurd hb' (by simp)
    rw [Function.update_of_ne hba] at hb'
    obtain ⟨k', h'⟩ := h.owned b aw' hb'
    exact ⟨k', suspended_finishAwait hk hba h'⟩

theorem owned_setAwaiter (h : Owned w) (hk : Suspended w k a aw) {aw' : Awaiter}
    (haw' : aw'.hCoro = some k) : Owned (w.setAwaiter a aw') where
  alive k' b hb := by
    obtain ⟨aw₁, h₁⟩ := h.alive k' b hb
    by_cases hba : b = a
    · subst hba
      obtain ⟨rfl, -⟩ := suspended_unique h₁ hk
      exact ⟨aw', suspended_setAwaiter h₁ haw'⟩
    · exact ⟨aw₁, suspended_setAwaiter_ne hba h₁⟩
  owned b aw₁ hb := by
    have hb' : Function.update w.awaiters a (some aw') b = some aw₁ := hb
    by_cases hba : b = a
    · subst hba
      rw [Function.update_self] at hb'
      rw [← Option.some.inj hb']
      exact ⟨k, suspended_setAwaiter hk haw'⟩
    · rw [Function.update_of_ne hba] at hb'
      obtain ⟨k', h'⟩ := h.owned b aw₁ hb'
      exact ⟨k', suspended_setAwaiter_ne hba h'⟩

/-- Contexts, pool and fault are not looked at. -/
theorem owned_congr (h : Owned w) (hcoros : w'.coros = w.coros)
    (hawaiters : w'.awaiters = w.awaiters) : Owned w' where
  alive k' b hb := by
    obtain ⟨aw', h₁, h₂, h₃⟩ := h.alive k' b (hcoros ▸ hb)
    exact ⟨aw', hcoros ▸ h₁, hawaiters ▸ h₂, h₃⟩
  owned b aw' hb := by
    obtain ⟨k', h₁, h₂, h₃⟩ := h.owned b aw' (hawaiters ▸ hb)
    exact ⟨k', hcoros ▸ h₁, hawaiters ▸ h₂, h₃⟩

theorem owned_move {st : CoroStatus} (h : Owned w)
    (hk : ∀ b, w.coros k ≠ .awaiting b) (hst : ∀ b, st ≠ .awaiting b) :
    Owned { w with coros := Function.update w.coros k st } where
  alive k' b hb := by
    obtain ⟨aw', h'⟩ := h.alive k' b (awaiting_of_update hst hb).2
    exact ⟨aw', (suspended_move_iff hk hst).mpr h'⟩
  owned b aw' hb := by
    obtain ⟨k', h'⟩ := h.owned b aw' hb
    exact ⟨k', (suspended_move_iff hk hst).mpr h'⟩

/-- A fetch that throws at once leaves all waits as they were. -/
theorem finishAwait_awaitAt (hslot : w.awaiters a = none)
    (hk : w.coros k = .active) :
    ((awaitAt w a k aw).finishAwait k a).coros = w.coros
      ∧ ((awaitAt w a k aw).finishAwait k a).awaiters = w.awaiters := by
  constructor
  · show Function.update (Function.update w.coros k _) k .active = _
    rw [Function.update_idem, ← hk, Function.update_eq_self]
  · show Function.update (Function.update w.awaiters a _) a none = _
    rw [Function.update_idem, ← hslot, Function.update_eq_self]

/-- **STEP**: whatever a callback meets. -/
theorem owned_outcome {l : SlotLabel} {es : List Event} (h : Owned w)
    (ho : Outcome w l w' es) : Owned w' := by
  cases ho with
  | connectExit hslot hk _ => exact owned_awaitAt h hslot hk rfl
  | connectPending hslot hk _ =>
      exact owned_congr (owned_awaitAt h hslot hk rfl) rfl rfl
  | fetchThrows hslot hk _ =>
      obtain ⟨hcoros, hawaiters⟩ := finishAwait_awaitAt hslot hk
      exact owned_congr h hcoros hawaiters
  | fetchExit hslot hk _ _ _ =>
      exact owned_congr (owned_awaitAt h hslot hk rfl) rfl rfl
  | fetchPending hslot hk _ _ _ =>
      exact owned_congr
        (owned_awaitAt h hslot hk (hCoro_pendingAwaiter .fetch _)) rfl rfl
  | fetchParked hslot hk _ _ =>
      exact owned_congr (owned_awaitAt h hslot hk rfl) rfl rfl
  | connected _ _ _ hk => exact owned_congr (owned_finishAwait h hk) rfl rfl
  | fetched _ _ _ hk _ => exact owned_congr (owned_finishAwait h hk) rfl rfl
  | @stored s x c k aw _ _ _ hk =>
      have hset : Owned (w.setAwaiter c.data (.connect (aw.setCoroReturn none))) :=
        owned_setAwaiter h hk hk.2.2
      exact owned_congr hset rfl rfl
  | refetched _ _ _ hk _ => exact owned_congr (owned_finishAwait h hk) rfl rfl
  | threw _ _ _ hk _ => exact owned_congr (owned_finishAwait h hk) rfl rfl
  | dangled _ _ _ _ _ => exact owned_congr h rfl rfl
  | dropped _ => exact owned_congr h rfl rfl
  | moved hk hst _ => exact owned_move h hk hst

theorem owned_init (pool : Pool) : Owned (World.init pool) where
  alive k a hk := by cases hk
  owned a aw ha := by cases ha

/-- **RUN**: every reachable state. -/
theorem owned_run {w₀ : World} (h₀ : Owned w₀) {ls : List SlotLabel}
    {tr : List Event} (h : Run step w₀ ls w tr) : Owned w :=
  Run.invariant (fun w _ => Owned w) h₀
    (fun _ _ _ _ _ hinv hstep => owned_outcome hinv (step_outcome hinv hstep).2)
    h

end owned

/-! ## Addresses that are used once -/

section fresh

variable {w w' : World} {l : Label} {es : List Event}

/-- Each `co_await` takes the next address. -/
theorem nextAwaiter_outcome (ho : ClientSteps.Outcome w l w' es) :
    w'.nextAwaiter = if awaits l then w.nextAwaiter + 1 else w.nextAwaiter := by
  cases ho with
  | moved _ _ hl => rcases hl with rfl | rfl | rfl <;> rfl
  | _ => rfl

/-- At the next address there is no awaiter yet. -/
theorem step_slot (h : Sound w)
    (hstep : ClientRuns.step w l = some (w', es)) :
    step w ⟨w.nextAwaiter, l⟩ = some (w', es) := by
  have hnone : w.awaiters w.nextAwaiter = none := by
    by_contra hlive
    exact absurd (h.bound _ hlive) (Nat.lt_irrefl _)
  simp only [step, if_pos hnone]
  split
  · exact hstep
  · exact hstep

/-- The addresses of the awaiters, in the order they are built. -/
def built (ls : List SlotLabel) : List AwaiterPtr :=
  (ls.filter fun l => awaits l.label).map SlotLabel.slot

/-- **ONCE**: the runs of `ClientRuns` are runs in which no address is used
    twice. -/
theorem slots_of_run {pool : Pool} {ls : List Label} {tr : List Event}
    (h : Run ClientRuns.step (World.init pool) ls w tr) :
    ∃ ls' : List SlotLabel, ls'.map SlotLabel.label = ls
      ∧ (built ls').Nodup ∧ Run step (World.init pool) ls' w tr := by
  have hrun : ∃ ls' : List SlotLabel, ls'.map SlotLabel.label = ls
      ∧ ((built ls').Nodup ∧ ∀ a ∈ built ls', a < w.nextAwaiter)
      ∧ Run step (World.init pool) ls' w tr := by
    induction h with
    | start => exact ⟨[], rfl, ⟨List.nodup_nil, by simp [built]⟩, .start⟩
    | @next ls w w' tr es l hr hstep ih =>
        obtain ⟨ls', hls, ⟨hnodup, hlt⟩, hrun⟩ := ih
        have hs := sound_run (sound_init pool) hr
        have hnext := nextAwaiter_outcome (ClientSteps.step_outcome hs hstep).2
        refine ⟨ls' ++ [⟨w.nextAwaiter, l⟩], by simp [hls], ?_,
          hrun.next (step_slot hs hstep)⟩
        cases hl : awaits l with
        | false =>
            have heq : built (ls' ++ [⟨w.nextAwaiter, l⟩]) = built ls' := by
              simp [built, hl]
            rw [heq, hnext, hl]
            exact ⟨hnodup, hlt⟩
        | true =>
            have heq : built (ls' ++ [⟨w.nextAwaiter, l⟩])
                = built ls' ++ [w.nextAwaiter] := by
              simp [built, hl]
            rw [heq, hnext, hl, if_pos rfl]
            refine ⟨List.nodup_append.mpr ⟨hnodup, by simp, ?_⟩, ?_⟩
            · intro a ha b hb
              rw [List.mem_singleton.mp hb]
              exact Nat.ne_of_lt (hlt a ha)
            · intro a ha
              rcases List.mem_append.mp ha with hold | hnew
              · exact Nat.lt_succ_of_lt (hlt a hold)
              · rw [List.mem_singleton.mp hnew]
                exact Nat.lt_succ_self _
  obtain ⟨ls', hls, ⟨hnodup, -⟩, hrun⟩ := hrun
  exact ⟨ls', hls, hnodup, hrun⟩

end fresh

end ClientSlots
