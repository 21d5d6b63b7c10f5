import CoroRedis.ClientRunProofs

/-! # What one step of the client can do

    `Sound` says where the awaiters of suspended coroutines are known: every
    outstanding connect callback and every entry of `fetch_awaiters_` names
    the live awaiter of a suspended coroutine, no two name the same, and the
    awaiter of a context whose connect callback has run is gone.

    From a sound world a step has one of the outcomes listed in `Outcome`
    (`step_outcome`), and each outcome is sound again (`sound_outcome`). -/

namespace ClientSteps

open CoroBytes TaskAwaiters ClientConnect ClientPool ClientRuns RunLog
open SharedPool hiding step

/-! ## Contexts by address -/

theorem getElem?_concat {α : Type} {l : List α} {a b : α} {x : Nat} :
    (l ++ [a])[x]? = some b ↔ l[x]? = some b ∨ (x = l.length ∧ b = a) := by
  rcases Nat.lt_trichotomy x l.length with hlt | heq | hgt
  · rw [List.getElem?_append_left hlt]
    constructor
    · intro h
      exact Or.inl h
    · rintro (h | ⟨hx, -⟩)
      · exact h
      · exact absurd hx (Nat.ne_of_lt hlt)
  · subst heq
    rw [List.getElem?_concat_length, List.getElem?_eq_none (Nat.le_refl _)]
    simp [eq_comm]
  · have hlen : (l ++ [a]).length ≤ x := by
      rw [List.length_append, List.length_singleton]
      exact hgt
    rw [List.getElem?_eq_none hlen, List.getElem?_eq_none (Nat.le_of_lt hgt)]
    simp [Nat.ne_of_gt hgt]

theorem getElem?_setPhase {w : World} {x y : CtxPtr} {ph : Phase}
    {d : AsyncContext} :
    (w.setPhase x ph).ctxs[y]? = some d
      ↔ ∃ c, w.ctxs[y]? = some c
        ∧ d = if x = y then { c with phase := ph } else c := by
  show (w.ctxs.modify x _)[y]? = some d ↔ _
  rw [List.getElem?_modify]
  cases hy : w.ctxs[y]? with
  | none => simp
  | some c =>
      by_cases hxy : x = y
      · simp [hxy, eq_comm]
      · simp [hxy, eq_comm]

/-- A context that is pending after the callback of `x` is another one, and was
    so before. -/
theorem pending_of_setPhase {w : World} {x y : CtxPtr} {ph : Phase}
    {d : AsyncContext} (hph : ph ≠ .pending)
    (hy : (w.setPhase x ph).ctxs[y]? = some d) (hd : d.phase = .pending) :
    x ≠ y ∧ w.ctxs[y]? = some d := by
  obtain ⟨c, hc, rfl⟩ := getElem?_setPhase.mp hy
  by_cases hxy : x = y
  · rw [if_pos hxy] at hd
    exact absurd hd hph
  · rw [if_neg hxy]
    exact ⟨hxy, hc⟩

/-! ## The invariant -/

/-- The awaiter a registered context of this kind points to. -/
def pendingAwaiter : CtxKind → CoroHandle → Awaiter
  | .connect, k => .connect (.suspended k)
  | .fetch, k => .fetch ((TaskAwaiter.suspended k).setCoroReturn ())

/-- Coroutine `k` is suspended on the live awaiter `a`. -/
def Suspended (w : World) (k : CoroHandle) (a : AwaiterPtr) (aw : Awaiter) :
    Prop :=
  w.coros k = .awaiting a ∧ w.awaiters a = some aw ∧ aw.hCoro = some k

/-- Awaiters, callbacks and coroutines agree. -/
structure Sound (w : World) : Prop where
  alive : ∀ k a, w.coros k = .awaiting a → ∃ aw, Suspended w k a aw
  bound : ∀ a, w.awaiters a ≠ none → a < w.nextAwaiter
  pending : ∀ (x : CtxPtr) c, w.ctxs[x]? = some c → c.phase = .pending →
    ∃ k, Suspended w k c.data (pendingAwaiter c.kind k)
  done : ∀ (x : CtxPtr) c, w.ctxs[x]? = some c → c.phase ≠ .pending →
    w.awaiters c.data = none ∧ c.data < w.nextAwaiter
  parked : ∀ a ∈ w.pool.clt.fetchAwaiters,
    ∃ k, Suspended w k a (.fetch (.suspended k))
  single : ∀ (x y : CtxPtr) c d, w.ctxs[x]? = some c → w.ctxs[y]? = some d →
    c.phase = .pending → d.phase = .pending → c.data = d.data → x = y
  parkedOnce : w.pool.clt.fetchAwaiters.Nodup

theorem sound_init (pool : Pool) : Sound (World.init pool) where
  alive k a hk := by cases hk
  bound a ha := absurd rfl ha
  pending x c hx := by simp [World.init] at hx
  done x c hx := by simp [World.init] at hx
  parked a ha := by simp [World.init] at ha
  single x y c d hx := by simp [World.init] at hx
  parkedOnce := by simp [World.init]

theorem hCoro_pendingAwaiter (kind : CtxKind) (k : CoroHandle) :
    (pendingAwaiter kind k).hCoro = some k := by
  cases kind with
  | connect => rfl
  | fetch => rfl

section awaiting

variable {coros : CoroHandle → CoroStatus} {k k' : CoroHandle}
  {a b : AwaiterPtr} {st : CoroStatus}

theorem active_ne_awaiting (a : AwaiterPtr) :
    CoroStatus.active ≠ .awaiting a := by
  simp

/-- Whoever waits once `k` runs is another coroutine, and waited before. -/
theorem awaiting_of_update (hst : ∀ b, st ≠ .awaiting b)
    (h : Function.update coros k st k' = .awaiting a) :
    k' ≠ k ∧ coros k' = .awaiting a := by
  have hne : k' ≠ k := by
    rintro rfl
    rw [Function.update_self] at h
    exact hst a h
  rw [Function.update_of_ne hne] at h
  exact ⟨hne, h⟩

/-- Whoever waits once `k` waits on `b` is `k`, or waited before. -/
theorem awaiting_of_update_awaiting
    (h : Function.update coros k (.awaiting b) k' = .awaiting a) :
    (k' = k ∧ a = b) ∨ (k' ≠ k ∧ coros k' = .awaiting a) := by
  by_cases hkk : k' = k
  · subst hkk
    rw [Function.update_self] at h
    injection h with hba
    exact Or.inl ⟨rfl, hba.symm⟩
  · rw [Function.update_of_ne hkk] at h
    exact Or.inr ⟨hkk, h⟩

/-- A wait that is over at once leaves the others as they were. -/
theorem awaiting_of_finished
    (h : Function.update (Function.update coros k (.awaiting b)) k .active k'
      = .awaiting a) : coros k' = .awaiting a := by
  rw [Function.update_idem] at h
  exact (awaiting_of_update active_ne_awaiting h).2

end awaiting

section suspended

variable {w : World} {k k' : CoroHandle} {a b : AwaiterPtr} {aw aw' : Awaiter}

/-- One awaiter, one coroutine. -/
theorem suspended_unique (h : Suspended w k a aw)
    (h' : Suspended w k' a aw') : k = k' ∧ aw = aw' := by
  have haw := Option.some.inj (h.2.1.symm.trans h'.2.1)
  refine ⟨?_, haw⟩
  have hk := h.2.2
  rw [haw, h'.2.2] at hk
  exact (Option.some.inj hk).symm

/-- One coroutine, one awaiter. -/
theorem suspended_ptr_unique (h : Suspended w k a aw)
    (h' : Suspended w k b aw') : a = b := by
  have := h.1.symm.trans h'.1
  injection this

theorem suspended_lt (hs : Sound w) (h : Suspended w k a aw) :
    a < w.nextAwaiter := by
  refine hs.bound a ?_
  rw [h.2.1]
  simp

/-- Whoever is suspended elsewhere stays so when `k` starts to wait. -/
theorem suspended_awaitOn (hs : Sound w) (hk : w.coros k = .active)
    (h : Suspended w k' a aw) : Suspended (w.awaitOn k aw') k' a aw := by
  have hne : k' ≠ k := by
    rintro rfl
    exact absurd (hk.symm.trans h.1) (by simp)
  refine ⟨?_, ?_, h.2.2⟩
  · show Function.update w.coros k _ k' = _
    rw [Function.update_of_ne hne]
    exact h.1
  · show Function.update w.awaiters w.nextAwaiter _ a = _
    rw [Function.update_of_ne (Nat.ne_of_lt (suspended_lt hs h))]
    exact h.2.1

theorem suspended_awaitOn_self (haw : aw.hCoro = some k) :
    Suspended (w.awaitOn k aw) k w.nextAwaiter aw :=
  ⟨Function.update_self _ _ _, Function.update_self _ _ _, haw⟩

/-- Whoever is suspended elsewhere stays so when the await on `a` is over. -/
theorem suspended_finishAwait (hk : Suspended w k a aw) (hb : b ≠ a)
    (h : Suspended w k' b aw') : Suspended (w.finishAwait k a) k' b aw' := by
  have hne : k' ≠ k := by
    rintro rfl
    exact hb (suspended_ptr_unique h hk)
  refine ⟨?_, ?_, h.2.2⟩
  · show Function.update w.coros k _ k' = _
    rw [Function.update_of_ne hne]
    exact h.1
  · show Function.update w.awaiters a none b = _
    rw [Function.update_of_ne hb]
    exact h.2.1

/-- A coroutine that awaits nothing here moves. -/
theorem suspended_move_iff {st : CoroStatus}
    (hk : ∀ b, w.coros k ≠ .awaiting b) (hst : ∀ b, st ≠ .awaiting b) :
    Suspended { w with coros := Function.update w.coros k st } k' b aw'
      ↔ Suspended w k' b aw' := by
  constructor
  · exact fun h => ⟨(awaiting_of_update hst h.1).2, h.2⟩
  · intro h
    have hkk : k' ≠ k := by
      rintro rfl
      exact hk b h.1
    exact ⟨(Function.update_of_ne hkk _ _).trans h.1, h.2⟩

end suspended

/-! ## The building blocks keep it -/

section blocks

variable {w : World} {k : CoroHandle} {a : AwaiterPtr} {aw : Awaiter}

theorem sound_awaitOn (h : Sound w) (hk : w.coros k = .active)
    (haw : aw.hCoro = some k) : Sound (w.awaitOn k aw) where
  alive k' b hb := by
    rcases awaiting_of_update_awaiting hb with ⟨rfl, rfl⟩ | ⟨-, hold⟩
    · exact ⟨aw, suspended_awaitOn_self haw⟩
    · obtain ⟨aw', h'⟩ := h.alive k' b hold
      exact ⟨aw', suspended_awaitOn h hk h'⟩
  bound b hb := by
    show b < w.nextAwaiter + 1
    by_cases hbn : b = w.nextAwaiter
    · rw [hbn]
      exact Nat.lt_succ_self _
    · refine Nat.lt_succ_of_lt (h.bound b ?_)
      intro hnone
      apply hb
      show Function.update w.awaiters w.nextAwaiter _ b = none
      rw [Function.update_of_ne hbn]
      exact hnone
  pending x c hx hc := by
    obtain ⟨k', h'⟩ := h.pending x c hx hc
    exact ⟨k', suspended_awaitOn h hk h'⟩
  done x c hx hc := by
    obtain ⟨hnone, hlt⟩ := h.done x c hx hc
    refine ⟨?_, Nat.lt_succ_of_lt hlt⟩
    show Function.update w.awaiters w.nextAwaiter _ c.data = none
    rw [Function.update_of_ne (Nat.ne_of_lt hlt)]
    exact hnone
  parked b hb := by
    obtain ⟨k', h'⟩ := h.parked b hb
    exact ⟨k', suspended_awaitOn h hk h'⟩
  single := h.single
  parkedOnce := h.parkedOnce

/-- A new context for an awaiter that nothing names yet. -/
theorem sound_register {c : AsyncContext} (h : Sound w)
    (hc : c.phase = .pending)
    (hk : Suspended w k c.data (pendingAwaiter c.kind k))
    (hnew : ∀ (x : CtxPtr) d, w.ctxs[x]? = some d → d.phase = .pending →
      d.data ≠ c.data) : Sound (w.register c) where
  alive := h.alive
  bound := h.bound
  pending x d hx hd := by
    rcases getElem?_concat.mp hx with hold | ⟨-, rfl⟩
    · exact h.pending x d hold hd
    · exact ⟨k, hk⟩
  done x d hx hd := by
    rcases getElem?_concat.mp hx with hold | ⟨-, rfl⟩
    · exact h.done x d hold hd
    · exact absurd hc hd
  parked := h.parked
  single x y d e hx hy hd he hde := by
    rcases getElem?_concat.mp hx with hx' | ⟨hx', rfl⟩
    · rcases getElem?_concat.mp hy with hy' | ⟨-, rfl⟩
      · exact h.single x y d e hx' hy' hd he hde
      · exact absurd hde (hnew x d hx' hd)
    · rcases getElem?_concat.mp hy with hy' | ⟨hy', -⟩
      · exact absurd hde.symm (hnew y e hy' he)
      · rw [hx', hy']
  parkedOnce := h.parkedOnce

/-- The pool changes, but not who waits for it. -/
theorem sound_pool {pool : Pool} (h : Sound w)
    (hp : pool.clt.fetchAwaiters = w.pool.clt.fetchAwaiters) :
    Sound { w with pool := pool } where
  alive := h.alive
  bound := h.bound
  pending := h.pending
  done := h.done
  parked b hb := h.parked b (hp ▸ hb)
  single := h.single
  parkedOnce := by
    show pool.clt.fetchAwaiters.Nodup
    rw [hp]
    exact h.parkedOnce

/-- A fault changes nothing that is agreed on. -/
theorem sound_fault (fault : Option Fault) (h : Sound w) :
    Sound { w with fault := fault } :=
  ⟨h.alive, h.bound, h.pending, h.done, h.parked, h.single, h.parkedOnce⟩

/-- An awaiter joins `fetch_awaiters_`. -/
theorem sound_park (h : Sound w) (hk : Suspended w k a (.fetch (.suspended k)))
    (hnew : a ∉ w.pool.clt.fetchAwaiters) :
    Sound { w with pool := w.pool.parkAwaiter a } where
  alive := h.alive
  bound := h.bound
  pending := h.pending
  done := h.done
  parked b hb := by
    rcases List.mem_append.mp hb with hold | hlast
    · exact h.parked b hold
    · rw [List.mem_singleton.mp hlast]
      exact ⟨k, hk⟩
  single := h.single
  parkedOnce := by
    refine List.nodup_append.mpr ⟨h.parkedOnce, by simp, ?_⟩
    intro b hb c hc
    rw [List.mem_singleton.mp hc]
    rintro rfl
    exact hnew hb

/-- An await is over: no outstanding callback names its awaiter any more. -/
theorem sound_finishAwait (ctxs : List AsyncContext) (h : Sound w)
    (hk : Suspended w k a aw)
    (hpending : ∀ (x : CtxPtr) c, ctxs[x]? = some c → c.phase = .pending →
      w.ctxs[x]? = some c ∧ c.data ≠ a)
    (hdone : ∀ (x : CtxPtr) c, ctxs[x]? = some c → c.phase ≠ .pending →
      c.data = a ∨ ∃ d, w.ctxs[x]? = some d ∧ d.phase ≠ .pending
        ∧ d.data = c.data)
    (hpark : a ∉ w.pool.clt.fetchAwaiters) :
    Sound (({ w with ctxs := ctxs } : World).finishAwait k a) where
  alive k' b hb := by
    obtain ⟨hne, hold⟩ := awaiting_of_update active_ne_awaiting hb
    obtain ⟨aw', h'⟩ := h.alive k' b hold
    have hba : b ≠ a := by
      rintro rfl
      exact hne (suspended_unique h' hk).1
    exact ⟨aw', suspended_finishAwait hk hba h'⟩
  bound b hb := by
    refine h.bound b ?_
    intro hnone
    apply hb
    show Function.update w.awaiters a none b = none
    by_cases hba : b = a
    · rw [hba, Function.update_self]
    · rw [Function.update_of_ne hba]
      exact hnone
  pending x c hx hc := by
    obtain ⟨hold, hne⟩ := hpending x c hx hc
    obtain ⟨k', h'⟩ := h.pending x c hold hc
    exact ⟨k', suspended_finishAwait hk hne h'⟩
  done x c hx hc := by
    have hlt : a < w.nextAwaiter := suspended_lt h hk
    show Function.update w.awaiters a none c.data = none ∧ _
    by_cases hca : c.data = a
    · rw [hca, Function.update_self]
      exact ⟨rfl, hlt⟩
    · rw [Function.update_of_ne hca]
      obtain ⟨d, hd, hdp, hdc⟩ := (hdone x c hx hc).resolve_left hca
      rw [← hdc]
      exact h.done x d hd hdp
  parked b hb := by
    obtain ⟨k', h'⟩ := h.parked b hb
    have hba : b ≠ a := by
      rintro rfl
      exact hpark hb
    exact ⟨k', suspended_finishAwait hk hba h'⟩
  single x y c d hx hy hc hd :=
    h.single x y c d (hpending x c hx hc).1 (hpending y d hy hd).1 hc hd
  parkedOnce := h.parkedOnce

theorem sound_move {st : CoroStatus} (h : Sound w)
    (hk : ∀ b, w.coros k ≠ .awaiting b) (hst : ∀ b, st ≠ .awaiting b) :
    Sound { w with coros := Function.update w.coros k st } := by
  refine ⟨?_, h.bound, ?_, h.done, ?_, h.single, h.parkedOnce⟩
  · intro k' b hb
    obtain ⟨aw', h'⟩ := h.alive k' b (awaiting_of_update hst hb).2
    exact ⟨aw', (suspended_move_iff hk hst).mpr h'⟩
  · intro x c hx hc
    obtain ⟨k', h'⟩ := h.pending x c hx hc
    exact ⟨k', (suspended_move_iff hk hst).mpr h'⟩
  · intro b hb
    obtain ⟨k', h'⟩ := h.parked b hb
    exact ⟨k', (suspended_move_iff hk hst).mpr h'⟩

/-- A context that is not pending changes its phase. -/
theorem sound_setPhase {x : CtxPtr} {c : AsyncContext} (ph : Phase)
    (h : Sound w) (hx : w.ctxs[x]? = some c) (hc : c.phase ≠ .pending)
    (hph : ph ≠ .pending) : Sound (w.setPhase x ph) := by
  refine ⟨h.alive, h.bound, ?_, ?_, h.parked, ?_, h.parkedOnce⟩
  · intro y d hy hd
    exact h.pending y d (pending_of_setPhase hph hy hd).2 hd
  · intro y d hy hd
    obtain ⟨c', hc', rfl⟩ := getElem?_setPhase.mp hy
    by_cases hxy : x = y
    · subst hxy
      rw [hx, Option.some.injEq] at hc'
      subst hc'
      rw [if_pos rfl]
      exact h.done x c hx hc
    · rw [if_neg hxy] at hd ⊢
      exact h.done y c' hc' hd
  · intro y z d e hy hz hd he
    exact h.single y z d e (pending_of_setPhase hph hy hd).2
      (pending_of_setPhase hph hz he).2 hd he

end blocks

/-! ## The outcomes of a step -/

/-- The phase after a connect callback. -/
def phaseOf (status : Int) : Phase :=
  if status = REDIS_OK then .established else .failed

theorem phaseOf_ne_pending (status : Int) : phaseOf status ≠ .pending := by
  rw [phaseOf]
  split_ifs <;> simp

/-- The pool after the connect callback of a fetch: the connection is added
    and the temporary handle dropped. -/
def addTemporary (pool : Pool) (x : CtxPtr) : Pool :=
  (pool.addNewConn x).2.dropHandle (pool.addNewConn x).1

/-- What a step from a sound world can do. -/
inductive Outcome (w : World) : Label → World → List Event → Prop where
  | connectExit {k ioc host port timeoutSeconds o}
      (hk : w.coros k = .active) (ho : ¬ (Valid host port ∧ o.Ok)) :
      Outcome w (.connect k ioc host port timeoutSeconds o)
        (w.awaitOn k (.connect (.suspended k))) [.earlyExit w.nextAwaiter]
  | connectPending {k ioc host port timeoutSeconds o}
      (hk : w.coros k = .active) (ho : Valid host port ∧ o.Ok) :
      Outcome w (.connect k ioc host port timeoutSeconds o)
        ((w.awaitOn k (.connect (.suspended k))).register
          ⟨redisOptions host port timeoutSeconds, ioc, .connect, w.nextAwaiter,
            .pending⟩) []
  | fetchThrows {k o} (hk : w.coros k = .active)
      (hfree : w.pool.clt.freePool ≠ []) :
      Outcome w (.fetch k o)
        { (w.awaitOn k (.fetch (.suspended k))).finishAwait k w.nextAwaiter with
          fault := some .terminated } [.resume w.nextAwaiter]
  | fetchExit {k o ioc} (hk : w.coros k = .active)
      (hfree : w.pool.clt.freePool = [])
      (hio : w.pool.clt.poolIos.getLast? = some ioc) (ho : ¬ o.Ok) :
      Outcome w (.fetch k o)
        { w.awaitOn k (.fetch (.suspended k)) with pool := w.pool.takeIo }
        [.earlyExit w.nextAwaiter]
  | fetchPending {k o ioc} (hk : w.coros k = .active)
      (hfree : w.pool.clt.freePool = [])
      (hio : w.pool.clt.poolIos.getLast? = some ioc) (ho : o.Ok) :
      Outcome w (.fetch k o)
        (({ w.awaitOn k (pendingAwaiter .fetch k) with
            pool := w.pool.takeIo } : World).register
          ⟨redisOptions w.pool.clt.host w.pool.clt.port w.pool.clt.timeout, ioc,
            .fetch, w.nextAwaiter, .pending⟩) [.setCoroReturn w.nextAwaiter]
  | fetchParked {k o} (hk : w.coros k = .active)
      (hfree : w.pool.clt.freePool = []) (hio : w.pool.clt.poolIos = []) :
      Outcome w (.fetch k o)
        { w.awaitOn k (.fetch (.suspended k)) with
          pool := w.pool.parkAwaiter w.nextAwaiter } []
  | connected {x c status k} (hx : w.ctxs[x]? = some c)
      (hc : c.phase = .pending) (hkind : c.kind = .connect)
      (hk : Suspended w k c.data (pendingAwaiter c.kind k)) :
      Outcome w (.connectCb x status)
        ((w.setPhase x (phaseOf status)).finishAwait k c.data)
        [.setCoroReturn c.data, .resume c.data, .returned c.data
          (.connect (some ⟨if status = REDIS_OK then some x else none⟩))]
  | fetched {x c status k} (hx : w.ctxs[x]? = some c)
      (hc : c.phase = .pending) (hkind : c.kind = .fetch)
      (hk : Suspended w k c.data (pendingAwaiter c.kind k)) :
      Outcome w (.connectCb x status)
        { (w.setPhase x (phaseOf status)).finishAwait k c.data with
          pool := (addTemporary w.pool x).fetchFromFreePool.2 }
        [.resume c.data, .returned c.data
          (.fetch (addTemporary w.pool x).fetchFromFreePool.1)]
  | lateSet {x c} (hx : w.ctxs[x]? = some c) (hc : c.phase = .established)
      (hkind : c.kind = .connect) :
      Outcome w (.disconnectCb x)
        { w.setPhase x .disconnected with fault := some .undefined }
        [.setCoroReturn c.data]
  | lateResume {x c} (hx : w.ctxs[x]? = some c) (hc : c.phase = .established)
      (hkind : c.kind = .fetch) :
      Outcome w (.disconnectCb x)
        { w.setPhase x .disconnected with fault := some .undefined }
        [.resume c.data]
  | dropped {c} (hc : c ∈ w.pool.handles) :
      Outcome w (.dropHandle c) { w with pool := w.pool.dropHandle c } []
  | moved {l k st} (hk : ∀ a, w.coros k ≠ .awaiting a)
      (hst : ∀ a, st ≠ .awaiting a)
      (hl : l = .suspend k ∨ l = .wake k ∨ l = .finish k) :
      Outcome w l { w with coros := Function.update w.coros k st } []

section outcome

variable {w w' : World} {l : Label} {es : List Event}

theorem usable_created {o : Attempt} {x : CtxPtr} :
    (o.created x).usable (fun _ => o.attach) = (if o.Ok then some x else none) := by
  by_cases ho : o.Ok
  · rw [if_pos ho, usable_eq_some_iff]
    exact ⟨by rw [Attempt.created, ho.1], ho.2⟩
  · rw [if_neg ho]
    cases hu : (o.created x).usable (fun _ => o.attach) with
    | none => rfl
    | some y =>
        obtain ⟨hc, ha⟩ := usable_eq_some_iff.mp hu
        refine absurd ⟨?_, ha⟩ ho
        rw [Attempt.created] at hc
        cases he : o.err with
        | none => simp [he] at hc
        | some err =>
            rw [he] at hc
            injection hc with _ herr
            rw [herr]

theorem coroConnectSuspend_created {o : Attempt} {x : CtxPtr} {host : Bytes}
    {port : UInt16} :
    coroConnectSuspend host port (o.created x) (fun _ => o.attach)
      = (if Valid host port ∧ o.Ok then some x else none) := by
  rw [coroConnectSuspend]
  rw [usable_created]
  by_cases hh : host = []
  · simp [hh, Valid]
  · by_cases hp : port > 0
    · simp [hh, hp, Valid]
    · simp [hp, Valid]

theorem outcome_connect {k : CoroHandle} {ioc : IoPtr} {host : Bytes}
    {port : UInt16} {timeoutSeconds : Int} {o : Attempt}
    (hk : w.coros k = .active) :
    Outcome w (.connect k ioc host port timeoutSeconds o)
      (w.coroConnect k ioc host port timeoutSeconds o).1
      (w.coroConnect k ioc host port timeoutSeconds o).2 := by
  rw [World.coroConnect]
  rw [coroConnectSuspend_created]
  by_cases ho : Valid host port ∧ o.Ok
  · rw [if_pos ho]
    exact .connectPending hk ho
  · rw [if_neg ho]
    exact .connectExit hk ho

theorem outcome_fetch {k : CoroHandle} {o : Attempt}
    (hk : w.coros k = .active) :
    Outcome w (.fetch k o) (w.fetchCoroConn k o).1 (w.fetchCoroConn k o).2 := by
  rw [World.fetchCoroConn]
  by_cases hfree : w.pool.clt.freePool = []
  · rw [if_neg (not_not.mpr hfree)]
    cases hio : w.pool.clt.poolIos.getLast? with
    | none =>
        exact .fetchParked hk hfree (List.getLast?_eq_none_iff.mp hio)
    | some ioc =>
        rw [usable_created]
        by_cases ho : o.Ok
        · rw [if_pos ho]
          have := Outcome.fetchPending (w := w) hk hfree hio ho
          simpa [World.awaitOn, World.setAwaiter, World.register,
            pendingAwaiter, Function.update_idem] using this
        · rw [if_neg ho]
          exact .fetchExit hk hfree hio ho
  · rw [if_pos hfree]
    -- nothing has been stored in the awaiter yet
    have hself : Suspended (w.awaitOn k (.fetch (.suspended k))) k
        w.nextAwaiter (.fetch (.suspended k)) := suspended_awaitOn_self rfl
    have := Outcome.fetchThrows (w := w) (o := o) hk hfree
    simp only [World.resume, hself.2.1]
    exact this

/-- The connect callback of `coro_connect`. -/
theorem connectCb_connect {x : CtxPtr} {c : AsyncContext} {k : CoroHandle}
    (status : Int) (hkind : c.kind = .connect)
    (haw : w.awaiters c.data = some (.connect (.suspended k))) :
    w.connectCb x c status
      = ((w.setPhase x (phaseOf status)).finishAwait k c.data,
        [.setCoroReturn c.data, .resume c.data, .returned c.data
          (.connect (some ⟨if status = REDIS_OK then some x else none⟩))]) := by
  have hph : ∀ ph, (w.setPhase x ph).awaiters c.data
      = some (.connect (.suspended k)) := fun _ => haw
  have hh : (connectCallback (.suspended k) x status).hCoro = some k := by
    rw [connectCallback]
    split_ifs <;> rfl
  simp only [World.connectCb, hkind, hph, World.resume, World.setAwaiter,
    Function.update_self, Awaiter.hCoro, hh, connectResume_connectCallback,
    World.finishAwait, Function.update_idem, phaseOf]

/-- The connect callback of `fetch_coro_conn`. -/
theorem connectCb_fetch {x : CtxPtr} {c : AsyncContext} {k : CoroHandle}
    (status : Int) (hkind : c.kind = .fetch)
    (haw : w.awaiters c.data
      = some (.fetch ((TaskAwaiter.suspended k).setCoroReturn ()))) :
    w.connectCb x c status
      = ({ (w.setPhase x (phaseOf status)).finishAwait k c.data with
          pool := (addTemporary w.pool x).fetchFromFreePool.2 },
        [.resume c.data, .returned c.data
          (.fetch (addTemporary w.pool x).fetchFromFreePool.1)]) := by
  have hph : ∀ ph, (w.setPhase x ph).awaiters c.data
      = some (.fetch ((TaskAwaiter.suspended k).setCoroReturn ())) :=
    fun _ => haw
  simp only [World.connectCb, hkind, hph, World.resume, Awaiter.hCoro,
    TaskAwaiter.setCoroReturn_hCoro, TaskAwaiter.suspended_hCoro,
    TaskAwaiter.setCoroReturn_coroTmpReturn]
  rfl

theorem outcome_connectCb (h : Sound w) {x : CtxPtr} {c : AsyncContext}
    {status : Int} (hx : w.ctxs[x]? = some c) (hc : c.phase = .pending) :
    Outcome w (.connectCb x status) (w.connectCb x c status).1
      (w.connectCb x c status).2 := by
  obtain ⟨k, hk⟩ := h.pending x c hx hc
  have haw := hk.2.1
  cases hkind : c.kind with
  | connect =>
      rw [hkind] at haw
      rw [connectCb_connect status hkind haw]
      exact .connected hx hc hkind hk
  | fetch =>
      rw [hkind] at haw
      rw [connectCb_fetch status hkind haw]
      exact .fetched hx hc hkind hk

theorem outcome_disconnectCb (h : Sound w) {x : CtxPtr} {c : AsyncContext}
    (hx : w.ctxs[x]? = some c) (hc : c.phase = .established) :
    Outcome w (.disconnectCb x) (w.disconnectCb x c).1
      (w.disconnectCb x c).2 := by
  -- the awaiter died when the connect callback resumed it
  obtain ⟨hdead, -⟩ := h.done x c hx (by rw [hc]; simp)
  have hph : ∀ ph, (w.setPhase x ph).awaiters c.data = none := fun _ => hdead
  cases hkind : c.kind with
  | connect =>
      simp only [World.disconnectCb, hkind, hph]
      exact .lateSet hx hc hkind
  | fetch =>
      simp only [World.disconnectCb, hkind, hph]
      exact .lateResume hx hc hkind

theorem outcome_move {k : CoroHandle} {old new : CoroStatus}
    (hold : ∀ a, old ≠ .awaiting a) (hnew : ∀ a, new ≠ .awaiting a)
    (hl : l = .suspend k ∨ l = .wake k ∨ l = .finish k)
    (hm : move w k old new = some (w', es)) : Outcome w l w' es := by
  rw [move] at hm
  by_cases hk : w.coros k = old
  · rw [if_pos hk, Option.some.injEq, Prod.mk.injEq] at hm
    obtain ⟨rfl, rfl⟩ := hm
    refine .moved ?_ hnew hl
    intro a
    rw [hk]
    exact hold a
  · rw [if_neg hk] at hm
    exact absurd hm (by simp)

/-- A callback runs for a context in the right phase. -/
theorem onContext_eq_some {x : CtxPtr} {ph : Phase}
    {f : AsyncContext → World × List Event}
    (h : onContext w x ph f = some (w', es)) :
    ∃ c, w.ctxs[x]? = some c ∧ c.phase = ph ∧ f c = (w', es) := by
  rw [onContext] at h
  cases hx : w.ctxs[x]? with
  | none => simp [hx] at h
  | some c =>
      by_cases hc : c.phase = ph
      · simp only [hx, if_pos hc, Option.some.injEq] at h
        exact ⟨c, rfl, hc, h⟩
      · simp [hx, hc] at h

/-- **INVERSION**: a step from a sound world has one of the outcomes. -/
theorem step_outcome (h : Sound w) (hstep : step w l = some (w', es)) :
    w.fault = none ∧ Outcome w l w' es := by
  rw [step] at hstep
  by_cases hf : w.fault = none
  · rw [if_pos hf] at hstep
    refine ⟨hf, ?_⟩
    cases l with
    | connect k ioc host port timeoutSeconds o =>
        by_cases hk : w.coros k = .active
        · simp only [stepOk, if_pos hk, Option.some.injEq] at hstep
          have hout : Outcome w (.connect k ioc host port timeoutSeconds o) _ _
            := outcome_connect hk
          rw [hstep] at hout
          exact hout
        · simp [stepOk, hk] at hstep
    | fetch k o =>
        by_cases hk : w.coros k = .active
        · simp only [stepOk, if_pos hk, Option.some.injEq] at hstep
          have hout := outcome_fetch (o := o) hk
          rw [hstep] at hout
          exact hout
        · simp [stepOk, hk] at hstep
    | connectCb x status =>
        obtain ⟨c, hx, hc, heq⟩ := onContext_eq_some hstep
        have hout : Outcome w (.connectCb x status) _ _ :=
          outcome_connectCb h hx hc
        rw [heq] at hout
        exact hout
    | disconnectCb x =>
        obtain ⟨c, hx, hc, heq⟩ := onContext_eq_some hstep
        have hout := outcome_disconnectCb h hx hc
        rw [heq] at hout
        exact hout
    | dropHandle c =>
        by_cases hc : c ∈ w.pool.handles
        · simp only [stepOk, if_pos hc, Option.some.injEq,
            Prod.mk.injEq] at hstep
          obtain ⟨rfl, rfl⟩ := hstep
          exact .dropped hc
        · simp [stepOk, hc] at hstep
    | suspend k =>
        exact outcome_move (by simp) (by simp) (Or.inl rfl) hstep
    | wake k =>
        exact outcome_move (by simp) (by simp) (Or.inr (Or.inl rfl)) hstep
    | finish k =>
        exact outcome_move (by simp) (by simp) (Or.inr (Or.inr rfl)) hstep
  · rw [if_neg hf] at hstep
    exact absurd hstep (by simp)

end outcome

/-! ## Every outcome is sound -/

section sound

variable {w w' : World} {l : Label} {es : List Event}

@[simp] theorem fetchAwaiters_dropHandle (pool : Pool) (c : ConnPtr) :
    (pool.dropHandle c).clt.fetchAwaiters = pool.clt.fetchAwaiters := by
  rw [Pool.dropHandle]
  simp only
  split_ifs
  · show (ClientImpl.recycleConn pool.clt c).fetchAwaiters = _
    rw [ClientImpl.recycleConn]
    cases pool.clt.inusePool.find? (fun pp => pp = c) <;> rfl
  · rfl

@[simp] theorem fetchAwaiters_fetchFromFreePool (pool : Pool) :
    pool.fetchFromFreePool.2.clt.fetchAwaiters = pool.clt.fetchAwaiters := by
  rw [Pool.fetchFromFreePool, ClientImpl.fetchFromFreePool]
  cases pool.clt.freePool <;> rfl

/-- Adding a connection and fetching one leaves who waits for one. -/
theorem fetchAwaiters_addTemporary (pool : Pool) (x : CtxPtr) :
    (addTemporary pool x).fetchFromFreePool.2.clt.fetchAwaiters
      = pool.clt.fetchAwaiters := by
  rw [fetchAwaiters_fetchFromFreePool, addTemporary, fetchAwaiters_dropHandle]
  rfl

/-- The fresh awaiter is in nobody's hands. -/
theorem nextAwaiter_not_parked (h : Sound w) :
    w.nextAwaiter ∉ w.pool.clt.fetchAwaiters := by
  intro hm
  obtain ⟨k, hk⟩ := h.parked _ hm
  exact absurd (suspended_lt h hk) (Nat.lt_irrefl _)

theorem nextAwaiter_not_data (h : Sound w) (x : CtxPtr) (c : AsyncContext)
    (hx : w.ctxs[x]? = some c) (hc : c.phase = .pending) :
    c.data ≠ w.nextAwaiter := by
  obtain ⟨k, hk⟩ := h.pending x c hx hc
  exact Nat.ne_of_lt (suspended_lt h hk)

/-- No awaiter waits both for a connect callback and for the pool: the parked
    one has nothing stored in it. -/
theorem pending_not_parked (h : Sound w) {x : CtxPtr} {c : AsyncContext}
    (hx : w.ctxs[x]? = some c) (hc : c.phase = .pending) :
    c.data ∉ w.pool.clt.fetchAwaiters := by
  intro hm
  obtain ⟨k, hk⟩ := h.pending x c hx hc
  obtain ⟨k', hk'⟩ := h.parked _ hm
  obtain ⟨-, haw⟩ := suspended_unique hk hk'
  cases hkind : c.kind with
  | connect =>
      rw [hkind] at haw
      exact absurd haw (by simp [pendingAwaiter])
  | fetch =>
      rw [hkind] at haw
      simp only [pendingAwaiter, Awaiter.fetch.injEq] at haw
      have := congrArg TaskAwaiter.coroTmpReturn haw
      exact absurd this (by simp)

/-- The connect callback of context `x` ends the await of `k`. -/
theorem sound_callback (h : Sound w) {x : CtxPtr} {c : AsyncContext}
    {k : CoroHandle} {status : Int} (hx : w.ctxs[x]? = some c)
    (hc : c.phase = .pending)
    (hk : Suspended w k c.data (pendingAwaiter c.kind k)) :
    Sound ((w.setPhase x (phaseOf status)).finishAwait k c.data) := by
  refine sound_finishAwait (w.setPhase x (phaseOf status)).ctxs h hk ?_ ?_ ?_
  · intro y d hy hd
    obtain ⟨hxy, hold⟩ := pending_of_setPhase (phaseOf_ne_pending status) hy hd
    refine ⟨hold, ?_⟩
    intro hdata
    exact hxy (h.single x y c d hx hold hc hd hdata.symm)
  · intro y d hy hd
    obtain ⟨c', hc', rfl⟩ := getElem?_setPhase.mp hy
    by_cases hxy : x = y
    · subst hxy
      rw [hx, Option.some.injEq] at hc'
      subst hc'
      rw [if_pos rfl]
      exact Or.inl rfl
    · rw [if_neg hxy] at hd ⊢
      exact Or.inr ⟨c', hc', hd, rfl⟩
  · exact pending_not_parked h hx hc

/-- **STEP**: every outcome of a sound world is sound. -/
theorem sound_outcome (h : Sound w) (ho : Outcome w l w' es) : Sound w' := by
  cases ho with
  | connectExit hk _ => exact sound_awaitOn h hk rfl
  | connectPending hk _ =>
      refine sound_register (sound_awaitOn h hk rfl) rfl
        (suspended_awaitOn_self rfl) ?_
      intro x d hx hd
      exact nextAwaiter_not_data h x d hx hd
  | @fetchThrows k o hk _ =>
      -- the wait starts and is over in one step
      have hwait : Sound (w.awaitOn k (.fetch (.suspended k))) :=
        sound_awaitOn h hk rfl
      have hs := sound_finishAwait w.ctxs hwait (suspended_awaitOn_self rfl)
        (fun x c hx hc => ⟨hx, nextAwaiter_not_data h x c hx hc⟩)
        (fun x c hx hc => Or.inr ⟨c, hx, hc, rfl⟩)
        (nextAwaiter_not_parked h)
      exact sound_fault _ hs
  | fetchExit hk _ _ _ => exact sound_pool (sound_awaitOn h hk rfl) rfl
  | @fetchPending k o ioc hk _ _ _ =>
      refine sound_register (c := ⟨_, ioc, .fetch, w.nextAwaiter, .pending⟩)
        (sound_pool (sound_awaitOn h hk (hCoro_pendingAwaiter .fetch k)) rfl)
        rfl (suspended_awaitOn_self (hCoro_pendingAwaiter .fetch k)) ?_
      intro x d hx hd
      exact nextAwaiter_not_data h x d hx hd
  | @fetchParked k o hk _ _ =>
      exact sound_park (w := w.awaitOn k (.fetch (.suspended k)))
        (sound_awaitOn h hk rfl) (suspended_awaitOn_self rfl)
        (nextAwaiter_not_parked h)
  | connected hx hc _ hk => exact sound_callback h hx hc hk
  | fetched hx hc _ hk =>
      exact sound_pool (sound_callback h hx hc hk)
        (fetchAwaiters_addTemporary w.pool _)
  | lateSet hx hc _ =>
      have hs := sound_setPhase .disconnected h hx (by rw [hc]; simp) (by simp)
      exact sound_fault _ hs
  | lateResume hx hc _ =>
      have hs := sound_setPhase .disconnected h hx (by rw [hc]; simp) (by simp)
      exact sound_fault _ hs
  | dropped _ => exact sound_pool h (by simp)
  | moved hk hst _ => exact sound_move h hk hst

/-- **RUN**: every reachable world is sound. -/
theorem sound_run {w₀ : World} (h₀ : Sound w₀) {ls : List Label}
    {tr : List Event} (h : Run step w₀ ls w tr) : Sound w :=
  Run.invariant (fun w _ => Sound w) h₀
    (fun _ _ _ _ _ hinv hstep => sound_outcome hinv (step_outcome hinv hstep).2)
    h

end sound

end ClientSteps
