import Mathlib.Data.List.Nodup
import CoroRedis.PoolProofs

/-! # Leases are exclusive — whatever the lists contain

    The in-use list keeps an entry for every lease there ever was, so it says
    nothing about who holds a connection.  What does is the free list: an
    allocated connection is either leased, once, or in the free list, once
    (`Ledger.split`).  A release moves it from one to the other, a fetch back.

    * `lease_exclusive` — in every run no connection has two open leases, and
      every connection a fetch returns was released and not fetched since. -/

namespace ClientPool

namespace Leases

open TaskAwaiters ClientConnect RunLog

/-! ## The history of leases -/

inductive LeaseEvent where
  /-- `add_new_conn` opens a lease on the connection it allocates. -/
  | added (c : ConnPtr)
  /-- What `fetch_from_free_pool` returns; a connection is then leased. -/
  | fetched (conn : Option ConnPtr)
  /-- `recycle_conn` closes a lease. -/
  | released (c : ConnPtr)
  deriving DecidableEq

/-- What one operation means for the leases. -/
def event (s : Leases) : LeaseOp → List LeaseEvent
  | .addNewConn _ => [.added s.conns.length]
  | .fetchFromFreePool => [.fetched s.clt.fetchFromFreePool.1]
  | .recycleConn p => [.released p]

/-- The operations with the history of leases. -/
def leaseStep : Leases → LeaseOp → Option (Leases × List LeaseEvent) :=
  observed step event

/-- How often a lease on `c` was opened, and how often closed. -/
def opened (c : ConnPtr) (tr : List LeaseEvent) : Nat :=
  tr.count (.added c) + tr.count (.fetched (some c))

def closed (c : ConnPtr) (tr : List LeaseEvent) : Nat :=
  tr.count (.released c)

/-- `c` was released, and not fetched since. -/
def Released (c : ConnPtr) (tr : List LeaseEvent) : Prop :=
  ∃ before since, tr = before ++ .released c :: since
    ∧ .fetched (some c) ∉ since

/-- A fetch returns a released connection or none. -/
def FetchesReleased (tr : List LeaseEvent) (e : LeaseEvent) : Prop :=
  ∀ c, e = .fetched (some c) → Released c tr

/-- No connection has two open leases, and fetches return what was released. -/
structure Exclusive (s : Leases) (tr : List LeaseEvent) : Prop where
  single : ∀ c, opened c tr ≤ closed c tr + 1
  holders : s.leases.Nodup
  fetches : AtEach FetchesReleased tr

/-! ## The ledger -/

/-- Every allocated connection is leased or free, and not both; the history
    accounts for each open lease and each free connection. -/
structure Ledger (s : Leases) (tr : List LeaseEvent) : Prop where
  split : (s.leases ++ s.clt.freePool).Perm (List.range s.conns.length)
  inuse : ∀ c ∈ s.leases, c ∈ s.clt.inusePool
  account : ∀ c, opened c tr = closed c tr + s.leases.count c
  free : ∀ c ∈ s.clt.freePool, Released c tr
  fetches : AtEach FetchesReleased tr

theorem ledger_empty : Ledger empty [] where
  split := List.Perm.refl _
  inuse _ hc := absurd hc List.not_mem_nil
  account _ := rfl
  free _ hc := absurd hc List.not_mem_nil
  fetches := atEach_nil _

section ledger

variable {s s' : Leases} {tr es : List LeaseEvent} {l : LeaseOp}
  {c : ConnPtr}

theorem ledger_nodup (h : Ledger s tr) :
    (s.leases ++ s.clt.freePool).Nodup :=
  h.split.nodup_iff.mpr List.nodup_range

/-- Only fetching `c` itself makes it a connection fetched since. -/
theorem released_snoc {e : LeaseEvent} (h : Released c tr)
    (he : e ≠ .fetched (some c)) : Released c (tr ++ [e]) := by
  obtain ⟨before, since, rfl, hsince⟩ := h
  refine ⟨before, since ++ [e], by simp, ?_⟩
  rw [List.mem_append, List.mem_singleton, not_or]
  exact ⟨hsince, fun heq => he heq.symm⟩

theorem released_last (c : ConnPtr) (tr : List LeaseEvent) :
    Released c (tr ++ [.released c]) :=
  ⟨tr, [], rfl, List.not_mem_nil⟩

theorem exclusive_of_ledger (h : Ledger s tr) : Exclusive s tr where
  single c := by
    have hone := List.nodup_iff_count_le_one.mp (ledger_nodup h) c
    rw [List.count_append] at hone
    rw [h.account c]
    omega
  holders := (List.nodup_append.mp (ledger_nodup h)).1
  fetches := h.fetches

/-- The account is kept when the new events open and close what the holders
    gain and lose. -/
theorem account_append {held held' : List ConnPtr}
    (h : opened c tr = closed c tr + held.count c)
    (hes : opened c es + held.count c = closed c es + held'.count c) :
    opened c (tr ++ es) = closed c (tr ++ es) + held'.count c := by
  simp only [opened, closed, List.count_append] at h hes ⊢
  omega

/-- Adding and fetching a connection open one lease on it. -/
theorem opened_added (c b : ConnPtr) :
    opened b [.added c] = [c].count b := by
  by_cases hb : c = b
  · simp [opened, hb]
  · simp [opened, hb]

theorem opened_fetched (c b : ConnPtr) :
    opened b [.fetched (some c)] = [c].count b := by
  by_cases hb : c = b
  · simp [opened, hb]
  · simp [opened, hb]

/-- ... and releasing it closes one. -/
theorem closed_released (c b : ConnPtr) :
    closed b [.released c] = [c].count b := by
  by_cases hb : c = b
  · simp [closed, hb]
  · simp [closed, hb]

/-- A new connection is leased to whoever added it. -/
theorem ledger_addNewConn (h : Ledger s tr) (actx : CtxPtr) :
    Ledger ⟨s.clt.addNewConn s.conns.length, s.conns ++ [⟨some actx⟩],
      s.leases ++ [s.conns.length]⟩ (tr ++ [.added s.conns.length]) where
  split := by
    show (s.leases ++ [s.conns.length] ++ s.clt.freePool).Perm
      (List.range (s.conns ++ [_]).length)
    rw [List.length_append, List.length_singleton, List.range_succ,
      List.append_assoc]
    refine (List.perm_append_comm.append_left s.leases).trans ?_
    rw [← List.append_assoc]
    exact h.split.append_right _
  inuse := mem_inuse_append h.inuse
  account b := by
    refine account_append (h.account b) ?_
    rw [opened_added, List.count_append]
    show _ = 0 + _
    omega
  free b hb := released_snoc (h.free b hb) (by simp)
  fetches := atEach_snoc.mpr ⟨h.fetches, fun _ he => by simp at he⟩

/-- A connection that is fetched was released before, and now is leased. -/
theorem ledger_fetched {conn : ConnPtr} {rest : List ConnPtr}
    (h : Ledger s tr) (hf : s.clt.freePool = conn :: rest) :
    Ledger ⟨{ s.clt with
        freePool := rest
        inusePool := s.clt.inusePool ++ [conn] },
      s.conns, s.leases ++ [conn]⟩ (tr ++ [.fetched (some conn)]) where
  split := by
    have hsplit := h.split
    rw [hf] at hsplit
    show (s.leases ++ [conn] ++ rest).Perm _
    rw [List.append_assoc]
    exact hsplit
  inuse := mem_inuse_append h.inuse
  account b := by
    refine account_append (h.account b) ?_
    rw [opened_fetched, List.count_append]
    show _ = 0 + _
    omega
  free b hb := by
    have hfree : b ∈ s.clt.freePool := by
      rw [hf]
      exact List.mem_cons_of_mem _ hb
    refine released_snoc (h.free b hfree) ?_
    -- the free list holds `conn` once, at its front
    intro heq
    have hbc : conn = b := by simpa using heq
    have hnd := (List.nodup_append.mp (ledger_nodup h)).2.1
    rw [hf, List.nodup_cons] at hnd
    exact hnd.1 (hbc ▸ hb)
  fetches := by
    refine atEach_snoc.mpr ⟨h.fetches, ?_⟩
    intro b heq
    have hbc : conn = b := by simpa using heq
    subst hbc
    exact h.free conn (by rw [hf]; exact List.mem_cons_self)

/-- There is nothing to fetch. -/
theorem ledger_fetchedNone (h : Ledger s tr) :
    Ledger s (tr ++ [.fetched none]) where
  split := h.split
  inuse := h.inuse
  account b := account_append (h.account b) rfl
  free b hb := released_snoc (h.free b hb) (by simp)
  fetches := atEach_snoc.mpr ⟨h.fetches, fun _ he => by simp at he⟩

/-- A released connection is free and nobody's any more. -/
theorem ledger_recycleConn {p : ConnPtr} (h : Ledger s tr)
    (hp : p ∈ s.leases) :
    Ledger ⟨s.clt.recycleConn p, s.conns, s.leases.erase p⟩
      (tr ++ [.released p]) := by
  rw [ClientImpl.recycleConn_of_mem (h.inuse p hp)]
  refine ⟨?_, ?_, ?_, ?_, ?_⟩
  · show (s.leases.erase p ++ (s.clt.freePool ++ [p])).Perm _
    have hmove : (s.leases.erase p ++ (s.clt.freePool ++ [p])).Perm
        (p :: (s.leases.erase p ++ s.clt.freePool)) := by
      rw [← List.append_assoc]
      exact List.perm_append_singleton p _
    refine hmove.trans ?_
    rw [← List.cons_append]
    exact ((List.perm_cons_erase hp).symm.append_right _).trans h.split
  · intro c hc
    exact h.inuse c (List.mem_of_mem_erase hc)
  · intro b
    refine account_append (h.account b) ?_
    have hsplit := (List.perm_cons_erase hp).count_eq b
    rw [closed_released, hsplit, ← List.count_append]
    exact Nat.zero_add _
  · intro b hb
    rcases List.mem_append.mp hb with hold | hnew
    · exact released_snoc (h.free b hold) (by simp)
    · rw [List.mem_singleton.mp hnew]
      exact released_last p tr
  · exact atEach_snoc.mpr ⟨h.fetches, fun _ he => by simp at he⟩

/-- **STEP**: one operation. -/
theorem ledger_step (h : Ledger s tr)
    (hstep : leaseStep s l = some (s', es)) : Ledger s' (tr ++ es) := by
  obtain ⟨rfl, es', hop⟩ := observed_eq_some.mp hstep
  rcases step_cases hop with ⟨actx, rfl, -, rfl⟩ | ⟨rfl, hf, rfl⟩ |
    ⟨conn, rest, rfl, hf, rfl⟩ | ⟨p, rfl, hp, rfl⟩
  · exact ledger_addNewConn h actx
  · simp only [event, ClientImpl.fetchFromFreePool, hf]
    exact ledger_fetchedNone h
  · simp only [event, ClientImpl.fetchFromFreePool, hf]
    exact ledger_fetched h hf
  · exact ledger_recycleConn h hp

end ledger

/-- Every run of the operations has a history of leases. -/
theorem run_leaseStep {ls : List LeaseOp} {s : Leases} {tr : List Empty}
    (h : Run step empty ls s tr) : ∃ tr', Run leaseStep empty ls s tr' :=
  run_observed h

/-- **EXCLUSIVE LEASES**: after every sequence of operations. -/
theorem lease_exclusive (ls : List LeaseOp) (s : Leases)
    (tr : List LeaseEvent) (h : Run leaseStep empty ls s tr) :
    Exclusive s tr :=
  exclusive_of_ledger (Run.invariant Ledger ledger_empty
    (fun _ _ _ _ _ hinv hstep => ledger_step hinv hstep) h)

/-- Added, released and fetched again. -/
theorem lease_exclusive_reuse :
    ∃ s tr, Run leaseStep empty
        [.addNewConn 7, .recycleConn 0, .fetchFromFreePool] s tr
      ∧ tr = [.added 0, .released 0, .fetched (some 0)]
      ∧ Exclusive s tr := by
  obtain ⟨s, tr, hrun, htr⟩ : ∃ s tr, Run leaseStep empty
        [.addNewConn 7, .recycleConn 0, .fetchFromFreePool] s tr
      ∧ tr = [.added 0, .released 0, .fetched (some 0)] :=
    ⟨_, _, run_of_exec rfl, rfl⟩
  exact ⟨s, tr, hrun, htr, lease_exclusive _ s tr hrun⟩

end Leases

end ClientPool
