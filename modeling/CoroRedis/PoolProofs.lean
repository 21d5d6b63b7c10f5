import Mathlib.Data.List.Range
import Mathlib.Data.List.Perm.Subperm
import CoroRedis.ConnectProofs
import CoroRedis.Lib.RunProofs

/-! # `client_impl` — the two pool lists

    The data of `client_impl` and the operations that move connections between
    `free_pool_` and `inuse_pool_`.  Each takes `pool_mutex_` for its whole
    body, so it is one step.  A `coro_connection` is named by its address: the
    `n`-th one allocated is `n`.

    `Leases` runs the operations in any order and keeps account of who has a
    lease.  The lists partition the connections exactly as long as nothing has
    been recycled: `recycle_conn` pushes to the free list and leaves the entry
    in the in-use list, and the surplus entry never goes away
    (`entries_eq`). -/

namespace ClientPool

open CoroBytes TaskAwaiters ClientConnect RunLog

/-- `io_context*`. -/
abbrev IoPtr := Nat

/-- `coro_connection*`. -/
abbrev ConnPtr := Nat

/-- `client_impl`, but for the mutex. -/
structure ClientImpl where
  host : Bytes
  port : UInt16
  timeout : Int
  poolIos : List IoPtr
  freePool : List ConnPtr
  inusePool : List ConnPtr
  fetchAwaiters : List AwaiterPtr

namespace ClientImpl

/-- A default-constructed client. -/
def new : ClientImpl := ⟨[], 0, 0, [], [], [], []⟩

/-- `pool_init`. -/
def poolInit (clt : ClientImpl) (poolIos : List IoPtr) (host : Bytes)
    (port : UInt16) (timeoutSeconds : Int) : ClientImpl :=
  { clt with
    poolIos := poolIos
    host := host
    port := port
    timeout := timeoutSeconds }

/-- `fetch_from_free_pool`. -/
def fetchFromFreePool (clt : ClientImpl) : Option ConnPtr × ClientImpl :=
  match clt.freePool with
  | [] => (none, clt)
  | conn :: rest =>
      (some conn, { clt with
        freePool := rest
        inusePool := clt.inusePool ++ [conn] })

/-- `add_new_conn`, where `conn` is the connection just allocated. -/
def addNewConn (clt : ClientImpl) (conn : ConnPtr) : ClientImpl :=
  { clt with inusePool := clt.inusePool ++ [conn] }

/-- `recycle_conn`. -/
def recycleConn (clt : ClientImpl) (p : ConnPtr) : ClientImpl :=
  match clt.inusePool.find? (fun pp => pp = p) with
  | none => clt
  | some pp => { clt with freePool := clt.freePool ++ [pp] }

theorem recycleConn_of_mem {clt : ClientImpl} {p : ConnPtr}
    (h : p ∈ clt.inusePool) :
    clt.recycleConn p = { clt with freePool := clt.freePool ++ [p] } := by
  rw [recycleConn]
  cases hf : clt.inusePool.find? (fun pp => pp = p) with
  | none =>
      exact absurd (List.find?_eq_none.mp hf p h) (by simp)
  | some pp =>
      have := List.find?_some hf
      rw [decide_eq_true_eq] at this
      rw [this]

end ClientImpl

/-! ## Leases -/

/-- The pool, the connections allocated so far, and the open leases. -/
structure Leases where
  clt : ClientImpl
  conns : List CoroConnection
  leases : List ConnPtr

inductive LeaseOp where
  | addNewConn (actx : CtxPtr)
  | fetchFromFreePool
  | recycleConn (p : ConnPtr)
  deriving DecidableEq

namespace Leases

/-- The empty pool. -/
def empty : Leases := ⟨.new, [], []⟩

/-- One operation: `add_new_conn` needs a fresh context, `recycle_conn` an
    open lease. -/
def step (s : Leases) : LeaseOp → Option (Leases × List Empty)
  | .addNewConn actx =>
      if ⟨some actx⟩ ∈ s.conns then none
      else
        let conn := s.conns.length
        some (⟨s.clt.addNewConn conn, s.conns ++ [⟨some actx⟩],
          s.leases ++ [conn]⟩, [])
  | .fetchFromFreePool =>
      match s.clt.fetchFromFreePool with
      | (none, clt) => some (⟨clt, s.conns, s.leases⟩, [])
      | (some conn, clt) => some (⟨clt, s.conns, s.leases ++ [conn]⟩, [])
  | .recycleConn p =>
      if p ∈ s.leases then
        some (⟨s.clt.recycleConn p, s.conns, s.leases.erase p⟩, [])
      else none

/-- The two lists partition the connections by whether they are leased. -/
structure Partition (s : Leases) : Prop where
  nodup : (s.clt.freePool ++ s.clt.inusePool).Nodup
  inuse_iff : ∀ c, c ∈ s.clt.inusePool ↔ c ∈ s.leases
  free_iff : ∀ c, c ∈ s.clt.freePool ↔ c < s.conns.length ∧ c ∉ s.leases

/-! ## Counting entries -/

/-- How often an operation sequence recycles. -/
def recycles (ls : List LeaseOp) : Nat :=
  ls.countP fun l => match l with
    | .recycleConn _ => true
    | _ => false

theorem recycles_eq_zero_iff {ls : List LeaseOp} :
    recycles ls = 0 ↔ ∀ p, LeaseOp.recycleConn p ∉ ls := by
  rw [recycles]
  rw [List.countP_eq_zero]
  constructor
  · intro h p hp
    exact h _ hp rfl
  · intro h l hl
    cases l with
    | addNewConn _ => exact Bool.false_ne_true
    | fetchFromFreePool => exact Bool.false_ne_true
    | recycleConn p => exact absurd hl (h p)

/-- What holds after any operations: the lists have one entry for each
    connection and one more for each recycling, all of allocated connections,
    and what is leased is in use. -/
structure Counted (recycled : Nat) (s : Leases) : Prop where
  entries : s.clt.freePool.length + s.clt.inusePool.length
    = s.conns.length + recycled
  allocated : ∀ c ∈ s.clt.freePool ++ s.clt.inusePool, c < s.conns.length
  leased : ∀ c ∈ s.leases, c ∈ s.clt.inusePool

section steps

variable {n : Nat} {s s' : Leases} {l : LeaseOp} {es : List Empty}

/-- What one operation does. -/
theorem step_cases (hstep : s.step l = some (s', es)) :
    (∃ actx, l = .addNewConn actx ∧ ⟨some actx⟩ ∉ s.conns
        ∧ s' = ⟨s.clt.addNewConn s.conns.length, s.conns ++ [⟨some actx⟩],
          s.leases ++ [s.conns.length]⟩)
      ∨ (l = .fetchFromFreePool ∧ s.clt.freePool = [] ∧ s' = s)
      ∨ (∃ conn rest, l = .fetchFromFreePool ∧ s.clt.freePool = conn :: rest
        ∧ s' = ⟨{ s.clt with
            freePool := rest
            inusePool := s.clt.inusePool ++ [conn] },
          s.conns, s.leases ++ [conn]⟩)
      ∨ ∃ p, l = .recycleConn p ∧ p ∈ s.leases
        ∧ s' = ⟨s.clt.recycleConn p, s.conns, s.leases.erase p⟩ := by
  cases l with
  | addNewConn actx =>
      by_cases hfresh : ⟨some actx⟩ ∈ s.conns
      · simp [step, hfresh] at hstep
      · simp only [step, if_neg hfresh, Option.some.injEq,
          Prod.mk.injEq] at hstep
        exact Or.inl ⟨actx, rfl, hfresh, hstep.1.symm⟩
  | fetchFromFreePool =>
      cases hf : s.clt.freePool with
      | nil =>
          simp only [step, ClientImpl.fetchFromFreePool, hf, Option.some.injEq,
            Prod.mk.injEq] at hstep
          exact Or.inr (Or.inl ⟨rfl, rfl, hstep.1.symm⟩)
      | cons conn rest =>
          simp only [step, ClientImpl.fetchFromFreePool, hf, Option.some.injEq,
            Prod.mk.injEq] at hstep
          exact Or.inr (Or.inr (Or.inl ⟨conn, rest, rfl, rfl, hstep.1.symm⟩))
  | recycleConn p =>
      by_cases hp : p ∈ s.leases
      · simp only [step, if_pos hp, Option.some.injEq, Prod.mk.injEq] at hstep
        exact Or.inr (Or.inr (Or.inr ⟨p, rfl, hp, hstep.1.symm⟩))
      · simp [step, hp] at hstep

/-- What is leased and put in use together is still in use. -/
theorem mem_inuse_append {leases inuse : List ConnPtr} {conn : ConnPtr}
    (h : ∀ c ∈ leases, c ∈ inuse) :
    ∀ c ∈ leases ++ [conn], c ∈ inuse ++ [conn] := by
  intro c hc
  rcases List.mem_append.mp hc with hold | hnew
  · exact List.mem_append_left _ (h c hold)
  · exact List.mem_append_right _ hnew

theorem counted_addNewConn (h : Counted n s) (actx : CtxPtr) :
    Counted n ⟨s.clt.addNewConn s.conns.length, s.conns ++ [⟨some actx⟩],
      s.leases ++ [s.conns.length]⟩ where
  entries := by
    have hent := h.entries
    show s.clt.freePool.length + (s.clt.inusePool ++ [_]).length
      = (s.conns ++ [_]).length + n
    simp only [List.length_append, List.length_singleton]
    omega
  allocated c hc := by
    show c < (s.conns ++ [_]).length
    rw [List.length_append, List.length_singleton]
    have hc' : c ∈ s.clt.freePool ++ (s.clt.inusePool ++ [_]) := hc
    rw [← List.append_assoc] at hc'
    rcases List.mem_append.mp hc' with hold | hnew
    · exact Nat.lt_succ_of_lt (h.allocated c hold)
    · rw [List.mem_singleton.mp hnew]
      exact Nat.lt_succ_self _
  leased := mem_inuse_append h.leased

theorem counted_fetch {conn : ConnPtr} {rest : List ConnPtr} (h : Counted n s)
    (hf : s.clt.freePool = conn :: rest) :
    Counted n ⟨{ s.clt with
        freePool := rest
        inusePool := s.clt.inusePool ++ [conn] },
      s.conns, s.leases ++ [conn]⟩ where
  entries := by
    have hent := h.entries
    rw [hf] at hent
    simp only [List.length_append, List.length_cons,
      List.length_nil] at hent ⊢
    omega
  allocated c hc := by
    refine h.allocated c ?_
    rw [hf]
    -- the entry moves from the front of one list to the end of the other
    simp only [List.mem_append, List.mem_cons, List.not_mem_nil,
      or_false] at hc ⊢
    tauto
  leased := mem_inuse_append h.leased

/-- `recycle_conn` adds an entry for a connection that is still in use. -/
theorem counted_recycleConn {p : ConnPtr} (h : Counted n s)
    (hp : p ∈ s.leases) :
    Counted (n + 1) ⟨s.clt.recycleConn p, s.conns, s.leases.erase p⟩ := by
  have huse := h.leased p hp
  have hent := h.entries
  rw [ClientImpl.recycleConn_of_mem huse]
  refine ⟨?_, ?_, ?_⟩
  · show (s.clt.freePool ++ [p]).length + s.clt.inusePool.length
      = s.conns.length + (n + 1)
    rw [List.length_append, List.length_singleton]
    omega
  · intro c hc
    refine h.allocated c ?_
    simp only [List.mem_append, List.mem_singleton] at hc ⊢
    rcases hc with (hf | rfl) | hu
    · exact Or.inl hf
    · exact Or.inr huse
    · exact Or.inr hu
  · intro c hc
    exact h.leased c (List.mem_of_mem_erase hc)

/-- **STEP**: one operation. -/
theorem counted_step (h : Counted n s) (hstep : s.step l = some (s', es)) :
    Counted (n + recycles [l]) s' := by
  rcases step_cases hstep with ⟨actx, rfl, -, rfl⟩ | ⟨rfl, -, rfl⟩ |
    ⟨conn, rest, rfl, hf, rfl⟩ | ⟨p, rfl, hp, rfl⟩
  · exact counted_addNewConn h actx
  · exact h
  · exact counted_fetch h hf
  · exact counted_recycleConn h hp

end steps

/-- **RUN**: every operation sequence. -/
theorem counted_run {ls : List LeaseOp} {s : Leases} {tr : List Empty}
    (h : Run step empty ls s tr) : Counted (recycles ls) s := by
  induction h with
  | start => exact ⟨rfl, by simp [empty, ClientImpl.new], by simp [empty]⟩
  | next _ hstep ih =>
      have := counted_step ih hstep
      rw [recycles, List.countP_append]
      exact this

/-- The lists hold one entry too many for every recycling so far. -/
theorem entries_eq {ls : List LeaseOp} {s : Leases} {tr : List Empty}
    (h : Run step empty ls s tr) :
    (s.clt.freePool ++ s.clt.inusePool).length
      = s.conns.length + recycles ls := by
  rw [List.length_append]
  exact (counted_run h).entries

/-- Distinct entries of allocated connections are no more than these. -/
theorem no_recycles_of_nodup {ls : List LeaseOp} {s : Leases} {tr : List Empty}
    (h : Run step empty ls s tr)
    (hnd : (s.clt.freePool ++ s.clt.inusePool).Nodup) : recycles ls = 0 := by
  have hsub : (s.clt.freePool ++ s.clt.inusePool)
      ⊆ List.range s.conns.length := by
    intro c hc
    exact List.mem_range.mpr ((counted_run h).allocated c hc)
  have hle := (List.Nodup.subperm hnd hsub).length_le
  rw [entries_eq h, List.length_range] at hle
  omega

/-! ## Sequences that recycle nothing -/

/-- Nothing has been recycled: every connection is leased and in use. -/
def AllInuse (s : Leases) : Prop :=
  s.clt.freePool = [] ∧ s.clt.inusePool = List.range s.conns.length
    ∧ s.leases = List.range s.conns.length

theorem partition_of_allInuse {s : Leases} (h : AllInuse s) : Partition s := by
  obtain ⟨hf, hu, hl⟩ := h
  refine ⟨?_, ?_, ?_⟩
  · rw [hf, hu, List.nil_append]
    exact List.nodup_range
  · intro c
    rw [hu, hl]
  · intro c
    rw [hf, hl, List.mem_range]
    constructor
    · intro hc
      exact absurd hc List.not_mem_nil
    · rintro ⟨hlt, hnot⟩
      exact absurd hlt hnot

theorem allInuse_step {s s' : Leases} {l : LeaseOp} {es : List Empty}
    (h : AllInuse s) (hl : ∀ p, l ≠ .recycleConn p)
    (hstep : s.step l = some (s', es)) : AllInuse s' := by
  obtain ⟨hf, hu, hle⟩ := h
  rcases step_cases hstep with ⟨actx, -, -, rfl⟩ | ⟨-, -, rfl⟩ |
    ⟨conn, rest, -, hcons, -⟩ | ⟨p, rfl, -, -⟩
  · refine ⟨hf, ?_, ?_⟩
    · show s.clt.inusePool ++ [s.conns.length]
        = List.range (s.conns ++ [_]).length
      rw [List.length_append, List.length_singleton, List.range_succ, hu]
    · show s.leases ++ [s.conns.length] = List.range (s.conns ++ [_]).length
      rw [List.length_append, List.length_singleton, List.range_succ, hle]
  · exact ⟨hf, hu, hle⟩
  · -- there is nothing to fetch
    rw [hf] at hcons
    exact absurd hcons (by simp)
  · exact absurd rfl (hl p)

theorem allInuse_run {ls : List LeaseOp} {s : Leases} {tr : List Empty}
    (h : Run step empty ls s tr) (hls : ∀ p, LeaseOp.recycleConn p ∉ ls) :
    AllInuse s := by
  induction h with
  | start => exact ⟨rfl, rfl, rfl⟩
  | next _ hstep ih =>
      refine allInuse_step (ih ?_) ?_ hstep
      · intro p hp
        exact hls p (List.mem_append_left _ hp)
      · rintro p rfl
        exact hls p (List.mem_append_right _ (by simp))

/-- **WHEN THE LISTS PARTITION**: after an operation sequence exactly if it
    recycles nothing. -/
theorem partition_iff_no_recycle (ls : List LeaseOp) (s : Leases)
    (tr : List Empty) (h : Run step empty ls s tr) :
    Partition s ↔ ∀ p, LeaseOp.recycleConn p ∉ ls := by
  constructor
  · intro hp
    exact recycles_eq_zero_iff.mp (no_recycles_of_nodup h hp.nodup)
  · intro hls
    exact partition_of_allInuse (allInuse_run h hls)

/-- Two connections and a fetch that finds nothing. -/
theorem partition_iff_no_recycle_two :
    ∃ s tr, Run step empty
        [.addNewConn 7, .fetchFromFreePool, .addNewConn 8] s tr
      ∧ s.clt.inusePool = [0, 1]
      ∧ (Partition s ↔ ∀ p, LeaseOp.recycleConn p
        ∉ [.addNewConn 7, .fetchFromFreePool, .addNewConn 8]) := by
  obtain ⟨s, tr, hrun, hu⟩ : ∃ s tr, Run step empty
        [.addNewConn 7, .fetchFromFreePool, .addNewConn 8] s tr
      ∧ s.clt.inusePool = [0, 1] := ⟨_, _, run_of_exec rfl, rfl⟩
  exact ⟨s, tr, hrun, hu, partition_iff_no_recycle _ s tr hrun⟩

/-- One connection, recycled: it is in both lists. -/
theorem recycled_conn_in_both_lists :
    ∃ s tr, Run step empty [.addNewConn 7, .recycleConn 0] s tr
      ∧ s.clt.freePool = [0] ∧ s.clt.inusePool = [0] ∧ ¬ Partition s := by
  obtain ⟨s, tr, hrun, hf, hu⟩ : ∃ s tr,
      Run step empty [.addNewConn 7, .recycleConn 0] s tr
      ∧ s.clt.freePool = [0] ∧ s.clt.inusePool = [0] :=
    ⟨_, _, run_of_exec rfl, rfl, rfl⟩
  refine ⟨s, tr, hrun, hf, hu, ?_⟩
  intro hp
  have hnd := hp.nodup
  rw [hf, hu] at hnd
  exact absurd hnd (by simp)

end Leases

end ClientPool
