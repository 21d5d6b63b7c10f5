import CoroRedis.PoolProofs

/-! # Shared handles on pooled connections — a dropped connection is lost

    A pooled connection is a `shared_ptr` whose count is the handles held
    outside `client_impl` plus its entries in the two lists, and whose deleter
    is `recycle_conn`.  Since `add_new_conn` puts an entry in the in-use list
    and nothing ever takes one out, the count of a connection never reaches
    zero: the deleter never runs, the free list stays empty, and a connection
    nobody holds is lost to the pool. -/

namespace SharedPool

open CoroBytes TaskAwaiters ClientConnect ClientPool RunLog

/-- `client_impl`, the connections allocated so far, and the handles held
    outside. -/
structure Pool where
  clt : ClientImpl
  conns : List CoroConnection
  handles : List ConnPtr

namespace Pool

/-- One `pool_init` on a new client. -/
def init (poolIos : List IoPtr) (host : Bytes) (port : UInt16)
    (timeoutSeconds : Int) : Pool :=
  ⟨ClientImpl.new.poolInit poolIos host port timeoutSeconds, [], []⟩

/-- The `use_count` of a connection. -/
def useCount (s : Pool) (c : ConnPtr) : Nat :=
  s.handles.count c + s.clt.freePool.count c + s.clt.inusePool.count c

/-- `add_new_conn`: the connection is allocated here, and the value returned is
    a handle. -/
def addNewConn (s : Pool) (actx : CtxPtr) : ConnPtr × Pool :=
  let conn := s.conns.length
  (conn, ⟨s.clt.addNewConn conn, s.conns ++ [⟨some actx⟩], s.handles ++ [conn]⟩)

/-- `fetch_from_free_pool`; a connection returned is a handle. -/
def fetchFromFreePool (s : Pool) : Option ConnPtr × Pool :=
  match s.clt.fetchFromFreePool with
  | (none, clt) => (none, ⟨clt, s.conns, s.handles⟩)
  | (some conn, clt) => (some conn, ⟨clt, s.conns, s.handles ++ [conn]⟩)

/-- A handle is copied. -/
def copyHandle (s : Pool) (c : ConnPtr) : Pool :=
  { s with handles := s.handles ++ [c] }

/-- A handle goes out of scope; at count zero the deleter runs. -/
def dropHandle (s : Pool) (c : ConnPtr) : Pool :=
  let s' : Pool := { s with handles := s.handles.erase c }
  if s'.useCount c = 0 then { s' with clt := s'.clt.recycleConn c } else s'

/-- `pool_ios_.back()` and `pool_ios_.pop_back()`. -/
def takeIo (s : Pool) : Pool :=
  { s with clt := { s.clt with poolIos := s.clt.poolIos.dropLast } }

/-- `fetch_awaiters_.push_back(awaiter)`. -/
def parkAwaiter (s : Pool) (a : AwaiterPtr) : Pool :=
  { s with clt := { s.clt with fetchAwaiters := s.clt.fetchAwaiters ++ [a] } }

end Pool

inductive PoolOp where
  | addNewConn (actx : CtxPtr)
  | fetchFromFreePool
  | copyHandle (c : ConnPtr)
  | dropHandle (c : ConnPtr)
  | takeIo
  | parkAwaiter (a : AwaiterPtr)

/-- The pool under any operations; only a handle that is held can be copied
    or dropped. -/
def step (s : Pool) : PoolOp → Option (Pool × List Empty)
  | .addNewConn actx => some ((s.addNewConn actx).2, [])
  | .fetchFromFreePool => some (s.fetchFromFreePool.2, [])
  | .copyHandle c => if c ∈ s.handles then some (s.copyHandle c, []) else none
  | .dropHandle c => if c ∈ s.handles then some (s.dropHandle c, []) else none
  | .takeIo => if s.clt.poolIos = [] then none else some (s.takeIo, [])
  | .parkAwaiter a => some (s.parkAwaiter a, [])

/-! ## Nothing ever leaves the in-use list -/

/-- The free list is empty, and every connection is in use and allocated once
    and for all. -/
structure Held (s : Pool) : Prop where
  free : s.clt.freePool = []
  inuse : ∀ c, c < s.conns.length → c ∈ s.clt.inusePool
  allocated : ∀ c ∈ s.handles, c < s.conns.length

theorem held_init (poolIos : List IoPtr) (host : Bytes) (port : UInt16)
    (timeoutSeconds : Int) : Held (Pool.init poolIos host port timeoutSeconds) :=
  ⟨rfl, fun c hc => absurd hc (Nat.not_lt_zero c), fun _ hc => by cases hc⟩

section held

variable {s s' : Pool} {l : PoolOp} {es : List Empty}

/-- A connection is allocated after `add_new_conn` iff it was before, or is
    the new one. -/
theorem lt_conns_addNewConn {actx : CtxPtr} {c : ConnPtr} :
    c < (s.addNewConn actx).2.conns.length
      ↔ c < s.conns.length ∨ c = s.conns.length := by
  show c < (s.conns ++ [CoroConnection.mk (some actx)]).length ↔ _
  rw [List.length_append, List.length_singleton]
  exact Nat.lt_succ_iff_lt_or_eq

theorem held_addNewConn (h : Held s) (actx : CtxPtr) :
    Held (s.addNewConn actx).2 where
  free := h.free
  inuse c hc := by
    rcases lt_conns_addNewConn.mp hc with hold | rfl
    · exact List.mem_append_left _ (h.inuse c hold)
    · exact List.mem_append_right _ (List.mem_singleton_self _)
  allocated c hc := by
    rcases List.mem_append.mp hc with hold | hnew
    · exact lt_conns_addNewConn.mpr (Or.inl (h.allocated c hold))
    · exact lt_conns_addNewConn.mpr (Or.inr (List.mem_singleton.mp hnew))

theorem held_copyHandle (h : Held s) {c : ConnPtr} (hc : c ∈ s.handles) :
    Held (s.copyHandle c) where
  free := h.free
  inuse := h.inuse
  allocated b hb := by
    rcases List.mem_append.mp hb with hold | hnew
    · exact h.allocated b hold
    · exact List.mem_singleton.mp hnew ▸ h.allocated c hc

/-- There is nothing to fetch. -/
theorem fetchFromFreePool_of_held (h : Held s) :
    s.fetchFromFreePool = (none, s) := by
  simp only [Pool.fetchFromFreePool, ClientImpl.fetchFromFreePool, h.free]

/-- **THE DELETER NEVER RUNS**: the in-use list keeps the count up. -/
theorem dropHandle_of_held (h : Held s) {c : ConnPtr} (hc : c ∈ s.handles) :
    s.dropHandle c = { s with handles := s.handles.erase c } := by
  have hpos : 0 < s.clt.inusePool.count c :=
    List.count_pos_iff.mpr (h.inuse c (h.allocated c hc))
  rw [Pool.dropHandle]
  rw [if_neg]
  show ¬ (_ + _ + s.clt.inusePool.count c = 0)
  omega

theorem held_dropHandle (h : Held s) {c : ConnPtr} (hc : c ∈ s.handles) :
    Held (s.dropHandle c) := by
  rw [dropHandle_of_held h hc]
  exact ⟨h.free, h.inuse, fun b hb => h.allocated b (List.mem_of_mem_erase hb)⟩

/-- What an operation does to a pool whose connections are all in use. -/
theorem step_cases (h : Held s) (hstep : step s l = some (s', es)) :
    (∃ actx, l = .addNewConn actx ∧ s' = (s.addNewConn actx).2)
      ∨ (l = .fetchFromFreePool ∧ s' = s)
      ∨ (∃ c, l = .copyHandle c ∧ c ∈ s.handles ∧ s' = s.copyHandle c)
      ∨ (∃ c, l = .dropHandle c ∧ c ∈ s.handles
        ∧ s' = { s with handles := s.handles.erase c })
      ∨ (l = .takeIo ∧ s.clt.poolIos ≠ [] ∧ s' = s.takeIo)
      ∨ ∃ a, l = .parkAwaiter a ∧ s' = s.parkAwaiter a := by
  cases l with
  | addNewConn actx =>
      obtain ⟨rfl, -⟩ := Prod.mk.inj (Option.some.inj hstep)
      exact Or.inl ⟨actx, rfl, rfl⟩
  | fetchFromFreePool =>
      obtain ⟨rfl, -⟩ := Prod.mk.inj (Option.some.inj hstep)
      rw [fetchFromFreePool_of_held h]
      exact Or.inr (Or.inl ⟨rfl, rfl⟩)
  | copyHandle c =>
      by_cases hc : c ∈ s.handles
      · simp only [step, if_pos hc, Option.some.injEq, Prod.mk.injEq] at hstep
        exact Or.inr (Or.inr (Or.inl ⟨c, rfl, hc, hstep.1.symm⟩))
      · simp [step, hc] at hstep
  | dropHandle c =>
      by_cases hc : c ∈ s.handles
      · simp only [step, if_pos hc, dropHandle_of_held h hc,
          Option.some.injEq, Prod.mk.injEq] at hstep
        exact Or.inr (Or.inr (Or.inr (Or.inl ⟨c, rfl, hc, hstep.1.symm⟩)))
      · simp [step, hc] at hstep
  | takeIo =>
      by_cases hio : s.clt.poolIos = []
      · simp [step, hio] at hstep
      · simp only [step, if_neg hio, Option.some.injEq, Prod.mk.injEq] at hstep
        exact Or.inr (Or.inr (Or.inr (Or.inr (Or.inl ⟨rfl, hio, hstep.1.symm⟩))))
  | parkAwaiter a =>
      obtain ⟨rfl, -⟩ := Prod.mk.inj (Option.some.inj hstep)
      exact Or.inr (Or.inr (Or.inr (Or.inr (Or.inr ⟨a, rfl, rfl⟩))))

/-- **STEP**: any operation. -/
theorem held_step (h : Held s) (hstep : step s l = some (s', es)) :
    Held s' := by
  rcases step_cases h hstep with ⟨actx, -, rfl⟩ | ⟨-, rfl⟩ | ⟨c, -, hc, rfl⟩ |
    ⟨c, -, hc, rfl⟩ | ⟨-, -, rfl⟩ | ⟨a, -, rfl⟩
  · exact held_addNewConn h actx
  · exact h
  · exact held_copyHandle h hc
  · rw [← dropHandle_of_held h hc]
    exact held_dropHandle h hc
  · exact ⟨h.free, h.inuse, h.allocated⟩
  · exact ⟨h.free, h.inuse, h.allocated⟩

/-- **RUN**: every reachable pool. -/
theorem held_run {s₀ : Pool} (h₀ : Held s₀) {ls : List PoolOp}
    {tr : List Empty} (h : Run step s₀ ls s tr) : Held s :=
  Run.invariant (fun s _ => Held s) h₀
    (fun _ _ _ _ _ hinv hstep => held_step hinv hstep) h

end held

/-! ## When no connection is lost -/

/-- Every connection that nobody outside the pool holds is available to later
    fetches. -/
def NoneLost (s : Pool) : Prop :=
  ∀ c, c < s.conns.length → c ∉ s.handles → c ∈ s.clt.freePool

/-- The step does not drop the last handle held outside the pool. -/
def KeepsLast (s : Pool) (l : PoolOp) : Prop :=
  ∀ c, l = .dropHandle c → s.handles.count c ≠ 1

/-- Every connection is held outside the pool. -/
def AllHeld (s : Pool) : Prop :=
  Held s ∧ ∀ c, c < s.conns.length → c ∈ s.handles

theorem noneLost_of_allHeld {s : Pool} (h : AllHeld s) : NoneLost s := by
  intro c hc hnot
  exact absurd (h.2 c hc) hnot

theorem allHeld_step {s s' : Pool} {l : PoolOp} {es : List Empty}
    (h : AllHeld s) (hl : KeepsLast s l) (hstep : step s l = some (s', es)) :
    AllHeld s' := by
  refine ⟨held_step h.1 hstep, ?_⟩
  rcases step_cases h.1 hstep with ⟨actx, -, rfl⟩ | ⟨-, rfl⟩ | ⟨c, -, -, rfl⟩ |
    ⟨c, rfl, hmem, rfl⟩ | ⟨-, -, rfl⟩ | ⟨a, -, rfl⟩
  · intro c hc
    rcases lt_conns_addNewConn.mp hc with hold | rfl
    · exact List.mem_append_left _ (h.2 c hold)
    · exact List.mem_append_right _ (List.mem_singleton_self _)
  · exact h.2
  · exact fun b hb => List.mem_append_left _ (h.2 b hb)
  · intro b hb
    show b ∈ s.handles.erase c
    by_cases hbc : b = c
    · -- another handle of `c` remains
      subst hbc
      have hne := hl b rfl
      have hpos := List.count_pos_iff.mpr hmem
      rw [← List.count_pos_iff, List.count_erase_self]
      omega
    · exact (List.mem_erase_of_ne hbc).mpr (h.2 b hb)
  · exact h.2
  · exact h.2

/-- Dropping the last handle makes the connection neither available nor held
    by anybody. -/
theorem lost_of_drop_last {s s' : Pool} {c : ConnPtr} {es : List Empty}
    (h : Held s) (hlast : s.handles.count c = 1)
    (hstep : step s (.dropHandle c) = some (s', es)) :
    c < s'.conns.length ∧ c ∉ s'.handles ∧ c ∉ s'.clt.freePool := by
  have hmem : c ∈ s.handles := List.count_pos_iff.mp (by omega)
  simp only [step, if_pos hmem, dropHandle_of_held h hmem, Option.some.injEq,
    Prod.mk.injEq] at hstep
  obtain ⟨rfl, -⟩ := hstep
  refine ⟨h.allocated c hmem, ?_, ?_⟩
  · show c ∉ s.handles.erase c
    rw [← List.count_eq_zero, List.count_erase_self, hlast]
  · show c ∉ s.clt.freePool
    rw [h.free]
    exact List.not_mem_nil

/-- **WHEN NO CONNECTION IS LOST**: throughout a run exactly if no last handle
    is dropped in it. -/
theorem noneLost_iff_keepsLast (poolIos : List IoPtr) (host : Bytes)
    (port : UInt16) (timeoutSeconds : Int) (ls : List PoolOp) (s : Pool)
    (tr : List Empty)
    (h : Run step (Pool.init poolIos host port timeoutSeconds) ls s tr) :
    HoldsThroughout step (Pool.init poolIos host port timeoutSeconds) ls
        (fun s _ => NoneLost s)
      ↔ EveryStep step (Pool.init poolIos host port timeoutSeconds) ls
        KeepsLast := by
  refine holdsThroughout_iff_everyStep (fun s _ => AllHeld s)
    ⟨held_init _ _ _ _, fun c hc => absurd hc (Nat.not_lt_zero c)⟩ ?_ ?_ ?_ h
  · intro s tr hinv
    exact noneLost_of_allHeld hinv
  · intro s tr l s' es hinv hgood hstep
    exact allHeld_step hinv hgood hstep
  · intro s tr l s' es hinv hbad hstep hnone
    apply hbad
    rintro c rfl hlast
    obtain ⟨hc, hheld, hfree⟩ := lost_of_drop_last hinv.1 hlast hstep
    exact hfree (hnone c hc hheld)

/-- One connection is added and its handle dropped: it is lost. -/
theorem added_then_dropped_is_lost :
    ∃ s tr, Run step (Pool.init [1] (lit "127.0.0.1") 6379 5)
        [.addNewConn 7, .dropHandle 0] s tr
      ∧ s.conns.length = 1 ∧ s.handles = [] ∧ s.clt.freePool = []
      ∧ ¬ NoneLost s := by
  obtain ⟨s, tr, hrun, hc, hh, hf⟩ : ∃ s tr,
      Run step (Pool.init [1] (lit "127.0.0.1") 6379 5)
        [.addNewConn 7, .dropHandle 0] s tr
      ∧ s.conns.length = 1 ∧ s.handles = [] ∧ s.clt.freePool = [] :=
    ⟨_, _, run_of_exec rfl, rfl, rfl, rfl⟩
  refine ⟨s, tr, hrun, hc, hh, hf, ?_⟩
  intro hnone
  have hin := hnone 0 (by omega) (by rw [hh]; exact List.not_mem_nil)
  rw [hf] at hin
  exact absurd hin List.not_mem_nil

/-- The handle is copied, and one of the two is dropped. -/
theorem noneLost_iff_keepsLast_one :
    ∃ s tr, Run step (Pool.init [1] (lit "127.0.0.1") 6379 5)
        [.addNewConn 7, .copyHandle 0, .dropHandle 0] s tr
      ∧ s.handles = [0]
      ∧ (HoldsThroughout step (Pool.init [1] (lit "127.0.0.1") 6379 5)
          [.addNewConn 7, .copyHandle 0, .dropHandle 0] (fun s _ => NoneLost s)
        ↔ EveryStep step (Pool.init [1] (lit "127.0.0.1") 6379 5)
          [.addNewConn 7, .copyHandle 0, .dropHandle 0] KeepsLast) := by
  obtain ⟨s, tr, hrun, hh⟩ : ∃ s tr,
      Run step (Pool.init [1] (lit "127.0.0.1") 6379 5)
        [.addNewConn 7, .copyHandle 0, .dropHandle 0] s tr ∧ s.handles = [0] :=
    ⟨_, _, run_of_exec rfl, rfl⟩
  exact ⟨s, tr, hrun, hh, noneLost_iff_keepsLast _ _ _ _ _ s tr hrun⟩

end SharedPool
