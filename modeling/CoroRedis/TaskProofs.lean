import CoroRedis.Lib.BlockMemoryProofs
import CoroRedis.Lib.RunProofs

/-! # `task` and `task_promise`: where a result goes

    A call of a coroutine that returns `task<T>` makes two objects: the frame,
    with the promise behind a prefix of its own, and the task object the
    caller receives.  The body suspends some number of times and executes
    `co_return v`; `return_value` then casts the address of the frame to a
    task pointer and assigns through it, and the frame is destroyed.

    `task_delivers_iff` says for which result types the caller's object gets
    the value. -/

namespace Tasks

open BlockMemory RunLog

variable {T β : Type}

/-! ## Objects -/

/-- A coroutine frame: the resume and destroy pointers, then the promise, then
    arguments and locals. -/
structure FrameLayout where
  headSize : Nat
  promiseSize : Nat
  head_pos : 0 < headSize

/-- `coroutine_handle::from_promise(p).address()`. -/
def FrameLayout.fromPromise (L : FrameLayout) (p : Nat × Nat) : Nat × Nat :=
  (p.1, p.2 - L.headSize)

/-- The offset lies in the promise. -/
def FrameLayout.InPromise (L : FrameLayout) (o : Nat) : Prop :=
  L.headSize ≤ o ∧ o < L.headSize + L.promiseSize

/-- A call of a coroutine: its frame, the task object of its caller, the
    suspensions still ahead, the operand of `co_return`, and, once
    `return_value` has run, the addresses it assigned to. -/
structure Coro (T : Type) where
  frame : Nat
  taskObject : Nat
  remaining : Nat
  value : T
  written : Option (List (Nat × Nat))

structure State (T β : Type) where
  mem : Mem β
  fresh : Nat
  coros : List (Coro T)

def State.init (mem : Mem β) : State T β := ⟨mem, 0, []⟩

/-- A caller starts a coroutine, or resumes the `k`-th one through the handle in
    its task. -/
inductive Label (T : Type) where
  | call (suspensions : Nat) (v : T)
  | resume (k : Nat)

inductive Event where
  | completed (k : Nat)
  deriving DecidableEq

section machine

variable (R : ByteRepr T β) (L : FrameLayout) (T₀ : T)

/-- `task<T>::return_value` on the caller's object; `ret_value_` is its first
    member. -/
def retValue (s : State T β) (c : Coro T) : T := R.read s.mem c.taskObject 0

/-- `task_promise::return_value`: the address of the frame is taken for the
    task. -/
def returnValue (mem : Mem β) (c : Coro T) (value : T) : Mem β × List (Nat × Nat) :=
  let address := L.fromPromise (c.frame, L.headSize)
  (R.write mem address.1 address.2 value, covered address.1 address.2 R.size)

/-- Run the `k`-th body on to its next suspension, or to its end:
    `final_suspend` does not suspend, so the frame goes with it. -/
def proceed (s : State T β) (k : Nat) (c : Coro T) : State T β × List Event :=
  if c.remaining = 0 then
    let (mem, written) := returnValue R L s.mem c c.value
    ({ s with mem := mem
              coros := s.coros.set k { c with written := some written } },
      [.completed k])
  else ({ s with coros := s.coros.set k { c with remaining := c.remaining - 1 } }, [])

/-- `get_return_object` has made the caller's object, with `ret_value_{}`,
    before the body starts. -/
def start (s : State T β) (suspensions : Nat) (v : T) : State T β × Coro T :=
  let c : Coro T := ⟨s.fresh, s.fresh + 1, suspensions, v, none⟩
  (⟨R.write s.mem c.taskObject 0 T₀, s.fresh + 2, s.coros ++ [c]⟩, c)

/-- One step of the caller.  A handle whose frame is gone cannot be resumed. -/
def step (s : State T β) : Label T → Option (State T β × List Event)
  | .call suspensions v =>
      let (s', c) := start R T₀ s suspensions v
      some (proceed R L s' s.coros.length c)
  | .resume k =>
      match s.coros[k]? with
      | none => none
      | some c => if c.written.isSome then none else some (proceed R L s k c)

/-! ## Delivery -/

/-- The caller's object holds the operand of `co_return`, and what
    `return_value` assigned to in the frame lies in the promise. -/
def Delivered (s : State T β) (c : Coro T) (written : List (Nat × Nat)) : Prop :=
  retValue R s c = c.value
    ∧ ∀ a ∈ written, a.1 = c.frame → L.InPromise a.2

/-- Frames and task objects are different blocks, a task object keeps the value
    it was made with, and a body that has ended assigned to the start of its
    frame. -/
structure Inv (s : State T β) : Prop where
  blocks : ∀ c ∈ s.coros, c.frame < s.fresh ∧ c.taskObject < s.fresh
  apart : ∀ c ∈ s.coros, ∀ d ∈ s.coros, d.taskObject ≠ c.frame
  kept : ∀ c ∈ s.coros, retValue R s c = T₀
  written : ∀ c ∈ s.coros, ∀ ws, c.written = some ws →
    ws = covered c.frame 0 R.size

theorem inv_init (mem : Mem β) : Inv R T₀ (State.init mem) where
  blocks := nofun
  apart := nofun
  kept := nofun
  written := nofun

/-- A new call keeps the invariant. -/
theorem inv_start {s : State T β} (h : Inv R T₀ s) (suspensions : Nat) (v : T) :
    Inv R T₀ (start R T₀ s suspensions v).1 := by
  have hmem : ∀ c, c ∈ (start R T₀ s suspensions v).1.coros
      → c ∈ s.coros ∨ c = (start R T₀ s suspensions v).2 := by
    intro c hc
    exact (List.mem_append.mp hc).imp_right List.mem_singleton.mp
  refine ⟨?_, ?_, ?_, ?_⟩
  · intro c hc
    show c.frame < s.fresh + 2 ∧ c.taskObject < s.fresh + 2
    rcases hmem c hc with hc | rfl
    · have := h.blocks c hc
      omega
    · show s.fresh < s.fresh + 2 ∧ s.fresh + 1 < s.fresh + 2
      omega
  · intro c hc d hd
    rcases hmem c hc with hc | rfl
    · rcases hmem d hd with hd | rfl
      · exact h.apart c hc d hd
      · have := (h.blocks c hc).1
        show s.fresh + 1 ≠ c.frame
        omega
    · rcases hmem d hd with hd | rfl
      · have := (h.blocks d hd).2
        show d.taskObject ≠ s.fresh
        omega
      · show s.fresh + 1 ≠ s.fresh
        omega
  · intro c hc
    show R.read (R.write s.mem (s.fresh + 1) 0 T₀) c.taskObject 0 = T₀
    rcases hmem c hc with hc | rfl
    · have hne : c.taskObject ≠ s.fresh + 1 := by
        have := (h.blocks c hc).2
        omega
      rw [R.read_write_other _ hne]
      exact h.kept c hc
    · exact R.read_write_same ..
  · intro c hc ws hws
    rcases hmem c hc with hc | rfl
    · exact h.written c hc ws hws
    · exact nomatch hws

/-- The address `return_value` assigns to is the start of the frame. -/
theorem returnValue_eq (mem : Mem β) (c : Coro T) (v : T) :
    returnValue R L mem c v = (R.write mem c.frame 0 v, covered c.frame 0 R.size) := by
  rw [returnValue, FrameLayout.fromPromise, Nat.sub_self]

/-- The last piece of a body. -/
theorem proceed_end {s : State T β} {c : Coro T} (h : c.remaining = 0) (k : Nat) :
    proceed R L s k c
      = ({ s with mem := R.write s.mem c.frame 0 c.value
                  coros := s.coros.set k
                    { c with written := some (covered c.frame 0 R.size) } },
          [.completed k]) := by
  rw [proceed, if_pos h, returnValue_eq]

/-- A piece that ends with a suspension. -/
theorem proceed_suspend {s : State T β} {c : Coro T} (h : c.remaining ≠ 0) (k : Nat) :
    proceed R L s k c
      = ({ s with coros := s.coros.set k
                    { c with remaining := c.remaining - 1 } }, []) := by
  rw [proceed, if_neg h]

/-- A coroutine may be moved on, and the memory changed where no task object
    lies. -/
theorem inv_set {s : State T β} (h : Inv R T₀ s) {c : Coro T} (hc : c ∈ s.coros)
    (k : Nat) (c' : Coro T) (mem : Mem β) (hf : c'.frame = c.frame)
    (ht : c'.taskObject = c.taskObject)
    (hw : ∀ ws, c'.written = some ws → ws = covered c.frame 0 R.size)
    (hmem : ∀ d ∈ s.coros,
      R.read mem d.taskObject 0 = R.read s.mem d.taskObject 0) :
    Inv R T₀ { s with mem := mem, coros := s.coros.set k c' } := by
  -- every entry of the new list has the blocks of one of the old list
  have hold : ∀ d ∈ s.coros.set k c', ∃ d' ∈ s.coros,
      d.frame = d'.frame ∧ d.taskObject = d'.taskObject := by
    intro d hd
    rcases List.mem_or_eq_of_mem_set hd with hd | rfl
    · exact ⟨d, hd, rfl, rfl⟩
    · exact ⟨c, hc, hf, ht⟩
  refine ⟨?_, ?_, ?_, ?_⟩
  · intro d hd
    obtain ⟨d', hd', hf', ht'⟩ := hold d hd
    rw [hf', ht']
    exact h.blocks d' hd'
  · intro d hd e he
    obtain ⟨d', hd', hf', -⟩ := hold d hd
    obtain ⟨e', he', -, ht'⟩ := hold e he
    rw [hf', ht']
    exact h.apart d' hd' e' he'
  · intro d hd
    obtain ⟨d', hd', -, ht'⟩ := hold d hd
    show R.read mem d.taskObject 0 = T₀
    rw [ht', hmem d' hd']
    exact h.kept d' hd'
  · intro d hd ws hws
    rcases List.mem_or_eq_of_mem_set hd with hd | rfl
    · exact h.written d hd ws hws
    · rw [hf]
      exact hw ws hws

/-- Running a body on keeps the invariant: what it assigns to is its own frame,
    which is nobody's task object. -/
theorem inv_proceed {s : State T β} (h : Inv R T₀ s) {c : Coro T}
    (hc : c ∈ s.coros) (hnew : c.written = none) (k : Nat) :
    Inv R T₀ (proceed R L s k c).1 := by
  by_cases h0 : c.remaining = 0
  · rw [proceed_end R L h0]
    refine inv_set R T₀ h hc k _ _ rfl rfl ?_ ?_
    · intro ws hws
      exact (Option.some.inj hws).symm
    · intro d hd
      exact R.read_write_other _ (h.apart c hc d hd) _ _ _
  · rw [proceed_suspend R L h0]
    refine inv_set R T₀ h hc k _ _ rfl rfl ?_ (fun _ _ => rfl)
    intro ws hws
    exact nomatch hnew.symm.trans hws

theorem inv_step {s s' : State T β} {l : Label T} {es : List Event}
    (h : Inv R T₀ s) (hs : step R L T₀ s l = some (s', es)) : Inv R T₀ s' := by
  cases l with
  | call suspensions v =>
      have hp : proceed R L (start R T₀ s suspensions v).1 s.coros.length
          (start R T₀ s suspensions v).2 = (s', es) := Option.some.inj hs
      have hc : (start R T₀ s suspensions v).2 ∈ (start R T₀ s suspensions v).1.coros :=
        List.mem_append_right _ (List.mem_singleton_self _)
      have := inv_proceed R L T₀ (inv_start R T₀ h suspensions v) hc rfl s.coros.length
      rw [hp] at this
      exact this
  | resume k =>
      rw [step] at hs
      cases hk : s.coros[k]? with
      | none =>
          rw [hk] at hs
          exact nomatch hs
      | some c =>
          rw [hk] at hs
          cases hw : c.written with
          | some ws =>
              simp only [hw] at hs
              exact nomatch hs
          | none =>
              simp only [hw] at hs
              have hp : proceed R L s k c = (s', es) := Option.some.inj hs
              have := inv_proceed R L T₀ h (List.mem_of_getElem? hk) hw k
              rw [hp] at this
              exact this

theorem inv_run {mem : Mem β} {ls : List (Label T)} {s : State T β}
    {tr : List Event} (h : Run (step R L T₀) (State.init mem) ls s tr) :
    Inv R T₀ s :=
  h.invariant (fun s _ => Inv R T₀ s) (inv_init R T₀ mem)
    fun _ _ _ _ _ hinv hs => inv_step R L T₀ hinv hs

/-! ## Bodies end -/

/-- Resuming a suspended body. -/
theorem step_resume {s : State T β} {k : Nat} {c : Coro T}
    (hk : s.coros[k]? = some c) (hnew : c.written = none) :
    step R L T₀ s (.resume k) = some (proceed R L s k c) := by
  rw [step, hk]
  simp [hnew]

/-- A suspended body with `n` suspensions ahead ends with the `n + 1`-st
    resumption. -/
theorem exec_resumes {k : Nat} :
    ∀ (n : Nat) (s : State T β) (c : Coro T), s.coros[k]? = some c →
      c.written = none → c.remaining = n →
      ∃ s' c' tr, exec (step R L T₀) s (List.replicate (n + 1) (.resume k))
          = some (s', tr)
        ∧ s'.coros[k]? = some c' ∧ c'.value = c.value ∧ c'.written.isSome := by
  intro n
  induction n with
  | zero =>
      intro s c hk hnew hn
      have hlt : k < s.coros.length := (List.getElem?_eq_some_iff.mp hk).1
      have hstep := step_resume R L T₀ hk hnew
      rw [proceed_end R L hn] at hstep
      exact ⟨_, _, _, exec_cons hstep rfl, List.getElem?_set_self hlt, rfl, rfl⟩
  | succ n ih =>
      intro s c hk hnew hn
      have hlt : k < s.coros.length := (List.getElem?_eq_some_iff.mp hk).1
      have h0 : c.remaining ≠ 0 := by omega
      have hstep := step_resume R L T₀ hk hnew
      rw [proceed_suspend R L h0] at hstep
      have hn' : c.remaining - 1 = n := by omega
      obtain ⟨s', c', tr, hexec, hk', hv, hw⟩ :=
        ih { s with coros := s.coros.set k { c with remaining := c.remaining - 1 } }
          { c with remaining := c.remaining - 1 } (List.getElem?_set_self hlt)
          hnew hn'
      exact ⟨s', c', _, exec_cons hstep hexec, hk', hv, hw⟩

/-- **BODIES END**: a call of a body with `n` suspensions, resumed `n` times,
    has ended with the value of its `co_return`. -/
theorem exec_call_ends (mem : Mem β) (n : Nat) (v : T) :
    ∃ s c tr, exec (step R L T₀) (State.init mem)
        (.call n v :: List.replicate n (.resume 0)) = some (s, tr)
      ∧ s.coros[0]? = some c ∧ c.value = v ∧ c.written.isSome := by
  have hcall : step R L T₀ (State.init mem) (.call n v)
      = some (proceed R L (start R T₀ (State.init mem) n v).1 0
          (start R T₀ (State.init mem) n v).2) := rfl
  cases n with
  | zero =>
      rw [proceed_end R L rfl] at hcall
      exact ⟨_, _, _, exec_cons hcall rfl, rfl, rfl, rfl⟩
  | succ n =>
      rw [proceed_suspend R L (Nat.succ_ne_zero n)] at hcall
      obtain ⟨s, c, tr, hexec, hc, hv, hw⟩ := exec_resumes R L T₀ (k := 0) n
        { (start R T₀ (State.init mem) (n + 1) v).1 with
            coros := [⟨0, 1, n, v, none⟩] }
        ⟨0, 1, n, v, none⟩ rfl rfl rfl
      exact ⟨s, c, _, exec_cons hcall hexec, hc, hv, hw⟩

/-- **DELIVERY, EXACTLY**: in every state a run reaches, a body that has ended
    has delivered its value to its caller, inside the promise, iff the result
    type has no bytes. -/
theorem task_delivers_iff {mem : Mem β} {ls : List (Label T)} {s : State T β}
    {tr : List Event} (h : Run (step R L T₀) (State.init mem) ls s tr)
    {c : Coro T} (hc : c ∈ s.coros) {ws : List (Nat × Nat)}
    (hw : c.written = some ws) : Delivered R L s c ws ↔ R.size = 0 := by
  obtain rfl := (inv_run R L T₀ h).written c hc ws hw
  constructor
  · rintro ⟨-, hin⟩
    by_contra hpos
    have h0 : (c.frame, 0) ∈ covered c.frame 0 R.size :=
      mem_covered.mpr ⟨rfl, Nat.le_refl 0, by omega⟩
    have hhead := (hin _ h0 rfl).1
    have := L.head_pos
    omega
  · intro hzero
    refine ⟨R.eq_of_size_zero hzero _ _, ?_⟩
    intro a ha
    have := mem_covered.mp ha
    omega

end machine

/-! ## Two result types -/

/-- An empty class. -/
def emptyRepr : ByteRepr Unit UInt8 where
  size := 0
  encode _ := []
  decode _ := ()
  length_encode _ := rfl
  decode_encode _ := rfl

/-- A number of one byte. -/
def byteRepr : ByteRepr UInt8 UInt8 where
  size := 1
  encode v := [v]
  decode bs := bs.headD 0
  length_encode _ := rfl
  decode_encode _ := rfl

/-- Two pointers, and a promise with an exception pointer. -/
def frameLayout : FrameLayout := ⟨16, 8, by decide⟩

/-- A result without bytes is delivered after one suspension. -/
theorem task_delivers_iff_empty :
    ∃ s c tr ws, Run (step emptyRepr frameLayout ()) (State.init fun _ _ => 0)
        [.call 1 (), .resume 0] s tr
      ∧ c ∈ s.coros ∧ c.written = some ws
      ∧ Delivered emptyRepr frameLayout s c ws := by
  obtain ⟨s, c, tr, hexec, hc, -, hw⟩ :=
    exec_call_ends emptyRepr frameLayout () (fun _ _ => 0) 1 ()
  obtain ⟨ws, hws⟩ := Option.isSome_iff_exists.mp hw
  have hmem : c ∈ s.coros := List.mem_of_getElem? hc
  exact ⟨s, c, tr, ws, run_of_exec hexec, hmem, hws,
    (task_delivers_iff emptyRepr frameLayout () (run_of_exec hexec) hmem hws).mpr
      rfl⟩

/-- A body that returns 7 without suspending leaves 0 in its caller's task. -/
theorem task_loses_seven :
    ∃ s c tr ws, Run (step byteRepr frameLayout 0) (State.init fun _ _ => 0)
        [.call 0 7] s tr
      ∧ c ∈ s.coros ∧ c.value = 7 ∧ c.written = some ws
      ∧ retValue byteRepr s c = 0 ∧ ¬ Delivered byteRepr frameLayout s c ws := by
  obtain ⟨s, c, tr, hexec, hc, hv, hw⟩ :=
    exec_call_ends byteRepr frameLayout 0 (fun _ _ => 0) 0 7
  obtain ⟨ws, hws⟩ := Option.isSome_iff_exists.mp hw
  have hmem : c ∈ s.coros := List.mem_of_getElem? hc
  have hzero : retValue byteRepr s c = 0 :=
    (inv_run byteRepr frameLayout 0 (run_of_exec hexec)).kept c hmem
  refine ⟨s, c, tr, ws, run_of_exec hexec, hmem, hv, hws, hzero, ?_⟩
  rintro ⟨hret, -⟩
  rw [hzero, hv] at hret
  exact absurd hret (by decide)

end Tasks
