import CoroRedis.Lib.RunProofs
import CoroRedis.MethodCallProofs

/-! # Awaiting one command awaiter again

    The awaiter of `command` is an object like any other, and nothing keeps a
    caller from awaiting it twice.  Its slot `coro_tmp_return_` holds the
    address of a reply that hiredis frees as soon as its callback returns, and
    a null reply leaves the slot as it is.

    * `step_reply`, `step_null` — what one `co_await` does;
    * `Inv` — what every run keeps: no reply outlives its callback, and the
      slot is empty as long as no reply came;
    * `reawait_iff` — in which runs every `co_await` yields what is due for
      the reply its own callback got. -/

namespace Reawait

open RunLog TaskAwaiters CoroBytes Decoding RedisReplies Methods

variable {double : Type}

/-! ## The two overloads of `command` -/

/-- `command` with a result type, and `command` with an operation, which may be
    empty. -/
inductive Overload (double : Type) where
  | decode (ret : RetType)
  | withOp (op : Option (RedisReply → Except StdException (Option (RetVal double))))

namespace Overload

/-- The resume callback, on the reply the slot points to. -/
def resumeCallback (P : Platform double) :
    Overload double → Option RedisReply → Except StdException (Option (RetVal double))
  | .decode ret => CoroConnectionImpl.resumeCommand P ret
  | .withOp none => fun _ => .ok none
  | .withOp (some op) => Scans.CoroConnectionImpl.resumeWithOp op

/-- The resume callback uses the address in the slot; an empty operation
    returns before that. -/
def reads : Overload double → Bool
  | .withOp none => false
  | _ => true

/-- What a `co_await` should yield for what the callback got. -/
def yields (P : Platform double) :
    Overload double → Option RedisReply → CallResult (RetVal double)
  | _, none => .returned none
  | .decode ret, some r => .ofNoexcept (dealRedisReply P ret (some r))
  | .withOp none, some _ => .returned none
  | .withOp (some op), some r => .ofNoexcept (op r)

theorem ofNoexcept_resumeCallback (P : Platform double) (o : Overload double)
    (reply : Option RedisReply) :
    CallResult.ofNoexcept (o.resumeCallback P reply) = o.yields P reply := by
  cases o with
  | decode ret => cases reply <;> rfl
  | withOp reply_op => cases reply_op <;> cases reply <;> rfl

/-- The first `co_await` of an awaiter yields what is due. -/
theorem coAwait_eq_yields (P : Platform double) (o : Overload double) (cmd : Bytes)
    (reply : Option RedisReply) :
    (CommandAwaiter.ofCallbacks cmd (o.resumeCallback P)).coAwait reply
      = o.yields P reply := by
  rw [CommandAwaiter.coAwait_ofCallbacks, ofNoexcept_resumeCallback]

end Overload

/-! ## The awaiter and the replies -/

/-- The address of a `redisReply`. -/
abbrev ReplyPtr := Nat

/-- One `co_await` of the awaiter, and what hiredis hands to its callback: a
    reply at some address, or null. -/
structure Await where
  handle : CoroHandle
  delivery : Option (ReplyPtr × RedisReply)

/-- The awaiter and the replies that are alive. -/
structure State where
  awaiter : TaskAwaiter ReplyPtr
  heap : ReplyPtr → Option RedisReply
  ended : Bool

/-- A fresh awaiter with its two callbacks. -/
def State.start : State := ⟨TaskAwaiter.ofCallbacks, fun _ => none, false⟩

/-- Where a `co_await` gets to; `dangling` is the use of a freed reply. -/
inductive Yield (double : Type) where
  | result (res : CallResult (RetVal double))
  | dangling (p : ReplyPtr)

/-- There is no `co_await` after one that does not return. -/
def Yield.ends : Yield double → Bool
  | .result (.returned _) => false
  | _ => true

/-- `await_resume`: the resume callback follows the pointer in the slot. -/
def awaitResume (P : Platform double) (o : Overload double)
    (aw : TaskAwaiter ReplyPtr) (heap : ReplyPtr → Option RedisReply) :
    Yield double :=
  match aw.coroTmpReturn with
  | none => .result (.ofNoexcept (o.resumeCallback P none))
  | some p =>
      match heap p with
      | some r => .result (.ofNoexcept (o.resumeCallback P (some r)))
      | none =>
          if o.reads then .dangling p
          else .result (.ofNoexcept (o.resumeCallback P none))

/-- One `co_await`: `want_pause_` is set, so it suspends, and the callback of
    hiredis stores the reply, if there is one, and resumes. -/
def step (P : Platform double) (o : Overload double) (s : State) (a : Await) :
    Option (State × List (Yield double)) :=
  if s.ended then none
  else
    let aw := s.awaiter.awaitSuspend a.handle
    match a.delivery with
    | none =>
        let y := awaitResume P o aw s.heap
        some (⟨aw, s.heap, y.ends⟩, [y])
    | some (p, r) =>
        -- a new reply is at an address that is not in use
        if (s.heap p).isSome then none
        else
          let aw := aw.setCoroReturn p
          let heap := Function.update s.heap p (some r)
          let y := awaitResume P o aw heap
          -- hiredis frees the reply when the callback returns
          some (⟨aw, Function.update heap p none, y.ends⟩, [y])

/-- What a `co_await` should yield: the decoding of the reply delivered for
    it, or `nullopt`. -/
def due (P : Platform double) (o : Overload double) (a : Await) : Yield double :=
  .result (o.yields P (a.delivery.map Prod.snd))

/-! ## One `co_await` -/

section step

variable {P : Platform double} {o : Overload double} {s s' : State} {a : Await}
  {es : List (Yield double)}

/-- A reply is stored and decoded, and gone afterwards. -/
theorem step_reply {p : ReplyPtr} {r : RedisReply} (ha : a.delivery = some (p, r))
    (h : step P o s a = some (s', es)) :
    es = [due P o a] ∧ s'.awaiter.coroTmpReturn = some p ∧ s'.heap = s.heap := by
  rw [step, ha] at h
  by_cases hended : s.ended
  · rw [if_pos hended] at h
    exact nomatch h
  · rw [if_neg hended] at h
    by_cases hp : (s.heap p).isSome
    · simp only [hp, if_true, reduceCtorEq] at h
    · simp only [hp, Bool.false_eq_true, if_false, Option.some.injEq,
        Prod.mk.injEq] at h
      obtain ⟨rfl, rfl⟩ := h
      refine ⟨?_, rfl, ?_⟩
      · have hread : Function.update s.heap p (some r) p = some r :=
          Function.update_self ..
        simp only [awaitResume, TaskAwaiter.setCoroReturn_coroTmpReturn, hread,
          due, ha, Option.map_some, Overload.ofNoexcept_resumeCallback]
      · have hfree : s.heap p = none := by simpa using hp
        show Function.update (Function.update s.heap p (some r)) p none = s.heap
        rw [Function.update_idem, ← hfree, Function.update_eq_self]

/-- A null reply changes neither the slot nor the heap. -/
theorem step_null (ha : a.delivery = none) (h : step P o s a = some (s', es)) :
    es = [awaitResume P o s.awaiter s.heap]
      ∧ s'.awaiter.coroTmpReturn = s.awaiter.coroTmpReturn
      ∧ s'.heap = s.heap := by
  rw [step, ha] at h
  by_cases hended : s.ended
  · rw [if_pos hended] at h
    exact nomatch h
  · rw [if_neg hended] at h
    simp only [Option.some.injEq, Prod.mk.injEq] at h
    obtain ⟨rfl, rfl⟩ := h
    exact ⟨rfl, rfl, rfl⟩

/-- An awaiter that has not ended can be awaited, whatever is delivered. -/
theorem step_enabled (hheap : s.heap = fun _ => none) (hended : s.ended = false) :
    ∃ s' es, step P o s a = some (s', es) := by
  rw [step, hended, hheap]
  cases a.delivery with
  | none => exact ⟨_, _, rfl⟩
  | some d => exact ⟨_, _, rfl⟩

/-- With an empty slot, `await_resume` yields `nullopt`. -/
theorem awaitResume_empty (hslot : s.awaiter.coroTmpReturn = none) :
    awaitResume P o s.awaiter s.heap = .result (.returned none) := by
  rw [awaitResume, hslot]
  exact congrArg Yield.result (o.ofNoexcept_resumeCallback P none)

/-- With the address of a freed reply in the slot, it does so only where the
    address is not used. -/
theorem awaitResume_stale {p : ReplyPtr} (hslot : s.awaiter.coroTmpReturn = some p)
    (hfree : s.heap p = none) :
    awaitResume P o s.awaiter s.heap = .result (.returned none) ↔ ¬ o.reads := by
  rw [awaitResume, hslot]
  simp only [hfree]
  by_cases ho : o.reads
  · rw [if_pos ho]
    exact iff_of_false nofun (not_not_intro ho)
  · rw [if_neg ho]
    exact iff_of_true (congrArg Yield.result (o.ofNoexcept_resumeCallback P none)) ho

end step

/-! ## Runs -/

/-- What is kept by every sequence of `co_await`s: the replies are freed, and
    the slot is empty iff no reply came. -/
structure Inv (s : State) (ls : List Await) : Prop where
  heap : s.heap = fun _ => none
  slot : s.awaiter.coroTmpReturn = none ↔ ∀ a ∈ ls, a.delivery = none

theorem inv_start : Inv State.start [] := ⟨rfl, iff_of_true rfl nofun⟩

/-- **STEP LEMMA**: one `co_await` keeps the invariant, and yields what is due
    unless a null reply finds the slot full and the address is used. -/
theorem step_inv {P : Platform double} {o : Overload double} {s s' : State}
    {a : Await} {ls : List Await} {es : List (Yield double)} (hinv : Inv s ls)
    (h : step P o s a = some (s', es)) :
    Inv s' (ls ++ [a]) ∧ ∃ y, es = [y] ∧
      (y = due P o a ↔
        (o.reads → ∀ b ∈ ls, a.delivery = none → b.delivery = none)) := by
  cases ha : a.delivery with
  | some d =>
      obtain ⟨hes, hslot, hheap⟩ := step_reply ha h
      refine ⟨⟨hheap.trans hinv.heap, ?_⟩, _, hes, ?_⟩
      · rw [hslot]
        refine iff_of_false nofun fun hall => ?_
        rw [hall a (by simp)] at ha
        exact nomatch ha
      · exact iff_of_true rfl fun _ _ _ => nofun
  | none =>
      obtain ⟨hes, hslot, hheap⟩ := step_null ha h
      have hdue : due P o a = .result (.returned none) := by
        rw [due, ha]
        cases o <;> rfl
      refine ⟨⟨hheap.trans hinv.heap, ?_⟩, _, hes, ?_⟩
      · rw [hslot, hinv.slot]
        constructor
        · intro hall b hb
          rcases List.mem_append.mp hb with hold | hnew
          · exact hall b hold
          · rw [List.mem_singleton.mp hnew]
            exact ha
        · exact fun hall b hb => hall b (List.mem_append_left [a] hb)
      · rw [hdue]
        cases hs : s.awaiter.coroTmpReturn with
        | none =>
            exact iff_of_true (awaitResume_empty hs) fun _ b hb _ =>
              hinv.slot.mp hs b hb
        | some p =>
            have hfree : s.heap p = none := by rw [hinv.heap]
            have hsome : ¬ ∀ b ∈ ls, b.delivery = none := fun hall =>
              nomatch hs.symm.trans (hinv.slot.mpr hall)
            rw [awaitResume_stale hs hfree]
            exact ⟨fun ho hr => absurd hr ho, fun hall hr =>
              hsome fun b hb => hall hr b hb rfl⟩

/-- **RUN LEMMA**: the invariant holds after every run, and the run yielded
    what is due iff no null reply came after a reply. -/
theorem run_inv {P : Platform double} {o : Overload double} {ls : List Await}
    {s : State} {tr : List (Yield double)}
    (h : Run (step P o) State.start ls s tr) :
    Inv s ls ∧ (tr = ls.map (due P o) ↔
      (o.reads → ls.Pairwise fun b a => a.delivery = none → b.delivery = none)) := by
  induction h with
  | start => exact ⟨inv_start, iff_of_true rfl fun _ => List.Pairwise.nil⟩
  | @next ls s s' tr es a hr hstep ih =>
      obtain ⟨hinv, hiff⟩ := ih
      obtain ⟨hinv', y, rfl, hy⟩ := step_inv hinv hstep
      refine ⟨hinv', ?_⟩
      have hsplit : tr ++ [y] = (ls ++ [a]).map (due P o)
          ↔ tr = ls.map (due P o) ∧ y = due P o a := by
        rw [List.map_append, List.map_singleton]
        constructor
        · intro heq
          obtain ⟨h1, h2⟩ := List.append_inj' heq rfl
          exact ⟨h1, (List.cons.inj h2).1⟩
        · rintro ⟨rfl, rfl⟩
          rfl
      have hpair : (ls ++ [a]).Pairwise
            (fun b a => a.delivery = none → b.delivery = none)
          ↔ ls.Pairwise (fun b a => a.delivery = none → b.delivery = none)
            ∧ ∀ b ∈ ls, a.delivery = none → b.delivery = none := by
        rw [List.pairwise_append]
        simp
      rw [hsplit, hiff, hy, hpair]
      exact ⟨fun hboth ho => ⟨hboth.1 ho, hboth.2 ho⟩,
        fun hall => ⟨fun ho => (hall ho).1, fun ho => (hall ho).2⟩⟩

/-- Every run can go on until a `co_await` does not return. -/
theorem run_enabled {P : Platform double} {o : Overload double} {ls : List Await}
    {s : State} {tr : List (Yield double)}
    (h : Run (step P o) State.start ls s tr) (hended : s.ended = false)
    (a : Await) : ∃ s' es, step P o s a = some (s', es) :=
  step_enabled (run_inv h).1.heap hended

/-- **NO STALE REPLY**: in a sequence of `co_await`s of one awaiter, each
    yields the decoding of the reply its own callback got, or `nullopt`, iff
    no null reply comes after a reply, or the operation is empty. -/
theorem reawait_iff {P : Platform double} {o : Overload double} {ls : List Await}
    {s : State} {tr : List (Yield double)}
    (h : Run (step P o) State.start ls s tr) :
    tr = ls.map (due P o) ↔
      (o.reads → ls.Pairwise fun b a => a.delivery = none → b.delivery = none) :=
  (run_inv h).2

/-- A null reply, and then two replies at one address. -/
theorem reawait_iff_reused :
    ∃ (s : State) (tr : List (Yield Bytes)),
      Run (step textPlatform (.decode .string)) State.start
          [⟨0, none⟩, ⟨1, some (8, bulk (lit "v"))⟩, ⟨2, some (8, bulk (lit "w"))⟩]
          s tr
        ∧ tr = [.result (.returned none),
          .result (.returned (some (.string (lit "v")))),
          .result (.returned (some (.string (lit "w"))))] := by
  obtain ⟨s, tr, hr⟩ : ∃ (s : State) (tr : List (Yield Bytes)),
      Run (step textPlatform (.decode .string)) State.start
        [⟨0, none⟩, ⟨1, some (8, bulk (lit "v"))⟩, ⟨2, some (8, bulk (lit "w"))⟩]
        s tr :=
    ⟨_, _, run_of_exec rfl⟩
  exact ⟨s, tr, hr, (reawait_iff hr).mpr fun _ => by decide⟩

/-- A null reply after a reply: the second `co_await` decodes the reply of the
    first, which hiredis has freed. -/
theorem null_reads_freed_reply :
    ∃ (s : State) (tr : List (Yield Bytes)),
      Run (step textPlatform (.decode .string)) State.start
          [⟨0, some (8, bulk (lit "v"))⟩, ⟨1, none⟩] s tr
        ∧ tr = [.result (.returned (some (.string (lit "v")))), .dangling 8]
        ∧ tr ≠ [⟨0, some (8, bulk (lit "v"))⟩, ⟨1, none⟩].map
          (due textPlatform (.decode .string)) :=
  ⟨_, _, run_of_exec rfl, rfl, nofun⟩

end Reawait
