import Mathlib.Algebra.Order.Ring.Int
import Mathlib.Data.List.Basic
import CoroRedis.ReplyProofs
import CoroRedis.StdReaderProofs
import CoroRedis.TaskAwaiterProofs

/-! # Decoding a reply to a declared result type

    `deal_redis_reply<RET>` for every `RET` the methods declare, with the
    exceptions its `stod` and `stol` can throw, and `await_resume`, which is
    `noexcept`: there an exception, or an empty resume callback, ends the
    process. -/

namespace Decoding

open CoroBytes RedisReplies TaskAwaiters

/-! ## `deal_redis_reply` -/

/-- The template argument `RET`; `other` is any type the decoder has no branch
    for. -/
inductive RetType where
  | string | strings | uint64 | double | bool | other
  deriving DecidableEq

/-- A value of a declared result type. -/
inductive RetVal (double : Type) where
  | string (s : Bytes)
  | strings (l : List Bytes)
  | uint64 (n : UInt64)
  | double (d : double)
  | bool (b : Bool)
  | scan (r : ScanRet)
  deriving DecidableEq

variable {double : Type}

/-- `deal_redis_reply<double>`. -/
def dealRedisReplyDouble (P : Platform double) (reply : Option RedisReply) :
    Except StdException (Option double) :=
  match notNil reply with
  | none => .ok none
  | some r => if r.type = .DOUBLE then (P.stod r.str).map some else .ok none

/-- `deal_redis_reply<bool>`: the `long` is converted. -/
def dealRedisReplyBool (P : Platform double) (reply : Option RedisReply) :
    Except StdException (Option Bool) :=
  match notNil reply with
  | none => .ok none
  | some r =>
      if r.type = .BOOL then
        (stoInt P.longBits r.str).map fun v => some (decide (v ≠ 0))
      else .ok none

/-- `deal_redis_reply<RET>`. -/
def dealRedisReply (P : Platform double) (ret : RetType)
    (reply : Option RedisReply) : Except StdException (Option (RetVal double)) :=
  match ret with
  | .string => .ok ((dealRedisReplyString reply).map .string)
  | .strings => .ok ((dealRedisReplyStrings reply).map .strings)
  | .uint64 => .ok ((dealRedisReplyUint64 reply).map .uint64)
  | .double => (dealRedisReplyDouble P reply).map (Option.map .double)
  | .bool => (dealRedisReplyBool P reply).map (Option.map .bool)
  | .other => .ok none

/-! ### Which replies are present, and which throw -/

/-- The type tags a result type accepts. -/
def RetType.accepts : RetType → List ReplyType
  | .string => [.STRING, .STATUS]
  | .strings => [.ARRAY]
  | .uint64 => [.INTEGER]
  | .double => [.DOUBLE]
  | .bool => [.BOOL]
  | .other => []

/-- The text of an accepted reply can be read at the result type. -/
def Platform.Parses (P : Platform double) : RetType → Bytes → Prop
  | .double, s => P.DoubleText s
  | .bool, s => Readable P.longBits s
  | _, _ => True

theorem notNil_some {r : RedisReply} (h : r.type ≠ .NIL) :
    notNil (some r) = some r := by
  rw [notNil, Option.filter_some, if_pos (decide_eq_true h)]

theorem notNil_nil {r : RedisReply} (h : r.type = .NIL) :
    notNil (some r) = none := by
  rw [notNil, Option.filter_some, if_neg]
  rw [h]
  decide

theorem RetType.ne_nil_of_accepts {ret : RetType} {t : ReplyType}
    (h : t ∈ ret.accepts) : t ≠ .NIL := by
  rintro rfl
  cases ret <;> exact absurd h (by decide)

@[simp] theorem dealRedisReply_null (P : Platform double) (ret : RetType) :
    dealRedisReply P ret none = .ok none := by
  cases ret <;> rfl

/-- Any other type tag is a missing value. -/
theorem dealRedisReply_reject (P : Platform double) {ret : RetType}
    {r : RedisReply} (h : r.type ∉ ret.accepts) :
    dealRedisReply P ret (some r) = .ok none := by
  by_cases hnil : r.type = .NIL
  · have := notNil_nil hnil
    cases ret <;> simp [dealRedisReply, dealRedisReplyString,
      dealRedisReplyStrings, dealRedisReplyUint64, dealRedisReplyDouble,
      dealRedisReplyBool, this, Except.map]
  · have hsome := notNil_some hnil
    cases ret <;> simp [RetType.accepts] at h <;>
      simp [dealRedisReply, dealRedisReplyString, dealRedisReplyStrings,
        dealRedisReplyUint64, dealRedisReplyDouble, dealRedisReplyBool, hsome,
        h, Except.map]

/-- An accepted reply whose text can be read gives a value. -/
theorem dealRedisReply_accept (P : Platform double) {ret : RetType}
    {r : RedisReply} (h : r.type ∈ ret.accepts) (hp : P.Parses ret r.str) :
    ∃ v, dealRedisReply P ret (some r) = .ok (some v) := by
  have hsome := notNil_some (RetType.ne_nil_of_accepts h)
  cases ret with
  | string =>
      have ht : r.type = .STRING ∨ r.type = .STATUS := by
        simpa [RetType.accepts] using h
      refine ⟨.string r.str, ?_⟩
      simp [dealRedisReply, dealRedisReplyString, hsome, ht]
  | strings =>
      have ht : r.type = .ARRAY := List.mem_singleton.mp h
      refine ⟨.strings (r.element.map fun e => if e.type ≠ .STRING then [] else e.str), ?_⟩
      simp [dealRedisReply, dealRedisReplyStrings, hsome, ht]
  | uint64 =>
      have ht : r.type = .INTEGER := List.mem_singleton.mp h
      refine ⟨.uint64 r.integer.toUInt64, ?_⟩
      simp [dealRedisReply, dealRedisReplyUint64, hsome, ht]
  | double =>
      have ht : r.type = .DOUBLE := List.mem_singleton.mp h
      obtain ⟨d, hd⟩ := (stod_ok_iff P).mpr hp
      refine ⟨.double d, ?_⟩
      simp [dealRedisReply, dealRedisReplyDouble, hsome, ht, hd, Except.map]
  | bool =>
      have ht : r.type = .BOOL := List.mem_singleton.mp h
      obtain ⟨v, hv⟩ := stoInt_ok_iff.mpr hp
      refine ⟨.bool (decide (v ≠ 0)), ?_⟩
      simp [dealRedisReply, dealRedisReplyBool, hsome, ht, hv, Except.map]
  | other => exact nomatch h

/-- An accepted reply whose text cannot be read makes `stod` or `stol`
    throw. -/
theorem dealRedisReply_throw (P : Platform double) {ret : RetType}
    {r : RedisReply} (h : r.type ∈ ret.accepts) (hp : ¬ P.Parses ret r.str) :
    ∃ e, dealRedisReply P ret (some r) = .error e := by
  have hsome := notNil_some (RetType.ne_nil_of_accepts h)
  cases ret with
  | double =>
      have ht : r.type = .DOUBLE := List.mem_singleton.mp h
      cases hs : P.stod r.str with
      | ok d => exact absurd ((stod_ok_iff P).mp ⟨d, hs⟩) hp
      | error e =>
          refine ⟨e, ?_⟩
          simp [dealRedisReply, dealRedisReplyDouble, hsome, ht, hs, Except.map]
  | bool =>
      have ht : r.type = .BOOL := List.mem_singleton.mp h
      cases hs : stoInt P.longBits r.str with
      | ok v => exact absurd (stoInt_ok_iff.mp ⟨v, hs⟩) hp
      | error e =>
          refine ⟨e, ?_⟩
          simp [dealRedisReply, dealRedisReplyBool, hsome, ht, hs, Except.map]
  | string => exact absurd trivial hp
  | strings => exact absurd trivial hp
  | uint64 => exact absurd trivial hp
  | other => exact absurd trivial hp

/-- **PRESENT VALUES**: a reply decodes to a value iff its type tag is one the
    result type accepts and its text can be read. -/
theorem dealRedisReply_present (P : Platform double) (ret : RetType)
    (r : RedisReply) :
    (∃ v, dealRedisReply P ret (some r) = .ok (some v))
      ↔ r.type ∈ ret.accepts ∧ P.Parses ret r.str := by
  constructor
  · rintro ⟨v, hv⟩
    by_cases h : r.type ∈ ret.accepts
    · refine ⟨h, ?_⟩
      by_contra hp
      obtain ⟨e, he⟩ := dealRedisReply_throw P h hp
      rw [he] at hv
      exact nomatch hv
    · rw [dealRedisReply_reject P h] at hv
      exact nomatch hv
  · rintro ⟨h, hp⟩
    exact dealRedisReply_accept P h hp

/-- **NO EXCEPTION**: decoding throws iff an accepted reply has a text that
    cannot be read. -/
theorem dealRedisReply_ok_iff (P : Platform double) (ret : RetType)
    (reply : Option RedisReply) :
    (∃ v, dealRedisReply P ret reply = .ok v)
      ↔ ∀ r ∈ reply, r.type ∈ ret.accepts → P.Parses ret r.str := by
  cases reply with
  | none => simp
  | some r =>
      by_cases h : r.type ∈ ret.accepts
      · by_cases hp : P.Parses ret r.str
        · obtain ⟨v, hv⟩ := dealRedisReply_accept P h hp
          simp [hv, hp]
        · obtain ⟨e, he⟩ := dealRedisReply_throw P h hp
          simp [he, hp, h]
      · simp [dealRedisReply_reject P h, h]

/-! ## What a call does -/

/-- The outcome of a method call that should give a `std::optional`. -/
inductive CallResult (α : Type) where
  | returned (ret : Option α)
  -- an exception reaches the caller
  | thrown (e : StdException)
  | nullDereference
  -- an exception leaves a `noexcept` function
  | terminated
  | neverReturns
  -- hiredis did not take the command, and nobody resumes the coroutine
  | unsubmitted
  deriving DecidableEq

/-- The call gave its `std::optional`. -/
def CallResult.Returns {α : Type} (res : CallResult α) : Prop :=
  ∃ ret, res = .returned ret

/-- The result at another type. -/
def CallResult.map {α β : Type} (f : α → β) : CallResult α → CallResult β
  | .returned ret => .returned (ret.map f)
  | .thrown e => .thrown e
  | .nullDereference => .nullDereference
  | .terminated => .terminated
  | .neverReturns => .neverReturns
  | .unsubmitted => .unsubmitted

/-- A function that may throw, called from an ordinary function. -/
def CallResult.ofExcept {α : Type} : Except StdException (Option α) → CallResult α
  | .ok ret => .returned ret
  | .error e => .thrown e

/-- A function that may throw, called from a `noexcept` one. -/
def CallResult.ofNoexcept {α : Type} : Except StdException (Option α) → CallResult α
  | .ok ret => .returned ret
  | .error _ => .terminated

@[simp] theorem CallResult.returns_ofNoexcept {α : Type}
    (x : Except StdException (Option α)) :
    (CallResult.ofNoexcept x).Returns ↔ ∃ ret, x = .ok ret := by
  cases x <;> simp [CallResult.ofNoexcept, CallResult.Returns]

@[simp] theorem CallResult.returns_map {α β : Type} (f : α → β)
    (res : CallResult α) : (res.map f).Returns ↔ res.Returns := by
  cases res <;> simp [CallResult.map, CallResult.Returns]

/-! ## `awaiter_t` -/

/-- `awaiter_t<CORO_RET>`: the `task_awaiter` and its two callbacks.  The
    suspend callback is kept as the text it sends; an empty callback is
    `none`. -/
structure CommandAwaiter (α : Type) extends TaskAwaiter RedisReply where
  suspendCallback : Option Bytes
  resumeCallback : Option (Option RedisReply → Except StdException (Option α))

namespace CommandAwaiter

variable {α : Type}

/-- `task_awaiter() = default`. -/
def empty : CommandAwaiter α := ⟨⟨false, none, none⟩, none, none⟩

/-- The constructor that takes the two callbacks. -/
def ofCallbacks (cmd : Bytes)
    (resume_callback : Option RedisReply → Except StdException (Option α)) :
    CommandAwaiter α :=
  ⟨TaskAwaiter.ofCallbacks, some cmd, some resume_callback⟩

/-- What the reply callback of hiredis does before it resumes. -/
def store (aw : CommandAwaiter α) (reply : Option RedisReply) : CommandAwaiter α :=
  match reply with
  | none => aw
  | some r => { aw with toTaskAwaiter := aw.setCoroReturn r }

/-- `await_resume() noexcept`. -/
def awaitResume (aw : CommandAwaiter α) : CallResult α :=
  match aw.resumeCallback with
  -- calling an empty `std::function` throws `bad_function_call`
  | none => .terminated
  | some resume_callback => .ofNoexcept (resume_callback aw.coroTmpReturn)

/-- `co_await`, for the exchange that ends with `reply`. -/
def coAwait (aw : CommandAwaiter α) (reply : Option RedisReply) : CallResult α :=
  if aw.awaitReady then aw.awaitResume else (aw.store reply).awaitResume

/-- What `await_resume` makes of a stored reply. -/
theorem awaitResume_store (cmd : Bytes)
    (resume_callback : Option RedisReply → Except StdException (Option α))
    (reply : Option RedisReply) :
    ((ofCallbacks cmd resume_callback).store reply).awaitResume
      = .ofNoexcept (resume_callback reply) := by
  cases reply <;> rfl

theorem coAwait_ofCallbacks (cmd : Bytes)
    (resume_callback : Option RedisReply → Except StdException (Option α))
    (reply : Option RedisReply) :
    (ofCallbacks cmd resume_callback).coAwait reply
      = .ofNoexcept (resume_callback reply) :=
  awaitResume_store cmd resume_callback reply

/-- The awaiter at another result type. -/
def map {β : Type} (f : α → β) (aw : CommandAwaiter α) : CommandAwaiter β :=
  ⟨aw.toTaskAwaiter, aw.suspendCallback,
    aw.resumeCallback.map fun resume_callback reply =>
      (resume_callback reply).map (Option.map f)⟩

theorem awaitResume_map_ofCallbacks {β : Type} (f : α → β) (cmd : Bytes)
    (resume_callback : Option RedisReply → Except StdException (Option α))
    (reply : Option RedisReply) :
    (((ofCallbacks cmd resume_callback).map f).store reply).awaitResume
      = (((ofCallbacks cmd resume_callback).store reply).awaitResume).map f := by
  rw [awaitResume_store]
  have hmap : (ofCallbacks cmd resume_callback).map f
      = ofCallbacks cmd fun reply => (resume_callback reply).map (Option.map f) := rfl
  rw [hmap, awaitResume_store]
  cases resume_callback reply <;> rfl

end CommandAwaiter

end Decoding
