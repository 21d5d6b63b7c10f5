import CoroRedis.HiredisFormatProofs
import CoroRedis.MethodTableProofs

/-! # What a method call gives its caller

    A call of a command method in either class, from its arguments and the
    outcome of the exchange to the `std::optional` the caller gets, or to the
    way it fails to give one.

    `classes_agree_iff` says when the two classes do the same,
    `await_resume_iff` when `await_resume` keeps its `noexcept` promise, and
    `accepts_iff` which methods see the successful replies of their
    commands. -/

namespace Methods

open CoroBytes HiredisFormat CommandText Decoding RedisReplies Scans

variable {double : Type}

/-! ## The two classes -/

/-- `sync_connection_impl::command`, for the exchange that ends with `reply`. -/
def SyncConnectionImpl.command (P : Platform double) (ret : RetType)
    (reply : Option RedisReply) : CallResult (RetVal double) :=
  CallResult.ofExcept (dealRedisReply P ret reply)

/-- The resume callback of `coro_connection_impl::command`. -/
def CoroConnectionImpl.resumeCommand (P : Platform double) (ret : RetType) :
    Option RedisReply → Except StdException (Option (RetVal double))
  | none => .ok none
  | some reply => dealRedisReply P ret (some reply)

/-- `coro_connection_impl::command`. -/
def CoroConnectionImpl.command (P : Platform double) (ret : RetType)
    (cmd : Bytes) : CommandAwaiter (RetVal double) :=
  CommandAwaiter.ofCallbacks cmd (resumeCommand P ret)

/-- The text a synchronous call sends. -/
def SyncConnection.sent (P : Platform double) (c : Call double) : Option Bytes :=
  match SyncConnection.request P c with
  | .nothing _ => none
  | .command _ cmd => some cmd
  | .scan cmd => some cmd
  | .itself => none

/-- What a synchronous call makes of what `redisCommand` returned. -/
def SyncConnection.onReply (P : Platform double) (c : Call double)
    (reply : Option RedisReply) : CallResult (RetVal double) :=
  match SyncConnection.request P c with
  | .nothing _ => .returned none
  | .command ret _ => SyncConnectionImpl.command P ret reply
  | .scan cmd => (Scans.SyncConnectionImpl.sendScanCmd cmd reply).map .scan
  | .itself => .neverReturns

/-- The awaiter a coroutine method returns; an early exit returns an empty
    one. -/
def CoroConnection.awaiter (P : Platform double) (c : Call double) :
    Option (CommandAwaiter (RetVal double)) :=
  match CoroConnection.request P c with
  | .nothing _ => some .empty
  | .command ret cmd => some (CoroConnectionImpl.command P ret cmd)
  | .scan cmd => some ((Scans.CoroConnectionImpl.sendScanCmd cmd).map .scan)
  | .itself => none

/-- The text a `co_await` of the method sends. -/
def CoroConnection.sent (P : Platform double) (c : Call double) : Option Bytes :=
  (CoroConnection.awaiter P c).bind (·.suspendCallback)

/-- `co_await` of a coroutine method whose callback is called with `reply`. -/
def CoroConnection.onReply (P : Platform double) (c : Call double)
    (reply : Option RedisReply) : CallResult (RetVal double) :=
  match CoroConnection.awaiter P c with
  | none => .neverReturns
  | some aw => aw.coAwait reply

/-! ### The outcome of the exchange -/

/-- What becomes of a command that is sent: the context is not connected, the
    connection fails before the reply is there, or the reply comes. -/
inductive ExchangeOutcome where
  | refused
  | lost
  | answered (reply : RedisReply)

def ExchangeOutcome.reply : ExchangeOutcome → Option RedisReply
  | .refused => none
  | .lost => none
  | .answered reply => some reply

/-- The context takes commands. -/
def ExchangeOutcome.connected : ExchangeOutcome → Bool
  | .refused => false
  | .lost => true
  | .answered _ => true

/-- hiredis takes the command: the context is connected, and the text is
    formatted to a vector with a command word in it. -/
def Submitted (R : RedisFormat) (o : ExchangeOutcome) (cmd : Bytes) : Prop :=
  o.connected = true ∧ (R.format cmd).getD [] ≠ []

instance (R : RedisFormat) (o : ExchangeOutcome) (cmd : Bytes) :
    Decidable (Submitted R o cmd) :=
  inferInstanceAs (Decidable (_ ∧ _))

/-- What `redisCommand` returns: null where the command was not taken. -/
def SyncConnectionImpl.redisCommand (R : RedisFormat) (o : ExchangeOutcome)
    (cmd : Bytes) : Option RedisReply :=
  if Submitted R o cmd then o.reply else none

/-- A synchronous call. -/
def SyncConnection.call (R : RedisFormat) (P : Platform double) (c : Call double)
    (o : ExchangeOutcome) : CallResult (RetVal double) :=
  match SyncConnection.sent P c with
  | none => SyncConnection.onReply P c none
  | some cmd =>
      SyncConnection.onReply P c (SyncConnectionImpl.redisCommand R o cmd)

/-- `co_await` of a coroutine method.  The suspend callback looks at neither
    the length of the formatted command nor the status of its submission. -/
def CoroConnection.call (R : RedisFormat) (P : Platform double) (c : Call double)
    (o : ExchangeOutcome) : CallResult (RetVal double) :=
  match CoroConnection.sent P c with
  | none => CoroConnection.onReply P c none
  | some cmd =>
      if Submitted R o cmd then CoroConnection.onReply P c o.reply
      else .unsubmitted

/-- The awaiter of `command` decodes the stored reply. -/
theorem awaitResume_command (P : Platform double) (ret : RetType) (cmd : Bytes)
    (reply : Option RedisReply) :
    ((CoroConnectionImpl.command P ret cmd).store reply).awaitResume
      = .ofNoexcept (dealRedisReply P ret reply) := by
  have hresume : CoroConnectionImpl.resumeCommand P ret reply
      = dealRedisReply P ret reply := by
    cases reply with
    | none => exact (dealRedisReply_null P ret).symm
    | some r => rfl
  rw [CoroConnectionImpl.command, CommandAwaiter.awaitResume_store, hresume]

/-- The awaiter of `send_scan_cmd` runs the reply callback on the stored
    reply. -/
theorem awaitResume_scan (cmd : Bytes) (reply : Option RedisReply) :
    ((((Scans.CoroConnectionImpl.sendScanCmd cmd).map RetVal.scan :
        CommandAwaiter (RetVal double)).store reply).awaitResume)
      = (sendScanCmd .coro cmd reply).map .scan :=
  CommandAwaiter.awaitResume_map_ofCallbacks ..

/-! ## Agreement -/

/-- Both return the same, or neither returns. -/
def SameResult {α : Type} (a b : CallResult α) : Prop :=
  (∃ ret, a = .returned ret ∧ b = .returned ret) ∨ (¬ a.Returns ∧ ¬ b.Returns)

/-- The two classes agree on a call and an outcome of the exchange: they send
    the same, and give the same. -/
def Agree (R : RedisFormat) (P : Platform double) (c : Call double)
    (o : ExchangeOutcome) : Prop :=
  SyncConnection.sent P c = CoroConnection.sent P c
    ∧ SameResult (SyncConnection.call R P c o) (CoroConnection.call R P c o)

/-- An ordinary command agrees with itself: a decoder that throws fails in both
    classes. -/
theorem sameResult_command (P : Platform double) (ret : RetType) (cmd : Bytes)
    (reply : Option RedisReply) :
    SameResult (SyncConnectionImpl.command P ret reply)
      ((CoroConnectionImpl.command P ret cmd).coAwait reply) := by
  show SameResult _ ((CoroConnectionImpl.command P ret cmd).store reply).awaitResume
  rw [awaitResume_command, SyncConnectionImpl.command]
  cases dealRedisReply P ret reply with
  | ok v => exact Or.inl ⟨v, rfl, rfl⟩
  | error e => exact Or.inr ⟨nofun, nofun⟩

/-- A scan agrees with itself iff a reply came. -/
theorem sameResult_scan (cmd : Bytes) (reply : Option RedisReply) :
    SameResult
        ((Scans.SyncConnectionImpl.sendScanCmd cmd reply).map RetVal.scan :
          CallResult (RetVal double))
        (((Scans.CoroConnectionImpl.sendScanCmd cmd).map RetVal.scan).coAwait reply)
      ↔ reply ≠ none := by
  show SameResult _ (((Scans.CoroConnectionImpl.sendScanCmd cmd).map
    RetVal.scan).store reply).awaitResume ↔ _
  rw [awaitResume_scan]
  cases reply with
  | none =>
      refine iff_of_false ?_ (not_not_intro rfl)
      rintro (⟨ret, hs, -⟩ | ⟨-, hc⟩)
      · exact nomatch hs
      · exact hc ⟨none, rfl⟩
  | some r =>
      refine iff_of_true ?_ nofun
      have hs : Scans.SyncConnectionImpl.sendScanCmd cmd (some r)
        = sendScanCmd .sync cmd (some r) := rfl
      rw [hs, sendScanCmd_some, sendScanCmd_some]
      cases Scans.CoroConnectionImpl.scanReplyOp r with
      | ok v => exact Or.inl ⟨v.map .scan, rfl, rfl⟩
      | error e => exact Or.inr ⟨nofun, nofun⟩

/-- A reply that one of the two decoders of `hmset` accepts is a different
    value, or none, to the other. -/
theorem hmset_decoders_iff (P : Platform double) (reply : Option RedisReply) :
    dealRedisReply P .strings reply = dealRedisReply P .string reply
      ↔ ∀ r ∈ reply, r.type ∉ [.STRING, .STATUS, .ARRAY] := by
  cases reply with
  | none => simp
  | some r =>
      by_cases hs : r.type ∈ RetType.string.accepts
      · obtain ⟨v, hv⟩ := dealRedisReply_accept P hs trivial
        have hrej : r.type ∉ RetType.strings.accepts := by
          intro ha
          rw [List.mem_singleton.mp ha] at hs
          exact absurd hs (by decide)
        rw [dealRedisReply_reject P hrej, hv]
        refine iff_of_false nofun fun h => h r rfl ?_
        exact List.mem_append_left [.ARRAY] hs
      · by_cases ha : r.type ∈ RetType.strings.accepts
        · obtain ⟨v, hv⟩ := dealRedisReply_accept P ha trivial
          rw [dealRedisReply_reject P hs, hv]
          refine iff_of_false nofun fun h => h r rfl ?_
          exact List.mem_append_right [.STRING, .STATUS] ha
        · rw [dealRedisReply_reject P hs, dealRedisReply_reject P ha]
          refine iff_of_true rfl fun r' hr' h => ?_
          obtain rfl := Option.some.inj hr'
          exact (List.mem_append.mp (h : r.type ∈ [.STRING, .STATUS] ++ [.ARRAY])).elim
            hs ha

/-- Two `hmset` results are the same iff the two decoders agree. -/
theorem sameResult_hmset (P : Platform double) (cmd : Bytes)
    (reply : Option RedisReply) :
    SameResult (SyncConnectionImpl.command P .strings reply)
        ((CoroConnectionImpl.command P .string cmd).coAwait reply)
      ↔ ∀ r ∈ reply, r.type ∉ [.STRING, .STATUS, .ARRAY] := by
  rw [← hmset_decoders_iff P reply]
  show SameResult _ ((CoroConnectionImpl.command P .string cmd).store
    reply).awaitResume ↔ _
  rw [awaitResume_command]
  -- neither decoder throws
  show SameResult (.returned ((dealRedisReplyStrings reply).map RetVal.strings))
    (.returned ((dealRedisReplyString reply).map
      (@RetVal.string double))) ↔ _
  constructor
  · rintro (⟨ret, hs, hc⟩ | ⟨hs, -⟩)
    · injection hs with hs
      injection hc with hc
      exact congrArg Except.ok (hs.trans hc.symm)
    · exact absurd ⟨_, rfl⟩ hs
  · intro h
    have heq : (dealRedisReplyStrings reply).map RetVal.strings
        = (dealRedisReplyString reply).map (@RetVal.string double) :=
      Except.ok.inj h
    exact Or.inl ⟨_, rfl, congrArg CallResult.returned heq.symm⟩

/-- A `%` in the key: `redisFormatCommand` gives no length. -/
example : ¬ Submitted hiredisFormat .lost (lit "get %y") := by decide

section agree

variable (R : RedisFormat) {P : Platform double} {c : Call double}
  (o : ExchangeOutcome) {ret : RetType} {cmd : Bytes}

theorem sync_call_command (h : SyncConnection.request P c = .command ret cmd) :
    SyncConnection.sent P c = some cmd
      ∧ SyncConnection.call R P c o
        = SyncConnectionImpl.command P ret
            (SyncConnectionImpl.redisCommand R o cmd) := by
  simp only [SyncConnection.call, SyncConnection.sent, SyncConnection.onReply, h,
    and_self]

theorem sync_call_scan (h : SyncConnection.request P c = .scan cmd) :
    SyncConnection.sent P c = some cmd
      ∧ SyncConnection.call R P c o
        = (Scans.SyncConnectionImpl.sendScanCmd cmd
            (SyncConnectionImpl.redisCommand R o cmd)).map .scan := by
  simp only [SyncConnection.call, SyncConnection.sent, SyncConnection.onReply, h,
    and_self]

theorem coro_call_command (h : CoroConnection.request P c = .command ret cmd) :
    CoroConnection.sent P c = some cmd
      ∧ CoroConnection.call R P c o
        = if Submitted R o cmd then
            (CoroConnectionImpl.command P ret cmd).coAwait o.reply
          else .unsubmitted := by
  have hsent : CoroConnection.sent P c = some cmd := by
    rw [CoroConnection.sent, CoroConnection.awaiter, h]
    rfl
  simp only [CoroConnection.call, CoroConnection.onReply, CoroConnection.awaiter,
    hsent, h, and_self]

theorem coro_call_scan (h : CoroConnection.request P c = .scan cmd) :
    CoroConnection.sent P c = some cmd
      ∧ CoroConnection.call R P c o
        = if Submitted R o cmd then
            ((Scans.CoroConnectionImpl.sendScanCmd cmd).map .scan).coAwait o.reply
          else .unsubmitted := by
  have hsent : CoroConnection.sent P c = some cmd := by
    rw [CoroConnection.sent, CoroConnection.awaiter, h]
    rfl
  simp only [CoroConnection.call, CoroConnection.onReply, CoroConnection.awaiter,
    hsent, h, and_self]

/-- An early exit: `nullopt` in one class, and an empty awaiter in the
    other. -/
theorem not_agree_of_nothing (hs : SyncConnection.request P c = .nothing ret)
    (hc : CoroConnection.request P c = .nothing ret) : ¬ Agree R P c o := by
  have hcall : SyncConnection.call R P c o = .returned none := by
    simp only [SyncConnection.call, SyncConnection.sent, SyncConnection.onReply, hs]
  have hcall' : CoroConnection.call R P c o = .terminated := by
    simp only [CoroConnection.call, CoroConnection.sent, CoroConnection.onReply,
      CoroConnection.awaiter, hc]
    rfl
  rw [Agree, hcall, hcall']
  rintro ⟨-, ⟨ret, -, hc⟩ | ⟨hs, -⟩⟩
  · exact nomatch hc
  · exact hs ⟨none, rfl⟩

/-- A call that calls itself sends nothing and does not return, in either
    class. -/
theorem agree_of_itself (hs : SyncConnection.request P c = .itself)
    (hc : CoroConnection.request P c = .itself) :
    CoroConnection.sent P c = none ∧ Agree R P c o := by
  have hsent : CoroConnection.sent P c = none := by
    rw [CoroConnection.sent, CoroConnection.awaiter, hc]
    rfl
  have hcall : SyncConnection.call R P c o = .neverReturns := by
    simp only [SyncConnection.call, SyncConnection.sent, SyncConnection.onReply, hs]
  have hcall' : CoroConnection.call R P c o = .neverReturns := by
    simp only [CoroConnection.call, hsent, CoroConnection.onReply,
      CoroConnection.awaiter, hc]
  refine ⟨hsent, ?_, ?_⟩
  · rw [hsent, SyncConnection.sent, hs]
  · rw [hcall, hcall']
    exact Or.inr ⟨nofun, nofun⟩

/-- A command that hiredis does not take: the synchronous class goes on with a
    null reply, and the coroutine is not resumed. -/
theorem sameResult_submitted {α : Type} (a b : Option RedisReply → CallResult α)
    (cmd : Bytes) :
    SameResult (a (SyncConnectionImpl.redisCommand R o cmd))
        (if Submitted R o cmd then b o.reply else .unsubmitted)
      ↔ if Submitted R o cmd then SameResult (a o.reply) (b o.reply)
        else ¬ (a none).Returns := by
  rw [SyncConnectionImpl.redisCommand]
  by_cases hsub : Submitted R o cmd
  · rw [if_pos hsub, if_pos hsub, if_pos hsub]
  · rw [if_neg hsub, if_neg hsub, if_neg hsub]
    constructor
    · rintro (⟨ret, -, hc⟩ | ⟨hs, -⟩)
      · exact nomatch hc
      · exact hs
    · intro hs
      exact Or.inr ⟨hs, nofun⟩

/-- Where the calls have a command each, and the same, the classes agree iff it
    is taken and the two decoders do the same with what comes back. -/
theorem agree_iff_of_command {ret' : RetType}
    (hs : SyncConnection.request P c = .command ret cmd)
    (hc : CoroConnection.request P c = .command ret' cmd) :
    Agree R P c o
      ↔ Submitted R o cmd
        ∧ SameResult (SyncConnectionImpl.command P ret o.reply)
          ((CoroConnectionImpl.command P ret' cmd).coAwait o.reply) := by
  obtain ⟨hsent, hcall⟩ := sync_call_command R o hs
  obtain ⟨hsent', hcall'⟩ := coro_call_command R o hc
  rw [Agree, hsent, hsent', hcall, hcall', and_iff_right rfl,
    sameResult_submitted R o (SyncConnectionImpl.command P ret)]
  by_cases hsub : Submitted R o cmd
  · rw [if_pos hsub, and_iff_right hsub]
  · rw [if_neg hsub]
    refine iff_of_false (not_not_intro ⟨none, ?_⟩) fun h => hsub h.1
    rw [SyncConnectionImpl.command, dealRedisReply_null]
    rfl

/-- A scan agrees iff a reply comes, or hiredis does not take the command: then
    neither class returns. -/
theorem agree_iff_of_scan (hs : SyncConnection.request P c = .scan cmd)
    (hc : CoroConnection.request P c = .scan cmd) :
    Agree R P c o ↔ (Submitted R o cmd → o.reply ≠ none) := by
  obtain ⟨hsent, hcall⟩ := sync_call_scan R o hs
  obtain ⟨hsent', hcall'⟩ := coro_call_scan R o hc
  rw [Agree, hsent, hsent', hcall, hcall', and_iff_right rfl,
    sameResult_submitted R o fun reply =>
      (Scans.SyncConnectionImpl.sendScanCmd cmd reply).map RetVal.scan]
  by_cases hsub : Submitted R o cmd
  · rw [if_pos hsub, sameResult_scan]
    exact (imp_iff_right hsub).symm
  · rw [if_neg hsub]
    refine iff_of_true ?_ fun h => absurd h hsub
    rintro ⟨ret, hret⟩
    exact nomatch hret

/-- **AGREEMENT, EXACTLY**: the two classes agree on a call and an outcome iff
    the call is not an early exit on an empty key list, hiredis takes the
    command unless it is a scan, a scan whose command is taken gets a reply,
    and the reply to an `hmset` is none that either of its two result types
    accepts. -/
theorem classes_agree_iff (R : RedisFormat) (P : Platform double)
    (c : Call double) (o : ExchangeOutcome) :
    Agree R P c o
      ↔ c.earlyExit = false
        ∧ (c.isScan = false → ∀ cmd, CoroConnection.sent P c = some cmd →
            Submitted R o cmd)
        ∧ (c.isScan = true → ∀ cmd, CoroConnection.sent P c = some cmd →
            Submitted R o cmd → o.reply ≠ none)
        ∧ (c.isHmset = true →
            ∀ r ∈ o.reply, r.type ∉ [.STRING, .STATUS, .ARRAY]) := by
  have hfits := request_coro_fits P c
  cases h : c.isHmset with
  | true =>
      cases c with
      | hmset key field value args =>
          have hreq : CoroConnection.request P (.hmset key field value args)
            = .command .string (hmsetText key field value args) := rfl
          obtain ⟨hsent, -⟩ := coro_call_command R o hreq
          rw [agree_iff_of_command R o rfl hreq, sameResult_hmset, hsent]
          constructor
          · rintro ⟨hsub, hr⟩
            exact ⟨rfl, fun _ _ hcmd => Option.some.inj hcmd ▸ hsub, nofun,
              fun _ => hr⟩
          · rintro ⟨-, hsub, -, hr⟩
            exact ⟨hsub rfl _ rfl, hr rfl⟩
      | _ => exact nomatch h
  | false =>
      have hsync := request_sync_eq_coro P h
      rw [and_iff_left (fun ht : false = true => nomatch ht)]
      cases hreq : CoroConnection.request P c with
      | nothing ret =>
          rw [hreq] at hfits hsync
          refine iff_of_false (not_agree_of_nothing R o hsync hreq) fun hc => ?_
          rw [hfits.1] at hc
          exact nomatch hc.1
      | command ret cmd =>
          rw [hreq] at hfits hsync
          obtain ⟨hsent, -⟩ := coro_call_command R o hreq
          rw [agree_iff_of_command R o hsync hreq, hsent,
            and_iff_left (sameResult_command P ret cmd o.reply)]
          constructor
          · intro hsub
            refine ⟨hfits.1, fun _ _ hcmd => Option.some.inj hcmd ▸ hsub, ?_⟩
            intro hscan
            rw [hfits.2.1] at hscan
            exact nomatch hscan
          · rintro ⟨-, hsub, -⟩
            exact hsub hfits.2.1 cmd rfl
      | scan cmd =>
          rw [hreq] at hfits hsync
          obtain ⟨hsent, -⟩ := coro_call_scan R o hreq
          rw [agree_iff_of_scan R o hsync hreq, hsent]
          constructor
          · intro hr
            refine ⟨hfits.1, fun hscan => ?_,
              fun _ _ hcmd => Option.some.inj hcmd ▸ hr⟩
            rw [hfits.2.1] at hscan
            exact nomatch hscan
          · rintro ⟨-, -, hr⟩
            exact hr hfits.2.1 cmd rfl
      | itself =>
          rw [hreq] at hfits hsync
          obtain ⟨hsent, hagree⟩ := agree_of_itself R o hsync hreq
          rw [hsent]
          exact iff_of_true hagree ⟨hfits.1, fun _ _ => nofun, fun _ _ => nofun⟩

end agree

/-- A platform for examples: a `double` is a text, and what `stod` reads is
    written as a fraction. -/
def textPlatform : Platform Bytes where
  longBits := 64
  erange _ := true
  nearest v := (if v.neg then lit "-" else []) ++ match v.magnitude with
    | .number q => decimal q.num.toNat ++ lit "/" ++ decimal q.den
    | .infinity => lit "inf"
    | .nan => lit "nan"
  fmtDouble := id
  toStringDouble := id

/-- The reply of a successful `hmset` is a value in one class only. -/
theorem hmset_disagrees :
    ¬ Agree hiredisFormat textPlatform (.hmset (lit "k") (lit "f") (lit "v") [])
      (.answered ⟨.STATUS, 0, lit "OK", []⟩) := by
  rintro ⟨-, ⟨ret, hs, hc⟩ | ⟨hs, -⟩⟩
  · injection hs with hs
    injection hc with hc
    exact nomatch hs.trans hc.symm
  · exact hs ⟨none, rfl⟩
/-! ## `await_resume` -/

/-- The awaiter of `command` fails only where `stod` or `stol` does. -/
theorem command_returns_iff (P : Platform double) (ret : RetType) (cmd : Bytes)
    (stored : Option RedisReply)
    (hbool : ∀ r ∈ stored, r.type = .BOOL → r.str = []) :
    ((CoroConnectionImpl.command P ret cmd).store stored).awaitResume.Returns
      ↔ (ret = .double →
            ∀ r ∈ stored, r.type = .DOUBLE → P.DoubleText r.str)
        ∧ (ret = .bool → ∀ r ∈ stored, r.type ≠ .BOOL) := by
  rw [awaitResume_command, CallResult.returns_ofNoexcept, dealRedisReply_ok_iff]
  cases ret with
  | double => simp [RetType.accepts, Platform.Parses]
  | bool =>
      -- `stol` throws on the empty string of a BOOL reply
      have hno : ¬ Readable P.longBits [] := by
        rw [← stoInt_ok_iff, stoInt_empty]
        rintro ⟨v, hv⟩
        cases hv
      have hparses : (∀ r ∈ stored, r.type ∈ RetType.bool.accepts →
          P.Parses .bool r.str) ↔ ∀ r ∈ stored, r.type ≠ .BOOL := by
        refine forall₂_congr fun r hr => ⟨fun h ht => hno ?_, fun h ht => ?_⟩
        · have hread : Readable P.longBits r.str := h (List.mem_singleton.mpr ht)
          rw [hbool r hr ht] at hread
          exact hread
        · exact absurd (List.mem_singleton.mp ht) h
      rw [hparses]
      simp
  | string => simp [Platform.Parses]
  | strings => simp [Platform.Parses]
  | uint64 => simp [Platform.Parses]
  | other => simp [Platform.Parses]

/-- The awaiter of `send_scan_cmd` fails only where `stoll` does. -/
theorem scan_returns_iff (cmd : Bytes) (stored : Option RedisReply) :
    (((Scans.CoroConnectionImpl.sendScanCmd cmd).map RetVal.scan :
        CommandAwaiter (RetVal double)).store stored).awaitResume.Returns
      ↔ ∀ r ∈ stored, ∀ text, CursorText r text → Readable 64 text := by
  rw [awaitResume_scan, CallResult.returns_map]
  cases stored with
  | none =>
      have hnone : (sendScanCmd .coro cmd none).Returns := ⟨none, rfl⟩
      simp [hnone]
  | some r =>
      have hop : sendScanCmd .coro cmd (some r)
          = .ofNoexcept (Scans.CoroConnectionImpl.scanReplyOp r) :=
        CommandAwaiter.coAwait_ofCallbacks ..
      rw [hop, CallResult.returns_ofNoexcept, scanReplyOp_ok_iff]
      simp

/-- The empty awaiter never returns. -/
theorem not_empty_returns (stored : Option RedisReply) :
    ¬ ((CommandAwaiter.empty : CommandAwaiter (RetVal double)).store
      stored).awaitResume.Returns := by
  cases stored <;> exact nofun

/-- **NOEXCEPT, EXACTLY**: with BOOL replies that carry an empty string,
    `await_resume` of the awaiter of a call returns iff the call is not an
    early exit, the text of a DOUBLE reply to a `double` call starts with a
    numeral in the range of `double`, the reply to a `bool` call is not BOOL,
    and the cursor text of a scan reply is readable as a `long long`. -/
theorem await_resume_iff (P : Platform double) (c : Call double)
    (aw : CommandAwaiter (RetVal double)) (stored : Option RedisReply)
    (haw : CoroConnection.awaiter P c = some aw)
    (hbool : ∀ r ∈ stored, r.type = .BOOL → r.str = []) :
    (aw.store stored).awaitResume.Returns
      ↔ c.earlyExit = false
        ∧ ((CoroConnection.request P c).ret = .double →
            ∀ r ∈ stored, r.type = .DOUBLE → P.DoubleText r.str)
        ∧ ((CoroConnection.request P c).ret = .bool →
            ∀ r ∈ stored, r.type ≠ .BOOL)
        ∧ (c.isScan = true →
            ∀ r ∈ stored, ∀ text, CursorText r text → Readable 64 text) := by
  have hfits := request_coro_fits P c
  rw [CoroConnection.awaiter] at haw
  cases hreq : CoroConnection.request P c with
  | nothing ret =>
      rw [hreq] at hfits haw
      obtain rfl := Option.some.inj haw
      simp [not_empty_returns, hfits.1]
  | command ret cmd =>
      rw [hreq] at hfits haw
      obtain rfl := Option.some.inj haw
      rw [command_returns_iff P ret cmd stored hbool, Request.ret]
      simp [hfits.1, hfits.2.1]
  | scan cmd =>
      rw [hreq] at hfits haw
      obtain rfl := Option.some.inj haw
      rw [scan_returns_iff]
      simp [hfits.1, hfits.2.1, Request.ret]
  | itself =>
      rw [hreq] at haw
      cases haw

/-- A DOUBLE reply to `command<double>` whose text is no numeral. -/
example : ((CoroConnectionImpl.command textPlatform .double (lit "eval")).store
    (some ⟨.DOUBLE, 0, lit "abc", []⟩)).awaitResume = .terminated := by decide

/-- The condition holds of a `get` that found a string. -/
theorem await_resume_iff_get :
    ((CoroConnectionImpl.command textPlatform .string (lit "get k")).store
      (some (bulk (lit "v")))).awaitResume.Returns := by
  refine (await_resume_iff textPlatform (.get (lit "k"))
    (CoroConnectionImpl.command textPlatform .string (lit "get k"))
    (some (bulk (lit "v"))) rfl ?_).mpr ⟨rfl, nofun, nofun, nofun⟩
  rintro r hr ht
  obtain rfl := Option.some.inj hr
  exact nomatch ht

/-- Awaiting `bzpopmax` of no keys ends the process. -/
theorem empty_bzpopmax_terminates :
    ∃ aw, CoroConnection.awaiter textPlatform (.bzpopmax []) = some aw
      ∧ (aw.store none).awaitResume = .terminated
      ∧ ¬ (aw.store none).awaitResume.Returns :=
  ⟨.empty, rfl, rfl, nofun⟩

/-! ## Successful replies -/

/-- The kinds of successful replies the commands document for RESP2. -/
inductive ReplyKind where
  | status | integer | bulkString | bulkStrings
  deriving DecidableEq

/-- The type tag of a reply of the kind. -/
def ReplyKind.tag : ReplyKind → ReplyType
  | .status => .STATUS
  | .integer => .INTEGER
  | .bulkString => .STRING
  | .bulkStrings => .ARRAY

/-- The documented reply of the command the method stands for; the scan family
    and `command`, which are not decoded at a type the method fixes, have
    none. -/
def Call.documented : Call double → Option ReplyKind
  | .command _ _ => none
  -- connection and server commands
  | .auth _ | .authUser _ _ | .ping | .quit | .select _ | .swapdb _ _ => some .status
  | .echo _ | .pingMsg _ => some .bulkString
  | .bgrewriteaof | .bgsave | .flushall _ | .flushdb _ | .save => some .status
  | .info | .infoSection _ => some .bulkString
  | .dbsize | .lastsave => some .integer
  -- key commands
  | .del _ | .exists_ _ | .expire _ _ | .expireat _ _ | .move _ _ | .persist _
  | .pexpire _ _ | .pexpireat _ _ | .pttl _ | .renamenx _ _ | .touch _ | .ttl _
  | .unlink _ | .wait _ _ => some .integer
  | .rename _ _ | .restore _ _ _ _ | .type _ => some .status
  | .dump _ | .randomkey => some .bulkString
  -- string commands
  | .append _ _ | .bitcount _ _ _ | .bitop _ _ | .bitpos _ _ _ _ | .decr _
  | .decrby _ _ | .getbit _ _ | .incr _ | .incrby _ _ | .msetnx _ | .setnx _ _
  | .setrange _ _ _ | .strlen _ => some .integer
  | .mset _ | .psetex _ _ _ | .set _ _ _ _ _ | .setex _ _ _ => some .status
  | .get _ | .getrange _ _ _ | .getset _ _ | .incrbyfloat _ _ => some .bulkString
  | .mget _ => some .bulkStrings
  -- list commands
  | .llen _ | .lpush _ _ | .lpushMany _ _ | .lpushx _ _ | .lrem _ _ _
  | .rpush _ _ _ | .rpushx _ _ => some .integer
  | .lset _ _ _ | .ltrim _ _ _ => some .status
  | .lpop _ | .rpop _ | .rpoplpush _ _ => some .bulkString
  | .lrange _ _ _ => some .bulkStrings
  -- hash commands
  | .hdel _ _ _ | .hexists _ _ | .hincrby _ _ _ | .hlen _ | .hset _ _ _ _
  | .hsetnx _ _ _ | .hstrlen _ _ => some .integer
  | .hmset _ _ _ _ => some .status
  | .hget _ _ | .hincrbyfloat _ _ _ => some .bulkString
  | .hgetall _ | .hkeys _ | .hmget _ _ _ | .hvals _ => some .bulkStrings
  -- set commands
  | .sadd _ _ _ | .scard _ | .sdiffstore _ _ _ | .sinterstore _ _ _
  | .sismember _ _ | .smove _ _ _ | .srem _ _ _ | .sunionstore _ _ _ =>
      some .integer
  | .srandmember _ => some .bulkString
  | .sdiff _ _ | .sinter _ _ | .smembers _ | .spop _ _ | .srandmemberCount _ _
  | .sunion _ _ => some .bulkStrings
  -- sorted set commands
  | .zadd _ _ _ update | .zaddMany _ _ update =>
      -- with INCR the reply is the new score
      some (if update = .INCR then .bulkString else .integer)
  | .zcard _ | .zcount _ _ _ | .zlexcount _ _ _ | .zrank _ _ | .zrem _ _ _
  | .zremrangebylex _ _ _ | .zremrangebyrank _ _ _ | .zremrangebyscore _ _ _
  | .zrevrank _ _ | .zunionstore _ _ _ | .zunionstoreWeights _ _ _ => some .integer
  | .zincrby _ _ _ | .zscore _ _ => some .bulkString
  | .bzpopmax _ _ | .bzpopmin _ _ | .zpopmax _ _ | .zpopmin _ | .zrange _ _ _
  | .zrangebylex _ _ _ | .zrangebyscore _ _ _ | .zrevrange _ _ _ _
  | .zrevrangebylex _ _ _ | .zrevrangebyscore _ _ _ => some .bulkStrings
  -- hyperloglog commands
  | .pfadd _ _ => some .integer
  -- the scan family
  | .scanCount _ _ | .scan _ _ _ | .hscanCount _ _ _ | .hscan _ _ _ _
  | .sscanCount _ _ _ | .sscan _ _ _ _ | .zscanCount _ _ _ | .zscan _ _ _ _ => none

/-- The methods declared with a result type that their command's reply does not
    have. -/
def Call.misdeclared (cls : ConnClass) : Call double → Bool
  | .msetnx _ | .sunion _ _ => true
  | .zrevrange _ _ _ _ | .zrevrangebylex _ _ _ | .zrevrangebyscore _ _ _ => true
  | .zscore _ _ | .zincrby _ _ _ | .hincrbyfloat _ _ _ => true
  | .zadd _ _ _ update | .zaddMany _ _ update => decide (update = .INCR)
  | .hmset _ _ _ _ => decide (cls = .sync)
  | _ => false

/-- A reply of a documented kind is decoded iff its tag is accepted: the kinds
    never reach `stod` or `stol`. -/
theorem present_iff_tag (P : Platform double) (ret : RetType) {kind : ReplyKind}
    {r : RedisReply} (hr : r.type = kind.tag) :
    (∃ v, dealRedisReply P ret (some r) = .ok (some v))
      ↔ kind.tag ∈ ret.accepts := by
  rw [dealRedisReply_present, hr]
  refine and_iff_left_of_imp fun h => ?_
  cases ret with
  | double => cases kind <;> exact absurd h (by decide)
  | bool => cases kind <;> exact absurd h (by decide)
  | _ => trivial

/-- The declared result types of the coroutine class against the documented
    replies, method by method. -/
theorem coro_accepts_tag (P : Platform double) {c : Call double} {kind : ReplyKind}
    (h : c.documented = some kind) :
    decide (kind.tag ∈ (CoroConnection.request P c).ret.accepts)
      = !c.misdeclared .coro := by
  cases c with
  | zadd key member score update =>
      cases update <;> cases h <;> rfl
  | zaddMany key kvs update =>
      cases update <;> cases h <;> rfl
  -- the result type does not depend on the early exit
  | zunionstore destination keys aggregate =>
      cases keys <;> cases h <;> rfl
  | zunionstoreWeights destination kvs aggregate =>
      cases kvs <;> cases h <;> rfl
  | bzpopmax keys timeout =>
      cases keys <;> cases h <;> rfl
  | bzpopmin keys timeout =>
      cases keys <;> cases h <;> rfl
  -- without a documented reply there is nothing left to show
  | _ => cases h <;> rfl

/-- The same of either class. -/
theorem accepts_tag (P : Platform double) (cls : ConnClass) {c : Call double}
    {kind : ReplyKind} (h : c.documented = some kind) :
    kind.tag ∈ (request P cls c).ret.accepts ↔ c.misdeclared cls = false := by
  have hcoro : kind.tag ∈ (CoroConnection.request P c).ret.accepts
      ↔ c.misdeclared .coro = false := by
    have htag := coro_accepts_tag P h
    cases hm : c.misdeclared .coro with
    | false =>
        rw [hm] at htag
        exact iff_of_true (of_decide_eq_true htag) rfl
    | true =>
        rw [hm] at htag
        exact iff_of_false (of_decide_eq_false htag) nofun
  cases cls with
  | coro => exact hcoro
  | sync =>
      show kind.tag ∈ (SyncConnection.request P c).ret.accepts ↔ _
      cases hh : c.isHmset with
      | true =>
          cases c with
          | hmset =>
              obtain rfl := Option.some.inj h
              have hno : ReplyType.STATUS ∉ RetType.strings.accepts := by decide
              exact iff_of_false hno nofun
          | _ => exact nomatch hh
      | false =>
          rw [request_sync_eq_coro P hh, hcoro]
          cases c with
          | hmset => exact nomatch hh
          | _ => exact Iff.rfl

/-- **ACCEPTED REPLIES, EXACTLY**: a successful reply of the documented kind is
    decoded to a value iff the method is not one of the misdeclared ones, for
    every length and content of the reply. -/
theorem accepts_iff (P : Platform double) (cls : ConnClass) (c : Call double)
    (kind : ReplyKind) (r : RedisReply) (hc : c.documented = some kind)
    (hr : r.type = kind.tag) :
    (∃ v, dealRedisReply P (request P cls c).ret (some r) = .ok (some v))
      ↔ c.misdeclared cls = false := by
  rw [present_iff_tag P _ hr]
  exact accepts_tag P cls hc

/-- A status reply to `set` is a value. -/
theorem accepts_iff_set :
    ∃ v, dealRedisReply textPlatform
      (request textPlatform .coro (.set (lit "k") (.string (lit "v")))).ret
      (some ⟨.STATUS, 0, lit "OK", []⟩) = .ok (some v) :=
  (accepts_iff textPlatform .coro (.set (lit "k") (.string (lit "v"))) .status
    ⟨.STATUS, 0, lit "OK", []⟩ rfl rfl).mpr rfl

/-- The array that `sunion` is answered with is not. -/
theorem sunion_is_not_accepted :
    (Call.sunion (lit "k") [] : Call Bytes).documented = some .bulkStrings
    ∧ ¬ ∃ v, dealRedisReply textPlatform
        (request textPlatform .coro (.sunion (lit "k") [])).ret
        (some ⟨.ARRAY, 0, [], [bulk (lit "m")]⟩) = .ok (some v) := by
  refine ⟨rfl, ?_⟩
  rintro ⟨v, hv⟩
  have hrej : ReplyType.ARRAY ∉ RetType.uint64.accepts := by decide
  have hnone := dealRedisReply_reject textPlatform
    (r := ⟨.ARRAY, 0, [], [bulk (lit "m")]⟩) hrej
  exact nomatch hv.symm.trans hnone

end Methods
