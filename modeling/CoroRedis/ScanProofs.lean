import CoroRedis.CommandTextProofs
import CoroRedis.DecodeProofs

/-! # The scan family

    The command texts of `scan`, `hscan`, `sscan` and `zscan`, the reply
    callback of `send_scan_cmd`, and what the two implementation classes make
    of it: the synchronous one hands a null reply on to the callback, the
    coroutine one does not, and there an exception ends the process.

    `send_scan_cmd_iff` says for which outcomes of the exchange a call reports
    what a scan should report. -/

namespace Scans

open CoroBytes CommandText Decoding RedisReplies

/-! ## Command texts -/

namespace CoroConnectionImpl

/-- What the four methods append behind the verb and the key. -/
def appendScanArgs (cmd : Bytes) (cursor : UInt64) (pattern : Bytes)
    (count : UInt64) : Bytes :=
  let cmd := cmd ++ lit " " ++ decimal cursor.toNat
  let cmd := if pattern ≠ [] then cmd ++ lit " MATCH " ++ pattern else cmd
  if count > 0 then cmd ++ lit " COUNT " ++ decimal count.toNat else cmd

/-- `coro_connection_impl::scan`, up to `send_scan_cmd`. -/
def scan (cursor : UInt64) (pattern : Bytes) (count : UInt64) : Bytes :=
  appendScanArgs (lit "scan") cursor pattern count

def hscan (key : Bytes) (cursor : UInt64) (pattern : Bytes) (count : UInt64) :
    Bytes :=
  appendScanArgs (lit "hscan" ++ lit " " ++ key) cursor pattern count

def sscan (key : Bytes) (cursor : UInt64) (pattern : Bytes) (count : UInt64) :
    Bytes :=
  appendScanArgs (lit "sscan" ++ lit " " ++ key) cursor pattern count

def zscan (key : Bytes) (cursor : UInt64) (pattern : Bytes) (count : UInt64) :
    Bytes :=
  appendScanArgs (lit "zscan" ++ lit " " ++ key) cursor pattern count

end CoroConnectionImpl

namespace SyncConnectionImpl

/-- What the four methods append behind the verb and the key. -/
def appendScanArgs (cmd : Bytes) (cursor : UInt64) (pattern : Bytes)
    (count : UInt64) : Bytes :=
  let cmd := cmd ++ lit " " ++ decimal cursor.toNat
  let cmd := if pattern ≠ [] then cmd ++ lit " MATCH " ++ pattern else cmd
  if count > 0 then cmd ++ lit " COUNT " ++ decimal count.toNat else cmd

/-- `sync_connection_impl::scan`, up to `send_scan_cmd`. -/
def scan (cursor : UInt64) (pattern : Bytes) (count : UInt64) : Bytes :=
  appendScanArgs (lit "scan") cursor pattern count

def hscan (key : Bytes) (cursor : UInt64) (pattern : Bytes) (count : UInt64) :
    Bytes :=
  appendScanArgs (lit "hscan" ++ lit " " ++ key) cursor pattern count

def sscan (key : Bytes) (cursor : UInt64) (pattern : Bytes) (count : UInt64) :
    Bytes :=
  appendScanArgs (lit "sscan" ++ lit " " ++ key) cursor pattern count

def zscan (key : Bytes) (cursor : UInt64) (pattern : Bytes) (count : UInt64) :
    Bytes :=
  appendScanArgs (lit "zscan" ++ lit " " ++ key) cursor pattern count

end SyncConnectionImpl

/-! ## `send_scan_cmd` -/

/-- The string pushed for one element of the batch. -/
def elementText (e : RedisReply) : Bytes :=
  if e.type ≠ .STRING then [] else e.str

namespace CoroConnectionImpl

/-- The reply callback of `send_scan_cmd`; `ret` starts as cursor 0 and no
    elements, and a failed assertion returns it. -/
def scanReplyOp (reply : RedisReply) : Except StdException (Option ScanRet) :=
  if reply.type ≠ .ARRAY then .ok (some (0, []))
  else match reply.element with
    | [elem_0, elem_1] =>
        if elem_0.type ≠ .STRING then .ok (some (0, []))
        else if elem_0.str = [] then .ok (some (0, []))
        else match stoll elem_0.str with
          | .error e => .error e
          | .ok first =>
              if elem_1.type ≠ .ARRAY then .ok (some (first.toUInt64, []))
              else .ok (some (first.toUInt64, elem_1.element.map elementText))
    | _ => .ok (some (0, []))

/-- The resume callback of `command` with an operation: a missing reply is
    `nullopt`. -/
def resumeWithOp {α : Type}
    (op : RedisReply → Except StdException (Option α)) :
    Option RedisReply → Except StdException (Option α)
  | none => .ok none
  | some reply => op reply

/-- `coro_connection_impl::send_scan_cmd`. -/
def sendScanCmd (cmd : Bytes) : CommandAwaiter ScanRet :=
  CommandAwaiter.ofCallbacks cmd (resumeWithOp scanReplyOp)

end CoroConnectionImpl

namespace SyncConnectionImpl

/-- The reply callback of `send_scan_cmd`. -/
def scanReplyOp (reply : RedisReply) : Except StdException (Option ScanRet) :=
  if reply.type ≠ .ARRAY then .ok (some (0, []))
  else match reply.element with
    | [elem_0, elem_1] =>
        if elem_0.type ≠ .STRING then .ok (some (0, []))
        else if elem_0.str = [] then .ok (some (0, []))
        else match stoll elem_0.str with
          | .error e => .error e
          | .ok first =>
              if elem_1.type ≠ .ARRAY then .ok (some (first.toUInt64, []))
              else .ok (some (first.toUInt64, elem_1.element.map elementText))
    | _ => .ok (some (0, []))

/-- `command` with an operation that starts by reading its argument. -/
def commandOp {α : Type} (op : RedisReply → Except StdException (Option α))
    (reply : Option RedisReply) : CallResult α :=
  match reply with
  -- the operation gets whatever `redisCommand` returned
  | none => .nullDereference
  | some reply => CallResult.ofExcept (op reply)

/-- `sync_connection_impl::send_scan_cmd`, for the exchange that ends with
    `reply`. -/
def sendScanCmd (_cmd : Bytes) (reply : Option RedisReply) : CallResult ScanRet :=
  commandOp scanReplyOp reply

end SyncConnectionImpl

/-- `send_scan_cmd` of either class; the coroutine class is awaited. -/
def sendScanCmd (cls : ConnClass) (cmd : Bytes) (reply : Option RedisReply) :
    CallResult ScanRet :=
  match cls with
  | .sync => SyncConnectionImpl.sendScanCmd cmd reply
  | .coro => (CoroConnectionImpl.sendScanCmd cmd).coAwait reply

/-! ## What a scan should report -/

/-- The shape of a page: an array of a string and an array. -/
def IsPage (r : RedisReply) (text : Bytes) (inner : List RedisReply) : Prop :=
  r.type = .ARRAY ∧ ∃ elem_0 elem_1, r.element = [elem_0, elem_1]
    ∧ elem_0.type = .STRING ∧ elem_0.str = text
    ∧ elem_1.type = .ARRAY ∧ elem_1.element = inner

/-- The reply is a page whose cursor is a decimal below `bound`, and `page` is
    that cursor with one string per inner element. -/
def PageBelow (bound : Nat) (reply : Option RedisReply) (page : ScanRet) : Prop :=
  ∃ r text inner, reply = some r ∧ IsPage r text inner
    ∧ DecimalBelow bound text
    ∧ page = (UInt64.ofNat (ascii.value text), inner.map elementText)

/-- The call reports a page iff the reply is one with a 64-bit cursor, and
    nothing otherwise. -/
def ReportsPages (res : CallResult ScanRet) (reply : Option RedisReply) : Prop :=
  ∃ ret, res = .returned ret
    ∧ ∀ page, ret = some page ↔ PageBelow (2 ^ 64) reply page

/-- The two classes read the reply with the same code. -/
theorem scanReplyOp_eq :
    SyncConnectionImpl.scanReplyOp = CoroConnectionImpl.scanReplyOp := rfl

/-- The text the callback hands to `stoll`. -/
def CursorText (r : RedisReply) (text : Bytes) : Prop :=
  r.type = .ARRAY ∧ text ≠ [] ∧ ∃ elem_0 elem_1, r.element = [elem_0, elem_1]
    ∧ elem_0.type = .STRING ∧ elem_0.str = text

/-- The callback reports a present pair, unless `stoll` throws; a missing value
    it never reports. -/
theorem scanReplyOp_cases (r : RedisReply) :
    (∃ page, CoroConnectionImpl.scanReplyOp r = .ok (some page)
        ∧ ∀ text, CursorText r text → Readable 64 text)
      ∨ ∃ text e, CursorText r text ∧ ¬ Readable 64 text
        ∧ CoroConnectionImpl.scanReplyOp r = .error e := by
  rw [CoroConnectionImpl.scanReplyOp]
  by_cases ht : r.type = .ARRAY
  swap
  · refine Or.inl ⟨(0, []), if_pos ht, ?_⟩
    rintro text ⟨harr, -⟩
    exact absurd harr ht
  rw [if_neg (not_not_intro ht)]
  split
  next e0 e1 hel =>
    have hcursor : ∀ text, CursorText r text →
        e0.type = .STRING ∧ e0.str ≠ [] ∧ text = e0.str := by
      rintro text ⟨-, hne, x0, x1, hx, hx0, rfl⟩
      rw [hel] at hx
      injection hx with h0
      rw [h0]
      exact ⟨hx0, hne, rfl⟩
    by_cases ht0 : e0.type = .STRING
    swap
    · refine Or.inl ⟨(0, []), if_pos ht0, ?_⟩
      intro text h
      exact absurd (hcursor text h).1 ht0
    rw [if_neg (not_not_intro ht0)]
    by_cases hne : e0.str = []
    · refine Or.inl ⟨(0, []), if_pos hne, ?_⟩
      intro text h
      exact absurd hne (hcursor text h).2.1
    rw [if_neg hne]
    cases hs : stoll e0.str with
    | error e =>
        refine Or.inr ⟨e0.str, e, ⟨ht, hne, e0, e1, hel, ht0, rfl⟩, ?_, rfl⟩
        intro hr
        obtain ⟨n, hn⟩ := stoll_ok_iff.mpr hr
        rw [hs] at hn
        exact nomatch hn
    | ok first =>
        have hr : Readable 64 e0.str := stoll_ok_iff.mp ⟨first, hs⟩
        have hread : ∀ text, CursorText r text → Readable 64 text := by
          intro text h
          exact (hcursor text h).2.2 ▸ hr
        by_cases ht1 : e1.type = .ARRAY
        · exact Or.inl ⟨_, if_neg (not_not_intro ht1), hread⟩
        · exact Or.inl ⟨_, if_pos ht1, hread⟩
  next hno =>
    refine Or.inl ⟨(0, []), rfl, ?_⟩
    rintro text ⟨-, -, e0, e1, hel, -⟩
    exact absurd hel (hno e0 e1)

/-- The callback throws iff `stoll` cannot read the text it is handed. -/
theorem scanReplyOp_ok_iff (r : RedisReply) :
    (∃ ret, CoroConnectionImpl.scanReplyOp r = .ok ret)
      ↔ ∀ text, CursorText r text → Readable 64 text := by
  rcases scanReplyOp_cases r with ⟨page, hop, hread⟩ | ⟨text, e, hc, hbad, hop⟩
  · exact iff_of_true ⟨some page, hop⟩ hread
  · refine iff_of_false ?_ fun h => hbad (h text hc)
    rintro ⟨ret, hret⟩
    rw [hop] at hret
    exact nomatch hret

/-- A page with a decimal cursor: `stoll` decides. -/
theorem scanReplyOp_page {r : RedisReply} {text : Bytes}
    {inner : List RedisReply} (h : IsPage r text inner) (hne : text ≠ [])
    (hd : ∀ c ∈ text, ascii.digit c = true) :
    CoroConnectionImpl.scanReplyOp r
      = if ascii.value text < 2 ^ 63 then
          .ok (some (UInt64.ofNat (ascii.value text), inner.map elementText))
        else .error .outOfRange := by
  obtain ⟨ht, e0, e1, hel, ht0, rfl, ht1, rfl⟩ := h
  rw [CoroConnectionImpl.scanReplyOp, if_neg (not_not_intro ht), hel]
  show (if e0.type ≠ .STRING then _ else if e0.str = [] then _ else _) = _
  rw [if_neg (not_not_intro ht0), if_neg hne, stoll_digits hne hd]
  by_cases hv : ascii.value e0.str < 2 ^ 63
  · rw [if_pos hv, if_pos hv]
    show (if e1.type ≠ .ARRAY then _ else _) = _
    rw [if_neg (not_not_intro ht1)]
    rfl
  · rw [if_neg hv, if_neg hv]

/-- How an exception of the callback ends a call of the class. -/
def onThrow (cls : ConnClass) (e : StdException) : CallResult ScanRet :=
  match cls with
  | .sync => .thrown e
  | .coro => .terminated

/-- The call on a reply that arrived is what the callback makes of it. -/
theorem sendScanCmd_some (cls : ConnClass) (cmd : Bytes) (r : RedisReply) :
    sendScanCmd cls cmd (some r)
      = match CoroConnectionImpl.scanReplyOp r with
        | .ok ret => .returned ret
        | .error e => onThrow cls e := by
  cases cls with
  | sync =>
      show CallResult.ofExcept (SyncConnectionImpl.scanReplyOp r) = _
      rw [scanReplyOp_eq]
      cases CoroConnectionImpl.scanReplyOp r <;> rfl
  | coro =>
      show (CommandAwaiter.ofCallbacks cmd _).coAwait (some r) = _
      rw [CommandAwaiter.coAwait_ofCallbacks, CoroConnectionImpl.resumeWithOp]
      cases CoroConnectionImpl.scanReplyOp r <;> rfl

/-- Whatever reply arrives, a call that returns reports some page. -/
theorem sendScanCmd_returned {cls : ConnClass} {cmd : Bytes} {r : RedisReply}
    {ret : Option ScanRet} (h : sendScanCmd cls cmd (some r) = .returned ret) :
    ∃ page, ret = some page := by
  rw [sendScanCmd_some] at h
  rcases scanReplyOp_cases r with ⟨page, hop, -⟩ | ⟨-, e, -, -, hop⟩
  · rw [hop] at h
    injection h with h
    exact ⟨page, h.symm⟩
  · rw [hop] at h
    cases cls <;> exact nomatch h

/-- A page with a decimal cursor is reported while the cursor has 63 bits. -/
theorem sendScanCmd_page (cls : ConnClass) (cmd : Bytes) {r : RedisReply}
    {text : Bytes} {inner : List RedisReply} (h : IsPage r text inner)
    (hne : text ≠ []) (hd : ∀ c ∈ text, ascii.digit c = true) :
    sendScanCmd cls cmd (some r)
      = if ascii.value text < 2 ^ 63 then
          .returned (some (UInt64.ofNat (ascii.value text), inner.map elementText))
        else onThrow cls .outOfRange := by
  rw [sendScanCmd_some, scanReplyOp_page h hne hd]
  by_cases hv : ascii.value text < 2 ^ 63
  · rw [if_pos hv, if_pos hv]
  · rw [if_neg hv, if_neg hv]

theorem pageBelow_some {bound : Nat} {r : RedisReply} {page : ScanRet} :
    PageBelow bound (some r) page
      ↔ ∃ text inner, IsPage r text inner ∧ DecimalBelow bound text
        ∧ page = (UInt64.ofNat (ascii.value text), inner.map elementText) := by
  constructor
  · rintro ⟨r', text, inner, hr, h⟩
    exact ⟨text, inner, Option.some.inj hr ▸ h⟩
  · rintro ⟨text, inner, h⟩
    exact ⟨r, text, inner, rfl, h⟩

theorem not_pageBelow_none (bound : Nat) (page : ScanRet) :
    ¬ PageBelow bound none page := by
  rintro ⟨r, text, inner, hr, -⟩
  exact nomatch hr

theorem isPage_unique {r : RedisReply} {text text' : Bytes}
    {inner inner' : List RedisReply} (h : IsPage r text inner)
    (h' : IsPage r text' inner') : text' = text ∧ inner' = inner := by
  obtain ⟨-, e0, e1, hel, -, rfl, -, rfl⟩ := h
  obtain ⟨-, e0', e1', hel', -, rfl, -, rfl⟩ := h'
  rw [hel] at hel'
  injection hel' with h0 h1
  injection h1 with h1
  exact ⟨h0 ▸ rfl, h1 ▸ rfl⟩

/-! ## Failed scans and finished ones -/

/-- **REPORTS PAGES, EXACTLY**: a call of `send_scan_cmd` reports what a scan
    should report iff the reply is a page whose cursor is below 2^63, or the
    class is the coroutine one and no reply came. -/
theorem send_scan_cmd_iff (cls : ConnClass) (cmd : Bytes)
    (reply : Option RedisReply) :
    ReportsPages (sendScanCmd cls cmd reply) reply
      ↔ (∃ page, PageBelow (2 ^ 63) reply page) ∨ (cls = .coro ∧ reply = none) := by
  cases reply with
  | none =>
      cases cls with
      | sync =>
          refine iff_of_false ?_ ?_
          · rintro ⟨ret, hret, -⟩
            exact nomatch hret
          · rintro (⟨page, hpage⟩ | ⟨hcls, -⟩)
            · exact not_pageBelow_none _ _ hpage
            · exact nomatch hcls
      | coro =>
          refine iff_of_true ⟨none, rfl, fun page => ?_⟩ (Or.inr ⟨rfl, rfl⟩)
          exact iff_of_false nofun (not_pageBelow_none _ _)
  | some r =>
      have hright : ((∃ page, PageBelow (2 ^ 63) (some r) page)
          ∨ (cls = .coro ∧ some r = none))
          ↔ ∃ page, PageBelow (2 ^ 63) (some r) page :=
        or_iff_left (fun h => nomatch h.2)
      rw [hright]
      constructor
      · rintro ⟨ret, hret, hpages⟩
        obtain ⟨page, rfl⟩ := sendScanCmd_returned hret
        obtain ⟨text, inner, hp, ⟨hne, hd, -⟩, -⟩ :=
          pageBelow_some.mp ((hpages page).mp rfl)
        refine ⟨_, pageBelow_some.mpr ⟨text, inner, hp, ⟨hne, hd, ?_⟩, rfl⟩⟩
        by_contra hv
        rw [sendScanCmd_page cls cmd hp hne hd, if_neg hv] at hret
        cases cls <;> exact nomatch hret
      · rintro ⟨page, hpage⟩
        obtain ⟨text, inner, hp, ⟨hne, hd, hv⟩, rfl⟩ := pageBelow_some.mp hpage
        have hv64 : ascii.value text < 2 ^ 64 := by omega
        have hres := sendScanCmd_page cls cmd hp hne hd
        rw [if_pos hv] at hres
        refine ⟨_, hres, fun page => ⟨?_, ?_⟩⟩
        · intro h
          exact pageBelow_some.mpr
            ⟨text, inner, hp, ⟨hne, hd, hv64⟩, (Option.some.inj h).symm⟩
        · intro h
          obtain ⟨text', inner', hp', -, rfl⟩ := pageBelow_some.mp h
          obtain ⟨rfl, rfl⟩ := isPage_unique hp hp'
          rfl

/-- An error reply is reported as cursor 0 with an empty batch, which is how a
    finished scan looks. -/
theorem error_reply_looks_finished :
    sendScanCmd .coro (lit "scan 0") (some ⟨.ERROR, 0, lit "ERR", []⟩)
        = .returned (some (0, []))
    ∧ ¬ ReportsPages (sendScanCmd .coro (lit "scan 0")
        (some ⟨.ERROR, 0, lit "ERR", []⟩)) (some ⟨.ERROR, 0, lit "ERR", []⟩) := by
  refine ⟨rfl, ?_⟩
  rintro ⟨ret, hret, hpages⟩
  injection hret with hret
  obtain ⟨_, _, ⟨ht, -⟩, -⟩ :=
    pageBelow_some.mp ((hpages (0, [])).mp hret.symm)
  exact nomatch ht

/-! ## The methods with explicit pattern and count -/

/-- The last three have a key. -/
inductive ScanMethod where
  | scan
  | hscan (key : Bytes)
  | sscan (key : Bytes)
  | zscan (key : Bytes)

namespace ScanMethod

/-- The command text of a call. -/
def text (cls : ConnClass) (m : ScanMethod) (cursor : UInt64) (pattern : Bytes)
    (count : UInt64) : Bytes :=
  match cls, m with
  | .coro, .scan => CoroConnectionImpl.scan cursor pattern count
  | .coro, .hscan key => CoroConnectionImpl.hscan key cursor pattern count
  | .coro, .sscan key => CoroConnectionImpl.sscan key cursor pattern count
  | .coro, .zscan key => CoroConnectionImpl.zscan key cursor pattern count
  | .sync, .scan => SyncConnectionImpl.scan cursor pattern count
  | .sync, .hscan key => SyncConnectionImpl.hscan key cursor pattern count
  | .sync, .sscan key => SyncConnectionImpl.sscan key cursor pattern count
  | .sync, .zscan key => SyncConnectionImpl.zscan key cursor pattern count

end ScanMethod

end Scans
