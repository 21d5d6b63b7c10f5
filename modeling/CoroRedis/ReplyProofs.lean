import CoroRedis.BytesProofs

/-! # Replies and their decoding

    `RedisReply` is hiredis' `redisReply` as the library reads it: the type
    tag, the integer, the string bytes and the child replies.  The decoder
    `deal_redis_reply<RET>` is one definition per result type; a null pointer
    is `none`. -/

namespace RedisReplies

open CoroBytes

/-- The `REDIS_REPLY_*` tags. -/
inductive ReplyType where
  | STRING | ARRAY | INTEGER | NIL | STATUS | ERROR | DOUBLE | BOOL | MAP
  | SET | ATTR | PUSH | BIGNUM | VERB
  deriving DecidableEq

/-- `redisReply`; `str` holds the `len` bytes at `str`. -/
structure RedisReply where
  type : ReplyType
  integer : Int64
  str : Bytes
  element : List RedisReply

/-- `scan_ret_t`. -/
abbrev ScanRet := UInt64 × List Bytes

/-- The first two assertions of `deal_redis_reply`. -/
def notNil (reply : Option RedisReply) : Option RedisReply :=
  reply.filter (fun r => r.type ≠ .NIL)

/-- `deal_redis_reply<std::string>`. -/
def dealRedisReplyString (reply : Option RedisReply) : Option Bytes :=
  (notNil reply).bind fun r =>
    if r.type = .STRING ∨ r.type = .STATUS then some r.str else none

/-- `deal_redis_reply<std::vector<std::string>>`. -/
def dealRedisReplyStrings (reply : Option RedisReply) : Option (List Bytes) :=
  (notNil reply).bind fun r =>
    if r.type = .ARRAY then
      some (r.element.map fun e => if e.type ≠ .STRING then [] else e.str)
    else none

/-- `deal_redis_reply<uint64_t>`: the `long long` is converted. -/
def dealRedisReplyUint64 (reply : Option RedisReply) : Option UInt64 :=
  (notNil reply).bind fun r =>
    if r.type = .INTEGER then some r.integer.toUInt64 else none

/-- A bulk string of the server. -/
def bulk (b : Bytes) : RedisReply := ⟨.STRING, 0, b, []⟩

end RedisReplies
