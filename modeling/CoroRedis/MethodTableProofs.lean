import CoroRedis.CommandTextProofs
import CoroRedis.DecodeProofs
import CoroRedis.ScanProofs

/-! # The command methods of the two connection classes

    `sync_connection` and `coro_connection` offer the same methods, written out
    twice.  `Call` is a call of one of them, `CoroConnection.request` and
    `SyncConnection.request` say, branch by branch in the order of the headers,
    what each class does with it: which command text it hands on and which
    result type it declares, or that it returns early.

    Three public members cannot be called and have no case here: `hset` with a
    list of pairs is declared and not defined, and `zadd` with an initializer
    list and `command` with an operation do not compile when they are used. -/

namespace Methods

open CoroBytes CommandText Decoding RedisReplies

variable {double : Type}

/-! ## Calls -/

/-- `enum BitOp`. -/
inductive BitOp where
  | AND | OR | XOR | NOT
  deriving DecidableEq

/-- The switch of `bitop`. -/
def BitOp.text : BitOp → Bytes
  | .AND => lit " AND "
  | .OR => lit " OR "
  | .XOR => lit " XOR "
  | .NOT => lit " NOT "

/-- A value of `set<T>`: a string, an integer, a `bool` or a `char`. -/
inductive SetValue where
  | string (s : Bytes)
  | integer (n : Int)
  | bool (b : Bool)
  | char (c : Byte)
  deriving DecidableEq

/-- `{}` on a `bool`. -/
def fmtBool (b : Bool) : Bytes := lit (if b then "true" else "false")

/-- `{}` on the value. -/
def SetValue.text : SetValue → Bytes
  | .string s => s
  | .integer n => if n < 0 then lit "-" ++ decimal n.natAbs else decimal n.natAbs
  | .bool b => fmtBool b
  | .char c => [c]

/-- `(cmd.append(" ").append(keys), ...)`, and the loops that do the same. -/
def appendAll (cmd : Bytes) (keys : List Bytes) : Bytes :=
  keys.foldl (fun cmd key => cmd ++ lit " " ++ key) cmd

/-- A call of a command method, with the default arguments of the headers.
    Overloads have names of their own; a parameter pack is a list. -/
inductive Call (double : Type) where
  | command (ret : RetType) (cmd : Bytes)
  -- connection commands
  | auth (password : Bytes)
  | authUser (user password : Bytes)
  | echo (msg : Bytes)
  | ping
  | pingMsg (msg : Bytes)
  | quit
  | select (idx : UInt64)
  | swapdb (idx1 idx2 : UInt64)
  -- server commands
  | bgrewriteaof
  | bgsave
  | dbsize
  | flushall (async : Bool := false)
  | flushdb (async : Bool := false)
  | info
  | infoSection (sec : Bytes)
  | lastsave
  | save
  -- key commands
  | del (keys : List Bytes)
  | dump (key : Bytes)
  | exists_ (keys : List Bytes)
  | expire (key : Bytes) (timeout : UInt64)
  | expireat (key : Bytes) (timestamp : UInt64)
  | move (key : Bytes) (db : UInt64)
  | persist (key : Bytes)
  | pexpire (key : Bytes) (timeout : UInt64)
  | pexpireat (key : Bytes) (timestamp : UInt64)
  | pttl (key : Bytes)
  | randomkey
  | rename (key newkey : Bytes)
  | renamenx (key newkey : Bytes)
  | restore (key val : Bytes) (ttl : UInt64) (replace : Bool := false)
  | scanCount (cursor : UInt64) (count : UInt64 := 0)
  | scan (cursor : UInt64) (pattern : Bytes) (count : UInt64 := 0)
  | touch (keys : List Bytes)
  | ttl (key : Bytes)
  | type (key : Bytes)
  | unlink (keys : List Bytes)
  | wait (numslaves timeout : UInt64)
  -- string commands
  | append (key str : Bytes)
  | bitcount (key : Bytes) (start : UInt64 := 0)
      (stop : UInt64 := 18446744073709551615)
  | bitop (op : BitOp) (keys : List Bytes)
  | bitpos (key : Bytes) (bit : UInt64) (start : UInt64 := 0)
      (stop : UInt64 := 18446744073709551615)
  | decr (key : Bytes)
  | decrby (key : Bytes) (decrement : UInt64)
  | get (key : Bytes)
  | getbit (key : Bytes) (offset : UInt64)
  | getrange (key : Bytes) (start stop : UInt64)
  | getset (key val : Bytes)
  | incr (key : Bytes)
  | incrby (key : Bytes) (increment : UInt64)
  | incrbyfloat (key : Bytes) (increment : double)
  | mget (keys : List Bytes)
  | mset (keys : List Bytes)
  | msetnx (keys : List Bytes)
  | psetex (key : Bytes) (ttl : UInt64) (val : Bytes)
  | set (key : Bytes) (val : SetValue) (ttl : UInt64 := 0)
      (ttl_type : RedisTTLType := .EX) (type : UpdateType := .ALWAYS)
  | setex (key : Bytes) (ttl : UInt64) (val : Bytes)
  | setnx (key val : Bytes)
  | setrange (key : Bytes) (offset : UInt64) (val : Bytes)
  | strlen (key : Bytes)
  -- list commands
  | llen (key : Bytes)
  | lpop (key : Bytes)
  | lpush (key val : Bytes)
  | lpushMany (key : Bytes) (keys : List Bytes)
  | lpushx (key val : Bytes)
  | lrange (key : Bytes) (start stop : UInt64)
  | lrem (key : Bytes) (count : UInt64) (val : Bytes)
  | lset (key : Bytes) (index : UInt64) (val : Bytes)
  | ltrim (key : Bytes) (start stop : UInt64)
  | rpop (key : Bytes)
  | rpoplpush (source destination : Bytes)
  | rpush (key val : Bytes) (vals : List Bytes)
  | rpushx (key val : Bytes)
  -- hash commands
  | hdel (key field : Bytes) (fields : List Bytes)
  | hexists (key field : Bytes)
  | hget (key field : Bytes)
  | hgetall (key : Bytes)
  | hincrby (key field : Bytes) (increment : UInt64)
  | hincrbyfloat (key field : Bytes) (increment : double)
  | hkeys (key : Bytes)
  | hlen (key : Bytes)
  | hmget (key field : Bytes) (fields : List Bytes)
  | hmset (key field value : Bytes) (args : List Bytes)
  | hscanCount (key : Bytes) (cursor count : UInt64)
  | hscan (key : Bytes) (cursor : UInt64) (pattern : Bytes) (count : UInt64 := 0)
  | hset (key field val : Bytes) (args : List Bytes)
  | hsetnx (key field val : Bytes)
  | hstrlen (key field : Bytes)
  | hvals (key : Bytes)
  -- set commands
  | sadd (key member : Bytes) (members : List Bytes)
  | scard (key : Bytes)
  | sdiff (key : Bytes) (keys : List Bytes)
  | sdiffstore (destination key : Bytes) (keys : List Bytes)
  | sinter (key : Bytes) (keys : List Bytes)
  | sinterstore (destination key : Bytes) (keys : List Bytes)
  | sismember (key member : Bytes)
  | smembers (key : Bytes)
  | smove (source destination member : Bytes)
  | spop (key : Bytes) (count : UInt64 := 1)
  | srandmember (key : Bytes)
  | srandmemberCount (key : Bytes) (count : UInt64)
  | srem (key member : Bytes) (members : List Bytes)
  | sscanCount (key : Bytes) (cursor count : UInt64)
  | sscan (key : Bytes) (cursor : UInt64) (pattern : Bytes) (count : UInt64 := 0)
  | sunion (key : Bytes) (keys : List Bytes)
  | sunionstore (destination key : Bytes) (keys : List Bytes)
  -- sorted set commands
  | bzpopmax (keys : List Bytes) (timeout : UInt64 := 0)
  | bzpopmin (keys : List Bytes) (timeout : UInt64 := 0)
  | zadd (key member : Bytes) (score : double) (type : UpdateType := .ALWAYS)
  | zaddMany (key : Bytes) (kvs : List (Bytes × double))
      (type : UpdateType := .ALWAYS)
  | zcard (key : Bytes)
  | zcount (key min max : Bytes)
  | zincrby (key : Bytes) (increment : double) (member : Bytes)
  | zlexcount (key min max : Bytes)
  | zpopmax (key : Bytes) (count : UInt64 := 1)
  | zpopmin (key : Bytes)
  | zrange (key min max : Bytes)
  | zrangebylex (key min max : Bytes)
  | zrangebyscore (key min max : Bytes)
  | zrank (key member : Bytes)
  | zrem (key member : Bytes) (members : List Bytes)
  | zremrangebylex (key min max : Bytes)
  | zremrangebyrank (key : Bytes) (start stop : UInt64)
  | zremrangebyscore (key min max : Bytes)
  | zrevrange (key : Bytes) (start stop : UInt64) (withscores : Bool := false)
  | zrevrangebylex (key min max : Bytes)
  | zrevrangebyscore (key min max : Bytes)
  | zrevrank (key member : Bytes)
  | zscanCount (key : Bytes) (cursor count : UInt64)
  | zscan (key : Bytes) (cursor : UInt64) (pattern : Bytes) (count : UInt64)
  | zscore (key member : Bytes)
  | zunionstore (destination : Bytes) (keys : List Bytes)
      (aggregate : Bytes := lit "SUM")
  | zunionstoreWeights (destination : Bytes) (kvs : List (Bytes × double))
      (aggregate : Bytes := lit "SUM")
  -- hyperloglog commands
  | pfadd (key : Bytes) (elements : List Bytes)

/-- What a method does with a call. -/
inductive Request where
  -- `return {}`
  | nothing (ret : RetType)
  -- `command<RET>(cmd)`
  | command (ret : RetType) (cmd : Bytes)
  -- `send_scan_cmd(cmd)`
  | scan (cmd : Bytes)
  -- the same call again
  | itself

/-- The result type `deal_redis_reply` is used at, if it is used. -/
def Request.ret : Request → RetType
  | .nothing ret => ret
  | .command ret _ => ret
  | .scan _ => .other
  | .itself => .other

/-! ## `coro_connection` -/

namespace CoroConnectionImpl

/-- The switch of `zadd`. -/
def updateText : UpdateType → Bytes
  | .EXIST => lit " XX "
  | .NOT_EXIST => lit " NX "
  | .LESS_THAN => lit " LT "
  | .GREATE_THAN => lit " GT "
  | .CHANGED => lit " CH "
  | .INCR => lit " INCR "
  | .ALWAYS => []

/-- `coro_connection_impl::zadd` with one member. -/
def zadd (P : Platform double) (key member : Bytes) (score : double)
    (type : UpdateType) : Request :=
  .command .uint64
    (lit "zadd" ++ lit " " ++ key ++ updateText type
      ++ lit " " ++ P.toStringDouble score ++ lit " " ++ member)

/-- `coro_connection_impl::zadd` with a list. -/
def zaddMany (P : Platform double) (key : Bytes) (kvs : List (Bytes × double))
    (type : UpdateType) : Request :=
  .command .uint64
    (kvs.foldl
      (fun cmd kv => cmd ++ lit " " ++ P.toStringDouble kv.2 ++ lit " " ++ kv.1)
      (lit "zadd" ++ lit " " ++ key ++ updateText type))

/-- `coro_connection_impl::zunionstore`, whose verb is `zadd`. -/
def zunionstore (destination : Bytes) (keys : List Bytes) (aggregate : Bytes) :
    Request :=
  if keys.isEmpty then .nothing .uint64
  else
    let cmd :=
      lit "zadd" ++ lit " " ++ destination ++ lit " " ++ decimal keys.length
    .command .uint64 (appendAll cmd keys ++ lit " " ++ aggregate)

/-- `coro_connection_impl::zunionstore` with weights. -/
def zunionstoreWeights (P : Platform double) (destination : Bytes)
    (kvs : List (Bytes × double)) (aggregate : Bytes) : Request :=
  if kvs.isEmpty then .nothing .uint64
  else
    let cmd :=
      lit "zadd" ++ lit " " ++ destination ++ lit " " ++ decimal kvs.length
    let cmd := appendAll cmd (kvs.map Prod.fst) ++ lit " WEIGHTS "
    let cmd := appendAll cmd (kvs.map fun kv => P.toStringDouble kv.2)
    .command .uint64 (cmd ++ lit " " ++ aggregate)

end CoroConnectionImpl

/-- The methods of `coro_connection`. -/
def CoroConnection.request (P : Platform double) : Call double → Request
  | .command ret cmd => .command ret cmd
  -- connection commands
  | .auth password => .command .string (fmtFormat "auth {}" [password])
  | .authUser user password =>
      .command .string (fmtFormat "auth {} {}" [user, password])
  | .echo msg => .command .string (CommandText.CoroConnection.echo msg)
  | .ping => .command .string (lit "ping")
  | .pingMsg msg => .command .string (fmtFormat "ping {}" [msg])
  | .quit => .command .string (fmtFormat "quit" [])
  | .select idx => .command .string (fmtFormat "select {}" [decimal idx.toNat])
  | .swapdb idx1 idx2 =>
      .command .string
        (fmtFormat "swapdb {} {}" [decimal idx1.toNat, decimal idx2.toNat])
  -- server commands
  | .bgrewriteaof => .command .string (lit "bgrewriteaof")
  | .bgsave => .command .string (lit "bgsave")
  | .dbsize => .command .uint64 (lit "dbsize")
  | .flushall async =>
      .command .string (if async then lit "FLUSHALL ASYNC" else lit "FLUSHALL SYNC")
  | .flushdb async =>
      .command .string (if async then lit "FLUSHDB ASYNC" else lit "FLUSHDB SYNC")
  | .info => .command .string (lit "info")
  | .infoSection sec => .command .string (fmtFormat "info {}" [sec])
  | .lastsave => .command .uint64 (lit "lastsave")
  | .save => .command .string (lit "save")
  -- key commands
  | .del keys => .command .uint64 (appendAll (lit "del") keys)
  | .dump key => .command .string (fmtFormat "dump {}" [key])
  | .exists_ keys => .command .uint64 (appendAll (lit "exists") keys)
  | .expire key timeout =>
      .command .uint64 (fmtFormat "expire {} {}" [key, decimal timeout.toNat])
  | .expireat key timestamp =>
      .command .uint64 (fmtFormat "expireat {} {}" [key, decimal timestamp.toNat])
  | .move key db =>
      .command .uint64 (fmtFormat "move {} {}" [key, decimal db.toNat])
  | .persist key => .command .uint64 (fmtFormat "persist {}" [key])
  | .pexpire key timeout =>
      .command .uint64 (fmtFormat "pexpire {} {}" [key, decimal timeout.toNat])
  | .pexpireat key timestamp =>
      .command .uint64 (fmtFormat "pexpireat {} {}" [key, decimal timestamp.toNat])
  | .pttl key => .command .uint64 (fmtFormat "pttl {}" [key])
  | .randomkey => .command .string (lit "randomkey")
  | .rename key newkey =>
      .command .string (CommandText.CoroConnection.rename key newkey)
  | .renamenx key newkey =>
      .command .uint64 (fmtFormat "renamenx {} {}" [key, newkey])
  | .restore key val ttl replace =>
      .command .string
        (fmtFormat "restore {} {} {} {}" [key, decimal ttl.toNat, val,
          fmtBool replace])
  | .scanCount cursor count => .scan (Scans.CoroConnectionImpl.scan cursor [] count)
  | .scan cursor pattern count =>
      .scan (Scans.CoroConnectionImpl.scan cursor pattern count)
  | .touch keys => .command .uint64 (appendAll (lit "touch") keys)
  | .ttl key => .command .uint64 (fmtFormat "ttl {}" [key])
  | .type key => .command .string (fmtFormat "type {}" [key])
  | .unlink keys => .command .uint64 (appendAll (lit "unlink") keys)
  | .wait numslaves timeout =>
      .command .uint64
        (fmtFormat "wait {} {}" [decimal numslaves.toNat, decimal timeout.toNat])
  -- string commands
  | .append key str => .command .uint64 (CommandText.CoroConnection.append key str)
  | .bitcount key start stop =>
      .command .uint64
        (fmtFormat "bitcount {} {} {}" [key, decimal start.toNat,
          decimal stop.toNat])
  | .bitop op keys => .command .uint64 (appendAll (lit "bitop" ++ op.text) keys)
  | .bitpos key bit start stop =>
      .command .uint64
        (fmtFormat "bitpos {} {} {} {}" [key, decimal bit.toNat,
          decimal start.toNat, decimal stop.toNat])
  | .decr key => .command .uint64 (fmtFormat "decr {}" [key])
  | .decrby key decrement =>
      .command .uint64 (fmtFormat "decrby {} {}" [key, decimal decrement.toNat])
  | .get key => .command .string (CommandText.CoroConnection.get key)
  | .getbit key offset =>
      .command .uint64 (fmtFormat "getbit {} {}" [key, decimal offset.toNat])
  | .getrange key start stop =>
      .command .string
        (fmtFormat "getrange {} {} {}" [key, decimal start.toNat,
          decimal stop.toNat])
  | .getset key val => .command .string (CommandText.CoroConnection.getset key val)
  | .incr key => .command .uint64 (fmtFormat "incr {}" [key])
  | .incrby key increment =>
      .command .uint64 (fmtFormat "incrby {} {}" [key, decimal increment.toNat])
  | .incrbyfloat key increment =>
      .command .string (fmtFormat "incrby {} {}" [key, P.fmtDouble increment])
  | .mget keys => .command .strings (appendAll (lit "mget") keys)
  | .mset keys => .command .string (appendAll (lit "mset") keys)
  | .msetnx keys => .command .string (appendAll (lit "msetnx") keys)
  | .psetex key ttl val =>
      .command .string (fmtFormat "psetex {} {} {}" [key, decimal ttl.toNat, val])
  | .set key val ttl ttl_type type =>
      .command .string
        (CommandText.CoroConnectionImpl.set key val.text ttl ttl_type type)
  | .setex key ttl val =>
      .command .string (CommandText.CoroConnection.setex key ttl val)
  | .setnx key val => .command .uint64 (CommandText.CoroConnection.setnx key val)
  | .setrange key offset val =>
      .command .uint64 (CommandText.CoroConnection.setrange key offset val)
  | .strlen key => .command .uint64 (fmtFormat "strlen {}" [key])
  -- list commands
  | .llen key => .command .uint64 (fmtFormat "llen {}" [key])
  | .lpop key => .command .string (fmtFormat "lpop {}" [key])
  | .lpush key val => .command .uint64 (CommandText.CoroConnection.lpush key val)
  | .lpushMany key keys => .command .uint64 (appendAll (lit "lpush " ++ key) keys)
  | .lpushx key val => .command .uint64 (CommandText.CoroConnection.lpushx key val)
  | .lrange key start stop =>
      .command .strings
        (fmtFormat "lrange {} {} {}" [key, decimal start.toNat, decimal stop.toNat])
  | .lrem key count val =>
      .command .uint64 (fmtFormat "lrem {} {} {}" [key, decimal count.toNat, val])
  | .lset key index val =>
      .command .string (fmtFormat "lset {} {} {}" [key, decimal index.toNat, val])
  | .ltrim key start stop =>
      .command .string
        (fmtFormat "ltrim {} {} {}" [key, decimal start.toNat, decimal stop.toNat])
  | .rpop key => .command .string (fmtFormat "rpop {}" [key])
  | .rpoplpush source destination =>
      .command .string (fmtFormat "rpoplpush {} {}" [source, destination])
  -- the key is not written
  | .rpush _ val vals => .command .uint64 (appendAll (lit "rpush " ++ val) vals)
  | .rpushx key val => .command .uint64 (CommandText.CoroConnection.rpushx key val)
  -- hash commands
  -- the key is not written
  | .hdel _ field fields =>
      .command .uint64 (appendAll (lit "hdel" ++ lit " " ++ field) fields)
  | .hexists key field => .command .uint64 (fmtFormat "hexists {} {}" [key, field])
  | .hget key field => .command .string (CommandText.CoroConnection.hget key field)
  | .hgetall key => .command .strings (fmtFormat "hgetall {}" [key])
  | .hincrby key field increment =>
      .command .uint64
        (fmtFormat "hincrby {} {} {}" [key, field, decimal increment.toNat])
  | .hincrbyfloat key field increment =>
      .command .double
        (fmtFormat "hincrbyfloat {} {} {}" [key, field, P.fmtDouble increment])
  | .hkeys key => .command .strings (fmtFormat "hkeys {}" [key])
  | .hlen key => .command .uint64 (fmtFormat "hlen {}" [key])
  | .hmget key field fields =>
      .command .strings
        (appendAll (lit "hmget " ++ lit " " ++ key ++ lit " " ++ field) fields)
  | .hmset key field value args =>
      .command .string (appendAll
          (lit "hmset " ++ lit " " ++ key ++ lit " " ++ field ++ lit " " ++ value)
        args)
  | .hscanCount key cursor count =>
      .scan (Scans.CoroConnectionImpl.hscan key cursor [] count)
  | .hscan key cursor pattern count =>
      .scan (Scans.CoroConnectionImpl.hscan key cursor pattern count)
  -- the key is not written
  | .hset _ field val args =>
      .command .uint64
        (appendAll (lit "hset " ++ lit " " ++ field ++ lit " " ++ val) args)
  | .hsetnx key field val =>
      .command .uint64 (CommandText.CoroConnection.hsetnx key field val)
  | .hstrlen key field =>
      .command .uint64 (CommandText.CoroConnection.hstrlen key field)
  | .hvals key => .command .strings (fmtFormat "hvals {}" [key])
  -- set commands
  | .sadd key member members =>
      .command .uint64
        (appendAll (lit "sadd" ++ lit " " ++ key ++ lit " " ++ member) members)
  | .scard key => .command .uint64 (fmtFormat "scard {}" [key])
  | .sdiff key keys =>
      .command .strings (appendAll (lit "sdiff" ++ lit " " ++ key) keys)
  | .sdiffstore destination key keys =>
      .command .uint64 (appendAll
          (lit "sdiffstore" ++ lit " " ++ destination ++ lit " " ++ key)
        keys)
  | .sinter key keys =>
      .command .strings (appendAll (lit "sinter" ++ lit " " ++ key) keys)
  | .sinterstore destination key keys =>
      .command .uint64 (appendAll
          (lit "sinterstore" ++ lit " " ++ destination ++ lit " " ++ key)
        keys)
  | .sismember key member =>
      .command .uint64 (CommandText.CoroConnection.sismember key member)
  | .smembers key => .command .strings (fmtFormat "smembers {}" [key])
  | .smove source destination member =>
      .command .uint64 (CommandText.CoroConnection.smove source destination member)
  | .spop key count =>
      .command .strings (fmtFormat "spop {} {}" [key, decimal count.toNat])
  | .srandmember key => .command .string (fmtFormat "srandmember {}" [key])
  | .srandmemberCount key count =>
      .command .strings (fmtFormat "srandmember {} {}" [key, decimal count.toNat])
  | .srem key member members =>
      .command .uint64
        (appendAll (lit "srem" ++ lit " " ++ key ++ lit " " ++ member) members)
  | .sscanCount key cursor count =>
      .scan (Scans.CoroConnectionImpl.sscan key cursor [] count)
  | .sscan key cursor pattern count =>
      .scan (Scans.CoroConnectionImpl.sscan key cursor pattern count)
  | .sunion key keys =>
      .command .uint64 (appendAll (lit "sunion" ++ lit " " ++ key) keys)
  | .sunionstore destination key keys =>
      .command .uint64 (appendAll
          (lit "sunionstore" ++ lit " " ++ destination ++ lit " " ++ key)
        keys)
  -- sorted set commands
  | .bzpopmax keys timeout =>
      if keys.isEmpty then .nothing .strings
      else .command .strings
        (appendAll (lit "bzpopmax") keys ++ lit " " ++ decimal timeout.toNat)
  | .bzpopmin keys timeout =>
      if keys.isEmpty then .nothing .strings
      else .command .strings
        (appendAll (lit "bzpopmin") keys ++ lit " " ++ decimal timeout.toNat)
  | .zadd key member score type => CoroConnectionImpl.zadd P key member score type
  | .zaddMany key kvs type => CoroConnectionImpl.zaddMany P key kvs type
  | .zcard key => .command .uint64 (fmtFormat "zcard {}" [key])
  | .zcount key min max =>
      .command .uint64 (fmtFormat "zcount {} {} {}" [key, min, max])
  | .zincrby key increment member =>
      .command .double
        (fmtFormat "zincrby {} {} {}" [key, P.fmtDouble increment, member])
  | .zlexcount key min max =>
      .command .uint64 (fmtFormat "zlexcount {} {} {}" [key, min, max])
  | .zpopmax key count =>
      .command .strings (fmtFormat "zpopmax {} {}" [key, decimal count.toNat])
  | .zpopmin key => .command .strings (fmtFormat "zpopmin {}" [key])
  | .zrange key min max =>
      .command .strings (fmtFormat "zrange {} {} {}" [key, min, max])
  | .zrangebylex key min max =>
      .command .strings (fmtFormat "zrangebylex {} {} {}" [key, min, max])
  | .zrangebyscore key min max =>
      .command .strings (fmtFormat "zrangebyscore {} {} {}" [key, min, max])
  | .zrank key member => .command .uint64 (fmtFormat "zrank {} {}" [key, member])
  | .zrem key member members =>
      .command .uint64
        (appendAll (lit "zrem" ++ lit " " ++ key ++ lit " " ++ member) members)
  | .zremrangebylex key min max =>
      .command .uint64 (fmtFormat "zremrangebylex {} {} {}" [key, min, max])
  | .zremrangebyrank key start stop =>
      .command .uint64
        (fmtFormat "zremrangebyrank {} {} {}" [key, decimal start.toNat,
          decimal stop.toNat])
  | .zremrangebyscore key min max =>
      .command .uint64 (fmtFormat "zremrangebyscore {} {} {}" [key, min, max])
  | .zrevrange key start stop withscores =>
      .command .string
        (fmtFormat "zrevrange {} {} {} {}" [key, decimal start.toNat,
          decimal stop.toNat, (if withscores then lit "WITHSCORES" else [])])
  | .zrevrangebylex key min max =>
      .command .string (fmtFormat "zrevrangebylex {} {} {}" [key, min, max])
  | .zrevrangebyscore key min max =>
      .command .string (fmtFormat "zrevrangebyscore {} {} {}" [key, min, max])
  | .zrevrank key member =>
      .command .uint64 (fmtFormat "zrevrank {} {}" [key, member])
  | .zscanCount _ _ _ => .itself
  | .zscan key cursor pattern count =>
      .scan (Scans.CoroConnectionImpl.zscan key cursor pattern count)
  | .zscore key member =>
      .command .double (CommandText.CoroConnection.zscore key member)
  | .zunionstore destination keys aggregate =>
      CoroConnectionImpl.zunionstore destination keys aggregate
  | .zunionstoreWeights destination kvs aggregate =>
      CoroConnectionImpl.zunionstoreWeights P destination kvs aggregate
  -- hyperloglog commands
  | .pfadd key elements =>
      .command .uint64 (appendAll (lit "pfadd" ++ lit " " ++ key) elements)

/-! ## `sync_connection` -/

namespace SyncConnectionImpl

/-- The switch of `zadd`. -/
def updateText : UpdateType → Bytes
  | .EXIST => lit " XX "
  | .NOT_EXIST => lit " NX "
  | .LESS_THAN => lit " LT "
  | .GREATE_THAN => lit " GT "
  | .CHANGED => lit " CH "
  | .INCR => lit " INCR "
  | .ALWAYS => []

/-- `sync_connection_impl::zadd` with one member. -/
def zadd (P : Platform double) (key member : Bytes) (score : double)
    (type : UpdateType) : Request :=
  .command .uint64
    (lit "zadd" ++ lit " " ++ key ++ updateText type
      ++ lit " " ++ P.toStringDouble score ++ lit " " ++ member)

/-- `sync_connection_impl::zadd` with a list. -/
def zaddMany (P : Platform double) (key : Bytes) (kvs : List (Bytes × double))
    (type : UpdateType) : Request :=
  .command .uint64
    (kvs.foldl
      (fun cmd kv => cmd ++ lit " " ++ P.toStringDouble kv.2 ++ lit " " ++ kv.1)
      (lit "zadd" ++ lit " " ++ key ++ updateText type))

/-- `sync_connection_impl::zunionstore`, whose verb is `zadd`. -/
def zunionstore (destination : Bytes) (keys : List Bytes) (aggregate : Bytes) :
    Request :=
  if keys.isEmpty then .nothing .uint64
  else
    let cmd :=
      lit "zadd" ++ lit " " ++ destination ++ lit " " ++ decimal keys.length
    .command .uint64 (appendAll cmd keys ++ lit " " ++ aggregate)

/-- `sync_connection_impl::zunionstore` with weights. -/
def zunionstoreWeights (P : Platform double) (destination : Bytes)
    (kvs : List (Bytes × double)) (aggregate : Bytes) : Request :=
  if kvs.isEmpty then .nothing .uint64
  else
    let cmd :=
      lit "zadd" ++ lit " " ++ destination ++ lit " " ++ decimal kvs.length
    let cmd := appendAll cmd (kvs.map Prod.fst) ++ lit " WEIGHTS "
    let cmd := appendAll cmd (kvs.map fun kv => P.toStringDouble kv.2)
    .command .uint64 (cmd ++ lit " " ++ aggregate)

end SyncConnectionImpl

/-- The methods of `sync_connection`. -/
def SyncConnection.request (P : Platform double) : Call double → Request
  | .command ret cmd => .command ret cmd
  -- connection commands
  | .auth password => .command .string (fmtFormat "auth {}" [password])
  | .authUser user password =>
      .command .string (fmtFormat "auth {} {}" [user, password])
  | .echo msg => .command .string (CommandText.SyncConnection.echo msg)
  | .ping => .command .string (lit "ping")
  | .pingMsg msg => .command .string (fmtFormat "ping {}" [msg])
  | .quit => .command .string (fmtFormat "quit" [])
  | .select idx => .command .string (fmtFormat "select {}" [decimal idx.toNat])
  | .swapdb idx1 idx2 =>
      .command .string
        (fmtFormat "swapdb {} {}" [decimal idx1.toNat, decimal idx2.toNat])
  -- server commands
  | .bgrewriteaof => .command .string (lit "bgrewriteaof")
  | .bgsave => .command .string (lit "bgsave")
  | .dbsize => .command .uint64 (lit "dbsize")
  | .flushall async =>
      .command .string (if async then lit "FLUSHALL ASYNC" else lit "FLUSHALL SYNC")
  | .flushdb async =>
      .command .string (if async then lit "FLUSHDB ASYNC" else lit "FLUSHDB SYNC")
  | .info => .command .string (lit "info")
  | .infoSection sec => .command .string (fmtFormat "info {}" [sec])
  | .lastsave => .command .uint64 (lit "lastsave")
  | .save => .command .string (lit "save")
  -- key commands
  | .del keys => .command .uint64 (appendAll (lit "del") keys)
  | .dump key => .command .string (fmtFormat "dump {}" [key])
  | .exists_ keys => .command .uint64 (appendAll (lit "exists") keys)
  | .expire key timeout =>
      .command .uint64 (fmtFormat "expire {} {}" [key, decimal timeout.toNat])
  | .expireat key timestamp =>
      .command .uint64 (fmtFormat "expireat {} {}" [key, decimal timestamp.toNat])
  | .move key db =>
      .command .uint64 (fmtFormat "move {} {}" [key, decimal db.toNat])
  | .persist key => .command .uint64 (fmtFormat "persist {}" [key])
  | .pexpire key timeout =>
      .command .uint64 (fmtFormat "pexpire {} {}" [key, decimal timeout.toNat])
  | .pexpireat key timestamp =>
      .command .uint64 (fmtFormat "pexpireat {} {}" [key, decimal timestamp.toNat])
  | .pttl key => .command .uint64 (fmtFormat "pttl {}" [key])
  | .randomkey => .command .string (lit "randomkey")
  | .rename key newkey =>
      .command .string (CommandText.SyncConnection.rename key newkey)
  | .renamenx key newkey =>
      .command .uint64 (fmtFormat "renamenx {} {}" [key, newkey])
  | .restore key val ttl replace =>
      .command .string
        (fmtFormat "restore {} {} {} {}" [key, decimal ttl.toNat, val,
          fmtBool replace])
  | .scanCount cursor count => .scan (Scans.SyncConnectionImpl.scan cursor [] count)
  | .scan cursor pattern count =>
      .scan (Scans.SyncConnectionImpl.scan cursor pattern count)
  | .touch keys => .command .uint64 (appendAll (lit "touch") keys)
  | .ttl key => .command .uint64 (fmtFormat "ttl {}" [key])
  | .type key => .command .string (fmtFormat "type {}" [key])
  | .unlink keys => .command .uint64 (appendAll (lit "unlink") keys)
  | .wait numslaves timeout =>
      .command .uint64
        (fmtFormat "wait {} {}" [decimal numslaves.toNat, decimal timeout.toNat])
  -- string commands
  | .append key str => .command .uint64 (CommandText.SyncConnection.append key str)
  | .bitcount key start stop =>
      .command .uint64
        (fmtFormat "bitcount {} {} {}" [key, decimal start.toNat,
          decimal stop.toNat])
  | .bitop op keys => .command .uint64 (appendAll (lit "bitop" ++ op.text) keys)
  | .bitpos key bit start stop =>
      .command .uint64
        (fmtFormat "bitpos {} {} {} {}" [key, decimal bit.toNat,
          decimal start.toNat, decimal stop.toNat])
  | .decr key => .command .uint64 (fmtFormat "decr {}" [key])
  | .decrby key decrement =>
      .command .uint64 (fmtFormat "decrby {} {}" [key, decimal decrement.toNat])
  | .get key => .command .string (CommandText.SyncConnection.get key)
  | .getbit key offset =>
      .command .uint64 (fmtFormat "getbit {} {}" [key, decimal offset.toNat])
  | .getrange key start stop =>
      .command .string
        (fmtFormat "getrange {} {} {}" [key, decimal start.toNat,
          decimal stop.toNat])
  | .getset key val => .command .string (CommandText.SyncConnection.getset key val)
  | .incr key => .command .uint64 (fmtFormat "incr {}" [key])
  | .incrby key increment =>
      .command .uint64 (fmtFormat "incrby {} {}" [key, decimal increment.toNat])
  | .incrbyfloat key increment =>
      .command .string (fmtFormat "incrby {} {}" [key, P.fmtDouble increment])
  | .mget keys => .command .strings (appendAll (lit "mget") keys)
  | .mset keys => .command .string (appendAll (lit "mset") keys)
  | .msetnx keys => .command .string (appendAll (lit "msetnx") keys)
  | .psetex key ttl val =>
      .command .string (fmtFormat "psetex {} {} {}" [key, decimal ttl.toNat, val])
  | .set key val ttl ttl_type type =>
      .command .string
        (CommandText.SyncConnectionImpl.set key val.text ttl ttl_type type)
  | .setex key ttl val =>
      .command .string (CommandText.SyncConnection.setex key ttl val)
  | .setnx key val => .command .uint64 (CommandText.SyncConnection.setnx key val)
  | .setrange key offset val =>
      .command .uint64 (CommandText.SyncConnection.setrange key offset val)
  | .strlen key => .command .uint64 (fmtFormat "strlen {}" [key])
  -- list commands
  | .llen key => .command .uint64 (fmtFormat "llen {}" [key])
  | .lpop key => .command .string (fmtFormat "lpop {}" [key])
  | .lpush key val => .command .uint64 (CommandText.SyncConnection.lpush key val)
  | .lpushMany key keys => .command .uint64 (appendAll (lit "lpush " ++ key) keys)
  | .lpushx key val => .command .uint64 (CommandText.SyncConnection.lpushx key val)
  | .lrange key start stop =>
      .command .strings
        (fmtFormat "lrange {} {} {}" [key, decimal start.toNat, decimal stop.toNat])
  | .lrem key count val =>
      .command .uint64 (fmtFormat "lrem {} {} {}" [key, decimal count.toNat, val])
  | .lset key index val =>
      .command .string (fmtFormat "lset {} {} {}" [key, decimal index.toNat, val])
  | .ltrim key start stop =>
      .command .string
        (fmtFormat "ltrim {} {} {}" [key, decimal start.toNat, decimal stop.toNat])
  | .rpop key => .command .string (fmtFormat "rpop {}" [key])
  | .rpoplpush source destination =>
      .command .string (fmtFormat "rpoplpush {} {}" [source, destination])
  -- the key is not written
  | .rpush _ val vals => .command .uint64 (appendAll (lit "rpush " ++ val) vals)
  | .rpushx key val => .command .uint64 (CommandText.SyncConnection.rpushx key val)
  -- hash commands
  -- the key is not written
  | .hdel _ field fields =>
      .command .uint64 (appendAll (lit "hdel" ++ lit " " ++ field) fields)
  | .hexists key field => .command .uint64 (fmtFormat "hexists {} {}" [key, field])
  | .hget key field => .command .string (CommandText.SyncConnection.hget key field)
  | .hgetall key => .command .strings (fmtFormat "hgetall {}" [key])
  | .hincrby key field increment =>
      .command .uint64
        (fmtFormat "hincrby {} {} {}" [key, field, decimal increment.toNat])
  | .hincrbyfloat key field increment =>
      .command .double
        (fmtFormat "hincrbyfloat {} {} {}" [key, field, P.fmtDouble increment])
  | .hkeys key => .command .strings (fmtFormat "hkeys {}" [key])
  | .hlen key => .command .uint64 (fmtFormat "hlen {}" [key])
  | .hmget key field fields =>
      .command .strings
        (appendAll (lit "hmget " ++ lit " " ++ key ++ lit " " ++ field) fields)
  | .hmset key field value args =>
      .command .strings (appendAll
          (lit "hmset " ++ lit " " ++ key ++ lit " " ++ field ++ lit " " ++ value)
        args)
  | .hscanCount key cursor count =>
      .scan (Scans.SyncConnectionImpl.hscan key cursor [] count)
  | .hscan key cursor pattern count =>
      .scan (Scans.SyncConnectionImpl.hscan key cursor pattern count)
  -- the key is not written
  | .hset _ field val args =>
      .command .uint64
        (appendAll (lit "hset " ++ lit " " ++ field ++ lit " " ++ val) args)
  | .hsetnx key field val =>
      .command .uint64 (CommandText.SyncConnection.hsetnx key field val)
  | .hstrlen key field =>
      .command .uint64 (CommandText.SyncConnection.hstrlen key field)
  | .hvals key => .command .strings (fmtFormat "hvals {}" [key])
  -- set commands
  | .sadd key member members =>
      .command .uint64
        (appendAll (lit "sadd" ++ lit " " ++ key ++ lit " " ++ member) members)
  | .scard key => .command .uint64 (fmtFormat "scard {}" [key])
  | .sdiff key keys =>
      .command .strings (appendAll (lit "sdiff" ++ lit " " ++ key) keys)
  | .sdiffstore destination key keys =>
      .command .uint64 (appendAll
          (lit "sdiffstore" ++ lit " " ++ destination ++ lit " " ++ key)
        keys)
  | .sinter key keys =>
      .command .strings (appendAll (lit "sinter" ++ lit " " ++ key) keys)
  | .sinterstore destination key keys =>
      .command .uint64 (appendAll
          (lit "sinterstore" ++ lit " " ++ destination ++ lit " " ++ key)
        keys)
  | .sismember key member =>
      .command .uint64 (CommandText.SyncConnection.sismember key member)
  | .smembers key => .command .strings (fmtFormat "smembers {}" [key])
  | .smove source destination member =>
      .command .uint64 (CommandText.SyncConnection.smove source destination member)
  | .spop key count =>
      .command .strings (fmtFormat "spop {} {}" [key, decimal count.toNat])
  | .srandmember key => .command .string (fmtFormat "srandmember {}" [key])
  | .srandmemberCount key count =>
      .command .strings (fmtFormat "srandmember {} {}" [key, decimal count.toNat])
  | .srem key member members =>
      .command .uint64
        (appendAll (lit "srem" ++ lit " " ++ key ++ lit " " ++ member) members)
  | .sscanCount key cursor count =>
      .scan (Scans.SyncConnectionImpl.sscan key cursor [] count)
  | .sscan key cursor pattern count =>
      .scan (Scans.SyncConnectionImpl.sscan key cursor pattern count)
  | .sunion key keys =>
      .command .uint64 (appendAll (lit "sunion" ++ lit " " ++ key) keys)
  | .sunionstore destination key keys =>
      .command .uint64 (appendAll
          (lit "sunionstore" ++ lit " " ++ destination ++ lit " " ++ key)
        keys)
  -- sorted set commands
  | .bzpopmax keys timeout =>
      if keys.isEmpty then .nothing .strings
      else .command .strings
        (appendAll (lit "bzpopmax") keys ++ lit " " ++ decimal timeout.toNat)
  | .bzpopmin keys timeout =>
      if keys.isEmpty then .nothing .strings
      else .command .strings
        (appendAll (lit "bzpopmin") keys ++ lit " " ++ decimal timeout.toNat)
  | .zadd key member score type => SyncConnectionImpl.zadd P key member score type
  | .zaddMany key kvs type => SyncConnectionImpl.zaddMany P key kvs type
  | .zcard key => .command .uint64 (fmtFormat "zcard {}" [key])
  | .zcount key min max =>
      .command .uint64 (fmtFormat "zcount {} {} {}" [key, min, max])
  | .zincrby key increment member =>
      .command .double
        (fmtFormat "zincrby {} {} {}" [key, P.fmtDouble increment, member])
  | .zlexcount key min max =>
      .command .uint64 (fmtFormat "zlexcount {} {} {}" [key, min, max])
  | .zpopmax key count =>
      .command .strings (fmtFormat "zpopmax {} {}" [key, decimal count.toNat])
  | .zpopmin key => .command .strings (fmtFormat "zpopmin {}" [key])
  | .zrange key min max =>
      .command .strings (fmtFormat "zrange {} {} {}" [key, min, max])
  | .zrangebylex key min max =>
      .command .strings (fmtFormat "zrangebylex {} {} {}" [key, min, max])
  | .zrangebyscore key min max =>
      .command .strings (fmtFormat "zrangebyscore {} {} {}" [key, min, max])
  | .zrank key member => .command .uint64 (fmtFormat "zrank {} {}" [key, member])
  | .zrem key member members =>
      .command .uint64
        (appendAll (lit "zrem" ++ lit " " ++ key ++ lit " " ++ member) members)
  | .zremrangebylex key min max =>
      .command .uint64 (fmtFormat "zremrangebylex {} {} {}" [key, min, max])
  | .zremrangebyrank key start stop =>
      .command .uint64
        (fmtFormat "zremrangebyrank {} {} {}" [key, decimal start.toNat,
          decimal stop.toNat])
  | .zremrangebyscore key min max =>
      .command .uint64 (fmtFormat "zremrangebyscore {} {} {}" [key, min, max])
  | .zrevrange key start stop withscores =>
      .command .string
        (fmtFormat "zrevrange {} {} {} {}" [key, decimal start.toNat,
          decimal stop.toNat, (if withscores then lit "WITHSCORES" else [])])
  | .zrevrangebylex key min max =>
      .command .string (fmtFormat "zrevrangebylex {} {} {}" [key, min, max])
  | .zrevrangebyscore key min max =>
      .command .string (fmtFormat "zrevrangebyscore {} {} {}" [key, min, max])
  | .zrevrank key member =>
      .command .uint64 (fmtFormat "zrevrank {} {}" [key, member])
  | .zscanCount _ _ _ => .itself
  | .zscan key cursor pattern count =>
      .scan (Scans.SyncConnectionImpl.zscan key cursor pattern count)
  | .zscore key member =>
      .command .double (CommandText.SyncConnection.zscore key member)
  | .zunionstore destination keys aggregate =>
      SyncConnectionImpl.zunionstore destination keys aggregate
  | .zunionstoreWeights destination kvs aggregate =>
      SyncConnectionImpl.zunionstoreWeights P destination kvs aggregate
  -- hyperloglog commands
  | .pfadd key elements =>
      .command .uint64 (appendAll (lit "pfadd" ++ lit " " ++ key) elements)

/-! ## How the two tables compare -/

/-- The request of either class. -/
def request (P : Platform double) : ConnClass → Call double → Request
  | .sync, c => SyncConnection.request P c
  | .coro, c => CoroConnection.request P c

/-- The methods that return before they send when they get no keys. -/
def Call.earlyExit : Call double → Bool
  | .zunionstore _ keys _ => keys.isEmpty
  | .zunionstoreWeights _ kvs _ => kvs.isEmpty
  | .bzpopmax keys _ => keys.isEmpty
  | .bzpopmin keys _ => keys.isEmpty
  | _ => false

/-- The methods that end in `send_scan_cmd`. -/
def Call.isScan : Call double → Bool
  | .scanCount _ _ | .scan _ _ _ => true
  | .hscanCount _ _ _ | .hscan _ _ _ _ => true
  | .sscanCount _ _ _ | .sscan _ _ _ _ => true
  | .zscan _ _ _ _ => true
  | _ => false

/-- The method that calls itself. -/
def Call.isItself : Call double → Bool
  | .zscanCount _ _ _ => true
  | _ => false

def Call.isHmset : Call double → Bool
  | .hmset _ _ _ _ => true
  | _ => false

/-- The text of `hmset`, in both classes. -/
def hmsetText (key field value : Bytes) (args : List Bytes) : Bytes :=
  appendAll
    (lit "hmset " ++ lit " " ++ key ++ lit " " ++ field ++ lit " " ++ value) args

/-- **ONE DRIFT**: apart from `hmset` the two classes do the same with every
    call. -/
theorem request_sync_eq_coro (P : Platform double) {c : Call double}
    (h : c.isHmset = false) :
    SyncConnection.request P c = CoroConnection.request P c := by
  cases c with
  | hmset => exact nomatch h
  | _ => rfl

/-- The request is of the kind the call's method and keys say. -/
def Request.Fits (req : Request) (c : Call double) : Prop :=
  match req with
  | .nothing _ => c.earlyExit = true ∧ c.isScan = false ∧ c.isItself = false
  | .command _ _ => c.earlyExit = false ∧ c.isScan = false ∧ c.isItself = false
  | .scan _ => c.earlyExit = false ∧ c.isScan = true ∧ c.isItself = false
  | .itself => c.earlyExit = false ∧ c.isScan = false ∧ c.isItself = true

/-- An early exit fits when the keys decide it. -/
private theorem fits_ite (c : Call double) {ret : RetType} {cmd : Bytes}
    (hs : c.isScan = false) (hi : c.isItself = false) :
    (if c.earlyExit then Request.nothing ret else .command ret cmd).Fits c := by
  cases he : c.earlyExit with
  | true => exact ⟨he, hs, hi⟩
  | false => exact ⟨he, hs, hi⟩

theorem request_coro_fits (P : Platform double) (c : Call double) :
    (CoroConnection.request P c).Fits c := by
  cases c with
  | zunionstore destination keys aggregate =>
      exact fits_ite (.zunionstore destination keys aggregate) rfl rfl
  | zunionstoreWeights destination kvs aggregate =>
      exact fits_ite (.zunionstoreWeights destination kvs aggregate) rfl rfl
  | bzpopmax keys timeout => exact fits_ite (.bzpopmax keys timeout) rfl rfl
  | bzpopmin keys timeout => exact fits_ite (.bzpopmin keys timeout) rfl rfl
  | _ => exact ⟨rfl, rfl, rfl⟩

/-- **KINDS**: whether a call sends, and through which path, can be read off
    its method and its keys, in either class. -/
theorem request_fits (P : Platform double) (cls : ConnClass) (c : Call double) :
    (request P cls c).Fits c := by
  cases cls with
  | coro => exact request_coro_fits P c
  | sync =>
      show (SyncConnection.request P c).Fits c
      cases h : c.isHmset with
      | false =>
          rw [request_sync_eq_coro P h]
          exact request_coro_fits P c
      | true =>
          cases c with
          | hmset => exact ⟨rfl, rfl, rfl⟩
          | _ => exact nomatch h

end Methods
