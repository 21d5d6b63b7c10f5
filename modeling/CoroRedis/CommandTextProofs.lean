import CoroRedis.HiredisFormatProofs

/-! # Key/value commands: from the call to the argument vector

    The builders of the two connection classes, one definition per method,
    and the question whether the argument vector hiredis makes of their text
    is the call the user wrote.

    `KeyValueCall.text` is the text a call builds in either class,
    `KeyValueCall.verb` and `KeyValueCall.args` are the call itself.  All the
    builders produce the same shape (`text_eq_fields`), so one theorem answers
    for all of them: `argv_faithful_iff`. -/

namespace CommandText

open Pieces CoroBytes HiredisFormat

/-! ## The options of `SET` -/

inductive RedisTTLType where
  | EX | PX | EXAT | PXAT | KEEPTTL
  deriving DecidableEq

inductive UpdateType where
  | ALWAYS | EXIST | NOT_EXIST | LESS_THAN | GREATE_THAN | CHANGED | INCR
  deriving DecidableEq

/-! ## `coro_connection_impl` -/

namespace CoroConnectionImpl

/-- `coro_connection_impl::set`. -/
def set (key val : Bytes) (ttl : UInt64) (ttl_type : RedisTTLType)
    (type : UpdateType) : Bytes :=
  let cmd := fmtFormat "set {} {}" [key, val]
  let cmd :=
    if ttl > 0 ∧ ttl_type ≠ .KEEPTTL then
      (match ttl_type with
        | .EX => cmd ++ lit " EX "
        | .PX => cmd ++ lit " PX "
        | .EXAT => cmd ++ lit " EXAT "
        | .PXAT => cmd ++ lit " PXAT "
        | .KEEPTTL => cmd) ++ decimal ttl.toNat
    else cmd
  let cmd := if ttl_type = .KEEPTTL then cmd ++ lit " KEEPTTL " else cmd
  match type with
  | .EXIST => cmd ++ lit " XX "
  | .NOT_EXIST => cmd ++ lit " NX "
  | _ => cmd

/-- `coro_connection_impl::hset`. -/
def hset (key : Bytes) (kvs : List (Bytes × Bytes)) : Bytes :=
  kvs.foldl (fun cmd kv => cmd ++ lit " " ++ kv.1 ++ lit " " ++ kv.2)
    (lit "hset" ++ lit " " ++ key)

end CoroConnectionImpl

/-! ## `sync_connection_impl` -/

namespace SyncConnectionImpl

/-- `sync_connection_impl::set`. -/
def set (key val : Bytes) (ttl : UInt64) (ttl_type : RedisTTLType)
    (type : UpdateType) : Bytes :=
  let cmd := fmtFormat "set {} {}" [key, val]
  let cmd :=
    if ttl > 0 ∧ ttl_type ≠ .KEEPTTL then
      (match ttl_type with
        | .EX => cmd ++ lit " EX "
        | .PX => cmd ++ lit " PX "
        | .EXAT => cmd ++ lit " EXAT "
        | .PXAT => cmd ++ lit " PXAT "
        -- the switch has no such case and no default
        | .KEEPTTL => cmd) ++ decimal ttl.toNat
    else cmd
  let cmd := if ttl_type = .KEEPTTL then cmd ++ lit " KEEPTTL " else cmd
  match type with
  | .EXIST => cmd ++ lit " XX "
  | .NOT_EXIST => cmd ++ lit " NX "
  | _ => cmd

/-- `sync_connection_impl::hset`. -/
def hset (key : Bytes) (kvs : List (Bytes × Bytes)) : Bytes :=
  kvs.foldl (fun cmd kv => cmd ++ lit " " ++ kv.1 ++ lit " " ++ kv.2)
    (lit "hset" ++ lit " " ++ key)

end SyncConnectionImpl

/-! ## `coro_connection` -/

namespace CoroConnection

def echo (msg : Bytes) : Bytes := fmtFormat "echo {}" [msg]

def rename (key newkey : Bytes) : Bytes :=
  fmtFormat "rename {} {}" [key, newkey]

def append (key str : Bytes) : Bytes := fmtFormat "append {} {}" [key, str]

def get (key : Bytes) : Bytes := fmtFormat "get {}" [key]

def getset (key val : Bytes) : Bytes := fmtFormat "getset {} {}" [key, val]

/-- `set`, whose last three parameters have defaults. -/
def set (key val : Bytes) (ttl : UInt64 := 0) (ttl_type : RedisTTLType := .EX)
    (type : UpdateType := .ALWAYS) : Bytes :=
  CoroConnectionImpl.set key val ttl ttl_type type

def setex (key : Bytes) (ttl : UInt64) (val : Bytes) : Bytes :=
  fmtFormat "setex {} {} {}" [key, decimal ttl.toNat, val]

def setnx (key val : Bytes) : Bytes := fmtFormat "setnx {} {}" [key, val]

def setrange (key : Bytes) (offset : UInt64) (val : Bytes) : Bytes :=
  fmtFormat "setrange {} {} {}" [key, decimal offset.toNat, val]

def lpush (key val : Bytes) : Bytes := fmtFormat "lpush {} {}" [key, val]

def lpushx (key val : Bytes) : Bytes := fmtFormat "lpushx {} {}" [key, val]

def rpushx (key val : Bytes) : Bytes := fmtFormat "rpushx {} {}" [key, val]

def hget (key field : Bytes) : Bytes := fmtFormat "hget {} {}" [key, field]

def hsetnx (key field val : Bytes) : Bytes :=
  fmtFormat "hsetnx {} {} {}" [key, field, val]

def hstrlen (key field : Bytes) : Bytes :=
  fmtFormat "hstrlen {} {}" [key, field]

def sismember (key member : Bytes) : Bytes :=
  fmtFormat "sismember {} {}" [key, member]

def smove (source destination member : Bytes) : Bytes :=
  fmtFormat "smove {} {} {}" [source, destination, member]

def zscore (key member : Bytes) : Bytes :=
  fmtFormat "zscore {} {}" [key, member]

end CoroConnection

/-! ## `sync_connection` -/

namespace SyncConnection

def echo (msg : Bytes) : Bytes := fmtFormat "echo {}" [msg]

def rename (key newkey : Bytes) : Bytes :=
  fmtFormat "rename {} {}" [key, newkey]

def append (key str : Bytes) : Bytes := fmtFormat "append {} {}" [key, str]

def get (key : Bytes) : Bytes := fmtFormat "get {}" [key]

def getset (key val : Bytes) : Bytes := fmtFormat "getset {} {}" [key, val]

/-- `set`, whose last three parameters have defaults. -/
def set (key val : Bytes) (ttl : UInt64 := 0) (ttl_type : RedisTTLType := .EX)
    (type : UpdateType := .ALWAYS) : Bytes :=
  SyncConnectionImpl.set key val ttl ttl_type type

def setex (key : Bytes) (ttl : UInt64) (val : Bytes) : Bytes :=
  fmtFormat "setex {} {} {}" [key, decimal ttl.toNat, val]

def setnx (key val : Bytes) : Bytes := fmtFormat "setnx {} {}" [key, val]

def setrange (key : Bytes) (offset : UInt64) (val : Bytes) : Bytes :=
  fmtFormat "setrange {} {} {}" [key, decimal offset.toNat, val]

def lpush (key val : Bytes) : Bytes := fmtFormat "lpush {} {}" [key, val]

def lpushx (key val : Bytes) : Bytes := fmtFormat "lpushx {} {}" [key, val]

def rpushx (key val : Bytes) : Bytes := fmtFormat "rpushx {} {}" [key, val]

def hget (key field : Bytes) : Bytes := fmtFormat "hget {} {}" [key, field]

def hsetnx (key field val : Bytes) : Bytes :=
  fmtFormat "hsetnx {} {} {}" [key, field, val]

def hstrlen (key field : Bytes) : Bytes :=
  fmtFormat "hstrlen {} {}" [key, field]

def sismember (key member : Bytes) : Bytes :=
  fmtFormat "sismember {} {}" [key, member]

def smove (source destination member : Bytes) : Bytes :=
  fmtFormat "smove {} {} {}" [source, destination, member]

def zscore (key member : Bytes) : Bytes :=
  fmtFormat "zscore {} {}" [key, member]

end SyncConnection

/-! ## Calls of either class -/

/-- The two connection classes. -/
inductive ConnClass where
  | sync | coro
  deriving DecidableEq

/-- A call of a key/value method. -/
inductive KeyValueCall where
  | get (key : Bytes)
  | echo (msg : Bytes)
  | set (key val : Bytes)
  | getset (key val : Bytes)
  | append (key str : Bytes)
  | setex (key : Bytes) (ttl : UInt64) (val : Bytes)
  | setnx (key val : Bytes)
  | setrange (key : Bytes) (offset : UInt64) (val : Bytes)
  | rename (key newkey : Bytes)
  | lpush (key val : Bytes)
  | lpushx (key val : Bytes)
  | rpushx (key val : Bytes)
  | hget (key field : Bytes)
  | hsetnx (key field val : Bytes)
  | hstrlen (key field : Bytes)
  | sismember (key member : Bytes)
  | smove (source destination member : Bytes)
  | zscore (key member : Bytes)
  | hset (key : Bytes) (kvs : List (Bytes × Bytes))

namespace KeyValueCall

/-- The text the call hands to `command`. -/
def text : ConnClass → KeyValueCall → Bytes
  | .coro, .get key => CoroConnection.get key
  | .coro, .echo msg => CoroConnection.echo msg
  | .coro, .set key val => CoroConnection.set key val
  | .coro, .getset key val => CoroConnection.getset key val
  | .coro, .append key str => CoroConnection.append key str
  | .coro, .setex key ttl val => CoroConnection.setex key ttl val
  | .coro, .setnx key val => CoroConnection.setnx key val
  | .coro, .setrange key offset val => CoroConnection.setrange key offset val
  | .coro, .rename key newkey => CoroConnection.rename key newkey
  | .coro, .lpush key val => CoroConnection.lpush key val
  | .coro, .lpushx key val => CoroConnection.lpushx key val
  | .coro, .rpushx key val => CoroConnection.rpushx key val
  | .coro, .hget key field => CoroConnection.hget key field
  | .coro, .hsetnx key field val => CoroConnection.hsetnx key field val
  | .coro, .hstrlen key field => CoroConnection.hstrlen key field
  | .coro, .sismember key member => CoroConnection.sismember key member
  | .coro, .smove source destination member =>
      CoroConnection.smove source destination member
  | .coro, .zscore key member => CoroConnection.zscore key member
  | .coro, .hset key kvs => CoroConnectionImpl.hset key kvs
  | .sync, .get key => SyncConnection.get key
  | .sync, .echo msg => SyncConnection.echo msg
  | .sync, .set key val => SyncConnection.set key val
  | .sync, .getset key val => SyncConnection.getset key val
  | .sync, .append key str => SyncConnection.append key str
  | .sync, .setex key ttl val => SyncConnection.setex key ttl val
  | .sync, .setnx key val => SyncConnection.setnx key val
  | .sync, .setrange key offset val => SyncConnection.setrange key offset val
  | .sync, .rename key newkey => SyncConnection.rename key newkey
  | .sync, .lpush key val => SyncConnection.lpush key val
  | .sync, .lpushx key val => SyncConnection.lpushx key val
  | .sync, .rpushx key val => SyncConnection.rpushx key val
  | .sync, .hget key field => SyncConnection.hget key field
  | .sync, .hsetnx key field val => SyncConnection.hsetnx key field val
  | .sync, .hstrlen key field => SyncConnection.hstrlen key field
  | .sync, .sismember key member => SyncConnection.sismember key member
  | .sync, .smove source destination member =>
      SyncConnection.smove source destination member
  | .sync, .zscore key member => SyncConnection.zscore key member
  | .sync, .hset key kvs => SyncConnectionImpl.hset key kvs

/-- The Redis command the method stands for. -/
def verb : KeyValueCall → Bytes
  | .get _ => lit "get"
  | .echo _ => lit "echo"
  | .set _ _ => lit "set"
  | .getset _ _ => lit "getset"
  | .append _ _ => lit "append"
  | .setex _ _ _ => lit "setex"
  | .setnx _ _ => lit "setnx"
  | .setrange _ _ _ => lit "setrange"
  | .rename _ _ => lit "rename"
  | .lpush _ _ => lit "lpush"
  | .lpushx _ _ => lit "lpushx"
  | .rpushx _ _ => lit "rpushx"
  | .hget _ _ => lit "hget"
  | .hsetnx _ _ _ => lit "hsetnx"
  | .hstrlen _ _ => lit "hstrlen"
  | .sismember _ _ => lit "sismember"
  | .smove _ _ _ => lit "smove"
  | .zscore _ _ => lit "zscore"
  | .hset _ _ => lit "hset"

/-- The arguments of the call, in the order of its parameters. -/
def args : KeyValueCall → List Bytes
  | .get key => [key]
  | .echo msg => [msg]
  | .set key val => [key, val]
  | .getset key val => [key, val]
  | .append key str => [key, str]
  | .setex key ttl val => [key, decimal ttl.toNat, val]
  | .setnx key val => [key, val]
  | .setrange key offset val => [key, decimal offset.toNat, val]
  | .rename key newkey => [key, newkey]
  | .lpush key val => [key, val]
  | .lpushx key val => [key, val]
  | .rpushx key val => [key, val]
  | .hget key field => [key, field]
  | .hsetnx key field val => [key, field, val]
  | .hstrlen key field => [key, field]
  | .sismember key member => [key, member]
  | .smove source destination member => [source, destination, member]
  | .zscore key member => [key, member]
  | .hset key kvs => key :: kvs.flatMap (fun kv => [kv.1, kv.2])

theorem args_ne_nil (call : KeyValueCall) : call.args ≠ [] := by
  cases call <;> exact List.cons_ne_nil _ _

/-- Verbs are written in lower-case letters. -/
theorem verb_lower (call : KeyValueCall) : LowerWord call.verb := by
  cases call <;> exact lowerWord_lit rfl rfl

end KeyValueCall

/-- The pair loop of `hset` appends one field per key and value. -/
theorem hset_loop (kvs : List (Bytes × Bytes)) :
    ∀ cmd : Bytes,
      kvs.foldl (fun cmd kv => cmd ++ lit " " ++ kv.1 ++ lit " " ++ kv.2) cmd
        = fields sp cmd (kvs.flatMap (fun kv => [kv.1, kv.2])) := by
  -- the command grows along the loop, so it stays general
  induction kvs with
  | nil => intro cmd; simp
  | cons kv kvs ih =>
      intro cmd
      have hlit : lit " " = [sp] := by decide
      rw [List.foldl_cons, ih, List.flatMap_cons, List.cons_append,
        List.cons_append, List.nil_append, fields_cons, fields_cons, hlit]
      simp

/-- **ONE SHAPE**: every builder writes the verb with its arguments as
    space-prefixed fields. -/
theorem text_eq_fields (cls : ConnClass) (call : KeyValueCall) :
    call.text cls = fields sp call.verb call.args := by
  have hset : ∀ key kvs, CoroConnectionImpl.hset key kvs
      = fields sp (lit "hset") (key :: kvs.flatMap (fun kv => [kv.1, kv.2])) := by
    intro key kvs
    rw [CoroConnectionImpl.hset, hset_loop, fields_cons]
    simp [lit, sp]
  cases call with
  | hset key kvs =>
      cases cls with
      | coro => exact hset key kvs
      | sync => exact hset key kvs
  | _ =>
      cases cls <;>
        exact fmtFormat_fields rfl rfl (lowerWord_lit rfl rfl) (List.cons_ne_nil _ _)

/-! ## The exact condition for fidelity -/

/-- With nonempty arguments, the last byte of the text is the last byte of the
    last argument. -/
theorem pct_dropLast_fields {verb : Bytes} (hverb : pct ∉ verb)
    {args : List Bytes} (hne : args ≠ []) (hargs : ∀ a ∈ args, Argument a) :
    pct ∈ (fields sp verb args).dropLast ↔ pct ∈ args.flatten.dropLast := by
  -- dropping the last byte of the text drops it from the last argument
  obtain ⟨front, last, rfl⟩ := List.eq_nil_or_concat args |>.resolve_left hne
  rw [List.concat_eq_append] at hargs ⊢
  have hlast : last ≠ [] := by
    refine (hargs last ?_).word.ne_nil
    simp
  have htext : (fields sp verb (front ++ [last])).dropLast
      = verb ++ front.flatMap (fun a => sp :: a) ++ sp :: last.dropLast := by
    have hsp : sp :: last ≠ [] := List.cons_ne_nil _ _
    rw [fields, List.flatMap_append, List.flatMap_singleton,
      ← List.append_assoc, List.dropLast_append_of_ne_nil hsp,
      List.dropLast_cons_of_ne_nil hlast]
  have hflat : (front ++ [last]).flatten.dropLast
      = front.flatten ++ last.dropLast := by
    rw [List.flatten_append, List.flatten_singleton,
      List.dropLast_append_of_ne_nil hlast]
  have hfront : pct ∈ front.flatMap (fun a => sp :: a)
      ↔ pct ∈ front.flatten := by
    have hps : pct ≠ sp := by decide
    simp [hps]
  have hps : pct ≠ sp := by decide
  rw [htext, hflat, List.mem_append, List.mem_append, List.mem_append,
    List.mem_cons, hfront]
  constructor
  · rintro ((hv | hf) | (hs | hl))
    · exact absurd hv hverb
    · exact Or.inl hf
    · exact absurd hs hps
    · exact Or.inr hl
  · rintro (hf | hl)
    · exact Or.inl (Or.inr hf)
    · exact Or.inr (Or.inr hl)

/-- **FIDELITY, EXACTLY**: the argument vector is the verb followed by the
    call's arguments iff each argument is nonempty and free of spaces and
    NULs, and no `%` occurs in them except as the very last byte. -/
theorem argv_faithful_iff (R : RedisFormat) (cls : ConnClass)
    (call : KeyValueCall) :
    R.format (call.text cls) = some (call.verb :: call.args)
      ↔ (∀ a ∈ call.args, Argument a) ∧ pct ∉ call.args.flatten.dropLast := by
  rw [text_eq_fields, format_fields_iff R call.verb_lower.argument]
  refine and_congr_right fun hargs => not_congr ?_
  exact pct_dropLast_fields (call.verb_lower.not_mem (Or.inl (by decide)))
    call.args_ne_nil hargs

/-- A key with a space in it reaches the server as two arguments. -/
theorem get_space_splits :
    hiredisFormat.format (KeyValueCall.text .coro (.get (lit "a b")))
      = some [lit "get", lit "a", lit "b"]
    ∧ hiredisFormat.format (KeyValueCall.text .coro (.get (lit "a b")))
      ≠ some (KeyValueCall.verb (.get (lit "a b"))
          :: KeyValueCall.args (.get (lit "a b"))) := by
  decide

end CommandText
