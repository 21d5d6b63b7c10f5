import CoroRedis.SetOptionProofs

/-! # The methods of fixed arity

    Every other method formats its text with one `fmt::format`.
    `fixedCommand` is the command of the server such a method is named after,
    with the parameters in the order of the command's syntax; `sentCommand` is
    what the format strings make of it.  The two differ in four methods:
    `restore` prints its flag as a `bool`, `incrbyfloat` is sent as `incrby`,
    and two commands take their bounds the other way round.

    * `fixed_argv` — what a call sends;
    * `fixed_follows_iff` — when that is the documented command. -/

namespace Methods

open Pieces CoroBytes HiredisFormat CommandText Decoding

variable {double : Type}

/-! ## The commands -/

/-- A verb with its arguments, and with options behind them. -/
structure FixedCommand where
  verb : Bytes
  args : List Bytes
  options : List Token := []

/-- The command with its options, as the documentation writes it. -/
def FixedCommand.form (d : FixedCommand) : List Token :=
  .word d.verb :: (d.args.map .data ++ d.options)

/-- A keyword that is there or not. -/
def optionIf (b : Bool) (kw : Bytes) : List Token := if b then [.word kw] else []

/-- The options of `SET`. -/
def SetOptions.form (o : SetOptions) : List Token :=
  (match o.expiry with
    | none => []
    | some .keepTtl => [.word (lit "KEEPTTL")]
    | some (.after unit n) => [.word unit.keyword, .data (decimal n)])
    ++ o.condition.toList.map fun c => .word c.keyword

/-- The command a call of a method of fixed arity stands for. -/
def fixedCommand (P : Platform double) : Call double → Option FixedCommand
  -- connection commands
  | .auth password => some ⟨lit "auth", [password], []⟩
  | .authUser user password => some ⟨lit "auth", [user, password], []⟩
  | .echo msg => some ⟨lit "echo", [msg], []⟩
  | .pingMsg msg => some ⟨lit "ping", [msg], []⟩
  | .quit => some ⟨lit "quit", [], []⟩
  | .select idx => some ⟨lit "select", [decimal idx.toNat], []⟩
  | .swapdb idx1 idx2 =>
      some ⟨lit "swapdb", [decimal idx1.toNat, decimal idx2.toNat], []⟩
  -- server commands
  | .infoSection sec => some ⟨lit "info", [sec], []⟩
  -- key commands
  | .dump key => some ⟨lit "dump", [key], []⟩
  | .expire key timeout => some ⟨lit "expire", [key, decimal timeout.toNat], []⟩
  | .expireat key timestamp =>
      some ⟨lit "expireat", [key, decimal timestamp.toNat], []⟩
  | .move key db => some ⟨lit "move", [key, decimal db.toNat], []⟩
  | .persist key => some ⟨lit "persist", [key], []⟩
  | .pexpire key timeout => some ⟨lit "pexpire", [key, decimal timeout.toNat], []⟩
  | .pexpireat key timestamp =>
      some ⟨lit "pexpireat", [key, decimal timestamp.toNat], []⟩
  | .pttl key => some ⟨lit "pttl", [key], []⟩
  | .rename key newkey => some ⟨lit "rename", [key, newkey], []⟩
  | .renamenx key newkey => some ⟨lit "renamenx", [key, newkey], []⟩
  | .restore key val ttl replace =>
      some ⟨lit "restore", [key, decimal ttl.toNat, val],
        optionIf replace (lit "REPLACE")⟩
  | .ttl key => some ⟨lit "ttl", [key], []⟩
  | .type key => some ⟨lit "type", [key], []⟩
  | .wait numslaves timeout =>
      some ⟨lit "wait", [decimal numslaves.toNat, decimal timeout.toNat], []⟩
  -- string commands
  | .append key str => some ⟨lit "append", [key, str], []⟩
  | .bitcount key start stop =>
      some ⟨lit "bitcount", [key, decimal start.toNat, decimal stop.toNat], []⟩
  | .bitpos key bit start stop =>
      some ⟨lit "bitpos", [key, decimal bit.toNat, decimal start.toNat,
        decimal stop.toNat], []⟩
  | .decr key => some ⟨lit "decr", [key], []⟩
  | .decrby key decrement => some ⟨lit "decrby", [key, decimal decrement.toNat], []⟩
  | .get key => some ⟨lit "get", [key], []⟩
  | .getbit key offset => some ⟨lit "getbit", [key, decimal offset.toNat], []⟩
  | .getrange key start stop =>
      some ⟨lit "getrange", [key, decimal start.toNat, decimal stop.toNat], []⟩
  | .getset key val => some ⟨lit "getset", [key, val], []⟩
  | .incr key => some ⟨lit "incr", [key], []⟩
  | .incrby key increment => some ⟨lit "incrby", [key, decimal increment.toNat], []⟩
  | .incrbyfloat key increment =>
      some ⟨lit "incrbyfloat", [key, P.fmtDouble increment], []⟩
  | .psetex key ttl val => some ⟨lit "psetex", [key, decimal ttl.toNat, val], []⟩
  | .set key val ttl ttl_type update =>
      some ⟨lit "set", [key, val.text], (setOptions ttl ttl_type update).form⟩
  | .setex key ttl val => some ⟨lit "setex", [key, decimal ttl.toNat, val], []⟩
  | .setnx key val => some ⟨lit "setnx", [key, val], []⟩
  | .setrange key offset val =>
      some ⟨lit "setrange", [key, decimal offset.toNat, val], []⟩
  | .strlen key => some ⟨lit "strlen", [key], []⟩
  -- list commands
  | .llen key => some ⟨lit "llen", [key], []⟩
  | .lpop key => some ⟨lit "lpop", [key], []⟩
  | .lpush key val => some ⟨lit "lpush", [key, val], []⟩
  | .lpushx key val => some ⟨lit "lpushx", [key, val], []⟩
  | .lrange key start stop =>
      some ⟨lit "lrange", [key, decimal start.toNat, decimal stop.toNat], []⟩
  | .lrem key count val => some ⟨lit "lrem", [key, decimal count.toNat, val], []⟩
  | .lset key index val => some ⟨lit "lset", [key, decimal index.toNat, val], []⟩
  | .ltrim key start stop =>
      some ⟨lit "ltrim", [key, decimal start.toNat, decimal stop.toNat], []⟩
  | .rpop key => some ⟨lit "rpop", [key], []⟩
  | .rpoplpush source destination =>
      some ⟨lit "rpoplpush", [source, destination], []⟩
  | .rpushx key val => some ⟨lit "rpushx", [key, val], []⟩
  -- hash commands
  | .hexists key field => some ⟨lit "hexists", [key, field], []⟩
  | .hget key field => some ⟨lit "hget", [key, field], []⟩
  | .hgetall key => some ⟨lit "hgetall", [key], []⟩
  | .hincrby key field increment =>
      some ⟨lit "hincrby", [key, field, decimal increment.toNat], []⟩
  | .hincrbyfloat key field increment =>
      some ⟨lit "hincrbyfloat", [key, field, P.fmtDouble increment], []⟩
  | .hkeys key => some ⟨lit "hkeys", [key], []⟩
  | .hlen key => some ⟨lit "hlen", [key], []⟩
  | .hsetnx key field val => some ⟨lit "hsetnx", [key, field, val], []⟩
  | .hstrlen key field => some ⟨lit "hstrlen", [key, field], []⟩
  | .hvals key => some ⟨lit "hvals", [key], []⟩
  -- set commands
  | .scard key => some ⟨lit "scard", [key], []⟩
  | .sismember key member => some ⟨lit "sismember", [key, member], []⟩
  | .smembers key => some ⟨lit "smembers", [key], []⟩
  | .smove source destination member =>
      some ⟨lit "smove", [source, destination, member], []⟩
  | .spop key count => some ⟨lit "spop", [key, decimal count.toNat], []⟩
  | .srandmember key => some ⟨lit "srandmember", [key], []⟩
  | .srandmemberCount key count =>
      some ⟨lit "srandmember", [key, decimal count.toNat], []⟩
  -- sorted set commands
  | .zcard key => some ⟨lit "zcard", [key], []⟩
  | .zcount key min max => some ⟨lit "zcount", [key, min, max], []⟩
  | .zincrby key increment member =>
      some ⟨lit "zincrby", [key, P.fmtDouble increment, member], []⟩
  | .zlexcount key min max => some ⟨lit "zlexcount", [key, min, max], []⟩
  | .zpopmax key count => some ⟨lit "zpopmax", [key, decimal count.toNat], []⟩
  | .zpopmin key => some ⟨lit "zpopmin", [key], []⟩
  | .zrange key min max => some ⟨lit "zrange", [key, min, max], []⟩
  | .zrangebylex key min max => some ⟨lit "zrangebylex", [key, min, max], []⟩
  | .zrangebyscore key min max => some ⟨lit "zrangebyscore", [key, min, max], []⟩
  | .zrank key member => some ⟨lit "zrank", [key, member], []⟩
  | .zremrangebylex key min max => some ⟨lit "zremrangebylex", [key, min, max], []⟩
  | .zremrangebyrank key start stop =>
      some ⟨lit "zremrangebyrank", [key, decimal start.toNat, decimal stop.toNat], []⟩
  | .zremrangebyscore key min max =>
      some ⟨lit "zremrangebyscore", [key, min, max], []⟩
  | .zrevrange key start stop withscores =>
      some ⟨lit "zrevrange", [key, decimal start.toNat, decimal stop.toNat],
        optionIf withscores (lit "WITHSCORES")⟩
  -- the upper bound comes first
  | .zrevrangebylex key min max => some ⟨lit "zrevrangebylex", [key, max, min], []⟩
  | .zrevrangebyscore key min max =>
      some ⟨lit "zrevrangebyscore", [key, max, min], []⟩
  | .zrevrank key member => some ⟨lit "zrevrank", [key, member], []⟩
  | .zscore key member => some ⟨lit "zscore", [key, member], []⟩
  | _ => none

/-! ## What is sent -/

/-- A token as it is documented. -/
def Token.spelling : Token → Bytes
  | .word w => w
  | .data a => a

/-- Verb and arguments as the format strings have them. -/
def sentCommand (P : Platform double) : Call double → Option (Bytes × List Bytes)
  | .restore key val ttl replace =>
      some (lit "restore", [key, decimal ttl.toNat, val, fmtBool replace])
  | .incrbyfloat key increment => some (lit "incrby", [key, P.fmtDouble increment])
  | .zrevrangebylex key min max => some (lit "zrevrangebylex", [key, min, max])
  | .zrevrangebyscore key min max => some (lit "zrevrangebyscore", [key, min, max])
  | c => (fixedCommand P c).map fun d =>
      (d.verb, d.args ++ d.options.map Token.spelling)

/-- The options of `SET`, spelled out. -/
theorem spelling_setForm (o : SetOptions) : o.form.map Token.spelling = o.tokens := by
  obtain ⟨expiry, condition⟩ := o
  rw [SetOptions.form, SetOptions.tokens, List.map_append]
  refine congrArg₂ _ ?_ ?_
  · cases expiry with
    | none => rfl
    | some e => cases e <;> rfl
  · rw [List.map_map]
    rfl

section written

variable {P : Platform double} {c : Call double} {verb : Bytes} {args : List Bytes}

theorem lowerWord_sent (h : sentCommand P c = some (verb, args)) : LowerWord verb := by
  cases c <;> cases h <;> exact lowerWord_lit rfl rfl

/-- Every format string writes its verb and its arguments. -/
theorem fixed_written (h : sentCommand P c = some (verb, args))
    (hne : ∀ a ∈ args, a ≠ []) :
    ∃ text, (CoroConnection.request P c).text = some text
      ∧ Written sp verb text args := by
  have hverb := lowerWord_sent h
  cases c with
  | quit =>
      cases h
      exact ⟨_, rfl, written_head⟩
  | set key val ttl ttl_type type =>
      cases h
      rw [spelling_setForm] at hne ⊢
      exact ⟨_, rfl, set_written (hne key (by simp)) (hne val.text (by simp))
        ttl ttl_type type⟩
  | zrevrange key start stop withscores =>
      cases h
      refine ⟨_, rfl, ?_⟩
      cases withscores with
      | true => exact written_fmt rfl rfl hverb (List.cons_ne_nil _ _) hne
      | false =>
          -- without the flag its field is empty
          have hfields : fmtFormat "zrevrange {} {} {} {}"
              [key, decimal start.toNat, decimal stop.toNat, []]
              = fields sp (lit "zrevrange")
                [key, decimal start.toNat, decimal stop.toNat, []] :=
            fmtFormat_fields rfl rfl hverb (List.cons_ne_nil _ _)
          have hsplit : fields sp (lit "zrevrange")
              [key, decimal start.toNat, decimal stop.toNat, []]
              = fields sp (lit "zrevrange")
                [key, decimal start.toNat, decimal stop.toNat] ++ [sp] := by
            simp [fields]
          exact hfields.trans hsplit ▸ written_sep (written_fields written_head hne)
  | _ => cases h <;> exact ⟨_, rfl, written_fmt rfl rfl hverb (List.cons_ne_nil _ _) hne⟩

/-- **WHAT THEY SEND**, in either class. -/
theorem fixed_argv (R : RedisFormat) (cls : ConnClass)
    (h : sentCommand P c = some (verb, args)) (hargs : ∀ a ∈ args, Plain a) :
    argv R P cls c = some (verb :: args) := by
  obtain ⟨text, htext, hw⟩ := fixed_written h fun a ha => (hargs a ha).ne_nil
  exact argv_written R cls htext (lowerWord_sent h) hw hargs

end written

/-! ## Sent as documented -/

/-- The vector of the call is the documented command. -/
def SendsDocumented (R : RedisFormat) (P : Platform double) (cls : ConnClass)
    (c : Call double) (d : FixedCommand) : Prop :=
  ∃ v, argv R P cls c = some v ∧ Follows d.form v

/-- The methods that keep to the syntax of their command; the ranges from high
    to low do if their two bounds are the same. -/
def keepsSyntax : Call double → Prop
  | .restore _ _ _ _ => False
  | .incrbyfloat _ _ => False
  | .zrevrangebylex _ min max => min = max
  | .zrevrangebyscore _ min max => min = max
  | _ => True

theorem follows_spelling (form : List Token) :
    Follows form (form.map Token.spelling) := by
  refine List.forall₂_map_right_iff.mpr (List.forall₂_same.mpr fun t _ => ?_)
  cases t <;> rfl

theorem spelling_form (d : FixedCommand) :
    d.form.map Token.spelling = d.verb :: (d.args ++ d.options.map Token.spelling) := by
  simp [FixedCommand.form, Token.spelling, Function.comp_def]

/-- Options are made of keywords and numbers. -/
theorem plain_options {P : Platform double} {c : Call double} {d : FixedCommand}
    (h : fixedCommand P c = some d) : ∀ a ∈ d.options.map Token.spelling, Plain a := by
  have hif : ∀ b kw, Plain kw → ∀ a ∈ (optionIf b kw).map Token.spelling, Plain a := by
    intro b kw hkw a ha
    cases b with
    | false => exact nomatch ha
    | true =>
        rw [List.mem_singleton.mp ha]
        exact hkw
  cases c with
  | restore key val ttl replace =>
      cases h
      exact hif replace _ (by decide)
  | zrevrange key start stop withscores =>
      cases h
      exact hif withscores _ (by decide)
  | set key val ttl ttl_type type =>
      cases h
      rw [spelling_setForm]
      exact plain_tokens _
  | _ => cases h <;> exact nofun

section documented

variable (R : RedisFormat) {P : Platform double} (cls : ConnClass)
  {c : Call double} {d : FixedCommand}

/-- The vector of a format string in the order of the documentation. -/
theorem argv_of_sent (h : fixedCommand P c = some d)
    (hs : sentCommand P c = some (d.verb, d.args ++ d.options.map Token.spelling))
    (hargs : ∀ a ∈ d.args, Plain a) :
    argv R P cls c = some (d.verb :: (d.args ++ d.options.map Token.spelling)) :=
  fixed_argv R cls hs fun a ha =>
    (List.mem_append.mp ha).elim (hargs a) (plain_options h a)

/-- Such a format string is the documented command. -/
theorem documented_of_sent (h : fixedCommand P c = some d)
    (hs : sentCommand P c = some (d.verb, d.args ++ d.options.map Token.spelling))
    (hargs : ∀ a ∈ d.args, Plain a) : SendsDocumented R P cls c d := by
  have hsent := argv_of_sent R cls h hs hargs
  rw [← spelling_form] at hsent
  exact ⟨_, hsent, follows_spelling d.form⟩

/-- What follows for the vector that a call is known to send. -/
theorem follows_of_documented {verb : Bytes} {args : List Bytes}
    (hdoc : SendsDocumented R P cls c d) (hs : sentCommand P c = some (verb, args))
    (hargs : ∀ a ∈ args, Plain a) : Follows d.form (verb :: args) := by
  obtain ⟨v, hv, hfollows⟩ := hdoc
  rw [fixed_argv R cls hs hargs] at hv
  rw [Option.some.inj hv]
  exact hfollows

/-- A vector with the documented arguments has the documented verb and
    options. -/
theorem follows_options {verb : Bytes} {extra : List Bytes}
    (h : Follows d.form (verb :: (d.args ++ extra))) :
    SameWord verb d.verb ∧ Follows d.options extra := by
  obtain ⟨hverb, hrest⟩ := follows_cons.mp h
  obtain ⟨rest, hoptions, heq⟩ := (follows_data_append d.args _).mp hrest
  rw [List.append_cancel_left heq]
  exact ⟨hverb, hoptions⟩

/-- `true` and `false` are not options of `RESTORE`. -/
theorem restore_not_documented (key val : Bytes) (ttl : UInt64) (replace : Bool)
    (h : fixedCommand P (.restore key val ttl replace) = some d)
    (hargs : ∀ a ∈ d.args, Plain a) :
    ¬ SendsDocumented R P cls (.restore key val ttl replace) d := by
  intro hdoc
  cases h
  have hplain : ∀ a ∈ [key, decimal ttl.toNat, val] ++ [fmtBool replace], Plain a := by
    intro a ha
    rcases List.mem_append.mp ha with hfixed | hflag
    · exact hargs a hfixed
    · rw [List.mem_singleton.mp hflag]
      cases replace <;> decide
  obtain ⟨-, hoptions⟩ := follows_options (follows_of_documented R cls hdoc rfl hplain)
  cases replace with
  | false => exact nomatch follows_nil.mp hoptions
  | true =>
      have hflag : SameWord (lit "true") (lit "REPLACE") := (follows_cons.mp hoptions).1
      exact absurd hflag (by decide)

/-- `incrby` is another command. -/
theorem incrbyfloat_not_documented (key : Bytes) (increment : double)
    (h : fixedCommand P (.incrbyfloat key increment) = some d)
    (hargs : ∀ a ∈ d.args, Plain a) :
    ¬ SendsDocumented R P cls (.incrbyfloat key increment) d := by
  intro hdoc
  cases h
  have hplain : ∀ a ∈ [key, P.fmtDouble increment] ++ [], Plain a := hargs
  have hverb : SameWord (lit "incrby") (lit "incrbyfloat") :=
    (follows_options (follows_of_documented R cls hdoc rfl hplain)).1
  exact absurd hverb (by decide)

/-- Bounds the other way round are the documented ones iff they are equal. -/
theorem bounds_documented_iff {verb key min max : Bytes}
    (h : fixedCommand P c = some ⟨verb, [key, max, min], []⟩)
    (hs : sentCommand P c = some (verb, [key, min, max]))
    (hargs : ∀ a ∈ [key, max, min], Plain a) :
    SendsDocumented R P cls c ⟨verb, [key, max, min], []⟩ ↔ min = max := by
  constructor
  · intro hdoc
    have hplain : ∀ a ∈ [key, min, max], Plain a := by
      intro a ha
      refine hargs a ?_
      simp only [List.mem_cons, List.not_mem_nil, or_false] at ha ⊢
      exact ha.imp_right Or.symm
    have hfollows := follows_of_documented R cls hdoc hs hplain
    exact (follows_cons.mp (follows_cons.mp (follows_cons.mp hfollows).2).2).1
  · rintro rfl
    exact documented_of_sent R cls h hs hargs

end documented

/-- **FIXED ARITY, EXACTLY**: with plain arguments a call is the documented
    command iff its method keeps to the syntax. -/
theorem fixed_follows_iff (R : RedisFormat) (P : Platform double)
    (cls : ConnClass) (c : Call double) (d : FixedCommand)
    (h : fixedCommand P c = some d) (hargs : ∀ a ∈ d.args, Plain a) :
    SendsDocumented R P cls c d ↔ keepsSyntax c := by
  cases c with
  | restore key val ttl replace =>
      exact iff_of_false
        (restore_not_documented R cls key val ttl replace h hargs) id
  | incrbyfloat key increment =>
      exact iff_of_false (incrbyfloat_not_documented R cls key increment h hargs) id
  | zrevrangebylex key min max =>
      cases h
      exact bounds_documented_iff R cls rfl rfl hargs
  | zrevrangebyscore key min max =>
      cases h
      exact bounds_documented_iff R cls rfl rfl hargs
  | _ =>
      -- the format string is the documented command
      refine iff_of_true (documented_of_sent R cls h ?_ hargs) trivial
      cases h <;> rfl

/-- `zrevrange` with its flag. -/
theorem fixed_follows_iff_withscores :
    SendsDocumented hiredisFormat textPlatform .sync
      (.zrevrange (lit "k") 0 10 true)
      ⟨lit "zrevrange", [lit "k", lit "0", lit "10"], [.word (lit "WITHSCORES")]⟩ :=
  (fixed_follows_iff hiredisFormat textPlatform .sync
    (.zrevrange (lit "k") 0 10 true)
    ⟨lit "zrevrange", [lit "k", lit "0", lit "10"], [.word (lit "WITHSCORES")]⟩ rfl
    (by decide)).mpr trivial

/-- `restore` with its flag. -/
theorem restore_prints_bool :
    argv hiredisFormat textPlatform .coro (.restore (lit "k") (lit "v") 0 true)
      = some [lit "restore", lit "k", lit "0", lit "v", lit "true"]
    ∧ ¬ SendsDocumented hiredisFormat textPlatform .coro
        (.restore (lit "k") (lit "v") 0 true)
        ⟨lit "restore", [lit "k", lit "0", lit "v"], [.word (lit "REPLACE")]⟩ :=
  ⟨by decide, restore_not_documented hiredisFormat .coro (lit "k") (lit "v") 0 true
    rfl (by decide)⟩

end Methods
