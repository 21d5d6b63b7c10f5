import CoroRedis.ScanRequestProofs
import CoroRedis.ZunionstoreProofs
import CoroRedis.FixedArityProofs

/-! # No argument changes the command

    The builders copy their arguments into the text as they are, so an
    argument with a space becomes two and an argument with a `%` may leave
    nothing to send.  What no argument can do is to replace the verb: the text
    opens with it, followed by a space or by nothing, and hiredis' loop has
    closed the first entry of the vector before it reads a byte of an argument.

    * `format_opens` — a text that opens with a verb is formatted into a vector
      that starts with it;
    * `opens_text` — every method's text opens with the method's verb;
    * `verb_kept` — the CONCLUSION for all methods of both classes and all
      bytes in their arguments. -/

namespace HiredisFormat

open Pieces CoroBytes

/-- The text is the verb, or goes on with a space behind it. -/
def Opens (verb text : Bytes) : Prop := text = verb ∨ verb ++ [sp] <+: text

section opens

variable {verb text : Bytes}

theorem opens_self (verb : Bytes) : Opens verb verb := Or.inl rfl

/-- What is appended with a space in front. -/
theorem opens_append (h : Opens verb text) (b : Bytes) :
    Opens verb (text ++ sp :: b) := by
  refine Or.inr ?_
  rcases h with rfl | h
  · exact ⟨b, by simp⟩
  · exact h.trans (List.prefix_append _ _)

theorem opens_append_lit (h : Opens verb text) (b : Bytes) :
    Opens verb (text ++ lit " " ++ b) := by
  rw [List.append_assoc]
  exact opens_append h b

theorem opens_fields (verb : Bytes) (args : List Bytes) :
    Opens verb (fields sp verb args) := by
  cases args with
  | nil => exact Or.inl (fields_nil verb)
  | cons a args =>
      refine Or.inr ⟨a ++ args.flatMap (fun a => sp :: a), ?_⟩
      simp [fields]

/-- A format string with a `{}` for each argument. -/
theorem opens_fmt {f w : String} {cs : List Char} {args : List Bytes}
    (hw : w = String.ofList cs)
    (hf : f = String.ofList (cs ++ args.flatMap fun _ => [' ', '{', '}']))
    (hverb : LowerWord (lit w)) (hargs : args ≠ []) :
    Opens (lit w) (fmtFormat f args) := by
  rw [fmtFormat_fields hw hf hverb hargs]
  exact opens_fields _ _

/-- What a C string reader sees of it opens with the verb as well. -/
theorem opens_cstr (hnul : nul ∉ verb) (h : Opens verb text) :
    cstr text = verb ∨ ∃ rest, cstr text = verb ++ sp :: rest := by
  rcases h with rfl | ⟨rest, rfl⟩
  · exact Or.inl (cstr_of_no_nul hnul)
  · refine Or.inr ⟨cstr rest, ?_⟩
    have hkeep : ∀ b ∈ verb ++ [sp], decide (b ≠ nul) = true := by
      intro b hb
      refine decide_eq_true ?_
      rintro rfl
      rcases List.mem_append.mp hb with hv | hs
      · exact hnul hv
      · exact absurd (List.mem_singleton.mp hs) (by decide)
    rw [cstr, List.takeWhile_append_of_pos hkeep, List.append_assoc]
    rfl

end opens

/-- A word in front of a space is emitted before the rest is read. -/
theorem formatLoop_word (rest : Bytes) : ∀ (w cur : Bytes), sp ∉ w → pct ∉ w →
    ∀ argv, formatLoop cur (w ++ sp :: rest) = some argv →
      ∃ args, argv = emit (cur ++ w) ++ args := by
  intro w
  induction w with
  | nil =>
      intro cur _ _ argv h
      rw [List.append_nil]
      cases rest with
      | nil =>
          have heq : some (emit cur) = some argv := h
          exact ⟨[], by rw [← Option.some.inj heq, List.append_nil]⟩
      | cons d rest =>
          rw [List.nil_append, formatLoop, if_neg (by decide), if_pos rfl] at h
          obtain ⟨args, -, rfl⟩ := Option.map_eq_some_iff.mp h
          exact ⟨args, rfl⟩
  | cons c w ih =>
      intro cur hsp hpct argv h
      rw [List.mem_cons, not_or] at hsp hpct
      obtain ⟨d, tl, hd⟩ : ∃ d tl, w ++ sp :: rest = d :: tl :=
        List.exists_cons_of_ne_nil (by simp)
      rw [List.cons_append, hd, formatLoop, if_neg (Ne.symm hpct.1),
        if_neg (Ne.symm hsp.1), ← hd] at h
      obtain ⟨args, rfl⟩ := ih (cur ++ [c]) hsp.2 hpct.2 argv h
      exact ⟨args, by rw [List.append_assoc]; rfl⟩

/-- **THE VERB COMES FIRST**: whatever stands behind it in the text. -/
theorem format_opens {verb text : Bytes} (hverb : Plain verb)
    (h : Opens verb text) {argv : List Bytes}
    (hf : hiredisFormat.format text = some argv) :
    ∃ args, argv = verb :: args := by
  have hemit : emit verb = [verb] := if_neg hverb.ne_nil
  have hloop : formatLoop [] (cstr text) = some argv := hf
  rcases opens_cstr hverb.no_nul h with heq | ⟨rest, heq⟩
  · rw [heq, formatLoop_plain [] verb List.not_mem_nil
      (fun hm => hverb.no_pct (List.dropLast_subset _ hm)), List.nil_append,
      pieces_of_word hverb.word] at hloop
    exact ⟨[], (Option.some.inj hloop).symm⟩
  · rw [heq] at hloop
    obtain ⟨args, rfl⟩ :=
      formatLoop_word rest verb [] hverb.word.no_sep hverb.no_pct argv hloop
    exact ⟨args, by rw [List.nil_append, hemit]; rfl⟩

end HiredisFormat

namespace Methods

open Pieces CoroBytes HiredisFormat CommandText Decoding

variable {double : Type}

/-! ## The verbs -/

/-- The verb a method writes in front of its arguments; `command` takes the
    whole text from its caller. -/
def Call.verb : Call double → Option Bytes
  | .command _ _ => none
  -- connection commands
  | .auth _ | .authUser _ _ => some (lit "auth")
  | .echo _ => some (lit "echo")
  | .ping | .pingMsg _ => some (lit "ping")
  | .quit => some (lit "quit")
  | .select _ => some (lit "select")
  | .swapdb _ _ => some (lit "swapdb")
  -- server commands
  | .bgrewriteaof => some (lit "bgrewriteaof")
  | .bgsave => some (lit "bgsave")
  | .dbsize => some (lit "dbsize")
  | .flushall _ => some (lit "FLUSHALL")
  | .flushdb _ => some (lit "FLUSHDB")
  | .info | .infoSection _ => some (lit "info")
  | .lastsave => some (lit "lastsave")
  | .save => some (lit "save")
  -- key commands
  | .del _ => some (lit "del")
  | .dump _ => some (lit "dump")
  | .exists_ _ => some (lit "exists")
  | .expire _ _ => some (lit "expire")
  | .expireat _ _ => some (lit "expireat")
  | .move _ _ => some (lit "move")
  | .persist _ => some (lit "persist")
  | .pexpire _ _ => some (lit "pexpire")
  | .pexpireat _ _ => some (lit "pexpireat")
  | .pttl _ => some (lit "pttl")
  | .randomkey => some (lit "randomkey")
  | .rename _ _ => some (lit "rename")
  | .renamenx _ _ => some (lit "renamenx")
  | .restore _ _ _ _ => some (lit "restore")
  | .scanCount _ _ | .scan _ _ _ => some (lit "scan")
  | .touch _ => some (lit "touch")
  | .ttl _ => some (lit "ttl")
  | .type _ => some (lit "type")
  | .unlink _ => some (lit "unlink")
  | .wait _ _ => some (lit "wait")
  -- string commands
  | .append _ _ => some (lit "append")
  | .bitcount _ _ _ => some (lit "bitcount")
  | .bitop _ _ => some (lit "bitop")
  | .bitpos _ _ _ _ => some (lit "bitpos")
  | .decr _ => some (lit "decr")
  | .decrby _ _ => some (lit "decrby")
  | .get _ => some (lit "get")
  | .getbit _ _ => some (lit "getbit")
  | .getrange _ _ _ => some (lit "getrange")
  | .getset _ _ => some (lit "getset")
  | .incr _ => some (lit "incr")
  -- the verb of `incrbyfloat` is `incrby`
  | .incrby _ _ | .incrbyfloat _ _ => some (lit "incrby")
  | .mget _ => some (lit "mget")
  | .mset _ => some (lit "mset")
  | .msetnx _ => some (lit "msetnx")
  | .psetex _ _ _ => some (lit "psetex")
  | .set _ _ _ _ _ => some (lit "set")
  | .setex _ _ _ => some (lit "setex")
  | .setnx _ _ => some (lit "setnx")
  | .setrange _ _ _ => some (lit "setrange")
  | .strlen _ => some (lit "strlen")
  -- list commands
  | .llen _ => some (lit "llen")
  | .lpop _ => some (lit "lpop")
  | .lpush _ _ | .lpushMany _ _ => some (lit "lpush")
  | .lpushx _ _ => some (lit "lpushx")
  | .lrange _ _ _ => some (lit "lrange")
  | .lrem _ _ _ => some (lit "lrem")
  | .lset _ _ _ => some (lit "lset")
  | .ltrim _ _ _ => some (lit "ltrim")
  | .rpop _ => some (lit "rpop")
  | .rpoplpush _ _ => some (lit "rpoplpush")
  | .rpush _ _ _ => some (lit "rpush")
  | .rpushx _ _ => some (lit "rpushx")
  -- hash commands
  | .hdel _ _ _ => some (lit "hdel")
  | .hexists _ _ => some (lit "hexists")
  | .hget _ _ => some (lit "hget")
  | .hgetall _ => some (lit "hgetall")
  | .hincrby _ _ _ => some (lit "hincrby")
  | .hincrbyfloat _ _ _ => some (lit "hincrbyfloat")
  | .hkeys _ => some (lit "hkeys")
  | .hlen _ => some (lit "hlen")
  | .hmget _ _ _ => some (lit "hmget")
  | .hmset _ _ _ _ => some (lit "hmset")
  | .hscanCount _ _ _ | .hscan _ _ _ _ => some (lit "hscan")
  | .hset _ _ _ _ => some (lit "hset")
  | .hsetnx _ _ _ => some (lit "hsetnx")
  | .hstrlen _ _ => some (lit "hstrlen")
  | .hvals _ => some (lit "hvals")
  -- set commands
  | .sadd _ _ _ => some (lit "sadd")
  | .scard _ => some (lit "scard")
  | .sdiff _ _ => some (lit "sdiff")
  | .sdiffstore _ _ _ => some (lit "sdiffstore")
  | .sinter _ _ => some (lit "sinter")
  | .sinterstore _ _ _ => some (lit "sinterstore")
  | .sismember _ _ => some (lit "sismember")
  | .smembers _ => some (lit "smembers")
  | .smove _ _ _ => some (lit "smove")
  | .spop _ _ => some (lit "spop")
  | .srandmember _ | .srandmemberCount _ _ => some (lit "srandmember")
  | .srem _ _ _ => some (lit "srem")
  | .sscanCount _ _ _ | .sscan _ _ _ _ => some (lit "sscan")
  | .sunion _ _ => some (lit "sunion")
  | .sunionstore _ _ _ => some (lit "sunionstore")
  -- sorted set commands
  | .bzpopmax _ _ => some (lit "bzpopmax")
  | .bzpopmin _ _ => some (lit "bzpopmin")
  -- the verb of `zunionstore` is `zadd`
  | .zadd _ _ _ _ | .zaddMany _ _ _ | .zunionstore _ _ _
  | .zunionstoreWeights _ _ _ => some (lit "zadd")
  | .zcard _ => some (lit "zcard")
  | .zcount _ _ _ => some (lit "zcount")
  | .zincrby _ _ _ => some (lit "zincrby")
  | .zlexcount _ _ _ => some (lit "zlexcount")
  | .zpopmax _ _ => some (lit "zpopmax")
  | .zpopmin _ => some (lit "zpopmin")
  | .zrange _ _ _ => some (lit "zrange")
  | .zrangebylex _ _ _ => some (lit "zrangebylex")
  | .zrangebyscore _ _ _ => some (lit "zrangebyscore")
  | .zrank _ _ => some (lit "zrank")
  | .zrem _ _ _ => some (lit "zrem")
  | .zremrangebylex _ _ _ => some (lit "zremrangebylex")
  | .zremrangebyrank _ _ _ => some (lit "zremrangebyrank")
  | .zremrangebyscore _ _ _ => some (lit "zremrangebyscore")
  | .zrevrange _ _ _ _ => some (lit "zrevrange")
  | .zrevrangebylex _ _ _ => some (lit "zrevrangebylex")
  | .zrevrangebyscore _ _ _ => some (lit "zrevrangebyscore")
  | .zrevrank _ _ => some (lit "zrevrank")
  | .zscanCount _ _ _ | .zscan _ _ _ _ => some (lit "zscan")
  | .zscore _ _ => some (lit "zscore")
  -- hyperloglog commands
  | .pfadd _ _ => some (lit "pfadd")

theorem plain_verb {c : Call double} {verb : Bytes} (h : c.verb = some verb) :
    Plain verb := by
  cases c with
  | flushall async => cases h; decide
  | flushdb async => cases h; decide
  | _ => cases h <;> exact plain_lowerWord (lowerWord_lit rfl rfl)

/-! ## What the builders open with -/

section builders

variable {verb text : Bytes}

/-- A pack behind it changes nothing. -/
theorem opens_appendAll (h : Opens verb text) (keys : List Bytes) :
    Opens verb (appendAll text keys) := by
  rw [appendAll_eq_fields]
  cases keys with
  | nil =>
      rw [fields_nil]
      exact h
  | cons key keys =>
      have hsplit : fields sp text (key :: keys)
          = text ++ sp :: (key ++ keys.flatMap fun a => sp :: a) := by
        simp [fields]
      rw [hsplit]
      exact opens_append h _

theorem opens_scanArgs (h : Opens verb text) (cursor : UInt64) (pattern : Bytes)
    (count : UInt64) :
    Opens verb
      (Scans.CoroConnectionImpl.appendScanArgs text cursor pattern count) := by
  have hmatch : ∀ t, Opens verb t →
      Opens verb (if pattern ≠ [] then t ++ lit " MATCH " ++ pattern else t) := by
    intro t ht
    split
    · rw [List.append_assoc]
      exact opens_append ht _
    · exact ht
  have hcursor := hmatch _ (opens_append_lit h (decimal cursor.toNat))
  rw [Scans.CoroConnectionImpl.appendScanArgs]
  split
  · rw [List.append_assoc]
    exact opens_append hcursor _
  · exact hcursor

/-- The options of `set` come behind its arguments. -/
theorem opens_set (key val : Bytes) (ttl : UInt64) (ttl_type : RedisTTLType)
    (type : UpdateType) :
    Opens (lit "set")
      (CommandText.CoroConnectionImpl.set key val ttl ttl_type type) := by
  have hfmt : Opens (lit "set") (fmtFormat "set {} {}" [key, val]) :=
    opens_fmt rfl rfl (lowerWord_lit rfl rfl) (List.cons_ne_nil _ _)
  have hkw : ∀ t, Opens (lit "set") t → ∀ b, Opens (lit "set") (t ++ sp :: b) :=
    fun t ht b => opens_append ht b
  have hkeep : ∀ t, Opens (lit "set") t →
      Opens (lit "set") (if ttl_type = .KEEPTTL then t ++ lit " KEEPTTL " else t) := by
    intro t ht
    split
    · exact hkw _ ht _
    · exact ht
  have hall : Opens (lit "set")
      (CommandText.CoroConnectionImpl.set key val ttl ttl_type .ALWAYS) := by
    refine hkeep _ ?_
    split
    · rename_i hcond
      cases ttl_type with
      | EX => rw [List.append_assoc]; exact hkw _ hfmt _
      | PX => rw [List.append_assoc]; exact hkw _ hfmt _
      | EXAT => rw [List.append_assoc]; exact hkw _ hfmt _
      | PXAT => rw [List.append_assoc]; exact hkw _ hfmt _
      | KEEPTTL => exact absurd rfl hcond.2
    · exact hfmt
  cases type with
  | EXIST => exact hkw _ hall _
  | NOT_EXIST => exact hkw _ hall _
  | _ => exact hall

theorem opens_update (type : UpdateType) (h : Opens verb text) :
    Opens verb (text ++ CoroConnectionImpl.updateText type) := by
  cases type with
  | ALWAYS =>
      rw [show CoroConnectionImpl.updateText .ALWAYS = [] from rfl,
        List.append_nil]
      exact h
  | _ => exact opens_append h _

/-- The pairs of `zadd` come behind the key. -/
theorem opens_pairs (P : Platform double) (kvs : List (Bytes × double)) :
    ∀ text, Opens verb text → Opens verb (kvs.foldl
      (fun cmd kv => cmd ++ lit " " ++ P.toStringDouble kv.2 ++ lit " " ++ kv.1)
      text) := by
  induction kvs with
  | nil => intro text h; exact h
  | cons kv kvs ih =>
      intro text h
      exact ih _ (opens_append_lit (opens_append_lit h _) _)

end builders

/-! ## The conclusion -/

/-- **EVERY TEXT OPENS WITH ITS VERB**: method by method, any arguments. -/
theorem opens_text (P : Platform double) {c : Call double} {verb text : Bytes}
    (hverb : c.verb = some verb)
    (h : (CoroConnection.request P c).text = some text) : Opens verb text := by
  -- a verb that is written with a space behind it
  have hspace : ∀ v : Bytes, Opens v (v ++ [sp]) := fun v =>
    Or.inr (List.prefix_refl _)
  cases c with
  | command ret cmd => exact nomatch hverb
  | ping => cases hverb; cases h; exact opens_self _
  | quit => cases hverb; cases h; exact opens_self _
  | bgrewriteaof => cases hverb; cases h; exact opens_self _
  | bgsave => cases hverb; cases h; exact opens_self _
  | dbsize => cases hverb; cases h; exact opens_self _
  | info => cases hverb; cases h; exact opens_self _
  | lastsave => cases hverb; cases h; exact opens_self _
  | save => cases hverb; cases h; exact opens_self _
  | randomkey => cases hverb; cases h; exact opens_self _
  | flushall async =>
      cases hverb
      cases async with
      | true => cases h; exact opens_append (opens_self _) (lit "ASYNC")
      | false => cases h; exact opens_append (opens_self _) (lit "SYNC")
  | flushdb async =>
      cases hverb
      cases async with
      | true => cases h; exact opens_append (opens_self _) (lit "ASYNC")
      | false => cases h; exact opens_append (opens_self _) (lit "SYNC")
  -- the packs
  | del keys => cases hverb; cases h; exact opens_appendAll (opens_self _) _
  | exists_ keys => cases hverb; cases h; exact opens_appendAll (opens_self _) _
  | touch keys => cases hverb; cases h; exact opens_appendAll (opens_self _) _
  | unlink keys => cases hverb; cases h; exact opens_appendAll (opens_self _) _
  | mget keys => cases hverb; cases h; exact opens_appendAll (opens_self _) _
  | mset keys => cases hverb; cases h; exact opens_appendAll (opens_self _) _
  | msetnx keys => cases hverb; cases h; exact opens_appendAll (opens_self _) _
  | bitop op keys =>
      cases hverb
      cases h
      refine opens_appendAll ?_ _
      cases op with
      | AND => exact opens_append (opens_self _) (lit "AND ")
      | OR => exact opens_append (opens_self _) (lit "OR ")
      | XOR => exact opens_append (opens_self _) (lit "XOR ")
      | NOT => exact opens_append (opens_self _) (lit "NOT ")
  | lpushMany key keys =>
      cases hverb
      cases h
      exact opens_appendAll (opens_append (opens_self (lit "lpush")) key) _
  | rpush key val vals =>
      cases hverb
      cases h
      exact opens_appendAll (opens_append (opens_self (lit "rpush")) val) _
  | hdel key field fields =>
      cases hverb
      cases h
      exact opens_appendAll (opens_append_lit (opens_self _) _) _
  | hmget key field fields =>
      cases hverb
      cases h
      exact opens_appendAll (opens_append_lit
        (opens_append_lit (hspace (lit "hmget")) _) _) _
  | hmset key field value args =>
      cases hverb
      cases h
      exact opens_appendAll (opens_append_lit (opens_append_lit
        (opens_append_lit (hspace (lit "hmset")) _) _) _) _
  | hset key field val args =>
      cases hverb
      cases h
      exact opens_appendAll (opens_append_lit
        (opens_append_lit (hspace (lit "hset")) _) _) _
  | sadd key member members =>
      cases hverb
      cases h
      exact opens_appendAll (opens_append_lit (opens_append_lit (opens_self _) _) _) _
  | srem key member members =>
      cases hverb
      cases h
      exact opens_appendAll (opens_append_lit (opens_append_lit (opens_self _) _) _) _
  | zrem key member members =>
      cases hverb
      cases h
      exact opens_appendAll (opens_append_lit (opens_append_lit (opens_self _) _) _) _
  | sdiff key keys =>
      cases hverb
      cases h
      exact opens_appendAll (opens_append_lit (opens_self _) _) _
  | sinter key keys =>
      cases hverb
      cases h
      exact opens_appendAll (opens_append_lit (opens_self _) _) _
  | sunion key keys =>
      cases hverb
      cases h
      exact opens_appendAll (opens_append_lit (opens_self _) _) _
  | sdiffstore destination key keys =>
      cases hverb
      cases h
      exact opens_appendAll (opens_append_lit (opens_append_lit (opens_self _) _) _) _
  | sinterstore destination key keys =>
      cases hverb
      cases h
      exact opens_appendAll (opens_append_lit (opens_append_lit (opens_self _) _) _) _
  | sunionstore destination key keys =>
      cases hverb
      cases h
      exact opens_appendAll (opens_append_lit (opens_append_lit (opens_self _) _) _) _
  | pfadd key elements =>
      cases hverb
      cases h
      exact opens_appendAll (opens_append_lit (opens_self _) _) _
  -- the scans
  | scanCount cursor count => cases hverb; cases h; exact opens_scanArgs (opens_self _) _ _ _
  | scan cursor pattern count =>
      cases hverb
      cases h
      exact opens_scanArgs (opens_self _) _ _ _
  | hscanCount key cursor count =>
      cases hverb
      cases h
      exact opens_scanArgs (opens_append_lit (opens_self _) _) _ _ _
  | hscan key cursor pattern count =>
      cases hverb
      cases h
      exact opens_scanArgs (opens_append_lit (opens_self _) _) _ _ _
  | sscanCount key cursor count =>
      cases hverb
      cases h
      exact opens_scanArgs (opens_append_lit (opens_self _) _) _ _ _
  | sscan key cursor pattern count =>
      cases hverb
      cases h
      exact opens_scanArgs (opens_append_lit (opens_self _) _) _ _ _
  | zscanCount key cursor count => exact nomatch h
  | zscan key cursor pattern count =>
      cases hverb
      cases h
      exact opens_scanArgs (opens_append_lit (opens_self _) _) _ _ _
  -- builders of their own
  | set key val ttl ttl_type type =>
      cases hverb
      cases h
      exact opens_set key val.text ttl ttl_type type
  | bzpopmax keys timeout =>
      cases hverb
      cases keys with
      | nil => exact nomatch h
      | cons key keys =>
          cases h
          exact opens_append_lit (opens_appendAll (opens_self _) _) _
  | bzpopmin keys timeout =>
      cases hverb
      cases keys with
      | nil => exact nomatch h
      | cons key keys =>
          cases h
          exact opens_append_lit (opens_appendAll (opens_self _) _) _
  | zadd key member score type =>
      cases hverb
      cases h
      exact opens_append_lit (opens_append_lit
        (opens_update type (opens_append_lit (opens_self _) key)) _) member
  | zaddMany key kvs type =>
      cases hverb
      cases h
      exact opens_pairs P kvs _
        (opens_update type (opens_append_lit (opens_self _) key))
  | zunionstore destination keys aggregate =>
      cases hverb
      cases keys with
      | nil => exact nomatch h
      | cons key keys =>
          cases h
          exact opens_append_lit (opens_appendAll (opens_append_lit
            (opens_append_lit (opens_self _) destination) _) _) aggregate
  | zunionstoreWeights destination kvs aggregate =>
      cases hverb
      cases kvs with
      | nil => exact nomatch h
      | cons kv kvs =>
          cases h
          refine opens_append_lit (opens_appendAll ?_ _) aggregate
          exact opens_append (opens_appendAll (opens_append_lit
            (opens_append_lit (opens_self _) destination) _) _) _
  -- one format string
  | _ =>
      cases hverb
      cases h
      exact opens_fmt rfl rfl (lowerWord_lit rfl rfl) (List.cons_ne_nil _ _)

/-- **NO ARGUMENT CHANGES THE COMMAND**: in either class, and whatever bytes
    the arguments are made of, a vector that a method sends starts with the
    verb of the method. -/
theorem verb_kept (P : Platform double) (cls : ConnClass) (c : Call double)
    (verb : Bytes) (v : List Bytes) (hverb : c.verb = some verb)
    (hv : argv hiredisFormat P cls c = some v) : ∃ args, v = verb :: args := by
  rw [argv, sent_eq_text, text_request] at hv
  obtain ⟨text, htext, hf⟩ := Option.bind_eq_some_iff.mp hv
  exact format_opens (plain_verb hverb) (opens_text P hverb htext) hf

/-- A key that looks like another command is still a key, and one more. -/
theorem verb_kept_flushall :
    ∃ args, argv hiredisFormat textPlatform .coro
      (.get (lit "k flushall")) = some (lit "get" :: args) := by
  have hsent : argv hiredisFormat textPlatform .coro (.get (lit "k flushall"))
      = some [lit "get", lit "k", lit "flushall"] := by decide
  obtain ⟨args, hargs⟩ := verb_kept textPlatform .coro (.get (lit "k flushall"))
    (lit "get") _ rfl hsent
  exact ⟨args, by rw [hsent, hargs]⟩

end Methods
