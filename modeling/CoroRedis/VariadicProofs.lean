import CoroRedis.ArgvProofs

/-! # The variadic methods

    A builder of a variadic method appends its fixed parameters one by one and
    then folds over the parameter pack.  Three of them, `rpush`, `hdel` and
    `hset`, never append the key.

    * `variadic_argv` — what each of the methods sends;
    * `variadic_faithful_iff` — which of them keep every argument in its place,
      so that calls that differ send different commands. -/

namespace Methods

open Pieces CoroBytes HiredisFormat CommandText Decoding

variable {double : Type}

/-! ## The commands the methods are named after -/

/-- The operation keyword of `BITOP`. -/
def BitOp.keyword : BitOp → Bytes
  | .AND => lit "AND"
  | .OR => lit "OR"
  | .XOR => lit "XOR"
  | .NOT => lit "NOT"

/-- Verb and arguments of a call of a variadic method, in the order of its
    parameters; the keyword of `bitop` comes first. -/
def Call.variadic : Call double → Option (Bytes × List Bytes)
  | .del keys => some (lit "del", keys)
  | .exists_ keys => some (lit "exists", keys)
  | .touch keys => some (lit "touch", keys)
  | .unlink keys => some (lit "unlink", keys)
  | .bitop op keys => some (lit "bitop", op.keyword :: keys)
  | .mget keys => some (lit "mget", keys)
  | .mset keys => some (lit "mset", keys)
  | .msetnx keys => some (lit "msetnx", keys)
  | .lpush key val => some (lit "lpush", [key, val])
  | .lpushMany key keys => some (lit "lpush", key :: keys)
  | .rpush key val vals => some (lit "rpush", key :: val :: vals)
  | .hdel key field fields => some (lit "hdel", key :: field :: fields)
  | .hmget key field fields => some (lit "hmget", key :: field :: fields)
  | .hmset key field value args =>
      some (lit "hmset", key :: field :: value :: args)
  | .hset key field val args => some (lit "hset", key :: field :: val :: args)
  | .sadd key member members => some (lit "sadd", key :: member :: members)
  | .srem key member members => some (lit "srem", key :: member :: members)
  | .sdiff key keys => some (lit "sdiff", key :: keys)
  | .sdiffstore destination key keys =>
      some (lit "sdiffstore", destination :: key :: keys)
  | .sinter key keys => some (lit "sinter", key :: keys)
  | .sinterstore destination key keys =>
      some (lit "sinterstore", destination :: key :: keys)
  | .sunion key keys => some (lit "sunion", key :: keys)
  | .sunionstore destination key keys =>
      some (lit "sunionstore", destination :: key :: keys)
  | .zrem key member members => some (lit "zrem", key :: member :: members)
  | .pfadd key elements => some (lit "pfadd", key :: elements)
  | _ => none

/-- The methods whose builder leaves out the key. -/
def Call.dropsKey : Call double → Bool
  | .rpush _ _ _ => true
  | .hdel _ _ _ => true
  | .hset _ _ _ _ => true
  | _ => false

/-- The arguments that the builder writes. -/
def Call.kept (c : Call double) (args : List Bytes) : List Bytes :=
  if c.dropsKey then args.tail else args

/-- The method is determined by its verb, as far as the key goes. -/
theorem dropsKey_eq {c : Call double} {verb : Bytes} {args : List Bytes}
    (h : c.variadic = some (verb, args)) :
    c.dropsKey = decide (verb ∈ [lit "rpush", lit "hdel", lit "hset"]) := by
  cases c <;> cases h <;> rfl

theorem lowerWord_variadic {c : Call double} {verb : Bytes} {args : List Bytes}
    (h : c.variadic = some (verb, args)) : LowerWord verb := by
  cases c <;> cases h <;> exact lowerWord_lit rfl rfl

/-! ## What the builders write -/

/-- Fixed parameters and then a pack. -/
theorem written_pack {verb start : Bytes} (h : Written sp verb start [])
    (fixed keys : List Bytes) (hne : ∀ a ∈ fixed ++ keys, a ≠ []) :
    Written sp verb (appendAll (appendAll start fixed) keys) (fixed ++ keys) := by
  have hfixed : Written sp verb (appendAll start fixed) ([] ++ fixed) :=
    written_appendAll h fun a ha => hne a (List.mem_append_left _ ha)
  exact written_appendAll hfixed fun a ha => hne a (List.mem_append_right _ ha)

/-- Every variadic builder writes its verb and the arguments, or the arguments
    without the key. -/
theorem variadic_written (P : Platform double) {c : Call double} {verb : Bytes}
    {args : List Bytes} (h : c.variadic = some (verb, args))
    (hne : ∀ a ∈ args, a ≠ []) :
    ∃ text, (CoroConnection.request P c).text = some text
      ∧ Written sp verb text (c.kept args) := by
  -- a verb that is written with a space behind it
  have hspace : ∀ v : Bytes, Written sp v (v ++ [sp]) [] :=
    fun _ => written_sep written_head
  have htail : ∀ a ∈ args.tail, a ≠ [] := fun a ha =>
    hne a (List.mem_of_mem_tail ha)
  cases c with
  | del keys => cases h; exact ⟨_, rfl, written_pack written_head [] _ hne⟩
  | exists_ keys => cases h; exact ⟨_, rfl, written_pack written_head [] _ hne⟩
  | touch keys => cases h; exact ⟨_, rfl, written_pack written_head [] _ hne⟩
  | unlink keys => cases h; exact ⟨_, rfl, written_pack written_head [] _ hne⟩
  | bitop op keys =>
      cases h
      have hop : Written sp (lit "bitop") (lit "bitop" ++ op.text) [op.keyword] := by
        cases op with
        | AND => exact written_keyword written_head (lit "AND") (by decide)
        | OR => exact written_keyword written_head (lit "OR") (by decide)
        | XOR => exact written_keyword written_head (lit "XOR") (by decide)
        | NOT => exact written_keyword written_head (lit "NOT") (by decide)
      exact ⟨_, rfl, written_appendAll hop fun a ha =>
        hne a (List.mem_cons_of_mem _ ha)⟩
  | mget keys => cases h; exact ⟨_, rfl, written_pack written_head [] _ hne⟩
  | mset keys => cases h; exact ⟨_, rfl, written_pack written_head [] _ hne⟩
  | msetnx keys => cases h; exact ⟨_, rfl, written_pack written_head [] _ hne⟩
  | lpush key val =>
      cases h
      exact ⟨_, rfl, written_fmt rfl rfl (lowerWord_lit rfl rfl)
        (List.cons_ne_nil _ _) hne⟩
  | lpushMany key keys =>
      cases h
      exact ⟨_, rfl, written_pack written_head [key] keys hne⟩
  | rpush key val vals =>
      cases h
      exact ⟨_, rfl, written_pack written_head [val] vals htail⟩
  | hdel key field fields =>
      cases h
      exact ⟨_, rfl, written_pack written_head [field] fields htail⟩
  | hmget key field fields =>
      cases h
      exact ⟨_, rfl, written_pack (hspace _) [key, field] fields hne⟩
  | hmset key field value args =>
      cases h
      exact ⟨_, rfl, written_pack (hspace _) [key, field, value] args hne⟩
  | hset key field val args =>
      cases h
      exact ⟨_, rfl, written_pack (hspace _) [field, val] args htail⟩
  | sadd key member members =>
      cases h
      exact ⟨_, rfl, written_pack written_head [key, member] members hne⟩
  | srem key member members =>
      cases h
      exact ⟨_, rfl, written_pack written_head [key, member] members hne⟩
  | sdiff key keys =>
      cases h
      exact ⟨_, rfl, written_pack written_head [key] keys hne⟩
  | sdiffstore destination key keys =>
      cases h
      exact ⟨_, rfl, written_pack written_head [destination, key] keys hne⟩
  | sinter key keys =>
      cases h
      exact ⟨_, rfl, written_pack written_head [key] keys hne⟩
  | sinterstore destination key keys =>
      cases h
      exact ⟨_, rfl, written_pack written_head [destination, key] keys hne⟩
  | sunion key keys =>
      cases h
      exact ⟨_, rfl, written_pack written_head [key] keys hne⟩
  | sunionstore destination key keys =>
      cases h
      exact ⟨_, rfl, written_pack written_head [destination, key] keys hne⟩
  | zrem key member members =>
      cases h
      exact ⟨_, rfl, written_pack written_head [key, member] members hne⟩
  | pfadd key elements =>
      cases h
      exact ⟨_, rfl, written_pack written_head [key] elements hne⟩
  | _ => cases h

/-- **WHAT THEY SEND**: the verb and the arguments that are kept. -/
theorem variadic_argv (R : RedisFormat) (P : Platform double) (cls : ConnClass)
    {c : Call double} {verb : Bytes} {args : List Bytes}
    (h : c.variadic = some (verb, args)) (hargs : ∀ a ∈ args, Plain a) :
    argv R P cls c = some (verb :: c.kept args) := by
  obtain ⟨text, htext, hw⟩ := variadic_written P h fun a ha => (hargs a ha).ne_nil
  refine argv_written R cls htext (lowerWord_variadic h) hw ?_
  intro a ha
  rw [Call.kept] at ha
  split at ha
  · exact hargs a (List.mem_of_mem_tail ha)
  · exact hargs a ha

/-! ## Which methods keep their arguments -/

/-- The call sends its verb with all its arguments in order, and no call of a
    variadic method that differs from it in verb or arguments sends the
    same. -/
structure KeepsArguments (R : RedisFormat) (P : Platform double)
    (cls : ConnClass) (c : Call double) (verb : Bytes) (args : List Bytes) :
    Prop where
  vector : argv R P cls c = some (verb :: args)
  distinct : ∀ (c' : Call double) verb' args',
    c'.variadic = some (verb', args') → (∀ a ∈ args', Plain a) →
      (verb', args') ≠ (verb, args) → argv R P cls c' ≠ argv R P cls c

/-- **VARIADIC CALLS, EXACTLY**: with plain arguments a call keeps them iff its
    method does not leave out the key. -/
theorem variadic_faithful_iff (R : RedisFormat) (P : Platform double)
    (cls : ConnClass) (c : Call double) (verb : Bytes) (args : List Bytes)
    (h : c.variadic = some (verb, args)) (hargs : ∀ a ∈ args, Plain a) :
    KeepsArguments R P cls c verb args ↔ c.dropsKey = false := by
  have hsent := variadic_argv R P cls h hargs
  rw [Call.kept] at hsent
  constructor
  · intro hkeeps
    cases hd : c.dropsKey with
    | false => rfl
    | true =>
        -- one entry is missing
        rw [hd, if_pos rfl, hkeeps.vector] at hsent
        have hlen := congrArg List.length (List.cons.inj (Option.some.inj hsent)).2
        cases args with
        | nil => cases c <;> cases h <;> exact nomatch hd
        | cons a args =>
            rw [List.length_cons, List.tail_cons] at hlen
            omega
  · intro hd
    rw [hd] at hsent
    refine ⟨hsent, ?_⟩
    intro c' verb' args' h' hargs' hne heq
    rw [variadic_argv R P cls h' hargs', hsent] at heq
    obtain ⟨hverb, hkept⟩ := List.cons.inj (Option.some.inj heq)
    -- the same verb, so the other call keeps its arguments as well
    have hd' : c'.dropsKey = false := by
      cases hd' : c'.dropsKey with
      | false => rfl
      | true =>
          rw [dropsKey_eq h', hverb, ← dropsKey_eq h, hd] at hd'
          exact nomatch hd'
    rw [Call.kept, hd'] at hkept
    exact hne (by rw [hverb]; exact congrArg _ hkept)

/-- A call of `sadd` with two members. -/
theorem variadic_faithful_iff_sadd :
    KeepsArguments hiredisFormat textPlatform .coro
      (.sadd (lit "k") (lit "a") [lit "b"]) (lit "sadd")
      [lit "k", lit "a", lit "b"] :=
  (variadic_faithful_iff hiredisFormat textPlatform .coro
    (.sadd (lit "k") (lit "a") [lit "b"]) (lit "sadd")
    [lit "k", lit "a", lit "b"] rfl (by decide)).mpr rfl

/-- `rpush` of two values to the key `k` appends the second to the key named
    like the first, whatever `k` is. -/
theorem rpush_drops_key :
    argv hiredisFormat textPlatform .coro
        (.rpush (lit "k") (lit "a") [lit "b"])
      = some [lit "rpush", lit "a", lit "b"]
    ∧ ¬ KeepsArguments hiredisFormat textPlatform .coro
        (.rpush (lit "k") (lit "a") [lit "b"]) (lit "rpush")
        [lit "k", lit "a", lit "b"] := by
  have hsent : argv hiredisFormat textPlatform .coro
      (.rpush (lit "k") (lit "a") [lit "b"])
      = some [lit "rpush", lit "a", lit "b"] := by decide
  refine ⟨hsent, fun hkeeps => ?_⟩
  have hvector := hkeeps.vector
  rw [hsent] at hvector
  exact absurd hvector (by decide)

end Methods
