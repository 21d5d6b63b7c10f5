import CoroRedis.ArgvProofs

/-! # `zunionstore`

    The command is length-prefixed and has two lists that must stay aligned,
    so `parseZunionstore`, the reader of the documented grammar, is stated
    next to its `form`, and `parse_form` says that the grammar has one reading.
    Both builders fail it: their verb is `zadd`, and the keyword `AGGREGATE`
    is missing.

    * `zunionstore_argv` — what a call sends;
    * `zunionstore_never` — which no call has documented. -/

namespace Methods

open Pieces CoroBytes HiredisFormat CommandText Decoding

variable {double : Type}

/-! ## The grammar -/

/-- The key entries: keys alone, or keys with weights. -/
inductive ZunionInputs where
  | alone (keys : List Bytes)
  | weighted (kvs : List (Bytes × Bytes))
  deriving DecidableEq

namespace ZunionInputs

def names : ZunionInputs → List Bytes
  | .alone keys => keys
  | .weighted kvs => kvs.map Prod.fst

def weights : ZunionInputs → Option (List Bytes)
  | .alone _ => none
  | .weighted kvs => some (kvs.map Prod.snd)

/-- Keys with as many weights. -/
def pair (keys : List Bytes) : Option (List Bytes) → ZunionInputs
  | none => .alone keys
  | some ws => .weighted (keys.zip ws)

theorem pair_names_weights : ∀ i : ZunionInputs, pair i.names i.weights = i
  | .alone _ => rfl
  | .weighted kvs => by
      have hzip : (kvs.map Prod.fst).zip (kvs.map Prod.snd) = kvs :=
        (List.zip_of_prod rfl rfl).symm
      show weighted _ = _
      rw [names, hzip]

theorem length_weights {i : ZunionInputs} {ws : List Bytes}
    (h : i.weights = some ws) : ws.length = i.names.length := by
  cases i with
  | alone keys => exact nomatch h
  | weighted kvs =>
      obtain rfl := Option.some.inj h
      rw [names, List.length_map, List.length_map]

end ZunionInputs

/-- `ZUNIONSTORE destination numkeys key [key ...]
    [WEIGHTS weight [weight ...]] [AGGREGATE SUM|MIN|MAX]`. -/
structure ZunionCommand where
  destination : Bytes
  inputs : ZunionInputs
  aggregate : Bytes
  deriving DecidableEq

/-- The weights, if there are any. -/
def weightsForm : Option (List Bytes) → List Token
  | none => []
  | some ws => .word (lit "WEIGHTS") :: ws.map .data

/-- The command with its aggregate written out. -/
def ZunionCommand.form (q : ZunionCommand) : List Token :=
  .word (lit "ZUNIONSTORE") :: .data q.destination
    :: .data (decimal q.inputs.names.length)
    :: (q.inputs.names.map .data ++ (weightsForm q.inputs.weights
      ++ [.word (lit "AGGREGATE"), .data q.aggregate]))

/-- `[WEIGHTS weight [weight ...]]`, one for each of `n` keys. -/
def parseWeights (n : Nat) : List Bytes → Option (Option (List Bytes) × List Bytes)
  | [] => some (none, [])
  | kw :: rest =>
      if SameWord kw (lit "WEIGHTS") then
        if n ≤ rest.length then some (some (rest.take n), rest.drop n) else none
      else some (none, kw :: rest)

/-- `[AGGREGATE SUM|MIN|MAX]`; the name is the server's to check. -/
def parseAggregate : List Bytes → Option Bytes
  | [] => some (lit "SUM")
  | [kw, name] => if SameWord kw (lit "AGGREGATE") then some name else none
  | _ => none

/-- A `ZUNIONSTORE` command, as the server reads it. -/
def parseZunionstore : List Bytes → Option ZunionCommand
  | verb :: destination :: numkeys :: rest =>
      if SameWord verb (lit "ZUNIONSTORE") then do
        let n ← parseNumber numkeys
        if n = 0 ∨ rest.length < n then none
        let (weights, options) ← parseWeights n (rest.drop n)
        let aggregate ← parseAggregate options
        some ⟨destination, .pair (rest.take n) weights, aggregate⟩
      else none
  | _ => none

/-! ## One reading -/

theorem parseAggregate_form {name : Bytes} {v : List Bytes}
    (h : Follows [.word (lit "AGGREGATE"), .data name] v) :
    parseAggregate v = some name := by
  obtain ⟨kw, rest, hkw, hrest, rfl⟩ := follows_word_cons.mp h
  obtain ⟨rest', hrest', rfl⟩ := follows_data_cons.mp hrest
  obtain rfl := follows_nil.mp hrest'
  rw [parseAggregate, if_pos hkw]

/-- The weights are read off in front of the aggregate. -/
theorem parseWeights_form {n : Nat} {weights : Option (List Bytes)} {name : Bytes}
    {v : List Bytes} (hlen : ∀ ws, weights = some ws → ws.length = n)
    (h : Follows (weightsForm weights ++ [.word (lit "AGGREGATE"), .data name]) v) :
    ∃ rest, parseWeights n v = some (weights, rest)
      ∧ Follows [.word (lit "AGGREGATE"), .data name] rest := by
  cases weights with
  | none =>
      refine ⟨v, ?_, h⟩
      obtain ⟨kw, rest, hkw, -, rfl⟩ := follows_word_cons.mp h
      -- a keyword is not two keywords
      have hno : ¬ SameWord kw (lit "WEIGHTS") := by
        rw [hkw.congr]
        decide
      rw [parseWeights, if_neg hno]
  | some ws =>
      obtain ⟨kw, rest, hkw, hrest, rfl⟩ := follows_word_cons.mp h
      obtain ⟨rest', hrest', rfl⟩ := (follows_data_append ws rest).mp hrest
      refine ⟨rest', ?_, hrest'⟩
      have hn : n ≤ (ws ++ rest').length := by
        rw [List.length_append, hlen ws rfl]
        exact Nat.le_add_right n _
      rw [parseWeights, if_pos hkw, if_pos hn, List.take_left' (hlen ws rfl),
        List.drop_left' (hlen ws rfl)]

/-- **ONE READING**: a vector of the documented form is read as the command. -/
theorem parse_form {q : ZunionCommand} {v : List Bytes} (hne : q.inputs.names ≠ [])
    (h : Follows q.form v) : parseZunionstore v = some q := by
  obtain ⟨destination, inputs, aggregate⟩ := q
  obtain ⟨verb, v₁, hverb, h₁, rfl⟩ := follows_word_cons.mp h
  obtain ⟨v₂, h₂, rfl⟩ := follows_data_cons.mp h₁
  obtain ⟨v₃, h₃, rfl⟩ := follows_data_cons.mp h₂
  obtain ⟨rest, hrest, rfl⟩ := (follows_data_append _ v₃).mp h₃
  obtain ⟨options, hweights, hoptions⟩ := parseWeights_form
    (fun _ hw => ZunionInputs.length_weights hw) hrest
  have hcount : ¬ (inputs.names.length = 0
      ∨ (inputs.names ++ rest).length < inputs.names.length) := by
    have hpos : 0 < inputs.names.length := List.length_pos_of_ne_nil hne
    rw [List.length_append]
    omega
  rw [parseZunionstore, if_pos hverb, parseNumber_decimal]
  simp only [Option.bind_eq_bind, Option.bind_some, if_neg hcount,
    List.drop_left, List.take_left, hweights, parseAggregate_form hoptions,
    ZunionInputs.pair_names_weights]

/-! ## What the builders write -/

/-- The command a call of `zunionstore` stands for, its weights as
    `std::to_string` writes them. -/
def Call.zunion (P : Platform double) : Call double → Option ZunionCommand
  | .zunionstore destination keys aggregate =>
      some ⟨destination, .alone keys, aggregate⟩
  | .zunionstoreWeights destination kvs aggregate =>
      some ⟨destination, .weighted (kvs.map fun kv => (kv.1, P.toStringDouble kv.2)),
        aggregate⟩
  | _ => none

def weightsTokens : Option (List Bytes) → List Bytes
  | none => []
  | some ws => lit "WEIGHTS" :: ws

/-- Everything behind the verb. -/
def ZunionCommand.sent (q : ZunionCommand) : List Bytes :=
  [q.destination, decimal q.inputs.names.length] ++ q.inputs.names
    ++ weightsTokens q.inputs.weights ++ [q.aggregate]

/-- What the user passed. -/
def ZunionCommand.args (q : ZunionCommand) : List Bytes :=
  q.destination :: q.aggregate :: (q.inputs.names ++ q.inputs.weights.getD [])

theorem plain_sent {q : ZunionCommand} (h : ∀ a ∈ q.args, Plain a) :
    ∀ a ∈ q.sent, Plain a := by
  intro a ha
  have hinputs : ∀ a ∈ q.inputs.names ++ q.inputs.weights.getD [], Plain a :=
    fun a ha => h a (List.mem_cons_of_mem _ (List.mem_cons_of_mem _ ha))
  rcases List.mem_append.mp ha with hkw | hagg
  · rcases List.mem_append.mp hkw with hkeys | hws
    · rcases List.mem_append.mp hkeys with hfixed | hkeys
      · rcases List.mem_cons.mp hfixed with rfl | hcount
        · exact h _ List.mem_cons_self
        · rw [List.mem_singleton.mp hcount]
          exact plain_decimal _
      · exact hinputs a (List.mem_append_left _ hkeys)
    · cases hw : q.inputs.weights with
      | none =>
          rw [hw] at hws
          exact nomatch hws
      | some ws =>
          rw [hw] at hws hinputs
          rcases List.mem_cons.mp hws with rfl | hws
          · decide
          · exact hinputs a (List.mem_append_right _ hws)
  · rw [List.mem_singleton.mp hagg]
    exact h _ (List.mem_cons_of_mem _ List.mem_cons_self)

section builders

variable {destination aggregate : Bytes}

/-- Destination, count and keys, in both overloads. -/
theorem zunion_keys_written {keys : List Bytes} (hdest : destination ≠ [])
    (hkeys : ∀ a ∈ keys, a ≠ []) :
    Written sp (lit "zadd")
      (appendAll (lit "zadd" ++ lit " " ++ destination ++ lit " "
        ++ decimal keys.length) keys)
      ([destination, decimal keys.length] ++ keys) :=
  written_appendAll
    (written_append (written_append written_head hdest) (decimal_ne_nil _)) hkeys

theorem zunionstore_written {keys : List Bytes} (hne : keys ≠ [])
    (hargs : ∀ a ∈ ZunionCommand.args ⟨destination, .alone keys, aggregate⟩,
      a ≠ []) :
    ∃ text, (CoroConnectionImpl.zunionstore destination keys aggregate).text
        = some text
      ∧ Written sp (lit "zadd") text
          (ZunionCommand.sent ⟨destination, .alone keys, aggregate⟩) := by
  have hempty : ¬ keys.isEmpty = true := mt List.isEmpty_iff.mp hne
  rw [CoroConnectionImpl.zunionstore, if_neg hempty]
  refine ⟨_, rfl, ?_⟩
  -- no weights: nothing stands between the keys and the aggregate
  show Written _ _ _ ([destination, decimal keys.length] ++ keys ++ [] ++ [aggregate])
  rw [List.append_nil]
  refine written_append (zunion_keys_written (hargs _ (by simp [ZunionCommand.args]))
    fun a ha => hargs a ?_) (hargs _ (by simp [ZunionCommand.args]))
  simp [ZunionCommand.args, ZunionInputs.names, ha]

/-- The weights behind their keyword. -/
theorem zunion_weights_written {kvs : List (Bytes × Bytes)}
    (hargs : ∀ a ∈ ZunionCommand.args ⟨destination, .weighted kvs, aggregate⟩,
      a ≠ []) :
    Written sp (lit "zadd")
      (appendAll (appendAll (lit "zadd" ++ lit " " ++ destination ++ lit " "
        ++ decimal kvs.length) (kvs.map Prod.fst) ++ lit " WEIGHTS ")
        (kvs.map Prod.snd) ++ lit " " ++ aggregate)
      (ZunionCommand.sent ⟨destination, .weighted kvs, aggregate⟩) := by
  have hinputs : ∀ a ∈ kvs.map Prod.fst ++ kvs.map Prod.snd, a ≠ [] := fun a ha =>
    hargs a (List.mem_cons_of_mem _ (List.mem_cons_of_mem _ ha))
  have hkeys := zunion_keys_written (hargs destination List.mem_cons_self)
    fun a ha => hinputs a (List.mem_append_left _ ha)
  rw [List.length_map] at hkeys
  have hweights := written_appendAll
    (written_keyword hkeys (lit "WEIGHTS") (List.cons_ne_nil _ _))
    fun a ha => hinputs a (List.mem_append_right _ ha)
  have hall := written_append hweights
    (hargs aggregate (List.mem_cons_of_mem _ List.mem_cons_self))
  have hkw : lit " WEIGHTS " = lit " " ++ lit "WEIGHTS" ++ lit " " := by decide
  have hsent : ZunionCommand.sent ⟨destination, .weighted kvs, aggregate⟩
      = [destination, decimal kvs.length] ++ kvs.map Prod.fst ++ [lit "WEIGHTS"]
        ++ kvs.map Prod.snd ++ [aggregate] := by
    simp [ZunionCommand.sent, ZunionInputs.names, ZunionInputs.weights,
      weightsTokens]
  rw [hkw, hsent]
  exact hall

theorem zunionstoreWeights_written (P : Platform double)
    {kvs : List (Bytes × double)} (hne : kvs ≠ [])
    (hargs : ∀ a ∈ ZunionCommand.args ⟨destination,
      .weighted (kvs.map fun kv => (kv.1, P.toStringDouble kv.2)), aggregate⟩,
      a ≠ []) :
    ∃ text, (CoroConnectionImpl.zunionstoreWeights P destination kvs
        aggregate).text = some text
      ∧ Written sp (lit "zadd") text (ZunionCommand.sent ⟨destination,
          .weighted (kvs.map fun kv => (kv.1, P.toStringDouble kv.2)),
          aggregate⟩) := by
  have hempty : ¬ kvs.isEmpty = true := mt List.isEmpty_iff.mp hne
  have hwritten := zunion_weights_written hargs
  rw [List.length_map, List.map_map, List.map_map] at hwritten
  rw [CoroConnectionImpl.zunionstoreWeights, if_neg hempty]
  exact ⟨_, rfl, hwritten⟩

end builders

/-- **WHAT `zunionstore` SENDS**: a `zadd`, and no keyword before the
    aggregate. -/
theorem zunionstore_argv (R : RedisFormat) (P : Platform double)
    (cls : ConnClass) {c : Call double} {q : ZunionCommand}
    (h : c.zunion P = some q) (hne : q.inputs.names ≠ [])
    (hargs : ∀ a ∈ q.args, Plain a) : argv R P cls c = some (lit "zadd" :: q.sent) := by
  have hnonempty : ∀ a ∈ q.args, a ≠ [] := fun a ha => (hargs a ha).ne_nil
  have hwritten : ∃ text, (CoroConnection.request P c).text = some text
      ∧ Written sp (lit "zadd") text q.sent := by
    cases c with
    | zunionstore destination keys aggregate =>
        cases h
        exact zunionstore_written hne hnonempty
    | zunionstoreWeights destination kvs aggregate =>
        cases h
        refine zunionstoreWeights_written P ?_ hnonempty
        rintro rfl
        exact hne rfl
    | _ => cases h
  obtain ⟨text, htext, hw⟩ := hwritten
  exact argv_written R cls htext (lowerWord_lit rfl rfl) hw (plain_sent hargs)

/-! ## No call sends what is documented -/

/-- **NEVER DOCUMENTED**: whatever the arguments are, the vector of a call is
    not the documented command, and the server does not read the call from
    it. -/
theorem zunionstore_never (R : RedisFormat) (P : Platform double)
    (cls : ConnClass) (c : Call double) (q : ZunionCommand)
    (h : c.zunion P = some q) (hne : q.inputs.names ≠ [])
    (hargs : ∀ a ∈ q.args, Plain a) :
    ¬ (∃ v, argv R P cls c = some v ∧ Follows q.form v)
      ∧ ¬ ∃ v, argv R P cls c = some v ∧ parseZunionstore v = some q := by
  have hsent := zunionstore_argv R P cls h hne hargs
  have hverb : ¬ SameWord (lit "zadd") (lit "ZUNIONSTORE") := by decide
  constructor
  · rintro ⟨v, hv, hfollows⟩
    rw [hsent] at hv
    obtain rfl := Option.some.inj hv
    obtain ⟨verb, rest, hsame, -, heq⟩ := follows_word_cons.mp hfollows
    rw [(List.cons.inj heq).1] at hverb
    exact hverb hsame
  · rintro ⟨v, hv, hparse⟩
    rw [hsent] at hv
    obtain rfl := Option.some.inj hv
    rw [ZunionCommand.sent] at hparse
    -- the reader stops at the verb
    simp [parseZunionstore, hverb] at hparse

/-- Two keys with the default aggregate. -/
theorem zunionstore_never_sum :
    ¬ ∃ v, argv hiredisFormat textPlatform .coro
        (.zunionstore (lit "d") [lit "a", lit "b"]) = some v
      ∧ parseZunionstore v
        = some ⟨lit "d", .alone [lit "a", lit "b"], lit "SUM"⟩ :=
  (zunionstore_never hiredisFormat textPlatform .coro
    (.zunionstore (lit "d") [lit "a", lit "b"])
    ⟨lit "d", .alone [lit "a", lit "b"], lit "SUM"⟩ rfl (by decide)
    (by decide)).2

/-- The union of `a` and `b` is sent as an insertion into `d`. -/
theorem zunionstore_sends_zadd :
    argv hiredisFormat textPlatform .coro
        (.zunionstore (lit "d") [lit "a", lit "b"])
      = some [lit "zadd", lit "d", lit "2", lit "a", lit "b", lit "SUM"]
    ∧ ¬ Follows
        (ZunionCommand.form ⟨lit "d", .alone [lit "a", lit "b"], lit "SUM"⟩)
        [lit "zadd", lit "d", lit "2", lit "a", lit "b", lit "SUM"] := by
  decide

end Methods
