import CoroRedis.ScoreTextProofs

/-! # `zadd`

    Both overloads write scores and members in pairs behind an optional flag.
    `parseZadd` is how the server reads the command; members may look like
    flags, since a flag is only looked for in front of the pairs.

    * `zadd_argv` — what a call sends;
    * `zadd_round_trip` — the server reads the call back, and the overloads
      agree. -/

namespace Methods

open Pieces CoroBytes HiredisFormat CommandText Decoding

variable {double : Type}

/-! ## The grammar -/

/-- `zadd key [XX|NX|LT|GT|CH|INCR] [score member ...]`, as pairs of member and
    score; `ALWAYS` is no flag. -/
structure ZaddCommand where
  key : Bytes
  type : UpdateType
  pairs : List (Bytes × Bytes)
  deriving DecidableEq

def parseFlag : Bytes → Option UpdateType :=
  findWord [(lit "XX", .EXIST), (lit "NX", .NOT_EXIST), (lit "LT", .LESS_THAN),
    (lit "GT", .GREATE_THAN), (lit "CH", .CHANGED), (lit "INCR", .INCR)]

/-- A score, then its member. -/
def parsePairs : List Bytes → Option (List (Bytes × Bytes))
  | [] => some []
  | [_] => none
  | score :: member :: rest => (parsePairs rest).map fun kvs => (member, score) :: kvs

/-- A `zadd` command, as the server reads it. -/
def parseZadd : List Bytes → Option ZaddCommand
  | verb :: key :: rest =>
      if SameWord verb (lit "zadd") then
        match rest.head?.bind parseFlag with
        | some type => (parsePairs rest.tail).map fun kvs => ⟨key, type, kvs⟩
        | none => (parsePairs rest).map fun kvs => ⟨key, .ALWAYS, kvs⟩
      else none
  | _ => none

/-! ## Printing it -/

def flagTokens : UpdateType → List Bytes
  | .ALWAYS => []
  | .EXIST => [lit "XX"]
  | .NOT_EXIST => [lit "NX"]
  | .LESS_THAN => [lit "LT"]
  | .GREATE_THAN => [lit "GT"]
  | .CHANGED => [lit "CH"]
  | .INCR => [lit "INCR"]

/-- Each score in front of its member. -/
def pairTokens (kvs : List (Bytes × Bytes)) : List Bytes :=
  kvs.flatMap fun kv => [kv.2, kv.1]

def ZaddCommand.vector (q : ZaddCommand) : List Bytes :=
  lit "zadd" :: q.key :: (flagTokens q.type ++ pairTokens q.pairs)

theorem parsePairs_tokens (kvs : List (Bytes × Bytes)) :
    parsePairs (pairTokens kvs) = some kvs := by
  induction kvs with
  | nil => rfl
  | cons kv kvs ih =>
      have hcons : pairTokens (kv :: kvs) = kv.2 :: kv.1 :: pairTokens kvs := rfl
      rw [hcons, parsePairs, ih]
      rfl

/-- **READ-BACK**: the command is read from its vector, if no score looks like
    a flag. -/
theorem parseZadd_vector {q : ZaddCommand}
    (h : ∀ kv ∈ q.pairs, parseFlag kv.2 = none) : parseZadd q.vector = some q := by
  obtain ⟨key, type, pairs⟩ := q
  have hpairs := parsePairs_tokens pairs
  -- the score of the first pair is not a flag
  have hhead : (pairTokens pairs).head?.bind parseFlag = none := by
    cases pairs with
    | nil => rfl
    | cons kv pairs => exact h kv List.mem_cons_self
  rw [ZaddCommand.vector, parseZadd, if_pos (SameWord.refl _)]
  cases type with
  | ALWAYS =>
      rw [flagTokens, List.nil_append, hhead, hpairs]
      rfl
  | _ =>
      -- the flag is found in front of the pairs
      show (parsePairs (pairTokens pairs)).map _ = _
      rw [hpairs]
      rfl

/-! ## What the builders write -/

/-- What the builders rely on when they print a score. -/
structure PrintsScores (P : Platform double) : Prop where
  plain : ∀ d, Plain (P.toStringDouble d)
  no_flag : ∀ d, parseFlag (P.toStringDouble d) = none

/-- The command a call stands for. -/
def Call.zaddCommand (P : Platform double) : Call double → Option ZaddCommand
  | .zadd key member score update =>
      some ⟨key, update, [(member, P.toStringDouble score)]⟩
  | .zaddMany key kvs update =>
      some ⟨key, update, kvs.map fun kv => (kv.1, P.toStringDouble kv.2)⟩
  | _ => none

/-- One member is a list of one. -/
theorem request_zadd (P : Platform double) (cls : ConnClass) (key member : Bytes)
    (score : double) (type : UpdateType) :
    request P cls (.zadd key member score type)
      = request P cls (.zaddMany key [(member, score)] type) := by
  cases cls <;> rfl

/-- The flag behind the key. -/
theorem written_flag {verb text : Bytes} {args : List Bytes}
    (h : Written sp verb text args) (type : UpdateType) :
    Written sp verb (text ++ CoroConnectionImpl.updateText type)
      (args ++ flagTokens type) := by
  cases type with
  | ALWAYS =>
      rw [CoroConnectionImpl.updateText, flagTokens, List.append_nil, List.append_nil]
      exact h
  | EXIST => exact written_keyword h (lit "XX") (by decide)
  | NOT_EXIST => exact written_keyword h (lit "NX") (by decide)
  | LESS_THAN => exact written_keyword h (lit "LT") (by decide)
  | GREATE_THAN => exact written_keyword h (lit "GT") (by decide)
  | CHANGED => exact written_keyword h (lit "CH") (by decide)
  | INCR => exact written_keyword h (lit "INCR") (by decide)

/-- The loop over the pairs appends a score and a member in each round. -/
theorem written_pairs (P : Platform double) {verb : Bytes}
    {kvs : List (Bytes × double)}
    (hne : ∀ kv ∈ kvs, kv.1 ≠ [] ∧ P.toStringDouble kv.2 ≠ []) :
    ∀ {text : Bytes} {args : List Bytes}, Written sp verb text args →
      Written sp verb
        (kvs.foldl (fun cmd kv =>
          cmd ++ lit " " ++ P.toStringDouble kv.2 ++ lit " " ++ kv.1) text)
        (args ++ pairTokens (kvs.map fun kv => (kv.1, P.toStringDouble kv.2))) := by
  -- the command grows along the loop, so it stays general
  induction kvs with
  | nil =>
      intro text args h
      have hnil : args ++ pairTokens [] = args := List.append_nil args
      rw [List.map_nil, hnil]
      exact h
  | cons kv kvs ih =>
      intro text args h
      obtain ⟨hmember, hscore⟩ := hne kv List.mem_cons_self
      have hone := written_append (written_append h hscore) hmember
      have hrest := ih (fun kv' h' => hne kv' (List.mem_cons_of_mem _ h')) hone
      have hargs : args ++ [P.toStringDouble kv.2] ++ [kv.1]
          ++ pairTokens (kvs.map fun kv => (kv.1, P.toStringDouble kv.2))
          = args ++ pairTokens
            ((kv :: kvs).map fun kv => (kv.1, P.toStringDouble kv.2)) := by
        simp [pairTokens]
      rw [← hargs]
      exact hrest

theorem plain_flagTokens (type : UpdateType) : ∀ a ∈ flagTokens type, Plain a := by
  cases type <;> decide

/-- Members and scores are what the pairs are made of. -/
theorem plain_pairTokens {kvs : List (Bytes × Bytes)}
    (h : ∀ kv ∈ kvs, Plain kv.1 ∧ Plain kv.2) : ∀ a ∈ pairTokens kvs, Plain a := by
  intro a ha
  obtain ⟨kv, hkv, hmem⟩ := List.mem_flatMap.mp ha
  rcases List.mem_cons.mp hmem with rfl | hmember
  · exact (h kv hkv).2
  · rw [List.mem_singleton.mp hmember]
    exact (h kv hkv).1

section sent

variable (R : RedisFormat) {P : Platform double} (cls : ConnClass)

theorem zaddMany_argv (hP : PrintsScores P) {key : Bytes} (hkey : Plain key)
    {kvs : List (Bytes × double)} (hmembers : ∀ kv ∈ kvs, Plain kv.1)
    (type : UpdateType) :
    argv R P cls (.zaddMany key kvs type) = some (ZaddCommand.vector
      ⟨key, type, kvs.map fun kv => (kv.1, P.toStringDouble kv.2)⟩) := by
  have hstart : Written sp (lit "zadd") (lit "zadd" ++ lit " " ++ key) [key] :=
    written_append written_head hkey.ne_nil
  have hw := written_pairs P
    (fun kv hkv => ⟨(hmembers kv hkv).ne_nil, (hP.plain kv.2).ne_nil⟩)
    (written_flag hstart type)
  rw [List.append_assoc] at hw
  refine argv_written R cls rfl (lowerWord_lit rfl rfl) hw ?_
  intro a ha
  rcases List.mem_cons.mp ha with rfl | htail
  · exact hkey
  · rcases List.mem_append.mp htail with hflag | hpairs
    · exact plain_flagTokens type a hflag
    · refine plain_pairTokens (fun p hp => ?_) a hpairs
      obtain ⟨kv, hkv, rfl⟩ := List.mem_map.mp hp
      exact ⟨hmembers kv hkv, hP.plain kv.2⟩

theorem argv_zadd_eq (key member : Bytes) (score : double) (type : UpdateType) :
    argv R P cls (.zadd key member score type)
      = argv R P cls (.zaddMany key [(member, score)] type) := by
  rw [argv, argv, sent_eq_text, sent_eq_text, request_zadd]

/-- **WHAT `zadd` SENDS**, in either overload. -/
theorem zadd_argv (hP : PrintsScores P) {c : Call double} {q : ZaddCommand}
    (h : c.zaddCommand P = some q) (hkey : Plain q.key)
    (hmembers : ∀ kv ∈ q.pairs, Plain kv.1) : argv R P cls c = some q.vector := by
  cases c with
  | zaddMany key kvs type =>
      cases h
      refine zaddMany_argv R cls hP hkey (fun kv hkv => ?_) type
      exact hmembers _ (List.mem_map_of_mem hkv)
  | zadd key member score type =>
      cases h
      rw [argv_zadd_eq]
      refine zaddMany_argv R cls hP hkey (fun kv hkv => ?_) type
      rw [List.mem_singleton.mp hkv]
      exact hmembers _ List.mem_cons_self
  | _ => cases h

/-- The scores of a call are printed, so they are no flags. -/
theorem parse_zadd (hP : PrintsScores P) {c : Call double} {q : ZaddCommand}
    (h : c.zaddCommand P = some q) : parseZadd q.vector = some q := by
  refine parseZadd_vector fun kv hkv => ?_
  cases c with
  | zaddMany key kvs type =>
      cases h
      obtain ⟨kv', -, rfl⟩ := List.mem_map.mp hkv
      exact hP.no_flag kv'.2
  | zadd key member score type =>
      cases h
      rw [List.mem_singleton.mp hkv]
      exact hP.no_flag score
  | _ => cases h

end sent

/-! ## Round trip -/

/-- **ZADD ROUND TRIP**: the vector of a call is verb, key, flag and pairs; the
    server reads the command from it, and a call that sends the same vector
    stands for the same command.  One member is sent as a list of one. -/
theorem zadd_round_trip (R : RedisFormat) (P : Platform double) (cls : ConnClass)
    (hP : PrintsScores P) (c : Call double) (q : ZaddCommand)
    (h : c.zaddCommand P = some q) (hkey : Plain q.key)
    (hmembers : ∀ kv ∈ q.pairs, Plain kv.1) :
    (argv R P cls c = some q.vector ∧ parseZadd q.vector = some q)
      ∧ (∀ (c' : Call double) q', c'.zaddCommand P = some q' → Plain q'.key →
          (∀ kv ∈ q'.pairs, Plain kv.1) →
            argv R P cls c' = argv R P cls c → q' = q)
      ∧ ∀ key member score type,
          argv R P cls (.zadd key member score type)
            = argv R P cls (.zaddMany key [(member, score)] type) := by
  have hsent := zadd_argv R cls hP h hkey hmembers
  refine ⟨⟨hsent, parse_zadd hP h⟩, ?_, argv_zadd_eq R cls⟩
  intro c' q' h' hkey' hmembers' heq
  rw [zadd_argv R cls hP h' hkey' hmembers', hsent] at heq
  have hread := parse_zadd hP h'
  rw [Option.some.inj heq, parse_zadd hP h] at hread
  exact (Option.some.inj hread).symm

/-- Printed rationals have a point, and flags have none. -/
theorem printsScores_rat : PrintsScores Scores.ratPlatform where
  plain q := Scores.plain_toString q
  no_flag q := by
    have hpoint : (46 : Byte) ∈ (Scores.stdToString q).map lower :=
      List.mem_map.mpr ⟨46, Scores.point_mem_toString q, by decide⟩
    have hno : ∀ kw ∈ [lit "XX", lit "NX", lit "LT", lit "GT", lit "CH", lit "INCR"],
        ¬ SameWord kw (Scores.stdToString q) := by
      intro kw hkw hsame
      have hnone : ∀ kw ∈ [lit "XX", lit "NX", lit "LT", lit "GT", lit "CH",
          lit "INCR"], (46 : Byte) ∉ kw.map lower := by decide
      rw [← show kw.map lower = _ from hsame] at hpoint
      exact hnone kw hkw hpoint
    show parseFlag (Scores.stdToString q) = none
    simp_all [parseFlag, findWord]

/-- A member that is a flag. -/
theorem zadd_round_trip_flag :
    ∃ v, argv hiredisFormat Scores.ratPlatform .coro
        (.zaddMany (lit "k") [(lit "XX", 7 / 5)] .NOT_EXIST) = some v
      ∧ parseZadd v
        = some ⟨lit "k", .NOT_EXIST, [(lit "XX", Scores.stdToString (7 / 5))]⟩ := by
  have h := zadd_round_trip hiredisFormat Scores.ratPlatform .coro printsScores_rat
    (.zaddMany (lit "k") [(lit "XX", 7 / 5)] .NOT_EXIST)
    ⟨lit "k", .NOT_EXIST, [(lit "XX", Scores.stdToString (7 / 5))]⟩ rfl (by decide)
    fun kv hkv => by
      rw [List.mem_singleton.mp hkv]
      decide
  exact ⟨_, h.1⟩

end Methods
