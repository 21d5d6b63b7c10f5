import CoroRedis.ZaddProofs
import CoroRedis.ZunionstoreProofs

/-! # Scores and weights on the wire

    Scores are printed with six digits behind the point, so scores that differ
    by less may arrive as the same number.  A `ScoreUse` is a call with one
    score or weight left open.

    * `token_eq` — the score is sent as its printed text, whatever the use;
    * `scores_order_iff` — for which scores the order survives, for two of them
      and for the ranking of a list. -/

namespace Methods

open Pieces CoroBytes HiredisFormat CommandText Decoding Rounding Scores

/-! ## Uses of a score -/

/-- A call with a score, or a weight of `zunionstore`, left open. -/
inductive ScoreUse where
  | zadd (key member : Bytes) (update : UpdateType)
  | zaddMany (key : Bytes) (before : List (Bytes × ℚ)) (member : Bytes)
      (after : List (Bytes × ℚ)) (update : UpdateType)
  | weight (destination : Bytes) (before : List (Bytes × ℚ)) (key : Bytes)
      (after : List (Bytes × ℚ)) (aggregate : Bytes)

namespace ScoreUse

def call : ScoreUse → ℚ → Call ℚ
  | .zadd key member update, q => .zadd key member q update
  | .zaddMany key before member after update, q =>
      .zaddMany key (before ++ (member, q) :: after) update
  | .weight destination before key after aggregate, q =>
      .zunionstoreWeights destination (before ++ (key, q) :: after) aggregate

/-- Where the number stands in the argument vector. -/
def position : ScoreUse → Nat
  | .zadd _ _ update => 2 + (flagTokens update).length
  | .zaddMany _ before _ _ update =>
      2 + (flagTokens update).length + 2 * before.length
  | .weight _ before _ after _ =>
      3 + (before.length + (1 + after.length)) + (1 + before.length)

/-- What else the user passes. -/
def names : ScoreUse → List Bytes
  | .zadd key member _ => [key, member]
  | .zaddMany key before member after _ =>
      key :: (before.map Prod.fst ++ member :: after.map Prod.fst)
  | .weight destination before key after aggregate =>
      destination :: aggregate
        :: (before.map Prod.fst ++ key :: after.map Prod.fst)

end ScoreUse

/-- The token that carries the number. -/
def ScoreUse.token (R : RedisFormat) (P : Platform ℚ) (cls : ConnClass)
    (u : ScoreUse) (q : ℚ) : Option Bytes :=
  (argv R P cls (u.call q)).bind fun v => v[u.position]?

/-- What stands behind a known front. -/
theorem getElem?_front {α : Type} (front : List α) (a : α) (rest : List α) :
    (front ++ a :: rest)[front.length]? = some a := by
  rw [List.getElem?_append_right (Nat.le_refl _), Nat.sub_self]
  rfl

theorem length_pairTokens (kvs : List (Bytes × Bytes)) :
    (pairTokens kvs).length = 2 * kvs.length := by
  induction kvs with
  | nil => rfl
  | cons kv kvs ih =>
      have hcons : pairTokens (kv :: kvs) = kv.2 :: kv.1 :: pairTokens kvs := rfl
      rw [hcons, List.length_cons, List.length_cons, ih, List.length_cons]
      omega

section token

variable (R : RedisFormat) {P : Platform ℚ} (cls : ConnClass)

theorem printsScores_of_toString (hP : P.toStringDouble = stdToString) :
    PrintsScores P where
  plain q := hP ▸ printsScores_rat.plain q
  no_flag q := hP ▸ printsScores_rat.no_flag q

/-- The keys of the entries around an open one. -/
theorem names_entries (before after : List (Bytes × ℚ)) (name : Bytes) (q : ℚ) :
    (before ++ (name, q) :: after).map Prod.fst
      = before.map Prod.fst ++ name :: after.map Prod.fst := by
  rw [List.map_append, List.map_cons]

/-- A score in a list of pairs. -/
theorem token_zaddMany (hP : PrintsScores P) {key member : Bytes}
    (before after : List (Bytes × ℚ))
    (h : ∀ a ∈ key :: (before.map Prod.fst ++ member :: after.map Prod.fst), Plain a)
    (update : UpdateType) (q : ℚ) :
    (argv R P cls (.zaddMany key (before ++ (member, q) :: after) update)).bind
        (fun v => v[2 + (flagTokens update).length + 2 * before.length]?)
      = some (P.toStringDouble q) := by
  have hmembers : ∀ kv ∈ before ++ (member, q) :: after, Plain kv.1 := by
    intro kv hkv
    refine h _ (List.mem_cons_of_mem _ ?_)
    rw [← names_entries before after member q]
    exact List.mem_map_of_mem hkv
  rw [zaddMany_argv R cls hP (h key List.mem_cons_self) hmembers update]
  -- everything in front of the score, pair by pair
  have hvector : ZaddCommand.vector ⟨key, update,
      (before ++ (member, q) :: after).map fun kv => (kv.1, P.toStringDouble kv.2)⟩
      = (lit "zadd" :: key :: (flagTokens update
          ++ pairTokens (before.map fun kv => (kv.1, P.toStringDouble kv.2))))
        ++ P.toStringDouble q :: (member
          :: pairTokens (after.map fun kv => (kv.1, P.toStringDouble kv.2))) := by
    simp [ZaddCommand.vector, pairTokens]
  have hlen : 2 + (flagTokens update).length + 2 * before.length
      = (lit "zadd" :: key :: (flagTokens update ++ pairTokens
          (before.map fun kv => (kv.1, P.toStringDouble kv.2)))).length := by
    rw [List.length_cons, List.length_cons, List.length_append, length_pairTokens,
      List.length_map]
    omega
  rw [Option.bind_some, hvector, hlen]
  exact getElem?_front _ _ _

/-- The names of the printed entries around an open one. -/
theorem printed_names (P : Platform ℚ) (before after : List (Bytes × ℚ))
    (name : Bytes) (q : ℚ) :
    ((before ++ (name, q) :: after).map fun kv =>
      (kv.1, P.toStringDouble kv.2)).map Prod.fst
      = before.map Prod.fst ++ name :: after.map Prod.fst := by
  rw [List.map_map]
  exact names_entries before after name q

/-- Their weights. -/
theorem printed_weights (P : Platform ℚ) (before after : List (Bytes × ℚ))
    (name : Bytes) (q : ℚ) :
    ((before ++ (name, q) :: after).map fun kv =>
      (kv.1, P.toStringDouble kv.2)).map Prod.snd
      = (before.map fun kv => P.toStringDouble kv.2)
        ++ P.toStringDouble q :: (after.map fun kv => P.toStringDouble kv.2) := by
  rw [List.map_map, List.map_append, List.map_cons]
  rfl

/-- The vector of a weighted union, cut in front of the open weight. -/
theorem sent_weight (P : Platform ℚ) (destination key aggregate : Bytes)
    (before after : List (Bytes × ℚ)) (q : ℚ) :
    lit "zadd" :: ZunionCommand.sent ⟨destination,
      .weighted ((before ++ (key, q) :: after).map fun kv =>
        (kv.1, P.toStringDouble kv.2)), aggregate⟩
      = (lit "zadd" :: destination
          :: decimal (before.map Prod.fst ++ key :: after.map Prod.fst).length
          :: ((before.map Prod.fst ++ key :: after.map Prod.fst)
            ++ lit "WEIGHTS" :: before.map fun kv => P.toStringDouble kv.2))
        ++ P.toStringDouble q
          :: ((after.map fun kv => P.toStringDouble kv.2) ++ [aggregate]) := by
  rw [ZunionCommand.sent, ZunionInputs.names, ZunionInputs.weights, printed_names,
    printed_weights, weightsTokens]
  simp

/-- Names and printed weights are plain. -/
theorem plain_weighted {P : Platform ℚ} (hP : PrintsScores P)
    {destination key aggregate : Bytes} {before after : List (Bytes × ℚ)}
    (h : ∀ a ∈ destination :: aggregate
      :: (before.map Prod.fst ++ key :: after.map Prod.fst), Plain a) (q : ℚ) :
    ∀ a ∈ ZunionCommand.args ⟨destination,
      .weighted ((before ++ (key, q) :: after).map fun kv =>
        (kv.1, P.toStringDouble kv.2)), aggregate⟩, Plain a := by
  intro a ha
  rcases List.mem_cons.mp ha with rfl | ha
  · exact h _ List.mem_cons_self
  rcases List.mem_cons.mp ha with rfl | ha
  · exact h _ (List.mem_cons_of_mem _ List.mem_cons_self)
  rcases List.mem_append.mp ha with hname | hweight
  · rw [ZunionInputs.names, printed_names] at hname
    exact h a (List.mem_cons_of_mem _ (List.mem_cons_of_mem _ hname))
  · obtain ⟨kv, hkv, rfl⟩ := List.mem_map.mp hweight
    obtain ⟨kv', -, rfl⟩ := List.mem_map.mp hkv
    exact hP.plain kv'.2

/-- A weight of `zunionstore`. -/
theorem token_weight (hP : PrintsScores P) {destination key aggregate : Bytes}
    {before after : List (Bytes × ℚ)}
    (h : ∀ a ∈ destination :: aggregate
      :: (before.map Prod.fst ++ key :: after.map Prod.fst), Plain a) (q : ℚ) :
    (argv R P cls (.zunionstoreWeights destination (before ++ (key, q) :: after)
        aggregate)).bind
        (fun v => v[3 + (before.length + (1 + after.length)) + (1 + before.length)]?)
      = some (P.toStringDouble q) := by
  have hne : (ZunionInputs.weighted ((before ++ (key, q) :: after).map fun kv =>
      (kv.1, P.toStringDouble kv.2))).names ≠ [] := by
    rw [ZunionInputs.names, printed_names]
    exact List.append_ne_nil_of_right_ne_nil _ (List.cons_ne_nil _ _)
  rw [zunionstore_argv (c := .zunionstoreWeights destination
    (before ++ (key, q) :: after) aggregate) R P cls rfl hne (plain_weighted hP h q)]
  -- everything in front of the weight
  have hlen : 3 + (before.length + (1 + after.length)) + (1 + before.length)
      = (lit "zadd" :: destination
          :: decimal (before.map Prod.fst ++ key :: after.map Prod.fst).length
          :: ((before.map Prod.fst ++ key :: after.map Prod.fst)
            ++ lit "WEIGHTS" :: before.map fun kv => P.toStringDouble kv.2)).length := by
    simp
    omega
  rw [Option.bind_some, sent_weight, hlen]
  exact getElem?_front _ _ _

/-- **SENT AS PRINTED**, in whatever use. -/
theorem token_eq (hP : PrintsScores P) {u : ScoreUse} (hu : ∀ a ∈ u.names, Plain a)
    (q : ℚ) : u.token R P cls q = some (P.toStringDouble q) := by
  cases u with
  | zadd key member update =>
      rw [ScoreUse.token, ScoreUse.call, argv_zadd_eq]
      exact token_zaddMany R cls hP [] [] hu update q
  | zaddMany key before member after update =>
      exact token_zaddMany R cls hP before after hu update q
  | weight destination before key after aggregate => exact token_weight R cls hP hu q

end token

/-! ## Order -/

/-- A midpoint between two millionths lies between the two scores. -/
def Separated (s t : ℚ) : Prop :=
  ∃ k : ℤ, RoundsDown k (10 ^ 6 * s) ∧ ¬ RoundsDown k (10 ^ 6 * t)

/-- Scores more than a millionth apart are separated. -/
theorem separated_of_gap {s t : ℚ} (h : s + 1 / 10 ^ 6 < t) : Separated s t := by
  refine roundsDown_of_gap ?_
  linarith

/-- The number that arrives. -/
def arrived (q : ℚ) : ℚ := (roundEven (10 ^ 6 * q) : ℚ) / 10 ^ 6

theorem arrived_lt_iff (s t : ℚ) : arrived s < arrived t ↔ Separated s t := by
  rw [arrived, arrived, div_lt_div_iff_of_pos_right (by norm_num), Int.cast_lt]
  exact roundEven_lt_iff _ _

/-- Rounding never turns an order around. -/
theorem Separated.lt {s t : ℚ} (h : Separated s t) : s < t := by
  obtain ⟨k, hs, ht⟩ := h
  refine lt_of_not_ge fun hle => ht (hs.mono ?_)
  linarith

/-- Two uses send tokens whose values are in order. -/
def SentInOrder (R : RedisFormat) (P : Platform ℚ) (cls cls' : ConnClass)
    (u u' : ScoreUse) (s t : ℚ) : Prop :=
  ∃ a b x y, u.token R P cls s = some a ∧ u'.token R P cls' t = some b
    ∧ scoreValue a = some x ∧ scoreValue b = some y ∧ x < y

/-- The scores the server gives to the members of a `zadd`, in order. -/
def serverScores (R : RedisFormat) (P : Platform ℚ) (cls : ConnClass)
    (c : Call ℚ) : Option (List (Bytes × Option ℚ)) :=
  ((argv R P cls c).bind parseZadd).map fun q =>
    q.pairs.map fun kv => (kv.1, scoreValue kv.2)

/-- The members keep their order by score. -/
def KeepsRanking (R : RedisFormat) (P : Platform ℚ) (cls : ConnClass)
    (key : Bytes) (kvs : List (Bytes × ℚ)) (update : UpdateType) : Prop :=
  ∃ score : ℚ → ℚ,
    serverScores R P cls (.zaddMany key kvs update)
        = some (kvs.map fun kv => (kv.1, some (score kv.2)))
      ∧ ∀ kv ∈ kvs, ∀ kv' ∈ kvs, kv.2 < kv'.2 ↔ score kv.2 < score kv'.2

section order

variable (R : RedisFormat) {P : Platform ℚ} (hP : P.toStringDouble = stdToString)

include hP

theorem scoreValue_printed (q : ℚ) :
    scoreValue (P.toStringDouble q) = some (arrived q) := by
  rw [hP]
  exact scoreValue_toString q

theorem sentInOrder_iff (cls cls' : ConnClass) {u u' : ScoreUse}
    (hu : ∀ a ∈ u.names, Plain a) (hu' : ∀ a ∈ u'.names, Plain a) (s t : ℚ) :
    SentInOrder R P cls cls' u u' s t ↔ Separated s t := by
  have hprints := printsScores_of_toString hP
  rw [← arrived_lt_iff, SentInOrder, token_eq R cls hprints hu,
    token_eq R cls' hprints hu']
  constructor
  · rintro ⟨a, b, x, y, ha, hb, hx, hy, hlt⟩
    rw [← Option.some.inj ha, scoreValue_printed hP] at hx
    rw [← Option.some.inj hb, scoreValue_printed hP] at hy
    rw [Option.some.inj hx, Option.some.inj hy]
    exact hlt
  · intro hlt
    exact ⟨_, _, _, _, rfl, rfl, scoreValue_printed hP s, scoreValue_printed hP t, hlt⟩

/-- The server reads the members of a list with the scores that arrived. -/
theorem serverScores_zaddMany (cls : ConnClass) {key : Bytes} (hkey : Plain key)
    {kvs : List (Bytes × ℚ)} (hmembers : ∀ kv ∈ kvs, Plain kv.1)
    (update : UpdateType) :
    serverScores R P cls (.zaddMany key kvs update)
      = some (kvs.map fun kv => (kv.1, some (arrived kv.2))) := by
  have hprints := printsScores_of_toString hP
  have hparse : parseZadd (ZaddCommand.vector ⟨key, update,
      kvs.map fun kv => (kv.1, P.toStringDouble kv.2)⟩) = some _ :=
    parse_zadd (c := .zaddMany key kvs update) hprints rfl
  rw [serverScores, zaddMany_argv R cls hprints hkey hmembers, Option.bind_some,
    hparse, Option.map_some, List.map_map]
  refine congrArg some (List.map_congr_left fun kv _ => ?_)
  exact congrArg _ (scoreValue_printed hP kv.2)

theorem keepsRanking_iff (cls : ConnClass) {key : Bytes} (hkey : Plain key)
    {kvs : List (Bytes × ℚ)} (hmembers : ∀ kv ∈ kvs, Plain kv.1)
    (update : UpdateType) :
    KeepsRanking R P cls key kvs update
      ↔ ∀ kv ∈ kvs, ∀ kv' ∈ kvs, kv.2 < kv'.2 → Separated kv.2 kv'.2 := by
  rw [KeepsRanking, serverScores_zaddMany R hP cls hkey hmembers]
  constructor
  · rintro ⟨score, hscore, horder⟩ kv hkv kv' hkv' hlt
    -- any scoring of the members is the one that arrived
    have hsame : ∀ p ∈ kvs, arrived p.2 = score p.2 := by
      intro p hp
      have hpair := (List.map_inj_left.mp (Option.some.inj hscore)) p hp
      exact Option.some.inj (Prod.mk.inj hpair).2
    rw [← arrived_lt_iff, hsame kv hkv, hsame kv' hkv']
    exact (horder kv hkv kv' hkv').mp hlt
  · intro hsep
    refine ⟨arrived, rfl, fun kv hkv kv' hkv' => ?_⟩
    rw [arrived_lt_iff]
    exact ⟨hsep kv hkv kv' hkv', Separated.lt⟩

end order

/-- **ORDER OF SCORES, EXACTLY**: two scores stay in order on the wire, in
    whatever uses, iff a midpoint between two millionths separates them; a list
    keeps its ranking iff this is so of any two of its scores. -/
theorem scores_order_iff (R : RedisFormat) (P : Platform ℚ)
    (hP : P.toStringDouble = stdToString) (cls cls' : ConnClass) :
    (∀ (u u' : ScoreUse) (s t : ℚ), (∀ a ∈ u.names, Plain a) →
        (∀ a ∈ u'.names, Plain a) → s < t →
          (SentInOrder R P cls cls' u u' s t ↔ Separated s t))
      ∧ ∀ (key : Bytes) (kvs : List (Bytes × ℚ)) (update : UpdateType),
          Plain key → (∀ kv ∈ kvs, Plain kv.1) →
            (KeepsRanking R P cls key kvs update
              ↔ ∀ kv ∈ kvs, ∀ kv' ∈ kvs, kv.2 < kv'.2 → Separated kv.2 kv'.2) :=
  ⟨fun _ _ s t hu hu' _ => sentInOrder_iff R hP cls cls' hu hu' s t,
    fun _ _ update hkey hmembers => keepsRanking_iff R hP cls hkey hmembers update⟩

/-- 1.4 and 2.3, one in a call of its own and one as a weight. -/
theorem scores_order_iff_apart :
    SentInOrder hiredisFormat ratPlatform .sync .coro (.zadd (lit "k") (lit "m") .ALWAYS)
      (.weight (lit "d") [] (lit "k") [] (lit "SUM")) (7 / 5) (23 / 10) := by
  refine ((scores_order_iff hiredisFormat ratPlatform rfl .sync .coro).1 _ _ _ _
    (by decide) (by decide) (by norm_num)).mpr (separated_of_gap (by norm_num))

/-- 0 and 2 to the minus 30 are one score to the server. -/
theorem tiny_score_collapses :
    (0 : ℚ) < 1 / 2 ^ 30
    ∧ stdToString (1 / 2 ^ 30) = stdToString 0
    ∧ ¬ SentInOrder hiredisFormat ratPlatform .coro .coro
        (.zadd (lit "k") (lit "a") .ALWAYS) (.zadd (lit "k") (lit "b") .ALWAYS)
        0 (1 / 2 ^ 30) := by
  refine ⟨by norm_num, by decide +kernel, ?_⟩
  rw [sentInOrder_iff hiredisFormat rfl .coro .coro (by decide) (by decide)]
  rintro ⟨k, hzero, htiny⟩
  -- the midpoint above 0 is the lowest that 0 is below
  have hk : 0 ≤ k := by
    have hle := hzero.le
    by_contra hneg
    have hk : (k : ℚ) ≤ -1 := by exact_mod_cast (by omega : k ≤ -1)
    linarith
  have hk' : (0 : ℚ) ≤ k := by exact_mod_cast hk
  have hmid := le_of_not_roundsDown htiny
  norm_num at hmid
  linarith

end Methods
