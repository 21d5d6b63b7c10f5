import Mathlib.Algebra.Order.Ring.Int
import CoroRedis.FixedArityProofs

/-! # Signed integers through an unsigned interface

    The methods take indices, counts and increments as `uint64_t` and return
    integer replies as `uint64_t`.  A negative number wraps on its way in and
    on its way out, each time for itself.

    * `denotes_iff` — an unsigned image stands for the number iff it is not
      negative;
    * `signed_iff` — what follows for the tokens that are sent, for integer
      replies and for a counter that is incremented. -/

namespace Methods

open Pieces CoroBytes HiredisFormat CommandText Decoding RedisReplies

variable {double : Type}

/-- A number and its image, which is the number again or the number and
    2^64. -/
theorem toInt_image (n : Int64) :
    (n.toInt = n.toUInt64.toNat ∧ n.toUInt64.toNat < 2 ^ 63)
      ∨ (n.toInt = n.toUInt64.toNat - 2 ^ 64 ∧ 2 ^ 63 ≤ n.toUInt64.toNat
        ∧ n.toUInt64.toNat < 2 ^ 64) := by
  have hbound : n.toUInt64.toNat < 2 ^ 64 := n.toUInt64.toNat_lt
  have hsigned : n.toInt = if 2 * n.toUInt64.toNat < 2 ^ 64
      then (n.toUInt64.toNat : Int) else (n.toUInt64.toNat : Int) - (2 ^ 64 : Nat) :=
    BitVec.toInt_eq_toNat_cond n.toBitVec
  split at hsigned
  · exact Or.inl (by omega)
  · exact Or.inr (by omega)

/-- **IMAGE**: the implicit conversion keeps a number iff it is not
    negative. -/
theorem denotes_iff (n : Int64) : (n.toUInt64.toNat : Int) = n.toInt ↔ 0 ≤ n.toInt := by
  rcases toInt_image n with himage | himage <;> omega

/-- A number that is not negative has an image below 2^63, and any other one
    from there on. -/
theorem image_lt_iff (n : Int64) : n.toUInt64.toNat < 2 ^ 63 ↔ 0 ≤ n.toInt := by
  rcases toInt_image n with himage | himage <;> omega

/-! ## Sending -/

/-- The methods with the two ends of a range. -/
inductive RangeMethod where
  | bitcount
  | bitpos (bit : UInt64)
  | getrange
  | lrange
  | ltrim
  | zremrangebyrank
  | zrevrange (withscores : Bool)

def RangeMethod.call (key : Bytes) (start stop : UInt64) : RangeMethod → Call double
  | .bitcount => .bitcount key start stop
  | .bitpos bit => .bitpos key bit start stop
  | .getrange => .getrange key start stop
  | .lrange => .lrange key start stop
  | .ltrim => .ltrim key start stop
  | .zremrangebyrank => .zremrangebyrank key start stop
  | .zrevrange withscores => .zrevrange key start stop withscores

/-- Where the range starts in the argument vector. -/
def RangeMethod.position : RangeMethod → Nat
  | .bitpos _ => 3
  | _ => 2

/-- A call with an index, a count or an increment left open. -/
inductive SignedUse where
  | rangeStart (m : RangeMethod) (key : Bytes) (stop : UInt64)
  | rangeStop (m : RangeMethod) (key : Bytes) (start : UInt64)
  | lrem (key val : Bytes)
  | lset (key val : Bytes)
  | incrby (key : Bytes)
  | decrby (key : Bytes)
  | hincrby (key field : Bytes)

namespace SignedUse

def call : SignedUse → UInt64 → Call double
  | .rangeStart m key stop, n => m.call key n stop
  | .rangeStop m key start, n => m.call key start n
  | .lrem key val, n => .lrem key n val
  | .lset key val, n => .lset key n val
  | .incrby key, n => .incrby key n
  | .decrby key, n => .decrby key n
  | .hincrby key field, n => .hincrby key field n

/-- Where the number stands in the argument vector. -/
def position : SignedUse → Nat
  | .rangeStart m _ _ => m.position
  | .rangeStop m _ _ => m.position + 1
  | .hincrby _ _ => 3
  | _ => 2

/-- What else the user passes. -/
def names : SignedUse → List Bytes
  | .rangeStart _ key _ => [key]
  | .rangeStop _ key _ => [key]
  | .lrem key val => [key, val]
  | .lset key val => [key, val]
  | .incrby key => [key]
  | .decrby key => [key]
  | .hincrby key field => [key, field]

end SignedUse

/-- The end of a range is -1 by default. -/
theorem default_stop (key : Bytes) (start bit : UInt64) :
    (.bitcount key start : Call double)
        = (SignedUse.rangeStop .bitcount key start).call (-1 : Int64).toUInt64
      ∧ (.bitpos key bit start : Call double)
        = (SignedUse.rangeStop (.bitpos bit) key start).call (-1 : Int64).toUInt64 :=
  ⟨rfl, rfl⟩

section token

variable (R : RedisFormat) (P : Platform double) (cls : ConnClass)

/-- The token that carries the number, which the caller passes as a signed
    one. -/
def SignedUse.token (u : SignedUse) (n : Int64) : Option Bytes :=
  (argv R P cls (u.call n.toUInt64)).bind fun v => v[u.position]?

/-- The token is a decimal for the number. -/
def SendsNumber (u : SignedUse) (n : Int64) : Prop :=
  ∃ tok, u.token R P cls n = some tok ∧ ascii.read tok = some n.toInt

/-- What is sent is the image of the number. -/
theorem signedToken_eq {u : SignedUse} (hu : ∀ a ∈ u.names, Plain a) (n : Int64) :
    u.token R P cls n = some (decimal n.toUInt64.toNat) := by
  have hfixed : ∀ d, fixedCommand P (u.call n.toUInt64) = some d →
      sentCommand P (u.call n.toUInt64)
        = some (d.verb, d.args ++ d.options.map Token.spelling) →
      (∀ a ∈ d.args, Plain a) →
      u.token R P cls n
        = (d.verb :: (d.args ++ d.options.map Token.spelling))[u.position]? := by
    intro d h hs hargs
    rw [SignedUse.token, argv_of_sent R cls h hs hargs]
    rfl
  have hnum := plain_decimal
  cases u with
  | rangeStart m key stop =>
      have hkey : Plain key := hu key List.mem_cons_self
      cases m <;> exact hfixed _ rfl rfl (by simp [hkey, hnum])
  | rangeStop m key start =>
      have hkey : Plain key := hu key List.mem_cons_self
      cases m <;> exact hfixed _ rfl rfl (by simp [hkey, hnum])
  | _ =>
      refine hfixed _ rfl rfl ?_
      simpa [SignedUse.names, hnum] using hu

/-- **SENT**: the token is right iff the number is not negative. -/
theorem sendsNumber_iff {u : SignedUse} (hu : ∀ a ∈ u.names, Plain a) (n : Int64) :
    SendsNumber R P cls u n ↔ 0 ≤ n.toInt := by
  have hread : ascii.read (decimal n.toUInt64.toNat) = some (n.toUInt64.toNat : Int) := by
    rw [ascii.read_digits (decimal_ne_nil _) (fun c hc => digit_decimal hc),
      value_decimal]
  rw [SendsNumber, signedToken_eq R P cls hu, ← denotes_iff]
  constructor
  · rintro ⟨tok, htok, hn⟩
    rw [← Option.some.inj htok, hread] at hn
    exact Option.some.inj hn
  · intro hn
    exact ⟨_, rfl, hread.trans (congrArg some hn)⟩

end token

/-! ## Integer replies -/

/-- The methods whose integer reply can be negative. -/
def Call.signedReply : Call double → Bool
  | .ttl _ | .pttl _ | .incr _ | .decr _ | .incrby _ _ | .decrby _ _
  | .hincrby _ _ _ => true
  | _ => false

/-- A present value that stands for the number. -/
def ReturnsNumber (res : CallResult (RetVal double)) (n : Int) : Prop :=
  ∃ v : UInt64, res = .returned (some (.uint64 v)) ∧ (v.toNat : Int) = n

/-- An integer reply to one of them is converted. -/
theorem call_integer (P : Platform double) (cls : ConnClass) {c : Call double}
    (h : c.signedReply = true) {r : RedisReply} (hr : r.type = .INTEGER) :
    call P cls c (some r) = .returned (some (.uint64 r.integer.toUInt64)) := by
  have hdeal : dealRedisReply P .uint64 (some r)
      = .ok (some (.uint64 r.integer.toUInt64)) := by
    have hsome : notNil (some r) = some r := notNil_some (by rw [hr]; decide)
    rw [dealRedisReply, dealRedisReplyUint64, hsome]
    simp [hr]
  have hret : ∃ cmd, request P cls c = .command .uint64 cmd := by
    cases c <;> cases h <;> cases cls <;> exact ⟨_, rfl⟩
  obtain ⟨cmd, hcmd⟩ := hret
  exact call_command hcmd hdeal

/-- **RETURNED**: the value is right iff the number is not negative. -/
theorem returnsNumber_iff (P : Platform double) (cls : ConnClass) {c : Call double}
    (h : c.signedReply = true) {r : RedisReply} (hr : r.type = .INTEGER) :
    ReturnsNumber (call P cls c (some r)) r.integer.toInt ↔ 0 ≤ r.integer.toInt := by
  rw [ReturnsNumber, call_integer P cls h hr, ← denotes_iff]
  constructor
  · rintro ⟨v, hv, hn⟩
    rw [RetVal.uint64.inj (Option.some.inj (CallResult.returned.inj hv))]
    exact hn
  · intro hn
    exact ⟨_, rfl, hn⟩

/-! ## Incrementing a counter -/

/-- A server's documented answer to `INCRBY`, for the value of the counter and
    the argument vector: the sum, or an error if the token is out of range. -/
structure IncrbyServer where
  reply : Int64 → List Bytes → RedisReply
  adds : ∀ (v : Int64) key (m : Nat), m < 2 ^ 63 → v.toInt + m < 2 ^ 63 →
    (reply v [lit "incrby", key, decimal m]).type = .INTEGER
      ∧ (reply v [lit "incrby", key, decimal m]).integer.toInt = v.toInt + m
  refuses : ∀ (v : Int64) key (m : Nat), 2 ^ 63 ≤ m →
    (reply v [lit "incrby", key, decimal m]).type = .ERROR

/-- `incrby` of a counter that holds `v`. -/
def incrbyResult (R : RedisFormat) (P : Platform double) (cls : ConnClass)
    (S : IncrbyServer) (key : Bytes) (v d : Int64) :
    Option (CallResult (RetVal double)) :=
  (argv R P cls (.incrby key d.toUInt64)).map fun args =>
    call P cls (.incrby key d.toUInt64) (some (S.reply v args))

/-- **INCREMENTED**: the sum is returned iff neither the increment nor the sum
    is negative. -/
theorem incrby_iff (R : RedisFormat) (P : Platform double) (cls : ConnClass)
    (S : IncrbyServer) {key : Bytes} (hkey : Plain key) {v d : Int64}
    (hrange : -2 ^ 63 ≤ v.toInt + d.toInt ∧ v.toInt + d.toInt < 2 ^ 63) :
    (∃ res, incrbyResult R P cls S key v d = some res
        ∧ ReturnsNumber res (v.toInt + d.toInt))
      ↔ 0 ≤ d.toInt ∧ 0 ≤ v.toInt + d.toInt := by
  have hsent : argv R P cls (.incrby key d.toUInt64)
      = some [lit "incrby", key, decimal d.toUInt64.toNat] :=
    argv_of_sent (c := .incrby key d.toUInt64)
      (d := ⟨lit "incrby", [key, decimal d.toUInt64.toNat], []⟩) R cls rfl rfl
      (by simp [hkey, plain_decimal])
  rw [incrbyResult, hsent, Option.map_some]
  by_cases hd : 0 ≤ d.toInt
  · -- the token is the increment, so the reply is the sum
    have himage := (denotes_iff d).mpr hd
    have hbelow := (image_lt_iff d).mpr hd
    obtain ⟨htype, hsum⟩ := S.adds v key d.toUInt64.toNat hbelow (by omega)
    rw [himage] at hsum
    have hreturns := returnsNumber_iff (c := .incrby key d.toUInt64) P cls rfl htype
    rw [hsum] at hreturns
    constructor
    · rintro ⟨res, hres, hnum⟩
      rw [← Option.some.inj hres] at hnum
      exact ⟨hd, hreturns.mp hnum⟩
    · rintro ⟨-, hnonneg⟩
      exact ⟨_, rfl, hreturns.mpr hnonneg⟩
  · refine iff_of_false ?_ fun h => hd h.1
    rintro ⟨res, hres, u, hu, -⟩
    have hrefused := S.refuses v key d.toUInt64.toNat (by
      have := mt (image_lt_iff d).mp hd
      omega)
    -- an error is no value
    have hnone : call P cls (.incrby key d.toUInt64) (some (S.reply v
        [lit "incrby", key, decimal d.toUInt64.toNat])) = .returned none := by
      have hreject : dealRedisReply P .uint64 (some (S.reply v
          [lit "incrby", key, decimal d.toUInt64.toNat])) = .ok none :=
        dealRedisReply_reject P (by rw [hrefused]; decide)
      cases cls
      · exact call_command rfl hreject
      · exact call_command rfl hreject
    rw [← Option.some.inj hres, hnone] at hu
    exact nomatch hu

/-! ## Both directions -/

/-- **SIGNED INTEGERS, EXACTLY**: a number survives on its way in and on its
    way out iff it is not negative, and `incrby` returns the sum iff neither
    the increment nor the sum is negative. -/
theorem signed_iff (R : RedisFormat) (P : Platform double) (cls : ConnClass)
    (S : IncrbyServer) :
    (∀ (u : SignedUse) (n : Int64), (∀ a ∈ u.names, Plain a) →
        (SendsNumber R P cls u n ↔ 0 ≤ n.toInt))
      ∧ (∀ (c : Call double) (r : RedisReply), c.signedReply = true →
          r.type = .INTEGER →
            (ReturnsNumber (call P cls c (some r)) r.integer.toInt
              ↔ 0 ≤ r.integer.toInt))
      ∧ ∀ (key : Bytes) (v d : Int64), Plain key →
          -2 ^ 63 ≤ v.toInt + d.toInt ∧ v.toInt + d.toInt < 2 ^ 63 →
            ((∃ res, incrbyResult R P cls S key v d = some res
                ∧ ReturnsNumber res (v.toInt + d.toInt))
              ↔ 0 ≤ d.toInt ∧ 0 ≤ v.toInt + d.toInt) :=
  ⟨fun _ n hu => sendsNumber_iff R P cls hu n,
    fun _ _ h hr => returnsNumber_iff P cls h hr,
    fun _ _ _ hkey hrange => incrby_iff R P cls S hkey hrange⟩

/-- What a server that adds decimals replies. -/
def decimalReply (v : Int64) (args : List Bytes) : RedisReply :=
  match (args[2]?).bind parseNumber with
  | some m =>
      if m < 2 ^ 63 ∧ v.toInt + m < 2 ^ 63 then
        ⟨.INTEGER, Int64.ofInt (v.toInt + m), [], []⟩
      else ⟨.ERROR, 0, lit "ERR value is not an integer or out of range", []⟩
  | none => ⟨.ERROR, 0, lit "ERR value is not an integer or out of range", []⟩

theorem decimalReply_adds (v : Int64) (key : Bytes) (m : Nat) (hm : m < 2 ^ 63)
    (hsum : v.toInt + m < 2 ^ 63) :
    (decimalReply v [lit "incrby", key, decimal m]).type = .INTEGER
      ∧ (decimalReply v [lit "incrby", key, decimal m]).integer.toInt
        = v.toInt + m := by
  have hlow : -2 ^ 63 ≤ v.toInt := v.le_toInt
  have hparse : ([lit "incrby", key, decimal m][2]?).bind parseNumber = some m :=
    parseNumber_decimal m
  simp only [decimalReply, hparse, if_pos (And.intro hm hsum), true_and]
  exact Int64.toInt_ofInt_of_le (by omega) hsum

theorem decimalReply_refuses (v : Int64) (key : Bytes) (m : Nat) (hm : 2 ^ 63 ≤ m) :
    (decimalReply v [lit "incrby", key, decimal m]).type = .ERROR := by
  have hparse : ([lit "incrby", key, decimal m][2]?).bind parseNumber = some m :=
    parseNumber_decimal m
  have hno : ¬ (m < 2 ^ 63 ∧ v.toInt + m < 2 ^ 63) := by omega
  simp only [decimalReply, hparse, if_neg hno]

/-- A server that adds decimals. -/
def decimalServer : IncrbyServer :=
  ⟨decimalReply, decimalReply_adds, decimalReply_refuses⟩

/-- From -2 by 5 to 3. -/
theorem signed_iff_incrby :
    ∃ res, incrbyResult hiredisFormat textPlatform .sync decimalServer (lit "k") (-2) 5
        = some res ∧ ReturnsNumber res 3 :=
  ((signed_iff hiredisFormat textPlatform .sync decimalServer).2.2 (lit "k") (-2) 5
    (by decide) (by decide)).mpr (by decide)

/-- The whole list is not asked for, and a key without a timeout has one. -/
theorem minus_one_wraps :
    (SignedUse.rangeStop .lrange (lit "k") 0).token hiredisFormat textPlatform .coro (-1)
        = some (decimal 18446744073709551615)
    ∧ ¬ SendsNumber hiredisFormat textPlatform .coro (.rangeStop .lrange (lit "k") 0) (-1)
    ∧ call textPlatform .coro (.ttl (lit "k")) (some ⟨.INTEGER, -1, [], []⟩)
        = .returned (some (.uint64 18446744073709551615))
    ∧ ¬ ReturnsNumber
        (call textPlatform .coro (.ttl (lit "k")) (some ⟨.INTEGER, -1, [], []⟩)) (-1) := by
  have hnames : ∀ a ∈ (SignedUse.rangeStop .lrange (lit "k") 0).names, Plain a := by
    decide
  refine ⟨signedToken_eq hiredisFormat textPlatform .coro hnames (-1), ?_, rfl, ?_⟩
  · rw [sendsNumber_iff hiredisFormat textPlatform .coro hnames]
    decide
  · exact mt (returnsNumber_iff textPlatform .coro rfl rfl).mp (by decide)

end Methods
