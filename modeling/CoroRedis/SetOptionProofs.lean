import CoroRedis.ArgvProofs

/-! # The options of `SET`

    `set` appends its options with irregular spaces; `parseSet` is how the
    server reads a `SET` command.  `SetOptions.tokens` prints options, and
    `parseOptions_tokens` says that the server reads them back.

    * `set_round_trip` — what the server reads from a call of `set` is the key,
      the value and the options of the call. -/

namespace Methods

open Pieces CoroBytes HiredisFormat CommandText Decoding

variable {double : Type}

/-! ## The syntax of `SET` -/

inductive TtlUnit where
  | EX | PX | EXAT | PXAT
  deriving DecidableEq

inductive Expiry where
  | keepTtl
  | after (unit : TtlUnit) (n : Nat)
  deriving DecidableEq

inductive SetCondition where
  | XX | NX
  deriving DecidableEq

/-- At most one of `KEEPTTL` and a time, and at most one of `XX` and `NX`. -/
structure SetOptions where
  expiry : Option Expiry
  condition : Option SetCondition
  deriving DecidableEq

structure SetCommand where
  key : Bytes
  val : Bytes
  options : SetOptions
  deriving DecidableEq

def TtlUnit.keyword : TtlUnit → Bytes
  | .EX => lit "EX"
  | .PX => lit "PX"
  | .EXAT => lit "EXAT"
  | .PXAT => lit "PXAT"

def SetCondition.keyword : SetCondition → Bytes
  | .XX => lit "XX"
  | .NX => lit "NX"

def parseUnit : Bytes → Option TtlUnit :=
  findWord [(lit "EX", .EX), (lit "PX", .PX), (lit "EXAT", .EXAT),
    (lit "PXAT", .PXAT)]

def parseCondition : Bytes → Option SetCondition :=
  findWord [(lit "XX", .XX), (lit "NX", .NX)]

/-- The options of a `SET` command, in any order; none of them twice. -/
def parseOptions : SetOptions → List Bytes → Option SetOptions
  | o, [] => some o
  | o, tok :: rest =>
      if SameWord tok (lit "KEEPTTL") then
        if o.expiry = none then
          parseOptions { o with expiry := some .keepTtl } rest
        else none
      else match parseCondition tok with
        | some c =>
            if o.condition = none then
              parseOptions { o with condition := some c } rest
            else none
        | none =>
            match parseUnit tok, rest with
            | some unit, number :: rest =>
                match parseNumber number with
                | some n =>
                    if o.expiry = none then
                      parseOptions { o with expiry := some (.after unit n) } rest
                    else none
                | none => none
            | _, _ => none

/-- A `SET` command, as the server reads it. -/
def parseSet : List Bytes → Option SetCommand
  | verb :: key :: val :: options =>
      if SameWord verb (lit "set") then
        (parseOptions ⟨none, none⟩ options).map fun o => ⟨key, val, o⟩
      else none
  | _ => none

/-! ## Printing options -/

def Expiry.tokens : Expiry → List Bytes
  | .keepTtl => [lit "KEEPTTL"]
  | .after unit n => [unit.keyword, decimal n]

def expiryTokens (expiry : Option Expiry) : List Bytes :=
  (expiry.map Expiry.tokens).getD []

def conditionTokens (condition : Option SetCondition) : List Bytes :=
  condition.toList.map SetCondition.keyword

def SetOptions.tokens (o : SetOptions) : List Bytes :=
  expiryTokens o.expiry ++ conditionTokens o.condition

/-- A condition is read back behind any time. -/
theorem parseOptions_condition (expiry : Option Expiry)
    (condition : Option SetCondition) :
    parseOptions ⟨expiry, none⟩ (conditionTokens condition)
      = some ⟨expiry, condition⟩ := by
  cases condition with
  | none => rfl
  | some c => cases c <;> rfl

/-- **ROUND TRIP**: the server reads the options back. -/
theorem parseOptions_tokens (o : SetOptions) :
    parseOptions ⟨none, none⟩ o.tokens = some o := by
  obtain ⟨expiry, condition⟩ := o
  rw [SetOptions.tokens]
  cases expiry with
  | none => exact parseOptions_condition none condition
  | some e =>
      have hcond := parseOptions_condition (some e) condition
      cases e with
      | keepTtl => exact hcond
      | after unit n =>
          -- the number is read behind its unit
          have hread : parseOptions ⟨none, none⟩
              (unit.keyword :: decimal n :: conditionTokens condition)
              = (match parseNumber (decimal n) with
                | some m => parseOptions ⟨some (.after unit m), none⟩
                    (conditionTokens condition)
                | none => none) := by
            cases unit <;> rfl
          rw [parseNumber_decimal] at hread
          exact hread.trans hcond

theorem plain_tokens (o : SetOptions) : ∀ a ∈ o.tokens, Plain a := by
  obtain ⟨expiry, condition⟩ := o
  intro a ha
  rcases List.mem_append.mp ha with he | hc
  · cases expiry with
    | none => exact nomatch he
    | some e =>
        cases e with
        | keepTtl =>
            rw [List.mem_singleton.mp he]
            decide
        | after unit n =>
            rcases List.mem_cons.mp he with rfl | hn
            · cases unit <;> decide
            · rw [List.mem_singleton.mp hn]
              exact plain_decimal n
  · cases condition with
    | none => exact nomatch hc
    | some c =>
        rw [List.mem_singleton.mp hc]
        cases c <;> decide

/-! ## What a call of `set` asks for -/

/-- The unit of a time, if the type is not `KEEPTTL`. -/
def unitOf : RedisTTLType → Option TtlUnit
  | .EX => some .EX
  | .PX => some .PX
  | .EXAT => some .EXAT
  | .PXAT => some .PXAT
  | .KEEPTTL => none

/-- `KEEPTTL` whatever the ttl is, otherwise the ttl if it is not 0. -/
def expiryOf (ttl : UInt64) (ttl_type : RedisTTLType) : Option Expiry :=
  match unitOf ttl_type with
  | none => some .keepTtl
  | some unit => if ttl > 0 then some (.after unit ttl.toNat) else none

def conditionOf : UpdateType → Option SetCondition
  | .EXIST => some .XX
  | .NOT_EXIST => some .NX
  | _ => none

/-- The options a call of `set` asks for. -/
def setOptions (ttl : UInt64) (ttl_type : RedisTTLType) (type : UpdateType) :
    SetOptions := ⟨expiryOf ttl ttl_type, conditionOf type⟩

/-! ## What it writes -/

section written

variable {key val : Bytes}

/-- The time options behind the key and the value. -/
theorem set_always_written (hkey : key ≠ []) (hval : val ≠ []) (ttl : UInt64)
    (ttl_type : RedisTTLType) :
    Written sp (lit "set") (CoroConnectionImpl.set key val ttl ttl_type .ALWAYS)
      ([key, val] ++ expiryTokens (expiryOf ttl ttl_type)) := by
  have hbase : Written sp (lit "set") (fmtFormat "set {} {}" [key, val])
      [key, val] := by
    refine written_fmt rfl rfl (lowerWord_lit rfl rfl) (List.cons_ne_nil _ _) ?_
    simp [hkey, hval]
  have hunit : ∀ unit, unitOf ttl_type = some unit →
      CoroConnectionImpl.set key val ttl ttl_type .ALWAYS
        = if ttl > 0 then fmtFormat "set {} {}" [key, val]
            ++ (lit " " ++ unit.keyword ++ lit " ") ++ decimal ttl.toNat
          else fmtFormat "set {} {}" [key, val] := by
    intro unit hu
    by_cases h : ttl > 0
    · cases ttl_type <;> cases hu <;> simp [CoroConnectionImpl.set, h] <;> rfl
    · cases ttl_type <;> cases hu <;> simp [CoroConnectionImpl.set, h]
  rw [expiryOf]
  cases hu : unitOf ttl_type with
  | none =>
      cases ttl_type <;> cases hu
      have htext : CoroConnectionImpl.set key val ttl .KEEPTTL .ALWAYS
          = fmtFormat "set {} {}" [key, val]
            ++ (lit " " ++ lit "KEEPTTL" ++ lit " ") := by
        simp [CoroConnectionImpl.set]
        rfl
      rw [htext]
      exact written_keyword hbase _ (by decide)
  | some unit =>
      rw [hunit unit hu]
      by_cases h : ttl > 0
      · simp only [if_pos h]
        refine written_option hbase _ ?_ (decimal_ne_nil _)
        cases unit <;> decide
      · simp only [if_neg h]
        exact hbase

/-- All the options behind the key and the value. -/
theorem set_written (hkey : key ≠ []) (hval : val ≠ []) (ttl : UInt64)
    (ttl_type : RedisTTLType) (type : UpdateType) :
    Written sp (lit "set") (CoroConnectionImpl.set key val ttl ttl_type type)
      ([key, val] ++ (setOptions ttl ttl_type type).tokens) := by
  have hbase := set_always_written hkey hval ttl ttl_type
  rw [SetOptions.tokens, ← List.append_assoc]
  cases type with
  | EXIST => exact written_keyword hbase (lit "XX") (by decide)
  | NOT_EXIST => exact written_keyword hbase (lit "NX") (by decide)
  | _ =>
      -- no condition: nothing is appended
      show Written _ _ _ (_ ++ [])
      rw [List.append_nil]
      exact hbase

end written

/-! ## Values -/

namespace SetValue

/-- What the server is to store: a string itself, an integer in decimal. -/
def stored : SetValue → Bytes
  | .string s => s
  | .integer n => lit (toString n)
  | .bool b => lit (toString b)
  | .char c => [c]

/-- The value can be glued into a text; numbers always can. -/
def Plain : SetValue → Prop
  | .string s => HiredisFormat.Plain s
  | .char c => HiredisFormat.Plain [c]
  | _ => True

/-- The digits of an integer behind its sign. -/
theorem stored_integer (n : Int) :
    (SetValue.integer n).stored
      = (if n < 0 then lit "-" else []) ++ decimal n.natAbs := by
  have hrepr : ∀ m, lit (Nat.repr m) = decimal m := fun m => lit_ofList _
  cases n with
  | ofNat m =>
      have hn : ¬ Int.ofNat m < 0 := by simp
      rw [if_neg hn]
      exact hrepr m
  | negSucc m =>
      rw [if_pos (Int.negSucc_lt_zero m)]
      show lit ("-" ++ Nat.repr (m + 1)) = lit "-" ++ decimal (m + 1)
      rw [← hrepr, lit, String.toList_append, List.map_append]
      rfl

/-- `{}` writes what is to be stored. -/
theorem text_eq_stored (val : SetValue) : val.text = val.stored := by
  cases val with
  | string s => rfl
  | integer n =>
      rw [stored_integer, text]
      by_cases hn : n < 0
      · rw [if_pos hn, if_pos hn]
      · rw [if_neg hn, if_neg hn]
        rfl
  | bool b => cases b <;> rfl
  | char c => rfl

/-- **READ-BACK**: the stored text of an integer is read as the integer. -/
theorem read_stored (n : Int) :
    ascii.read (SetValue.integer n).stored = some n := by
  have hdigits : ∀ c ∈ decimal n.natAbs, ascii.digit c = true :=
    fun c hc => digit_decimal hc
  rw [stored_integer, ascii.read_eq_some]
  by_cases hn : n < 0
  · rw [if_pos hn]
    refine ⟨[], lit "-", true, decimal n.natAbs, [], by simp, nofun,
      Numerals.Alphabet.Sign.minus, decimal_ne_nil _, hdigits, nofun, ?_⟩
    rw [value_decimal, if_pos rfl]
    omega
  · rw [if_neg hn]
    refine ⟨[], [], false, decimal n.natAbs, [], by simp, nofun,
      Numerals.Alphabet.Sign.none, decimal_ne_nil _, hdigits, nofun, ?_⟩
    rw [value_decimal, if_neg Bool.false_ne_true]
    omega

theorem plain_stored {val : SetValue} (h : val.Plain) :
    HiredisFormat.Plain val.stored := by
  cases val with
  | string s => exact h
  | char c => exact h
  | bool b => cases b <;> decide
  | integer n =>
      rw [stored_integer, plain_iff]
      refine ⟨fun hnil => decimal_ne_nil _ (List.append_eq_nil_iff.mp hnil).2,
        ?_, ?_, ?_⟩
      all_goals
        intro hmem
        rcases List.mem_append.mp hmem with hsign | hdec
        · split_ifs at hsign
          · exact absurd hsign (by decide)
          · exact nomatch hsign
        · exact not_mem_decimal (Or.inl (by decide)) hdec

end SetValue

/-- **WHAT `set` SENDS**. -/
theorem set_argv (R : RedisFormat) (P : Platform double) (cls : ConnClass)
    {key : Bytes} {val : SetValue} (hkey : Plain key) (hval : val.Plain)
    (ttl : UInt64) (ttl_type : RedisTTLType) (type : UpdateType) :
    argv R P cls (.set key val ttl ttl_type type)
      = some (lit "set" :: key :: val.stored
          :: (setOptions ttl ttl_type type).tokens) := by
  have hstored := SetValue.plain_stored hval
  have hw := set_written hkey.ne_nil hstored.ne_nil ttl ttl_type type
  rw [← SetValue.text_eq_stored] at hw hstored ⊢
  refine argv_written R cls rfl (lowerWord_lit rfl rfl) hw ?_
  intro a (ha : a ∈ [key, val.text] ++ _)
  rcases List.mem_append.mp ha with hkv | hopt
  · rcases List.mem_cons.mp hkv with rfl | hv
    · exact hkey
    · rw [List.mem_singleton.mp hv]
      exact hstored
  · exact plain_tokens _ a hopt

/-! ## Round trip -/

/-- The command stores the value under the key, with the options. -/
structure Stores (cmd : SetCommand) (key : Bytes) (val : SetValue)
    (options : SetOptions) : Prop where
  key : cmd.key = key
  string : ∀ s, val = .string s → cmd.val = s
  integer : ∀ n, val = .integer n → cmd.val = lit (toString n)
    ∧ ascii.read cmd.val = some n
  stored : cmd.val = val.stored
  options : cmd.options = options

theorem stores_self (key : Bytes) (val : SetValue) (options : SetOptions) :
    Stores ⟨key, val.stored, options⟩ key val options := by
  refine ⟨rfl, ?_, ?_, rfl, rfl⟩
  · rintro s rfl
    rfl
  · rintro n rfl
    exact ⟨rfl, SetValue.read_stored n⟩

theorem parseSet_tokens (key val : Bytes) (options : SetOptions) :
    parseSet (lit "set" :: key :: val :: options.tokens)
      = some ⟨key, val, options⟩ := by
  rw [parseSet, if_pos (SameWord.refl _), parseOptions_tokens]
  rfl

/-- **SET ROUND TRIP**: the server reads a command that stores the call's value
    under the call's key with the call's options, so a call that sends the same
    vector has the same effect. -/
theorem set_round_trip (R : RedisFormat) (P : Platform double) (cls : ConnClass)
    (key : Bytes) (val : SetValue) (ttl : UInt64) (ttl_type : RedisTTLType)
    (type : UpdateType) (hkey : Plain key) (hval : val.Plain) :
    (∃ v cmd, argv R P cls (.set key val ttl ttl_type type) = some v
        ∧ parseSet v = some cmd
        ∧ Stores cmd key val (setOptions ttl ttl_type type))
      ∧ ∀ key' val' ttl' ttl_type' type', Plain key' → SetValue.Plain val' →
        argv R P cls (.set key' val' ttl' ttl_type' type')
            = argv R P cls (.set key val ttl ttl_type type) →
          key' = key ∧ val'.stored = val.stored
            ∧ setOptions ttl' ttl_type' type' = setOptions ttl ttl_type type := by
  refine ⟨⟨_, _, set_argv R P cls hkey hval ttl ttl_type type,
    parseSet_tokens _ _ _, stores_self _ _ _⟩, ?_⟩
  intro key' val' ttl' ttl_type' type' hkey' hval' heq
  rw [set_argv R P cls hkey' hval', set_argv R P cls hkey hval] at heq
  have hcmd := congrArg (Option.bind · parseSet) heq
  simp only [Option.bind_some, parseSet_tokens, Option.some.injEq,
    SetCommand.mk.injEq] at hcmd
  exact hcmd

/-- A value that looks like an option, with a time, and a negative number. -/
theorem set_round_trip_keyword :
    (∃ v cmd, argv hiredisFormat textPlatform .sync
          (.set (lit "k") (.string (lit "NX")) 10 .EX .EXIST) = some v
        ∧ parseSet v = some cmd ∧ cmd.key = lit "k" ∧ cmd.val = lit "NX"
        ∧ cmd.options = ⟨some (.after .EX 10), some .XX⟩)
      ∧ ∃ v cmd, argv hiredisFormat textPlatform .coro
          (.set (lit "k") (.integer (-42)) 10 .KEEPTTL) = some v
        ∧ parseSet v = some cmd ∧ cmd.val = lit "-42"
        ∧ ascii.read cmd.val = some (-42)
        ∧ cmd.options = ⟨some .keepTtl, none⟩ := by
  obtain ⟨v, cmd, hv, hcmd, h⟩ := (set_round_trip hiredisFormat textPlatform
    .sync (lit "k") (.string (lit "NX")) 10 .EX .EXIST (by decide)
    (show Plain _ by decide)).1
  obtain ⟨v', cmd', hv', hcmd', h'⟩ := (set_round_trip hiredisFormat
    textPlatform .coro (lit "k") (.integer (-42)) 10 .KEEPTTL .ALWAYS
    (by decide) trivial).1
  have hint := h'.integer (-42) rfl
  exact ⟨⟨v, cmd, hv, hcmd, h.key, h.string _ rfl, h.options⟩,
    v', cmd', hv', hcmd', hint.1, hint.2, h'.options⟩

end Methods
