import CoroRedis.ArgvProofs

/-! # Requests of the scan family

    Eight builders and the overloads that hand their call on to them.
    `Call.forwardsTo` is the dispatch, `ScanParams.vector` the one shape of
    request there should be, and `parseScan` reads it.  One dispatch does not
    end: `zscan` without a pattern calls itself.

    * `scan_argv` — what the other calls send;
    * `scan_uniform_iff` — which calls terminate with a uniform request. -/

namespace Methods

open Pieces CoroBytes HiredisFormat CommandText Decoding Scans

variable {double : Type}

/-! ## Dispatch -/

/-- The call an overload without a pattern makes. -/
def Call.forwardsTo : Call double → Option (Call double)
  | .scanCount cursor count => some (.scan cursor [] count)
  | .hscanCount key cursor count => some (.hscan key cursor [] count)
  | .sscanCount key cursor count => some (.sscan key cursor [] count)
  -- overload resolution finds the caller
  | .zscanCount key cursor count => some (.zscanCount key cursor count)
  | _ => none

/-- The dispatch comes to an end. -/
inductive Terminates : Call double → Prop where
  | here {c : Call double} (h : c.forwardsTo = none) : Terminates c
  | forward {c c' : Call double} (h : c.forwardsTo = some c')
      (ht : Terminates c') : Terminates c

/-- A call does what the call it makes does. -/
theorem request_forwards (P : Platform double) (cls : ConnClass)
    {c c' : Call double} (h : c.forwardsTo = some c') :
    request P cls c = request P cls c' := by
  cases c <;> cases h <;> cases cls <;> rfl

theorem not_terminates_of_self {c : Call double} (h : c.forwardsTo = some c) :
    ¬ Terminates c := by
  intro ht
  induction ht with
  | here hn =>
      rw [hn] at h
      exact nomatch h
  | forward hf _ ih =>
      rw [hf] at h
      obtain rfl := Option.some.inj h
      exact ih hf

/-- **TERMINATION, EXACTLY**: every dispatch ends but that of `zscan` without a
    pattern. -/
theorem terminates_iff (c : Call double) : Terminates c ↔ c.isItself = false := by
  constructor
  · intro ht
    cases c with
    | zscanCount key cursor count => exact absurd ht (not_terminates_of_self rfl)
    | _ => rfl
  · intro hi
    cases c with
    | zscanCount key cursor count => exact nomatch hi
    | scanCount cursor count => exact .forward rfl (.here rfl)
    | hscanCount key cursor count => exact .forward rfl (.here rfl)
    | sscanCount key cursor count => exact .forward rfl (.here rfl)
    | _ => exact .here rfl

/-- A dispatch that does not end never returns. -/
theorem call_of_not_terminates (P : Platform double) (cls : ConnClass)
    {c : Call double} (h : ¬ Terminates c) (reply : Option RedisReplies.RedisReply) :
    call P cls c reply = .neverReturns := by
  rw [terminates_iff, Bool.not_eq_false] at h
  cases c with
  | zscanCount key cursor count => cases cls <;> rfl
  | _ => exact nomatch h

/-! ## The uniform request -/

/-- Verb and key, cursor, pattern and count of a scan; an empty pattern and a
    count of 0 are left out. -/
structure ScanParams where
  method : ScanMethod
  cursor : UInt64
  pattern : Bytes
  count : UInt64

def scanVerb : ScanMethod → Bytes
  | .scan => lit "scan"
  | .hscan _ => lit "hscan"
  | .sscan _ => lit "sscan"
  | .zscan _ => lit "zscan"

def scanKey : ScanMethod → List Bytes
  | .scan => []
  | .hscan key => [key]
  | .sscan key => [key]
  | .zscan key => [key]

/-- `[MATCH pattern] [COUNT count]`. -/
def scanOptions (pattern : Bytes) (count : UInt64) : List Bytes :=
  (if pattern ≠ [] then [lit "MATCH", pattern] else [])
    ++ if count > 0 then [lit "COUNT", decimal count.toNat] else []

def ScanParams.vector (q : ScanParams) : List Bytes :=
  scanVerb q.method :: (scanKey q.method ++ [decimal q.cursor.toNat]
    ++ scanOptions q.pattern q.count)

/-- Key and pattern can be glued into a text. -/
structure ScanParams.Plain (q : ScanParams) : Prop where
  key : ∀ k ∈ scanKey q.method, HiredisFormat.Plain k
  pattern : q.pattern ≠ [] → HiredisFormat.Plain q.pattern

/-- What a call of the scan family asks for. -/
def Call.scanParams : Call double → Option ScanParams
  | .scanCount cursor count => some ⟨.scan, cursor, [], count⟩
  | .scan cursor pattern count => some ⟨.scan, cursor, pattern, count⟩
  | .hscanCount key cursor count => some ⟨.hscan key, cursor, [], count⟩
  | .hscan key cursor pattern count => some ⟨.hscan key, cursor, pattern, count⟩
  | .sscanCount key cursor count => some ⟨.sscan key, cursor, [], count⟩
  | .sscan key cursor pattern count => some ⟨.sscan key, cursor, pattern, count⟩
  | .zscanCount key cursor count => some ⟨.zscan key, cursor, [], count⟩
  | .zscan key cursor pattern count => some ⟨.zscan key, cursor, pattern, count⟩
  | _ => none

/-- The overload with the pattern spelled out. -/
def ScanParams.call (q : ScanParams) : Call double :=
  match q.method with
  | .scan => .scan q.cursor q.pattern q.count
  | .hscan key => .hscan key q.cursor q.pattern q.count
  | .sscan key => .sscan key q.cursor q.pattern q.count
  | .zscan key => .zscan key q.cursor q.pattern q.count

/-- A dispatch that ends is the one with the pattern spelled out. -/
theorem request_spelled_out (P : Platform double) (cls : ConnClass)
    {c : Call double} {q : ScanParams} (h : c.scanParams = some q)
    (ht : Terminates c) : request P cls c = request P cls q.call := by
  cases c with
  | zscanCount key cursor count => exact absurd ht (not_terminates_of_self rfl)
  | _ => cases h <;> cases cls <;> rfl

/-! ## Reading it -/

/-- `[MATCH pattern]` and `[COUNT count]`, in any order. -/
def parseScanOptions : Bytes × UInt64 → List Bytes → Option (Bytes × UInt64)
  | o, [] => some o
  | _, [_] => none
  | o, kw :: a :: rest =>
      if SameWord kw (lit "MATCH") then parseScanOptions (a, o.2) rest
      else if SameWord kw (lit "COUNT") then
        (parseNumber a).bind fun n => parseScanOptions (o.1, n.toUInt64) rest
      else none

/-- The cursor and what stands behind it. -/
def parseCursor (m : ScanMethod) : List Bytes → Option ScanParams
  | [] => none
  | cursor :: rest =>
      (parseNumber cursor).bind fun n =>
        (parseScanOptions ([], 0) rest).map fun o => ⟨m, n.toUInt64, o.1, o.2⟩

/-- A scan, as the server reads it. -/
def parseScan : List Bytes → Option ScanParams
  | [] => none
  | verb :: rest =>
      if SameWord verb (lit "scan") then parseCursor .scan rest
      else match rest with
        | [] => none
        | key :: rest =>
            (findWord [(lit "hscan", ScanMethod.hscan key), (lit "sscan", .sscan key),
              (lit "zscan", .zscan key)] verb).bind fun m => parseCursor m rest

theorem parseScanOptions_options (pattern : Bytes) (count : UInt64) :
    parseScanOptions ([], 0) (scanOptions pattern count)
      = some (pattern, count) := by
  have hmatch : SameWord (lit "MATCH") (lit "MATCH") := .refl _
  have hcount : ¬ SameWord (lit "COUNT") (lit "MATCH") := by decide
  -- the count is read behind any pattern
  have hread : ∀ p : Bytes, parseScanOptions (p, 0)
      (if count > 0 then [lit "COUNT", decimal count.toNat] else [])
      = some (p, count) := by
    intro p
    by_cases hc : count > 0
    · rw [if_pos hc, parseScanOptions, if_neg hcount, if_pos (SameWord.refl _),
        parseNumber_decimal, Option.bind_some, parseScanOptions]
      simp
    · have hz : count = 0 := by
        simpa using hc
      rw [if_neg hc, parseScanOptions, hz]
  rw [scanOptions]
  by_cases hp : pattern = []
  · rw [if_neg (not_not_intro hp), hp]
    exact hread []
  · rw [if_pos hp, List.cons_append, List.cons_append, List.nil_append,
      parseScanOptions, if_pos hmatch]
    exact hread pattern

/-- **ROUND TRIP**: the server reads the parameters back. -/
theorem parseScan_vector (q : ScanParams) : parseScan q.vector = some q := by
  obtain ⟨m, cursor, pattern, count⟩ := q
  have hcursor : parseCursor m ([decimal cursor.toNat] ++ scanOptions pattern count)
      = some ⟨m, cursor, pattern, count⟩ := by
    rw [List.singleton_append, parseCursor, parseNumber_decimal, Option.bind_some,
      parseScanOptions_options]
    simp
  cases m <;> exact hcursor

/-! ## What the builders write -/

/-- Cursor, pattern and count behind anything. -/
theorem written_scanArgs {verb cmd : Bytes} {args : List Bytes}
    (h : Written sp verb cmd args) (cursor : UInt64) (pattern : Bytes)
    (count : UInt64) :
    Written sp verb
      (Scans.CoroConnectionImpl.appendScanArgs cmd cursor pattern count)
      (args ++ [decimal cursor.toNat] ++ scanOptions pattern count) := by
  have hcursor := written_append h (decimal_ne_nil cursor.toNat)
  have hmatch : lit " MATCH " = lit " " ++ lit "MATCH" ++ lit " " := by decide
  have hcount : lit " COUNT " = lit " " ++ lit "COUNT" ++ lit " " := by decide
  have hpattern : Written sp verb
      (if pattern ≠ [] then cmd ++ lit " " ++ decimal cursor.toNat ++ lit " MATCH "
        ++ pattern else cmd ++ lit " " ++ decimal cursor.toNat)
      (args ++ [decimal cursor.toNat]
        ++ if pattern ≠ [] then [lit "MATCH", pattern] else []) := by
    by_cases hp : pattern = []
    · rw [if_neg (not_not_intro hp), if_neg (not_not_intro hp), List.append_nil]
      exact hcursor
    · rw [if_pos hp, if_pos hp, hmatch]
      exact written_option hcursor (lit "MATCH") (List.cons_ne_nil _ _) hp
  rw [Scans.CoroConnectionImpl.appendScanArgs, scanOptions, ← List.append_assoc]
  by_cases hc : count > 0
  · rw [if_pos hc, if_pos hc, hcount]
    exact written_option hpattern (lit "COUNT") (List.cons_ne_nil _ _)
      (decimal_ne_nil _)
  · rw [if_neg hc, if_neg hc, List.append_nil]
    exact hpattern

theorem lowerWord_scanVerb (m : ScanMethod) : LowerWord (scanVerb m) := by
  cases m <;> exact lowerWord_lit rfl rfl

theorem plain_scanArgs {q : ScanParams} (h : q.Plain) :
    ∀ a ∈ scanKey q.method ++ [decimal q.cursor.toNat]
      ++ scanOptions q.pattern q.count, HiredisFormat.Plain a := by
  intro a ha
  rcases List.mem_append.mp ha with hfixed | hopt
  · rcases List.mem_append.mp hfixed with hkey | hcursor
    · exact h.key a hkey
    · rw [List.mem_singleton.mp hcursor]
      exact plain_decimal _
  · rcases List.mem_append.mp hopt with hpat | hcount
    · by_cases hp : q.pattern = []
      · rw [if_neg (not_not_intro hp)] at hpat
        exact nomatch hpat
      · rw [if_pos hp] at hpat
        rcases List.mem_cons.mp hpat with rfl | hpat
        · decide
        · rw [List.mem_singleton.mp hpat]
          exact h.pattern hp
    · by_cases hc : q.count > 0
      · rw [if_pos hc] at hcount
        rcases List.mem_cons.mp hcount with rfl | hcount
        · decide
        · rw [List.mem_singleton.mp hcount]
          exact plain_decimal _
      · rw [if_neg hc] at hcount
        exact nomatch hcount

/-- **WHAT A SCAN SENDS**, if its dispatch ends. -/
theorem scan_argv (R : RedisFormat) (P : Platform double) (cls : ConnClass)
    {c : Call double} {q : ScanParams} (h : c.scanParams = some q)
    (hplain : q.Plain) (ht : Terminates c) : argv R P cls c = some q.vector := by
  have hkey : ∀ k ∈ scanKey q.method, k ≠ [] := fun k hk => (hplain.key k hk).ne_nil
  obtain ⟨m, cursor, pattern, count⟩ := q
  have htext : ∃ text, (CoroConnection.request P c).text = some text
      ∧ Written sp (scanVerb m) text
        (scanKey m ++ [decimal cursor.toNat] ++ scanOptions pattern count) := by
    have hspelled := request_spelled_out P .coro h ht
    rw [show CoroConnection.request P c = _ from hspelled]
    cases m with
    | scan => exact ⟨_, rfl, written_scanArgs written_head ..⟩
    | hscan key =>
        exact ⟨_, rfl, written_scanArgs
          (written_append written_head (hkey key List.mem_cons_self)) ..⟩
    | sscan key =>
        exact ⟨_, rfl, written_scanArgs
          (written_append written_head (hkey key List.mem_cons_self)) ..⟩
    | zscan key =>
        exact ⟨_, rfl, written_scanArgs
          (written_append written_head (hkey key List.mem_cons_self)) ..⟩
  obtain ⟨text, hreq, hw⟩ := htext
  exact argv_written R cls hreq (lowerWord_scanVerb m) hw (plain_scanArgs hplain)

/-! ## Uniform requests -/

/-- The call terminates, sends the uniform vector, does what the overload with
    the pattern does, and shares its vector with no call that asks for
    something else. -/
structure Uniform (R : RedisFormat) (P : Platform double) (cls : ConnClass)
    (c : Call double) (q : ScanParams) : Prop where
  terminates : Terminates c
  vector : argv R P cls c = some q.vector
  overload : request P cls c = request P cls q.call
  distinct : ∀ (c' : Call double) q', c'.scanParams = some q' → q'.Plain →
    argv R P cls c' = argv R P cls c → q' = q

/-- **SCANS, EXACTLY**: a call of the scan family is uniform iff it is not
    `zscan` without a pattern. -/
theorem scan_uniform_iff (R : RedisFormat) (P : Platform double)
    (cls : ConnClass) (c : Call double) (q : ScanParams)
    (h : c.scanParams = some q) (hplain : q.Plain) :
    Uniform R P cls c q ↔ c.isItself = false := by
  rw [← terminates_iff]
  refine ⟨Uniform.terminates, fun ht => ?_⟩
  have hsent := scan_argv R P cls h hplain ht
  refine ⟨ht, hsent, request_spelled_out P cls h ht, ?_⟩
  intro c' q' h' hplain' heq
  rw [hsent] at heq
  -- a call that sends something comes to an end, and is read back
  have ht' : Terminates c' := by
    rw [terminates_iff]
    cases c' with
    | zscanCount key cursor count =>
        rw [argv_of_no_text R cls rfl] at heq
        exact nomatch heq
    | _ => rfl
  rw [scan_argv R P cls h' hplain' ht'] at heq
  have hread := parseScan_vector q'
  rw [Option.some.inj heq, parseScan_vector] at hread
  exact (Option.some.inj hread).symm

/-- A pattern that is a keyword. -/
theorem scan_uniform_iff_keyword :
    Uniform hiredisFormat textPlatform .sync
      (.hscan (lit "k") 7 (lit "COUNT") 10) ⟨.hscan (lit "k"), 7, lit "COUNT", 10⟩ :=
  (scan_uniform_iff hiredisFormat textPlatform .sync
    (.hscan (lit "k") 7 (lit "COUNT") 10) ⟨.hscan (lit "k"), 7, lit "COUNT", 10⟩ rfl
    ⟨by decide, fun _ => by decide⟩).mpr rfl

/-- `zscan` of the key `k` without a pattern never ends; with the empty pattern
    it sends a request. -/
theorem zscan_never_ends :
    ¬ Terminates (.zscanCount (lit "k") 0 10 : Call Bytes)
    ∧ argv hiredisFormat textPlatform .coro (.zscan (lit "k") 0 [] 10)
      = some [lit "zscan", lit "k", lit "0", lit "COUNT", lit "10"]
    ∧ ¬ Uniform hiredisFormat textPlatform .coro (.zscanCount (lit "k") 0 10)
        ⟨.zscan (lit "k"), 0, [], 10⟩ :=
  ⟨not_terminates_of_self rfl, by decide,
    fun h => not_terminates_of_self rfl h.terminates⟩

end Methods
