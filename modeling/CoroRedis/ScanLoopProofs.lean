import CoroRedis.Lib.CursorProofs
import CoroRedis.ScanRequestProofs

/-! # Looping until cursor 0

    A caller that passes each returned cursor to the next call of `scan`,
    `hscan`, `sscan` or `zscan`, until it is told cursor 0.  The texts of its
    calls reach the server through hiredis' formatter.

    * `format_text_iff` — which keys and patterns survive the formatter;
    * `scan_loop_iff` — for which of them, and for which cursors, the caller
      asks what it should ask and sees every batch. -/

namespace Scans

open Pieces CoroBytes HiredisFormat CommandText Decoding RedisReplies Cursors
open Methods

/-! ## The requests -/

/-- The call's text is its verb with a space in front of each argument. -/
theorem ScanMethod.text_eq (cls : ConnClass) (m : ScanMethod) (cursor : UInt64)
    (pattern : Bytes) (count : UInt64) :
    m.text cls cursor pattern count
      = fields sp (scanVerb m) (scanKey m ++ [decimal cursor.toNat]
          ++ scanOptions pattern count) := by
  have hsp : ∀ w : String, lit (" " ++ w ++ " ") = sp :: lit w ++ [sp] := by
    intro w
    simp only [lit, String.toList_append, List.map_append]
    rfl
  have happend : ∀ cmd, CoroConnectionImpl.appendScanArgs cmd cursor pattern count
      = fields sp cmd ([decimal cursor.toNat] ++ scanOptions pattern count) := by
    intro cmd
    have hlit : lit " " = [sp] := rfl
    rw [CoroConnectionImpl.appendScanArgs, scanOptions, hlit, fields,
      show lit " MATCH " = sp :: lit "MATCH" ++ [sp] from hsp "MATCH",
      show lit " COUNT " = sp :: lit "COUNT" ++ [sp] from hsp "COUNT"]
    split_ifs <;> simp
  cases cls <;> cases m <;> exact happend _

/-- Key and pattern survive the formatter: no space and no NUL in them, and no
    `%` but as the very last byte of the text. -/
structure Sendable (m : ScanMethod) (pattern : Bytes) (count : UInt64) :
    Prop where
  keys : ∀ k ∈ scanKey m, Plain k
  argument : pattern ≠ [] → Argument pattern
  percent : pct ∉ if count > 0 then pattern else pattern.dropLast

section text

variable {m : ScanMethod} {pattern : Bytes} {count : UInt64}

/-- The request for a page. -/
def vector (m : ScanMethod) (pattern : Bytes) (count cursor : UInt64) :
    List Bytes :=
  ScanParams.vector ⟨m, cursor, pattern, count⟩

theorem pct_not_mem_fields {verb : Bytes} (hverb : pct ∉ verb)
    {args : List Bytes} :
    pct ∉ fields sp verb args ↔ ∀ a ∈ args, pct ∉ a := by
  have hsp : pct ≠ sp := by decide
  simp [fields, hverb, hsp]

/-- What the last argument ends with does not matter. -/
theorem pct_not_mem_dropLast {verb last : Bytes} (hverb : pct ∉ verb)
    {args : List Bytes} (hlast : last ≠ []) :
    pct ∉ (fields sp verb (args ++ [last])).dropLast
      ↔ (∀ a ∈ args, pct ∉ a) ∧ pct ∉ last.dropLast := by
  have hsplit : fields sp verb (args ++ [last])
      = fields sp verb args ++ [sp] ++ last := by
    simp [fields]
  have hsp : pct ≠ sp := by decide
  rw [hsplit, List.dropLast_append_of_ne_nil hlast, List.mem_append,
    List.mem_append, not_or, not_or, pct_not_mem_fields hverb]
  simp [hsp]

/-- A text whose last argument may end with a `%`. -/
theorem format_snoc_iff (R : RedisFormat) {verb last : Bytes}
    (hverb : Argument verb) (hpct : pct ∉ verb) (args : List Bytes) :
    R.format (fields sp verb (args ++ [last])) = some (verb :: (args ++ [last]))
      ↔ (∀ a ∈ args, Plain a) ∧ Argument last ∧ pct ∉ last.dropLast := by
  rw [format_fields_iff R hverb]
  constructor
  · rintro ⟨harg, hdrop⟩
    have hlast : Argument last := harg last (by simp)
    obtain ⟨hargs, hl⟩ := (pct_not_mem_dropLast hpct hlast.word.ne_nil).mp hdrop
    exact ⟨fun a ha => ⟨harg a (List.mem_append_left _ ha), hargs a ha⟩,
      hlast, hl⟩
  · rintro ⟨hargs, hlast, hl⟩
    refine ⟨?_, (pct_not_mem_dropLast hpct hlast.word.ne_nil).mpr
      ⟨fun a ha => (hargs a ha).no_pct, hl⟩⟩
    intro a ha
    rcases List.mem_append.mp ha with ha | ha
    · exact (hargs a ha).toArgument
    · rw [List.mem_singleton.mp ha]
      exact hlast

theorem sendable_iff :
    Sendable m pattern count
      ↔ (∀ k ∈ scanKey m, Plain k) ∧ (pattern ≠ [] → Argument pattern)
        ∧ pct ∉ if count > 0 then pattern else pattern.dropLast :=
  ⟨fun h => ⟨h.keys, h.argument, h.percent⟩, fun h => ⟨h.1, h.2.1, h.2.2⟩⟩

/-- **SURVIVES, EXACTLY**: the server receives the request with the cursor in
    decimal iff key and pattern survive, whatever the cursor is. -/
theorem format_text_iff (R : RedisFormat) (cls : ConnClass) (cursor : UInt64) :
    R.format (m.text cls cursor pattern count)
        = some (vector m pattern count cursor)
      ↔ Sendable m pattern count := by
  have hverb : Argument (scanVerb m) := (lowerWord_scanVerb m).argument
  have hpct : pct ∉ scanVerb m :=
    (lowerWord_scanVerb m).not_mem (Or.inl (by decide))
  have hdec : ∀ n, Plain (decimal n) := plain_decimal
  have hlast : ∀ n, Argument (decimal n) ∧ pct ∉ (decimal n).dropLast := fun n =>
    ⟨(hdec n).toArgument, fun hm =>
      (hdec n).no_pct (List.dropLast_subset _ hm)⟩
  have hmatch : Plain (lit "MATCH") := by decide
  have hcount : Plain (lit "COUNT") := by decide
  -- the last argument is the count, the pattern or the cursor
  have hsnoc : ∀ cur opts last : Bytes, ∀ front : List Bytes,
      scanKey m ++ [cur] ++ (front ++ [opts, last])
        = (scanKey m ++ [cur] ++ front ++ [opts]) ++ [last] := by simp
  rw [ScanMethod.text_eq, vector, ScanParams.vector, sendable_iff, scanOptions]
  by_cases hp : pattern = []
  · subst hp
    rw [if_neg (not_not_intro rfl)]
    by_cases hc : count > 0
    · rw [if_pos hc, if_pos hc, hsnoc, format_snoc_iff R hverb hpct]
      simp [or_imp, forall_and, hdec, hcount, hlast]
    · rw [if_neg hc, if_neg hc, List.append_nil, List.append_nil,
        format_snoc_iff R hverb hpct]
      simp [hlast]
  · rw [if_pos hp, imp_iff_right hp]
    by_cases hc : count > 0
    · rw [if_pos hc, if_pos hc, hsnoc, format_snoc_iff R hverb hpct]
      have hplain : Plain pattern ↔ Argument pattern ∧ pct ∉ pattern :=
        ⟨fun h => ⟨h.toArgument, h.no_pct⟩, fun h => ⟨h.1, h.2⟩⟩
      simp [or_imp, forall_and, hdec, hcount, hmatch, hlast, hplain]
    · rw [if_neg hc, if_neg hc, List.append_nil,
        show [lit "MATCH", pattern] = [] ++ [lit "MATCH", pattern] from rfl,
        hsnoc, format_snoc_iff R hverb hpct]
      simp [or_imp, forall_and, hdec, hmatch]

end text

/-! ## The loop -/

/-- The reply the server sends for a page. -/
def pageReply (page : ScanRet) : RedisReply :=
  ⟨.ARRAY, 0, [], [bulk (decimal page.1.toNat), ⟨.ARRAY, 0, [], page.2.map bulk⟩]⟩

/-- The pages of an iteration: the cursor of the last one, and of no other, is
    0. -/
structure Iteration where
  pages : List ScanRet
  nonzero : ∀ p ∈ pages, p.1 ≠ 0
  final : List Bytes

/-- The caller that passes each returned cursor to the next call, and stops at
    cursor 0 or when a call does not give it a value.  A call whose text is not
    well formatted gets no reply. -/
def scanClient (R : RedisFormat) (cls : ConnClass) (m : ScanMethod)
    (pattern : Bytes) (count : UInt64) : Client UInt64 Bytes RedisReply Bytes where
  request cursor := m.text cls cursor pattern count
  fetch cmd reply :=
    if (R.format cmd).isSome then
      match sendScanCmd cls cmd (some reply) with
      | .returned (some page) => some page
      | _ => none
    else none
  last cursor := cursor == 0

/-- What the caller should come to see: it asks with cursor 0 and then with
    each cursor it was told, in decimal, it has all batches in order, and it
    stops after the reply with cursor 0, with the later replies unread. -/
structure WholeListing (R : RedisFormat) (m : ScanMethod) (pattern : Bytes)
    (count : UInt64) (it : Iteration) (rest : List RedisReply)
    (t : Trace Bytes RedisReply Bytes) : Prop where
  requests : t.sent.map R.format
    = (0 :: it.pages.map Prod.fst).map fun cursor =>
        some (vector m pattern count cursor)
  collected : t.collected = it.pages.flatMap Prod.snd ++ it.final
  ending : t.ending = .finished
  unread : t.unread = rest

section loop

variable (R : RedisFormat) (cls : ConnClass) {m : ScanMethod} {pattern : Bytes}
  {count : UInt64}

/-- A page is read back while its cursor has 63 bits. -/
theorem scanClient_fetch {cmd : Bytes} (hcmd : (R.format cmd).isSome)
    (page : ScanRet) :
    (scanClient R cls m pattern count).fetch cmd (pageReply page)
      = if page.1.toNat < 2 ^ 63 then some page else none := by
  have hpage : IsPage (pageReply page) (decimal page.1.toNat) (page.2.map bulk) :=
    ⟨rfl, bulk (decimal page.1.toNat), _, rfl, rfl, rfl, rfl, rfl⟩
  have hbatch : (page.2.map bulk).map elementText = page.2 := by
    rw [List.map_map]
    exact List.map_id page.2
  have hres := sendScanCmd_page cls cmd hpage (decimal_ne_nil _)
    (fun c hc => digit_decimal hc)
  rw [value_decimal, hbatch, UInt64.ofNat_toNat] at hres
  show (if (R.format cmd).isSome then _ else none : Option ScanRet) = _
  rw [if_pos hcmd, hres]
  by_cases hv : page.1.toNat < 2 ^ 63
  · rw [if_pos hv, if_pos hv]
  · rw [if_neg hv, if_neg hv]
    cases cls <;> rfl

/-- Every request of a caller whose key and pattern survive is formatted. -/
theorem format_request (h : Sendable m pattern count) (cursor : UInt64) :
    R.format ((scanClient R cls m pattern count).request cursor)
      = some (vector m pattern count cursor) :=
  (format_text_iff R cls cursor).mpr h

/-- Then its pages are read back while their cursors have 63 bits. -/
theorem scanClient_reads (h : Sendable m pattern count) {p : ScanRet}
    (hv : p.1.toNat < 2 ^ 63) :
    (scanClient R cls m pattern count).Reads pageReply p := by
  intro cursor
  rw [scanClient_fetch R cls (by rw [format_request R cls h]; rfl), if_pos hv]

theorem scanClient_misses {p : ScanRet} (hv : ¬ p.1.toNat < 2 ^ 63) :
    (scanClient R cls m pattern count).Misses pageReply p := by
  intro cursor
  by_cases hcmd : (R.format ((scanClient R cls m pattern count).request
      cursor)).isSome
  · rw [scanClient_fetch R cls hcmd, if_neg hv]
  · exact if_neg hcmd

/-- Pages before the end do not stop the caller, and are read back or not at
    all. -/
theorem scanClient_pages (h : Sendable m pattern count) (it : Iteration) :
    ∀ p ∈ it.pages, (scanClient R cls m pattern count).last p.1 = false
      ∧ ((scanClient R cls m pattern count).Reads pageReply p
        ∨ (scanClient R cls m pattern count).Misses pageReply p) := by
  intro p hp
  refine ⟨beq_false_of_ne (it.nonzero p hp), ?_⟩
  by_cases hv : p.1.toNat < 2 ^ 63
  · exact Or.inl (scanClient_reads R cls h hv)
  · exact Or.inr (scanClient_misses R cls hv)

theorem scanClient_final (h : Sendable m pattern count) (final : List Bytes) :
    (scanClient R cls m pattern count).last 0 = true
      ∧ (scanClient R cls m pattern count).Reads pageReply (0, final) := by
  have hzero : (0 : UInt64).toNat < 2 ^ 63 := by decide
  exact ⟨rfl, scanClient_reads R cls h hzero⟩

/-- The caller's first request, whatever comes back. -/
theorem head_sent (replies : List RedisReply) :
    ∃ sent, ((scanClient R cls m pattern count).loop 0 replies).sent
      = m.text cls 0 pattern count :: sent := by
  cases replies with
  | nil => exact ⟨[], rfl⟩
  | cons r rs =>
      rw [Client.loop]
      cases (scanClient R cls m pattern count).fetch
          ((scanClient R cls m pattern count).request 0) r with
      | none => exact ⟨[], rfl⟩
      | some page =>
          obtain ⟨next, batch⟩ := page
          show ∃ sent, (if (scanClient R cls m pattern count).last next then _
            else _ : Trace Bytes RedisReply Bytes).sent = _
          split_ifs
          · exact ⟨[], rfl⟩
          · exact ⟨_, rfl⟩

end loop

/-- **THE WHOLE LISTING, EXACTLY**: the caller's requests carry cursor 0 and
    then each cursor it was told, it stops after the reply with cursor 0, and
    it has all batches in order, iff key and pattern survive the formatter and
    no cursor reaches 2^63. -/
theorem scan_loop_iff (R : RedisFormat) (cls : ConnClass) (m : ScanMethod)
    (pattern : Bytes) (count : UInt64) (it : Iteration)
    (rest : List RedisReply) :
    WholeListing R m pattern count it rest
        ((scanClient R cls m pattern count).loop 0
          (it.pages.map pageReply ++ pageReply (0, it.final) :: rest))
      ↔ Sendable m pattern count ∧ ∀ p ∈ it.pages, p.1.toNat < 2 ^ 63 := by
  constructor
  · intro h
    have hsend : Sendable m pattern count := by
      obtain ⟨sent, hsent⟩ : ∃ sent, ((scanClient R cls m pattern count).loop 0
          (it.pages.map pageReply ++ pageReply (0, it.final) :: rest)).sent
          = m.text cls 0 pattern count :: sent := head_sent R cls _
      have hreq := h.requests
      rw [hsent] at hreq
      exact (format_text_iff R cls 0).mp (List.cons.inj hreq).1
    refine ⟨hsend, fun p hp => ?_⟩
    by_contra hv
    have hbroken : ((scanClient R cls m pattern count).loop 0
        (it.pages.map pageReply ++ pageReply (0, it.final) :: rest)).ending
        = .broken :=
      Client.loop_broken _ (scanClient_pages R cls hsend it)
        ⟨p, hp, scanClient_misses R cls hv⟩ 0
    rw [h.ending] at hbroken
    exact nomatch hbroken
  · rintro ⟨hsend, hv⟩
    have hpages : ∀ p ∈ it.pages,
        (scanClient R cls m pattern count).last p.1 = false
          ∧ (scanClient R cls m pattern count).Reads pageReply p :=
      fun p hp => ⟨(scanClient_pages R cls hsend it p hp).1,
        scanClient_reads R cls hsend (hv p hp)⟩
    rw [Client.loop_complete _ hpages (scanClient_final R cls hsend it.final) 0]
    refine ⟨?_, rfl, rfl, rfl⟩
    show R.format _ :: (it.pages.map _).map R.format = _ :: _
    rw [format_request R cls hsend, List.map_map, List.map_map]
    exact congrArg _ (List.map_congr_left fun p _ =>
      format_request R cls hsend p.1)

/-- A listing of two pages whose first cursor is 2^63. -/
def highIteration : Iteration where
  pages := [(9223372036854775808, [lit "a"])]
  nonzero := by decide
  final := [lit "b"]

/-- The caller never gets past its first page. -/
theorem high_cursor_breaks_scan :
    ¬ WholeListing hiredisFormat .scan [] 0 highIteration []
      ((scanClient hiredisFormat .coro .scan [] 0).loop 0
        (highIteration.pages.map pageReply
          ++ [pageReply (0, highIteration.final)])) := by
  intro h
  have hbroken : ((scanClient hiredisFormat .coro .scan [] 0).loop 0
      (highIteration.pages.map pageReply
        ++ [pageReply (0, highIteration.final)])).ending = .broken := by
    refine Client.loop_broken _ (scanClient_pages _ _
      ⟨fun _ hk => absurd hk List.not_mem_nil, fun hp => absurd rfl hp,
        by decide⟩
      highIteration) ?_ 0
    exact ⟨(9223372036854775808, [lit "a"]), List.mem_singleton_self _,
      scanClient_misses _ _ (by decide)⟩
  rw [h.ending] at hbroken
  exact nomatch hbroken

/-- A key that ends with a NUL: the server receives neither the key nor a
    cursor. -/
example : ¬ Sendable (.hscan [107, 0]) [] 0 := fun h =>
  (h.keys [107, 0] List.mem_cons_self).no_nul (by decide)

end Scans
