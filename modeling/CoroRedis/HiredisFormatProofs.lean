import CoroRedis.BytesProofs

/-! # hiredis' command formatter, as far as its callers rely on it

    Both connection classes hand hiredis one flat text and no further
    arguments.  `RedisFormat` is any formatter that does with such a text
    what hiredis documents: it reads the text up to the first NUL, splits it
    at spaces, drops empty pieces, and takes a `%` that is followed by another
    byte for the start of a conversion.  A conversion is never copied
    literally: `%%` renders one `%`, and every other conversion is malformed
    or reads an argument that was not passed.  `none` is the negative length
    (no buffer).

    `hiredisFormat` is hiredis' own loop, restricted to texts without further
    arguments, and has all the laws. -/

namespace HiredisFormat

open Pieces CoroBytes

/-- `redisFormatCommand(&target, text)` without varargs. -/
structure RedisFormat where
  /-- The argument vector, or `none` for a negative length. -/
  format : Bytes → Option (List Bytes)
  up_to_nul : ∀ t, format t = format (cstr t)
  plain : ∀ t, nul ∉ t → pct ∉ t.dropLast → format t = some (pieces sp t)
  argument : ∀ t argv, format t = some argv → ∀ a ∈ argv, Argument a
  conversion : ∀ t, nul ∉ t → pct ∈ t.dropLast →
    format t ≠ some (pieces sp t)

/-- **EXACT READ-BACK**: a verb with space-prefixed fields is formatted into
    the verb followed by the fields iff every field survives as an argument
    and no `%` stands before the last byte of the text. -/
theorem format_fields_iff (R : RedisFormat) {verb : Bytes}
    (hverb : Argument verb) (args : List Bytes) :
    R.format (fields sp verb args) = some (verb :: args)
      ↔ (∀ a ∈ args, Argument a) ∧ pct ∉ (fields sp verb args).dropLast := by
  have hnul : (∀ a ∈ args, Argument a) → nul ∉ fields sp verb args := by
    intro hargs hmem
    rcases List.mem_append.mp hmem with hv | hf
    · exact hverb.no_nul hv
    · obtain ⟨a, ha, hb⟩ := List.mem_flatMap.mp hf
      rcases List.mem_cons.mp hb with heq | hin
      · exact absurd heq (by decide)
      · exact (hargs a ha).no_nul hin
  have hpieces : (∀ a ∈ args, Argument a) →
      pieces sp (fields sp verb args) = verb :: args := by
    intro hargs
    exact (pieces_fields_eq_iff hverb.word args).mpr
      (fun a ha => (hargs a ha).word)
  constructor
  · intro h
    have hargs : ∀ a ∈ args, Argument a := by
      intro a ha
      exact R.argument _ _ h a (List.mem_cons_of_mem _ ha)
    refine ⟨hargs, fun hpct => ?_⟩
    refine R.conversion _ (hnul hargs) hpct ?_
    rw [hpieces hargs]
    exact h
  · rintro ⟨hargs, hpct⟩
    rw [R.plain _ (hnul hargs) hpct, hpieces hargs]

/-! ## Arguments without anything special in them -/

/-- A byte string that the builders can glue into a text: nonempty, and free
    of spaces, `%` and NUL. -/
structure Plain (a : Bytes) : Prop extends Argument a where
  no_pct : pct ∉ a

theorem plain_iff {a : Bytes} :
    Plain a ↔ a ≠ [] ∧ sp ∉ a ∧ nul ∉ a ∧ pct ∉ a :=
  ⟨fun h => ⟨h.word.ne_nil, h.word.no_sep, h.no_nul, h.no_pct⟩,
    fun h => ⟨⟨⟨h.1, h.2.1⟩, h.2.2.1⟩, h.2.2.2⟩⟩

instance (a : Bytes) : Decidable (Plain a) := decidable_of_iff' _ plain_iff

theorem Plain.ne_nil {a : Bytes} (h : Plain a) : a ≠ [] := h.word.ne_nil

theorem plain_lowerWord {w : Bytes} (h : LowerWord w) : Plain w where
  toArgument := h.argument
  no_pct := h.not_mem (Or.inl (by decide))

theorem plain_decimal (n : Nat) : Plain (decimal n) where
  toArgument := argument_decimal n
  no_pct := not_mem_decimal (Or.inl (by decide))

/-- A text that grew by appending plain arguments to a plain verb is formatted
    into the verb and the arguments. -/
theorem format_written (R : RedisFormat) {verb text : Bytes} {args : List Bytes}
    (hverb : Plain verb) (h : Written sp verb text args)
    (hargs : ∀ a ∈ args, Plain a) : R.format text = some (verb :: args) := by
  have hnul : nul ∉ text :=
    not_mem_written h (by decide) hverb.no_nul fun a ha => (hargs a ha).no_nul
  have hpct : pct ∉ text :=
    not_mem_written h (by decide) hverb.no_pct fun a ha => (hargs a ha).no_pct
  rw [R.plain text hnul fun hm => hpct ((List.dropLast_subset text) hm),
    pieces_written h hverb.word fun a ha => (hargs a ha).word]

/-! ### What the builders append -/

section appended

variable {verb text : Bytes} {args : List Bytes}

/-- `fmt::format` with a `{}` for each argument. -/
theorem written_fmt {f w : String} {cs : List Char} (hw : w = String.ofList cs)
    (hf : f = String.ofList (cs ++ args.flatMap fun _ => [' ', '{', '}']))
    (hverb : LowerWord (lit w)) (hargs : args ≠ []) (hne : ∀ a ∈ args, a ≠ []) :
    Written sp (lit w) (fmtFormat f args) args := by
  rw [fmtFormat_fields hw hf hverb hargs]
  exact written_fields written_head hne

/-- `cmd.append(" ").append(key)`. -/
theorem written_append {a : Bytes} (h : Written sp verb text args) (ha : a ≠ []) :
    Written sp verb (text ++ lit " " ++ a) (args ++ [a]) := by
  rw [List.append_assoc]
  exact written_field h ha

/-- A keyword with a space on either side. -/
theorem written_keyword (h : Written sp verb text args) (kw : Bytes)
    (hkw : kw ≠ []) :
    Written sp verb (text ++ (lit " " ++ kw ++ lit " ")) (args ++ [kw]) := by
  have hlit : text ++ (lit " " ++ kw ++ lit " ") = text ++ sp :: kw ++ [sp] := by
    rw [← List.append_assoc, ← List.append_assoc, List.append_assoc text]
    rfl
  rw [hlit]
  exact written_sep (written_field h hkw)

/-- A keyword with a space on either side, and what is appended to that. -/
theorem written_option {a : Bytes} (h : Written sp verb text args) (kw : Bytes)
    (hkw : kw ≠ []) (ha : a ≠ []) :
    Written sp verb (text ++ (lit " " ++ kw ++ lit " ") ++ a)
      (args ++ [kw, a]) := by
  have hlit : text ++ (lit " " ++ kw ++ lit " ") ++ a
      = text ++ sp :: kw ++ sp :: a := by
    rw [← List.append_assoc, ← List.append_assoc, List.append_assoc text,
      List.append_assoc _ (lit " ")]
    rfl
  have hargs : args ++ [kw, a] = args ++ [kw] ++ [a] := by simp
  rw [hlit, hargs]
  exact written_field (written_field h hkw) ha

end appended

/-! ## The loop of hiredis -/

/-- The pending argument, if anything was read into it. -/
def emit (cur : Bytes) : List Bytes := if cur = [] then [] else [cur]

/-- `redisvFormatCommand` on a text whose varargs are absent; `cur` is
    `curarg`. -/
def formatLoop : Bytes → Bytes → Option (List Bytes)
  | cur, [] => some (emit cur)
  | cur, [c] => if c = sp then some (emit cur) else some (emit (cur ++ [c]))
  | cur, c :: d :: rest =>
      if c = pct then
        -- `%%` is a literal percent; any other conversion fails or reads a
        -- vararg the caller did not pass
        if d = pct then formatLoop (cur ++ [pct]) rest else none
      else if c = sp then
        (formatLoop [] (d :: rest)).map (fun argv => emit cur ++ argv)
      else formatLoop (cur ++ [c]) (d :: rest)

private theorem pieces_emit {cur : Bytes} (h : sp ∉ cur) :
    pieces sp cur = emit cur := pieces_of_no_sep h

private theorem sp_not_mem_snoc {cur : Bytes} {c : Byte} (h : sp ∉ cur)
    (hc : c ≠ sp) : sp ∉ cur ++ [c] := by
  rw [List.mem_append, List.mem_singleton, not_or]
  exact ⟨h, fun heq => hc heq.symm⟩

/-- Without a conversion the loop just cuts at the spaces. -/
theorem formatLoop_plain : ∀ (cur t : Bytes), sp ∉ cur →
    pct ∉ t.dropLast → formatLoop cur t = some (pieces sp (cur ++ t)) := by
  intro cur t
  induction cur, t using formatLoop.induct with
  | case1 cur =>
      intro hcur _
      rw [List.append_nil, pieces_emit hcur]
      rfl
  | case2 cur =>
      intro hcur _
      rw [pieces_append_sep, pieces_nil, List.append_nil, pieces_emit hcur]
      rfl
  | case3 cur c hc =>
      intro hcur _
      rw [pieces_emit (sp_not_mem_snoc hcur hc), formatLoop, if_neg hc]
  -- a percent before the last byte is what `hpct` rules out
  | case4 cur rest _ =>
      intro _ hpct
      exact absurd List.mem_cons_self hpct
  | case5 cur d rest _ =>
      intro _ hpct
      exact absurd List.mem_cons_self hpct
  | case6 cur d rest hsp ih =>
      intro hcur hpct
      rw [List.dropLast_cons_cons, List.mem_cons, not_or] at hpct
      rw [formatLoop, if_neg hsp, if_pos rfl, ih List.not_mem_nil hpct.2,
        pieces_append_sep, pieces_emit hcur]
      rfl
  | case7 cur c d rest hp hs ih =>
      intro hcur hpct
      rw [List.dropLast_cons_cons, List.mem_cons, not_or] at hpct
      rw [formatLoop, if_neg hp, if_neg hs,
        ih (sp_not_mem_snoc hcur hs) hpct.2, List.append_assoc]
      rfl

private theorem argument_emit {cur : Bytes} (hsp : sp ∉ cur)
    (hnul : nul ∉ cur) : ∀ a ∈ emit cur, Argument a := by
  intro a ha
  rw [emit] at ha
  by_cases hc : cur = []
  · rw [if_pos hc] at ha
    exact nomatch ha
  · rw [if_neg hc, List.mem_singleton] at ha
    rw [ha]
    exact ⟨⟨hc, hsp⟩, hnul⟩

private theorem nul_not_mem_snoc {cur : Bytes} {c : Byte} (h : nul ∉ cur)
    (hc : nul ≠ c) : nul ∉ cur ++ [c] := by
  rw [List.mem_append, List.mem_singleton, not_or]
  exact ⟨h, hc⟩

/-- Whatever the loop emits is nonempty and free of spaces and NULs. -/
theorem formatLoop_argument : ∀ (cur t : Bytes), sp ∉ cur → nul ∉ cur →
    nul ∉ t → ∀ argv, formatLoop cur t = some argv →
      ∀ a ∈ argv, Argument a := by
  intro cur t
  induction cur, t using formatLoop.induct with
  | case1 cur =>
      intro hsp hnul _ argv h
      rw [← Option.some.inj h]
      exact argument_emit hsp hnul
  | case2 cur =>
      intro hsp hnul _ argv h
      rw [formatLoop, if_pos rfl] at h
      rw [← Option.some.inj h]
      exact argument_emit hsp hnul
  | case3 cur c hc =>
      intro hsp hnul ht argv h
      rw [formatLoop, if_neg hc] at h
      rw [← Option.some.inj h]
      rw [List.mem_singleton] at ht
      exact argument_emit (sp_not_mem_snoc hsp hc) (nul_not_mem_snoc hnul ht)
  | case4 cur rest ih =>
      intro hsp hnul ht argv h
      rw [List.mem_cons, List.mem_cons, not_or, not_or] at ht
      rw [formatLoop, if_pos rfl, if_pos rfl] at h
      exact ih (sp_not_mem_snoc hsp (by decide))
        (nul_not_mem_snoc hnul (by decide)) ht.2.2 argv h
  | case5 cur d rest hd =>
      -- a conversion that fails emits nothing
      intro _ _ _ argv h
      rw [formatLoop, if_pos rfl, if_neg hd] at h
      exact nomatch h
  | case6 cur d rest hp ih =>
      intro hsp hnul ht argv h
      rw [List.mem_cons, not_or] at ht
      rw [formatLoop, if_neg hp, if_pos rfl] at h
      obtain ⟨argv', hrest, rfl⟩ := Option.map_eq_some_iff.mp h
      intro a ha
      rcases List.mem_append.mp ha with he | hr
      · exact argument_emit hsp hnul a he
      · exact ih List.not_mem_nil List.not_mem_nil ht.2 argv' hrest a hr
  | case7 cur c d rest hp hs ih =>
      intro hsp hnul ht argv h
      rw [List.mem_cons, not_or] at ht
      rw [formatLoop, if_neg hp, if_neg hs] at h
      exact ih (sp_not_mem_snoc hsp hs) (nul_not_mem_snoc hnul ht.1) ht.2
        argv h

/-- Bytes of a text that are not spaces. -/
def visible (t : Bytes) : Nat := (t.filter (fun b => b ≠ sp)).length

private theorem visible_cons {c : Byte} (hc : c ≠ sp) (t : Bytes) :
    visible (c :: t) = visible t + 1 := by
  rw [visible, List.filter_cons_of_pos (by simpa using hc)]
  rfl

private theorem visible_sp (t : Bytes) : visible (sp :: t) = visible t := by
  rw [visible, List.filter_cons_of_neg (by simp)]
  rfl

private theorem length_flatten_emit (cur : Bytes) :
    (emit cur).flatten.length = cur.length := by
  by_cases hc : cur = [] <;> simp [emit, hc]

/-- The loop emits at most the visible bytes, and strictly fewer as soon as a
    conversion occurs: `%%` shrinks, everything else fails. -/
theorem formatLoop_length : ∀ (cur t : Bytes) (argv : List Bytes),
    formatLoop cur t = some argv →
      argv.flatten.length ≤ cur.length + visible t
      ∧ (pct ∈ t.dropLast → argv.flatten.length < cur.length + visible t) := by
  intro cur t
  induction cur, t using formatLoop.induct with
  | case1 cur =>
      intro argv h
      rw [← Option.some.inj h, length_flatten_emit]
      exact ⟨Nat.le_refl _, fun hp => nomatch hp⟩
  | case2 cur =>
      intro argv h
      rw [formatLoop, if_pos rfl] at h
      rw [← Option.some.inj h, length_flatten_emit]
      exact ⟨Nat.le_refl _, fun hp => nomatch hp⟩
  | case3 cur c hc =>
      intro argv h
      rw [formatLoop, if_neg hc] at h
      rw [← Option.some.inj h, length_flatten_emit, visible_cons hc,
        List.length_append]
      exact ⟨Nat.le_refl _, fun hp => nomatch hp⟩
  | case4 cur rest ih =>
      -- two bytes are read and one is written: here the bound gets strict
      intro argv h
      rw [formatLoop, if_pos rfl, if_pos rfl] at h
      obtain ⟨hle, -⟩ := ih argv h
      rw [List.length_append, List.length_singleton] at hle
      rw [visible_cons (by decide), visible_cons (by decide)]
      exact ⟨by omega, fun _ => by omega⟩
  | case5 cur d rest hd =>
      intro argv h
      rw [formatLoop, if_pos rfl, if_neg hd] at h
      exact nomatch h
  | case6 cur d rest hp ih =>
      intro argv h
      rw [formatLoop, if_neg hp, if_pos rfl] at h
      obtain ⟨argv', hrest, rfl⟩ := Option.map_eq_some_iff.mp h
      obtain ⟨hle, hlt⟩ := ih argv' hrest
      rw [List.length_nil, Nat.zero_add] at hle hlt
      rw [List.flatten_append, List.length_append, length_flatten_emit,
        visible_sp, List.dropLast_cons_cons, List.mem_cons]
      refine ⟨by omega, ?_⟩
      rintro (heq | hmem)
      · exact absurd heq (by decide)
      · have := hlt hmem
        omega
  | case7 cur c d rest hp hs ih =>
      intro argv h
      rw [formatLoop, if_neg hp, if_neg hs] at h
      obtain ⟨hle, hlt⟩ := ih argv h
      rw [List.length_append, List.length_singleton] at hle hlt
      rw [visible_cons hs, List.dropLast_cons_cons, List.mem_cons]
      refine ⟨by omega, ?_⟩
      rintro (heq | hmem)
      · exact absurd heq.symm hp
      · have := hlt hmem
        omega

/-- hiredis' formatter is a `RedisFormat`. -/
def hiredisFormat : RedisFormat where
  format t := formatLoop [] (cstr t)
  up_to_nul t := by rw [cstr_of_no_nul (nul_not_mem_cstr t)]
  plain t hnul hpct := by
    rw [cstr_of_no_nul hnul]
    exact formatLoop_plain [] t List.not_mem_nil hpct
  argument t argv h := formatLoop_argument [] (cstr t) List.not_mem_nil
    List.not_mem_nil (nul_not_mem_cstr t) argv h
  conversion t hnul hpct h := by
    rw [cstr_of_no_nul hnul] at h
    have hlt := (formatLoop_length [] t _ h).2 hpct
    rw [flatten_pieces, List.length_nil, Nat.zero_add] at hlt
    exact Nat.lt_irrefl _ hlt

example : hiredisFormat.format (lit "set  k 100%%") = some
    [lit "set", lit "k", lit "100%"] := by decide

end HiredisFormat
