import CoroRedis.ArgvProofs

/-! # Replies with several values

    `MGET` and `HMGET` answer with an array of bulk strings, and nils for what
    does not exist.  The decoder makes an empty string of a nil, so the value
    it returns tells the two apart only where neither occurs.

    * `getD_determines_iff` — which lists of optional values survive a default;
    * `multi_value_iff` — for which replies `mget` and `hmget` return all there
      is to know. -/

namespace Methods

open CoroBytes Decoding RedisReplies CommandText

variable {double : Type}

/-! ## Optional values with a default -/

section default

variable {α : Type}

/-- Exchange a missing value and the default. -/
def exchange [DecidableEq α] (d : α) : Option α → Option α
  | none => some d
  | some a => if a = d then none else some a

theorem exchange_getD [DecidableEq α] (d : α) (o : Option α) :
    (exchange d o).getD d = o.getD d := by
  cases o with
  | none => rfl
  | some a =>
      rw [exchange]
      split_ifs with h
      · exact h.symm
      · rfl

/-- What is neither missing nor the default can be told from everything
    else. -/
theorem eq_of_getD_eq {d : α} {o o' : Option α} (h : o ≠ none ∧ o ≠ some d)
    (heq : o'.getD d = o.getD d) : o' = o := by
  cases o with
  | none => exact absurd rfl h.1
  | some a =>
      cases o' with
      | none => exact absurd (congrArg some heq.symm) h.2
      | some b => exact congrArg some heq

/-- **DEFAULTS**: filling in a default keeps a list apart from all others iff
    every value is there and none is the default. -/
theorem getD_determines_iff [DecidableEq α] (d : α) (os : List (Option α)) :
    (∀ os' : List (Option α),
        os'.map (fun o => o.getD d) = os.map (fun o => o.getD d) → os' = os)
      ↔ ∀ o ∈ os, o ≠ none ∧ o ≠ some d := by
  constructor
  · intro h o ho
    have hsame : (os.map (exchange d)).map (fun o => o.getD d)
        = os.map (fun o => o.getD d) := by
      rw [List.map_map]
      exact List.map_congr_left fun o _ => exchange_getD d o
    have hfix : os.map (exchange d) = os.map id := by
      rw [List.map_id]
      exact h _ hsame
    -- the exchange moves just these two
    have ho' : exchange d o = o := List.map_inj_left.mp hfix o ho
    constructor
    · rintro rfl
      exact nomatch ho'
    · rintro rfl
      rw [exchange, if_pos rfl] at ho'
      exact nomatch ho'
  · intro h os'
    induction os generalizing os' with
    | nil =>
        intro heq
        exact List.map_eq_nil_iff.mp heq
    | cons o os ih =>
        intro heq
        obtain ⟨o', os'', rfl, hhead, htail⟩ := List.map_eq_cons_iff.mp heq
        rw [eq_of_getD_eq (h o List.mem_cons_self) hhead,
          ih (fun p hp => h p (List.mem_cons_of_mem _ hp)) os'' htail]

end default

/-! ## Multi-value replies -/

/-- An array of bulk strings and nils. -/
structure MultiReply (r : RedisReply) : Prop where
  array : r.type = .ARRAY
  elements : ∀ e ∈ r.element, e.type = .STRING ∨ e.type = .NIL

/-- What an element stands for: a value, or none. -/
def content (e : RedisReply) : Option Bytes :=
  if e.type = .STRING then some e.str else none

def contents (r : RedisReply) : List (Option Bytes) := r.element.map content

/-- The reply of the server for such a list. -/
def multiReply (os : List (Option Bytes)) : RedisReply :=
  ⟨.ARRAY, 0, [], os.map fun o => (o.map bulk).getD ⟨.NIL, 0, [], []⟩⟩

theorem multiReply_spec (os : List (Option Bytes)) :
    MultiReply (multiReply os) ∧ contents (multiReply os) = os := by
  refine ⟨⟨rfl, fun e he => ?_⟩, ?_⟩
  · obtain ⟨o, -, rfl⟩ := List.mem_map.mp he
    cases o with
    | none => exact Or.inr rfl
    | some b => exact Or.inl rfl
  · rw [contents, multiReply, List.map_map]
    refine (List.map_congr_left fun o _ => ?_).trans (List.map_id os)
    cases o <;> rfl

/-- The calls that are answered so. -/
def Call.multiValue : Call double → Bool
  | .mget _ | .hmget _ _ _ => true
  | _ => false

/-- The decoder fills in the empty string. -/
theorem call_multiValue (P : Platform double) (cls : ConnClass) {c : Call double}
    (h : c.multiValue = true) {r : RedisReply} (hr : MultiReply r) :
    call P cls c (some r)
      = .returned (some (.strings ((contents r).map fun o => o.getD []))) := by
  have hdeal : dealRedisReply P .strings (some r)
      = .ok (some (.strings ((contents r).map fun o => o.getD []))) := by
    have hsome : notNil (some r) = some r := notNil_some (by rw [hr.array]; decide)
    have helem : r.element.map (fun e => if e.type ≠ .STRING then [] else e.str)
        = (contents r).map fun o => o.getD [] := by
      rw [contents, List.map_map]
      refine List.map_congr_left fun e _ => ?_
      show _ = (content e).getD []
      rw [content]
      split_ifs <;> simp_all
    rw [dealRedisReply, dealRedisReplyStrings, hsome, Option.bind_some,
      if_pos hr.array, helem]
    rfl
  have hret : ∃ cmd, request P cls c = .command .strings cmd := by
    cases c <;> cases h <;> cases cls <;> exact ⟨_, rfl⟩
  obtain ⟨cmd, hcmd⟩ := hret
  exact call_command hcmd hdeal

/-- The value has the elements in order, each bulk string with its bytes, and
    tells for each position whether there was a value. -/
structure KeepsContents (P : Platform double) (cls : ConnClass) (c : Call double)
    (r : RedisReply) : Prop where
  value : ∃ l, call P cls c (some r) = .returned (some (.strings l))
    ∧ l.length = r.element.length
    ∧ ∀ (i : Nat) (b : Bytes), (contents r)[i]? = some (some b) → l[i]? = some b
  determines : ∀ r', MultiReply r' →
    call P cls c (some r') = call P cls c (some r) → contents r' = contents r

/-- **MULTI-VALUE REPLIES, EXACTLY**: the value of `mget` and `hmget` keeps the
    contents of the reply iff every element is a bulk string with at least one
    byte. -/
theorem multi_value_iff (P : Platform double) (cls : ConnClass) (c : Call double)
    (r : RedisReply) (h : c.multiValue = true) (hr : MultiReply r) :
    KeepsContents P cls c r ↔ ∀ e ∈ r.element, e.type = .STRING ∧ e.str ≠ [] := by
  have hcall := call_multiValue P cls h hr
  have hnonempty : (∀ o ∈ contents r, o ≠ none ∧ o ≠ some [])
      ↔ ∀ e ∈ r.element, e.type = .STRING ∧ e.str ≠ [] := by
    rw [contents, List.forall_mem_map]
    refine forall₂_congr fun e _ => ?_
    rw [content]
    split_ifs with ht <;> simp [ht]
  rw [← hnonempty, ← getD_determines_iff]
  constructor
  · intro hkeeps os hos
    obtain ⟨hreply, hcontents⟩ := multiReply_spec os
    have hsame := hkeeps.determines (multiReply os) hreply (by
      rw [call_multiValue P cls h hreply, hcontents, hos, hcall])
    rw [← hcontents]
    exact hsame
  · intro hdet
    refine ⟨⟨_, hcall, ?_, ?_⟩, ?_⟩
    · rw [List.length_map, contents, List.length_map]
    · intro i b hb
      rw [List.getElem?_map, hb]
      rfl
    · intro r' hr' heq
      rw [hcall, call_multiValue P cls h hr'] at heq
      exact hdet _ (RetVal.strings.inj (Option.some.inj (CallResult.returned.inj heq)))

/-- Two values. -/
theorem multi_value_iff_two :
    KeepsContents textPlatform .sync (.mget [lit "a", lit "b"])
      (multiReply [some (lit "1"), some (lit "2")]) :=
  (multi_value_iff textPlatform .sync (.mget [lit "a", lit "b"])
    (multiReply [some (lit "1"), some (lit "2")]) rfl
    (multiReply_spec _).1).mpr (by decide)

/-- A missing key and an empty value are the same to the caller. -/
theorem missing_is_empty :
    call textPlatform .coro (.mget [lit "a"]) (some (multiReply [none]))
        = call textPlatform .coro (.mget [lit "a"]) (some (multiReply [some []]))
    ∧ contents (multiReply [none]) ≠ contents (multiReply [some []])
    ∧ ¬ KeepsContents textPlatform .coro (.mget [lit "a"]) (multiReply [none]) := by
  refine ⟨rfl, by decide, fun hkeeps => ?_⟩
  exact absurd (hkeeps.determines (multiReply [some []]) (multiReply_spec _).1 rfl)
    (by decide)

end Methods
