import Mathlib.Data.List.TakeWhile
import CoroRedis.Lib.PiecesProofs

/-! # Byte strings, C strings, decimals and `fmt::format`

    The command builders glue arguments into one text: `std::string::append`
    is `++`, `std::to_string` and `{}` on an unsigned integer are `decimal`,
    and `fmt::format` with plain `{}` fields is `fmtFormat`.  hiredis then
    reads the text as a C string (`cstr`).

    `fmtFormat_fields` is the one fact the builders need: a format string
    that is a verb followed by ` {}` for each argument produces the verb with
    space-prefixed fields. -/

namespace CoroBytes

open Pieces

abbrev Byte := UInt8

/-- `std::string` and `std::string_view`: any bytes, any length. -/
abbrev Bytes := List Byte

/-- The bytes of an ASCII literal. -/
def lit (s : String) : Bytes := s.toList.map (fun c => UInt8.ofNat c.toNat)

/-- The bytes of a literal, letter by letter. -/
theorem lit_ofList (cs : List Char) :
    lit (String.ofList cs) = cs.map fun c => UInt8.ofNat c.toNat := by
  rw [lit, String.toList_ofList]

/-- What holds of all numbers below 256 holds of every byte. -/
theorem forall_byte {p : Byte → Prop} (h : ∀ n < 256, p (UInt8.ofNat n)) :
    ∀ c, p c := by
  intro c
  have hc := h c.toNat c.toNat_lt
  rw [UInt8.ofNat_toNat] at hc
  exact hc

def nul : Byte := 0
def sp : Byte := 32
def pct : Byte := 37

/-- What a `const char*` reader sees: the bytes before the first NUL. -/
def cstr (t : Bytes) : Bytes := t.takeWhile (fun b => b ≠ nul)

theorem nul_not_mem_cstr (t : Bytes) : nul ∉ cstr t := by
  intro h
  have := List.mem_takeWhile_imp h
  simp at this

theorem cstr_of_no_nul {t : Bytes} (h : nul ∉ t) : cstr t = t := by
  rw [cstr, List.takeWhile_eq_self_iff]
  intro b hb
  have hne : b ≠ nul := fun heq => h (heq ▸ hb)
  exact decide_eq_true hne

/-- A byte string that survives as one entry of an argument vector. -/
structure Argument (a : Bytes) : Prop where
  word : Word sp a
  no_nul : nul ∉ a

/-! ## Verbs -/

/-- A word of lower-case letters, as the verbs are. -/
structure LowerWord (w : Bytes) : Prop where
  ne_nil : w ≠ []
  lower : ∀ b ∈ w, 97 ≤ b.toNat ∧ b.toNat ≤ 122

/-- A literal is one if its characters are. -/
theorem lowerWord_lit {s : String} {c : Char} {cs : List Char}
    (hs : s = String.ofList (c :: cs)) (h : (c :: cs).all Char.isLower = true) :
    LowerWord (lit s) := by
  rw [hs, lit_ofList]
  refine ⟨List.cons_ne_nil _ _, ?_⟩
  intro b hb
  obtain ⟨c', hc', rfl⟩ := List.mem_map.mp hb
  obtain ⟨hlo, hhi⟩ := Bool.and_eq_true_iff.mp (List.all_eq_true.mp h c' hc')
  have h1 : 97 ≤ c'.toNat := of_decide_eq_true hlo
  have h2 : c'.toNat ≤ 122 := of_decide_eq_true hhi
  rw [UInt8.toNat_ofNat']
  omega

theorem LowerWord.not_mem {w : Bytes} (h : LowerWord w) {b : Byte}
    (hb : b.toNat < 97 ∨ 122 < b.toNat) : b ∉ w := by
  intro hmem
  have := h.lower b hmem
  omega

theorem LowerWord.argument {w : Bytes} (h : LowerWord w) : Argument w where
  word := ⟨h.ne_nil, h.not_mem (Or.inl (by decide))⟩
  no_nul := h.not_mem (Or.inl (by decide))

/-! ## Words without regard to case -/

/-- Lower case, for the letters of ASCII. -/
def lower (b : Byte) : Byte :=
  if 65 ≤ b.toNat ∧ b.toNat ≤ 90 then b + 32 else b

/-- The same word, as the server compares verbs and keywords, and `strtod` its
    `inf` and `nan`. -/
def SameWord (a b : Bytes) : Prop := a.map lower = b.map lower

instance (a b : Bytes) : Decidable (SameWord a b) :=
  inferInstanceAs (Decidable (a.map lower = b.map lower))

theorem SameWord.refl (a : Bytes) : SameWord a a := rfl

theorem SameWord.congr {a b : Bytes} (h : SameWord a b) (c : Bytes) :
    SameWord a c ↔ SameWord b c := by
  rw [SameWord, SameWord, show a.map lower = b.map lower from h]

/-! ## Decimals -/

/-- `std::to_string` and `{}` on an unsigned integer. -/
def decimal (n : Nat) : Bytes :=
  (Nat.toDigits 10 n).map (fun c => UInt8.ofNat c.toNat)

theorem decimal_ne_nil (n : Nat) : decimal n ≠ [] := by
  intro h
  exact Nat.toDigits_ne_nil (List.map_eq_nil_iff.mp h)

/-- A decimal consists of the bytes `'0'` to `'9'`. -/
theorem digit_of_mem_decimal {n : Nat} {b : Byte} (h : b ∈ decimal n) :
    48 ≤ b.toNat ∧ b.toNat ≤ 57 := by
  obtain ⟨c, hc, rfl⟩ := List.mem_map.mp h
  have hd : c.isDigit = true :=
    Nat.isDigit_of_mem_toDigits (by decide) (by decide) hc
  simp only [Char.isDigit, Bool.and_eq_true, decide_eq_true_eq] at hd
  have h1 : 48 ≤ c.toNat := hd.1
  have h2 : c.toNat ≤ 57 := hd.2
  rw [UInt8.toNat_ofNat']
  omega

theorem not_mem_decimal {n : Nat} {b : Byte}
    (h : b.toNat < 48 ∨ 57 < b.toNat) : b ∉ decimal n := by
  intro hb
  have := digit_of_mem_decimal hb
  omega

/-- Decimals always survive. -/
theorem argument_decimal (n : Nat) : Argument (decimal n) where
  word := ⟨decimal_ne_nil n, not_mem_decimal (Or.inl (by decide))⟩
  no_nul := not_mem_decimal (Or.inl (by decide))

/-! ## `fmt::format` with `{}` fields -/

/-- Replace each `{}` by the next argument. -/
def fmtFields : Bytes → List Bytes → Bytes
  | [], _ => []
  | [c], _ => [c]
  | c :: d :: rest, args =>
      if c = 123 ∧ d = 125 then
        match args with
        | [] => []
        | a :: args => a ++ fmtFields rest args
      else c :: fmtFields (d :: rest) args

private theorem fmtFields_text_cons {c d : Byte} (hc : c ≠ 123)
    (rest : Bytes) (args : List Bytes) :
    fmtFields (c :: d :: rest) args = c :: fmtFields (d :: rest) args := by
  have hcd : ¬(c = 123 ∧ d = 125) := fun h => hc h.1
  cases args with
  | nil => exact if_neg hcd
  | cons a args => exact if_neg hcd

/-- `fmt::format(f, args...)`. -/
def fmtFormat (f : String) (args : List Bytes) : Bytes := fmtFields (lit f) args

/-- Text in front of the fields is copied. -/
theorem fmtFields_text {verb rest : Bytes} (h : (123 : Byte) ∉ verb)
    (hrest : rest ≠ []) (args : List Bytes) :
    fmtFields (verb ++ rest) args = verb ++ fmtFields rest args := by
  induction verb with
  | nil => rfl
  | cons c verb ih =>
      rw [List.mem_cons, not_or] at h
      obtain ⟨d, tl, hd⟩ : ∃ d tl, verb ++ rest = d :: tl := by
        refine List.exists_cons_of_ne_nil ?_
        intro hnil
        exact hrest (List.append_eq_nil_iff.mp hnil).2
      have hc : c ≠ 123 := fun heq => h.1 heq.symm
      rw [List.cons_append, hd, fmtFields_text_cons hc, ← hd, ih h.2,
        List.cons_append]

/-- One ` {}` per argument gives one space-prefixed field per argument. -/
theorem fmtFields_fields (args : List Bytes) :
    fmtFields (args.flatMap (fun _ => lit " {}")) args
      = args.flatMap (fun a => sp :: a) := by
  induction args with
  | nil => rfl
  | cons a args ih =>
      rw [List.flatMap_cons, List.flatMap_cons, ← ih]
      rfl

/-- **FIELDS**: a verb followed by ` {}` per argument renders as the verb
    with its arguments as space-prefixed fields. -/
theorem fmtFormat_fields {f w : String} {cs : List Char} {args : List Bytes}
    (hw : w = String.ofList cs)
    (hf : f = String.ofList (cs ++ args.flatMap fun _ => [' ', '{', '}']))
    (hverb : LowerWord (lit w)) (hargs : args ≠ []) :
    fmtFormat f args = fields sp (lit w) args := by
  have hsplit : lit f = lit w ++ args.flatMap (fun _ => lit " {}") := by
    rw [hf, hw, lit_ofList, lit_ofList, List.map_append, List.map_flatMap]
    rfl
  have hne : args.flatMap (fun _ => lit " {}") ≠ [] := by
    obtain ⟨a, rest, rfl⟩ := List.exists_cons_of_ne_nil hargs
    simp [lit]
  rw [fmtFormat, hsplit, fmtFields_text (hverb.not_mem (Or.inr (by decide))) hne,
    fmtFields_fields]
  rfl

end CoroBytes
