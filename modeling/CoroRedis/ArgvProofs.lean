import Mathlib.Data.List.Forall2
import CoroRedis.MethodCallProofs

/-! # The argument vector of a call

    From a call of a method to what the server receives: the text the method
    builds, cut by hiredis.  All the builders grow their text by appending, so
    one lemma, `argv_written`, leads from the builder of a method to the vector
    of its calls, in both classes at once: apart from a declared result type
    they do not differ (`text_request`). -/

namespace Methods

open Pieces CoroBytes HiredisFormat CommandText Decoding RedisReplies

variable {double : Type}

/-! ## What is sent -/

/-- The text of a request, if it sends one. -/
def Request.text : Request → Option Bytes
  | .nothing _ => none
  | .command _ cmd => some cmd
  | .scan cmd => some cmd
  | .itself => none

/-- The text a call hands to hiredis, in either class. -/
def sent (P : Platform double) : ConnClass → Call double → Option Bytes
  | .sync, c => SyncConnection.sent P c
  | .coro, c => CoroConnection.sent P c

/-- The argument vector the server receives from a call. -/
def argv (R : RedisFormat) (P : Platform double) (cls : ConnClass)
    (c : Call double) : Option (List Bytes) := (sent P cls c).bind R.format

/-- A call in either class, for the exchange that ends with `reply`. -/
def call (P : Platform double) (cls : ConnClass) (c : Call double)
    (reply : Option RedisReply) : CallResult (RetVal double) :=
  match cls with
  | .sync => SyncConnection.onReply P c reply
  | .coro => CoroConnection.onReply P c reply

/-- Where the reply can be decoded, both classes return what is decoded. -/
theorem call_command {P : Platform double} {cls : ConnClass} {c : Call double}
    {ret : RetType} {cmd : Bytes} {reply : Option RedisReply}
    {v : Option (RetVal double)} (h : request P cls c = .command ret cmd)
    (hv : dealRedisReply P ret reply = .ok v) : call P cls c reply = .returned v := by
  cases cls with
  | sync =>
      show SyncConnection.onReply P c reply = _
      rw [SyncConnection.onReply, show SyncConnection.request P c = _ from h]
      show CallResult.ofExcept (dealRedisReply P ret reply) = _
      rw [hv]
      rfl
  | coro =>
      show CoroConnection.onReply P c reply = _
      rw [CoroConnection.onReply, CoroConnection.awaiter,
        show CoroConnection.request P c = _ from h]
      show ((CoroConnectionImpl.command P ret cmd).store reply).awaitResume = _
      rw [awaitResume_command, hv]
      rfl

/-- Both classes send the text of their request. -/
theorem sent_eq_text (P : Platform double) (cls : ConnClass) (c : Call double) :
    sent P cls c = (request P cls c).text := by
  cases cls with
  | sync =>
      show SyncConnection.sent P c = (SyncConnection.request P c).text
      rw [SyncConnection.sent]
      cases SyncConnection.request P c <;> rfl
  | coro =>
      show CoroConnection.sent P c = (CoroConnection.request P c).text
      rw [CoroConnection.sent, CoroConnection.awaiter]
      cases CoroConnection.request P c <;> rfl

/-- The text does not depend on the class. -/
theorem text_request (P : Platform double) (cls : ConnClass) (c : Call double) :
    (request P cls c).text = (CoroConnection.request P c).text := by
  cases cls with
  | coro => rfl
  | sync =>
      show (SyncConnection.request P c).text = _
      cases h : c.isHmset with
      | false => rw [request_sync_eq_coro P h]
      | true =>
          cases c with
          | hmset => rfl
          | _ => exact nomatch h

section argv

variable (R : RedisFormat) {P : Platform double} {c : Call double}

theorem argv_of_text (cls : ConnClass) {text : Bytes}
    (h : (CoroConnection.request P c).text = some text) :
    argv R P cls c = R.format text := by
  rw [argv, sent_eq_text, text_request, h]
  rfl

/-- **VECTOR**: the builder's text read back, in either class. -/
theorem argv_written (cls : ConnClass) {verb text : Bytes} {args : List Bytes}
    (h : (CoroConnection.request P c).text = some text) (hverb : LowerWord verb)
    (hw : Written sp verb text args) (hargs : ∀ a ∈ args, Plain a) :
    argv R P cls c = some (verb :: args) := by
  rw [argv_of_text R cls h]
  exact format_written R (plain_lowerWord hverb) hw hargs

/-- Where nothing is sent, there is no vector. -/
theorem argv_of_no_text (cls : ConnClass)
    (h : (CoroConnection.request P c).text = none) : argv R P cls c = none := by
  rw [argv, sent_eq_text, text_request, h]
  rfl

end argv

/-- The loops over a parameter pack append one field per element. -/
theorem appendAll_eq_fields (keys : List Bytes) :
    ∀ cmd : Bytes, appendAll cmd keys = fields sp cmd keys := by
  induction keys with
  | nil => intro cmd; exact (fields_nil cmd).symm
  | cons key keys ih =>
      intro cmd
      have hcons : appendAll cmd (key :: keys)
          = appendAll (cmd ++ lit " " ++ key) keys := rfl
      rw [hcons, ih, fields_cons, List.append_assoc]
      rfl

theorem written_appendAll {verb text : Bytes} {args keys : List Bytes}
    (h : Written sp verb text args) (hkeys : ∀ a ∈ keys, a ≠ []) :
    Written sp verb (appendAll text keys) (args ++ keys) := by
  rw [appendAll_eq_fields]
  exact written_fields h hkeys

/-! ## Keywords and numbers -/

/-- Look a word up in a table of keywords. -/
def findWord {α : Type} (table : List (Bytes × α)) (tok : Bytes) : Option α :=
  (table.find? fun e => SameWord e.1 tok).map Prod.snd

/-- A number as the server reads it: digits only. -/
def parseNumber (tok : Bytes) : Option Nat :=
  if tok ≠ [] ∧ tok.all ascii.digit then some (ascii.value tok) else none

theorem parseNumber_decimal (n : Nat) : parseNumber (decimal n) = some n := by
  have hdigits : decimal n ≠ [] ∧ (decimal n).all ascii.digit :=
    ⟨decimal_ne_nil n, List.all_eq_true.mpr fun _ hc => digit_decimal hc⟩
  rw [parseNumber, if_pos hdigits, value_decimal]

/-! ## Documented commands -/

/-- A token of a command in the documentation: a verb or a keyword, or an
    argument, which is taken to the letter. -/
inductive Token where
  | word (w : Bytes)
  | data (a : Bytes)

def Token.Spells : Token → Bytes → Prop
  | .word w, tok => SameWord tok w
  | .data a, tok => tok = a

instance : ∀ (t : Token) (tok : Bytes), Decidable (t.Spells tok)
  | .word w, tok => inferInstanceAs (Decidable (SameWord tok w))
  | .data a, tok => inferInstanceAs (Decidable (tok = a))

/-- An argument vector that is the documented command. -/
def Follows (form : List Token) (v : List Bytes) : Prop :=
  List.Forall₂ Token.Spells form v

instance (form : List Token) (v : List Bytes) : Decidable (Follows form v) :=
  inferInstanceAs (Decidable (List.Forall₂ Token.Spells form v))

section follows

variable {form : List Token} {v : List Bytes}

theorem follows_cons {t : Token} {tok : Bytes} :
    Follows (t :: form) (tok :: v) ↔ t.Spells tok ∧ Follows form v :=
  List.forall₂_cons

theorem follows_word_cons {w : Bytes} :
    Follows (.word w :: form) v
      ↔ ∃ tok rest, SameWord tok w ∧ Follows form rest ∧ v = tok :: rest :=
  List.forall₂_cons_left_iff

theorem follows_data_cons {a : Bytes} :
    Follows (.data a :: form) v ↔ ∃ rest, Follows form rest ∧ v = a :: rest := by
  refine List.forall₂_cons_left_iff.trans ⟨?_, ?_⟩
  · rintro ⟨tok, rest, rfl, hrest, rfl⟩
    exact ⟨rest, hrest, rfl⟩
  · rintro ⟨rest, hrest, rfl⟩
    exact ⟨a, rest, rfl, hrest, rfl⟩

theorem follows_nil : Follows [] v ↔ v = [] := List.forall₂_nil_left_iff

/-- Arguments in front of a command. -/
theorem follows_data_append (args : List Bytes) :
    ∀ v, Follows (args.map .data ++ form) v
      ↔ ∃ rest, Follows form rest ∧ v = args ++ rest := by
  induction args with
  | nil => simp
  | cons a args ih =>
      intro v
      rw [List.map_cons, List.cons_append, follows_data_cons]
      constructor
      · rintro ⟨rest, hrest, rfl⟩
        obtain ⟨rest', hrest', rfl⟩ := (ih rest).mp hrest
        exact ⟨rest', hrest', rfl⟩
      · rintro ⟨rest, hrest, rfl⟩
        exact ⟨args ++ rest, (ih _).mpr ⟨rest, hrest, rfl⟩, rfl⟩

end follows

end Methods
