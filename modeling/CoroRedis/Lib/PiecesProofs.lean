import Mathlib.Data.List.Basic

/-! # Cutting a text at a separator, empty pieces dropped

    `pieces sep l` is what a reader obtains that splits `l` at every `sep` and
    throws the empty pieces away.  The encoding direction writes a head word
    followed by `sep`-prefixed fields, and the two meet in

    * `pieces_append_sep` — pieces of `a ++ sep :: b` are the pieces of `a`
      and of `b`;
    * `pieces_fields_eq_iff` — the fields are read back one for one iff each
      of them is a `Word`: nonempty and free of the separator;
    * `pieces_written` — a text that grew by appending fields, with separators
      to spare, is read back as the fields that are not empty. -/

namespace Pieces

variable {α : Type}

/-- A head followed by `sep`-prefixed fields. -/
def fields (sep : α) (head : List α) (args : List (List α)) : List α :=
  head ++ args.flatMap (fun a => sep :: a)

@[simp] theorem fields_nil {sep : α} (head : List α) : fields sep head [] = head := by
  simp [fields]

theorem fields_cons {sep : α} (head a : List α) (args : List (List α)) :
    fields sep head (a :: args) = fields sep (head ++ sep :: a) args := by
  simp [fields]

variable [DecidableEq α]

/-- Split at `sep`, drop the empty pieces. -/
def pieces (sep : α) (l : List α) : List (List α) :=
  (l.splitOn sep).filter (fun w => !w.isEmpty)

/-- What a piece looks like: nonempty, no separator inside. -/
structure Word (sep : α) (w : List α) : Prop where
  ne_nil : w ≠ []
  no_sep : sep ∉ w

variable {sep : α}

@[simp] theorem pieces_nil : pieces sep ([] : List α) = [] := rfl

/-- A separator-free text is its own single piece. -/
theorem pieces_of_no_sep {w : List α} (h : sep ∉ w) :
    pieces sep w = if w = [] then [] else [w] := by
  rw [pieces, List.splitOn_eq_singleton h]
  cases w with
  | nil => rfl
  | cons x w => rfl

theorem pieces_of_word {w : List α} (h : Word sep w) : pieces sep w = [w] := by
  rw [pieces_of_no_sep h.no_sep, if_neg h.ne_nil]

/-- Cutting distributes over a separator. -/
theorem pieces_append_sep (a b : List α) :
    pieces sep (a ++ sep :: b) = pieces sep a ++ pieces sep b := by
  rw [pieces, List.splitOn_append_cons_self, List.filter_append]
  rfl

theorem pieces_sep_cons (b : List α) : pieces sep (sep :: b) = pieces sep b :=
  pieces_append_sep [] b

/-- The pieces of a head with fields are the pieces of each part. -/
theorem pieces_fields (args : List (List α)) :
    ∀ head : List α, pieces sep (fields sep head args)
      = pieces sep head ++ args.flatMap (pieces sep) := by
  induction args with
  | nil => intro head; simp
  | cons a args ih =>
      intro head
      rw [fields_cons, ih, pieces_append_sep, List.flatMap_cons,
        List.append_assoc]

/-- No piece contains the separator, and none is empty. -/
theorem word_of_mem_pieces {l w : List α} (h : w ∈ pieces sep l) :
    Word sep w := by
  have hmem : w ∈ l.splitOn sep := List.mem_of_mem_filter h
  refine ⟨?_, ?_⟩
  · intro hw
    rw [hw] at h
    simp [pieces] at h
  · clear h
    induction l generalizing w with
    | nil =>
        rw [List.splitOn_nil, List.mem_singleton] at hmem
        rw [hmem]
        exact List.not_mem_nil
    | cons x l ih =>
        rw [List.splitOn_cons_eq_if_modifyHead] at hmem
        by_cases hx : (x == sep) = true
        · rw [if_pos hx] at hmem
          rcases List.mem_cons.mp hmem with heq | hm
          · rw [heq]
            exact List.not_mem_nil
          · exact ih hm
        · -- `x` joins the first piece of the rest
          rw [if_neg hx] at hmem
          obtain ⟨v, vs, hsplit⟩ :=
            List.exists_cons_of_ne_nil (List.splitOn_ne_nil sep l)
          rw [hsplit, List.modifyHead_cons] at hmem
          rcases List.mem_cons.mp hmem with heq | hm
          · have hv : sep ∉ v := ih (by rw [hsplit]; exact List.mem_cons_self)
            have hxs : sep ≠ x := fun h => hx (beq_iff_eq.mpr h.symm)
            rw [heq, List.mem_cons, not_or]
            exact ⟨hxs, hv⟩
          · exact ih (by rw [hsplit]; exact List.mem_cons_of_mem _ hm)

/-- Cutting keeps every other element, in order. -/
theorem flatten_pieces (l : List α) :
    (pieces sep l).flatten = l.filter (fun x => x ≠ sep) := by
  induction l with
  | nil => rfl
  | cons x l ih =>
      by_cases hx : x = sep
      · rw [hx, pieces_sep_cons, ih]
        simp
      · obtain ⟨v, vs, hsplit⟩ :=
          List.exists_cons_of_ne_nil (List.splitOn_ne_nil sep l)
        have hl : (pieces sep l).flatten = v ++ (vs.filter
            (fun w => !w.isEmpty)).flatten := by
          rw [pieces, hsplit]
          -- an empty first piece is dropped, and adds nothing
          cases v with
          | nil => rfl
          | cons y v => rfl
        have hxl : pieces sep (x :: l)
            = (x :: v) :: vs.filter (fun w => !w.isEmpty) := by
          rw [pieces, List.splitOn_cons_eq_if_modifyHead,
            if_neg (by simpa using hx), hsplit]
          rfl
        rw [hxl, List.flatten_cons, List.cons_append, ← hl, ih,
          List.filter_cons_of_pos (by simpa using hx)]

/-- Cutting every field gives the fields back iff each is a word. -/
theorem flatMap_pieces_eq_iff (args : List (List α)) :
    args.flatMap (pieces sep) = args ↔ ∀ a ∈ args, Word sep a := by
  constructor
  · intro h a ha
    rw [← h] at ha
    obtain ⟨b, -, hb⟩ := List.mem_flatMap.mp ha
    exact word_of_mem_pieces hb
  · intro h
    induction args with
    | nil => rfl
    | cons a args ih =>
        rw [List.flatMap_cons, pieces_of_word (h a List.mem_cons_self),
          ih (fun b hb => h b (List.mem_cons_of_mem _ hb))]
        rfl

/-- **READ-BACK**: the fields after a word come back one for one iff each of
    them is a word. -/
theorem pieces_fields_eq_iff {head : List α} (hhead : Word sep head)
    (args : List (List α)) :
    pieces sep (fields sep head args) = head :: args
      ↔ ∀ a ∈ args, Word sep a := by
  rw [pieces_fields, pieces_of_word hhead, List.singleton_append,
    List.cons.injEq, flatMap_pieces_eq_iff]
  exact and_iff_right rfl

/-! ## Texts that grow by appending -/

section written

variable {head text w : List α} {args ws : List (List α)}

/-- `text` is `head` with fields behind it; those that are not empty are
    `args`. -/
def Written (sep : α) (head text : List α) (args : List (List α)) : Prop :=
  ∃ fs, text = fields sep head fs ∧ fs.filter (fun f => !f.isEmpty) = args

omit [DecidableEq α] in
theorem written_head : Written sep head head [] :=
  ⟨[], (fields_nil head).symm, rfl⟩

omit [DecidableEq α] in
/-- Fields behind fields. -/
theorem fields_append (head : List α) (fs gs : List (List α)) :
    fields sep (fields sep head fs) gs = fields sep head (fs ++ gs) := by
  simp [fields]

omit [DecidableEq α] in
/-- Appending fields, none of them empty. -/
theorem written_fields (h : Written sep head text args)
    (hws : ∀ a ∈ ws, a ≠ []) : Written sep head (fields sep text ws) (args ++ ws) := by
  obtain ⟨fs, rfl, rfl⟩ := h
  refine ⟨fs ++ ws, fields_append head fs ws, ?_⟩
  have hall : ws.filter (fun f => !f.isEmpty) = ws := by
    refine List.filter_eq_self.mpr fun a ha => ?_
    simpa using hws a ha
  rw [List.filter_append, hall]

omit [DecidableEq α] in
theorem written_field (h : Written sep head text args) (hw : w ≠ []) :
    Written sep head (text ++ sep :: w) (args ++ [w]) := by
  have hfields : fields sep text [w] = text ++ sep :: w := by simp [fields]
  rw [← hfields]
  refine written_fields h fun a ha => ?_
  rw [List.mem_singleton.mp ha]
  exact hw

omit [DecidableEq α] in
/-- A separator too many adds an empty field. -/
theorem written_sep (h : Written sep head text args) :
    Written sep head (text ++ [sep]) args := by
  obtain ⟨fs, rfl, rfl⟩ := h
  refine ⟨fs ++ [[]], ?_, by simp⟩
  rw [← fields_append]
  simp [fields]

omit [DecidableEq α] in
/-- What stands nowhere in the head or the fields stands nowhere in the
    text. -/
theorem not_mem_written {x : α} (h : Written sep head text args) (hx : x ≠ sep)
    (hhead : x ∉ head) (hargs : ∀ a ∈ args, x ∉ a) : x ∉ text := by
  obtain ⟨fs, rfl, rfl⟩ := h
  intro hmem
  rcases List.mem_append.mp hmem with hh | hf
  · exact hhead hh
  · obtain ⟨f, hfs, hxf⟩ := List.mem_flatMap.mp hf
    rcases List.mem_cons.mp hxf with heq | hin
    · exact hx heq
    · refine hargs f (List.mem_filter.mpr ⟨hfs, ?_⟩) hin
      simpa using List.ne_nil_of_mem hin

/-- **READ-BACK**: the pieces of such a text are the head and the fields. -/
theorem pieces_written (h : Written sep head text args) (hhead : Word sep head)
    (hargs : ∀ a ∈ args, Word sep a) : pieces sep text = head :: args := by
  obtain ⟨fs, rfl, rfl⟩ := h
  rw [pieces_fields, pieces_of_word hhead, List.singleton_append]
  congr 1
  induction fs with
  | nil => rfl
  | cons f fs ih =>
      cases f with
      | nil =>
          rw [List.flatMap_cons, pieces_nil, List.nil_append]
          exact ih hargs
      | cons x f =>
          rw [List.filter_cons_of_pos rfl] at hargs ⊢
          rw [List.flatMap_cons, pieces_of_word (hargs _ List.mem_cons_self),
            ih (fun a ha => hargs a (List.mem_cons_of_mem _ ha))]
          rfl

end written

end Pieces
