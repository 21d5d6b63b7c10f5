import Mathlib.Data.List.Basic
import Mathlib.Data.List.Nodup

/-! # A pipelined channel: answers go to requests in the order they were sent

    `Pipeline ρ α` is what a client may assume of a connection on which many
    requests are outstanding at once: the requests sent so far, the answers
    received so far, and never more answers than requests.  The `n`-th answer
    belongs to the `n`-th request (`matched`); what is not answered yet is
    `pending`, oldest first.

    The two operations only extend the lists, and `sent_eq` splits the
    requests into those matched and those pending, so distinct requests are
    matched at most once and never both matched and pending. -/

namespace Pipelining

variable {ρ α : Type}

/-- What the left list has beyond the right one's length is not zipped. -/
theorem zip_surplus {l r : List ρ} {l' : List α} (h : l.length = l'.length) :
    (l ++ r).zip l' = l.zip l' := by
  have hz : (l ++ r).zip (l' ++ []) = l.zip l' ++ r.zip [] :=
    List.zip_append h
  rw [List.append_nil, List.zip_nil_right, List.append_nil] at hz
  exact hz

/-- Requests and answers of one channel. -/
@[ext] structure Pipeline (ρ α : Type) where
  sent : List ρ
  answered : List α
  answered_le : answered.length ≤ sent.length

/-- The requests still waiting, oldest first. -/
def Pipeline.pending (p : Pipeline ρ α) : List ρ :=
  p.sent.drop p.answered.length

/-- Each answer with the request it belongs to. -/
def Pipeline.matched (p : Pipeline ρ α) : List (ρ × α) :=
  p.sent.zip p.answered

/-- The channel before any traffic. -/
def Pipeline.fresh : Pipeline ρ α := ⟨[], [], Nat.le_refl 0⟩

/-- One more request. -/
def Pipeline.send (p : Pipeline ρ α) (r : ρ) : Pipeline ρ α where
  sent := p.sent ++ [r]
  answered := p.answered
  answered_le := by
    have := p.answered_le
    simp only [List.length_append, List.length_singleton]
    omega

/-- One more answer, which needs a pending request. -/
def Pipeline.answer (p : Pipeline ρ α) {r : ρ} {rest : List ρ}
    (h : p.pending = r :: rest) (a : α) : Pipeline ρ α where
  sent := p.sent
  answered := p.answered ++ [a]
  answered_le := by
    have hlt : p.answered.length < p.sent.length := by
      have hlen := congrArg List.length h
      simp only [Pipeline.pending, List.length_drop, List.length_cons] at hlen
      omega
    rw [List.length_append, List.length_singleton]
    exact hlt

/-- A new request queues behind the pending ones. -/
theorem pending_send (p : Pipeline ρ α) (r : ρ) :
    (p.send r).pending = p.pending ++ [r] := by
  show (p.sent ++ [r]).drop p.answered.length = _
  rw [List.drop_append_of_le_length p.answered_le]
  rfl

private theorem length_take_sent (p : Pipeline ρ α) :
    (p.sent.take p.answered.length).length = p.answered.length := by
  rw [List.length_take]
  exact Nat.min_eq_left p.answered_le

private theorem matched_eq_take (p : Pipeline ρ α) (r : List ρ) :
    (p.sent ++ r).zip p.answered
      = (p.sent.take p.answered.length).zip p.answered := by
  rw [← List.take_append_drop p.answered.length p.sent, List.append_assoc,
    zip_surplus (length_take_sent p), List.take_append_drop]

/-- Sending matches nothing. -/
theorem matched_send (p : Pipeline ρ α) (r : ρ) :
    (p.send r).matched = p.matched := by
  have h := matched_eq_take p []
  rw [List.append_nil] at h
  exact (matched_eq_take p [r]).trans h.symm

/-- The requests are the matched ones followed by the pending ones. -/
theorem sent_eq (p : Pipeline ρ α) :
    p.sent = p.matched.map Prod.fst ++ p.pending := by
  have h : p.matched = (p.sent.take p.answered.length).zip p.answered := by
    have h := matched_eq_take p []
    rw [List.append_nil] at h
    exact h
  have hfst : p.matched.map Prod.fst = p.sent.take p.answered.length := by
    rw [h, List.map_fst_zip (Nat.le_of_eq (length_take_sent p))]
  rw [hfst, Pipeline.pending, List.take_append_drop]

variable (p : Pipeline ρ α) {r : ρ} {rest : List ρ}

/-- Answering removes the oldest pending request. -/
theorem pending_answer (h : p.pending = r :: rest) (a : α) :
    (p.answer h a).pending = rest := by
  show p.sent.drop (p.answered ++ [a]).length = rest
  rw [List.length_append, List.length_singleton, ← List.drop_drop]
  show (p.pending).drop 1 = rest
  rw [h]
  rfl

/-- Answering matches the oldest pending request with the answer. -/
theorem matched_answer (h : p.pending = r :: rest) (a : α) :
    (p.answer h a).matched = p.matched ++ [(r, a)] := by
  have hlen : (p.matched.map Prod.fst).length = p.answered.length := by
    simp [Pipeline.matched, p.answered_le]
  have hsent := sent_eq p
  rw [h] at hsent
  have hzip : (p.matched.map Prod.fst).zip p.answered = p.matched := by
    have hz := zip_surplus (r := r :: rest) hlen
    rw [← hsent] at hz
    exact hz.symm
  show p.sent.zip (p.answered ++ [a]) = _
  rw [hsent, List.zip_append hlen, hzip, List.zip_cons_cons,
    List.zip_nil_right]

/-- Requests that differ in `f` are matched at most once. -/
theorem matched_map_nodup {β : Type} (f : ρ → β)
    (hnd : (p.sent.map f).Nodup) :
    (p.matched.map (fun m => f m.1)).Nodup := by
  rw [sent_eq p, List.map_append, List.map_map] at hnd
  exact (List.nodup_append.mp hnd).1

/-- Requests that differ in `f` are pending at most once. -/
theorem pending_map_nodup {β : Type} (f : ρ → β)
    (hnd : (p.sent.map f).Nodup) : (p.pending.map f).Nodup := by
  rw [sent_eq p, List.map_append] at hnd
  exact (List.nodup_append.mp hnd).2.1

end Pipelining
