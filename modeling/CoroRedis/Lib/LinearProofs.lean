import Mathlib.Data.List.Nodup
import CoroRedis.Lib.RunProofs

/-! # Linearizable histories — by the points where operations take effect

    An `Object` answers one request at a time.  Clients call operations and
    get returns, concurrently; a history is linearizable when its operations
    can be put in one sequence that the object alone would produce and that
    never contradicts real time.

    * `Linearization` — what such a sequence owes a history: it is legal, has
      every operation at most once, contains everything that returned (with
      the reply it returned), and keeps every operation behind those that had
      returned before it was called;
    * `linearization_of_effects` — the EFFECT-POINT rule: where each operation
      takes effect once, between its call and its return, the effects in
      their order are a linearization.

    An operation that is called and never returns may be in the sequence or
    not; that is what losing a connection comes down to. -/

namespace Linear

open RunLog

variable {ι σ ρ α : Type}

/-- An object that answers one request at a time. -/
structure Object (σ ρ α : Type) where
  init : σ
  apply : σ → ρ → σ × α

/-- One operation: who asked, what for, and the answer. -/
@[ext] structure Op (ι ρ α : Type) where
  id : ι
  request : ρ
  reply : α

/-! ## Sequences the object produces -/

/-- The object's state after the operations. -/
def Object.after (O : Object σ ρ α) : σ → List (Op ι ρ α) → σ
  | s, [] => s
  | s, op :: ops => O.after (O.apply s op.request).1 ops

/-- Each operation was answered as the object answers it. -/
def Object.Legal (O : Object σ ρ α) : σ → List (Op ι ρ α) → Prop
  | _, [] => True
  | s, op :: ops =>
      (O.apply s op.request).2 = op.reply ∧ O.Legal (O.apply s op.request).1 ops

theorem after_append (O : Object σ ρ α) (ops ops' : List (Op ι ρ α)) :
    ∀ s, O.after s (ops ++ ops') = O.after (O.after s ops) ops' := by
  induction ops with
  | nil => intro s; rfl
  | cons op ops ih => intro s; exact ih _

theorem legal_append (O : Object σ ρ α) (ops ops' : List (Op ι ρ α)) :
    ∀ s, O.Legal s (ops ++ ops')
      ↔ O.Legal s ops ∧ O.Legal (O.after s ops) ops' := by
  induction ops with
  | nil =>
      intro s
      exact ⟨fun h => ⟨trivial, h⟩, fun h => h.2⟩
  | cons op ops ih =>
      intro s
      constructor
      · rintro ⟨hop, hrest⟩
        obtain ⟨h1, h2⟩ := (ih _).mp hrest
        exact ⟨⟨hop, h1⟩, h2⟩
      · rintro ⟨⟨hop, h1⟩, h2⟩
        exact ⟨hop, (ih _).mpr ⟨h1, h2⟩⟩

/-- One more operation, answered by the object. -/
theorem legal_snoc (O : Object σ ρ α) (ops : List (Op ι ρ α)) (s : σ)
    (op : Op ι ρ α) :
    O.Legal s (ops ++ [op])
      ↔ O.Legal s ops ∧ (O.apply (O.after s ops) op.request).2 = op.reply := by
  rw [legal_append]
  exact ⟨fun h => ⟨h.1, h.2.1⟩, fun h => ⟨h.1, h.2, trivial⟩⟩

/-! ## Histories -/

/-- What happens to an operation: clients see calls and returns, only an
    omniscient observer sees the effect. -/
inductive Mark (ι ρ α : Type) where
  | call (id : ι) (request : ρ)
  | effect (op : Op ι ρ α)
  | ret (id : ι) (reply : α)

/-- Whether clients see it. -/
def Mark.visible : Mark ι ρ α → Bool
  | .effect _ => false
  | _ => true

/-- What clients see. -/
def history (tr : List (Mark ι ρ α)) : List (Mark ι ρ α) :=
  tr.filter Mark.visible

/-- The operations that took effect, in order. -/
def effects (tr : List (Mark ι ρ α)) : List (Op ι ρ α) :=
  tr.filterMap fun m => match m with
    | .effect op => some op
    | _ => none

/-- The operations called, in order. -/
def calls (tr : List (Mark ι ρ α)) : List ι :=
  tr.filterMap fun m => match m with
    | .call i _ => some i
    | _ => none

@[simp] theorem effects_append (tr tr' : List (Mark ι ρ α)) :
    effects (tr ++ tr') = effects tr ++ effects tr' := List.filterMap_append

@[simp] theorem calls_append (tr tr' : List (Mark ι ρ α)) :
    calls (tr ++ tr') = calls tr ++ calls tr' := List.filterMap_append

theorem mem_effects {tr : List (Mark ι ρ α)} {op : Op ι ρ α} :
    op ∈ effects tr ↔ Mark.effect op ∈ tr := by
  constructor
  · intro h
    obtain ⟨m, hm, heq⟩ := List.mem_filterMap.mp h
    cases m with
    | effect op' =>
        rw [← Option.some.inj heq]
        exact hm
    | call i r => exact absurd heq (by simp)
    | ret i a => exact absurd heq (by simp)
  · intro h
    exact List.mem_filterMap.mpr ⟨_, h, rfl⟩

theorem mem_calls {tr : List (Mark ι ρ α)} {i : ι} {r : ρ}
    (h : Mark.call i r ∈ tr) : i ∈ calls tr :=
  List.mem_filterMap.mpr ⟨_, h, rfl⟩

/-- `L` is an order in which the object alone could have answered `h`. -/
structure Linearization (O : Object σ ρ α) (h : List (Mark ι ρ α))
    (L : List (Op ι ρ α)) : Prop where
  legal : O.Legal O.init L
  once : (L.map Op.id).Nodup
  called : ∀ op ∈ L, Mark.call op.id op.request ∈ h
  returned : ∀ i a, Mark.ret i a ∈ h → ∃ op ∈ L, op.id = i ∧ op.reply = a
  /-- What returned before another was called comes first. -/
  realTime : ∀ op ∈ L, ∀ op' ∈ L, ∀ a r,
    [Mark.ret op.id a, Mark.call op'.id r].Sublist h → [op, op'].Sublist L

/-! ## The effect-point rule -/

/-- Each operation is called once, takes effect at most once and after its
    call, and returns after its effect with its reply. -/
def Placed (pre : List (Mark ι ρ α)) : Mark ι ρ α → Prop
  | .call i _ => i ∉ calls pre
  | .effect op =>
      Mark.call op.id op.request ∈ pre ∧ op.id ∉ (effects pre).map Op.id
  | .ret i a => ∃ op, Mark.effect op ∈ pre ∧ op.id = i ∧ op.reply = a

/-- Operations that take effect at most once have different identities. -/
theorem effects_nodup {tr : List (Mark ι ρ α)} (h : AtEach Placed tr) :
    ((effects tr).map Op.id).Nodup := by
  induction tr using List.reverseRecOn with
  | nil => exact List.nodup_nil
  | append_singleton tr m ih =>
      obtain ⟨htr, hm⟩ := atEach_snoc.mp h
      rw [effects_append, List.map_append]
      cases m with
      | effect op =>
          refine List.nodup_append.mpr ⟨ih htr, List.nodup_singleton _, ?_⟩
          intro i hi j hj
          have hj' : j = op.id := List.mem_singleton.mp hj
          rintro rfl
          exact hm.2 (hj' ▸ hi)
      | call i r =>
          show ((effects tr).map Op.id ++ []).Nodup
          rw [List.append_nil]
          exact ih htr
      | ret i a =>
          show ((effects tr).map Op.id ++ []).Nodup
          rw [List.append_nil]
          exact ih htr

/-- Two operations that took effect under one identity are one. -/
theorem effect_unique {tr : List (Mark ι ρ α)} (h : AtEach Placed tr)
    {op op' : Op ι ρ α} (hop : Mark.effect op ∈ tr)
    (hop' : Mark.effect op' ∈ tr) (hid : op.id = op'.id) : op = op' :=
  List.inj_on_of_nodup_map (effects_nodup h) (mem_effects.mpr hop)
    (mem_effects.mpr hop') hid

/-- What is placed throughout is placed up to any point. -/
theorem placed_prefix {tr tr' : List (Mark ι ρ α)}
    (h : AtEach Placed (tr ++ tr')) : AtEach Placed tr := by
  intro pre m post heq
  exact h pre m (post ++ tr') (by rw [heq]; simp)

/-- An operation called from some point on takes effect from there on. -/
theorem effect_after_call {tr tr' : List (Mark ι ρ α)}
    (h : AtEach Placed (tr ++ tr')) {op : Op ι ρ α} {r : ρ}
    (hcall : Mark.call op.id r ∈ tr')
    (heff : Mark.effect op ∈ tr ++ tr') : Mark.effect op ∈ tr' := by
  refine (List.mem_append.mp heff).resolve_left ?_
  intro hold
  -- its call would be in `tr` as well, and so there twice
  obtain ⟨pre, post, rfl⟩ := List.append_of_mem hold
  have hpl : Placed pre (.effect op) := placed_prefix h pre _ post rfl
  obtain ⟨mid, post', rfl⟩ := List.append_of_mem hcall
  have hfresh : op.id ∉ calls ((pre ++ Mark.effect op :: post) ++ mid) :=
    h _ (.call op.id r) post' (by simp)
  have hmem : Mark.call op.id op.request ∈ (pre ++ Mark.effect op :: post) ++ mid :=
    List.mem_append_left _ (List.mem_append_left _ hpl.1)
  exact hfresh (mem_calls hmem)

/-- What returned before another was called took effect before it. -/
theorem effects_realTime {tr : List (Mark ι ρ α)} (h : AtEach Placed tr)
    {op op' : Op ι ρ α} (hop : Mark.effect op ∈ tr)
    (hop' : Mark.effect op' ∈ tr) {a : α} {r : ρ}
    (hbefore : [Mark.ret op.id a, Mark.call op'.id r].Sublist tr) :
    [op, op'].Sublist (effects tr) := by
  obtain ⟨tr₁, tr₂, rfl, hret, hcall⟩ := List.cons_sublist_iff.mp hbefore
  have hcall' : Mark.call op'.id r ∈ tr₂ := List.singleton_sublist.mp hcall
  have hlate : Mark.effect op' ∈ tr₂ := effect_after_call h hcall' hop'
  have hearly : Mark.effect op ∈ tr₁ := by
    obtain ⟨pre, post, rfl⟩ := List.append_of_mem hret
    obtain ⟨op₁, heff, hid, -⟩ : Placed pre (.ret op.id a) :=
      placed_prefix h pre _ post rfl
    have hmem : Mark.effect op₁ ∈ pre ++ .ret op.id a :: post :=
      List.mem_append_left _ heff
    have heq : op₁ = op := effect_unique h (List.mem_append_left _ hmem) hop hid
    exact heq ▸ hmem
  rw [effects_append]
  exact (List.singleton_sublist.mpr (mem_effects.mpr hearly)).append
    (List.singleton_sublist.mpr (mem_effects.mpr hlate))

/-- **EFFECT-POINT RULE**: operations that take effect once, between call and
    return, are linearized by the order of their effects. -/
theorem linearization_of_effects (O : Object σ ρ α) {tr : List (Mark ι ρ α)}
    (hplaced : AtEach Placed tr) (hlegal : O.Legal O.init (effects tr)) :
    Linearization O (history tr) (effects tr) where
  legal := hlegal
  once := effects_nodup hplaced
  called op hop := by
    obtain ⟨pre, post, rfl⟩ := List.append_of_mem (mem_effects.mp hop)
    have hpl : Placed pre (.effect op) := hplaced pre _ post rfl
    exact List.mem_filter.mpr ⟨List.mem_append_left _ hpl.1, rfl⟩
  returned i a hret := by
    obtain ⟨pre, post, rfl⟩ := List.append_of_mem (List.mem_filter.mp hret).1
    obtain ⟨op, heff, hid, ha⟩ : Placed pre (.ret i a) :=
      hplaced pre _ post rfl
    exact ⟨op, mem_effects.mpr (List.mem_append_left _ heff), hid, ha⟩
  realTime op hop op' hop' a r hbefore :=
    effects_realTime hplaced (mem_effects.mp hop) (mem_effects.mp hop')
      (hbefore.trans List.filter_sublist)

end Linear
