import Mathlib.Data.List.Induction

/-! # Runs of a partial step function — and when a property survives a whole run

    A machine is a partial step function `σ → ℓ → Option (σ × List ε)`: `none`
    where the label is not enabled, otherwise the next state and the events
    the step emits.  `Run` collects the labels, the state reached and the
    trace.

    * `Run.invariant` — what one step preserves, every run preserves;
    * `holdsThroughout_iff_everyStep` — the EXACT-CONDITION rule: if good
      steps keep an invariant that implies `P`, and a bad step breaks `P` at
      once, then `P` holds at every point of a run iff all its steps are good.

    Nothing here depends on a particular machine. -/

namespace RunLog

variable {σ ℓ ε : Type}

/-- The runs of `step` from `s₀`: labels consumed, state reached, trace. -/
inductive Run (step : σ → ℓ → Option (σ × List ε)) (s₀ : σ) :
    List ℓ → σ → List ε → Prop where
  | start : Run step s₀ [] s₀ []
  | next {ls : List ℓ} {s s' : σ} {tr es : List ε} {l : ℓ} :
      Run step s₀ ls s tr → step s l = some (s', es) →
      Run step s₀ (ls ++ [l]) s' (tr ++ es)

/-- Executing a label list, where every label is enabled. -/
def exec (step : σ → ℓ → Option (σ × List ε)) : σ → List ℓ →
    Option (σ × List ε)
  | s, [] => some (s, [])
  | s, l :: ls =>
      match step s l with
      | none => none
      | some (s', es) =>
          match exec step s' ls with
          | none => none
          | some (t, tr) => some (t, es ++ tr)

variable {step : σ → ℓ → Option (σ × List ε)} {s₀ : σ}

/-- One enabled label in front of an execution. -/
theorem exec_cons {s s' t : σ} {l : ℓ} {ls : List ℓ} {es tr : List ε}
    (hs : step s l = some (s', es)) (he : exec step s' ls = some (t, tr)) :
    exec step s (l :: ls) = some (t, es ++ tr) := by
  rw [exec, hs]
  simp only [he]

/-- A run continued by an execution is a run. -/
theorem run_append_exec :
    ∀ (ls' : List ℓ) {ls : List ℓ} {s t : σ} {tr tr' : List ε},
      Run step s₀ ls s tr → exec step s ls' = some (t, tr') →
      Run step s₀ (ls ++ ls') t (tr ++ tr') := by
  intro ls'
  induction ls' with
  | nil =>
      intro ls s t tr tr' hr he
      have hp : (s, []) = (t, tr') := Option.some.inj he
      obtain ⟨rfl, rfl⟩ := Prod.mk.inj hp
      rw [List.append_nil, List.append_nil]
      exact hr
  | cons l rest ih =>
      intro ls s t tr tr' hr he
      cases hstep : step s l with
      | none => simp [exec, hstep] at he
      | some p =>
          obtain ⟨s', es⟩ := p
          cases hrest : exec step s' rest with
          | none => simp [exec, hstep, hrest] at he
          | some q =>
              obtain ⟨t', tr₁⟩ := q
              simp only [exec, hstep, hrest, Option.some.injEq,
                Prod.mk.injEq] at he
              obtain ⟨rfl, rfl⟩ := he
              have := ih (Run.next hr hstep) hrest
              rw [List.append_assoc, List.append_assoc] at this
              exact this

/-- What executes, runs. -/
theorem run_of_exec {ls : List ℓ} {t : σ} {tr : List ε}
    (h : exec step s₀ ls = some (t, tr)) : Run step s₀ ls t tr :=
  run_append_exec ls Run.start h

/-- A run ends with its last step. -/
theorem run_snoc_inv {ls : List ℓ} {l : ℓ} {t : σ} {tr : List ε}
    (h : Run step s₀ (ls ++ [l]) t tr) :
    ∃ s tr₀ es, Run step s₀ ls s tr₀ ∧ step s l = some (t, es)
      ∧ tr = tr₀ ++ es := by
  generalize hls : ls ++ [l] = ls' at h
  cases h with
  | start => exact absurd hls (by simp)
  | next hr hstep =>
      obtain ⟨h1, h2⟩ := List.append_inj' hls rfl
      have hl := List.cons.inj h2
      rw [h1, hl.1]
      exact ⟨_, _, _, hr, hstep, rfl⟩

/-- The labels determine the run. -/
theorem run_deterministic :
    ∀ {ls : List ℓ} {s t : σ} {tr tr' : List ε},
      Run step s₀ ls s tr → Run step s₀ ls t tr' → s = t ∧ tr = tr' := by
  intro ls s t tr tr' h
  induction h generalizing t tr' with
  | start =>
      intro h'
      generalize hls : ([] : List ℓ) = ls' at h'
      cases h' with
      | start => exact ⟨rfl, rfl⟩
      | next _ _ => exact absurd hls (by simp)
  | next _ hstep ih =>
      intro h'
      obtain ⟨s₁, tr₁, es₁, hr₁, hstep₁, rfl⟩ := run_snoc_inv h'
      obtain ⟨rfl, rfl⟩ := ih hr₁
      rw [hstep] at hstep₁
      have hp := Option.some.inj hstep₁
      exact ⟨congrArg Prod.fst hp, congrArg (_ ++ ·) (congrArg Prod.snd hp)⟩

/-- Every prefix of a run's labels is itself run. -/
theorem run_prefix {ls : List ℓ} {t : σ} {tr : List ε}
    (h : Run step s₀ ls t tr) :
    ∀ ls', ls' <+: ls → ∃ s tr', Run step s₀ ls' s tr' := by
  induction h with
  | start =>
      intro ls' hp
      rw [List.prefix_nil.mp hp]
      exact ⟨_, _, Run.start⟩
  | @next ls s s' tr es l hr hstep ih =>
      intro ls' hp
      rcases List.prefix_concat_iff.mp hp with heq | hpre
      · rw [heq]
        exact ⟨_, _, Run.next hr hstep⟩
      · exact ih ls' hpre

/-- **INVARIANT RULE**: what holds at the start and survives each step holds
    after every run. -/
theorem Run.invariant (Inv : σ → List ε → Prop) (init : Inv s₀ [])
    (keep : ∀ s tr l s' es, Inv s tr → step s l = some (s', es) →
      Inv s' (tr ++ es)) {ls : List ℓ} {t : σ} {tr : List ε}
    (h : Run step s₀ ls t tr) : Inv t tr := by
  induction h with
  | start => exact init
  | next _ hstep ih => exact keep _ _ _ _ _ ih hstep

/-! ## Properties of all the points and all the steps of a run -/

/-- `P` holds at every point the labels lead through. -/
def HoldsThroughout (step : σ → ℓ → Option (σ × List ε)) (s₀ : σ)
    (ls : List ℓ) (P : σ → List ε → Prop) : Prop :=
  ∀ ls' t tr, ls' <+: ls → Run step s₀ ls' t tr → P t tr

/-- Every step of the run is `good`: a condition on the state before the
    step and on its label. -/
def EveryStep (step : σ → ℓ → Option (σ × List ε)) (s₀ : σ)
    (ls : List ℓ) (good : σ → ℓ → Prop) : Prop :=
  ∀ ls' l t tr, ls' ++ [l] <+: ls → Run step s₀ ls' t tr → good t l

/-- Good steps carry the invariant to the end of the run. -/
theorem inv_of_everyStep {Inv : σ → List ε → Prop} {good : σ → ℓ → Prop}
    (init : Inv s₀ [])
    (keep : ∀ s tr l s' es, Inv s tr → good s l →
      step s l = some (s', es) → Inv s' (tr ++ es))
    {ls : List ℓ} {t : σ} {tr : List ε} (h : Run step s₀ ls t tr) :
    EveryStep step s₀ ls good → Inv t tr := by
  induction h with
  | start => intro _; exact init
  | @next ls s s' tr es l hr hstep ih =>
      intro hall
      have hgood : good s l := hall ls l s tr (List.prefix_refl _) hr
      refine keep s tr l s' es (ih ?_) hgood hstep
      intro ls' l' t' tr' hp
      exact hall ls' l' t' tr' (hp.trans (List.prefix_append _ _))

/-- A bad step shows at the point right after it, so a run without such a
    point has no bad step. -/
theorem everyStep_of_holdsThroughout {Inv P : σ → List ε → Prop}
    {good : σ → ℓ → Prop} (init : Inv s₀ [])
    (keep : ∀ s tr l s' es, Inv s tr → good s l →
      step s l = some (s', es) → Inv s' (tr ++ es))
    (breaks : ∀ s tr l s' es, Inv s tr → ¬ good s l →
      step s l = some (s', es) → ¬ P s' (tr ++ es))
    {ls : List ℓ} {t : σ} {tr : List ε} (h : Run step s₀ ls t tr) :
    HoldsThroughout step s₀ ls P → EveryStep step s₀ ls good := by
  induction h with
  | start =>
      intro _ ls' l t tr hp
      exact absurd (List.prefix_nil.mp hp) (by simp)
  | @next ls s s' tr es l hr hstep ih =>
      intro hall
      have hbefore : EveryStep step s₀ ls good := by
        refine ih ?_
        intro ls' t' tr' hp
        exact hall ls' t' tr' (hp.trans (List.prefix_append _ _))
      -- every earlier step was good, so the invariant got here
      have hinv : Inv s tr := inv_of_everyStep init keep hr hbefore
      have hgood : good s l := by
        refine Classical.byContradiction fun hbad => ?_
        exact breaks s tr l s' es hinv hbad hstep
          (hall _ s' _ (List.prefix_refl _) (Run.next hr hstep))
      intro ls' l' t' tr' hp hr'
      rcases List.prefix_concat_iff.mp hp with heq | hpre
      · -- the last step of the run: its labels determine the state before it
        obtain ⟨h1, h2⟩ := List.append_inj' heq rfl
        subst h1
        obtain ⟨rfl, rfl⟩ := run_deterministic hr hr'
        rw [(List.cons.inj h2).1]
        exact hgood
      · exact hbefore ls' l' t' tr' hpre hr'

/-- **EXACT-CONDITION RULE**: along a run, `P` holds at every point iff every
    step is good. -/
theorem holdsThroughout_iff_everyStep (Inv : σ → List ε → Prop)
    {P : σ → List ε → Prop} {good : σ → ℓ → Prop} (init : Inv s₀ [])
    (holds : ∀ s tr, Inv s tr → P s tr)
    (keep : ∀ s tr l s' es, Inv s tr → good s l →
      step s l = some (s', es) → Inv s' (tr ++ es))
    (breaks : ∀ s tr l s' es, Inv s tr → ¬ good s l →
      step s l = some (s', es) → ¬ P s' (tr ++ es))
    {ls : List ℓ} {t : σ} {tr : List ε} (h : Run step s₀ ls t tr) :
    HoldsThroughout step s₀ ls P ↔ EveryStep step s₀ ls good := by
  constructor
  · exact everyStep_of_holdsThroughout init keep breaks h
  · intro hall ls' t' tr' hp hr'
    refine holds t' tr' (inv_of_everyStep init keep hr' ?_)
    intro ls'' l'' t'' tr'' hp'
    exact hall ls'' l'' t'' tr'' (hp'.trans hp)

/-- Where `good` looks at the label only, it is a condition on the labels. -/
theorem everyStep_label_iff {ok : ℓ → Prop} {ls : List ℓ} {t : σ}
    {tr : List ε} (h : Run step s₀ ls t tr) :
    EveryStep step s₀ ls (fun _ l => ok l) ↔ ∀ l ∈ ls, ok l := by
  constructor
  · intro hall l hl
    obtain ⟨pre, post, rfl⟩ := List.append_of_mem hl
    have hp : pre ++ [l] <+: pre ++ l :: post := ⟨post, by simp⟩
    obtain ⟨s, tr', hr⟩ := run_prefix h pre ((List.prefix_append _ _).trans hp)
    exact hall pre l s tr' hp hr
  · intro hall ls' l t' tr' hp _
    exact hall l (hp.subset (by simp))

/-- What an invariant says of each enabled step, where the labels of the run
    keep the invariant. -/
theorem everyStep_of_inv (Inv : σ → List ε → Prop) (ok : ℓ → Prop)
    {good : σ → ℓ → Prop} (init : Inv s₀ [])
    (keep : ∀ s tr l s' es, Inv s tr → ok l → step s l = some (s', es) →
      Inv s' (tr ++ es))
    (shows : ∀ s tr l s' es, Inv s tr → step s l = some (s', es) → good s l)
    {ls : List ℓ} {t : σ} {tr : List ε} (h : Run step s₀ ls t tr)
    (hok : ∀ l ∈ ls, ok l) : EveryStep step s₀ ls good := by
  intro ls' l t' tr' hp hr
  have hinv : Inv t' tr' := by
    refine inv_of_everyStep init keep hr ((everyStep_label_iff hr).mpr ?_)
    intro l' hl'
    exact hok l' (hp.subset (List.mem_append_left _ hl'))
  -- the label is enabled, since the run goes on with it
  obtain ⟨s, tr₁, hr₁⟩ := run_prefix h _ hp
  obtain ⟨s₁, tr₂, es, hr₂, hstep, -⟩ := run_snoc_inv hr₁
  obtain ⟨rfl, rfl⟩ := run_deterministic hr hr₂
  exact shows t' tr' l s es hinv hstep

/-! ## Watching a machine -/

section observed

variable {ε' : Type} {obs : σ → ℓ → List ε'}

/-- The machine whose events are what an observer makes of each step. -/
def observed (step : σ → ℓ → Option (σ × List ε)) (obs : σ → ℓ → List ε')
    (s : σ) (l : ℓ) : Option (σ × List ε') :=
  (step s l).map fun r => (r.1, obs s l)

theorem observed_eq_some {s s' : σ} {l : ℓ} {es : List ε'} :
    observed step obs s l = some (s', es)
      ↔ obs s l = es ∧ ∃ es', step s l = some (s', es') := by
  rw [observed]
  cases hstep : step s l with
  | none => simp
  | some r =>
      obtain ⟨t, es'⟩ := r
      simp [and_comm]

/-- **WATCHING CHANGES NOTHING**: a run is a run of the watched machine. -/
theorem run_observed {ls : List ℓ} {s : σ} {tr : List ε}
    (h : Run step s₀ ls s tr) :
    ∃ tr', Run (observed step obs) s₀ ls s tr' := by
  induction h with
  | start => exact ⟨[], Run.start⟩
  | @next ls s s' tr es l hr hstep ih =>
      obtain ⟨tr', hr'⟩ := ih
      exact ⟨_, Run.next hr' (observed_eq_some.mpr ⟨rfl, es, hstep⟩)⟩

end observed

/-! ## What was emitted before each event -/

/-- Each event of the trace satisfies `Q` of the events before it. -/
def AtEach (Q : List ε → ε → Prop) (tr : List ε) : Prop :=
  ∀ pre e post, tr = pre ++ e :: post → Q pre e

theorem atEach_nil (Q : List ε → ε → Prop) : AtEach Q [] := by
  intro pre e post h
  exact absurd h (by simp)

theorem atEach_snoc {Q : List ε → ε → Prop} {tr : List ε} {e : ε} :
    AtEach Q (tr ++ [e]) ↔ AtEach Q tr ∧ Q tr e := by
  constructor
  · intro h
    refine ⟨?_, h tr e [] rfl⟩
    intro pre e' post htr
    exact h pre e' (post ++ [e]) (by rw [htr]; simp)
  · rintro ⟨h, he⟩ pre e' post htr
    rcases List.eq_nil_or_concat post with hnil | ⟨post', x, hpost⟩
    · rw [hnil] at htr
      obtain ⟨h1, h2⟩ := List.append_inj' htr rfl
      rw [← h1, ← (List.cons.inj h2).1]
      exact he
    · rw [hpost, List.concat_eq_append, ← List.cons_append,
        ← List.append_assoc] at htr
      exact h pre e' post' (List.append_inj' htr rfl).1

end RunLog
