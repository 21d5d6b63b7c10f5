import CoroRedis.Lib.RunProofs

/-! # Simulation with a prophecy — one machine's runs as another's

    A machine refines another if each of its runs is matched by a run of the
    other.  Where the abstract machine has to settle something at a point at
    which the concrete one has not settled it yet, a relation between states
    is not enough: the match depends on what will happen.

    Here the relation has a PROPHECY as a parameter, a guess about what is
    still open, and the induction keeps a match for every guess.  A step that
    settles something picks the guess that turned out right.

    * `run_simulated` — the RULE: if each concrete step, for every guess after
      it, extends the matches of some guess before it, then every run has a
      match for every guess. -/

namespace Simulation

open RunLog

variable {φ σ ℓ ε σ' ℓ' ε' : Type}

/-- What a machine has done so far. -/
structure Progress (σ ℓ ε : Type) where
  labels : List ℓ
  state : σ
  trace : List ε

/-- From `p` the machine gets to `q`. -/
def Extends (step : σ → ℓ → Option (σ × List ε)) (p q : Progress σ ℓ ε) :
    Prop :=
  ∃ ls es, exec step p.state ls = some (q.state, es)
    ∧ q.labels = p.labels ++ ls ∧ q.trace = p.trace ++ es

variable {step : σ → ℓ → Option (σ × List ε)}

theorem extends_refl (p : Progress σ ℓ ε) : Extends step p p :=
  ⟨[], [], rfl, (List.append_nil _).symm, (List.append_nil _).symm⟩

/-- One label further. -/
theorem extends_step {p q : Progress σ ℓ ε} {l : ℓ} {s : σ} {es : List ε}
    (hs : step p.state l = some (s, es))
    (h : Extends step ⟨p.labels ++ [l], s, p.trace ++ es⟩ q) :
    Extends step p q := by
  obtain ⟨ls, es', hexec, hl, ht⟩ := h
  refine ⟨l :: ls, es ++ es', exec_cons hs hexec, ?_, ?_⟩
  · rw [hl, List.append_assoc]
    rfl
  · rw [ht, List.append_assoc]

/-- **SIMULATION RULE**: a relation that every step can keep, whatever is
    guessed after it, relates every run to one of the other machine. -/
theorem run_simulated {step' : σ' → ℓ' → Option (σ' × List ε')} {s₀ : σ}
    {s₀' : σ'} (R : φ → σ → List ε → Progress σ' ℓ' ε' → Prop)
    (init : ∀ f, R f s₀ [] ⟨[], s₀', []⟩)
    (keep : ∀ ls s tr l s' es, Run step s₀ ls s tr → step s l = some (s', es) →
      ∀ f, ∃ g, ∀ p, R g s tr p →
        ∃ q, Extends step' p q ∧ R f s' (tr ++ es) q)
    {ls : List ℓ} {s : σ} {tr : List ε} (h : Run step s₀ ls s tr) :
    ∀ f, ∃ p, Run step' s₀' p.labels p.state p.trace ∧ R f s tr p := by
  induction h with
  | start =>
      intro f
      exact ⟨_, Run.start, init f⟩
  | next hr hstep ih =>
      intro f
      obtain ⟨g, hg⟩ := keep _ _ _ _ _ _ hr hstep f
      obtain ⟨p, hrun, hR⟩ := ih g
      obtain ⟨q, ⟨ls', es', hexec, hl, ht⟩, hR'⟩ := hg p hR
      refine ⟨q, ?_, hR'⟩
      rw [hl, ht]
      exact run_append_exec ls' hrun hexec

end Simulation
