import CoroRedis.CommandOrderProofs

/-! # A command that cannot be submitted — nobody wakes its coroutine

    The suspend callback of `command` looks at neither the length that
    `redisFormatCommand` returns nor the status of
    `redisAsyncFormattedCommand`.  `Resolves` says what a coroutine is owed
    when either fails.  A run keeps it exactly as long as every command sent
    is well formatted and the context is connected; the step that sends
    another command breaks it at once, also when it is the sweep of a
    disconnect that runs the coroutine. -/

namespace CommandSubmit

open CoroBytes HiredisFormat TaskAwaiters CoroCommand CommandOrder RunLog

/-- A command that cannot be submitted resolves with `nullopt`, and whoever is
    suspended on a command has its callback queued. -/
structure Resolves (fmt : RedisFormat) (s : Session) (tr : List Event) :
    Prop where
  formatted : ∀ a buf, Event.submitted a buf ∈ tr → buf.isSome = true
  resolved : ∀ k a cmd, Event.sent k a cmd ∈ tr →
    (fmt.format cmd.text = none ∨ Event.refused a ∈ tr) →
    ∃ v, v.isNullopt = true
      ∧ (resumes tr).filter (fun r => r.1 = a) = [(a, v)]
  queued : ∀ k a, (s.coros k).status = .suspended a → a ∈ s.replies

/-- The command that is sent in this step, if one is. -/
def issues (prog : CoroHandle → Program) (s : Session) (l : Label) :
    Option Command :=
  match arrive s l with
  | some (s₁, _, some k) =>
      match prog k (s₁.coros k).history with
      | .send cmd => some cmd
      | _ => none
  | _ => none

/-- The command sent in this step, if one is, is well formatted and meets a
    connected context. -/
def Submittable (fmt : RedisFormat) (prog : CoroHandle → Program)
    (s : Session) (l : Label) : Prop :=
  ∀ cmd, issues prog s l = some cmd →
    (fmt.format cmd.text).isSome = true ∧ s.ctx = .connected

/-! ## What one step adds to the trace -/

/-- An event of hiredis' callback. -/
def Passive : Event → Prop
  | .callback _ _ => True
  | .resumed _ _ _ => True
  | _ => False

section step

variable {H : Hiredis} {prog : CoroHandle → Program} {s s' : Session}
  {tr es : List Event} {l : Label}

/-- Before a coroutine runs only a callback shows, and a context that lets a
    coroutine run is not touched. -/
theorem arrive_passive (h : Linked s tr) {k : Option CoroHandle}
    (ha : arrive s l = some (s', es, k)) :
    (∀ e ∈ es, Passive e) ∧ (k ≠ none → s'.ctx = s.ctx) := by
  rcases arrive_cases ha with ⟨k₀, items, -, -, rfl, rfl, -, -⟩
    | ⟨ctx, -, rfl, rfl, -⟩ | ⟨a, rest, reply, hr, hd, -⟩
  · exact ⟨by simp, fun _ => rfl⟩
  · exact ⟨by simp, fun hk => absurd rfl hk⟩
  · obtain ⟨k₀, v, hd', -, -⟩ := linked_deliver h hr reply
    rw [hd, Prod.mk.injEq, Prod.mk.injEq] at hd'
    obtain ⟨rfl, rfl, rfl⟩ := hd'
    exact ⟨by simp [Passive], fun _ => rfl⟩

/-- A step sends no command, or it ends with the `co_await` of the one it
    issues. -/
theorem step_issues (h : Linked s tr)
    (hstep : step H prog s l = some (s', es)) :
    (issues prog s l = none ∧ ∀ e ∈ es, Passive e)
    ∨ ∃ cmd k s₁ es₁, issues prog s l = some cmd ∧ Linked s₁ (tr ++ es₁)
      ∧ (∀ e ∈ es₁, Passive e) ∧ s₁.ctx = s.ctx
      ∧ s' = (s₁.coAwait H k cmd).1 ∧ es = es₁ ++ (s₁.coAwait H k cmd).2 := by
  rw [step] at hstep
  cases ha : arrive s l with
  | none => simp [ha] at hstep
  | some r =>
      obtain ⟨s₁, es₁, k⟩ := r
      obtain ⟨hpas, hctx⟩ := arrive_passive h ha
      obtain ⟨hl, -, -⟩ := linked_arrive h ha
      cases k with
      | none =>
          simp only [ha, Option.some.injEq, Prod.mk.injEq] at hstep
          obtain ⟨rfl, rfl⟩ := hstep
          exact Or.inl ⟨by simp [issues, ha], hpas⟩
      | some k =>
          simp only [ha, Option.some.injEq, Prod.mk.injEq] at hstep
          obtain ⟨rfl, rfl⟩ := hstep
          cases hp : prog k (s₁.coros k).history with
          | send cmd =>
              refine Or.inr ⟨cmd, k, s₁, es₁, by simp [issues, ha, hp], hl,
                hpas, hctx (by simp), ?_, ?_⟩
              · simp [Session.advance, hp]
              · simp [Session.advance, hp]
          | pause =>
              refine Or.inl ⟨by simp [issues, ha, hp], ?_⟩
              simpa [Session.advance, hp] using hpas
          | finish =>
              refine Or.inl ⟨by simp [issues, ha, hp], ?_⟩
              simpa [Session.advance, hp] using hpas

end step

/-! ## Runs that send only what can be submitted -/

/-- What a run that sends only what can be submitted leaves in the trace. -/
def Clean (fmt : RedisFormat) : Event → Prop
  | .sent _ _ cmd => (fmt.format cmd.text).isSome = true
  | .submitted _ buf => buf.isSome = true
  | .refused _ => False
  | _ => True

/-- Everything sent was submitted and accepted. -/
structure AllQueued (fmt : RedisFormat) (s : Session) (tr : List Event) :
    Prop where
  linked : Linked s tr
  clean : ∀ e ∈ tr, Clean fmt e
  accepted : ∀ k a cmd, Event.sent k a cmd ∈ tr →
    a ∈ (accepted tr).map Prod.fst

theorem allQueued_init (fmt : RedisFormat) :
    AllQueued fmt Session.init [] :=
  ⟨linked_init, by simp, by simp⟩

theorem clean_of_passive {fmt : RedisFormat} {e : Event} (h : Passive e) :
    Clean fmt e := by
  cases e with
  | callback _ _ => trivial
  | resumed _ _ _ => trivial
  | sent _ _ _ => exact absurd h id
  | submitted _ _ => exact absurd h id
  | accepted _ _ => exact absurd h id
  | refused _ => exact absurd h id
  | dangling _ => exact absurd h id

section allQueued

variable {H : Hiredis} {prog : CoroHandle → Program} {s s' : Session}
  {tr es : List Event} {l : Label}

/-- Then every command has resolved or is queued. -/
theorem resolves_of_allQueued (h : AllQueued H.fmt s tr) :
    Resolves H.fmt s tr where
  formatted a buf hm := h.clean _ hm
  resolved k a cmd hm hfail := by
    have hfmt : (H.fmt.format cmd.text).isSome = true := h.clean _ hm
    rcases hfail with hnone | href
    · rw [hnone] at hfmt
      exact absurd hfmt (by simp)
    · exact absurd (h.clean _ href) id
  queued k a hst := by
    obtain ⟨cmd, -, hm⟩ := h.linked.alive k a hst
    exact h.linked.waiting k a hst (h.accepted k a cmd hm)

/-- Events that send nothing keep the acceptances. -/
theorem accepted_passive (h : AllQueued H.fmt s tr)
    (hpas : ∀ e ∈ es, Passive e) {k : CoroHandle} {a : AwaiterPtr}
    {cmd : Command} (hm : Event.sent k a cmd ∈ tr ++ es) :
    a ∈ (CommandOrder.accepted tr).map Prod.fst := by
  rcases List.mem_append.mp hm with hold | hnew
  · exact h.accepted k a cmd hold
  · exact absurd (hpas _ hnew) id

/-- **GOOD STEPS KEEP IT**: the command sent is queued. -/
theorem allQueued_step (h : AllQueued H.fmt s tr)
    (hsub : Submittable H.fmt prog s l)
    (hstep : step H prog s l = some (s', es)) :
    AllQueued H.fmt s' (tr ++ es) := by
  obtain ⟨hl, -⟩ := linked_step H prog h.linked hstep
  rcases step_issues h.linked hstep with ⟨-, hpas⟩
    | ⟨cmd, k, s₁, es₁, hiss, -, hpas, hctx, -, rfl⟩
  · refine ⟨hl, ?_, ?_⟩
    · intro e he
      rcases List.mem_append.mp he with hold | hnew
      · exact h.clean e hold
      · exact clean_of_passive (hpas e hnew)
    · intro k a cmd hm
      rw [accepted_append, List.map_append]
      exact List.mem_append_left _ (accepted_passive h hpas hm)
  · obtain ⟨hfmt, hconn⟩ := hsub cmd hiss
    have hq : H.queues s₁.ctx (H.fmt.format cmd.text) = true := by
      rw [hctx, hconn]
      simp [Hiredis.queues, hfmt]
    rcases coAwait_cases H s₁ k cmd with ⟨-, heq⟩ | ⟨hq', -⟩
    · rw [heq] at hl ⊢
      refine ⟨hl, ?_, ?_⟩
      · intro e he
        rcases List.mem_append.mp he with hold | hnew
        · exact h.clean e hold
        · rcases List.mem_append.mp hnew with hpre | hsent
          · exact clean_of_passive (hpas e hpre)
          · simp only [List.mem_cons, List.not_mem_nil, or_false] at hsent
            rcases hsent with rfl | rfl | rfl
            · exact hfmt
            · exact hfmt
            · trivial
      · intro k' a cmd' hm
        rw [← List.append_assoc] at hm ⊢
        rw [accepted_append, List.map_append]
        rcases List.mem_append.mp hm with hold | hnew
        · refine List.mem_append_left _ ?_
          rw [accepted_append, List.map_append]
          exact List.mem_append_left _ (accepted_passive h hpas hold)
        · refine List.mem_append_right _ ?_
          simp only [List.mem_cons, List.not_mem_nil, or_false, Event.sent.injEq,
            reduceCtorEq] at hnew
          rw [hnew.2.1]
          simp [CommandOrder.accepted]
    · rw [hq] at hq'
      exact absurd hq' (by simp)

/-- The queue holds awaiters that exist. -/
theorem replies_bound (h : Linked s tr) : ∀ a ∈ s.replies, a < s.nextAwaiter := by
  intro a ha
  obtain ⟨p, ⟨hsent, -, hpend, -, -⟩, -⟩ := h.channel
  rw [← hpend] at ha
  obtain ⟨m, hm, rfl⟩ := List.mem_map.mp ha
  have hacc : m ∈ CommandOrder.accepted tr := by
    rw [← hsent, Pipelining.sent_eq p]
    exact List.mem_append_right _ hm
  obtain ⟨k, hs⟩ := h.submitted m hacc
  exact h.bound k m.1 m.2 hs

/-- **BAD STEPS BREAK IT**: hiredis is handed a null buffer, or it refuses the
    command and the coroutine stays suspended without a callback. -/
theorem not_resolves_step (h : Linked s tr)
    (hsub : ¬ Submittable H.fmt prog s l)
    (hstep : step H prog s l = some (s', es)) :
    ¬ Resolves H.fmt s' (tr ++ es) := by
  intro hres
  apply hsub
  intro cmd hcmd
  rcases step_issues h hstep with ⟨hnone, -⟩
    | ⟨cmd', k, s₁, es₁, hiss, hl, -, hctx, rfl, rfl⟩
  · rw [hnone] at hcmd
    exact absurd hcmd (by simp)
  · rw [hiss, Option.some.injEq] at hcmd
    subst hcmd
    have hfmt : (H.fmt.format cmd'.text).isSome = true := by
      refine hres.formatted s₁.nextAwaiter _ ?_
      refine List.mem_append_right _ (List.mem_append_right _ ?_)
      rcases coAwait_cases H s₁ k cmd' with ⟨-, heq⟩ | ⟨-, heq⟩
      · rw [heq]
        simp
      · rw [heq]
        simp
    refine ⟨hfmt, ?_⟩
    rcases coAwait_cases H s₁ k cmd' with ⟨hq, -⟩ | ⟨-, heq⟩
    · rw [← hctx]
      simp only [Hiredis.queues, Bool.and_eq_true, decide_eq_true_eq] at hq
      exact hq.1
    · -- refused: suspended, but not in the queue
      rw [heq] at hres
      have hin := hres.queued k s₁.nextAwaiter waits_suspendOn.1
      exact absurd (replies_bound hl _ hin) (Nat.lt_irrefl _)

end allQueued

/-- **WHEN COMMANDS RESOLVE**: throughout a run exactly if every command sent
    in it is well formatted and sent on a connected context. -/
theorem resolves_iff_submittable (H : Hiredis) (prog : CoroHandle → Program)
    (ls : List Label) (s : Session) (tr : List Event)
    (h : Run (step H prog) Session.init ls s tr) :
    HoldsThroughout (step H prog) Session.init ls (Resolves H.fmt)
      ↔ EveryStep (step H prog) Session.init ls (Submittable H.fmt prog) :=
  holdsThroughout_iff_everyStep (AllQueued H.fmt) (allQueued_init H.fmt)
    (fun _ _ hinv => resolves_of_allQueued hinv)
    (fun _ _ _ _ _ hinv hgood hstep => allQueued_step hinv hgood hstep)
    (fun _ _ _ _ _ hinv hbad hstep => not_resolves_step hinv.linked hbad hstep)
    h

/-- A coroutine that asks again when it gets nothing. -/
def askTwice (_ : CoroHandle) : Program := fun history =>
  if history.length < 2 then .send ⟨lit "get a", .deal .string⟩ else .finish

/-- The sweep resumes coroutine `0` with a null reply; what it sends then is
    refused, and it stays suspended with nothing queued. -/
theorem ask_again_during_sweep_hangs :
    ∃ s tr, Run (step ⟨hiredisFormat, false⟩ askTwice) Session.init
        [.start 0, .free, .nullReply] s tr
      ∧ (s.coros 0).status = .suspended 1 ∧ s.replies = []
      ∧ ¬ Resolves hiredisFormat s tr := by
  obtain ⟨s, tr, hrun, hst, hq⟩ : ∃ s tr,
      Run (step ⟨hiredisFormat, false⟩ askTwice) Session.init
        [.start 0, .free, .nullReply] s tr
      ∧ (s.coros 0).status = .suspended 1 ∧ s.replies = [] :=
    ⟨_, _, run_of_exec rfl, rfl, rfl⟩
  refine ⟨s, tr, hrun, hst, hq, ?_⟩
  intro hres
  have hin := hres.queued 0 1 hst
  rw [hq] at hin
  exact absurd hin List.not_mem_nil

theorem resolves_iff_submittable_askTwice :
    ∃ s tr, Run (step ⟨hiredisFormat, false⟩ askTwice) Session.init
        [.start 0, .free, .nullReply] s tr
      ∧ (HoldsThroughout (step ⟨hiredisFormat, false⟩ askTwice) Session.init
          [.start 0, .free, .nullReply] (Resolves hiredisFormat)
        ↔ EveryStep (step ⟨hiredisFormat, false⟩ askTwice) Session.init
          [.start 0, .free, .nullReply]
          (Submittable hiredisFormat askTwice)) := by
  obtain ⟨s, tr, hrun⟩ : ∃ s tr,
      Run (step ⟨hiredisFormat, false⟩ askTwice) Session.init
        [.start 0, .free, .nullReply] s tr := ⟨_, _, run_of_exec rfl⟩
  exact ⟨s, tr, hrun, resolves_iff_submittable _ _ _ s tr hrun⟩

end CommandSubmit
