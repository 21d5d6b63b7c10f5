import CoroRedis.ClusterProofs

/-! # The accounts of connections that share a server

    `LinkSound` accounts for every request and reply of one connection: what
    hiredis accepted is what the server executed, followed by what is on its
    way, followed by what was lost with the context; what the server answered
    is what callbacks got, followed by what is on its way back.  With that the
    awaiters in hiredis' queue are, in order, the requests that are out.

    * `linkSound_session`, `linkSound_serve`, `linkSound_lose` — what a
      coroutine, the server and a freed context do to the accounts;
    * `delivered_receive` — the reply that arrives meets the awaiter whose
      request it answers;
    * `sound_step`, `sound_run` — the accounts of all connections balance in
      every run, and the server is where the executions took it. -/

namespace Cluster

open CoroBytes HiredisFormat RedisReplies TaskAwaiters CoroCommand CommandOrder
open RunLog Linear

/-! ## What a step of one connection shows -/

section session

variable {H : Hiredis} {prog : CoroHandle → Program} {s s' : Session}
  {tr es : List CoroCommand.Event} {l : CoroCommand.Label}

/-- Before a coroutine runs, nothing or the oldest callback. -/
inductive Answered (s : Session) (l : CoroCommand.Label) :
    List CoroCommand.Event → Prop where
  | quiet : answers [l] = [] → Answered s l []
  | callback {a : AwaiterPtr} {rest : List AwaiterPtr}
      {reply : Option RedisReply} {k : CoroHandle} {v : Value} :
      s.replies = a :: rest → answers [l] = [reply] →
      Answered s l [.callback a reply, .resumed k a v]

/-- The coroutine that runs awaits at most one command, on a fresh awaiter. -/
inductive Issued (H : Hiredis) (prog : CoroHandle → Program) (s : Session) :
    List CoroCommand.Event → Prop where
  | nothing : Issued H prog s []
  | queued {k : CoroHandle} {history : List Item} {cmd : Command} :
      prog k history = .send cmd →
      H.queues s.ctx (H.fmt.format cmd.text) = true →
      Issued H prog s [.sent k s.nextAwaiter cmd,
        .submitted s.nextAwaiter (H.fmt.format cmd.text),
        .accepted s.nextAwaiter cmd]
  | refused {k : CoroHandle} {history : List Item} {cmd : Command} :
      prog k history = .send cmd →
      Issued H prog s [.sent k s.nextAwaiter cmd,
        .submitted s.nextAwaiter (H.fmt.format cmd.text),
        .refused s.nextAwaiter]

theorem issued_advance (s s₁ : Session) (k : CoroHandle)
    (hctx : s₁.ctx = s.ctx) (hnext : s₁.nextAwaiter = s.nextAwaiter) :
    Issued H prog s (s₁.advance H prog k).2 := by
  rw [Session.advance]
  cases hp : prog k (s₁.coros k).history with
  | send cmd =>
      show Issued H prog s (s₁.coAwait H k cmd).2
      rcases coAwait_cases H s₁ k cmd with ⟨hq, heq⟩ | ⟨-, heq⟩
      · rw [hctx] at hq
        rw [heq, hnext]
        exact .queued hp hq
      · rw [heq, hnext]
        exact .refused hp
  | pause => exact .nothing
  | finish => exact .nothing

/-- Running a coroutine does not touch the context. -/
theorem advance_ctx (k : CoroHandle) :
    (s.advance H prog k).1.ctx = s.ctx := by
  rw [Session.advance]
  cases prog k (s.coros k).history with
  | send cmd =>
      show (s.coAwait H k cmd).1.ctx = s.ctx
      rcases coAwait_cases H s k cmd with ⟨-, heq⟩ | ⟨-, heq⟩
      · rw [heq]
        rfl
      · rw [heq]
        rfl
  | pause => rfl
  | finish => rfl

/-- A context that is being freed stays so. -/
theorem arrive_freeing {k : Option CoroHandle} (h : Linked s tr)
    (ha : arrive s l = some (s', es, k)) (hctx : s.ctx = .freeing) :
    s'.ctx = .freeing := by
  rcases arrive_cases ha with ⟨k₀, items, -, -, rfl, -, -, -⟩
    | ⟨ctx, -, -, rfl, hans⟩ | ⟨a, rest, reply, hr, hd, -⟩
  · exact hctx
  · -- no label that changes the context is enabled any more
    exfalso
    cases l with
    | disconnect => simp [arrive, hctx] at ha
    | free => simp [arrive, hctx] at ha
    | start k' => simp [arrive] at ha
    | wake k' => simp [arrive] at ha
    | reply r => simp [answers] at hans
    | nullReply => simp [answers] at hans
  · obtain ⟨k₀, v, hd', -, -⟩ := linked_deliver h hr reply
    rw [hd, Prod.mk.injEq] at hd'
    rw [hd'.1]
    exact hctx

/-- Null replies come from a context that is being freed. -/
theorem arrive_null {r : Session × List CoroCommand.Event × Option CoroHandle}
    (ha : arrive s l = some r) (hans : answers [l] = [none]) :
    s.ctx = .freeing := by
  cases l with
  | nullReply =>
      by_cases hctx : s.ctx = .freeing
      · exact hctx
      · simp [arrive, hctx] at ha
  | reply r' => simp [answers] at hans
  | start k => simp [answers] at hans
  | wake k => simp [answers] at hans
  | disconnect => simp [answers] at hans
  | free => simp [answers] at hans

/-- **WHAT A STEP SHOWS**: a callback at most, then a command at most. -/
theorem step_shows (h : Linked s tr)
    (hstep : CoroCommand.step H prog s l = some (s', es)) :
    (∃ es₁ es₂, es = es₁ ++ es₂ ∧ Answered s l es₁ ∧ Issued H prog s es₂)
      ∧ (s.ctx = .freeing → s'.ctx = .freeing)
      ∧ (answers [l] = [none] → s.ctx = .freeing) := by
  rw [CoroCommand.step] at hstep
  cases ha : arrive s l with
  | none => simp [ha] at hstep
  | some r =>
      obtain ⟨s₁, es₁, k⟩ := r
      have hfree : s.ctx = .freeing → s₁.ctx = .freeing := arrive_freeing h ha
      refine ⟨?_, ?_, arrive_null ha⟩
      · rcases arrive_cases ha with ⟨k₀, items, -, -, rfl, rfl, rfl, hans⟩
          | ⟨ctx, rfl, rfl, rfl, hans⟩ | ⟨a, rest, reply, hr, hd, hans⟩
        · simp only [ha, Option.some.injEq, Prod.mk.injEq] at hstep
          obtain ⟨-, rfl⟩ := hstep
          exact ⟨[], _, rfl, .quiet hans,
            issued_advance s (s.wakeUp k₀ items) k₀ rfl rfl⟩
        · simp only [ha, Option.some.injEq, Prod.mk.injEq] at hstep
          obtain ⟨-, rfl⟩ := hstep
          exact ⟨[], [], rfl, .quiet hans, .nothing⟩
        · obtain ⟨k₀, v, hd', -, -⟩ := linked_deliver h hr reply
          rw [hd, Prod.mk.injEq, Prod.mk.injEq] at hd'
          obtain ⟨rfl, rfl, rfl⟩ := hd'
          simp only [ha, Option.some.injEq, Prod.mk.injEq] at hstep
          obtain ⟨-, rfl⟩ := hstep
          exact ⟨_, _, rfl, .callback hr hans,
            issued_advance s (resumeOn s k₀ a rest v) k₀ rfl rfl⟩
      · intro hctx
        cases k with
        | none =>
            simp only [ha, Option.some.injEq, Prod.mk.injEq] at hstep
            rw [← hstep.1]
            exact hfree hctx
        | some k =>
            simp only [ha, Option.some.injEq, Prod.mk.injEq] at hstep
            rw [← hstep.1, advance_ctx]
            exact hfree hctx

/-- Only a context that is not being freed has replies. -/
theorem step_reply_ctx {r : RedisReply}
    (hstep : CoroCommand.step H prog s (.reply r) = some (s', es)) :
    s.ctx ≠ .freeing := by
  intro hctx
  simp [CoroCommand.step, arrive, hctx] at hstep

end session

/-! ## The accounts of one connection -/

/-- Whatever hiredis queues for a program is a command with a verb. -/
def Worded (H : Hiredis) (prog : CoroHandle → Program) : Prop :=
  ∀ k history cmd, prog k history = .send cmd →
    H.queues .connected (H.fmt.format cmd.text) = true →
    ∃ verb args, H.fmt.format cmd.text = some (verb :: args)

/-- Every request and every reply of a connection is accounted for. -/
structure LinkSound (H : Hiredis) (lk : Link) (es : List CoroCommand.Event)
    (ops : List (Op AwaiterPtr (List Bytes) RedisReply)) : Prop where
  linked : Linked lk.session es
  worded : ∀ m ∈ accepted es,
    ∃ verb args, H.fmt.format m.2.text = some (verb :: args)
  awaited : ∀ a buf, CoroCommand.Event.submitted a buf ∈ es →
    ∃ k cmd, CoroCommand.Event.sent k a cmd ∈ es
  /-- An awaiter serves one `co_await`. -/
  unique : ∀ k a cmd k' cmd', CoroCommand.Event.sent k a cmd ∈ es →
    CoroCommand.Event.sent k' a cmd' ∈ es → k = k' ∧ cmd = cmd'
  submitted : ∀ m ∈ accepted es,
    CoroCommand.Event.submitted m.1 (H.fmt.format m.2.text) ∈ es
  /-- What is executed, what is on its way, what was lost. -/
  requests : ∃ lost, requested H es
      = ops.map (fun op => (op.id, op.request)) ++ lk.inbox ++ lost
    ∧ (lk.session.ctx ≠ .freeing → lost = [])
  /-- What callbacks got and what is on its way back. -/
  replies : ops.map (fun op => (op.id, op.reply)) = delivered es ++ lk.outbox
  whole : lk.session.ctx ≠ .freeing → ∀ m ∈ callbacks es, m.2 ≠ none

section linkSound

variable {H : Hiredis} {lk : Link} {es : List CoroCommand.Event}
  {ops : List (Op AwaiterPtr (List Bytes) RedisReply)}

theorem linkSound_fresh (H : Hiredis) : LinkSound H .fresh [] [] where
  linked := linked_init
  worded := by simp [accepted]
  awaited := by simp
  unique := by simp
  submitted := by simp [accepted]
  requests := ⟨[], rfl, fun _ => rfl⟩
  replies := rfl
  whole := by simp [callbacks]

/-- Accepted commands with a verb are requests, one each. -/
theorem requested_eq (h : ∀ m ∈ accepted es,
      ∃ verb args, H.fmt.format m.2.text = some (verb :: args)) :
    (requested H es).map (fun m => (m.1, some m.2))
      = (accepted es).map (fun m => (m.1, H.fmt.format m.2.text)) := by
  induction es with
  | nil => rfl
  | cons e es ih =>
      cases e with
      | accepted a cmd =>
          obtain ⟨verb, args, hfmt⟩ := h (a, cmd) List.mem_cons_self
          have hrest := ih fun m hm => h m (List.mem_cons_of_mem _ hm)
          have hreq : requested H (.accepted a cmd :: es)
              = (a, verb :: args) :: requested H es := by
            simp only [requested, List.filterMap_cons, hfmt, Option.map_some]
          rw [hreq, List.map_cons, hrest]
          exact congrArg (fun buf => (a, buf) :: (accepted es).map _) hfmt.symm
      | sent k a cmd => exact ih h
      | submitted a buf => exact ih h
      | refused a => exact ih h
      | callback a reply => exact ih h
      | resumed k a v => exact ih h
      | dangling a => exact ih h

/-- A request comes from an accepted command. -/
theorem accepted_of_requested {m : AwaiterPtr × List Bytes}
    (h : m ∈ requested H es) :
    ∃ cmd, (m.1, cmd) ∈ accepted es ∧ H.fmt.format cmd.text = some m.2 := by
  obtain ⟨e, he, heq⟩ := List.mem_filterMap.mp h
  cases e with
  | accepted a cmd =>
      obtain ⟨argv, hfmt, rfl⟩ := Option.map_eq_some_iff.mp heq
      exact ⟨cmd, List.mem_filterMap.mpr ⟨_, he, rfl⟩, hfmt⟩
  | sent k a cmd => exact absurd heq (by simp)
  | submitted a buf => exact absurd heq (by simp)
  | refused a => exact absurd heq (by simp)
  | callback a reply => exact absurd heq (by simp)
  | resumed k a v => exact absurd heq (by simp)
  | dangling a => exact absurd heq (by simp)

/-- The awaiters of the requests are those of the accepted commands. -/
theorem requested_awaiters (h : LinkSound H lk es ops) :
    (requested H es).map Prod.fst = (accepted es).map Prod.fst := by
  have heq := congrArg (List.map Prod.fst) (requested_eq h.worded)
  simpa only [List.map_map, Function.comp_def] using heq

/-- The accepted commands are those whose callback ran, then the queued. -/
theorem accepted_awaiters (h : LinkSound H lk es ops) :
    (accepted es).map Prod.fst
      = (callbacks es).map Prod.fst ++ lk.session.replies := by
  obtain ⟨p, ⟨hsent, -, hpend, hcb, -⟩, -⟩ := h.linked.channel
  rw [← hsent, Pipelining.sent_eq p, List.map_append, hpend, hcb]
  simp only [List.map_map, Function.comp_def]

/-- As long as no null reply came, every callback delivered. -/
theorem delivered_awaiters (h : ∀ m ∈ callbacks es, m.2 ≠ none) :
    (delivered es).map Prod.fst = (callbacks es).map Prod.fst := by
  induction es with
  | nil => rfl
  | cons e es ih =>
      cases e with
      | callback a reply =>
          cases reply with
          | none => exact absurd rfl (h (a, none) List.mem_cons_self)
          | some r =>
              exact congrArg (a :: ·)
                (ih fun m hm => h m (List.mem_cons_of_mem _ hm))
      | sent k a cmd => exact ih h
      | submitted a buf => exact ih h
      | accepted a cmd => exact ih h
      | refused a => exact ih h
      | resumed k a v => exact ih h
      | dangling a => exact ih h

/-- **THE QUEUE IS WHAT IS OUT**: until the context is freed, hiredis' queue
    is the replies on their way back, then the requests on their way out. -/
theorem queue_eq (h : LinkSound H lk es ops)
    (hctx : lk.session.ctx ≠ .freeing) :
    lk.session.replies
      = lk.outbox.map Prod.fst ++ lk.inbox.map Prod.fst := by
  obtain ⟨lost, hreq, hlost⟩ := h.requests
  rw [hlost hctx, List.append_nil] at hreq
  have hops : ops.map Op.id
      = (delivered es).map Prod.fst ++ lk.outbox.map Prod.fst := by
    have := congrArg (List.map Prod.fst) h.replies
    simpa only [List.map_map, List.map_append, Function.comp_def] using this
  have hall : (callbacks es).map Prod.fst ++ lk.session.replies
      = (callbacks es).map Prod.fst
        ++ (lk.outbox.map Prod.fst ++ lk.inbox.map Prod.fst) := by
    calc (callbacks es).map Prod.fst ++ lk.session.replies
        = (requested H es).map Prod.fst := by
          rw [requested_awaiters h, accepted_awaiters h]
      _ = ops.map Op.id ++ lk.inbox.map Prod.fst := by
          rw [hreq]
          simp only [List.map_append, List.map_map, Function.comp_def]
      _ = _ := by
          rw [hops, delivered_awaiters (h.whole hctx), List.append_assoc]
  exact List.append_cancel_left hall

/-! ### What each kind of step does to the accounts -/

variable {prog : CoroHandle → Program} {s' : Session}
  {es' : List CoroCommand.Event} {l : CoroCommand.Label}

/-- A coroutine that does not meet a connected context sends nothing. -/
theorem requested_issued {s : Session} (h : Issued H prog s es')
    (hctx : s.ctx = .freeing) : requested H es' = [] := by
  cases h with
  | nothing => rfl
  | refused => rfl
  | queued hp hq =>
      rw [hctx] at hq
      exact absurd hq (by simp [Hiredis.queues])

theorem requested_answered {s : Session} (h : Answered s l es') :
    requested H es' = [] ∧ accepted es' = [] := by
  cases h with
  | quiet _ => exact ⟨rfl, rfl⟩
  | callback _ _ => exact ⟨rfl, rfl⟩

theorem callbacks_issued {s : Session} (h : Issued H prog s es') :
    callbacks es' = [] ∧ delivered es' = [] := by
  cases h with
  | nothing => exact ⟨rfl, rfl⟩
  | queued _ _ => exact ⟨rfl, rfl⟩
  | refused => exact ⟨rfl, rfl⟩

/-- A step sends one command at most, on the fresh awaiter. -/
theorem sent_step {s : Session} {es₁ es₂ : List CoroCommand.Event}
    (hans : Answered s l es₁) (hiss : Issued H prog s es₂) :
    ∃ k cmd, (∀ k' a cmd', CoroCommand.Event.sent k' a cmd' ∈ es₁ ++ es₂ →
        k' = k ∧ a = s.nextAwaiter ∧ cmd' = cmd)
      ∧ ∀ a buf, CoroCommand.Event.submitted a buf ∈ es₁ ++ es₂ →
        CoroCommand.Event.sent k a cmd ∈ es₁ ++ es₂ := by
  have hpas : ∀ e ∈ es₁, (∀ k a cmd, e ≠ .sent k a cmd)
      ∧ ∀ a buf, e ≠ .submitted a buf := by
    cases hans with
    | quiet _ => simp
    | callback _ _ => simp
  have hissued : ∃ k cmd, (∀ k' a cmd', CoroCommand.Event.sent k' a cmd' ∈ es₂ →
        k' = k ∧ a = s.nextAwaiter ∧ cmd' = cmd)
      ∧ ∀ a buf, CoroCommand.Event.submitted a buf ∈ es₂ →
        CoroCommand.Event.sent k a cmd ∈ es₂ := by
    cases hiss with
    | nothing => exact ⟨0, ⟨[], .deal .string⟩, by simp, by simp⟩
    | @queued k history cmd _ _ =>
        refine ⟨k, cmd, by simp, ?_⟩
        intro a buf hm
        simp only [List.mem_cons, reduceCtorEq, CoroCommand.Event.submitted.injEq,
          List.not_mem_nil, or_false, false_or] at hm
        rw [hm.1]
        exact List.mem_cons_self
    | @refused k history cmd _ =>
        refine ⟨k, cmd, by simp, ?_⟩
        intro a buf hm
        simp only [List.mem_cons, reduceCtorEq, CoroCommand.Event.submitted.injEq,
          List.not_mem_nil, or_false, false_or] at hm
        rw [hm.1]
        exact List.mem_cons_self
  obtain ⟨k, cmd, hone, hsub⟩ := hissued
  refine ⟨k, cmd, ?_, ?_⟩
  · intro k' a cmd' hm
    rcases List.mem_append.mp hm with hold | hnew
    · exact absurd rfl ((hpas _ hold).1 k' a cmd')
    · exact hone k' a cmd' hnew
  · intro a buf hm
    rcases List.mem_append.mp hm with hold | hnew
    · exact absurd rfl ((hpas _ hold).2 a buf)
    · exact List.mem_append_right _ (hsub a buf hnew)

/-- What a step delivers is the answer its label brings. -/
theorem callbacks_answered {s : Session} (h : Answered s l es') :
    (callbacks es').map Prod.snd = answers [l] := by
  cases h with
  | quiet hans => exact hans.symm
  | callback _ hans => exact hans.symm

/-- **STEP OF A CONNECTION**: what it delivers was on its way back, and what
    hiredis accepts is now on its way out. -/
theorem linkSound_session (hw : Worded H prog) (h : LinkSound H lk es ops)
    (hstep : CoroCommand.step H prog lk.session l = some (s', es'))
    {outbox : List (AwaiterPtr × RedisReply)}
    (hout : delivered es' ++ outbox = lk.outbox) :
    LinkSound H ⟨s', lk.inbox ++ requested H es', outbox⟩ (es ++ es') ops := by
  obtain ⟨hlinked, -⟩ := linked_step H prog h.linked hstep
  obtain ⟨⟨es₁, es₂, rfl, hans, hiss⟩, hfree, hnull⟩ := step_shows h.linked hstep
  have hback : s'.ctx ≠ .freeing → lk.session.ctx ≠ .freeing :=
    fun hne hctx => hne (hfree hctx)
  have hacc : accepted (es₁ ++ es₂) = accepted es₂ := by
    rw [accepted_append, (requested_answered (H := H) hans).2]
    rfl
  obtain ⟨k₀, cmd₀, hone, hsub⟩ := sent_step hans hiss
  refine ⟨hlinked, ?_, ?_, ?_, ?_, ?_, ?_, ?_⟩
  · intro m hm
    rw [accepted_append, hacc] at hm
    rcases List.mem_append.mp hm with hold | hnew
    · exact h.worded m hold
    · cases hiss with
      | nothing => exact absurd hnew List.not_mem_nil
      | refused => exact absurd hnew List.not_mem_nil
      | @queued k history cmd hp hq =>
          obtain rfl := List.mem_singleton.mp hnew
          refine hw k history cmd hp ?_
          simp only [Hiredis.queues, Bool.and_eq_true, decide_eq_true_eq] at hq ⊢
          exact ⟨trivial, hq.2⟩
  · intro a buf hm
    rcases List.mem_append.mp hm with hold | hnew
    · obtain ⟨k, cmd, hs⟩ := h.awaited a buf hold
      exact ⟨k, cmd, List.mem_append_left _ hs⟩
    · exact ⟨k₀, cmd₀, List.mem_append_right _ (hsub a buf hnew)⟩
  · intro k a cmd k' cmd' hm hm'
    -- the fresh awaiter is not one of those sent before
    rcases List.mem_append.mp hm with hold | hnew
    · rcases List.mem_append.mp hm' with hold' | hnew'
      · exact h.unique k a cmd k' cmd' hold hold'
      · obtain ⟨-, rfl, -⟩ := hone k' a cmd' hnew'
        exact absurd (h.linked.bound _ _ _ hold) (Nat.lt_irrefl _)
    · obtain ⟨rfl, rfl, rfl⟩ := hone k a cmd hnew
      rcases List.mem_append.mp hm' with hold' | hnew'
      · exact absurd (h.linked.bound _ _ _ hold') (Nat.lt_irrefl _)
      · obtain ⟨rfl, -, rfl⟩ := hone k' _ cmd' hnew'
        exact ⟨rfl, rfl⟩
  · intro m hm
    rw [accepted_append, hacc] at hm
    rcases List.mem_append.mp hm with hold | hnew
    · exact List.mem_append_left _ (h.submitted m hold)
    · refine List.mem_append_right _ (List.mem_append_right _ ?_)
      cases hiss with
      | nothing => exact absurd hnew List.not_mem_nil
      | refused => exact absurd hnew List.not_mem_nil
      | @queued k history cmd hp hq =>
          obtain rfl := List.mem_singleton.mp hnew
          simp
  · obtain ⟨lost, hreq, hlost⟩ := h.requests
    have hnew : requested H (es₁ ++ es₂) = requested H es₂ := by
      rw [requested_append, (requested_answered hans).1, List.nil_append]
    refine ⟨lost, ?_, fun hne => hlost (hback hne)⟩
    rw [requested_append, hreq, hnew]
    by_cases hctx : lk.session.ctx = .freeing
    · rw [requested_issued hiss hctx, List.append_nil, List.append_nil]
    · rw [hlost hctx]
      simp only [List.append_nil, List.append_assoc]
  · rw [delivered_append, h.replies, ← hout, List.append_assoc]
  · intro hne m hm
    rw [callbacks_append] at hm
    rcases List.mem_append.mp hm with hold | hcb
    · exact h.whole (hback hne) m hold
    · intro hnone
      rw [callbacks_append, (callbacks_issued hiss).1, List.append_nil] at hcb
      have hmem : none ∈ answers [l] := by
        rw [← callbacks_answered hans, ← hnone]
        exact List.mem_map_of_mem hcb
      refine hback hne (hnull ?_)
      cases l with
      | nullReply => rfl
      | reply r => simp [answers] at hmem
      | start k => simp [answers] at hmem
      | wake k => simp [answers] at hmem
      | disconnect => simp [answers] at hmem
      | free => simp [answers] at hmem

/-- Only a reply delivers something. -/
theorem delivered_own (h : LinkSound H lk es ops)
    (hstep : CoroCommand.step H prog lk.session l = some (s', es'))
    (hl : ∀ r, l ≠ .reply r) : delivered es' = [] := by
  obtain ⟨⟨es₁, es₂, rfl, hans, hiss⟩, -, -⟩ := step_shows h.linked hstep
  rw [delivered_append, (callbacks_issued hiss).2, List.append_nil]
  cases hans with
  | quiet _ => rfl
  | @callback a rest reply k v _ hreply =>
      cases reply with
      | none => rfl
      | some r =>
          cases l with
          | reply r' => exact absurd rfl (hl r')
          | start k => simp [answers] at hreply
          | wake k => simp [answers] at hreply
          | disconnect => simp [answers] at hreply
          | free => simp [answers] at hreply
          | nullReply => simp [answers] at hreply

/-- **A REPLY MEETS ITS OWN AWAITER**: the reply that arrives is delivered to
    the awaiter whose request it answers. -/
theorem delivered_receive (h : LinkSound H lk es ops) {a : AwaiterPtr}
    {r : RedisReply} {rest : List (AwaiterPtr × RedisReply)}
    (hout : lk.outbox = (a, r) :: rest)
    (hstep : CoroCommand.step H prog lk.session (.reply r) = some (s', es')) :
    delivered es' = [(a, r)] := by
  have hq := queue_eq h (step_reply_ctx hstep)
  obtain ⟨⟨es₁, es₂, rfl, hans, hiss⟩, -, -⟩ := step_shows h.linked hstep
  rw [delivered_append, (callbacks_issued hiss).2, List.append_nil]
  cases hans with
  | quiet hnone => simp [answers] at hnone
  | @callback b rest' reply k v hr hreply =>
      have hrep : reply = some r := by
        simpa [answers] using hreply.symm
      rw [hr, hout, List.map_cons, List.cons_append] at hq
      rw [hrep, (List.cons.inj hq).1]
      rfl

/-- The server answers the oldest request. -/
theorem linkSound_serve (h : LinkSound H lk es ops) {a : AwaiterPtr}
    {argv : List Bytes} {rest : List (AwaiterPtr × List Bytes)}
    (hin : lk.inbox = (a, argv) :: rest) (r : RedisReply) :
    LinkSound H { lk with inbox := rest, outbox := lk.outbox ++ [(a, r)] } es
      (ops ++ [⟨a, argv, r⟩]) where
  linked := h.linked
  worded := h.worded
  awaited := h.awaited
  unique := h.unique
  submitted := h.submitted
  requests := by
    obtain ⟨lost, hreq, hlost⟩ := h.requests
    refine ⟨lost, ?_, hlost⟩
    rw [hreq, hin, List.map_append]
    simp only [List.append_assoc, List.map_cons, List.map_nil, List.cons_append,
      List.nil_append]
  replies := by
    rw [List.map_append, h.replies, List.append_assoc]
    rfl
  whole := h.whole

/-- What the server does not get any more is lost. -/
theorem linkSound_lose (h : LinkSound H lk es ops)
    (hctx : lk.session.ctx = .freeing) (n : Nat) :
    LinkSound H { lk with inbox := lk.inbox.take n } es ops where
  linked := h.linked
  worded := h.worded
  awaited := h.awaited
  unique := h.unique
  submitted := h.submitted
  requests := by
    obtain ⟨lost, hreq, -⟩ := h.requests
    refine ⟨lk.inbox.drop n ++ lost, ?_, fun hne => absurd hctx hne⟩
    rw [hreq, ← List.append_assoc, List.append_assoc (ops.map _) (lk.inbox.take n),
      List.take_append_drop]
  replies := h.replies
  whole := h.whole

/-- A request on its way has a verb. -/
theorem inbox_worded (h : LinkSound H lk es ops) {m : AwaiterPtr × List Bytes}
    (hm : m ∈ lk.inbox) :
    m ∈ requested H es ∧ m.2 ≠ [] := by
  obtain ⟨lost, hreq, -⟩ := h.requests
  have hmem : m ∈ requested H es := by
    rw [hreq]
    exact List.mem_append_left _ (List.mem_append_right _ hm)
  obtain ⟨cmd, hacc, hfmt⟩ := accepted_of_requested hmem
  obtain ⟨verb, args, hverb⟩ := h.worded _ hacc
  refine ⟨hmem, ?_⟩
  rw [hfmt] at hverb
  rw [Option.some.inj hverb]
  exact List.cons_ne_nil _ _

/-- What is on its way has not been executed. -/
theorem inbox_fresh (h : LinkSound H lk es ops) {a : AwaiterPtr}
    {argv : List Bytes} {rest : List (AwaiterPtr × List Bytes)}
    (hin : lk.inbox = (a, argv) :: rest) : a ∉ ops.map Op.id := by
  obtain ⟨lost, hreq, -⟩ := h.requests
  have hnd : ((requested H es).map Prod.fst).Nodup := by
    rw [requested_awaiters h]
    exact h.linked.distinct
  rw [hreq, hin] at hnd
  simp only [List.map_append, List.map_map, Function.comp_def, List.map_cons,
    List.append_assoc] at hnd
  intro ha
  refine (List.nodup_append.mp hnd).2.2 a ha a ?_ rfl
  exact List.mem_cons_self

end linkSound

/-! ## The accounts of all connections -/

section marks

variable {tr : List Event} {c : LinkId} {a : AwaiterPtr}

theorem call_mem_marks {argv : List Bytes}
    (h : Event.link c (.submitted a (some argv)) ∈ tr) :
    Mark.call (c, a) argv ∈ marks tr :=
  List.mem_filterMap.mpr ⟨_, h, rfl⟩

theorem effect_mem_marks {op : Op AwaiterPtr (List Bytes) RedisReply}
    (h : Event.served c op ∈ tr) : Mark.effect (onBehalf c op) ∈ marks tr :=
  List.mem_filterMap.mpr ⟨_, h, rfl⟩

/-- A call is a buffer that was submitted. -/
theorem submitted_of_call (h : (c, a) ∈ calls (marks tr)) :
    ∃ argv, Event.link c (.submitted a (some argv)) ∈ tr := by
  obtain ⟨m, hm, heq⟩ := List.mem_filterMap.mp h
  obtain ⟨e, he, hmark⟩ := List.mem_filterMap.mp hm
  unfold mark at hmark
  split at hmark
  · obtain rfl := Option.some.inj hmark
    obtain ⟨rfl, rfl⟩ := Prod.mk.inj (Option.some.inj heq)
    exact ⟨_, he⟩
  · obtain rfl := Option.some.inj hmark
    exact absurd heq (by simp)
  · exact absurd hmark (by simp)
  · obtain rfl := Option.some.inj hmark
    exact absurd heq (by simp)

/-- An effect is an execution. -/
theorem served_of_effect {op : Op Caller (List Bytes) RedisReply}
    (h : op ∈ effects (marks tr)) :
    ∃ c op', op = onBehalf c op' ∧ Event.served c op' ∈ tr := by
  obtain ⟨e, he, hmark⟩ := List.mem_filterMap.mp (mem_effects.mp h)
  unfold mark at hmark
  split at hmark
  · exact absurd (Option.some.inj hmark) (by simp)
  · exact absurd (Option.some.inj hmark) (by simp)
  · exact absurd hmark (by simp)
  · have heq := Option.some.inj hmark
    injection heq with heq
    exact ⟨_, _, heq.symm, he⟩

end marks

/-- All connections together: each one's accounts balance, and the server is
    where the executions took it. -/
structure Sound {σ : Type} (H : Hiredis) (S : Server σ) (w : World σ)
    (tr : List Event) : Prop where
  link : ∀ c, LinkSound H (w.links c) (linkTrace c tr) (executed c tr)
  state : w.state = S.after S.init (effects (marks tr))
  legal : S.Legal S.init (effects (marks tr))
  placed : AtEach Placed (marks tr)

section sound

variable {σ : Type} {H : Hiredis} {S : Server σ}
  {prog : LinkId → CoroHandle → Program} {w w' : World σ} {tr es : List Event}
  {l : Label}

theorem sound_init : Sound H S (World.init S) [] where
  link _ := linkSound_fresh H
  state := rfl
  legal := trivial
  placed := atEach_nil _

/-- A step of a connection executes nothing. -/
theorem effects_map_link (c : LinkId) (es : List CoroCommand.Event) :
    effects (marks (es.map (.link c))) = [] := by
  refine List.eq_nil_iff_forall_not_mem.mpr ?_
  intro op hop
  obtain ⟨c', op', -, hmem⟩ := served_of_effect hop
  obtain ⟨e, -, heq⟩ := List.mem_map.mp hmem
  exact absurd heq (by simp)

/-- A connection returns what was executed and calls what is fresh. -/
theorem placed_link (h : Sound H S w tr) {c : LinkId}
    {l : CoroCommand.Label} {s' : Session} {es' : List CoroCommand.Event}
    (hstep : CoroCommand.step H (prog c) (w.links c).session l = some (s', es'))
    {outbox : List (AwaiterPtr × RedisReply)}
    (hout : delivered es' ++ outbox = (w.links c).outbox) :
    AtEach Placed (marks (tr ++ es'.map (.link c))) := by
  have hc := h.link c
  obtain ⟨⟨es₁, es₂, rfl, hans, hiss⟩, -, -⟩ := step_shows hc.linked hstep
  rw [List.map_append, marks_append, marks_append, ← List.append_assoc]
  have hfirst : AtEach Placed (marks tr ++ marks (es₁.map (.link c)))
      ∧ calls (marks tr ++ marks (es₁.map (.link c))) = calls (marks tr) := by
    cases hans with
    | quiet _ =>
        show AtEach Placed (marks tr ++ []) ∧ calls (marks tr ++ []) = _
        rw [List.append_nil]
        exact ⟨h.placed, rfl⟩
    | @callback a rest reply k v _ _ =>
        cases reply with
        | none =>
            show AtEach Placed (marks tr ++ []) ∧ calls (marks tr ++ []) = _
            rw [List.append_nil]
            exact ⟨h.placed, rfl⟩
        | some r =>
            have hmem : (a, r) ∈ (executed c tr).map
                (fun op => (op.id, op.reply)) := by
              rw [hc.replies, ← hout]
              refine List.mem_append_right _ (List.mem_append_left _ ?_)
              exact List.mem_filterMap.mpr
                ⟨.callback a (some r), List.mem_cons_self, rfl⟩
            obtain ⟨op, hop, heq⟩ := List.mem_map.mp hmem
            obtain ⟨hid, hrep⟩ := Prod.mk.inj heq
            have hret : Placed (marks tr) (.ret (c, a) r) := by
              refine ⟨onBehalf c op,
                effect_mem_marks ((mem_executed c tr).mp hop), ?_, hrep⟩
              exact congrArg (c, ·) hid
            refine ⟨atEach_snoc.mpr ⟨h.placed, hret⟩, ?_⟩
            rw [calls_append]
            exact List.append_nil _
  -- the awaiter of a new command is one that nothing was submitted for
  have hfresh : (c, (w.links c).session.nextAwaiter) ∉ calls (marks tr) := by
    intro hin
    obtain ⟨argv, hsub⟩ := submitted_of_call hin
    obtain ⟨k, cmd, hsent⟩ := hc.awaited _ _ ((mem_linkTrace c tr).mpr hsub)
    exact absurd (hc.linked.bound _ _ _ hsent) (Nat.lt_irrefl _)
  have hcall : ∀ (k : CoroHandle) (cmd : Command) (e : CoroCommand.Event),
      marks [.link c e] = [] →
      AtEach Placed ((marks tr ++ marks (es₁.map (.link c)))
        ++ marks ([.sent k (w.links c).session.nextAwaiter cmd,
          .submitted (w.links c).session.nextAwaiter (H.fmt.format cmd.text),
          e].map (.link c))) := by
    intro k cmd e he
    have hsplit : marks ([.sent k (w.links c).session.nextAwaiter cmd,
          .submitted (w.links c).session.nextAwaiter (H.fmt.format cmd.text),
          e].map (.link c))
        = marks [.link c (.submitted (w.links c).session.nextAwaiter
            (H.fmt.format cmd.text))] := by
      show marks ([.link c (.submitted _ _)] ++ [.link c e]) = _
      rw [marks_append, he, List.append_nil]
    rw [hsplit]
    cases hf : H.fmt.format cmd.text with
    | none =>
        show AtEach Placed (_ ++ [])
        rw [List.append_nil]
        exact hfirst.1
    | some argv =>
        refine atEach_snoc.mpr ⟨hfirst.1, ?_⟩
        show _ ∉ calls _
        rw [hfirst.2]
        exact hfresh
  cases hiss with
  | nothing =>
      show AtEach Placed (_ ++ [])
      rw [List.append_nil]
      exact hfirst.1
  | @queued k history cmd _ _ => exact hcall k cmd _ rfl
  | @refused k history cmd _ => exact hcall k cmd _ rfl

/-- A step of one connection keeps all accounts. -/
theorem sound_link (hw : ∀ c, Worded H (prog c)) (h : Sound H S w tr)
    {c : LinkId} {l : CoroCommand.Label}
    {outbox : List (AwaiterPtr × RedisReply)}
    (hls : LinkStep H prog w c l outbox w' es)
    (hout : ∀ s es', CoroCommand.step H (prog c) (w.links c).session l
      = some (s, es') → delivered es' ++ outbox = (w.links c).outbox) :
    Sound H S w' (tr ++ es) := by
  obtain ⟨s, es', hstep, rfl, rfl⟩ := hls
  refine ⟨?_, ?_, ?_, placed_link h hstep (hout s es' hstep)⟩
  · intro c'
    rw [linkTrace_append, executed_append, executed_map_link, List.append_nil]
    by_cases hc : c' = c
    · subst hc
      rw [linkTrace_map_link]
      show LinkSound H (Function.update w.links c' _ c') _ _
      rw [Function.update_self]
      exact linkSound_session (hw c') (h.link c') hstep (hout s es' hstep)
    · rw [linkTrace_map_link_of_ne c' es' (Ne.symm hc), List.append_nil]
      show LinkSound H (Function.update w.links c _ c') _ _
      rw [Function.update_of_ne hc]
      exact h.link c'
  · rw [marks_append, effects_append, effects_map_link, List.append_nil]
    exact h.state
  · rw [marks_append, effects_append, effects_map_link, List.append_nil]
    exact h.legal

/-- The server executes the oldest request of a connection. -/
theorem sound_serve (h : Sound H S w tr) {c : LinkId} {a : AwaiterPtr}
    {argv : List Bytes} {rest : List (AwaiterPtr × List Bytes)}
    (hin : (w.links c).inbox = (a, argv) :: rest) :
    Sound H S
      { w.setLink c { w.links c with
          inbox := rest
          outbox := (w.links c).outbox ++ [(a, (S.apply w.state argv).2)] }
        with state := (S.apply w.state argv).1 }
      (tr ++ [.served c ⟨a, argv, (S.apply w.state argv).2⟩]) where
  link c' := by
    rw [linkTrace_append, executed_append]
    show LinkSound H (Function.update w.links c _ c') (linkTrace c' tr ++ []) _
    rw [List.append_nil]
    by_cases hc : c' = c
    · subst hc
      rw [Function.update_self, executed_served, if_pos rfl]
      exact linkSound_serve (h.link c') hin _
    · rw [Function.update_of_ne hc, executed_served, if_neg (Ne.symm hc),
        List.append_nil]
      exact h.link c'
  state := by
    rw [marks_append, effects_append, after_append, ← h.state]
    rfl
  legal := by
    rw [marks_append, effects_append]
    refine (legal_snoc S _ _ (onBehalf c _)).mpr ⟨h.legal, ?_⟩
    rw [← h.state]
    rfl
  placed := by
    rw [marks_append]
    refine atEach_snoc.mpr ⟨h.placed, ?_, ?_⟩
    · -- the request was accepted, so its buffer was submitted
      have hmem : (a, argv) ∈ (w.links c).inbox := by
        rw [hin]
        exact List.mem_cons_self
      obtain ⟨cmd, hacc, hfmt⟩ :=
        accepted_of_requested (inbox_worded (h.link c) hmem).1
      have hsub := (h.link c).submitted _ hacc
      rw [hfmt] at hsub
      exact call_mem_marks ((mem_linkTrace c tr).mp hsub)
    · intro hid
      obtain ⟨op, hop, heq⟩ := List.mem_map.mp hid
      obtain ⟨c', op', rfl, hserved⟩ := served_of_effect hop
      obtain ⟨rfl, hid'⟩ := Prod.mk.inj heq
      refine inbox_fresh (h.link c') hin ?_
      exact List.mem_map.mpr ⟨op', (mem_executed c' tr).mpr hserved, hid'⟩

/-- **STEP**: whatever the scheduler does, all accounts balance. -/
theorem sound_step (hw : ∀ c, Worded H (prog c)) (h : Sound H S w tr)
    (hstep : step H S prog w l = some (w', es)) : Sound H S w' (tr ++ es) := by
  rcases step_cases hstep with ⟨c, l', hl, hls⟩ | ⟨c, a, r, rest, hout, hls⟩
    | ⟨c, a, rest, hin, -, -⟩ | ⟨c, a, verb, args, rest, hin, rfl, rfl⟩
    | ⟨c, n, hctx, rfl, rfl⟩
  · refine sound_link hw h hls ?_
    intro s es' hs
    rw [delivered_own (h.link c) hs hl]
    rfl
  · refine sound_link hw h hls ?_
    intro s es' hs
    rw [delivered_receive (h.link c) hout hs, hout]
    rfl
  · -- no request without a verb is ever on its way
    have hmem : (a, []) ∈ (w.links c).inbox := by
      rw [hin]
      exact List.mem_cons_self
    exact absurd rfl (inbox_worded (h.link c) hmem).2
  · exact sound_serve h hin
  · rw [List.append_nil]
    refine ⟨?_, h.state, h.legal, h.placed⟩
    intro c'
    show LinkSound H (Function.update w.links c _ c') _ _
    by_cases hc : c' = c
    · subst hc
      rw [Function.update_self]
      exact linkSound_lose (h.link c') hctx n
    · rw [Function.update_of_ne hc]
      exact h.link c'

/-- **RUN**: the accounts balance in every reachable state. -/
theorem sound_run (hw : ∀ c, Worded H (prog c)) {ls : List Label}
    (h : Run (step H S prog) (World.init S) ls w tr) : Sound H S w tr :=
  h.invariant (Sound H S) sound_init
    (fun _ _ _ _ _ hinv hstep => sound_step hw hinv hstep)

end sound

end Cluster
