import CoroRedis.CommandProofs
import CoroRedis.Lib.PipelineProofs

/-! # Replies reach their own awaiter

    The connection refines a `Pipeline` whose requests are the accepted
    commands and whose answers are the replies of the server, or the null
    replies of the sweep.  `Linked` ties the three views of an outstanding
    command together: its callback in hiredis' queue, its live awaiter, and
    the coroutine suspended on it.

    * `linked_arrive` — what an external event does keeps `Linked`;
    * `linked_advance` — so does running a coroutine to its next suspension,
      also from inside a callback;
    * `replies_reach_own_awaiter` — the guarantee for every run. -/

namespace CommandOrder

open CoroBytes HiredisFormat RedisReplies TaskAwaiters CoroCommand RunLog
open Pipelining

/-! ## Reading a trace -/

/-- The accepted commands with their awaiters, in the order of acceptance. -/
def accepted (tr : List Event) : List (AwaiterPtr × Command) :=
  tr.filterMap fun e => match e with
    | .accepted a cmd => some (a, cmd)
    | _ => none

/-- The callbacks hiredis ran, in order. -/
def callbacks (tr : List Event) : List (AwaiterPtr × Option RedisReply) :=
  tr.filterMap fun e => match e with
    | .callback a reply => some (a, reply)
    | _ => none

/-- The awaiters resumed and what they yielded, in order. -/
def resumes (tr : List Event) : List (AwaiterPtr × Value) :=
  tr.filterMap fun e => match e with
    | .resumed _ a v => some (a, v)
    | _ => none

/-- What the awaits of coroutine `k` yielded, in order. -/
def yielded (k : CoroHandle) (tr : List Event) : List Value :=
  tr.filterMap fun e => match e with
    | .resumed k' _ v => if k' = k then some v else none
    | _ => none

/-- The results in what a coroutine has learnt. -/
def results (history : List Item) : List Value :=
  history.filterMap fun e => match e with
    | .result v => some v
    | .woken => none

/-- The replies the environment delivers: `none` is a null reply. -/
def answers (ls : List Label) : List (Option RedisReply) :=
  ls.filterMap fun l => match l with
    | .reply r => some (some r)
    | .nullReply => some none
    | _ => none

@[simp] theorem accepted_append (tr es : List Event) :
    accepted (tr ++ es) = accepted tr ++ accepted es := List.filterMap_append

@[simp] theorem callbacks_append (tr es : List Event) :
    callbacks (tr ++ es) = callbacks tr ++ callbacks es := List.filterMap_append

@[simp] theorem resumes_append (tr es : List Event) :
    resumes (tr ++ es) = resumes tr ++ resumes es := List.filterMap_append

@[simp] theorem yielded_append (k : CoroHandle) (tr es : List Event) :
    yielded k (tr ++ es) = yielded k tr ++ yielded k es :=
  List.filterMap_append

@[simp] theorem results_append (h h' : List Item) :
    results (h ++ h') = results h ++ results h' := List.filterMap_append

@[simp] theorem answers_append (ls ls' : List Label) :
    answers (ls ++ ls') = answers ls ++ answers ls' := List.filterMap_append

/-! What the events of one send and of one callback add. -/

section added

variable (tr : List Event) (k : CoroHandle) (a : AwaiterPtr) (cmd : Command)
  (reply : Option RedisReply) (v : Value)

@[simp] theorem accepted_sent :
    accepted (tr ++ [.sent k a cmd]) = accepted tr := by
  rw [accepted_append]
  exact List.append_nil _

@[simp] theorem callbacks_accepted :
    callbacks (tr ++ [.accepted a cmd]) = callbacks tr := by
  rw [callbacks_append]
  exact List.append_nil _

@[simp] theorem resumes_accepted :
    resumes (tr ++ [.accepted a cmd]) = resumes tr := by
  rw [resumes_append]
  exact List.append_nil _

@[simp] theorem yielded_accepted :
    yielded k (tr ++ [.accepted a cmd]) = yielded k tr := by
  rw [yielded_append]
  exact List.append_nil _

@[simp] theorem accepted_resumed :
    accepted (tr ++ [.callback a reply, .resumed k a v]) = accepted tr := by
  rw [accepted_append]
  exact List.append_nil _

end added

/-! ## The invariant -/

/-- Coroutine `k` is suspended on the live awaiter `a` of `cmd`. -/
def Waits (s : Session) (k : CoroHandle) (a : AwaiterPtr) (cmd : Command) :
    Prop :=
  (s.coros k).status = .suspended a ∧ s.awaiters a = some ⟨.suspended k, cmd⟩

/-- What must precede an event: a coroutine sends only when all it sent before
    has been resumed, and an awaiter is resumed right in its own callback,
    with the decoding of that callback's reply. -/
def Ordered (pre : List Event) : Event → Prop
  | .sent k _ _ =>
      ∀ b cmd, Event.sent k b cmd ∈ pre → ∃ v, Event.resumed k b v ∈ pre
  | .resumed k a v =>
      ∃ pre' reply cmd, pre = pre' ++ [.callback a reply]
        ∧ Event.sent k a cmd ∈ pre ∧ v = cmd.op.resumeCallback reply
        ∧ (reply = none → v.isNullopt = true)
  | .dangling _ => False
  | _ => True

/-- The connection seen as a pipeline of accepted commands and answers. -/
def Channel (s : Session) (tr : List Event)
    (p : Pipeline (AwaiterPtr × Command) (Option RedisReply)) : Prop :=
  p.sent = accepted tr ∧ p.answered = (callbacks tr).map Prod.snd
    ∧ p.pending.map Prod.fst = s.replies
    ∧ callbacks tr = p.matched.map (fun m => (m.1.1, m.2))
    ∧ resumes tr
        = p.matched.map (fun m => (m.1.1, m.1.2.op.resumeCallback m.2))

/-- Events the pipeline does not see leave it as it is. -/
theorem channel_quiet {s s' : Session} {tr : List Event} {e : Event}
    {p : Pipeline (AwaiterPtr × Command) (Option RedisReply)}
    (h : Channel s tr p) (hs : s'.replies = s.replies)
    (ha : accepted [e] = []) (hc : callbacks [e] = [])
    (hr : resumes [e] = []) : Channel s' (tr ++ [e]) p := by
  rw [Channel]
  rw [accepted_append, callbacks_append, resumes_append, ha, hc, hr,
    List.append_nil, List.append_nil, List.append_nil, hs]
  exact h

/-- Queue, live awaiters and suspended coroutines agree. -/
structure Linked (s : Session) (tr : List Event) : Prop where
  channel : ∃ p, Channel s tr p ∧ ∀ m ∈ p.pending, ∃ k, Waits s k m.1 m.2
  distinct : ((accepted tr).map Prod.fst).Nodup
  submitted : ∀ m ∈ accepted tr, ∃ k, Event.sent k m.1 m.2 ∈ tr
  bound : ∀ k a cmd, Event.sent k a cmd ∈ tr → a < s.nextAwaiter
  alive : ∀ k a, (s.coros k).status = .suspended a →
    ∃ cmd, Waits s k a cmd ∧ Event.sent k a cmd ∈ tr
  waiting : ∀ k a, (s.coros k).status = .suspended a →
    a ∈ (accepted tr).map Prod.fst → a ∈ s.replies
  settled : ∀ k a cmd, Event.sent k a cmd ∈ tr →
    (∃ v, Event.resumed k a v ∈ tr) ∨ (s.coros k).status = .suspended a
  learnt : ∀ k, results (s.coros k).history = yielded k tr
  order : AtEach Ordered tr

theorem linked_init : Linked Session.init [] where
  channel := ⟨.fresh, ⟨rfl, rfl, rfl, rfl, rfl⟩,
    fun _ hm => absurd hm List.not_mem_nil⟩
  distinct := List.nodup_nil
  submitted := by simp [accepted]
  bound := by simp
  alive := by simp [Session.init]
  waiting := by simp [Session.init]
  settled := by simp
  learnt _ := rfl
  order := atEach_nil _

/-- An awaiter has one coroutine and one command. -/
theorem waits_unique {s : Session} {k k' : CoroHandle} {a : AwaiterPtr}
    {cmd cmd' : Command} (h : Waits s k a cmd) (h' : Waits s k' a cmd') :
    k = k' ∧ cmd = cmd' := by
  have heq := h.2.symm.trans h'.2
  simp only [Option.some.injEq, CommandAwaiter.mk.injEq] at heq
  obtain ⟨hbase, hcmd⟩ := heq
  have hk := congrArg TaskAwaiter.hCoro hbase
  exact ⟨Option.some.inj hk, hcmd⟩

/-! ## Running a coroutine that is not on the connection -/

section setCoro

variable {s : Session} {tr : List Event} {k : CoroHandle} {c : Coroutine}

/-- Neither before nor after is `k` suspended on a command. -/
theorem suspended_setCoro (hk : ∀ a, (s.coros k).status ≠ .suspended a)
    (hc : ∀ a, c.status ≠ .suspended a) (k' : CoroHandle) (a : AwaiterPtr) :
    ((s.setCoro k c).coros k').status = .suspended a
      ↔ (s.coros k').status = .suspended a := by
  show (Function.update s.coros k c k').status = _ ↔ _
  by_cases h : k' = k
  · subst h
    rw [Function.update_self]
    exact ⟨fun h => absurd h (hc a), fun h => absurd h (hk a)⟩
  · rw [Function.update_of_ne h]

theorem linked_setCoro (h : Linked s tr)
    (hk : ∀ a, (s.coros k).status ≠ .suspended a)
    (hc : ∀ a, c.status ≠ .suspended a)
    (hist : results c.history = results (s.coros k).history) :
    Linked (s.setCoro k c) tr where
  channel := by
    obtain ⟨p, hch, hp⟩ := h.channel
    refine ⟨p, hch, ?_⟩
    intro m hm
    obtain ⟨k', hst, haw⟩ := hp m hm
    exact ⟨k', (suspended_setCoro hk hc k' m.1).mpr hst, haw⟩
  distinct := h.distinct
  submitted := h.submitted
  bound := h.bound
  alive k' a hst := by
    obtain ⟨cmd, hw, hs⟩ := h.alive k' a ((suspended_setCoro hk hc k' a).mp hst)
    exact ⟨cmd, ⟨hst, hw.2⟩, hs⟩
  waiting k' a hst :=
    h.waiting k' a ((suspended_setCoro hk hc k' a).mp hst)
  settled k' a cmd hs := by
    rcases h.settled k' a cmd hs with hr | hst
    · exact Or.inl hr
    · exact Or.inr ((suspended_setCoro hk hc k' a).mpr hst)
  learnt k' := by
    show results (Function.update s.coros k c k').history = _
    by_cases hkk : k' = k
    · subst hkk
      rw [Function.update_self, hist]
      exact h.learnt k'
    · rw [Function.update_of_ne hkk]
      exact h.learnt k'
  order := h.order

end setCoro

/-! ## Sending -/

/-- The session once coroutine `k` is suspended on a fresh awaiter of `cmd`,
    nothing being submitted yet. -/
def suspendOn (s : Session) (k : CoroHandle) (cmd : Command) : Session :=
  { s with
    awaiters := Function.update s.awaiters s.nextAwaiter
      (some ⟨.suspended k, cmd⟩)
    nextAwaiter := s.nextAwaiter + 1
    coros := Function.update s.coros k
      ⟨.suspended s.nextAwaiter, (s.coros k).history⟩ }

/-- A `co_await` ends with the coroutine suspended, and the callback either
    queued or not. -/
theorem coAwait_cases (H : Hiredis) (s : Session) (k : CoroHandle)
    (cmd : Command) :
    (H.queues s.ctx (H.fmt.format cmd.text) = true ∧ s.coAwait H k cmd
      = ({ suspendOn s k cmd with replies := s.replies ++ [s.nextAwaiter] },
        [.sent k s.nextAwaiter cmd,
          .submitted s.nextAwaiter (H.fmt.format cmd.text),
          .accepted s.nextAwaiter cmd]))
    ∨ (H.queues s.ctx (H.fmt.format cmd.text) = false ∧ s.coAwait H k cmd
      = (suspendOn s k cmd,
        [.sent k s.nextAwaiter cmd,
          .submitted s.nextAwaiter (H.fmt.format cmd.text),
          .refused s.nextAwaiter])) := by
  cases hq : H.queues s.ctx (H.fmt.format cmd.text) with
  | true =>
      refine Or.inl ⟨rfl, ?_⟩
      simp [Session.coAwait, Session.suspendCallback,
        Session.redisAsyncFormattedCommand, suspendOn, hq]
  | false =>
      refine Or.inr ⟨rfl, ?_⟩
      simp [Session.coAwait, Session.suspendCallback,
        Session.redisAsyncFormattedCommand, suspendOn, hq]

section send

variable {s : Session} {tr : List Event} {k : CoroHandle} {cmd : Command}

theorem waits_suspendOn : Waits (suspendOn s k cmd) k s.nextAwaiter cmd := by
  constructor
  · show (Function.update s.coros k _ k).status = _
    rw [Function.update_self]
  · exact Function.update_self _ _ _

/-- The awaits of the others are untouched. -/
theorem waits_suspendOn_of_ne {k' : CoroHandle} {a : AwaiterPtr}
    {cmd' : Command} (hk : k' ≠ k) (ha : a < s.nextAwaiter)
    (h : Waits s k' a cmd') : Waits (suspendOn s k cmd) k' a cmd' := by
  constructor
  · show (Function.update s.coros k _ k').status = _
    rw [Function.update_of_ne hk]
    exact h.1
  · show Function.update s.awaiters s.nextAwaiter _ a = _
    rw [Function.update_of_ne (Nat.ne_of_lt ha)]
    exact h.2

/-- Whoever is suspended once `k` has suspended is `k`, or was before. -/
theorem suspended_suspendOn {k' : CoroHandle} {a : AwaiterPtr}
    (hst : ((suspendOn s k cmd).coros k').status = .suspended a) :
    (k' = k ∧ a = s.nextAwaiter)
      ∨ (k' ≠ k ∧ (s.coros k').status = .suspended a) := by
  by_cases hkk : k' = k
  · subst hkk
    have hst' := waits_suspendOn.1.symm.trans hst
    injection hst' with ha
    exact Or.inl ⟨rfl, ha.symm⟩
  · refine Or.inr ⟨hkk, ?_⟩
    rw [← hst]
    show _ = (Function.update s.coros k _ k').status
    rw [Function.update_of_ne hkk]

/-- A coroutine that runs is not one that is suspended. -/
theorem ne_of_running {k' : CoroHandle} {a : AwaiterPtr}
    (hk : (s.coros k).status = .running)
    (h : (s.coros k').status = .suspended a) : k' ≠ k := by
  rintro rfl
  rw [hk] at h
  exact absurd h (by simp)

/-- Coroutine `k`, running, suspends on a fresh awaiter. -/
theorem linked_suspendOn (h : Linked s tr)
    (hk : (s.coros k).status = .running) :
    Linked (suspendOn s k cmd) (tr ++ [.sent k s.nextAwaiter cmd]) where
  channel := by
    obtain ⟨p, hch, hp⟩ := h.channel
    refine ⟨p, channel_quiet hch rfl rfl rfl rfl, ?_⟩
    intro m hm
    obtain ⟨k', hw⟩ := hp m hm
    obtain ⟨cmd', -, hs⟩ := h.alive k' m.1 hw.1
    exact ⟨k', waits_suspendOn_of_ne (ne_of_running hk hw.1)
      (h.bound k' m.1 cmd' hs) hw⟩
  -- hiredis accepts nothing here, so its side of the trace stays
  distinct := by
    rw [accepted_sent]
    exact h.distinct
  submitted m hm := by
    rw [accepted_sent] at hm
    obtain ⟨k', hs⟩ := h.submitted m hm
    exact ⟨k', List.mem_append_left _ hs⟩
  bound k' a cmd' hs := by
    show a < s.nextAwaiter + 1
    rcases List.mem_append.mp hs with hold | hnew
    · exact Nat.lt_succ_of_lt (h.bound k' a cmd' hold)
    · have := List.mem_singleton.mp hnew
      injection this with _ ha _
      rw [ha]
      exact Nat.lt_succ_self _
  alive k' a hst := by
    rcases suspended_suspendOn hst with ⟨rfl, rfl⟩ | ⟨hkk, hold⟩
    · exact ⟨cmd, waits_suspendOn, by simp⟩
    · obtain ⟨cmd', hw, hs⟩ := h.alive k' a hold
      exact ⟨cmd', waits_suspendOn_of_ne hkk (h.bound k' a cmd' hs) hw,
        List.mem_append_left _ hs⟩
  waiting k' a hst ha := by
    rw [accepted_sent] at ha
    rcases suspended_suspendOn hst with ⟨-, hfresh⟩ | ⟨-, hold⟩
    · -- the fresh awaiter has not been accepted
      obtain ⟨m, hm, rfl⟩ := List.mem_map.mp ha
      obtain ⟨k₂, hs⟩ := h.submitted m hm
      exact absurd hfresh (Nat.ne_of_lt (h.bound k₂ m.1 m.2 hs))
    · exact h.waiting k' a hold ha
  settled k' a cmd' hs := by
    rcases List.mem_append.mp hs with hold | hnew
    · rcases h.settled k' a cmd' hold with ⟨v, hr⟩ | hst
      · exact Or.inl ⟨v, List.mem_append_left _ hr⟩
      · refine Or.inr ?_
        show (Function.update s.coros k _ k').status = _
        rw [Function.update_of_ne (ne_of_running hk hst)]
        exact hst
    · have := List.mem_singleton.mp hnew
      injection this with hkk ha _
      subst hkk ha
      exact Or.inr waits_suspendOn.1
  learnt k' := by
    have hy : yielded k' (tr ++ [.sent k s.nextAwaiter cmd]) = yielded k' tr := by
      simp [yielded]
    rw [hy, ← h.learnt k']
    show results (Function.update s.coros k _ k').history = _
    by_cases hkk : k' = k
    · subst hkk
      rw [Function.update_self]
    · rw [Function.update_of_ne hkk]
  order := by
    refine atEach_snoc.mpr ⟨h.order, ?_⟩
    -- `k` runs, so nothing it sent is still suspended
    intro b cmd' hs
    rcases h.settled k b cmd' hs with hr | hst
    · exact hr
    · exact absurd rfl (ne_of_running hk hst)

/-- An event that nobody but an observer notices. -/
theorem linked_quiet {e : Event} (h : Linked s tr) (ho : Ordered tr e)
    (ha : accepted [e] = []) (hc : callbacks [e] = []) (hr : resumes [e] = [])
    (hy : ∀ k, yielded k [e] = []) (hs : ∀ k a cmd, e ≠ .sent k a cmd) :
    Linked s (tr ++ [e]) where
  channel := by
    obtain ⟨p, hch, hp⟩ := h.channel
    exact ⟨p, channel_quiet hch rfl ha hc hr, hp⟩
  distinct := by
    rw [accepted_append, ha, List.append_nil]
    exact h.distinct
  submitted m hm := by
    rw [accepted_append, ha, List.append_nil] at hm
    obtain ⟨k', hm'⟩ := h.submitted m hm
    exact ⟨k', List.mem_append_left _ hm'⟩
  bound k' a cmd' hm := by
    rcases List.mem_append.mp hm with hold | hnew
    · exact h.bound k' a cmd' hold
    · exact absurd (List.mem_singleton.mp hnew).symm (hs k' a cmd')
  alive k' a hst := by
    obtain ⟨cmd', hw, hm⟩ := h.alive k' a hst
    exact ⟨cmd', hw, List.mem_append_left _ hm⟩
  waiting k' a hst hm := by
    rw [accepted_append, ha, List.append_nil] at hm
    exact h.waiting k' a hst hm
  settled k' a cmd' hm := by
    rcases List.mem_append.mp hm with hold | hnew
    · rcases h.settled k' a cmd' hold with ⟨v, hv⟩ | hst
      · exact Or.inl ⟨v, List.mem_append_left _ hv⟩
      · exact Or.inr hst
    · exact absurd (List.mem_singleton.mp hnew).symm (hs k' a cmd')
  learnt k' := by
    rw [yielded_append, hy k', List.append_nil]
    exact h.learnt k'
  order := atEach_snoc.mpr ⟨h.order, ho⟩

/-- hiredis queues the callback of an awaiter it has not seen. -/
theorem linked_accept {a : AwaiterPtr} (h : Linked s tr)
    (hw : Waits s k a cmd) (hs : Event.sent k a cmd ∈ tr)
    (hnew : a ∉ (accepted tr).map Prod.fst) :
    Linked { s with replies := s.replies ++ [a] } (tr ++ [.accepted a cmd]) where
  channel := by
    -- the abstract pipeline sends what hiredis queues
    obtain ⟨p, ⟨hsent, hans, hpend, hcb, hres⟩, hp⟩ := h.channel
    refine ⟨p.send (a, cmd), ⟨?_, ?_, ?_, ?_, ?_⟩, ?_⟩
    · rw [accepted_append, ← hsent]
      rfl
    · rw [callbacks_accepted]
      exact hans
    · rw [pending_send, List.map_append, hpend]
      rfl
    · rw [callbacks_accepted, matched_send]
      exact hcb
    · rw [resumes_accepted, matched_send]
      exact hres
    · intro m hm
      rw [pending_send] at hm
      rcases List.mem_append.mp hm with hold | hlast
      · exact hp m hold
      · rw [List.mem_singleton.mp hlast]
        exact ⟨k, hw⟩
  distinct := by
    rw [accepted_append, List.map_append]
    refine List.nodup_append.mpr ⟨h.distinct, List.nodup_singleton _, ?_⟩
    intro b hb c hc
    rw [List.mem_singleton.mp hc]
    rintro rfl
    exact hnew hb
  submitted m hm := by
    rw [accepted_append] at hm
    rcases List.mem_append.mp hm with hold | hlast
    · obtain ⟨k', hm'⟩ := h.submitted m hold
      exact ⟨k', List.mem_append_left _ hm'⟩
    · rw [List.mem_singleton.mp hlast]
      exact ⟨k, List.mem_append_left _ hs⟩
  bound k' b cmd' hm := by
    rcases List.mem_append.mp hm with hold | hlast
    · exact h.bound k' b cmd' hold
    · exact absurd (List.mem_singleton.mp hlast) (by simp)
  alive k' b hst := by
    obtain ⟨cmd', hw', hm⟩ := h.alive k' b hst
    exact ⟨cmd', hw', List.mem_append_left _ hm⟩
  waiting k' b hst hm := by
    rw [accepted_append, List.map_append] at hm
    rcases List.mem_append.mp hm with hold | hlast
    · exact List.mem_append_left _ (h.waiting k' b hst hold)
    · exact List.mem_append_right _ hlast
  settled k' b cmd' hm := by
    rcases List.mem_append.mp hm with hold | hlast
    · rcases h.settled k' b cmd' hold with ⟨v, hv⟩ | hst
      · exact Or.inl ⟨v, List.mem_append_left _ hv⟩
      · exact Or.inr hst
    · exact absurd (List.mem_singleton.mp hlast) (by simp)
  learnt k' := by
    rw [yielded_accepted]
    exact h.learnt k'
  order := atEach_snoc.mpr ⟨h.order, trivial⟩

/-- A running coroutine awaits a command. -/
theorem linked_coAwait (H : Hiredis) (h : Linked s tr)
    (hk : (s.coros k).status = .running) :
    Linked (s.coAwait H k cmd).1 (tr ++ (s.coAwait H k cmd).2) := by
  have hsus : Linked (suspendOn s k cmd) (tr ++ [.sent k s.nextAwaiter cmd]) :=
    linked_suspendOn h hk
  have hsub := linked_quiet hsus
    (e := .submitted s.nextAwaiter (H.fmt.format cmd.text)) trivial rfl rfl rfl
    (fun _ => rfl) (by simp)
  -- hiredis has not seen the fresh awaiter
  have hnew : s.nextAwaiter ∉ (accepted ((tr ++ [.sent k s.nextAwaiter cmd])
      ++ [.submitted s.nextAwaiter (H.fmt.format cmd.text)])).map Prod.fst := by
    rw [List.append_assoc, accepted_append]
    intro hm
    obtain ⟨m, hacc, hma⟩ := List.mem_map.mp hm
    obtain ⟨k', hs⟩ := h.submitted m (by simpa [accepted] using hacc)
    exact Nat.ne_of_lt (h.bound k' m.1 m.2 hs) hma
  rcases coAwait_cases H s k cmd with ⟨-, heq⟩ | ⟨-, heq⟩
  · have hacc := linked_accept hsub waits_suspendOn (by simp) hnew
    rw [List.append_assoc, List.append_assoc] at hacc
    rw [heq]
    exact hacc
  · have href := linked_quiet hsub (e := .refused s.nextAwaiter) trivial rfl rfl
      rfl (fun _ => rfl) (by simp)
    rw [List.append_assoc, List.append_assoc] at href
    rw [heq]
    exact href

/-- Running a coroutine to its next suspension. -/
theorem linked_advance (H : Hiredis) (prog : CoroHandle → Program)
    (h : Linked s tr) (hk : (s.coros k).status = .running) :
    Linked (s.advance H prog k).1 (tr ++ (s.advance H prog k).2) := by
  have hns : ∀ a, (s.coros k).status ≠ .suspended a := by
    intro a
    rw [hk]
    exact fun h => CoroStatus.noConfusion h
  rw [Session.advance]
  cases prog k (s.coros k).history with
  | send cmd => exact linked_coAwait H h hk
  | pause =>
      show Linked _ (tr ++ [])
      rw [List.append_nil]
      exact linked_setCoro h hns (by simp) rfl
  | finish =>
      show Linked _ (tr ++ [])
      rw [List.append_nil]
      exact linked_setCoro h hns (by simp) rfl

end send

/-! ## Delivering a reply -/

/-- The session once coroutine `k` has been resumed by the callback of `a`. -/
def resumeOn (s : Session) (k : CoroHandle) (a : AwaiterPtr)
    (rest : List AwaiterPtr) (v : Value) : Session :=
  { s with
    replies := rest
    awaiters := Function.update s.awaiters a none
    coros := Function.update s.coros k
      ⟨.running, (s.coros k).history ++ [.result v]⟩ }

section deliver

variable {s : Session} {tr : List Event} {k : CoroHandle} {a : AwaiterPtr}
  {cmd : Command} {rest : List AwaiterPtr}

/-- The callback of a suspended coroutine resumes it with the decoded reply. -/
theorem deliver_eq (hw : Waits s k a cmd) (reply : Option RedisReply) :
    s.deliver a rest reply
      = (resumeOn s k a rest (cmd.op.resumeCallback reply),
        [.callback a reply, .resumed k a (cmd.op.resumeCallback reply)],
        some k) := by
  have haw : s.awaiters a = some ⟨.suspended k, cmd⟩ := hw.2
  simp only [Session.deliver, haw, TaskAwaiter.suspended_hCoro]
  cases reply with
  | none => rfl
  | some r => rfl

/-- The front of the queue is the oldest pending command, and a coroutine is
    suspended on it. -/
theorem waits_front (h : Linked s tr) (hr : s.replies = a :: rest) :
    ∃ k cmd, Waits s k a cmd ∧ ∃ p r, Channel s tr p ∧ p.pending = (a, cmd) :: r
      ∧ r.map Prod.fst = rest ∧ ∀ m ∈ r, ∃ k, Waits s k m.1 m.2 := by
  obtain ⟨p, hch, hp⟩ := h.channel
  have hpend := hch.2.2.1
  rw [hr] at hpend
  cases hq : p.pending with
  | nil =>
      rw [hq] at hpend
      exact absurd hpend (by simp)
  | cons m r =>
      rw [hq] at hpend
      obtain ⟨hma, hrest⟩ := List.cons.inj hpend
      obtain ⟨k, hw⟩ := hp m (by rw [hq]; exact List.mem_cons_self)
      obtain ⟨b, cmd⟩ := m
      subst hma
      refine ⟨k, cmd, hw, p, r, hch, hq, hrest, ?_⟩
      intro m' hm'
      exact hp m' (by rw [hq]; exact List.mem_cons_of_mem _ hm')

/-- The others stay suspended. -/
theorem waits_resumeOn_of_ne {k' : CoroHandle} {b : AwaiterPtr}
    {cmd' : Command} {v : Value} (hk : k' ≠ k) (hb : b ≠ a)
    (h : Waits s k' b cmd') : Waits (resumeOn s k a rest v) k' b cmd' := by
  constructor
  · show (Function.update s.coros k _ k').status = _
    rw [Function.update_of_ne hk]
    exact h.1
  · show Function.update s.awaiters a none b = _
    rw [Function.update_of_ne hb]
    exact h.2

/-- The pipeline answers its oldest request. -/
theorem channel_resumeOn {p : Pipeline (AwaiterPtr × Command) (Option RedisReply)}
    {r : List (AwaiterPtr × Command)} {reply : Option RedisReply} {v : Value}
    (hch : Channel s tr p) (hq : p.pending = (a, cmd) :: r)
    (hrest : r.map Prod.fst = rest) (hv : v = cmd.op.resumeCallback reply) :
    Channel (resumeOn s k a rest v)
      (tr ++ [.callback a reply, .resumed k a v]) (p.answer hq reply) := by
  obtain ⟨hsent, hans, -, hcb, hres⟩ := hch
  refine ⟨?_, ?_, ?_, ?_, ?_⟩
  · rw [accepted_resumed]
    exact hsent
  · rw [callbacks_append, List.map_append, ← hans]
    rfl
  · rw [pending_answer]
    exact hrest
  · rw [callbacks_append, matched_answer, List.map_append, ← hcb]
    rfl
  · rw [resumes_append, matched_answer, List.map_append, ← hres, hv]
    rfl

/-- Who is suspended after the callback was suspended before it, on another
    awaiter. -/
theorem suspended_resumeOn (h : Linked s tr) (hw : Waits s k a cmd) {v : Value}
    {k' : CoroHandle} {b : AwaiterPtr}
    (hst : ((resumeOn s k a rest v).coros k').status = .suspended b) :
    k' ≠ k ∧ b ≠ a ∧ (s.coros k').status = .suspended b := by
  have hne : k' ≠ k := by
    rintro rfl
    have hrun : (Function.update s.coros k' _ k').status = _ := hst
    rw [Function.update_self] at hrun
    exact absurd hrun (by simp)
  have hold : (s.coros k').status = .suspended b := by
    rw [← hst]
    show _ = (Function.update s.coros k _ k').status
    rw [Function.update_of_ne hne]
  refine ⟨hne, ?_, hold⟩
  rintro rfl
  obtain ⟨cmd', hw', -⟩ := h.alive k' b hold
  exact hne (waits_unique hw' hw).1

/-- The callback at the front of the queue keeps everything linked. -/
theorem linked_resumeOn (h : Linked s tr) (hr : s.replies = a :: rest)
    (hw : Waits s k a cmd) {reply : Option RedisReply} {v : Value}
    (hv : v = cmd.op.resumeCallback reply)
    (hch : ∃ p, Channel (resumeOn s k a rest v)
        (tr ++ [.callback a reply, .resumed k a v]) p
      ∧ ∀ m ∈ p.pending, ∃ k', Waits (resumeOn s k a rest v) k' m.1 m.2) :
    Linked (resumeOn s k a rest v)
      (tr ++ [.callback a reply, .resumed k a v]) where
  channel := hch
  distinct := by
    rw [accepted_resumed]
    exact h.distinct
  submitted m hm := by
    rw [accepted_resumed] at hm
    obtain ⟨k', hs⟩ := h.submitted m hm
    exact ⟨k', List.mem_append_left _ hs⟩
  bound k' b cmd' hs := by
    rcases List.mem_append.mp hs with hold | hnew
    · exact h.bound k' b cmd' hold
    · exact absurd hnew (by simp)
  alive k' b hst := by
    obtain ⟨hne, hb, hold⟩ := suspended_resumeOn h hw hst
    obtain ⟨cmd', hw', hs⟩ := h.alive k' b hold
    exact ⟨cmd', waits_resumeOn_of_ne hne hb hw', List.mem_append_left _ hs⟩
  waiting k' b hst hb := by
    rw [accepted_resumed] at hb
    obtain ⟨-, hba, hold⟩ := suspended_resumeOn h hw hst
    -- only the front entry, `a`, leaves the queue
    have hmem := h.waiting k' b hold hb
    rw [hr] at hmem
    exact (List.mem_cons.mp hmem).resolve_left hba
  settled k' b cmd' hs := by
    rcases List.mem_append.mp hs with hold | hnew
    · rcases h.settled k' b cmd' hold with ⟨v', hv'⟩ | hst
      · exact Or.inl ⟨v', List.mem_append_left _ hv'⟩
      · by_cases hkk : k' = k
        · -- the coroutine of this callback
          subst hkk
          have hba := hst.symm.trans hw.1
          injection hba with hba
          subst hba
          exact Or.inl ⟨v, List.mem_append_right _ (by simp)⟩
        · refine Or.inr ?_
          show (Function.update s.coros k _ k').status = _
          rw [Function.update_of_ne hkk]
          exact hst
    · exact absurd hnew (by simp)
  learnt k' := by
    show results (Function.update s.coros k _ k').history = _
    rw [yielded_append, ← h.learnt k']
    by_cases hkk : k' = k
    · subst hkk
      rw [Function.update_self]
      simp [yielded, results]
    · rw [Function.update_of_ne hkk]
      simp [yielded, Ne.symm hkk]
  order := by
    obtain ⟨cmd', hw', hsent⟩ := h.alive k a hw.1
    obtain ⟨-, rfl⟩ := waits_unique hw hw'
    have hcb : AtEach Ordered (tr ++ [.callback a reply]) :=
      atEach_snoc.mpr ⟨h.order, trivial⟩
    have hres : Ordered (tr ++ [.callback a reply]) (.resumed k a v) := by
      refine ⟨tr, reply, cmd, rfl, List.mem_append_left _ hsent, hv, ?_⟩
      rintro rfl
      rw [hv]
      exact resumeCallback_none cmd.op
    have := atEach_snoc.mpr ⟨hcb, hres⟩
    rw [List.append_assoc] at this
    exact this

/-- hiredis' oldest callback resumes the coroutine suspended on it. -/
theorem linked_deliver (h : Linked s tr) (hr : s.replies = a :: rest)
    (reply : Option RedisReply) :
    ∃ k v, s.deliver a rest reply
        = (resumeOn s k a rest v, [.callback a reply, .resumed k a v], some k)
      ∧ Linked (resumeOn s k a rest v)
        (tr ++ [.callback a reply, .resumed k a v])
      ∧ ((resumeOn s k a rest v).coros k).status = .running := by
  obtain ⟨k, cmd, hw, p, r, hch, hq, hrest, hp⟩ := waits_front h hr
  refine ⟨k, _, deliver_eq hw reply, ?_, ?_⟩
  · refine linked_resumeOn h hr hw rfl
      ⟨p.answer hq reply, channel_resumeOn hch hq hrest rfl, ?_⟩
    -- no awaiter is queued twice, so the others keep their callbacks
    have hnd : (p.pending.map Prod.fst).Nodup := by
      refine pending_map_nodup p Prod.fst ?_
      rw [hch.1]
      exact h.distinct
    rw [hq, List.map_cons, List.nodup_cons] at hnd
    intro m hm
    rw [pending_answer] at hm
    obtain ⟨k', hw'⟩ := hp m hm
    have hb : m.1 ≠ a := by
      intro hma
      exact hnd.1 (List.mem_map.mpr ⟨m, hm, hma⟩)
    have hne : k' ≠ k := by
      rintro rfl
      have hma := hw'.1.symm.trans hw.1
      injection hma with hma
      exact hb hma
    exact ⟨k', waits_resumeOn_of_ne hne hb hw'⟩
  · show (Function.update s.coros k _ k).status = _
    rw [Function.update_self]

end deliver

/-! ## One step, and every run -/

section run

variable {s s' : Session} {tr es : List Event} {l : Label}

/-- What an external event can do before a coroutine runs. -/
theorem arrive_cases {k : Option CoroHandle}
    (ha : arrive s l = some (s', es, k)) :
    (∃ k₀ items, (∀ a, (s.coros k₀).status ≠ .suspended a)
        ∧ results items = [] ∧ s' = s.wakeUp k₀ items ∧ es = []
        ∧ k = some k₀ ∧ answers [l] = [])
    ∨ (∃ ctx, s' = { s with ctx := ctx } ∧ es = [] ∧ k = none
        ∧ answers [l] = [])
    ∨ (∃ a rest reply, s.replies = a :: rest
        ∧ s.deliver a rest reply = (s', es, k) ∧ answers [l] = [reply]) := by
  cases l with
  | start k₀ =>
      by_cases hst : (s.coros k₀).status = .fresh
      · simp only [arrive, if_pos hst, Option.some.injEq, Prod.mk.injEq] at ha
        obtain ⟨rfl, rfl, rfl⟩ := ha
        exact Or.inl ⟨k₀, [], by simp [hst], rfl, rfl, rfl, rfl, rfl⟩
      · simp [arrive, hst] at ha
  | wake k₀ =>
      by_cases hst : (s.coros k₀).status = .paused
      · simp only [arrive, if_pos hst, Option.some.injEq, Prod.mk.injEq] at ha
        obtain ⟨rfl, rfl, rfl⟩ := ha
        exact Or.inl ⟨k₀, [.woken], by simp [hst], rfl, rfl, rfl, rfl, rfl⟩
      · simp [arrive, hst] at ha
  | reply r =>
      by_cases hst : s.ctx = .freeing
      · simp [arrive, hst] at ha
      · cases hr : s.replies with
        | nil => simp [arrive, hr] at ha
        | cons a rest =>
            simp only [arrive, if_neg hst, hr, Option.some.injEq] at ha
            exact Or.inr (Or.inr ⟨a, rest, some r, rfl, ha, rfl⟩)
  | disconnect =>
      by_cases hst : s.ctx = .connected
      · simp only [arrive, if_pos hst, Option.some.injEq, Prod.mk.injEq] at ha
        obtain ⟨rfl, rfl, rfl⟩ := ha
        exact Or.inr (Or.inl ⟨_, rfl, rfl, rfl, rfl⟩)
      · simp [arrive, hst] at ha
  | free =>
      by_cases hst : s.ctx = .freeing
      · simp [arrive, hst] at ha
      · simp only [arrive, if_neg hst, Option.some.injEq, Prod.mk.injEq] at ha
        obtain ⟨rfl, rfl, rfl⟩ := ha
        exact Or.inr (Or.inl ⟨_, rfl, rfl, rfl, rfl⟩)
  | nullReply =>
      by_cases hst : s.ctx = .freeing
      · cases hr : s.replies with
        | nil => simp [arrive, hr] at ha
        | cons a rest =>
            simp only [arrive, if_pos hst, hr, Option.some.injEq] at ha
            exact Or.inr (Or.inr ⟨a, rest, none, rfl, ha, rfl⟩)
      · simp [arrive, hst] at ha

/-- Before a coroutine runs, everything is linked and the coroutine that is
    let run is running. -/
theorem linked_arrive (h : Linked s tr) {k : Option CoroHandle}
    (ha : arrive s l = some (s', es, k)) :
    Linked s' (tr ++ es) ∧ (∀ k', k = some k' → (s'.coros k').status = .running)
      ∧ (callbacks es).map Prod.snd = answers [l] := by
  rcases arrive_cases ha with ⟨k₀, items, hns, hit, rfl, rfl, rfl, hans⟩
    | ⟨ctx, rfl, rfl, rfl, hans⟩ | ⟨a, rest, reply, hr, hd, hans⟩
  · rw [List.append_nil, hans]
    refine ⟨linked_setCoro h hns (by simp) (by simp [hit]), ?_, rfl⟩
    rintro k' hk
    obtain rfl := Option.some.inj hk
    show (Function.update s.coros k₀ _ k₀).status = _
    rw [Function.update_self]
  · rw [List.append_nil, hans]
    refine ⟨⟨h.channel, h.distinct, h.submitted, h.bound, h.alive, h.waiting,
      h.settled, h.learnt, h.order⟩, ?_, rfl⟩
    intro k' hk
    exact absurd hk (by simp)
  · obtain ⟨k₀, v, hd', hl, hrun⟩ := linked_deliver h hr reply
    rw [hd, Prod.mk.injEq, Prod.mk.injEq] at hd'
    obtain ⟨rfl, rfl, rfl⟩ := hd'
    rw [hans]
    refine ⟨hl, ?_, rfl⟩
    rintro k' hk
    obtain rfl := Option.some.inj hk
    exact hrun

/-- Sending runs no callback. -/
theorem callbacks_advance (H : Hiredis) (prog : CoroHandle → Program)
    (s : Session) (k : CoroHandle) : callbacks (s.advance H prog k).2 = [] := by
  rw [Session.advance]
  cases prog k (s.coros k).history with
  | send cmd =>
      show callbacks (s.coAwait H k cmd).2 = []
      rcases coAwait_cases H s k cmd with ⟨-, heq⟩ | ⟨-, heq⟩
      · rw [heq]
        rfl
      · rw [heq]
        rfl
  | pause => rfl
  | finish => rfl

/-- **STEP**: one external event, with all the coroutine does in it. -/
theorem linked_step (H : Hiredis) (prog : CoroHandle → Program)
    (h : Linked s tr) (hstep : step H prog s l = some (s', es)) :
    Linked s' (tr ++ es) ∧ (callbacks es).map Prod.snd = answers [l] := by
  rw [step] at hstep
  cases ha : arrive s l with
  | none => simp [ha] at hstep
  | some r =>
      obtain ⟨s₁, es₁, k⟩ := r
      obtain ⟨hl, hrun, hans⟩ := linked_arrive h ha
      cases k with
      | none =>
          simp only [ha, Option.some.injEq, Prod.mk.injEq] at hstep
          obtain ⟨rfl, rfl⟩ := hstep
          exact ⟨hl, hans⟩
      | some k =>
          simp only [ha, Option.some.injEq, Prod.mk.injEq] at hstep
          obtain ⟨rfl, rfl⟩ := hstep
          constructor
          · rw [← List.append_assoc]
            exact linked_advance H prog hl (hrun k rfl)
          · rw [callbacks_append, callbacks_advance, List.append_nil]
            exact hans

/-- **RUN**: queue, awaiters and coroutines agree in every reachable state,
    and the callbacks carry the environment's answers in order. -/
theorem linked_run {H : Hiredis} {prog : CoroHandle → Program}
    {ls : List Label} (h : Run (step H prog) Session.init ls s tr) :
    Linked s tr ∧ (callbacks tr).map Prod.snd = answers ls := by
  induction h with
  | start => exact ⟨linked_init, rfl⟩
  | next _ hstep ih =>
      obtain ⟨hl, hans⟩ := linked_step H prog ih.1 hstep
      refine ⟨hl, ?_⟩
      rw [callbacks_append, List.map_append, ih.2, hans, answers_append]

end run

/-! ## The guarantee -/

/-- Every reply reaches its own awaiter. -/
structure RepliesOwn (answers : List (Option RedisReply)) (s : Session)
    (tr : List Event) : Prop where
  /-- The `n`-th accepted command gets the `n`-th answer, its awaiter is the
      one whose callback runs and yields the decoding, and what has no answer
      yet is what hiredis has queued. -/
  inOrder : ∃ p : Pipeline (AwaiterPtr × Command) (Option RedisReply),
    p.sent = accepted tr ∧ p.answered = answers
      ∧ callbacks tr = p.matched.map (fun m => (m.1.1, m.2))
      ∧ resumes tr
          = p.matched.map (fun m => (m.1.1, m.1.2.op.resumeCallback m.2))
      ∧ s.replies = p.pending.map Prod.fst
  /-- No awaiter is resumed twice. -/
  once : ((resumes tr).map Prod.fst).Nodup
  /-- A coroutine learns exactly what its awaits yielded. -/
  learnt : ∀ k, results (s.coros k).history = yielded k tr
  /-- Sends wait for earlier resumptions; resumptions happen in the awaiter's
      own callback; no callback meets a dead awaiter. -/
  ordered : AtEach Ordered tr
  /-- The queued callbacks, each once, are those of the accepted commands a
      coroutine is suspended on. -/
  queue : s.replies.Nodup ∧ ∀ a, a ∈ s.replies ↔
    a ∈ (accepted tr).map Prod.fst ∧ ∃ k, (s.coros k).status = .suspended a
  /-- No two coroutines are suspended on one awaiter. -/
  own : ∀ a k k', (s.coros k).status = .suspended a →
    (s.coros k').status = .suspended a → k = k'

/-- What is linked owns its replies. -/
theorem repliesOwn_of_linked {s : Session} {tr : List Event}
    {ans : List (Option RedisReply)} (h : Linked s tr)
    (hans : (callbacks tr).map Prod.snd = ans) : RepliesOwn ans s tr := by
  obtain ⟨p, ⟨hsent, hanswered, hpend, hcb, hres⟩, hp⟩ := h.channel
  have hnd : (p.sent.map Prod.fst).Nodup := by
    rw [hsent]
    exact h.distinct
  exact
    { inOrder := ⟨p, hsent, hanswered.trans hans, hcb, hres, hpend.symm⟩
      once := by
        rw [hres, List.map_map]
        exact matched_map_nodup p Prod.fst hnd
      learnt := h.learnt
      ordered := h.order
      queue := by
        refine ⟨by rw [← hpend]; exact pending_map_nodup p Prod.fst hnd, ?_⟩
        intro a
        constructor
        · intro ha
          rw [← hpend] at ha
          obtain ⟨m, hm, rfl⟩ := List.mem_map.mp ha
          obtain ⟨k, hw⟩ := hp m hm
          have hmem : m ∈ accepted tr := by
            rw [← hsent, sent_eq p]
            exact List.mem_append_right _ hm
          exact ⟨List.mem_map_of_mem hmem, k, hw.1⟩
        · rintro ⟨hacc, k, hst⟩
          exact h.waiting k a hst hacc
      own := by
        intro a k k' hst hst'
        obtain ⟨cmd, hw, -⟩ := h.alive k a hst
        obtain ⟨cmd', hw', -⟩ := h.alive k' a hst'
        exact (waits_unique hw hw').1 }

/-- **REPLIES REACH THEIR OWN AWAITER**: any number of coroutines, any
    programs, any interleaving of sends, replies and a disconnect. -/
theorem replies_reach_own_awaiter (H : Hiredis) (prog : CoroHandle → Program)
    (ls : List Label) (s : Session) (tr : List Event)
    (h : Run (step H prog) Session.init ls s tr) :
    RepliesOwn (answers ls) s tr := by
  obtain ⟨hl, hans⟩ := linked_run h
  exact repliesOwn_of_linked hl hans

/-- Two coroutines ask for one key each; the first then increments a counter
    from inside its own callback. -/
def getThenIncr (k : CoroHandle) : Program := fun history =>
  match history.length with
  | 0 => .send ⟨lit "get a", .deal .string⟩
  | 1 => if k = 0 then .send ⟨lit "incr n", .deal .uint64⟩ else .finish
  | _ => .finish

/-- Two replies, then a disconnect sweeps the third command. -/
def getThenIncrLabels : List Label :=
  [.start 0, .start 1, .reply (bulk (lit "x")), .reply (bulk (lit "y")),
    .disconnect, .free, .nullReply]

theorem replies_reach_own_awaiter_getThenIncr :
    ∃ s tr, Run (step ⟨hiredisFormat, false⟩ getThenIncr) Session.init
        getThenIncrLabels s tr
      ∧ RepliesOwn (answers getThenIncrLabels) s tr
      ∧ resumes tr = [(0, .string (some (lit "x"))),
          (1, .string (some (lit "y"))), (2, .uint64 none)] := by
  obtain ⟨s, tr, hrun, hres⟩ : ∃ s tr,
      Run (step ⟨hiredisFormat, false⟩ getThenIncr) Session.init
        getThenIncrLabels s tr
      ∧ resumes tr = [(0, .string (some (lit "x"))),
          (1, .string (some (lit "y"))), (2, .uint64 none)] :=
    ⟨_, _, run_of_exec rfl, rfl⟩
  exact ⟨s, tr, hrun, replies_reach_own_awaiter _ _ _ s tr hrun, hres⟩

end CommandOrder
