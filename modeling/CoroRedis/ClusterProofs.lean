import CoroRedis.CommandOrderProofs
import CoroRedis.Lib.LinearProofs

/-! # Connections and the server they share — one system

    Any number of connections, each with its coroutines, talk to one server.
    A request that hiredis accepts is on its way to the server until it is
    executed; the reply is on its way back until hiredis reads it.  The server
    is a sequential object: it takes the oldest request of some connection,
    executes it and answers.  What it computes is a parameter.

    The scheduler decides who moves: a coroutine of one connection, the
    server, the network.  Freeing a context throws away what the server has
    not read yet, and nothing it still answers is read any more.

    A request carries its awaiter as a ghost: the server cannot see it.  A
    server skips an empty request without an answer; what is proved of runs is
    proved of programs that send none (`Worded`), since hiredis looks for the
    verb in what it queues. -/

namespace Cluster

open CoroBytes RedisReplies TaskAwaiters CoroCommand RunLog Linear

abbrev LinkId := Nat

/-- What the server does with an argument vector. -/
abbrev Server (σ : Type) := Object σ (List Bytes) RedisReply

/-- One connection with its two directions. -/
structure Link where
  session : Session
  /-- Requests the server has not executed yet, oldest first. -/
  inbox : List (AwaiterPtr × List Bytes)
  /-- Replies hiredis has not read yet, oldest first. -/
  outbox : List (AwaiterPtr × RedisReply)

/-- The server and all connections to it. -/
structure World (σ : Type) where
  state : σ
  links : LinkId → Link

inductive Event where
  | link (c : LinkId) (e : CoroCommand.Event)
  | served (c : LinkId) (op : Op AwaiterPtr (List Bytes) RedisReply)

/-- One move of the scheduler. -/
inductive Label where
  /-- An external event of one connection, other than a reply. -/
  | own (c : LinkId) (l : CoroCommand.Label)
  /-- The server executes the oldest request of a connection. -/
  | serve (c : LinkId)
  /-- hiredis reads the oldest reply of a connection. -/
  | receive (c : LinkId)
  /-- Of the requests of a freed context only `n` still reach the server. -/
  | lose (c : LinkId) (n : Nat)

/-- The requests among the accepted commands. -/
def requested (H : Hiredis) (es : List CoroCommand.Event) :
    List (AwaiterPtr × List Bytes) :=
  es.filterMap fun e => match e with
    | .accepted a cmd => (H.fmt.format cmd.text).map (a, ·)
    | _ => none

def Link.fresh : Link := ⟨Session.init, [], []⟩

def World.init {σ : Type} (S : Server σ) : World σ := ⟨S.init, fun _ => .fresh⟩

section step

variable {σ : Type}

def World.setLink (w : World σ) (c : LinkId) (lk : Link) : World σ :=
  { w with links := Function.update w.links c lk }

/-- Connection `c` takes a step; what hiredis accepts in it is on its way. -/
def World.onLink (w : World σ) (H : Hiredis) (prog : CoroHandle → Program)
    (c : LinkId) (l : CoroCommand.Label) (outbox : List (AwaiterPtr × RedisReply)) :
    Option (World σ × List Event) :=
  match CoroCommand.step H prog (w.links c).session l with
  | none => none
  | some (s, es) =>
      some (w.setLink c ⟨s, (w.links c).inbox ++ requested H es, outbox⟩,
        es.map (.link c))

/-- The transition function. -/
def step (H : Hiredis) (S : Server σ) (prog : LinkId → CoroHandle → Program)
    (w : World σ) : Label → Option (World σ × List Event)
  | .own _ (.reply _) => none
  | .own c l => w.onLink H (prog c) c l (w.links c).outbox
  | .serve c =>
      match (w.links c).inbox with
      | [] => none
      | (_, []) :: rest =>
          some (w.setLink c { w.links c with inbox := rest }, [])
      | (a, verb :: args) :: rest =>
          let r := S.apply w.state (verb :: args)
          some ({ w.setLink c { w.links c with
                    inbox := rest, outbox := (w.links c).outbox ++ [(a, r.2)] }
                  with state := r.1 },
            [.served c ⟨a, verb :: args, r.2⟩])
  | .receive c =>
      match (w.links c).outbox with
      | [] => none
      | (_, r) :: rest => w.onLink H (prog c) c (.reply r) rest
  | .lose c n =>
      if (w.links c).session.ctx = .freeing then
        some (w.setLink c
          { w.links c with inbox := (w.links c).inbox.take n }, [])
      else none

end step

/-! ## Reading a trace -/

def Event.seen (c : LinkId) : Event → Option CoroCommand.Event
  | .link c' e => if c' = c then some e else none
  | .served _ _ => none

def Event.execution (c : LinkId) :
    Event → Option (Op AwaiterPtr (List Bytes) RedisReply)
  | .link _ _ => none
  | .served c' op => if c' = c then some op else none

/-- What connection `c` saw. -/
def linkTrace (c : LinkId) (tr : List Event) : List CoroCommand.Event :=
  tr.filterMap (Event.seen c)

/-- What the server executed for connection `c`, in order. -/
def executed (c : LinkId) (tr : List Event) :
    List (Op AwaiterPtr (List Bytes) RedisReply) :=
  tr.filterMap (Event.execution c)

/-- The replies hiredis handed to callbacks. -/
def delivered (es : List CoroCommand.Event) : List (AwaiterPtr × RedisReply) :=
  es.filterMap fun e => match e with
    | .callback a (some r) => some (a, r)
    | _ => none

/-- Who asked: the connection and the awaiter on it. -/
abbrev Caller := LinkId × AwaiterPtr

/-- An operation of one connection among those of all. -/
def onBehalf (c : LinkId) (op : Op AwaiterPtr (List Bytes) RedisReply) :
    Op Caller (List Bytes) RedisReply :=
  ⟨(c, op.id), op.request, op.reply⟩

/-- The events as marks: a call is the buffer handed to hiredis, a return the
    callback with a reply. -/
def mark : Event → Option (Mark Caller (List Bytes) RedisReply)
  | .link c (.submitted a (some argv)) => some (.call (c, a) argv)
  | .link c (.callback a (some r)) => some (.ret (c, a) r)
  | .link _ _ => none
  | .served c op => some (.effect (onBehalf c op))

def marks (tr : List Event) : List (Mark Caller (List Bytes) RedisReply) :=
  tr.filterMap mark

section append

variable (c : LinkId) (H : Hiredis) (tr tr' : List Event)
  (es es' : List CoroCommand.Event)

@[simp] theorem linkTrace_append :
    linkTrace c (tr ++ tr') = linkTrace c tr ++ linkTrace c tr' :=
  List.filterMap_append

@[simp] theorem executed_append :
    executed c (tr ++ tr') = executed c tr ++ executed c tr' :=
  List.filterMap_append

@[simp] theorem marks_append : marks (tr ++ tr') = marks tr ++ marks tr' :=
  List.filterMap_append

@[simp] theorem delivered_append :
    delivered (es ++ es') = delivered es ++ delivered es' :=
  List.filterMap_append

@[simp] theorem requested_append :
    requested H (es ++ es') = requested H es ++ requested H es' :=
  List.filterMap_append

theorem seen_eq_some {e : Event} {e' : CoroCommand.Event} :
    e.seen c = some e' ↔ e = .link c e' := by
  cases e with
  | link c' e₁ =>
      by_cases hc : c' = c
      · simp [Event.seen, hc]
      · simp [Event.seen, hc]
  | served c' op => simp [Event.seen]

theorem execution_eq_some {e : Event}
    {op : Op AwaiterPtr (List Bytes) RedisReply} :
    e.execution c = some op ↔ e = .served c op := by
  cases e with
  | link c' e₁ => simp [Event.execution]
  | served c' op' =>
      by_cases hc : c' = c
      · simp [Event.execution, hc]
      · simp [Event.execution, hc]

/-- The events of one connection are its own. -/
theorem linkTrace_map_link : linkTrace c (es.map (.link c)) = es := by
  induction es with
  | nil => rfl
  | cons e es ih =>
      rw [List.map_cons, linkTrace,
        List.filterMap_cons_some ((seen_eq_some c).mpr rfl)]
      exact congrArg (e :: ·) ih

/-- Another connection does not see them. -/
theorem linkTrace_map_link_of_ne {c' : LinkId} (h : c' ≠ c) :
    linkTrace c (es.map (.link c')) = [] := by
  induction es with
  | nil => rfl
  | cons e es ih =>
      have hnone : Event.seen c (.link c' e) = none := if_neg h
      rw [List.map_cons, linkTrace, List.filterMap_cons_none hnone]
      exact ih

/-- A connection executes nothing. -/
theorem executed_map_link (c' : LinkId) :
    executed c (es.map (.link c')) = [] := by
  induction es with
  | nil => rfl
  | cons e es ih => exact ih

theorem executed_served (c' : LinkId)
    (op : Op AwaiterPtr (List Bytes) RedisReply) :
    executed c [.served c' op] = if c' = c then [op] else [] := by
  by_cases hc : c' = c
  · simp [executed, Event.execution, hc]
  · simp [executed, Event.execution, hc]

theorem mem_linkTrace {e : CoroCommand.Event} :
    e ∈ linkTrace c tr ↔ Event.link c e ∈ tr := by
  simp [linkTrace, List.mem_filterMap, seen_eq_some]

theorem mem_executed {op : Op AwaiterPtr (List Bytes) RedisReply} :
    op ∈ executed c tr ↔ Event.served c op ∈ tr := by
  simp [executed, List.mem_filterMap, execution_eq_some]

end append

/-! ## What a step can do -/

section cases

variable {σ : Type} {H : Hiredis} {S : Server σ}
  {prog : LinkId → CoroHandle → Program} {w w' : World σ} {es : List Event}
  {l : Label}

/-- A step of the connection `c`, which leaves `outbox` unread. -/
def LinkStep (H : Hiredis) (prog : LinkId → CoroHandle → Program)
    (w : World σ) (c : LinkId) (l : CoroCommand.Label)
    (outbox : List (AwaiterPtr × RedisReply)) (w' : World σ)
    (es : List Event) : Prop :=
  ∃ s es₁, CoroCommand.step H (prog c) (w.links c).session l = some (s, es₁)
    ∧ w' = w.setLink c ⟨s, (w.links c).inbox ++ requested H es₁, outbox⟩
    ∧ es = es₁.map (.link c)

theorem linkStep_of_onLink {c : LinkId} {l : CoroCommand.Label}
    {outbox : List (AwaiterPtr × RedisReply)}
    (h : w.onLink H (prog c) c l outbox = some (w', es)) :
    LinkStep H prog w c l outbox w' es := by
  rw [World.onLink] at h
  cases hs : CoroCommand.step H (prog c) (w.links c).session l with
  | none => simp [hs] at h
  | some r =>
      obtain ⟨s, es₁⟩ := r
      simp only [hs, Option.some.injEq, Prod.mk.injEq] at h
      exact ⟨s, es₁, hs, h.1.symm, h.2.symm⟩

/-- The five kinds of steps. -/
theorem step_cases (h : step H S prog w l = some (w', es)) :
    (∃ c l', (∀ r, l' ≠ .reply r)
      ∧ LinkStep H prog w c l' (w.links c).outbox w' es)
    ∨ (∃ c a r rest, (w.links c).outbox = (a, r) :: rest
      ∧ LinkStep H prog w c (.reply r) rest w' es)
    ∨ (∃ c a rest, (w.links c).inbox = (a, []) :: rest ∧ es = []
      ∧ w' = w.setLink c { w.links c with inbox := rest })
    ∨ (∃ c a verb args rest, (w.links c).inbox = (a, verb :: args) :: rest
      ∧ w' = { w.setLink c { w.links c with
                inbox := rest
                outbox := (w.links c).outbox
                  ++ [(a, (S.apply w.state (verb :: args)).2)] }
              with state := (S.apply w.state (verb :: args)).1 }
      ∧ es = [.served c
          ⟨a, verb :: args, (S.apply w.state (verb :: args)).2⟩])
    ∨ (∃ c n, (w.links c).session.ctx = .freeing ∧ es = []
      ∧ w' = w.setLink c
          { w.links c with inbox := (w.links c).inbox.take n }) := by
  cases l with
  | own c l' =>
      by_cases hr : ∃ r, l' = .reply r
      · obtain ⟨r, rfl⟩ := hr
        exact absurd h (by simp [step])
      · have hne : ∀ r, l' ≠ .reply r := fun r heq => hr ⟨r, heq⟩
        have hon : w.onLink H (prog c) c l' (w.links c).outbox
            = some (w', es) := by
          cases l' with
          | reply r => exact absurd rfl (hne r)
          | start k => exact h
          | wake k => exact h
          | disconnect => exact h
          | free => exact h
          | nullReply => exact h
        exact Or.inl ⟨c, l', hne, linkStep_of_onLink hon⟩
  | serve c =>
      cases hin : (w.links c).inbox with
      | nil => simp [step, hin] at h
      | cons m rest =>
          obtain ⟨a, argv⟩ := m
          cases argv with
          | nil =>
              simp only [step, hin, Option.some.injEq, Prod.mk.injEq] at h
              exact Or.inr (Or.inr (Or.inl ⟨c, a, rest, hin, h.2.symm,
                h.1.symm⟩))
          | cons verb args =>
              simp only [step, hin, Option.some.injEq, Prod.mk.injEq] at h
              exact Or.inr (Or.inr (Or.inr (Or.inl ⟨c, a, verb, args, rest, hin,
                h.1.symm, h.2.symm⟩)))
  | receive c =>
      cases hout : (w.links c).outbox with
      | nil => simp [step, hout] at h
      | cons m rest =>
          obtain ⟨a, r⟩ := m
          simp only [step, hout] at h
          exact Or.inr (Or.inl ⟨c, a, r, rest, hout, linkStep_of_onLink h⟩)
  | lose c n =>
      by_cases hctx : (w.links c).session.ctx = .freeing
      · simp only [step, if_pos hctx, Option.some.injEq, Prod.mk.injEq] at h
        exact Or.inr (Or.inr (Or.inr (Or.inr ⟨c, n, hctx, h.2.symm,
          h.1.symm⟩)))
      · simp [step, hctx] at h

/-! ## What one connection sees of a run -/

/-- A step of the system is a step of the connection, or none of its. -/
theorem link_step (h : step H S prog w l = some (w', es)) (c : LinkId) :
    ((w'.links c).session = (w.links c).session ∧ linkTrace c es = [])
      ∨ ∃ l', CoroCommand.step H (prog c) (w.links c).session l'
          = some ((w'.links c).session, linkTrace c es) := by
  have hlink : ∀ {c' : LinkId} {l' : CoroCommand.Label}
      {outbox : List (AwaiterPtr × RedisReply)},
      LinkStep H prog w c' l' outbox w' es →
      ((w'.links c).session = (w.links c).session ∧ linkTrace c es = [])
        ∨ ∃ l', CoroCommand.step H (prog c) (w.links c).session l'
            = some ((w'.links c).session, linkTrace c es) := by
    rintro c' l' outbox ⟨s, es₁, hs, rfl, rfl⟩
    by_cases hc : c' = c
    · subst hc
      refine Or.inr ⟨l', ?_⟩
      show _ = some ((Function.update w.links c' _ c').session, _)
      rw [Function.update_self, linkTrace_map_link]
      exact hs
    · refine Or.inl ⟨?_, linkTrace_map_link_of_ne c es₁ hc⟩
      show (Function.update w.links c' _ c).session = _
      rw [Function.update_of_ne (Ne.symm hc)]
  have hsame : ∀ {c' : LinkId} {lk : Link},
      lk.session = (w.links c').session →
      (Function.update w.links c' lk c).session = (w.links c).session := by
    intro c' lk hlk
    by_cases hc : c = c'
    · subst hc
      rw [Function.update_self]
      exact hlk
    · rw [Function.update_of_ne hc]
  rcases step_cases h with ⟨c', l', -, hls⟩ | ⟨c', a, r, rest, -, hls⟩
    | ⟨c', a, rest, -, rfl, rfl⟩ | ⟨c', a, verb, args, rest, -, rfl, rfl⟩
    | ⟨c', n, -, rfl, rfl⟩
  · exact hlink hls
  · exact hlink hls
  · exact Or.inl ⟨hsame rfl, rfl⟩
  · exact Or.inl ⟨hsame rfl, rfl⟩
  · exact Or.inl ⟨hsame rfl, rfl⟩

/-- **PROJECTION**: what a connection sees of a run is a run of its own. -/
theorem link_run {ls : List Label} {tr : List Event}
    (h : Run (step H S prog) (World.init S) ls w tr) (c : LinkId) :
    ∃ ls', Run (CoroCommand.step H (prog c)) Session.init ls'
      (w.links c).session (linkTrace c tr) := by
  induction h with
  | start => exact ⟨[], Run.start⟩
  | @next ls w w' tr es l _ hstep ih =>
      obtain ⟨ls', hrun⟩ := ih
      rw [linkTrace_append]
      rcases link_step hstep c with ⟨hs, hes⟩ | ⟨l', hs⟩
      · rw [hs, hes, List.append_nil]
        exact ⟨ls', hrun⟩
      · exact ⟨ls' ++ [l'], hrun.next hs⟩

end cases

end Cluster
