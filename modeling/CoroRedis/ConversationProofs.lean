import CoroRedis.BlockingProofs
import CoroRedis.ClusterGuaranteeProofs

/-! # What a coroutine on a shared connection talks about

    Coroutines on one connection send their commands into one stream and have
    their replies out of another.  Each of them still holds a conversation of
    its own: it asks, has its answer, and asks again, and what it has learnt
    is what its own answers say.

    * `Talks` — the conversations of all coroutines on a connection, against
      the callbacks that have run;
    * `talks_step`, `talks_run` — an event continues one conversation at most;
    * `conversations` — the PROJECTION: the conversation of each coroutine is
      one between its program and the server alone, in the order of execution,
      and no execution is part of two. -/

namespace Conversation

open CoroBytes HiredisFormat RedisReplies TaskAwaiters CoroCommand CommandOrder
open Cluster (LinkId Server Link LinkSound Sound Worded linkTrace executed
  delivered)
open RunLog Linear

/-! ## Conversations -/

/-- What a coroutine learns at once, and where it has it from. -/
inductive Exchange where
  /-- A command, with the reply its callback got. -/
  | asked (a : AwaiterPtr) (cmd : Command) (reply : Option RedisReply)
  | woken

namespace Exchange

/-- What the coroutine has learnt in the exchange. -/
def item : Exchange → Item
  | .asked _ cmd reply => .result (cmd.op.resumeCallback reply)
  | .woken => .woken

/-- What its program does to get it. -/
def next : Exchange → Next
  | .asked _ cmd _ => .send cmd
  | .woken => .pause

def callback : Exchange → Option (AwaiterPtr × Option RedisReply)
  | .asked a _ reply => some (a, reply)
  | .woken => none

/-- The execution that answers, if one does. -/
def op (H : Hiredis) : Exchange → Option (Op AwaiterPtr (List Bytes) RedisReply)
  | .asked a cmd (some r) => (H.fmt.format cmd.text).map fun argv => ⟨a, argv, r⟩
  | .asked _ _ none => none
  | .woken => none

/-- The command has an answer. -/
def Answered : Exchange → Prop
  | .asked _ _ reply => reply ≠ none
  | .woken => True

end Exchange

/-- The replies of a conversation. -/
def replies (xs : List Exchange) : List RedisReply :=
  xs.filterMap fun x => match x with
    | .asked _ _ reply => reply
    | .woken => none

/-- The texts that got a reply. -/
def texts (xs : List Exchange) : List Bytes :=
  xs.filterMap fun x => match x with
    | .asked _ cmd (some _) => some cmd.text
    | _ => none

/-- The program makes each exchange after those before. -/
def Plays (P : Program) (xs : List Exchange) : Prop :=
  AtEach (fun before x => P (before.map Exchange.item) = x.next) xs

/-- The conversations of the coroutines on a connection. -/
structure Talks (prog : CoroHandle → Program) (s : Session)
    (es : List CoroCommand.Event) (xs : CoroHandle → List Exchange) : Prop where
  history : ∀ k, (s.coros k).history = (xs k).map Exchange.item
  plays : ∀ k, Plays (prog k) (xs k)
  order : ∀ k, ((xs k).filterMap Exchange.callback).Sublist (callbacks es)
  covers : ∀ m ∈ callbacks es, ∃ k cmd, Exchange.asked m.1 cmd m.2 ∈ xs k
  sent : ∀ k a cmd reply, Exchange.asked a cmd reply ∈ xs k →
    CoroCommand.Event.sent k a cmd ∈ es

section session

variable {H : Hiredis} {prog : CoroHandle → Program} {s s' : Session}
  {es es' : List CoroCommand.Event} {l : CoroCommand.Label}
  {xs : CoroHandle → List Exchange} {k : CoroHandle} {x : Exchange}

theorem talks_init (prog : CoroHandle → Program) :
    Talks prog Session.init [] (fun _ => []) where
  history _ := rfl
  plays _ := atEach_nil _
  order _ := List.Sublist.slnil
  covers _ hm := absurd hm List.not_mem_nil
  sent _ _ _ _ hx := absurd hx List.not_mem_nil

/-- Nobody learns anything. -/
theorem talks_quiet (h : Talks prog s es xs)
    (hsame : ∀ k, (s'.coros k).history = (s.coros k).history)
    (hcb : callbacks es' = []) : Talks prog s' (es ++ es') xs where
  history k := (hsame k).trans (h.history k)
  plays := h.plays
  order k := by
    rw [callbacks_append, hcb, List.append_nil]
    exact h.order k
  covers m hm := by
    rw [callbacks_append, hcb, List.append_nil] at hm
    exact h.covers m hm
  sent k a cmd reply hx := List.mem_append_left _ (h.sent k a cmd reply hx)

/-- One coroutine has one more exchange. -/
theorem talks_exchange (h : Talks prog s es xs)
    (hothers : ∀ k', k' ≠ k → s'.coros k' = s.coros k')
    (hk : (s'.coros k).history = (s.coros k).history ++ [x.item])
    (hnext : prog k (s.coros k).history = x.next)
    (hcb : callbacks es' = x.callback.toList)
    (hsent : ∀ a cmd reply, x = .asked a cmd reply →
      CoroCommand.Event.sent k a cmd ∈ es) :
    Talks prog s' (es ++ es') (Function.update xs k (xs k ++ [x])) where
  history k' := by
    by_cases hkk : k' = k
    · subst hkk
      rw [Function.update_self, hk, List.map_append, h.history k']
      rfl
    · rw [Function.update_of_ne hkk, hothers k' hkk]
      exact h.history k'
  plays k' := by
    by_cases hkk : k' = k
    · subst hkk
      rw [Function.update_self]
      refine atEach_snoc.mpr ⟨h.plays k', ?_⟩
      rw [← h.history k']
      exact hnext
    · rw [Function.update_of_ne hkk]
      exact h.plays k'
  order k' := by
    rw [callbacks_append, hcb]
    by_cases hkk : k' = k
    · subst hkk
      rw [Function.update_self, List.filterMap_append]
      have hlast : [x].filterMap Exchange.callback = x.callback.toList := by
        cases hx : x.callback with
        | none => simp [hx]
        | some m => simp [hx]
      rw [hlast]
      exact (h.order k').append (List.Sublist.refl _)
    · rw [Function.update_of_ne hkk]
      exact (h.order k').trans (List.sublist_append_left _ _)
  covers m hm := by
    rw [callbacks_append, hcb] at hm
    rcases List.mem_append.mp hm with hold | hnew
    · obtain ⟨k', cmd, hx⟩ := h.covers m hold
      refine ⟨k', cmd, ?_⟩
      by_cases hkk : k' = k
      · subst hkk
        rw [Function.update_self]
        exact List.mem_append_left _ hx
      · rw [Function.update_of_ne hkk]
        exact hx
    · have hx := Option.mem_toList.mp hnew
      cases x with
      | woken => exact absurd hx (by simp [Exchange.callback])
      | asked a cmd reply =>
          obtain rfl := Option.some.inj hx
          refine ⟨k, cmd, ?_⟩
          rw [Function.update_self]
          exact List.mem_append_right _ List.mem_cons_self
  sent k' a cmd reply hx := by
    refine List.mem_append_left _ ?_
    by_cases hkk : k' = k
    · subst hkk
      rw [Function.update_self] at hx
      rcases List.mem_append.mp hx with hold | hnew
      · exact h.sent k' a cmd reply hold
      · exact hsent a cmd reply (List.mem_singleton.mp hnew).symm
    · rw [Function.update_of_ne hkk] at hx
      exact h.sent k' a cmd reply hx

/-- The callback of an event is that of the awaiter in front. -/
theorem callbacks_of_front (h : Linked s es)
    (hstep : CoroCommand.step H prog s l = some (s', es')) {a : AwaiterPtr}
    {rest : List AwaiterPtr} {reply : Option RedisReply}
    (hr : s.replies = a :: rest) (hans : answers [l] = [reply]) :
    callbacks es' = [(a, reply)] := by
  obtain ⟨⟨es₁, es₂, rfl, hcb, hiss⟩, -, -⟩ := Cluster.step_shows h hstep
  rw [callbacks_append, (Cluster.callbacks_issued hiss).1, List.append_nil]
  cases hcb with
  | quiet hnone =>
      rw [hans] at hnone
      exact absurd hnone (by simp)
  | callback hr' hans' =>
      rw [hr] at hr'
      rw [hans] at hans'
      rw [(List.cons.inj hr').1, (List.cons.inj hans').1]
      rfl

/-- **STEP**: an event continues one conversation at most. -/
theorem talks_step (hl : Linked s es) (hp : Blocking.Poised prog s)
    (h : Talks prog s es xs)
    (hstep : CoroCommand.step H prog s l = some (s', es')) :
    ∃ xs', Talks prog s' (es ++ es') xs' := by
  have hans := (linked_step H prog hl hstep).2
  have hquiet : answers [l] = [] → callbacks es' = [] := fun hnone =>
    List.map_eq_nil_iff.mp (hans.trans hnone)
  rcases Blocking.step_moves hl hstep with ⟨hcoros, -, hnone, -⟩ | ⟨k, items, hm⟩
  · refine ⟨xs, talks_quiet h (fun k => ?_) (hquiet hnone)⟩
    rw [hcoros]
  · have hothers : ∀ k', k' ≠ k → s'.coros k' = s.coros k' :=
      fun k' hk' => (hm.others k' hk').1
    cases hm.learns with
    | started hst hnone =>
        refine ⟨xs, talks_quiet h (fun k' => ?_) (hquiet hnone)⟩
        by_cases hkk : k' = k
        · subst hkk
          rw [hm.history, List.append_nil]
        · rw [hothers k' hkk]
    | woken hst hnone =>
        exact ⟨_, talks_exchange (x := .woken) h hothers hm.history
          ((hp k).pauses hst) (hquiet hnone) (by simp)⟩
    | @resumed a cmd reply rest hr hw hreply =>
        refine ⟨_, talks_exchange (x := .asked a cmd reply) h hothers hm.history
          ((hp k).calls a cmd hw) (callbacks_of_front hl hstep hr hreply) ?_⟩
        intro a' cmd' reply' heq
        obtain ⟨rfl, rfl, rfl⟩ := Exchange.asked.inj heq
        obtain ⟨cmd₀, hw₀, hs₀⟩ := hl.alive k a hw.1
        obtain ⟨-, rfl⟩ := waits_unique hw hw₀
        exact hs₀

/-- **RUN**: every coroutine of a connection holds its conversation. -/
theorem talks_run {ls : List CoroCommand.Label}
    (h : Run (CoroCommand.step H prog) Session.init ls s es) :
    ∃ xs, Talks prog s es xs := by
  refine (h.invariant (fun s es => Linked s es ∧ Blocking.Poised prog s
    ∧ ∃ xs, Talks prog s es xs)
    ⟨linked_init, Blocking.poised_init _, _, talks_init prog⟩ ?_).2.2
  rintro s es l s' es' ⟨hl, hp, xs, ht⟩ hs
  exact ⟨(linked_step H prog hl hs).1, Blocking.poised_step hl hp hs,
    talks_step hl hp ht hs⟩

end session

/-! ## Executions -/

section lists

variable {α β : Type} {f : α → β}

/-- Lists whose elements are told apart by `f`. -/
theorem eq_of_map_eq : ∀ {xs ys : List α},
    (∀ x ∈ xs, ∀ y ∈ ys, f x = f y → x = y) → xs.map f = ys.map f →
    xs = ys := by
  intro xs
  induction xs with
  | nil =>
      intro ys _ h
      exact (List.map_eq_nil_iff.mp h.symm).symm
  | cons x xs ih =>
      intro ys hinj h
      cases ys with
      | nil => exact absurd h (by simp)
      | cons y ys =>
          obtain ⟨hxy, hrest⟩ := List.cons.inj h
          rw [hinj x List.mem_cons_self y List.mem_cons_self hxy,
            ih (fun x' hx y' hy => hinj x' (List.mem_cons_of_mem _ hx) y'
              (List.mem_cons_of_mem _ hy)) hrest]

/-- A part of a list, told by names that are not repeated in it. -/
theorem sublist_of_map {xs ys : List α} (h : (xs.map f).Sublist (ys.map f))
    (hmem : ∀ x ∈ xs, x ∈ ys) (hnd : (ys.map f).Nodup) : xs.Sublist ys := by
  obtain ⟨zs, hzs, heq⟩ := List.sublist_map_iff.mp h
  have hxs : xs = zs := by
    refine eq_of_map_eq ?_ heq
    intro x hx z hz hxz
    exact List.inj_on_of_nodup_map hnd (hmem x hx) (hzs.subset hz) hxz
  rw [hxs]
  exact hzs

end lists

/-- A callback with a reply. -/
def replied (m : AwaiterPtr × Option RedisReply) :
    Option (AwaiterPtr × RedisReply) :=
  m.2.map (m.1, ·)

theorem delivered_eq (es : List CoroCommand.Event) :
    delivered es = (callbacks es).filterMap replied := by
  rw [delivered, callbacks, List.filterMap_filterMap]
  refine List.filterMap_congr fun e _ => ?_
  cases e with
  | callback a reply =>
      cases reply with
      | none => rfl
      | some r => rfl
  | sent k a cmd => rfl
  | submitted a buf => rfl
  | accepted a cmd => rfl
  | refused a => rfl
  | resumed k a v => rfl
  | dangling a => rfl

section cluster

variable {σ : Type} {H : Hiredis} {S : Server σ}
  {prog : LinkId → CoroHandle → Program} {w : Cluster.World σ}
  {tr : List Cluster.Event} {c : LinkId} {xs : CoroHandle → List Exchange}
  {k : CoroHandle}

/-- What was answered was executed. -/
theorem op_of_asked (hs : Sound H S w tr)
    (ht : Talks (prog c) (w.links c).session (linkTrace c tr) xs)
    {a : AwaiterPtr} {cmd : Command} {r : RedisReply}
    (hx : Exchange.asked a cmd (some r) ∈ xs k) :
    ∃ op ∈ executed c tr, (Exchange.asked a cmd (some r)).op H = some op
      ∧ op.id = a ∧ op.reply = r := by
  have hcb : (a, some r) ∈ callbacks (linkTrace c tr) :=
    (ht.order k).subset (List.mem_filterMap.mpr ⟨_, hx, rfl⟩)
  have hd : (a, r) ∈ delivered (linkTrace c tr) := by
    rw [delivered_eq]
    exact List.mem_filterMap.mpr ⟨_, hcb, rfl⟩
  obtain ⟨op, hop, rfl, rfl⟩ := Cluster.served_of_delivered hs hd
  have hsent := (Cluster.mem_linkTrace c tr).mp (ht.sent k _ cmd _ hx)
  refine ⟨op, (Cluster.mem_executed c tr).mpr hop, ?_, rfl, rfl⟩
  simp only [Exchange.op, Cluster.request_of_sent hs hop hsent, Option.map_some]

/-- Answered exchanges are executions, one each. -/
theorem map_ops {ys : List Exchange}
    (h : ∀ a cmd r, Exchange.asked a cmd (some r) ∈ ys →
      ∃ op, (Exchange.asked a cmd (some r)).op H = some op ∧ op.id = a
        ∧ op.reply = r) :
    (ys.filterMap (Exchange.op H)).map (fun op => (op.id, op.reply))
      = (ys.filterMap Exchange.callback).filterMap replied := by
  induction ys with
  | nil => rfl
  | cons x ys ih =>
      have ih := ih fun a cmd r hx => h a cmd r (List.mem_cons_of_mem _ hx)
      cases x with
      | woken => exact ih
      | asked a cmd reply =>
          cases reply with
          | none => exact ih
          | some r =>
              obtain ⟨op, hop, rfl, rfl⟩ := h a cmd r List.mem_cons_self
              rw [List.filterMap_cons, hop]
              exact congrArg ((op.id, op.reply) :: ·) ih

/-- What was answered to a coroutine, as executions. -/
theorem asked_ops (hs : Sound H S w tr)
    (ht : Talks (prog c) (w.links c).session (linkTrace c tr) xs)
    (k : CoroHandle) :
    ∀ a cmd r, Exchange.asked a cmd (some r) ∈ xs k →
      ∃ op, (Exchange.asked a cmd (some r)).op H = some op ∧ op.id = a
        ∧ op.reply = r := by
  intro a cmd r hx
  obtain ⟨op, -, hop⟩ := op_of_asked hs ht hx
  exact ⟨op, hop⟩

/-- Part of the executions are the answers to one coroutine, in order. -/
theorem ops_sublist (hs : Sound H S w tr)
    (ht : Talks (prog c) (w.links c).session (linkTrace c tr) xs)
    (k : CoroHandle) :
    ((xs k).filterMap (Exchange.op H)).Sublist (executed c tr) := by
  have hd := Cluster.delivers_of_linkSound (hs.link c)
  have hids : ((executed c tr).map fun op => (op.id, op.reply)).Nodup := by
    refine List.Nodup.of_map Prod.fst ?_
    rw [List.map_map]
    exact hd.once
  refine sublist_of_map ?_ ?_ hids
  · rw [map_ops (asked_ops hs ht k)]
    refine ((ht.order k).filterMap replied).trans ?_
    rw [← delivered_eq]
    exact hd.delivered.sublist
  · intro op hop
    obtain ⟨x, hx, heq⟩ := List.mem_filterMap.mp hop
    cases x with
    | woken => exact absurd heq (by simp [Exchange.op])
    | asked a cmd reply =>
        cases reply with
        | none => exact absurd heq (by simp [Exchange.op])
        | some r =>
            obtain ⟨op', hmem, hop', -⟩ := op_of_asked hs ht hx
            rw [hop'] at heq
            rw [← Option.some.inj heq]
            exact hmem

/-- Whose answer an execution is. -/
theorem owner_unique (hs : Sound H S w tr)
    (ht : Talks (prog c) (w.links c).session (linkTrace c tr) xs)
    {op : Op AwaiterPtr (List Bytes) RedisReply} (hop : op ∈ executed c tr)
    (hd : (op.id, op.reply) ∈ delivered (linkTrace c tr)) :
    ∃! k, op ∈ (xs k).filterMap (Exchange.op H) := by
  rw [delivered_eq] at hd
  obtain ⟨m, hm, heq⟩ := List.mem_filterMap.mp hd
  obtain ⟨r, hr, hpair⟩ := Option.map_eq_some_iff.mp heq
  obtain ⟨hid, hrep⟩ := Prod.mk.inj hpair
  obtain ⟨k, cmd, hx⟩ := ht.covers m hm
  rw [hr] at hx
  have hsent : ∀ {k' : CoroHandle},
      op ∈ (xs k').filterMap (Exchange.op H) →
      ∃ cmd', CoroCommand.Event.sent k' op.id cmd' ∈ linkTrace c tr := by
    intro k' hmem
    obtain ⟨x, hx', hop'⟩ := List.mem_filterMap.mp hmem
    cases x with
    | woken => exact absurd hop' (by simp [Exchange.op])
    | asked a cmd' reply =>
        cases reply with
        | none => exact absurd hop' (by simp [Exchange.op])
        | some r' =>
            obtain ⟨op₁, -, hop₁, rfl, -⟩ := op_of_asked hs ht hx'
            rw [hop₁] at hop'
            rw [← Option.some.inj hop']
            exact ⟨cmd', ht.sent k' _ cmd' _ hx'⟩
  obtain ⟨op', hmem, hop', hid', hrep'⟩ := op_of_asked hs ht hx
  have hsame : op' = op :=
    List.inj_on_of_nodup_map (Cluster.delivers_of_linkSound (hs.link c)).once
      hmem hop (hid'.trans hid)
  subst hsame
  have hmine : op' ∈ (xs k).filterMap (Exchange.op H) :=
    List.mem_filterMap.mpr ⟨_, hx, hop'⟩
  refine ⟨k, hmine, ?_⟩
  intro k' hk'
  obtain ⟨cmd₁, h₁⟩ := hsent hmine
  obtain ⟨cmd₂, h₂⟩ := hsent hk'
  exact ((hs.link c).unique _ _ _ _ _ h₂ h₁).1

/-- Until the context is freed every command has an answer. -/
theorem answered_of_connected (hs : Sound H S w tr)
    (ht : Talks (prog c) (w.links c).session (linkTrace c tr) xs)
    (hctx : (w.links c).session.ctx ≠ .freeing) : ∀ x ∈ xs k, x.Answered := by
  intro x hx
  cases x with
  | woken => exact trivial
  | asked a cmd reply =>
      exact (hs.link c).whole hctx (a, reply)
        ((ht.order k).subset (List.mem_filterMap.mpr ⟨_, hx, rfl⟩))

/-- **CONVERSATIONS**: on every connection and in every run, each coroutine
    talks to the server as if it were alone. -/
theorem conversations (H : Hiredis) (S : Server σ)
    (prog : LinkId → CoroHandle → Program) (hw : ∀ c, Worded H (prog c))
    (ls : List Cluster.Label) (w : Cluster.World σ) (tr : List Cluster.Event)
    (h : Run (Cluster.step H S prog) (Cluster.World.init S) ls w tr)
    (c : LinkId) :
    ∃ xs : CoroHandle → List Exchange,
      (∀ k, ((w.links c).session.coros k).history = (xs k).map Exchange.item
        ∧ Plays (prog c k) (xs k)
        ∧ ((xs k).filterMap (Exchange.op H)).Sublist (executed c tr)
        ∧ ((w.links c).session.ctx ≠ .freeing → ∀ x ∈ xs k, x.Answered))
      ∧ ∀ op ∈ executed c tr, (op.id, op.reply) ∈ delivered (linkTrace c tr) →
          ∃! k, op ∈ (xs k).filterMap (Exchange.op H) := by
  have hs := Cluster.sound_run hw h
  obtain ⟨ls', hrun⟩ := Cluster.link_run h c
  obtain ⟨xs, ht⟩ := talks_run hrun
  exact ⟨xs, fun k => ⟨ht.history k, ht.plays k, ops_sublist hs ht k,
      answered_of_connected hs ht⟩,
    fun op hop hd => owner_unique hs ht hop hd⟩

end cluster

/-- Two coroutines count on one connection; both talk of their own number. -/
theorem conversations_counter :
    ∃ w tr, Run (Cluster.step ⟨hiredisFormat, false⟩ Cluster.counter
        Cluster.countOnce) (Cluster.World.init Cluster.counter)
        [.own 0 (.start 0), .own 0 (.start 1), .serve 0, .serve 0, .receive 0,
          .receive 0] w tr
      ∧ w.state = 2
      ∧ ∃ xs : CoroHandle → List Exchange,
        ((w.links 0).session.coros 1).history = (xs 1).map Exchange.item
        ∧ ∀ op ∈ executed 0 tr, (op.id, op.reply) ∈ delivered (linkTrace 0 tr) →
          ∃! k, op ∈ (xs k).filterMap (Exchange.op ⟨hiredisFormat, false⟩) := by
  obtain ⟨w, tr, hrun, hst⟩ : ∃ w tr,
      Run (Cluster.step ⟨hiredisFormat, false⟩ Cluster.counter
        Cluster.countOnce) (Cluster.World.init Cluster.counter)
        [.own 0 (.start 0), .own 0 (.start 1), .serve 0, .serve 0, .receive 0,
          .receive 0] w tr ∧ w.state = 2 := ⟨_, _, run_of_exec rfl, rfl⟩
  obtain ⟨xs, hxs, hone⟩ := conversations ⟨hiredisFormat, false⟩
    Cluster.counter Cluster.countOnce Cluster.worded_countOnce _ w tr hrun 0
  exact ⟨w, tr, hrun, hst, xs, (hxs 1).1, hone⟩

end Conversation
