import CoroRedis.BlockingLinkProofs
import CoroRedis.ClusterGuaranteeProofs
import CoroRedis.Lib.SimulationProofs

/-! # Coroutines do what blocking programs do

    Every run of coroutines on shared connections is one of blocking programs:
    the call happens in one step, when the server executes the request.  What
    the call returns is settled later, by a reply or by the context being
    freed, so the simulation carries a prophecy of that.

    * `Matches` — the relation: server and programs are at the same place,
      except that a program whose reply is under way has its result already;
    * `refines_blocking` — the REFINEMENT, for every run: same server state,
      same executions in the same order, same histories, and no call fails on
      a connection whose context is not being freed. -/

namespace Blocking

open CoroBytes HiredisFormat RedisReplies TaskAwaiters CoroCommand CommandOrder
open Cluster (LinkId Server Link Caller LinkSound Sound LinkStep Worded linkTrace
  executed marks delivered requested onBehalf)
open RunLog Linear Simulation

/-! ## The relation -/

/-- An execution as the blocking system shows it. -/
def Event.of (op : Op Caller (List Bytes) RedisReply) : Event :=
  ⟨op.id.1, op.request, op.reply⟩

/-- The blocking programs have come to where the coroutines are. -/
structure Matches {σ : Type} (fate : LinkId → AwaiterPtr → Bool)
    (w : Cluster.World σ) (tr : List Cluster.Event)
    (p : Progress (World σ) Label Event) : Prop where
  state : p.state.state = w.state
  link : ∀ c, LinkMatches (fate c) (w.links c) (linkTrace c tr) (executed c tr)
    (p.state.history c) (p.state.strays c)
  trace : p.trace = (effects (marks tr)).map Event.of
  /-- Nothing fails unless it is foretold or has come about. -/
  broken : ∀ l ∈ p.labels, ∀ c, l.broken = some c →
    (w.links c).session.ctx = .freeing ∨ ∃ a, fate c a = false

section world

variable {σ : Type} {H : Hiredis} {S : Server σ}
  {prog : LinkId → CoroHandle → Program} {w w' : Cluster.World σ}
  {tr es : List Cluster.Event} {fate g : LinkId → AwaiterPtr → Bool}
  {p q : Progress (World σ) Label Event} {c : LinkId}

theorem matches_init (fate : LinkId → AwaiterPtr → Bool) :
    Matches fate (Cluster.World.init S) [] ⟨[], World.init S, []⟩ where
  state := rfl
  link c := linkMatches_fresh (fate c)
  trace := rfl
  broken _ hl := absurd hl List.not_mem_nil

/-- One connection and the server change; the others stay. -/
theorem matches_setLink (lk : Link) (s : σ) (es' : List CoroCommand.Event)
    (ops : List (Op AwaiterPtr (List Bytes) RedisReply)) (h : Matches g w tr p)
    (htr : linkTrace c es = es' ∧ executed c es = ops)
    (htr' : ∀ c', c' ≠ c → linkTrace c' es = [] ∧ executed c' es = [])
    (hfate : ∀ c', c' ≠ c → fate c' = g c')
    (hq : ∀ c', c' ≠ c → q.state.history c' = p.state.history c'
      ∧ q.state.strays c' = p.state.strays c')
    (hstate : q.state.state = s)
    (hlink : LinkMatches (fate c) lk (linkTrace c tr ++ es')
      (executed c tr ++ ops) (q.state.history c) (q.state.strays c))
    (htrace : q.trace = p.trace ++ (effects (marks es)).map Event.of)
    (hfree : (w.links c).session.ctx = .freeing → lk.session.ctx = .freeing)
    (hlabels : ∀ l ∈ q.labels, l ∈ p.labels ∨ ∀ c', l.broken = some c' →
      c' = c ∧ (lk.session.ctx = .freeing ∨ ∃ a, fate c a = false))
    (hopen : ∀ a, g c a = false →
      fate c a = false ∨ lk.session.ctx = .freeing) :
    Matches fate { w.setLink c lk with state := s } (tr ++ es) q where
  state := hstate
  link c' := by
    rw [Cluster.linkTrace_append, Cluster.executed_append]
    show LinkMatches _ (Function.update w.links c lk c') _ _ _ _
    by_cases hc : c' = c
    · subst hc
      rw [Function.update_self, htr.1, htr.2]
      exact hlink
    · rw [Function.update_of_ne hc, (htr' c' hc).1, (htr' c' hc).2,
        List.append_nil, List.append_nil, hfate c' hc, (hq c' hc).1,
        (hq c' hc).2]
      exact h.link c'
  trace := by
    rw [htrace, h.trace, Cluster.marks_append, effects_append, List.map_append]
  broken l hl c' hb := by
    show (Function.update w.links c lk c').session.ctx = _ ∨ _
    rcases hlabels l hl with hold | hnew
    · rcases h.broken l hold c' hb with hctx | ⟨a, ha⟩
      · by_cases hc : c' = c
        · subst hc
          rw [Function.update_self]
          exact Or.inl (hfree hctx)
        · rw [Function.update_of_ne hc]
          exact Or.inl hctx
      · by_cases hc : c' = c
        · subst hc
          rw [Function.update_self]
          exact (hopen a ha).symm.imp id fun hf => ⟨a, hf⟩
        · exact Or.inr ⟨a, by rw [hfate c' hc]; exact ha⟩
    · obtain ⟨rfl, hor⟩ := hnew c' hb
      rw [Function.update_self]
      exact hor

/-- A connection takes a step. -/
theorem matches_link (h : Matches g w tr p) {lk : Link}
    {es' : List CoroCommand.Event}
    (hfate : ∀ c', c' ≠ c → fate c' = g c')
    (hq : ∀ c', c' ≠ c → q.state.history c' = p.state.history c'
      ∧ q.state.strays c' = p.state.strays c')
    (hstate : q.state.state = p.state.state)
    (hlink : LinkMatches (fate c) lk (linkTrace c tr ++ es') (executed c tr)
      (q.state.history c) (q.state.strays c))
    (htrace : q.trace = p.trace)
    (hfree : (w.links c).session.ctx = .freeing → lk.session.ctx = .freeing)
    (hlabels : ∀ l ∈ q.labels, l ∈ p.labels ∨ ∀ c', l.broken = some c' →
      c' = c ∧ (lk.session.ctx = .freeing ∨ ∃ a, fate c a = false))
    (hopen : ∀ a, g c a = false →
      fate c a = false ∨ lk.session.ctx = .freeing) :
    Matches fate (w.setLink c lk) (tr ++ es'.map (.link c)) q := by
  have hall := matches_setLink lk w.state es' [] h
    ⟨Cluster.linkTrace_map_link c es', Cluster.executed_map_link c es' c⟩
    (fun c' hc => ⟨Cluster.linkTrace_map_link_of_ne c' es' (Ne.symm hc),
      Cluster.executed_map_link c' es' c⟩)
    hfate hq (hstate.trans h.state)
    (by rw [List.append_nil]; exact hlink)
    (by rw [Cluster.effects_map_link]; exact htrace.trans (List.append_nil _).symm)
    hfree hlabels hopen
  exact hall

section moves

variable {l : CoroCommand.Label} {s' : Session} {es' : List CoroCommand.Event}
  {k : CoroHandle}

/-- The awaiter of `k` is not that of another coroutine. -/
theorem ne_of_waits {s : Session} {tr : List CoroCommand.Event} (h : Linked s tr)
    {a b : AwaiterPtr} {cmd : Command} {k' : CoroHandle} (hw : Waits s k a cmd)
    (hk : k' ≠ k) (hst : (s.coros k').status = .suspended b) : b ≠ a := by
  rintro rfl
  obtain ⟨cmd', hw', -⟩ := h.alive k' b hst
  exact hk (waits_unique hw' hw).1

/-- An event without a callback: the program follows, if it was woken. -/
theorem matches_quiet (hs : Sound H S w tr)
    (hstep : CoroCommand.step H (prog c) (w.links c).session l = some (s', es'))
    (hans : answers [l] = []) (h : Matches fate w tr p)
    (hp : ∀ c, Poised (prog c) (w.links c).session) :
    ∃ q, Extends (step H.fmt S prog) p q
      ∧ Matches fate (w.setLink c ⟨s', (w.links c).inbox ++ requested H es',
          (w.links c).outbox⟩) (tr ++ es'.map (.link c)) q := by
  have hc := hs.link c
  obtain ⟨-, hfree, -⟩ := Cluster.step_shows hc.linked hstep
  have hcb : callbacks es' = [] := by
    have hall := (linked_step H (prog c) hc.linked hstep).2
    rw [hans] at hall
    exact List.map_eq_nil_iff.mp hall
  have hstrays : p.state.strays c = (((w.links c).inbox ++ requested H es').take
      (overtaken (linkTrace c tr ++ es') (executed c tr))).map Prod.snd := by
    rw [overtaken_quiet hcb, take_requested hc hstep]
    exact (h.link c).strays
  rcases step_moves hc.linked hstep with ⟨hcoros, haws, -, rfl⟩ | ⟨k, items, hm⟩
  · refine ⟨p, extends_refl p, matches_link h (fun _ _ => rfl)
      (fun _ _ => ⟨rfl, rfl⟩) rfl ?_ rfl hfree (fun l hl => Or.inl hl)
      (fun a ha => Or.inl ha)⟩
    rw [List.append_nil]
    show LinkMatches _ ⟨s', (w.links c).inbox ++ [], _⟩ _ _ _ _
    rw [List.append_nil]
    exact linkMatches_still (h.link c) hcoros haws
  · have hsame : ∀ k', k' ≠ k → ∀ a,
        ((w.links c).session.coros k').status = .suspended a →
        fate c a = fate c a ∧ ∀ r, (a, r) ∈ (w.links c).outbox
          ↔ (a, r) ∈ (w.links c).outbox := fun _ _ _ _ => ⟨rfl, fun _ => Iff.rfl⟩
    have hlevel : ∀ st, ((w.links c).session.coros k).status = st →
        (∀ a, st ≠ .suspended a) → p.state.history c k
          = ((w.links c).session.coros k).history := by
      intro st hst hne
      obtain ⟨items', hhist, hahead⟩ := (h.link c).history k
      rw [ahead_nil hahead fun a ha => absurd (hst.symm.trans ha) (hne a),
        List.append_nil] at hhist
      exact hhist
    cases hm.learns with
    | started hst _ =>
        refine ⟨p, extends_refl p, matches_link h (fun _ _ => rfl)
          (fun _ _ => ⟨rfl, rfl⟩) rfl ?_ rfl hfree (fun l hl => Or.inl hl)
          (fun a ha => Or.inl ha)⟩
        refine linkMatches_moves hc hm (h.link c) (fun _ hmem => hmem) ?_
          (fun _ _ => rfl) hsame hstrays
        rw [List.append_nil]
        exact hlevel _ hst (by simp)
    | woken hst _ =>
        have hhist := hlevel _ hst (by simp)
        have hpause := (hp c k).pauses hst
        have hstep' : step H.fmt S prog p.state (.wake c k)
            = some (p.state.learn c k .woken, []) := by
          simp only [step, hhist, hpause]
        refine ⟨⟨p.labels ++ [.wake c k], p.state.learn c k .woken,
            p.trace ++ []⟩, extends_step hstep' (extends_refl _), ?_⟩
        refine matches_link h (fun _ _ => rfl)
          (fun c' hc' => ⟨learn_of_link_ne _ hc', rfl⟩) rfl ?_
          (List.append_nil _) hfree ?_ (fun a ha => Or.inl ha)
        · refine linkMatches_moves hc hm (h.link c) (fun _ hmem => hmem) ?_
            (fun k' hk' => learn_of_ne _ hk') hsame hstrays
          rw [learn_self, hhist]
        · intro l hl
          rcases List.mem_append.mp hl with hold | hnew
          · exact Or.inl hold
          · rw [List.mem_singleton.mp hnew]
            exact Or.inr fun c' hb => absurd hb (by simp [Label.broken])
    | resumed _ _ hans' =>
        rw [hans] at hans'
        exact absurd hans' (by simp)

/-- What is foretold of one awaiter. -/
def settle (fate : LinkId → AwaiterPtr → Bool) (c : LinkId) (a : AwaiterPtr)
    (b : Bool) : LinkId → AwaiterPtr → Bool :=
  Function.update fate c (Function.update (fate c) a b)

theorem settle_self (fate : LinkId → AwaiterPtr → Bool) (a : AwaiterPtr)
    (b : Bool) : settle fate c a b c a = b := by
  rw [settle, Function.update_self, Function.update_self]

theorem settle_of_ne (fate : LinkId → AwaiterPtr → Bool) {a a' : AwaiterPtr}
    (b : Bool) (h : a' ≠ a) : settle fate c a b c a' = fate c a' := by
  rw [settle, Function.update_self, Function.update_of_ne h]

theorem settle_of_link_ne (fate : LinkId → AwaiterPtr → Bool) {c' : LinkId}
    (a : AwaiterPtr) (b : Bool) (h : c' ≠ c) : settle fate c a b c' = fate c' :=
  Function.update_of_ne h _ _

/-- A callback resumes the coroutine whose awaiter is in front. -/
theorem moves_front {tr : List CoroCommand.Event} {s : Session}
    {prog : CoroHandle → Program} (h : Linked s tr)
    (hstep : CoroCommand.step H prog s l = some (s', es'))
    {reply : Option RedisReply} (hans : answers [l] = [reply]) :
    ∃ k a cmd rest, s.replies = a :: rest ∧ Waits s k a cmd
      ∧ Moves prog s s' l k [.result (cmd.op.resumeCallback reply)] := by
  rcases step_moves h hstep with ⟨-, -, hnone, -⟩ | ⟨k, items, hm⟩
  · rw [hans] at hnone
    exact absurd hnone (by simp)
  · cases hl : hm.learns with
    | started _ hnone =>
        rw [hans] at hnone
        exact absurd hnone (by simp)
    | woken _ hnone =>
        rw [hans] at hnone
        exact absurd hnone (by simp)
    | @resumed a cmd reply' rest hr hw hans' =>
        rw [hans] at hans'
        obtain rfl := List.singleton_inj.mp hans'
        exact ⟨k, a, cmd, rest, hr, hw, hm⟩

/-- A reply comes in: the program has had its result since the execution. -/
theorem matches_received (hs : Sound H S w tr) {a : AwaiterPtr} {r : RedisReply}
    {rest : List (AwaiterPtr × RedisReply)}
    (hout : (w.links c).outbox = (a, r) :: rest)
    (hstep : CoroCommand.step H (prog c) (w.links c).session (.reply r)
      = some (s', es'))
    (h : Matches (settle fate c a true) w tr p) :
    Matches fate (w.setLink c ⟨s', (w.links c).inbox ++ requested H es', rest⟩)
      (tr ++ es'.map (.link c)) p := by
  have hc := hs.link c
  have hctx := Cluster.step_reply_ctx hstep
  obtain ⟨k, b, cmd, rest', hr, hw, hm⟩ :=
    moves_front hc.linked hstep (rfl : answers [.reply r] = [some r])
  have hab : b = a := by
    have hq := Cluster.queue_eq hc hctx
    rw [hr, hout, List.map_cons, List.cons_append] at hq
    exact (List.cons.inj hq).1
  subst hab
  have hmem : (b, r) ∈ (w.links c).outbox := by
    rw [hout]
    exact List.mem_cons_self
  refine matches_link h (fun c' hc' => (settle_of_link_ne fate b true hc').symm)
    (fun _ _ => ⟨rfl, rfl⟩) rfl ?_ rfl (fun hf => absurd hf hctx)
    (fun l hl => Or.inl hl) ?_
  · refine linkMatches_moves hc hm (h.link c) ?_ ?_ (fun _ _ => rfl) ?_ ?_
    · intro m hmem'
      rw [hout]
      exact List.mem_cons_of_mem _ hmem'
    · obtain ⟨items, hhist, hahead⟩ := (h.link c).history k
      obtain ⟨r', hr', hitems⟩ :=
        ahead_result hahead hw (List.mem_map.mpr ⟨_, hmem, rfl⟩)
      rw [hhist, hitems, settle_self, outbox_unique hc hr' hmem]
      rfl
    · intro k' hk' a' hst
      have hne := ne_of_waits hc.linked hw hk' hst
      refine ⟨(settle_of_ne fate true hne).symm, fun r' => ?_⟩
      rw [hout]
      simp [hne]
    · have hcb : (callbacks es').length = 1 := by
        have hall := (linked_step H (prog c) hc.linked hstep).2
        rw [← List.length_map (f := Prod.snd), hall]
        rfl
      have hlt : (callbacks (linkTrace c tr)).length < (executed c tr).length :=
        (front_executed_iff hc hr).mp
          (executed_of_outbox hc (List.mem_map.mpr ⟨_, hmem, rfl⟩))
      have hzero : overtaken (linkTrace c tr ++ es') (executed c tr) = 0 := by
        rw [overtaken, callbacks_append, List.length_append, hcb]
        omega
      rw [(h.link c).strays, overtaken_connected hc hctx, hzero, List.take_zero,
        List.take_zero]
  · intro a' ha'
    by_cases hne : a' = b
    · subst hne
      rw [settle_self] at ha'
      exact absurd ha' (by simp)
    · rw [settle_of_ne fate true hne] at ha'
      exact Or.inl ha'

/-- The programs call only what the first overload is for. -/
def Dealt (prog : CoroHandle → Program) : Prop :=
  ∀ k history cmd, prog k history = .send cmd → ∃ ret, cmd.op = .deal ret

/-- A call fails: the null pointer is decoded. -/
theorem step_failed {b : World σ} {cmd : Command} (hd : Dealt (prog c))
    (hp : prog c k (b.history c k) = .send cmd) (sent : Bool) :
    ∃ b', step H.fmt S prog b (.failed c k sent) = some (b', [])
      ∧ b'.state = b.state
      ∧ b'.history = (b.learn c k (.result (cmd.op.resumeCallback none))).history
      ∧ (∀ c', c' ≠ c → b'.strays c' = b.strays c')
      ∧ b'.strays c = b.strays c
          ++ if sent then (H.fmt.format cmd.text).toList else [] := by
  obtain ⟨ret, hret⟩ := hd k _ cmd hp
  obtain ⟨text, op⟩ := cmd
  obtain rfl : op = .deal ret := hret
  rw [resumeCallback_deal]
  cases sent with
  | true =>
      refine ⟨(b.learn c k (.result (command ret none))).setStrays c
        (b.strays c ++ (H.fmt.format text).toList), ?_, rfl, rfl, ?_, ?_⟩
      · simp only [step, hp, if_true, learn_strays]
      · intro c' hc'
        exact setStrays_of_ne _ _ hc'
      · exact setStrays_self _ _
  | false =>
      refine ⟨b.learn c k (.result (command ret none)), ?_, rfl, rfl,
        fun _ _ => rfl, (List.append_nil _).symm⟩
      simp only [step, hp, Bool.false_eq_true, if_false]

/-- What is on its way is of the queued awaiter in front, once all that is
    executed has been called back. -/
theorem inbox_front {lk : Link} {es : List CoroCommand.Event}
    {ops : List (Op AwaiterPtr (List Bytes) RedisReply)}
    (h : LinkSound H lk es ops) {a : AwaiterPtr} {rest : List AwaiterPtr}
    {cmd : Command} (hr : lk.session.replies = a :: rest)
    (hw : Waits lk.session k a cmd) (hle : ops.length ≤ (callbacks es).length)
    (hlt : overtaken es ops < lk.inbox.length) :
    ∃ argv, lk.inbox[overtaken es ops]? = some (a, argv)
      ∧ H.fmt.format cmd.text = some argv := by
  obtain ⟨lost, heq, -⟩ := ids_eq h
  obtain ⟨m, hm⟩ : ∃ m, lk.inbox[overtaken es ops]? = some m :=
    ⟨_, List.getElem?_eq_getElem hlt⟩
  have hmem : m ∈ lk.inbox := List.mem_of_getElem? hm
  -- both sides at the position behind the callbacks
  have hpos := congrArg (fun xs => xs[(callbacks es).length]?) heq
  simp only [hr] at hpos
  rw [List.getElem?_append_right (by rw [List.length_map]; exact hle),
    List.length_map, List.getElem?_append_left (by rw [List.length_map]; exact hlt),
    List.getElem?_append_right (by rw [List.length_map]), List.length_map,
    Nat.sub_self, List.getElem?_cons_zero, List.getElem?_map] at hpos
  rw [overtaken] at hm
  rw [hm] at hpos
  obtain rfl : m.1 = a := Option.some.inj hpos
  refine ⟨m.2, hm, ?_⟩
  obtain ⟨cmd₁, hacc, hfmt⟩ :=
    Cluster.accepted_of_requested (Cluster.inbox_worded h hmem).1
  obtain ⟨k₁, hs₁⟩ := h.linked.submitted _ hacc
  obtain ⟨cmd₂, hw₂, hs₂⟩ := h.linked.alive k m.1 hw.1
  obtain ⟨-, rfl⟩ := waits_unique hw hw₂
  obtain ⟨-, rfl⟩ := h.unique _ _ _ _ _ hs₁ hs₂
  exact hfmt

/-- A null reply comes in: the program knows if the request was executed, and
    fails now if it was not. -/
theorem matches_nulled (hs : Sound H S w tr)
    (hp : ∀ c, Poised (prog c) (w.links c).session)
    (hd : ∀ c, Dealt (prog c))
    (hctx : (w.links c).session.ctx = .freeing)
    (hstep : CoroCommand.step H (prog c) (w.links c).session .nullReply
      = some (s', es')) :
    ∃ g, ∀ p, Matches g w tr p → ∃ q, Extends (step H.fmt S prog) p q
      ∧ Matches fate (w.setLink c ⟨s', (w.links c).inbox ++ requested H es',
          (w.links c).outbox⟩) (tr ++ es'.map (.link c)) q := by
  have hc := hs.link c
  obtain ⟨-, hfree, -⟩ := Cluster.step_shows hc.linked hstep
  obtain ⟨k, a, cmd, rest, hr, hw, hm⟩ :=
    moves_front hc.linked hstep (rfl : answers [.nullReply] = [none])
  have hcb : (callbacks es').length = 1 := by
    have hall := (linked_step H (prog c) hc.linked hstep).2
    rw [← List.length_map (f := Prod.snd), hall]
    rfl
  have hover : overtaken (linkTrace c tr ++ es') (executed c tr)
      = (callbacks (linkTrace c tr)).length + 1 - (executed c tr).length := by
    rw [overtaken, callbacks_append, List.length_append, hcb]
  have hreq : requested H es' = [] := by
    obtain ⟨⟨es₁, es₂, rfl, hans, hiss⟩, -, -⟩ :=
      Cluster.step_shows hc.linked hstep
    rw [Cluster.requested_append, (Cluster.requested_answered hans).1,
      Cluster.requested_issued hiss hctx]
    rfl
  by_cases hex : a ∈ (executed c tr).map Op.id
  · -- executed before, with the failure foretold
    have hlt := (front_executed_iff hc hr).mp hex
    have hin : a ∈ (w.links c).outbox.map Prod.fst :=
      outbox_of_executed hc hex (by rw [hr]; exact List.mem_cons_self)
    refine ⟨settle fate c a false, fun p h => ⟨p, extends_refl p, ?_⟩⟩
    refine matches_link h (fun c' hc' => (settle_of_link_ne fate a false hc').symm)
      (fun _ _ => ⟨rfl, rfl⟩) rfl ?_ rfl hfree (fun l hl => Or.inl hl)
      (fun _ _ => Or.inr (hfree hctx))
    refine linkMatches_moves hc hm (h.link c) (fun _ hmem => hmem) ?_
      (fun _ _ => rfl) ?_ ?_
    · obtain ⟨items, hhist, hahead⟩ := (h.link c).history k
      obtain ⟨r, -, hitems⟩ := ahead_result hahead hw hin
      rw [hhist, hitems, settle_self]
      rfl
    · intro k' hk' a' hst
      exact ⟨(settle_of_ne fate false (ne_of_waits hc.linked hw hk' hst)).symm,
        fun _ => Iff.rfl⟩
    · have hzero : overtaken (linkTrace c tr) (executed c tr) = 0 := by
        rw [overtaken]
        omega
      have hzero' : overtaken (linkTrace c tr ++ es') (executed c tr) = 0 := by
        rw [hover]
        omega
      rw [(h.link c).strays, hzero, hzero', List.take_zero, List.take_zero]
  · have hle : (executed c tr).length ≤ (callbacks (linkTrace c tr)).length :=
      Nat.not_lt.mp fun hlt => hex ((front_executed_iff hc hr).mpr hlt)
    have hnot : ∀ a', ((w.links c).session.coros k).status = .suspended a' →
        a' ∉ (w.links c).outbox.map Prod.fst := by
      intro a' hst hin
      have haa : a' = a := by
        have heq := hst.symm.trans hw.1
        injection heq
      exact hex (haa ▸ executed_of_outbox hc hin)
    refine ⟨fate, fun p h => ?_⟩
    obtain ⟨items, hhist, hahead⟩ := (h.link c).history k
    rw [ahead_nil hahead hnot, List.append_nil] at hhist
    have hsend : prog c k (p.state.history c k) = .send cmd := by
      rw [hhist]
      exact (hp c k).calls a cmd hw
    -- whether the request is still on its way
    obtain ⟨b, hb, hbstate, hbhist, hbother, hbself⟩ :=
      step_failed (H := H) (S := S) (hd c) hsend
        (decide (overtaken (linkTrace c tr) (executed c tr)
          < (w.links c).inbox.length))
    refine ⟨_, extends_step hb (extends_refl _), ?_⟩
    refine matches_link h (fun _ _ => rfl) ?_ hbstate ?_ (List.append_nil _)
      hfree ?_ (fun a ha => Or.inl ha)
    · intro c' hc'
      refine ⟨?_, hbother c' hc'⟩
      show b.history c' = _
      rw [hbhist, learn_of_link_ne _ hc']
    · refine linkMatches_moves hc hm (h.link c) (fun _ hmem => hmem) ?_ ?_
        (fun _ _ _ _ => ⟨rfl, fun _ => Iff.rfl⟩) ?_
      · show b.history c k = _
        rw [hbhist, learn_self, hhist]
      · intro k' hk'
        show b.history c k' = _
        rw [hbhist, learn_of_ne _ hk']
      · have hnext : overtaken (linkTrace c tr ++ es') (executed c tr)
            = overtaken (linkTrace c tr) (executed c tr) + 1 := by
          rw [hover, overtaken]
          omega
        show b.strays c = _
        rw [hbself, (h.link c).strays, hnext, hreq, List.append_nil]
        by_cases hlt : overtaken (linkTrace c tr) (executed c tr)
            < (w.links c).inbox.length
        · obtain ⟨argv, hat, hfmt⟩ := inbox_front hc hr hw hle hlt
          rw [List.take_add_one, hat, List.map_append, decide_eq_true hlt, hfmt]
          rfl
        · have hge := Nat.not_lt.mp hlt
          rw [List.take_of_length_le hge,
            List.take_of_length_le (Nat.le_succ_of_le hge),
            decide_eq_false hlt]
          exact List.append_nil _
    · intro l hl
      rcases List.mem_append.mp hl with hold | hnew
      · exact Or.inl hold
      · rw [List.mem_singleton.mp hnew]
        refine Or.inr fun c' hb' => ?_
        exact ⟨(Option.some.inj hb').symm, Or.inl (hfree hctx)⟩

end moves

section serve

variable {a : AwaiterPtr} {verb : Bytes} {args : List Bytes}
  {rest : List (AwaiterPtr × List Bytes)}

/-- The server executes a request, and so does the blocking system. -/
theorem matches_served (h : Matches fate w tr p) {r : σ × RedisReply}
    {es' : List Event} (hes : es' = [⟨c, verb :: args, r.2⟩])
    (hq : ∀ c', c' ≠ c → q.state.history c' = p.state.history c'
      ∧ q.state.strays c' = p.state.strays c')
    (hstate : q.state.state = r.1)
    (hlink : LinkMatches (fate c)
      { w.links c with
        inbox := rest, outbox := (w.links c).outbox ++ [(a, r.2)] }
      (linkTrace c tr) (executed c tr ++ [⟨a, verb :: args, r.2⟩])
      (q.state.history c) (q.state.strays c))
    (htrace : q.trace = p.trace ++ es')
    (hlabels : ∀ l ∈ q.labels, l ∈ p.labels ∨ ∀ c', l.broken = some c' →
      c' = c ∧ ((w.links c).session.ctx = .freeing ∨ ∃ a, fate c a = false)) :
    Matches fate
      { w.setLink c { w.links c with
          inbox := rest, outbox := (w.links c).outbox ++ [(a, r.2)] }
        with state := r.1 }
      (tr ++ [.served c ⟨a, verb :: args, r.2⟩]) q := by
  refine matches_setLink _ r.1 [] [⟨a, verb :: args, r.2⟩] h ⟨rfl, ?_⟩ ?_
    (fun _ _ => rfl) hq hstate ?_ ?_ id hlabels (fun _ ha => Or.inl ha)
  · rw [Cluster.executed_served, if_pos rfl]
  · intro c' hc'
    rw [Cluster.executed_served, if_neg (Ne.symm hc')]
    exact ⟨rfl, rfl⟩
  · rw [List.append_nil]
    exact hlink
  · rw [htrace, hes]
    rfl

/-- The server gets a request of a failed call, and executes it. -/
theorem step_stray (H : Hiredis) (S : Server σ)
    (prog : LinkId → CoroHandle → Program) {b : World σ} {tail : List (List Bytes)}
    (hstr : b.strays c = (verb :: args) :: tail) :
    step H.fmt S prog b (.stray c)
      = some ({ b.setStrays c tail with
                state := (S.apply b.state (verb :: args)).1 },
          [⟨c, verb :: args, (S.apply b.state (verb :: args)).2⟩]) := by
  simp only [step, hstr]

/-- An execution is the blocking call, or a request that nobody waits for any
    more. -/
theorem matches_serve (hs : Sound H S w tr)
    (hp : ∀ c, Poised (prog c) (w.links c).session) (hd : ∀ c, Dealt (prog c))
    (hin : (w.links c).inbox = (a, verb :: args) :: rest)
    (h : Matches fate w tr p) :
    ∃ q, Extends (step H.fmt S prog) p q
      ∧ Matches fate
        { w.setLink c { w.links c with
            inbox := rest
            outbox := (w.links c).outbox
              ++ [(a, (S.apply w.state (verb :: args)).2)] }
          with state := (S.apply w.state (verb :: args)).1 }
        (tr ++ [.served c
          ⟨a, verb :: args, (S.apply w.state (verb :: args)).2⟩]) q := by
  have hc := hs.link c
  by_cases hover : overtaken (linkTrace c tr) (executed c tr) = 0
  · obtain ⟨k, cmd, hw, hsend, hfmt, hnot⟩ := waits_of_served hc (hp c) hin hover
    obtain ⟨ret, hret⟩ := hd c k _ cmd hsend
    have hlevel : p.state.history c k = ((w.links c).session.coros k).history := by
      obtain ⟨items, hhist, hahead⟩ := (h.link c).history k
      rw [ahead_nil hahead hnot, List.append_nil] at hhist
      exact hhist
    rw [← hlevel] at hsend
    cases hf : fate c a with
    | true =>
        -- the reply will come in
        have hstep : step H.fmt S prog p.state (.answered c k)
            = some ({ p.state.learn c k (.result (cmd.op.resumeCallback
                  (some (S.apply w.state (verb :: args)).2))) with
                state := (S.apply w.state (verb :: args)).1 },
              [⟨c, verb :: args, (S.apply w.state (verb :: args)).2⟩]) := by
          obtain ⟨text, op⟩ := cmd
          obtain rfl : op = .deal ret := hret
          have hfmt' : H.fmt.format text = some (verb :: args) := hfmt
          simp only [step, hsend, hfmt', h.state, resumeCallback_deal]
        refine ⟨_, extends_step hstep (extends_refl _), ?_⟩
        refine matches_served h rfl ?_ rfl ?_ rfl ?_
        · intro c' hc'
          exact ⟨learn_of_link_ne _ hc', rfl⟩
        · have hlink := linkMatches_served ((p.state.learn c k
            (.result (cmd.op.resumeCallback
              (some (S.apply w.state (verb :: args)).2)))).history c)
            (S.apply w.state (verb :: args)).2
            hc (h.link c) hin hover hw hnot
            (by rw [learn_self, hf]; rfl) (fun k' hk' => learn_of_ne _ hk')
          have hnone : p.state.strays c = [] := by
            rw [(h.link c).strays, hover]
            rfl
          show LinkMatches _ _ _ _ _ (p.state.strays c)
          rw [hnone]
          exact hlink
        · intro l hl
          rcases List.mem_append.mp hl with hold | hnew
          · exact Or.inl hold
          · rw [List.mem_singleton.mp hnew]
            exact Or.inr fun c' hb => absurd hb (by simp [Label.broken])
    | false =>
        -- the reply will not come in: the call fails, its request does not
        obtain ⟨b, hb, hbstate, hbhist, hbother, hbself⟩ :=
          step_failed (H := H) (S := S) (hd c) hsend true
        have hstr : b.strays c = (verb :: args) :: [] := by
          rw [hbself, (h.link c).strays, hover, hfmt]
          rfl
        have hstep := step_stray H S prog hstr
        rw [hbstate, h.state] at hstep
        refine ⟨_, extends_step hb (extends_step hstep (extends_refl _)), ?_⟩
        refine matches_served h rfl ?_ rfl ?_ (by rw [List.append_nil]) ?_
        · intro c' hc'
          refine ⟨?_, ?_⟩
          · show b.history c' = _
            rw [hbhist, learn_of_link_ne _ hc']
          · exact (setStrays_of_ne b [] hc').trans (hbother c' hc')
        · have hlink := linkMatches_served (b.history c)
            (S.apply w.state (verb :: args)).2
            hc (h.link c) hin hover hw hnot
            (by rw [hbhist, learn_self, hf]; rfl)
            (fun k' hk' => by rw [hbhist, learn_of_ne _ hk'])
          show LinkMatches _ _ _ _ _ ((b.setStrays c []).strays c)
          rw [setStrays_self]
          exact hlink
        · intro l hl
          rcases List.mem_append.mp hl with hold | hnew
          · rcases List.mem_append.mp hold with hold' | hnew'
            · exact Or.inl hold'
            · rw [List.mem_singleton.mp hnew']
              refine Or.inr fun c' hb' => ?_
              exact ⟨(Option.some.inj hb').symm, Or.inr ⟨a, hf⟩⟩
          · rw [List.mem_singleton.mp hnew]
            refine Or.inr fun c' hb' => ?_
            exact ⟨(Option.some.inj hb').symm, Or.inr ⟨a, hf⟩⟩
  · have hfree : (w.links c).session.ctx = .freeing := by
      by_contra hctx
      exact hover (overtaken_connected hc hctx)
    obtain ⟨hstr, hlink⟩ := linkMatches_stray
      (r := (S.apply w.state (verb :: args)).2) hc (h.link c) hin hover
    have hstep := step_stray H S prog hstr
    rw [h.state] at hstep
    refine ⟨_, extends_step hstep (extends_refl _), ?_⟩
    refine matches_served h rfl ?_ rfl ?_ rfl ?_
    · intro c' hc'
      exact ⟨rfl, setStrays_of_ne _ _ hc'⟩
    · show LinkMatches _ _ _ _ _ ((p.state.setStrays c _).strays c)
      rw [setStrays_self]
      exact hlink
    · intro l hl
      rcases List.mem_append.mp hl with hold | hnew
      · exact Or.inl hold
      · rw [List.mem_singleton.mp hnew]
        refine Or.inr fun c' hb' => ?_
        exact ⟨(Option.some.inj hb').symm, Or.inl hfree⟩

end serve

/-- The server gets no more than part of what a freed context sent. -/
theorem matches_lose (h : Matches fate w tr p)
    (hctx : (w.links c).session.ctx = .freeing) (n : Nat) :
    ∃ q, Extends (step H.fmt S prog) p q
      ∧ Matches fate (w.setLink c
          { w.links c with inbox := (w.links c).inbox.take n }) (tr ++ []) q := by
  refine ⟨⟨p.labels ++ [.lose c n], p.state.setStrays c
    ((p.state.strays c).take n), p.trace ++ []⟩,
    extends_step (l := .lose c n) rfl (extends_refl _), ?_⟩
  refine matches_setLink _ w.state [] [] h ⟨rfl, rfl⟩
    (fun _ _ => ⟨rfl, rfl⟩) (fun _ _ => rfl) ?_ h.state ?_ rfl id ?_
    (fun _ ha => Or.inl ha)
  · intro c' hc'
    exact ⟨rfl, setStrays_of_ne _ _ hc'⟩
  · rw [List.append_nil, List.append_nil]
    show LinkMatches _ _ _ _ _ ((p.state.setStrays c _).strays c)
    rw [setStrays_self]
    exact linkMatches_lose (h.link c) n
  · intro l hl
    rcases List.mem_append.mp hl with hold | hnew
    · exact Or.inl hold
    · rw [List.mem_singleton.mp hnew]
      refine Or.inr fun c' hb' => ?_
      exact ⟨(Option.some.inj hb').symm, Or.inl hctx⟩

end world

/-! ## The refinement -/

section refinement

variable {σ : Type} {H : Hiredis} {S : Server σ}
  {prog : LinkId → CoroHandle → Program} {w w' : Cluster.World σ}
  {tr es : List Cluster.Event} {l : Cluster.Label}

/-- **RUN**: every suspended coroutine is at the call it waits for. -/
theorem poised_run {ls : List Cluster.Label}
    (h : Run (Cluster.step H S prog) (Cluster.World.init S) ls w tr) :
    ∀ c, Poised (prog c) (w.links c).session := by
  intro c
  obtain ⟨ls', hrun⟩ := Cluster.link_run h c
  refine (hrun.invariant (fun s es => Linked s es ∧ Poised (prog c) s)
    ⟨linked_init, poised_init _⟩ ?_).2
  rintro s es l s' es' ⟨hl, hp⟩ hs
  exact ⟨(linked_step H (prog c) hl hs).1, poised_step hl hp hs⟩

/-- **STEP**: whatever is guessed after a step, some guess before it lets the
    blocking system follow. -/
theorem matches_step (hs : Sound H S w tr)
    (hp : ∀ c, Poised (prog c) (w.links c).session) (hd : ∀ c, Dealt (prog c))
    (hstep : Cluster.step H S prog w l = some (w', es))
    (fate : LinkId → AwaiterPtr → Bool) :
    ∃ g, ∀ p, Matches g w tr p → ∃ q, Extends (step H.fmt S prog) p q
      ∧ Matches fate w' (tr ++ es) q := by
  rcases Cluster.step_cases hstep with ⟨c, l', hl, s', es', hs', rfl, rfl⟩
    | ⟨c, a, r, rest, hout, s', es', hs', rfl, rfl⟩ | ⟨c, a, rest, hin, -, -⟩
    | ⟨c, a, verb, args, rest, hin, rfl, rfl⟩ | ⟨c, n, hctx, rfl, rfl⟩
  · cases hans : answers [l'] with
    | nil => exact ⟨fate, fun p h => matches_quiet hs hs' hans h hp⟩
    | cons reply others =>
        -- an answer that is no reply is one of the sweep
        cases l' with
        | nullReply =>
            have hctx := (Cluster.step_shows (hs.link c).linked hs').2.2 rfl
            exact matches_nulled hs hp hd hctx hs'
        | reply r => exact absurd rfl (hl r)
        | start k => exact absurd hans (by simp [answers])
        | wake k => exact absurd hans (by simp [answers])
        | disconnect => exact absurd hans (by simp [answers])
        | free => exact absurd hans (by simp [answers])
  · exact ⟨settle fate c a true, fun p h =>
      ⟨p, extends_refl p, matches_received hs hout hs' h⟩⟩
  · -- no request without a verb is ever on its way
    have hmem : (a, []) ∈ (w.links c).inbox := by
      rw [hin]
      exact List.mem_cons_self
    exact absurd rfl (Cluster.inbox_worded (hs.link c) hmem).2
  · exact ⟨fate, fun p h => matches_serve hs hp hd hin h⟩
  · exact ⟨fate, fun p h => matches_lose h hctx n⟩

/-- **REFINEMENT**: whatever the coroutines on all connections do and however
    they are scheduled, blocking programs could have done the same. -/
theorem refines_blocking (H : Hiredis) (S : Server σ)
    (prog : LinkId → CoroHandle → Program) (hw : ∀ c, Worded H (prog c))
    (hd : ∀ c, Dealt (prog c)) (ls : List Cluster.Label) (w : Cluster.World σ)
    (tr : List Cluster.Event)
    (h : Run (Cluster.step H S prog) (Cluster.World.init S) ls w tr) :
    ∃ ls' b tr', Run (step H.fmt S prog) (World.init S) ls' b tr'
      ∧ b.state = w.state
      ∧ tr' = (effects (marks tr)).map Event.of
      ∧ (∀ c k, ∃ items,
          b.history c k = ((w.links c).session.coros k).history ++ items
            ∧ Ahead (fun _ => true) (w.links c) k items)
      ∧ ∀ l ∈ ls', ∀ c, l.broken = some c →
          (w.links c).session.ctx = .freeing := by
  obtain ⟨p, hrun, hm⟩ := run_simulated Matches
    (fun fate => matches_init fate)
    (fun _ _ _ _ _ _ hr hstep fate =>
      matches_step (Cluster.sound_run hw hr) (poised_run hr) hd hstep fate)
    h (fun _ _ => true)
  refine ⟨p.labels, p.state, p.trace, hrun, hm.state, hm.trace, ?_, ?_⟩
  · intro c k
    exact (hm.link c).history k
  · intro l hl c hb
    rcases hm.broken l hl c hb with hctx | ⟨a, ha⟩
    · exact hctx
    · exact absurd ha (by simp)

end refinement

/-! ## Two programs that count -/

theorem dealt_countOnce (c : LinkId) : Dealt (Cluster.countOnce c) := by
  intro k history cmd hsend
  cases history with
  | nil =>
      obtain rfl := Next.send.inj hsend
      exact ⟨.uint64, rfl⟩
  | cons item history => exact absurd hsend (by simp [Cluster.countOnce])

/-- The second program fails although the server has counted for it. -/
theorem refines_blocking_counter :
    ∃ w tr, Run (Cluster.step ⟨hiredisFormat, false⟩ Cluster.counter
        Cluster.countOnce) (Cluster.World.init Cluster.counter)
        Cluster.countLabels w tr
      ∧ ∃ ls b tr', Run (step hiredisFormat Cluster.counter Cluster.countOnce)
          (World.init Cluster.counter) ls b tr'
        ∧ b.state = 2 := by
  obtain ⟨w, tr, hrun, hst⟩ : ∃ w tr,
      Run (Cluster.step ⟨hiredisFormat, false⟩ Cluster.counter Cluster.countOnce)
        (Cluster.World.init Cluster.counter) Cluster.countLabels w tr
      ∧ w.state = 2 := ⟨_, _, run_of_exec rfl, rfl⟩
  obtain ⟨ls, b, tr', hb, hstate, -⟩ := refines_blocking ⟨hiredisFormat, false⟩
    Cluster.counter Cluster.countOnce Cluster.worded_countOnce dealt_countOnce
    Cluster.countLabels w tr hrun
  exact ⟨w, tr, hrun, ls, b, tr', hb, hstate.trans hst⟩

end Blocking
