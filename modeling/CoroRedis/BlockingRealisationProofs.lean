import CoroRedis.BlockingRefinementProofs

/-! # Blocking programs do nothing that coroutines cannot

    The converse of the refinement.  With one program to a connection, a call
    that returns is a command that the server executes and whose reply comes
    in before anything else happens; a call that fails is one whose context is
    freed under it.  A freed context does not come back, so a failed call is
    the last one that its connection makes.

    * `Rests`, `Broken` — where a connection stands between two calls, before
      and after its failure;
    * `rests_start`, `rests_reply`, `rests_wake`, `broken_null`, `broken_wake`
      — how its coroutine gets there;
    * `realises_blocking` — the CONVERSE: every run of the blocking programs is
      one of coroutines, with the same server state, the same executions in the
      same order and the same histories. -/

namespace Blocking

open CoroBytes HiredisFormat RedisReplies TaskAwaiters CoroCommand CommandOrder
open Cluster (LinkId Server Link Caller requested marks onBehalf)
open RunLog Linear Simulation

/-! ## A connection between two calls -/

/-- Whatever the programs of a connection send is a command with a verb. -/
def Formatted (H : Hiredis) (prog : CoroHandle → Program) : Prop :=
  ∀ k history cmd, prog k history = .send cmd →
    ∃ verb args, H.fmt.format cmd.text = some (verb :: args)

/-- The only coroutine of a connection has run as far as it can. -/
structure Rests (H : Hiredis) (prog : CoroHandle → Program) (k : CoroHandle)
    (lk : Link) : Prop where
  ctx : lk.session.ctx = .connected
  outbox : lk.outbox = []
  calls : ∀ cmd, prog k (lk.session.coros k).history = .send cmd →
    ∃ a argv, Waits lk.session k a cmd ∧ H.fmt.format cmd.text = some argv
      ∧ lk.session.replies = [a] ∧ lk.inbox = [(a, argv)]
  idle : (∀ cmd, prog k (lk.session.coros k).history ≠ .send cmd) →
    lk.session.replies = [] ∧ lk.inbox = []
  paused : prog k (lk.session.coros k).history = .pause →
    (lk.session.coros k).status = .paused

/-- The context is being freed; the coroutine makes no call any more. -/
structure Broken (prog : CoroHandle → Program) (k : CoroHandle) (s : Session) :
    Prop where
  ctx : s.ctx = .freeing
  paused : prog k (s.coros k).history = .pause → (s.coros k).status = .paused

section session

variable {H : Hiredis} {prog : CoroHandle → Program} {k : CoroHandle}
  {s : Session} {a : AwaiterPtr} {cmd : Command}

/-- A coroutine stops where its program says. -/
theorem advance_paused (H : Hiredis)
    (hp : prog k (s.coros k).history = .pause) :
    s.advance H prog k = (s.setCoro k ⟨.paused, (s.coros k).history⟩, []) := by
  rw [Session.advance, hp]

theorem advance_finished (H : Hiredis)
    (hp : prog k (s.coros k).history = .finish) :
    s.advance H prog k = (s.setCoro k ⟨.finished, (s.coros k).history⟩, []) := by
  rw [Session.advance, hp]

/-- On a connected context a well-formed command is queued. -/
theorem advance_queued {argv : List Bytes} (hctx : s.ctx = .connected)
    (hp : prog k (s.coros k).history = .send cmd)
    (hfmt : H.fmt.format cmd.text = some argv) :
    s.advance H prog k
      = ({ suspendOn s k cmd with replies := s.replies ++ [s.nextAwaiter] },
        [.sent k s.nextAwaiter cmd, .submitted s.nextAwaiter (some argv),
          .accepted s.nextAwaiter cmd]) := by
  rw [Session.advance, hp]
  rcases coAwait_cases H s k cmd with ⟨-, heq⟩ | ⟨hq, -⟩
  · rw [hfmt] at heq
    exact heq
  · rw [hctx, hfmt] at hq
    exact absurd hq (by simp [Hiredis.queues])

theorem setCoro_self (s : Session) (k : CoroHandle) (c : Coroutine) :
    (s.setCoro k c).coros k = c := Function.update_self _ _ _

theorem suspendOn_self (s : Session) (k : CoroHandle) (cmd : Command) :
    (suspendOn s k cmd).coros k
      = ⟨.suspended s.nextAwaiter, (s.coros k).history⟩ :=
  Function.update_self _ _ _

theorem resumeOn_self (s : Session) (k : CoroHandle) (a : AwaiterPtr)
    (rest : List AwaiterPtr) (v : Value) :
    (resumeOn s k a rest v).coros k
      = ⟨.running, (s.coros k).history ++ [.result v]⟩ :=
  Function.update_self _ _ _

/-- **ADVANCE**: with nothing outstanding, the coroutine runs to its rest. -/
theorem rests_advance (hf : Formatted H prog) (hctx : s.ctx = .connected)
    (hr : s.replies = []) :
    Rests H prog k ⟨(s.advance H prog k).1,
        requested H (s.advance H prog k).2, []⟩
      ∧ ((s.advance H prog k).1.coros k).history = (s.coros k).history := by
  cases hp : prog k (s.coros k).history with
  | send cmd =>
      obtain ⟨verb, args, hfmt⟩ := hf k _ cmd hp
      have hk := suspendOn_self s k cmd
      have hreq : requested H [.sent k s.nextAwaiter cmd,
          .submitted s.nextAwaiter (some (verb :: args)),
          .accepted s.nextAwaiter cmd] = [(s.nextAwaiter, verb :: args)] := by
        simp only [requested, List.filterMap_cons, List.filterMap_nil, hfmt,
          Option.map_some]
      rw [advance_queued hctx hp hfmt, hreq, hr]
      refine ⟨⟨hctx, rfl, ?_, ?_, ?_⟩, ?_⟩
      · intro cmd' hp'
        have hcmd : cmd = cmd' := by
          have hp'' : prog k ((suspendOn s k cmd).coros k).history
              = .send cmd' := hp'
          rw [hk] at hp''
          exact Next.send.inj (hp.symm.trans hp'')
        subst hcmd
        exact ⟨s.nextAwaiter, verb :: args, waits_suspendOn, hfmt, rfl, rfl⟩
      · intro hno
        refine absurd ?_ (hno cmd)
        show prog k ((suspendOn s k cmd).coros k).history = _
        rw [hk]
        exact hp
      · intro hpause
        have hpause' : prog k ((suspendOn s k cmd).coros k).history
            = .pause := hpause
        rw [hk] at hpause'
        exact absurd (hp.symm.trans hpause') (by simp)
      · show ((suspendOn s k cmd).coros k).history = _
        rw [hk]
  | pause =>
      rw [advance_paused H hp]
      refine ⟨⟨hctx, rfl, ?_, fun _ => ⟨hr, rfl⟩, ?_⟩, ?_⟩
      · intro cmd hp'
        rw [setCoro_self] at hp'
        exact absurd (hp.symm.trans hp') (by simp)
      · intro _
        rw [setCoro_self]
      · rw [setCoro_self]
  | finish =>
      rw [advance_finished H hp]
      refine ⟨⟨hctx, rfl, ?_, fun _ => ⟨hr, rfl⟩, ?_⟩, ?_⟩
      · intro cmd hp'
        rw [setCoro_self] at hp'
        exact absurd (hp.symm.trans hp') (by simp)
      · intro hp'
        rw [setCoro_self] at hp'
        exact absurd (hp.symm.trans hp') (by simp)
      · rw [setCoro_self]

/-- **ADVANCE**: on a context that is being freed nothing is sent. -/
theorem broken_advance (H : Hiredis) (prog : CoroHandle → Program)
    (k : CoroHandle) (hctx : s.ctx = .freeing) :
    Broken prog k (s.advance H prog k).1
      ∧ requested H (s.advance H prog k).2 = []
      ∧ ((s.advance H prog k).1.coros k).history = (s.coros k).history := by
  have hctx' : (s.advance H prog k).1.ctx = .freeing :=
    (Cluster.advance_ctx k).trans hctx
  have hreq : requested H (s.advance H prog k).2 = [] :=
    Cluster.requested_issued (Cluster.issued_advance s s k rfl rfl) hctx
  have hsame : ((s.advance H prog k).1.coros k).history
      = (s.coros k).history := by
    cases hp : prog k (s.coros k).history with
    | send cmd =>
        have hcoros : (s.advance H prog k).1.coros
            = (suspendOn s k cmd).coros := by
          rw [Session.advance, hp]
          rcases coAwait_cases H s k cmd with ⟨-, heq⟩ | ⟨-, heq⟩
          · exact congrArg (fun r => r.1.coros) heq
          · exact congrArg (fun r => r.1.coros) heq
        rw [hcoros, suspendOn_self]
    | pause => rw [advance_paused H hp, setCoro_self]
    | finish => rw [advance_finished H hp, setCoro_self]
  refine ⟨⟨hctx', ?_⟩, hreq, hsame⟩
  intro hp
  rw [hsame] at hp
  rw [advance_paused H hp, setCoro_self]

/-! ## The events of a connection -/

/-- A coroutine that is let run runs to its next suspension. -/
theorem step_of_arrive {l : CoroCommand.Label} {s₁ : Session}
    {es : List CoroCommand.Event} (h : arrive s l = some (s₁, es, some k)) :
    CoroCommand.step H prog s l
      = some ((s₁.advance H prog k).1, es ++ (s₁.advance H prog k).2) := by
  rw [CoroCommand.step, h]

/-- The coroutine is called. -/
theorem rests_start (hf : Formatted H prog) :
    ∃ s' es, CoroCommand.step H prog Session.init (.start k) = some (s', es)
      ∧ Rests H prog k ⟨s', requested H es, []⟩
      ∧ (s'.coros k).history = [] := by
  obtain ⟨hrest, hhist⟩ := rests_advance (k := k)
    (s := Session.init.wakeUp k []) hf rfl rfl
  refine ⟨_, _, rfl, hrest, ?_⟩
  rw [hhist]
  show ((Session.init.wakeUp k []).coros k).history = []
  rw [Session.wakeUp, setCoro_self]
  rfl

/-- Its reply comes in. -/
theorem rests_reply (hf : Formatted H prog) (hctx : s.ctx = .connected)
    (hw : Waits s k a cmd) (hr : s.replies = [a]) (r : RedisReply) :
    ∃ s' es, CoroCommand.step H prog s (.reply r) = some (s', es)
      ∧ Rests H prog k ⟨s', requested H es, []⟩
      ∧ (s'.coros k).history
        = (s.coros k).history ++ [.result (cmd.op.resumeCallback (some r))] := by
  obtain ⟨hrest, hhist⟩ := rests_advance (k := k)
    (s := resumeOn s k a [] (cmd.op.resumeCallback (some r))) hf hctx rfl
  have hctx' : s.ctx ≠ .freeing := by
    rw [hctx]
    simp
  have harr : arrive s (.reply r) = some (s.deliver a [] (some r)) := by
    rw [arrive, if_neg hctx', hr]
  rw [deliver_eq hw] at harr
  refine ⟨_, _, step_of_arrive harr, ?_, ?_⟩
  · rw [Cluster.requested_append]
    exact hrest
  · rw [hhist, resumeOn_self]

/-- What it waits for besides replies happens. -/
theorem rests_wake (hf : Formatted H prog) (hctx : s.ctx = .connected)
    (hst : (s.coros k).status = .paused) (hr : s.replies = []) :
    ∃ s' es, CoroCommand.step H prog s (.wake k) = some (s', es)
      ∧ Rests H prog k ⟨s', requested H es, []⟩
      ∧ (s'.coros k).history = (s.coros k).history ++ [.woken] := by
  obtain ⟨hrest, hhist⟩ := rests_advance (k := k)
    (s := s.wakeUp k [.woken]) hf hctx hr
  have harr : arrive s (.wake k) = some (s.wakeUp k [.woken], [], some k) := by
    rw [arrive, if_pos hst]
  refine ⟨_, _, step_of_arrive harr, hrest, ?_⟩
  rw [hhist, Session.wakeUp, setCoro_self]

/-- The sweep over the queue reaches it. -/
theorem broken_null (H : Hiredis) (prog : CoroHandle → Program)
    (hctx : s.ctx = .freeing) (hw : Waits s k a cmd)
    (hr : s.replies = [a]) :
    ∃ s' es, CoroCommand.step H prog s .nullReply = some (s', es)
      ∧ Broken prog k s' ∧ requested H es = []
      ∧ (s'.coros k).history
        = (s.coros k).history ++ [.result (cmd.op.resumeCallback none)] := by
  obtain ⟨hbroken, hreq, hhist⟩ := broken_advance H prog k
    (s := resumeOn s k a [] (cmd.op.resumeCallback none)) hctx
  have harr : arrive s .nullReply = some (s.deliver a [] none) := by
    rw [arrive, if_pos hctx, hr]
  rw [deliver_eq hw] at harr
  refine ⟨_, _, step_of_arrive harr, hbroken, ?_, ?_⟩
  · rw [Cluster.requested_append, hreq]
    rfl
  · rw [hhist, resumeOn_self]

/-- It is woken on a context that is being freed. -/
theorem broken_wake (H : Hiredis) (prog : CoroHandle → Program)
    (hctx : s.ctx = .freeing)
    (hst : (s.coros k).status = .paused) :
    ∃ s' es, CoroCommand.step H prog s (.wake k) = some (s', es)
      ∧ Broken prog k s' ∧ requested H es = []
      ∧ (s'.coros k).history = (s.coros k).history ++ [.woken] := by
  obtain ⟨hbroken, hreq, hhist⟩ := broken_advance H prog k
    (s := s.wakeUp k [.woken]) hctx
  have harr : arrive s (.wake k) = some (s.wakeUp k [.woken], [], some k) := by
    rw [arrive, if_pos hst]
  refine ⟨_, _, step_of_arrive harr, hbroken, hreq, ?_⟩
  rw [hhist, Session.wakeUp, setCoro_self]

end session

/-! ## All connections and the server -/

/-- Where the only coroutine of a connection and its blocking program are. -/
inductive Follows (H : Hiredis) (prog : CoroHandle → Program) (k : CoroHandle)
    (lk : Link) (history : List Item) (strays : List (List Bytes)) : Prop where
  /-- The coroutine is called when the first of its calls is due. -/
  | fresh : lk = .fresh → history = [] → strays = [] →
      Follows H prog k lk history strays
  | rests : Rests H prog k lk → history = (lk.session.coros k).history →
      strays = [] → Follows H prog k lk history strays
  | broken : Broken prog k lk.session →
      history = (lk.session.coros k).history →
      strays = lk.inbox.map Prod.snd → Follows H prog k lk history strays

/-- The coroutines have done what the blocking programs did in `ls`. -/
structure Realised {σ : Type} (H : Hiredis)
    (prog : LinkId → CoroHandle → Program) (own : LinkId → CoroHandle)
    (ls : List Label) (b : World σ) (tr : List Event) (w : Cluster.World σ)
    (tr' : List Cluster.Event) : Prop where
  state : w.state = b.state
  link : ∀ c, Follows H (prog c) (own c) (w.links c) (b.history c (own c))
    (b.strays c)
  trace : (effects (marks tr')).map Event.of = tr
  /-- A context is freed only to make a call fail. -/
  intact : ∀ c, (∀ k sent, Label.failed c k sent ∉ ls) →
    (w.links c).session.ctx = .connected

section world

variable {σ : Type} {H : Hiredis} {S : Server σ}
  {prog : LinkId → CoroHandle → Program} {own : LinkId → CoroHandle}
  {ls ls' : List Label} {b b' : World σ} {tr es : List Event}
  {w : Cluster.World σ} {tr' es' : List Cluster.Event} {c : LinkId}

/-! ### Steps of the coroutines -/

theorem own_step (S : Server σ) {l : CoroCommand.Label} {s' : Session}
    {es : List CoroCommand.Event} (hl : ∀ r, l ≠ .reply r)
    (h : CoroCommand.step H (prog c) (w.links c).session l = some (s', es)) :
    Cluster.step H S prog w (.own c l)
      = some (w.setLink c ⟨s', (w.links c).inbox ++ requested H es,
          (w.links c).outbox⟩, es.map (.link c)) := by
  have hon : w.onLink H (prog c) c l (w.links c).outbox
      = some (w.setLink c ⟨s', (w.links c).inbox ++ requested H es,
          (w.links c).outbox⟩, es.map (.link c)) := by
    rw [Cluster.World.onLink, h]
  cases l with
  | reply r => exact absurd rfl (hl r)
  | start k => exact hon
  | wake k => exact hon
  | disconnect => exact hon
  | free => exact hon
  | nullReply => exact hon

theorem receive_step (S : Server σ) {s' : Session} {es : List CoroCommand.Event}
    {a : AwaiterPtr} {r : RedisReply} {rest : List (AwaiterPtr × RedisReply)}
    (hout : (w.links c).outbox = (a, r) :: rest)
    (h : CoroCommand.step H (prog c) (w.links c).session (.reply r)
      = some (s', es)) :
    Cluster.step H S prog w (.receive c)
      = some (w.setLink c ⟨s', (w.links c).inbox ++ requested H es, rest⟩,
          es.map (.link c)) := by
  simp only [Cluster.step, hout, Cluster.World.onLink, h]

theorem serve_step (H : Hiredis) (S : Server σ)
    (prog : LinkId → CoroHandle → Program) {a : AwaiterPtr} {verb : Bytes} {args : List Bytes}
    {rest : List (AwaiterPtr × List Bytes)}
    (hin : (w.links c).inbox = (a, verb :: args) :: rest) :
    Cluster.step H S prog w (.serve c)
      = some ({ w.setLink c { w.links c with
                  inbox := rest
                  outbox := (w.links c).outbox
                    ++ [(a, (S.apply w.state (verb :: args)).2)] }
                with state := (S.apply w.state (verb :: args)).1 },
          [.served c ⟨a, verb :: args, (S.apply w.state (verb :: args)).2⟩]) := by
  simp only [Cluster.step, hin]

theorem skip_step (H : Hiredis) (S : Server σ)
    (prog : LinkId → CoroHandle → Program) {a : AwaiterPtr}
    {rest : List (AwaiterPtr × List Bytes)}
    (hin : (w.links c).inbox = (a, []) :: rest) :
    Cluster.step H S prog w (.serve c)
      = some (w.setLink c { w.links c with inbox := rest }, []) := by
  simp only [Cluster.step, hin]

theorem lose_step (H : Hiredis) (S : Server σ)
    (prog : LinkId → CoroHandle → Program)
    (hctx : (w.links c).session.ctx = .freeing) (n : Nat) :
    Cluster.step H S prog w (.lose c n)
      = some (w.setLink c
          { w.links c with inbox := (w.links c).inbox.take n }, []) := by
  simp only [Cluster.step, if_pos hctx]

/-! ### Steps of the blocking programs -/

theorem answered_cases {fmt : RedisFormat} {k : CoroHandle}
    (h : step fmt S prog b (.answered c k) = some (b', es)) :
    ∃ text ret verb args, prog c k (b.history c k) = .send ⟨text, .deal ret⟩
      ∧ fmt.format text = some (verb :: args)
      ∧ b' = { b.learn c k (.result (command ret
            (some (S.apply b.state (verb :: args)).2))) with
          state := (S.apply b.state (verb :: args)).1 }
      ∧ es = [⟨c, verb :: args, (S.apply b.state (verb :: args)).2⟩] := by
  simp only [step] at h
  split at h
  case h_1 text ret hp =>
      split at h
      case h_1 verb args hfmt =>
          obtain ⟨rfl, rfl⟩ := Prod.mk.inj (Option.some.inj h)
          exact ⟨text, ret, verb, args, hp, hfmt, rfl, rfl⟩
      case h_2 _ => exact absurd h (by simp)
  case h_2 _ => exact absurd h (by simp)

theorem failed_cases {fmt : RedisFormat} {k : CoroHandle} {sent : Bool}
    (h : step fmt S prog b (.failed c k sent) = some (b', es)) :
    ∃ text ret, prog c k (b.history c k) = .send ⟨text, .deal ret⟩ ∧ es = []
      ∧ b'.state = b.state
      ∧ b'.history = (b.learn c k (.result (command ret none))).history
      ∧ b'.strays = if sent then
          (b.setStrays c (b.strays c ++ (fmt.format text).toList)).strays
        else b.strays := by
  simp only [step] at h
  split at h
  case h_1 text ret hp =>
      cases sent with
      | true =>
          obtain ⟨rfl, rfl⟩ := Prod.mk.inj (Option.some.inj h)
          exact ⟨text, ret, hp, rfl, rfl, rfl, rfl⟩
      | false =>
          obtain ⟨rfl, rfl⟩ := Prod.mk.inj (Option.some.inj h)
          exact ⟨text, ret, hp, rfl, rfl, rfl, rfl⟩
  case h_2 _ => exact absurd h (by simp)

theorem wake_cases {fmt : RedisFormat} {k : CoroHandle}
    (h : step fmt S prog b (.wake c k) = some (b', es)) :
    prog c k (b.history c k) = .pause ∧ b' = b.learn c k .woken
      ∧ es = [] := by
  simp only [step] at h
  split at h
  case h_1 hp =>
      obtain ⟨rfl, rfl⟩ := Prod.mk.inj (Option.some.inj h)
      exact ⟨hp, rfl, rfl⟩
  case h_2 _ => exact absurd h (by simp)

theorem stray_cases {fmt : RedisFormat}
    (h : step fmt S prog b (.stray c) = some (b', es)) :
    (∃ rest, b.strays c = [] :: rest ∧ b' = b.setStrays c rest ∧ es = [])
    ∨ ∃ verb args rest, b.strays c = (verb :: args) :: rest
      ∧ b' = { b.setStrays c rest with
          state := (S.apply b.state (verb :: args)).1 }
      ∧ es = [⟨c, verb :: args, (S.apply b.state (verb :: args)).2⟩] := by
  simp only [step] at h
  split at h
  case h_1 _ => exact absurd h (by simp)
  case h_2 rest hs =>
      obtain ⟨rfl, rfl⟩ := Prod.mk.inj (Option.some.inj h)
      exact Or.inl ⟨rest, hs, rfl, rfl⟩
  case h_3 verb args rest hs =>
      obtain ⟨rfl, rfl⟩ := Prod.mk.inj (Option.some.inj h)
      exact Or.inr ⟨verb, args, rest, hs, rfl, rfl⟩

/-! ### What they do to the relation -/

theorem realised_init (S : Server σ) :
    Realised H prog own [] (World.init S) [] (Cluster.World.init S) [] where
  state := rfl
  link _ := .fresh rfl rfl rfl
  trace := rfl
  intact _ _ := rfl

/-- One connection and the server change; the others stay. -/
theorem realised_setLink (lk : Link) (s : σ)
    (h : Realised H prog own ls b tr w tr')
    (hlink : Follows H (prog c) (own c) lk (b'.history c (own c)) (b'.strays c))
    (hother : ∀ c', c' ≠ c → b'.history c' = b.history c'
      ∧ b'.strays c' = b.strays c')
    (hstate : s = b'.state) (htrace : (effects (marks es')).map Event.of = es)
    (hls : ∀ l ∈ ls, l ∈ ls')
    (hctx : (∀ k sent, Label.failed c k sent ∉ ls') →
      lk.session.ctx = .connected) :
    Realised H prog own ls' b' (tr ++ es) { w.setLink c lk with state := s }
      (tr' ++ es') where
  state := hstate
  link c' := by
    show Follows H _ _ (Function.update w.links c lk c') _ _
    by_cases hc : c' = c
    · subst hc
      rw [Function.update_self]
      exact hlink
    · rw [Function.update_of_ne hc, (hother c' hc).1, (hother c' hc).2]
      exact h.link c'
  trace := by
    rw [Cluster.marks_append, effects_append, List.map_append, h.trace, htrace]
  intact c' hno := by
    show (Function.update w.links c lk c').session.ctx = _
    by_cases hc : c' = c
    · subst hc
      rw [Function.update_self]
      exact hctx hno
    · rw [Function.update_of_ne hc]
      exact h.intact c' fun k sent hmem => hno k sent (hls _ hmem)

/-- A step of a connection executes nothing. -/
theorem effects_link (c : LinkId) (es : List CoroCommand.Event) :
    (effects (marks (es.map (.link c)))).map Event.of = [] := by
  rw [Cluster.effects_map_link]
  rfl

/-- A freed context is that of a connection with a failed call. -/
theorem absurd_intact {α : Prop} (h : Realised H prog own ls b tr w tr')
    (hctx : (w.links c).session.ctx = .freeing) (hls : ∀ l ∈ ls, l ∈ ls')
    (hno : ∀ k sent, Label.failed c k sent ∉ ls') : α := by
  have hcon := h.intact c fun k sent hmem => hno k sent (hls _ hmem)
  rw [hctx] at hcon
  exact absurd hcon (by simp)

/-- The connection that changed last. -/
theorem setLink_self (w : Cluster.World σ) (lk : Link) :
    (w.setLink c lk).links c = lk := Function.update_self _ _ _

theorem setLink_setLink (w : Cluster.World σ) (lk lk' : Link) :
    (w.setLink c lk).setLink c lk' = w.setLink c lk' := by
  simp only [Cluster.World.setLink, Function.update_idem]

/-- The same after an execution. -/
theorem setLink_served (w : Cluster.World σ) (lk lk' : Link) (s : σ) :
    ({ w.setLink c lk with state := s } : Cluster.World σ).setLink c lk'
      = { w.setLink c lk' with state := s } := by
  simp only [Cluster.World.setLink, Function.update_idem]

/-- The connection once its context is being freed. -/
def freed (lk : Link) : Link :=
  { lk with session := { lk.session with ctx := .freeing } }

theorem free_step (H : Hiredis) (S : Server σ)
    (prog : LinkId → CoroHandle → Program)
    (hctx : (w.links c).session.ctx ≠ .freeing) :
    Cluster.step H S prog w (.own c .free)
      = some (w.setLink c (freed (w.links c)), []) := by
  have hstep : CoroCommand.step H (prog c) (w.links c).session .free
      = some ((freed (w.links c)).session, []) := by
    simp only [CoroCommand.step, arrive, if_neg hctx]
    rfl
  have hown := own_step S (by simp) hstep
  have hreq : requested H [] = [] := rfl
  rw [hreq, List.append_nil] at hown
  exact hown

/-! ## One blocking step -/

/-- Some run of the coroutines does what the blocking programs did. -/
def Realisable (H : Hiredis) (S : Server σ)
    (prog : LinkId → CoroHandle → Program) (own : LinkId → CoroHandle)
    (ls : List Label) (b : World σ) (tr : List Event) : Prop :=
  ∃ ms w tr', Run (Cluster.step H S prog) (Cluster.World.init S) ms w tr'
    ∧ Realised H prog own ls b tr w tr'

variable {ms : List Cluster.Label}

/-- Before its first call the coroutine is called itself. -/
theorem rests_of_connected (hf : ∀ c, Formatted H (prog c))
    (hrun : Run (Cluster.step H S prog) (Cluster.World.init S) ms w tr')
    (h : Realised H prog own ls b tr w tr')
    (hctx : (w.links c).session.ctx = .connected) :
    ∃ ms₁ w₁ tr₁, Run (Cluster.step H S prog) (Cluster.World.init S) ms₁ w₁ tr₁
      ∧ Realised H prog own ls b tr w₁ tr₁
      ∧ Rests H (prog c) (own c) (w₁.links c)
      ∧ b.history c (own c) = ((w₁.links c).session.coros (own c)).history
      ∧ b.strays c = [] := by
  cases h.link c with
  | fresh hlk hhist hstr =>
      obtain ⟨s', es', hstep, hrest, hnil⟩ := rests_start (k := own c) (hf c)
      have hsession : (w.links c).session = Session.init := by rw [hlk]; rfl
      have hnext := own_step S (w := w) (c := c) (by simp)
        (hsession ▸ hstep)
      rw [hlk] at hnext
      have hreal : Realised H prog own ls b (tr ++ [])
          (w.setLink c ⟨s', requested H es', []⟩) (tr' ++ es'.map (.link c)) :=
        realised_setLink _ w.state h
          (.rests hrest (hhist.trans hnil.symm) hstr) (fun _ _ => ⟨rfl, rfl⟩)
          h.state (effects_link c es') (fun _ hl => hl) (fun _ => hrest.ctx)
      rw [List.append_nil] at hreal
      refine ⟨_, _, _, hrun.next hnext, hreal, ?_, ?_, hstr⟩
      · show Rests _ _ _ (Function.update w.links c _ c)
        rw [Function.update_self]
        exact hrest
      · show _ = (((Function.update w.links c _ c).session).coros _).history
        rw [Function.update_self]
        exact hhist.trans hnil.symm
  | rests hrest hhist hstr => exact ⟨ms, w, tr', hrun, h, hrest, hhist, hstr⟩
  | broken hbroken _ _ =>
      have hfree := hbroken.ctx
      rw [hctx] at hfree
      exact absurd hfree (by simp)

/-- A call returns: the server executes its request, and the reply comes in. -/
theorem realisable_answered (hf : ∀ c, Formatted H (prog c))
    (hrun : Run (Cluster.step H S prog) (Cluster.World.init S) ms w tr')
    (h : Realised H prog own ls b tr w tr')
    (hrest : Rests H (prog c) (own c) (w.links c))
    (hhist : b.history c (own c)
      = ((w.links c).session.coros (own c)).history)
    (hstr : b.strays c = [])
    (hstep : step H.fmt S prog b (.answered c (own c)) = some (b', es)) :
    Realisable H S prog own (ls ++ [.answered c (own c)]) b' (tr ++ es) := by
  obtain ⟨text, ret, verb, args, hp, hfmt, rfl, rfl⟩ := answered_cases hstep
  rw [hhist] at hp
  obtain ⟨a, argv, hw, hfmt', hq, hin⟩ := hrest.calls _ hp
  obtain rfl : verb :: args = argv := Option.some.inj (hfmt.symm.trans hfmt')
  rw [← h.state]
  obtain ⟨s', es', hreply, hrest', hhist'⟩ := rests_reply (hf c) hrest.ctx hw hq
    (S.apply w.state (verb :: args)).2
  have hserve := serve_step H S prog hin
  have hout : ({ w.setLink c { w.links c with
                    inbox := []
                    outbox := (w.links c).outbox
                      ++ [(a, (S.apply w.state (verb :: args)).2)] }
                 with state := (S.apply w.state (verb :: args)).1 }
      : Cluster.World σ).links c
      = { w.links c with
          inbox := []
          outbox := [(a, (S.apply w.state (verb :: args)).2)] } := by
    show Function.update w.links c _ c = _
    rw [Function.update_self, hrest.outbox, List.nil_append]
  have hrecv := receive_step S (congrArg Link.outbox hout)
    (by rw [hout]; exact hreply)
  rw [hout, setLink_served] at hrecv
  refine ⟨_, _, _, (hrun.next hserve).next hrecv, ?_⟩
  rw [List.append_assoc]
  refine realised_setLink _ _ h (.rests hrest' ?_ hstr)
    (fun c' hc' => ⟨learn_of_link_ne _ hc', rfl⟩) rfl ?_
    (fun _ hl => List.mem_append_left _ hl) (fun _ => hrest'.ctx)
  · show (b.learn c (own c) _).history c (own c) = _
    rw [learn_self, hhist, hhist', resumeCallback_deal]
  · rw [Cluster.marks_append, effects_append, Cluster.effects_map_link,
      List.append_nil]
    rfl

/-- A call fails: the context is freed under it, and its request gets to the
    server or not. -/
theorem realisable_failed {sent : Bool}
    (hrun : Run (Cluster.step H S prog) (Cluster.World.init S) ms w tr')
    (h : Realised H prog own ls b tr w tr')
    (hrest : Rests H (prog c) (own c) (w.links c))
    (hhist : b.history c (own c)
      = ((w.links c).session.coros (own c)).history)
    (hstr : b.strays c = [])
    (hstep : step H.fmt S prog b (.failed c (own c) sent) = some (b', es)) :
    Realisable H S prog own (ls ++ [.failed c (own c) sent]) b' (tr ++ es) := by
  obtain ⟨text, ret, hp, rfl, hbstate, hbhist, hbstr⟩ := failed_cases hstep
  rw [hhist] at hp
  obtain ⟨a, argv, hw, hfmt, hq, hin⟩ := hrest.calls _ hp
  have hcon : (w.links c).session.ctx ≠ .freeing := by
    rw [hrest.ctx]
    simp
  -- the context is freed, the request is lost or not, the sweep comes
  have hfree := free_step H S prog hcon
  have hlose := lose_step H S prog (c := c)
    (w := w.setLink c (freed (w.links c))) (by rw [setLink_self]; rfl)
    (if sent then 1 else 0)
  rw [setLink_self, setLink_setLink] at hlose
  obtain ⟨s', es', hnull, hbroken, hreq, hhist'⟩ :=
    broken_null H (prog c) (k := own c) (a := a)
      (s := (freed (w.links c)).session) rfl hw hq
  have hsweep := own_step S (c := c)
    (w := w.setLink c { freed (w.links c) with
      inbox := (freed (w.links c)).inbox.take (if sent then 1 else 0) })
    (l := .nullReply) (by simp) (by rw [setLink_self]; exact hnull)
  rw [setLink_self, setLink_setLink, hreq, List.append_nil] at hsweep
  have hnil : tr' ++ [] ++ [] = tr' := by
    rw [List.append_nil, List.append_nil]
  refine ⟨_, _, _, ((hrun.next hfree).next hlose).next hsweep, ?_⟩
  rw [hnil]
  refine realised_setLink ⟨s', _, _⟩ w.state h (.broken hbroken ?_ ?_) ?_
    (h.state.trans hbstate.symm) (effects_link c es')
    (fun _ hl => List.mem_append_left _ hl)
    (fun hno => absurd (List.mem_append_right _ List.mem_cons_self)
      (hno (own c) sent))
  · rw [hbhist, learn_self, hhist, hhist', resumeCallback_deal]
    rfl
  · show b'.strays c = ((w.links c).inbox.take (if sent then 1 else 0)).map _
    rw [hbstr, hin]
    cases sent with
    | true =>
        show (b.setStrays c _).strays c = _
        rw [setStrays_self, hstr, hfmt]
        rfl
    | false => exact hstr
  · intro c' hc'
    refine ⟨?_, ?_⟩
    · rw [hbhist, learn_of_link_ne _ hc']
    · rw [hbstr]
      cases sent with
      | true => exact setStrays_of_ne _ _ hc'
      | false => rfl

/-- What the program waits for besides calls happens. -/
theorem realisable_wake (hf : ∀ c, Formatted H (prog c))
    (hrun : Run (Cluster.step H S prog) (Cluster.World.init S) ms w tr')
    (h : Realised H prog own ls b tr w tr')
    (hstep : step H.fmt S prog b (.wake c (own c)) = some (b', es)) :
    Realisable H S prog own (ls ++ [.wake c (own c)]) b' (tr ++ es) := by
  obtain ⟨hp, rfl, rfl⟩ := wake_cases hstep
  have hconnected : (w.links c).session.ctx = .connected →
      Realisable H S prog own (ls ++ [.wake c (own c)])
        (b.learn c (own c) .woken) (tr ++ []) := by
    intro hctx
    obtain ⟨ms₁, w₁, tr₁, hrun₁, h₁, hrest, hhist, hstr⟩ :=
      rests_of_connected hf hrun h hctx
    have hp₁ := hp
    rw [hhist] at hp₁
    obtain ⟨hq, hin⟩ := hrest.idle fun cmd hsend => by
      rw [hp₁] at hsend
      exact absurd hsend (by simp)
    obtain ⟨s', es', hwake, hrest', hhist'⟩ :=
      rests_wake (hf c) hrest.ctx (hrest.paused hp₁) hq
    have hnext := own_step S (by simp) hwake
    rw [hin, hrest.outbox] at hnext
    refine ⟨_, _, _, hrun₁.next hnext, ?_⟩
    refine realised_setLink _ w₁.state h₁ (.rests hrest' ?_ hstr)
      (fun c' hc' => ⟨learn_of_link_ne _ hc', rfl⟩) h₁.state
      (effects_link c es') (fun _ hl => List.mem_append_left _ hl)
      (fun _ => hrest'.ctx)
    rw [learn_self, hhist, hhist']
  cases h.link c with
  | fresh hlk _ _ => exact hconnected (by rw [hlk]; rfl)
  | rests hrest _ _ => exact hconnected hrest.ctx
  | broken hbroken hhist hstr =>
      have hp₁ := hp
      rw [hhist] at hp₁
      obtain ⟨s', es', hwake, hbroken', hreq, hhist'⟩ :=
        broken_wake H (prog c) hbroken.ctx (hbroken.paused hp₁)
      have hnext := own_step S (by simp) hwake
      rw [hreq, List.append_nil] at hnext
      refine ⟨_, _, _, hrun.next hnext, ?_⟩
      refine realised_setLink _ w.state h (.broken hbroken' ?_ hstr)
        (fun c' hc' => ⟨learn_of_link_ne _ hc', rfl⟩) h.state
        (effects_link c es') (fun _ hl => List.mem_append_left _ hl)
        (absurd_intact h hbroken.ctx fun _ hl => List.mem_append_left _ hl)
      rw [learn_self, hhist, hhist']

/-- Only a connection that has failed leaves requests behind. -/
theorem broken_of_strays (h : Realised H prog own ls b tr w tr')
    {argv : List Bytes} {rest : List (List Bytes)}
    (hstr : b.strays c = argv :: rest) :
    Broken (prog c) (own c) (w.links c).session
      ∧ b.history c (own c) = ((w.links c).session.coros (own c)).history
      ∧ ∃ a inbox, (w.links c).inbox = (a, argv) :: inbox
        ∧ inbox.map Prod.snd = rest := by
  cases h.link c with
  | fresh _ _ hnil =>
      rw [hnil] at hstr
      exact absurd hstr (by simp)
  | rests _ _ hnil =>
      rw [hnil] at hstr
      exact absurd hstr (by simp)
  | broken hbroken hhist hin =>
      rw [hin] at hstr
      obtain ⟨m, inbox, hcons, rfl, hrest⟩ := List.map_eq_cons_iff.mp hstr
      exact ⟨hbroken, hhist, m.1, inbox, hcons, hrest⟩

/-- The server gets a request of a failed call. -/
theorem realisable_stray
    (hrun : Run (Cluster.step H S prog) (Cluster.World.init S) ms w tr')
    (h : Realised H prog own ls b tr w tr')
    (hstep : step H.fmt S prog b (.stray c) = some (b', es)) :
    Realisable H S prog own (ls ++ [.stray c]) b' (tr ++ es) := by
  rcases stray_cases hstep with ⟨rest, hstr, rfl, rfl⟩
    | ⟨verb, args, rest, hstr, rfl, rfl⟩
  · obtain ⟨hbroken, hhist, a, inbox, hin, rfl⟩ := broken_of_strays h hstr
    refine ⟨_, _, _, hrun.next (skip_step H S prog hin), ?_⟩
    exact realised_setLink _ w.state h (.broken hbroken hhist (setStrays_self _ _))
      (fun c' hc' => ⟨rfl, setStrays_of_ne _ _ hc'⟩) h.state rfl
      (fun _ hl => List.mem_append_left _ hl)
      (absurd_intact h hbroken.ctx fun _ hl => List.mem_append_left _ hl)
  · obtain ⟨hbroken, hhist, a, inbox, hin, rfl⟩ := broken_of_strays h hstr
    refine ⟨_, _, _, hrun.next (serve_step H S prog hin), ?_⟩
    rw [← h.state]
    exact realised_setLink _ _ h (.broken hbroken hhist (setStrays_self _ _))
      (fun c' hc' => ⟨rfl, setStrays_of_ne _ _ hc'⟩) rfl rfl
      (fun _ hl => List.mem_append_left _ hl)
      (absurd_intact h hbroken.ctx fun _ hl => List.mem_append_left _ hl)

/-- Requests of a failed call get lost. -/
theorem realisable_lose {n : Nat}
    (hrun : Run (Cluster.step H S prog) (Cluster.World.init S) ms w tr')
    (h : Realised H prog own ls b tr w tr') :
    Realisable H S prog own (ls ++ [.lose c n])
      (b.setStrays c ((b.strays c).take n)) (tr ++ []) := by
  cases hstr : b.strays c with
  | nil =>
      -- there is nothing to lose
      have hsame : b.setStrays c ([].take n) = b := by
        rw [List.take_nil, ← hstr]
        show { b with strays := Function.update b.strays c (b.strays c) } = b
        rw [Function.update_eq_self]
      rw [hsame, List.append_nil]
      exact ⟨_, _, _, hrun, h.state, h.link, h.trace, fun c' hno =>
        h.intact c' fun k sent hl => hno k sent (List.mem_append_left _ hl)⟩
  | cons argv rest =>
      obtain ⟨hbroken, hhist, a, inbox, hin, rfl⟩ := broken_of_strays h hstr
      refine ⟨_, _, _, hrun.next (lose_step H S prog hbroken.ctx n), ?_⟩
      refine realised_setLink _ w.state h (.broken hbroken hhist ?_)
        (fun c' hc' => ⟨rfl, setStrays_of_ne _ _ hc'⟩) h.state rfl
        (fun _ hl => List.mem_append_left _ hl)
        (absurd_intact h hbroken.ctx fun _ hl => List.mem_append_left _ hl)
      show _ = ((w.links c).inbox.take n).map Prod.snd
      rw [setStrays_self, hin, List.map_take]
      rfl

/-! ## Runs of one program to a connection -/

/-- The label is about the one program of its link. -/
def Label.OnlyBy (own : LinkId → CoroHandle) : Label → Prop
  | .answered c k => k = own c
  | .failed c k _ => k = own c
  | .wake c k => k = own c
  | .stray _ => True
  | .lose _ _ => True

/-- The link that a call is made on. -/
def Label.called : Label → Option LinkId
  | .answered c _ => some c
  | .failed c _ _ => some c
  | _ => none

/-- No call on the link has failed before. -/
def NotFailed (before : List Label) (l : Label) : Prop :=
  ∀ c, l.called = some c → ∀ k sent, Label.failed c k sent ∉ before

/-- **STEP**: whatever the blocking programs do next, coroutines can. -/
theorem realisable_step (hf : ∀ c, Formatted H (prog c)) {l : Label}
    (h : Realisable H S prog own ls b tr) (hown : l.OnlyBy own)
    (hnot : NotFailed ls l)
    (hstep : step H.fmt S prog b l = some (b', es)) :
    Realisable H S prog own (ls ++ [l]) b' (tr ++ es) := by
  obtain ⟨ms, w, tr', hrun, hreal⟩ := h
  cases l with
  | answered c k =>
      obtain rfl : k = own c := hown
      obtain ⟨ms₁, w₁, tr₁, hrun₁, h₁, hrest, hhist, hstr⟩ :=
        rests_of_connected hf hrun hreal (hreal.intact c (hnot c rfl))
      exact realisable_answered hf hrun₁ h₁ hrest hhist hstr hstep
  | failed c k sent =>
      obtain rfl : k = own c := hown
      obtain ⟨ms₁, w₁, tr₁, hrun₁, h₁, hrest, hhist, hstr⟩ :=
        rests_of_connected hf hrun hreal (hreal.intact c (hnot c rfl))
      exact realisable_failed hrun₁ h₁ hrest hhist hstr hstep
  | wake c k =>
      obtain rfl : k = own c := hown
      exact realisable_wake hf hrun hreal hstep
  | stray c => exact realisable_stray hrun hreal hstep
  | lose c n =>
      obtain ⟨rfl, rfl⟩ := Prod.mk.inj (Option.some.inj hstep)
      exact realisable_lose hrun hreal

/-- Coroutine and program of a connection have the same history. -/
theorem history_of_follows {lk : Link} {k : CoroHandle}
    {prog : CoroHandle → Program} {history : List Item}
    {strays : List (List Bytes)} (h : Follows H prog k lk history strays) :
    (lk.session.coros k).history = history := by
  cases h with
  | fresh hlk hhist _ =>
      rw [hlk, hhist]
      rfl
  | rests _ hhist _ => exact hhist.symm
  | broken _ hhist _ => exact hhist.symm

/-- **CONVERSE**: what one blocking program on each connection can do, with the
    call that fails the last one on its connection, coroutines can do too. -/
theorem realises_blocking (H : Hiredis) (S : Server σ)
    (prog : LinkId → CoroHandle → Program) (own : LinkId → CoroHandle)
    (hf : ∀ c, Formatted H (prog c)) (ls : List Label) (b : World σ)
    (tr : List Event) (h : Run (step H.fmt S prog) (World.init S) ls b tr)
    (hown : ∀ l ∈ ls, l.OnlyBy own) (hlast : AtEach NotFailed ls) :
    ∃ ms w tr', Run (Cluster.step H S prog) (Cluster.World.init S) ms w tr'
      ∧ w.state = b.state
      ∧ (effects (marks tr')).map Event.of = tr
      ∧ (∀ c, ((w.links c).session.coros (own c)).history
          = b.history c (own c))
      ∧ ∀ c, (∀ k sent, Label.failed c k sent ∉ ls) →
          (w.links c).session.ctx = .connected := by
  have hall : Realisable H S prog own ls b tr := by
    induction h with
    | start => exact ⟨[], _, _, Run.start, realised_init S⟩
    | @next ls b b' tr es l hr hstep ih =>
        obtain ⟨hbefore, hnot⟩ := atEach_snoc.mp hlast
        refine realisable_step hf (ih ?_ hbefore) ?_ hnot hstep
        · exact fun l' hl => hown l' (List.mem_append_left _ hl)
        · exact hown l (List.mem_append_right _ List.mem_cons_self)
  obtain ⟨ms, w, tr', hrun, hreal⟩ := hall
  exact ⟨ms, w, tr', hrun, hreal.state, hreal.trace,
    fun c => history_of_follows (hreal.link c), hreal.intact⟩

end world

/-! ## Two programs that count -/

theorem formatted_countOnce (c : LinkId) :
    Formatted ⟨hiredisFormat, false⟩ (Cluster.countOnce c) := by
  intro k history cmd hsend
  cases history with
  | nil =>
      obtain rfl := Next.send.inj hsend
      exact ⟨lit "incr", [lit "n"], rfl⟩
  | cons item history => exact absurd hsend (by simp [Cluster.countOnce])

/-- The call on the second connection fails, and its request is executed. -/
theorem realises_blocking_counter :
    ∃ b tr, Run (step hiredisFormat Cluster.counter Cluster.countOnce)
        (World.init Cluster.counter)
        [.answered 0 0, .failed 1 0 true, .stray 1] b tr
      ∧ ∃ ms w tr', Run (Cluster.step ⟨hiredisFormat, false⟩ Cluster.counter
          Cluster.countOnce) (Cluster.World.init Cluster.counter) ms w tr'
        ∧ w.state = 2 ∧ (w.links 0).session.ctx = .connected := by
  obtain ⟨b, tr, hrun, hst⟩ : ∃ b tr,
      Run (step hiredisFormat Cluster.counter Cluster.countOnce)
        (World.init Cluster.counter)
        [.answered 0 0, .failed 1 0 true, .stray 1] b tr
      ∧ b.state = 2 := ⟨_, _, run_of_exec rfl, rfl⟩
  have hlast : AtEach NotFailed [.answered 0 0, .failed 1 0 true, .stray 1] := by
    have h₁ : AtEach NotFailed ([] ++ [Label.answered 0 0]) :=
      atEach_snoc.mpr ⟨atEach_nil _, by simp [NotFailed]⟩
    have h₂ : AtEach NotFailed
        ([Label.answered 0 0] ++ [Label.failed 1 0 true]) :=
      atEach_snoc.mpr ⟨h₁, by simp [NotFailed]⟩
    exact atEach_snoc.mpr ⟨h₂, by simp [NotFailed, Label.called]⟩
  obtain ⟨ms, w, tr', hrun', hstate, -, -, hctx⟩ :=
    realises_blocking ⟨hiredisFormat, false⟩ Cluster.counter Cluster.countOnce
      (fun _ => 0) formatted_countOnce _ b tr hrun
      (by simp [Label.OnlyBy]) hlast
  exact ⟨b, tr, hrun, ms, w, tr', hrun', hstate.trans hst,
    hctx 0 (by simp)⟩

end Blocking
