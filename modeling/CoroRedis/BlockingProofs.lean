import CoroRedis.ClusterOrderProofs

/-! # Blocking calls — the programs as `sync_connection` runs them

    The same programs, with `sync_connection::command` in the place of
    `co_await coro_connection::command`: the call returns when the reply is
    there, so sending, executing and decoding are one step.  A call that fails
    gets a null pointer from `redisCommand`; the request may have left and may
    still be executed some time later.

    Only the first overload of `command` is here; the reply callback of the
    second one gets the null pointer itself.

    * `step_moves` — what one event does to the coroutines of a connection, in
      the terms of this model: one of them learns something, and what it does
      next is what its program says;
    * `poised_step` — a suspended coroutine is at the call it waits for. -/

namespace Blocking

open CoroBytes HiredisFormat RedisReplies TaskAwaiters CoroCommand CommandOrder
open Cluster (LinkId Server)
open RunLog Linear

/-! ## The model -/

/-- `sync_connection_impl::command<RET>`, on what `redisCommand` returns. -/
def command (ret : RetType) (reply : Option RedisReply) : Value :=
  match ret with
  | .string => .string (dealRedisReplyString reply)
  | .strings => .strings (dealRedisReplyStrings reply)
  | .uint64 => .uint64 (dealRedisReplyUint64 reply)

/-- The server and the programs, each at its place. -/
structure World (σ : Type) where
  state : σ
  history : LinkId → CoroHandle → List Item
  /-- Requests of failed calls that may still be executed, oldest first. -/
  strays : LinkId → List (List Bytes)

/-- The server executes a request of link `c`. -/
structure Event where
  link : LinkId
  request : List Bytes
  reply : RedisReply

inductive Label where
  /-- A call returns with the reply. -/
  | answered (c : LinkId) (k : CoroHandle)
  /-- A call returns with a null pointer; `sent` says whether it left. -/
  | failed (c : LinkId) (k : CoroHandle) (sent : Bool)
  /-- What a program waits for besides calls happens. -/
  | wake (c : LinkId) (k : CoroHandle)
  /-- The server gets a request of a failed call. -/
  | stray (c : LinkId)
  /-- Of the requests of failed calls only `n` still reach the server. -/
  | lose (c : LinkId) (n : Nat)

/-- Whether the label is about a broken connection. -/
def Label.broken : Label → Option LinkId
  | .failed c _ _ => some c
  | .stray c => some c
  | .lose c _ => some c
  | _ => none

section step

variable {σ : Type}

def World.init (S : Server σ) : World σ := ⟨S.init, fun _ _ => [], fun _ => []⟩

def World.learn (w : World σ) (c : LinkId) (k : CoroHandle) (item : Item) :
    World σ :=
  { w with
    history := Function.update w.history c
      (Function.update (w.history c) k (w.history c k ++ [item])) }

def World.setStrays (w : World σ) (c : LinkId) (argvs : List (List Bytes)) :
    World σ :=
  { w with strays := Function.update w.strays c argvs }

/-- The transition function. -/
def step (fmt : RedisFormat) (S : Server σ)
    (prog : LinkId → CoroHandle → Program) (w : World σ) :
    Label → Option (World σ × List Event)
  | .answered c k =>
      match prog c k (w.history c k) with
      | .send ⟨text, .deal ret⟩ =>
          match fmt.format text with
          | some (verb :: args) =>
              let r := S.apply w.state (verb :: args)
              some ({ w.learn c k (.result (command ret (some r.2))) with
                      state := r.1 },
                [⟨c, verb :: args, r.2⟩])
          | _ => none
      | _ => none
  | .failed c k sent =>
      match prog c k (w.history c k) with
      | .send ⟨text, .deal ret⟩ =>
          let w := w.learn c k (.result (command ret none))
          if sent then
            some (w.setStrays c (w.strays c ++ (fmt.format text).toList), [])
          else some (w, [])
      | _ => none
  | .wake c k =>
      match prog c k (w.history c k) with
      | .pause => some (w.learn c k .woken, [])
      | _ => none
  | .stray c =>
      match w.strays c with
      | [] => none
      | [] :: rest => some (w.setStrays c rest, [])
      | (verb :: args) :: rest =>
          let r := S.apply w.state (verb :: args)
          some ({ w.setStrays c rest with state := r.1 },
            [⟨c, verb :: args, r.2⟩])
  | .lose c n => some (w.setStrays c ((w.strays c).take n), [])

variable (w : World σ) {c c' : LinkId} {k k' : CoroHandle} {item : Item}

@[simp] theorem learn_state : (w.learn c k item).state = w.state := rfl

@[simp] theorem learn_strays : (w.learn c k item).strays = w.strays := rfl

@[simp] theorem setStrays_history (argvs : List (List Bytes)) :
    (w.setStrays c argvs).history = w.history := rfl

@[simp] theorem setStrays_state (argvs : List (List Bytes)) :
    (w.setStrays c argvs).state = w.state := rfl

@[simp] theorem setStrays_self (argvs : List (List Bytes)) :
    (w.setStrays c argvs).strays c = argvs := Function.update_self _ _ _

theorem setStrays_of_ne (argvs : List (List Bytes)) (h : c' ≠ c) :
    (w.setStrays c argvs).strays c' = w.strays c' := Function.update_of_ne h _ _

/-- The program that learns. -/
theorem learn_self :
    (w.learn c k item).history c k = w.history c k ++ [item] := by
  show Function.update w.history c _ c k = _
  rw [Function.update_self, Function.update_self]

/-- The others on the same link learn nothing. -/
theorem learn_of_ne (h : k' ≠ k) :
    (w.learn c k item).history c k' = w.history c k' := by
  show Function.update w.history c _ c k' = _
  rw [Function.update_self, Function.update_of_ne h]

/-- Nor do those on other links. -/
theorem learn_of_link_ne (h : c' ≠ c) :
    (w.learn c k item).history c' = w.history c' := Function.update_of_ne h _ _

end step

/-- Both classes decode a reply, or none, in the same way. -/
theorem resumeCallback_deal (ret : RetType) (reply : Option RedisReply) :
    (ResumeOp.deal ret).resumeCallback reply = command ret reply := by
  cases ret with
  | string => cases reply <;> rfl
  | strings => cases reply <;> rfl
  | uint64 => cases reply <;> rfl

/-! ## What an event does to the coroutines of a connection -/

section moves

variable {H : Hiredis} {prog : CoroHandle → Program} {s s' : Session}
  {tr es : List CoroCommand.Event} {l : CoroCommand.Label}

/-- What coroutine `k` learns in the event. -/
inductive Learns (s : Session) (l : CoroCommand.Label) (k : CoroHandle) :
    List Item → Prop where
  | started : (s.coros k).status = .fresh → answers [l] = [] →
      Learns s l k []
  | woken : (s.coros k).status = .paused → answers [l] = [] →
      Learns s l k [.woken]
  | resumed {a : AwaiterPtr} {cmd : Command} {reply : Option RedisReply}
      {rest : List AwaiterPtr} :
      s.replies = a :: rest → Waits s k a cmd → answers [l] = [reply] →
      Learns s l k [.result (cmd.op.resumeCallback reply)]

/-- Coroutine `k` stands where its program says. -/
structure At (prog : CoroHandle → Program) (s : Session) (k : CoroHandle) :
    Prop where
  calls : ∀ a cmd, Waits s k a cmd → prog k (s.coros k).history = .send cmd
  pauses : (s.coros k).status = .paused → prog k (s.coros k).history = .pause

/-- All coroutines of a connection do. -/
def Poised (prog : CoroHandle → Program) (s : Session) : Prop :=
  ∀ k, At prog s k

/-- The other coroutines are where they were. -/
def Others (s s' : Session) (k : CoroHandle) : Prop :=
  ∀ k', k' ≠ k → s'.coros k' = s.coros k'
    ∧ ∀ a cmd, Waits s k' a cmd → Waits s' k' a cmd

/-- Coroutine `k` learns `items` and runs to its next suspension. -/
structure Moves (prog : CoroHandle → Program) (s s' : Session)
    (l : CoroCommand.Label) (k : CoroHandle) (items : List Item) : Prop where
  learns : Learns s l k items
  history : (s'.coros k).history = (s.coros k).history ++ items
  fresh : ∀ a, (s'.coros k).status = .suspended a → a = s.nextAwaiter
  standsAt : At prog s' k
  others : Others s s' k

theorem poised_init (prog : CoroHandle → Program) : Poised prog Session.init :=
  fun _ => ⟨fun _ _ h => absurd h.1 (by simp [Session.init]),
    fun h => absurd h (by simp [Session.init])⟩

/-- The others neither move nor lose their awaiters. -/
theorem others_trans {s₁ s₂ s₃ : Session} {k : CoroHandle}
    (h : Others s₁ s₂ k) (h' : Others s₂ s₃ k) : Others s₁ s₃ k := by
  intro k' hk
  obtain ⟨h1, h2⟩ := h k' hk
  obtain ⟨h3, h4⟩ := h' k' hk
  exact ⟨h3.trans h1, fun a cmd hw => h4 a cmd (h2 a cmd hw)⟩

theorem others_setCoro (s : Session) (k : CoroHandle) (c : Coroutine) :
    Others s (s.setCoro k c) k := by
  intro k' hk
  have hsame : (s.setCoro k c).coros k' = s.coros k' :=
    Function.update_of_ne hk _ _
  exact ⟨hsame, fun a cmd hw => ⟨(congrArg _ hsame).trans hw.1, hw.2⟩⟩

/-- The others are suspended on awaiters that have been made. -/
def Made (s : Session) (k : CoroHandle) : Prop :=
  ∀ k', k' ≠ k → ∀ a, (s.coros k').status = .suspended a → a < s.nextAwaiter

/-- A `co_await` leaves the coroutine at its call. -/
theorem coAwait_stands (H : Hiredis) {k : CoroHandle} {cmd : Command}
    (hp : prog k (s.coros k).history = .send cmd) (hm : Made s k) :
    ((s.coAwait H k cmd).1.coros k).history = (s.coros k).history
      ∧ (∀ a, ((s.coAwait H k cmd).1.coros k).status = .suspended a →
          a = s.nextAwaiter)
      ∧ At prog (s.coAwait H k cmd).1 k
      ∧ Others s (s.coAwait H k cmd).1 k := by
  have hcoros : (s.coAwait H k cmd).1.coros = (suspendOn s k cmd).coros := by
    rcases coAwait_cases H s k cmd with ⟨-, heq⟩ | ⟨-, heq⟩ <;> rw [heq]
  have haws : (s.coAwait H k cmd).1.awaiters = (suspendOn s k cmd).awaiters := by
    rcases coAwait_cases H s k cmd with ⟨-, heq⟩ | ⟨-, heq⟩ <;> rw [heq]
  have hwaits : ∀ k' a cmd', Waits (s.coAwait H k cmd).1 k' a cmd'
      ↔ Waits (suspendOn s k cmd) k' a cmd' := by
    intro k' a cmd'
    rw [Waits, Waits, hcoros, haws]
  have hk : (suspendOn s k cmd).coros k
      = ⟨.suspended s.nextAwaiter, (s.coros k).history⟩ :=
    Function.update_self _ _ _
  refine ⟨?_, ?_, ⟨?_, ?_⟩, ?_⟩
  · rw [hcoros, hk]
  · intro a hst
    rw [hcoros, hk] at hst
    injection hst with ha
    exact ha.symm
  · intro a cmd' hw
    have hw' := (hwaits k a cmd').mp hw
    have ha : s.nextAwaiter = a := by
      have hst := hw'.1
      rw [hk] at hst
      injection hst
    obtain ⟨-, rfl⟩ := waits_unique (ha ▸ waits_suspendOn) hw'
    rw [hcoros, hk]
    exact hp
  · intro hst
    rw [hcoros, hk] at hst
    exact absurd hst (by simp)
  · intro k' hk'
    refine ⟨?_, ?_⟩
    · rw [hcoros]
      exact Function.update_of_ne hk' _ _
    · intro a cmd' hw
      exact (hwaits k' a cmd').mpr
        (waits_suspendOn_of_ne hk' (hm k' hk' a hw.1) hw)

/-- A coroutine runs to where its program says. -/
theorem advance_stands (H : Hiredis) (prog : CoroHandle → Program)
    (k : CoroHandle) (hm : Made s k) :
    ((s.advance H prog k).1.coros k).history = (s.coros k).history
      ∧ (∀ a, ((s.advance H prog k).1.coros k).status = .suspended a →
          a = s.nextAwaiter)
      ∧ At prog (s.advance H prog k).1 k
      ∧ Others s (s.advance H prog k).1 k := by
  rw [Session.advance]
  cases hp : prog k (s.coros k).history with
  | send cmd => exact coAwait_stands H hp hm
  | pause =>
      have hk : (s.setCoro k ⟨.paused, (s.coros k).history⟩).coros k = _ :=
        Function.update_self _ _ _
      refine ⟨?_, ?_, ⟨?_, ?_⟩, others_setCoro s k _⟩
      · rw [hk]
      · intro a hst
        rw [hk] at hst
        exact absurd hst (by simp)
      · intro a cmd hw
        exact absurd (hk ▸ hw.1) (by simp)
      · intro _
        rw [hk]
        exact hp
  | finish =>
      have hk : (s.setCoro k ⟨.finished, (s.coros k).history⟩).coros k = _ :=
        Function.update_self _ _ _
      refine ⟨?_, ?_, ⟨?_, ?_⟩, others_setCoro s k _⟩
      · rw [hk]
      · intro a hst
        rw [hk] at hst
        exact absurd hst (by simp)
      · intro a cmd hw
        exact absurd (hk ▸ hw.1) (by simp)
      · intro hst
        rw [hk] at hst
        exact absurd hst (by simp)

/-- The others are suspended on awaiters made before. -/
theorem made_of_others (h : Linked s tr) {s₁ : Session} {k : CoroHandle}
    (ho : Others s s₁ k) (hnext : s₁.nextAwaiter = s.nextAwaiter) :
    Made s₁ k := by
  intro k' hk' a hst
  rw [(ho k' hk').1] at hst
  obtain ⟨cmd, -, hs⟩ := h.alive k' a hst
  rw [hnext]
  exact h.bound k' a cmd hs

/-- What an event does before a coroutine runs. -/
inductive Arrives (s s' : Session) (l : CoroCommand.Label) :
    List CoroCommand.Event → Option CoroHandle → Prop where
  | nobody : s'.coros = s.coros → s'.awaiters = s.awaiters →
      answers [l] = [] → Arrives s s' l [] none
  | somebody {es : List CoroCommand.Event} {k : CoroHandle}
      {items : List Item} : Learns s l k items →
      (s'.coros k).history = (s.coros k).history ++ items → Others s s' k →
      s'.nextAwaiter = s.nextAwaiter → Arrives s s' l es (some k)

theorem arrives_wakeUp {k : CoroHandle} {items : List Item}
    (h : Learns s l k items) : Arrives s (s.wakeUp k items) l [] (some k) := by
  refine .somebody h ?_ (others_setCoro s k _) rfl
  show (Function.update s.coros k _ k).history = _
  rw [Function.update_self]

/-- A callback resumes the coroutine that waits for it. -/
theorem arrives_deliver (h : Linked s tr) {a : AwaiterPtr}
    {rest : List AwaiterPtr} {reply : Option RedisReply}
    {es : List CoroCommand.Event} {k : Option CoroHandle}
    (hr : s.replies = a :: rest) (hans : answers [l] = [reply])
    (hd : s.deliver a rest reply = (s', es, k)) : Arrives s s' l es k := by
  obtain ⟨k₀, cmd, hw, -⟩ := waits_front h hr
  rw [deliver_eq hw reply] at hd
  obtain ⟨rfl, rfl, rfl⟩ : resumeOn s k₀ a rest (cmd.op.resumeCallback reply) = s'
      ∧ _ = es ∧ some k₀ = k := by
    simpa only [Prod.mk.injEq] using hd
  refine .somebody (.resumed hr hw hans) ?_ ?_ rfl
  · show (Function.update s.coros k₀ _ k₀).history = _
    rw [Function.update_self]
  · intro k' hk'
    refine ⟨Function.update_of_ne hk' _ _, ?_⟩
    intro b cmd' hw'
    refine waits_resumeOn_of_ne hk' ?_ hw'
    rintro rfl
    exact hk' (waits_unique hw' hw).1

theorem arrive_learns (h : Linked s tr) {es : List CoroCommand.Event}
    {k : Option CoroHandle} (ha : arrive s l = some (s', es, k)) :
    Arrives s s' l es k := by
  rcases arrive_cases ha with ⟨k₀, items, -, -, -, -, -, hans⟩
    | ⟨ctx, rfl, rfl, rfl, hans⟩ | ⟨a, rest, reply, hr, hd, hans⟩
  · cases l with
    | start k =>
        by_cases hst : (s.coros k).status = .fresh
        · simp only [arrive, if_pos hst, Option.some.injEq, Prod.mk.injEq] at ha
          obtain ⟨rfl, rfl, rfl⟩ := ha
          exact arrives_wakeUp (.started hst hans)
        · simp [arrive, hst] at ha
    | wake k =>
        by_cases hst : (s.coros k).status = .paused
        · simp only [arrive, if_pos hst, Option.some.injEq, Prod.mk.injEq] at ha
          obtain ⟨rfl, rfl, rfl⟩ := ha
          exact arrives_wakeUp (.woken hst hans)
        · simp [arrive, hst] at ha
    | reply r => exact absurd hans (by simp [answers])
    | nullReply => exact absurd hans (by simp [answers])
    | disconnect =>
        by_cases hst : s.ctx = .connected
        · simp only [arrive, if_pos hst, Option.some.injEq, Prod.mk.injEq] at ha
          obtain ⟨rfl, rfl, rfl⟩ := ha
          exact .nobody rfl rfl hans
        · simp [arrive, hst] at ha
    | free =>
        by_cases hst : s.ctx = .freeing
        · simp [arrive, hst] at ha
        · simp only [arrive, if_neg hst, Option.some.injEq, Prod.mk.injEq] at ha
          obtain ⟨rfl, rfl, rfl⟩ := ha
          exact .nobody rfl rfl hans
  · exact .nobody rfl rfl hans
  · exact arrives_deliver h hr hans hd

/-- **STEP**: at most one coroutine moves, and it stands where its program
    says. -/
theorem step_moves (h : Linked s tr)
    (hstep : CoroCommand.step H prog s l = some (s', es)) :
    (s'.coros = s.coros ∧ s'.awaiters = s.awaiters ∧ answers [l] = []
        ∧ es = [])
      ∨ ∃ k items, Moves prog s s' l k items := by
  rw [CoroCommand.step] at hstep
  cases ha : arrive s l with
  | none => simp [ha] at hstep
  | some r =>
      obtain ⟨s₁, es₁, k⟩ := r
      cases arrive_learns h ha with
      | nobody hcoros haws hans =>
          simp only [ha, Option.some.injEq, Prod.mk.injEq] at hstep
          obtain ⟨rfl, rfl⟩ := hstep
          exact Or.inl ⟨hcoros, haws, hans, rfl⟩
      | @somebody _ k items hlearns hhist ho hnext =>
          simp only [ha, Option.some.injEq, Prod.mk.injEq] at hstep
          obtain ⟨rfl, -⟩ := hstep
          obtain ⟨h1, h2, h3, h4⟩ :=
            advance_stands H prog k (made_of_others h ho hnext)
          refine Or.inr ⟨k, items, hlearns, h1.trans hhist, ?_, h3,
            others_trans ho h4⟩
          intro a hst
          rw [← hnext]
          exact h2 a hst

/-- The others' awaits are the same after the event as before. -/
theorem waits_others (h : Linked s tr) {k k' : CoroHandle} (ho : Others s s' k)
    (hk : k' ≠ k) {a : AwaiterPtr} {cmd : Command} :
    Waits s' k' a cmd ↔ Waits s k' a cmd := by
  obtain ⟨hsame, hkeep⟩ := ho k' hk
  constructor
  · intro hw
    obtain ⟨cmd', hw', -⟩ := h.alive k' a ((congrArg _ hsame).symm.trans hw.1)
    obtain ⟨-, rfl⟩ := waits_unique (hkeep a cmd' hw') hw
    exact hw'
  · exact hkeep a cmd

/-- **STEP**: every suspended coroutine stays at the call it waits for. -/
theorem poised_step (h : Linked s tr) (hp : Poised prog s)
    (hstep : CoroCommand.step H prog s l = some (s', es)) : Poised prog s' := by
  intro k'
  rcases step_moves h hstep with ⟨hcoros, haws, -, -⟩ | ⟨k, items, hm⟩
  · refine ⟨?_, ?_⟩
    · intro a cmd hw
      rw [hcoros]
      exact (hp k').calls a cmd ⟨hcoros ▸ hw.1, haws ▸ hw.2⟩
    · rw [hcoros]
      exact (hp k').pauses
  · by_cases hk : k' = k
    · subst hk
      exact hm.standsAt
    · have hsame := (hm.others k' hk).1
      refine ⟨?_, ?_⟩
      · intro a cmd hw
        rw [hsame]
        exact (hp k').calls a cmd ((waits_others h hm.others hk).mp hw)
      · rw [hsame]
        exact (hp k').pauses

end moves

end Blocking
