import CoroRedis.ClientRunProofs

/-! # The `redis_client` of the examples

    One connection for a whole program: `redis_ctx_` is a bare pointer to a
    hiredis context, the callbacks of the contexts and `status()` call
    `reconnect()`, and `reconnect()` does nothing within five seconds of its
    last attempt.

    * `leaks_step` — a context that `connect` leaves behind, with `err` set or
      not attached, has no callbacks and is never freed;
    * `single_step`, `broken_step` — what keeps `redis_ctx_` at the one context
      that has callbacks, and that nothing else does;
    * `single_iff` — the CONNECTION: over a whole run it is kept exactly when
      every lost connection is replaced in its own disconnect callback and no
      attempt succeeds beside a connection; then no command reads a freed
      context.  Attempts are five seconds apart, and the contexts left behind
      are there for good, in any case. -/

namespace Reconnect

open CoroBytes
open ClientConnect (CtxPtr Created REDIS_OK Valid)
open ClientRuns (Attempt)
open RunLog

/-! ## The client -/

/-- An `event_base`, by its address. -/
abbrev BasePtr := Nat

def REDIS_CONNECTED : Int := 2
def REDIS_DISCONNECTING : Int := 4

/-- A context between its calls of the callbacks. -/
inductive Phase where
  | connecting
  | connected
  /-- Made, but `connect` returned before it set the callbacks. -/
  | leaked
  | freed
  deriving DecidableEq

/-- The callbacks of the client are set, and hiredis has not freed it. -/
def Phase.wired : Phase → Bool
  | .connecting => true
  | .connected => true
  | .leaked => false
  | .freed => false

/-- The fields of `redis_client`. -/
structure RedisClient where
  base : Option BasePtr
  host : Bytes
  port : UInt16
  redisCtx : Option CtxPtr
  lastReconnectTime : Int

/-- The client and the contexts hiredis has; those from `nextCtx` on have not
    been made. -/
structure World where
  client : RedisClient
  ctxs : CtxPtr → Phase
  nextCtx : CtxPtr
  faulted : Bool

inductive Event where
  /-- `reconnect()` calls `connect` at this time. -/
  | attempt (now : Int)
  /-- The command is handed to hiredis. -/
  | submitted (x : CtxPtr) (cmd : Bytes)
  /-- `REDIS_ERR`, or an awaiter without callbacks. -/
  | refused (cmd : Bytes)
  /-- `connect` drops a context that hiredis has made. -/
  | leaked (x : CtxPtr)
  /-- The flags of a freed context are read. -/
  | readFreed (x : CtxPtr)
  deriving DecidableEq

namespace World

def init : World where
  client := ⟨none, [], 0, none, 0⟩
  ctxs _ := .freed
  nextCtx := 0
  faulted := false

def setPhase (w : World) (x : CtxPtr) (ph : Phase) : World :=
  { w with ctxs := Function.update w.ctxs x ph }

/-- `connect(base, host, port)`; what it is given is kept before it is
    checked.  An `ASSERT_RETURN` behind `redisAsyncConnectWithOptions` drops
    the context, if there is one. -/
def connect (w : World) (base : Option BasePtr) (host : Bytes) (port : UInt16)
    (o : Attempt) : World × List Event :=
  let w := { w with
    client := { w.client with base := base, host := host, port := port } }
  if base.isNone ∨ host = [] ∨ ¬ port > 0 then (w, [])
  else
    match o.created w.nextCtx, (o.created w.nextCtx).usable (fun _ => o.attach) with
    | .null, _ => (w, [])
    | .ctx x _, none =>
        ({ w with
            ctxs := Function.update w.ctxs x .leaked
            nextCtx := x + 1 }, [.leaked x])
    | .ctx _ _, some x =>
        ({ w with
            client := { w.client with redisCtx := some x }
            ctxs := Function.update w.ctxs x .connecting
            nextCtx := x + 1 }, [])

/-- `reconnect()` when `time(0)` is `now`. -/
def reconnect (w : World) (now : Int) (o : Attempt) : World × List Event :=
  if now - w.client.lastReconnectTime < 5 then (w, [])
  else
    let w := { w with client := { w.client with lastReconnectTime := now } }
    let r := w.connect w.client.base w.client.host w.client.port o
    (r.1, .attempt now :: r.2)

/-- `clean()`. -/
def clean (w : World) : World :=
  { w with client := { w.client with redisCtx := none } }

/-- `c.flags & REDIS_CONNECTED` of a context that is alive. -/
def flags (w : World) (x : CtxPtr) : Option Int :=
  match w.ctxs x with
  | .connecting => some 0
  | .connected => some REDIS_CONNECTED
  | .leaked => some 0
  | .freed => none

/-- `status()`; `none` where it reads a freed context. -/
def status (w : World) (now : Int) (o : Attempt) :
    Option (World × List Event × Int) := do
  let r ← match w.client.redisCtx with
    | none => some (w.reconnect now o)
    | some x => (w.flags x).map fun f =>
        if f = REDIS_CONNECTED then (w, []) else w.reconnect now o
  let f ← match r.1.client.redisCtx with
    | none => some REDIS_DISCONNECTING
    | some x => r.1.flags x
  pure (r.1, r.2, f)

/-- A command, once there is no need to look for a null `redis_ctx_`. -/
def send (w : World) (cmd : Bytes) (now : Int) (o : Attempt) :
    World × List Event :=
  match w.status now o with
  | none => ({ w with faulted := true }, w.client.redisCtx.toList.map .readFreed)
  | some (w', es, f) =>
      match w'.client.redisCtx with
      | none => (w', es ++ [.refused cmd])
      | some x =>
          if f = REDIS_CONNECTED then (w', es ++ [.submitted x cmd])
          else (w', es ++ [.refused cmd])

/-- `async_command`. -/
def asyncCommand (w : World) (cmd : Bytes) (now : Int) (o : Attempt) :
    World × List Event :=
  if w.client.redisCtx = none then (w, [.refused cmd]) else w.send cmd now o

/-- `coro_command`, awaited where it is called. -/
def coroCommand (w : World) (cmd : Bytes) (now : Int) (o : Attempt) :
    World × List Event :=
  w.send cmd now o

/-- The connect callback; hiredis frees a context that did not connect. -/
def connectCb (w : World) (x : CtxPtr) (status : Int) : World :=
  if status = REDIS_OK then w.setPhase x .connected
  else w.clean.setPhase x .freed

/-- The disconnect callback; the context is freed behind it. -/
def disconnectCb (w : World) (x : CtxPtr) (now : Int) (o : Attempt) :
    World × List Event :=
  let r := w.reconnect now o
  (r.1.setPhase x .freed, r.2)

end World

/-- One call of the program or one callback of hiredis. -/
inductive Label where
  | connect (base : Option BasePtr) (host : Bytes) (port : UInt16) (o : Attempt)
  | asyncCommand (cmd : Bytes) (now : Int) (o : Attempt)
  | coroCommand (cmd : Bytes) (now : Int) (o : Attempt)
  | connectCb (x : CtxPtr) (status : Int)
  | disconnectCb (x : CtxPtr) (now : Int) (o : Attempt)

def stepOk (w : World) : Label → Option (World × List Event)
  | .connect base host port o => some (w.connect base host port o)
  | .asyncCommand cmd now o => some (w.asyncCommand cmd now o)
  | .coroCommand cmd now o => some (w.coroCommand cmd now o)
  | .connectCb x status =>
      if w.ctxs x = .connecting then some (w.connectCb x status, []) else none
  | .disconnectCb x now o =>
      if w.ctxs x = .connected then some (w.disconnectCb x now o) else none

/-- Nothing is said about a program that has read a freed context. -/
def step (w : World) (l : Label) : Option (World × List Event) :=
  if w.faulted then none else stepOk w l

/-! ## What the functions do -/

/-- A call of `connect` that gets a context. -/
def Connects (base : Option BasePtr) (host : Bytes) (port : UInt16)
    (o : Attempt) : Prop :=
  base ≠ none ∧ Valid host port ∧ o.Ok

/-- A call of `reconnect()` that gets a context. -/
def Due (w : World) (now : Int) (o : Attempt) : Prop :=
  5 ≤ now - w.client.lastReconnectTime
    ∧ Connects w.client.base w.client.host w.client.port o

/-- `redis_ctx_` stays; a context that is made is left behind. -/
structure Misses (w w' : World) (es : List Event) : Prop where
  redisCtx : w'.client.redisCtx = w.client.redisCtx
  ctxs : ∀ x, w'.ctxs x = if Event.leaked x ∈ es then .leaked else w.ctxs x
  leaks : ∀ x, Event.leaked x ∈ es → w.nextCtx ≤ x ∧ x < w'.nextCtx
  nextCtx : w.nextCtx ≤ w'.nextCtx

/-- `redis_ctx_` is a new context. -/
structure Opens (w w' : World) (es : List Event) : Prop where
  redisCtx : w'.client.redisCtx = some w.nextCtx
  ctxs : w'.ctxs = Function.update w.ctxs w.nextCtx .connecting
  leaks : ∀ x, Event.leaked x ∉ es
  nextCtx : w'.nextCtx = w.nextCtx + 1

section functions

variable {w : World} {base : Option BasePtr} {host : Bytes} {port : UInt16}
  {o : Attempt} {now : Int}

theorem usable_created (x : CtxPtr) (o : Attempt) :
    (o.created x).usable (fun _ => o.attach) = if o.Ok then some x else none := by
  rw [Attempt.created]
  cases herr : o.err with
  | none =>
      have hno : ¬ o.Ok := fun h => absurd (herr.symm.trans h.1) (by simp)
      rw [if_neg hno]
      rfl
  | some err =>
      simp only [Created.usable, Attempt.Ok, herr, Option.some.injEq]
      by_cases he : err = 0
      · by_cases ha : o.attach = REDIS_OK
        · simp [he, ha]
        · simp [he, ha]
      · simp [he]

/-- Nothing is made. -/
theorem misses_refl {w w' : World} {es : List Event}
    (hctx : w'.client.redisCtx = w.client.redisCtx) (hctxs : w'.ctxs = w.ctxs)
    (hnext : w'.nextCtx = w.nextCtx) (hes : ∀ x, Event.leaked x ∉ es) :
    Misses w w' es where
  redisCtx := hctx
  ctxs x := by rw [if_neg (hes x), hctxs]
  leaks x hx := absurd hx (hes x)
  nextCtx := Nat.le_of_eq hnext.symm

theorem connect_cases (w : World) (base : Option BasePtr) (host : Bytes)
    (port : UInt16) (o : Attempt) :
    (Connects base host port o
        ∧ Opens w (w.connect base host port o).1 (w.connect base host port o).2)
      ∨ (¬ Connects base host port o
        ∧ Misses w (w.connect base host port o).1
          (w.connect base host port o).2) := by
  by_cases hchecks : base.isNone ∨ host = [] ∨ ¬ port > 0
  · refine Or.inr ⟨?_, ?_⟩
    · rintro ⟨hbase, ⟨hhost, hport⟩, -⟩
      rcases hchecks with h | h | h
      · exact hbase (Option.isNone_iff_eq_none.mp h)
      · exact hhost h
      · exact h hport
    · rw [World.connect, if_pos hchecks]
      exact misses_refl rfl rfl rfl (by simp)
  · have hvalid : base ≠ none ∧ Valid host port := by
      refine ⟨fun h => hchecks (Or.inl (by simp [h])),
        fun h => hchecks (Or.inr (Or.inl h)), ?_⟩
      exact Classical.byContradiction fun h => hchecks (Or.inr (Or.inr h))
    rw [World.connect, if_neg hchecks, usable_created]
    cases herr : o.err with
    | none =>
        have hno : ¬ o.Ok := fun h => absurd (herr.symm.trans h.1) (by simp)
        rw [Attempt.created, herr]
        exact Or.inr ⟨fun h => hno h.2.2, misses_refl rfl rfl rfl (by simp)⟩
    | some err =>
        rw [Attempt.created, herr]
        by_cases hok : o.Ok
        · rw [if_pos hok]
          exact Or.inl ⟨⟨hvalid.1, hvalid.2, hok⟩, rfl, rfl, by simp, rfl⟩
        · rw [if_neg hok]
          refine Or.inr ⟨fun h => hok h.2.2, rfl, fun x => ?_, fun x hx => ?_,
            Nat.le_succ _⟩
          · by_cases hx : x = w.nextCtx
            · subst hx
              simp
            · show Function.update w.ctxs w.nextCtx .leaked x = _
              rw [Function.update_of_ne hx, if_neg (by simp [hx])]
          · obtain rfl : x = w.nextCtx := by simpa using hx
            exact ⟨le_rfl, Nat.lt_succ_self _⟩

theorem connect_lastReconnectTime (w : World) (base : Option BasePtr)
    (host : Bytes) (port : UInt16) (o : Attempt) :
    (w.connect base host port o).1.client.lastReconnectTime
      = w.client.lastReconnectTime := by
  rw [World.connect]
  split
  · rfl
  · split <;> rfl

/-- All it shows is a context that is left behind. -/
theorem connect_events (w : World) (base : Option BasePtr) (host : Bytes)
    (port : UInt16) (o : Attempt) :
    ∀ e ∈ (w.connect base host port o).2, ∃ x, e = .leaked x := by
  rw [World.connect]
  split
  · simp
  · split
    · simp
    · simp
    · simp

theorem reconnect_cases (w : World) (now : Int) (o : Attempt) :
    (Due w now o ∧ Opens w (w.reconnect now o).1 (w.reconnect now o).2)
      ∨ (¬ Due w now o ∧ Misses w (w.reconnect now o).1 (w.reconnect now o).2) := by
  rw [World.reconnect]
  by_cases hsoon : now - w.client.lastReconnectTime < 5
  · rw [if_pos hsoon]
    exact Or.inr ⟨fun h => absurd h.1 (by omega), misses_refl rfl rfl rfl (by simp)⟩
  · rw [if_neg hsoon]
    rcases connect_cases
        { w with client := { w.client with lastReconnectTime := now } }
        w.client.base w.client.host w.client.port o with ⟨hc, hopens⟩
      | ⟨hc, hmiss⟩
    · exact Or.inl ⟨⟨by omega, hc⟩, hopens.redisCtx, hopens.ctxs,
        by simpa using hopens.leaks, hopens.nextCtx⟩
    · exact Or.inr ⟨fun h => hc h.2, hmiss.redisCtx, by simpa using hmiss.ctxs,
        by simpa using hmiss.leaks, hmiss.nextCtx⟩

theorem readFreed_not_mem_reconnect (w : World) (now : Int) (o : Attempt)
    (x : CtxPtr) : Event.readFreed x ∉ (w.reconnect now o).2 := by
  rw [World.reconnect]
  split
  · simp
  · intro hx
    rcases List.mem_cons.mp hx with h | h
    · exact absurd h (by simp)
    · obtain ⟨y, hy⟩ := connect_events _ _ _ _ _ _ h
      exact absurd hy (by simp)

/-- After `reconnect()` the client has no context that is connected. -/
theorem flags_reconnect
    (h : ∀ x, w.client.redisCtx = some x → w.flags x = some 0) :
    ∀ x, (w.reconnect now o).1.client.redisCtx = some x →
      (w.reconnect now o).1.flags x = some 0 := by
  intro x hx
  rcases reconnect_cases w now o with ⟨-, hopens⟩ | ⟨-, hmiss⟩
  · rw [hopens.redisCtx] at hx
    rw [World.flags, hopens.ctxs, ← Option.some.inj hx, Function.update_self]
  · rw [hmiss.redisCtx] at hx
    rw [World.flags, hmiss.ctxs]
    by_cases hleak : Event.leaked x ∈ (w.reconnect now o).2
    · rw [if_pos hleak]
    · rw [if_neg hleak]
      exact h x hx

theorem send_reconnects (cmd : Bytes)
    (h : ∀ x, w.client.redisCtx = some x → w.flags x = some 0) :
    w.send cmd now o
      = ((w.reconnect now o).1, (w.reconnect now o).2 ++ [.refused cmd]) := by
  have hafter : ∀ x, (w.reconnect now o).1.client.redisCtx = some x →
      (w.reconnect now o).1.flags x = some 0 := flags_reconnect h
  have hstatus : ∃ f, f ≠ REDIS_CONNECTED ∧ w.status now o
      = some ((w.reconnect now o).1, (w.reconnect now o).2, f) := by
    cases hr : (w.reconnect now o).1.client.redisCtx with
    | none =>
        refine ⟨REDIS_DISCONNECTING, by decide, ?_⟩
        cases hctx : w.client.redisCtx with
        | none => simp [World.status, hctx, hr]
        | some x => simp [World.status, hctx, h x hctx, REDIS_CONNECTED, hr]
    | some y =>
        refine ⟨0, by decide, ?_⟩
        cases hctx : w.client.redisCtx with
        | none => simp [World.status, hctx, hr, hafter y hr]
        | some x =>
            simp [World.status, hctx, h x hctx, REDIS_CONNECTED, hr, hafter y hr]
  obtain ⟨f, hf, hstatus⟩ := hstatus
  rw [World.send, hstatus]
  cases hr : (w.reconnect now o).1.client.redisCtx with
  | none => simp [hr]
  | some y => simp [hr, hf]

/-- What a command does: it goes out, or finds no connection and tries to get
    one for later, or reads a freed context. -/
theorem send_cases (w : World) (cmd : Bytes) (now : Int) (o : Attempt) :
    (∃ x, w.client.redisCtx = some x
        ∧ w.send cmd now o = (w, [.submitted x cmd]))
      ∨ ((∀ x, w.client.redisCtx = some x → w.flags x = some 0)
        ∧ w.send cmd now o
          = ((w.reconnect now o).1, (w.reconnect now o).2 ++ [.refused cmd]))
      ∨ (∃ x, w.client.redisCtx = some x ∧ w.ctxs x = .freed
        ∧ w.send cmd now o = ({ w with faulted := true }, [.readFreed x])) := by
  cases hctx : w.client.redisCtx with
  | none =>
      have hnone : ∀ x, w.client.redisCtx = some x → w.flags x = some 0 :=
        fun x hx => absurd (hctx.symm.trans hx) (by simp)
      exact Or.inr (Or.inl ⟨by simp, send_reconnects cmd hnone⟩)
  | some x =>
      have hidle : w.flags x = some 0 →
          ∀ y, w.client.redisCtx = some y → w.flags y = some 0 := by
        intro hx y hy
        rw [hctx] at hy
        rw [← Option.some.inj hy]
        exact hx
      cases hph : w.ctxs x with
      | connecting =>
          have hone := hidle (by rw [World.flags, hph])
          exact Or.inr (Or.inl ⟨hctx ▸ hone, send_reconnects cmd hone⟩)
      | leaked =>
          have hone := hidle (by rw [World.flags, hph])
          exact Or.inr (Or.inl ⟨hctx ▸ hone, send_reconnects cmd hone⟩)
      | connected =>
          have hflags : w.flags x = some REDIS_CONNECTED := by
            rw [World.flags, hph]
          have hstatus : w.status now o = some (w, [], REDIS_CONNECTED) := by
            simp [World.status, hctx, hflags]
          refine Or.inl ⟨x, rfl, ?_⟩
          rw [World.send, hstatus]
          simp [hctx]
      | freed =>
          have hflags : w.flags x = none := by rw [World.flags, hph]
          have hstatus : w.status now o = none := by
            simp [World.status, hctx, hflags]
          refine Or.inr (Or.inr ⟨x, rfl, hph, ?_⟩)
          rw [World.send, hstatus]
          simp [hctx]

end functions

/-! ## One connection at a time -/

/-- `redis_ctx_` is the one context that has the callbacks, or null when none
    has. -/
def Single (w : World) : Prop :=
  ∀ x, w.client.redisCtx = some x ↔ (w.ctxs x).wired = true

/-- Contexts that have not been made are not alive. -/
def Fresh (w : World) : Prop := ∀ x, w.nextCtx ≤ x → w.ctxs x = .freed

/-- A lost connection is replaced at once, and no context is made beside
    another. -/
def OneAtATime (w : World) : Label → Prop
  | .connect base host port o =>
      Connects base host port o → w.client.redisCtx = none
  | .asyncCommand _ now o | .coroCommand _ now o =>
      ∀ x, w.client.redisCtx = some x → w.ctxs x = .connecting → ¬ Due w now o
  | .connectCb _ _ => True
  | .disconnectCb _ now o => Due w now o

section single

variable {w w' : World} {x : CtxPtr} {es : List Event} {now : Int} {o : Attempt}

theorem ne_nextCtx (hf : Fresh w) (h : w.ctxs x ≠ .freed) : x ≠ w.nextCtx := by
  rintro rfl
  exact h (hf _ le_rfl)

theorem single_misses (h : Single w) (hf : Fresh w) (hm : Misses w w' es) :
    Single w' := by
  intro x
  rw [hm.redisCtx, hm.ctxs]
  by_cases hx : Event.leaked x ∈ es
  · rw [if_pos hx]
    have hfreed := hf x (hm.leaks x hx).1
    simp [h x, hfreed, Phase.wired]
  · rw [if_neg hx]
    exact h x

theorem fresh_misses (h : Fresh w) (hm : Misses w w' es) : Fresh w' := by
  intro x hx
  have hnot : Event.leaked x ∉ es := by
    intro hleak
    exact absurd (hm.leaks x hleak).2 (Nat.not_lt.mpr hx)
  rw [hm.ctxs, if_neg hnot]
  exact h x (Nat.le_trans hm.nextCtx hx)

theorem fresh_opens (h : Fresh w) (ho : Opens w w' es) : Fresh w' := by
  intro x hx
  rw [ho.nextCtx] at hx
  rw [ho.ctxs, Function.update_of_ne (Nat.ne_of_gt hx)]
  exact h x (Nat.le_of_succ_le hx)

theorem fresh_setPhase (h : Fresh w) (hx : w.ctxs x ≠ .freed) (ph : Phase) :
    Fresh (w.setPhase x ph) := by
  intro y hy
  have hne : y ≠ x := by
    rintro rfl
    exact hx (h y hy)
  show Function.update w.ctxs x ph y = .freed
  rw [Function.update_of_ne hne]
  exact h y hy

/-- One wired context, and no other. -/
theorem not_wired_of_ne {y : CtxPtr} (h : Single w)
    (hcur : w.client.redisCtx = some x) (hy : y ≠ x) :
    (w.ctxs y).wired = false := by
  by_contra hal
  have hcur' := (h y).mpr (by simpa using hal)
  rw [hcur'] at hcur
  exact hy (Option.some.inj hcur)

/-- The first context, or the next after all others are freed. -/
theorem single_opens (h : Single w) (ho : Opens w w' es)
    (hnone : w.client.redisCtx = none) : Single w' := by
  intro x
  rw [ho.redisCtx, ho.ctxs]
  by_cases hx : x = w.nextCtx
  · subst hx
    simp [Phase.wired]
  · rw [Function.update_of_ne hx, Option.some.injEq, ← h x, hnone]
    simp [Ne.symm hx]

/-- Beside another context there are two. -/
theorem not_single_opens (hf : Fresh w) (ho : Opens w w' es)
    (hx : (w.ctxs x).wired = true) : ¬ Single w' := by
  intro h
  have hne : x ≠ w.nextCtx := ne_nextCtx hf fun hfreed => by
    rw [hfreed] at hx
    exact absurd hx (by decide)
  have hcur := (h x).mpr (by rw [ho.ctxs, Function.update_of_ne hne]; exact hx)
  rw [ho.redisCtx] at hcur
  exact hne (Option.some.inj hcur).symm

/-- A context that connects is the current one. -/
theorem single_connected (h : Single w) (hx : w.ctxs x = .connecting) :
    Single (w.setPhase x .connected) := by
  intro y
  show w.client.redisCtx = some y
    ↔ (Function.update w.ctxs x .connected y).wired = true
  by_cases hy : y = x
  · subst hy
    rw [Function.update_self]
    simp [(h y).mpr (by simp [hx, Phase.wired]), Phase.wired]
  · rw [Function.update_of_ne hy]
    exact h y

/-- One that does not connect leaves none. -/
theorem single_failed (h : Single w) (hx : w.ctxs x = .connecting) :
    Single (w.clean.setPhase x .freed) := by
  have hcur := (h x).mpr (by simp [hx, Phase.wired])
  intro y
  show none = some y ↔ (Function.update w.ctxs x .freed y).wired = true
  by_cases hy : y = x
  · subst hy
    rw [Function.update_self]
    simp [Phase.wired]
  · rw [Function.update_of_ne hy, not_wired_of_ne h hcur hy]
    simp

/-- A lost connection that is replaced in its disconnect callback. -/
theorem single_replaced (h : Single w) (hf : Fresh w)
    (hx : w.ctxs x = .connected) (ho : Opens w w' es) :
    Single (w'.setPhase x .freed) := by
  have hne := ne_nextCtx hf (x := x) (by simp [hx])
  have hcur := (h x).mpr (by simp [hx, Phase.wired])
  intro y
  show w'.client.redisCtx = some y
    ↔ (Function.update w'.ctxs x .freed y).wired = true
  rw [ho.redisCtx, ho.ctxs]
  by_cases hyx : y = x
  · subst hyx
    rw [Function.update_self]
    simp [Ne.symm hne, Phase.wired]
  · rw [Function.update_of_ne hyx]
    by_cases hyn : y = w.nextCtx
    · subst hyn
      simp [Phase.wired]
    · rw [Function.update_of_ne hyn, not_wired_of_ne h hcur hyx]
      simp [Ne.symm hyn]

/-- One that is not replaced is still pointed to. -/
theorem not_single_dangling (h : Single w) (hx : w.ctxs x = .connected)
    (hm : Misses w w' es) : ¬ Single (w'.setPhase x .freed) := by
  intro hsingle
  have hcur := (h x).mpr (by simp [hx, Phase.wired])
  have hal : (Function.update w'.ctxs x .freed x).wired = true :=
    (hsingle x).mp (hm.redisCtx.trans hcur)
  rw [Function.update_self] at hal
  exact absurd hal (by decide)

/-- The current context, where its flags say that it is not connected. -/
theorem connecting_of_flags (h : Single w) (hcur : w.client.redisCtx = some x)
    (hflags : w.flags x = some 0) : w.ctxs x = .connecting := by
  have hwired := (h x).mp hcur
  cases hph : w.ctxs x with
  | connecting => rfl
  | connected =>
      rw [World.flags, hph] at hflags
      exact absurd hflags (by decide)
  | leaked =>
      rw [hph] at hwired
      exact absurd hwired (by decide)
  | freed =>
      rw [hph] at hwired
      exact absurd hwired (by decide)

end single

/-! ## What is left behind -/

/-- The contexts left behind are those of before and those the step shows. -/
structure Leaves (w w' : World) (es : List Event) : Prop where
  fresh : Fresh w'
  leaked : ∀ x, w'.ctxs x = .leaked ↔ w.ctxs x = .leaked ∨ Event.leaked x ∈ es

section leaves

variable {w w' : World} {x : CtxPtr} {es : List Event} {l : Label}

/-- Nothing is made. -/
theorem leaves_same (h : Fresh w) (hctxs : w'.ctxs = w.ctxs)
    (hnext : w'.nextCtx = w.nextCtx) (hes : ∀ x, Event.leaked x ∉ es) :
    Leaves w w' es where
  fresh x hx := by
    rw [hctxs]
    exact h x (hnext ▸ hx)
  leaked x := by
    rw [hctxs]
    simp [hes x]

theorem leaves_misses (h : Fresh w) (hm : Misses w w' es) : Leaves w w' es where
  fresh := fresh_misses h hm
  leaked x := by
    rw [hm.ctxs]
    by_cases hx : Event.leaked x ∈ es
    · simp [hx]
    · simp [hx]

theorem leaves_opens (h : Fresh w) (ho : Opens w w' es) : Leaves w w' es where
  fresh := fresh_opens h ho
  leaked x := by
    rw [ho.ctxs]
    by_cases hx : x = w.nextCtx
    · subst hx
      rw [Function.update_self]
      simp [h _ le_rfl, ho.leaks]
    · rw [Function.update_of_ne hx]
      simp [ho.leaks]

/-- A context with callbacks goes to another phase. -/
theorem leaves_setPhase (h : Leaves w w' es) (hx : (w'.ctxs x).wired = true)
    {ph : Phase} (hph : ph ≠ .leaked) : Leaves w (w'.setPhase x ph) es where
  fresh := by
    refine fresh_setPhase h.fresh (fun hfreed => ?_) ph
    rw [hfreed] at hx
    exact absurd hx (by decide)
  leaked y := by
    rw [← h.leaked y]
    show Function.update w'.ctxs x ph y = .leaked ↔ _
    by_cases hy : y = x
    · subst hy
      rw [Function.update_self]
      constructor
      · exact fun heq => absurd heq hph
      · intro heq
        rw [heq] at hx
        exact absurd hx (by decide)
    · rw [Function.update_of_ne hy]

/-- A context with callbacks is still there after an attempt. -/
theorem reconnect_wired (h : Fresh w) (hx : (w.ctxs x).wired = true) (now : Int)
    (o : Attempt) : ((w.reconnect now o).1.ctxs x).wired = true := by
  have hne : ¬ w.nextCtx ≤ x := by
    intro hle
    rw [h x hle] at hx
    exact absurd hx (by decide)
  rcases reconnect_cases w now o with ⟨-, hopens⟩ | ⟨-, hmiss⟩
  · rw [hopens.ctxs, Function.update_of_ne (by rintro rfl; exact hne le_rfl)]
    exact hx
  · rw [hmiss.ctxs, if_neg fun hleak => hne (hmiss.leaks x hleak).1]
    exact hx

theorem leaves_reconnect (h : Fresh w) (now : Int) (o : Attempt) :
    Leaves w (w.reconnect now o).1 (w.reconnect now o).2 := by
  rcases reconnect_cases w now o with ⟨-, hopens⟩ | ⟨-, hmiss⟩
  · exact leaves_opens h hopens
  · exact leaves_misses h hmiss

theorem leaves_send (h : Fresh w) (cmd : Bytes) (now : Int) (o : Attempt) :
    Leaves w (w.send cmd now o).1 (w.send cmd now o).2 := by
  rcases send_cases w cmd now o with ⟨x, -, heq⟩ | ⟨-, heq⟩ | ⟨x, -, -, heq⟩
  · rw [heq]
    exact leaves_same h rfl rfl (by simp)
  · rw [heq]
    have hr := leaves_reconnect h now o
    exact ⟨hr.fresh, fun x => (hr.leaked x).trans (by simp)⟩
  · rw [heq]
    exact leaves_same h rfl rfl (by simp)

/-- **STEP**: what is left behind stays there. -/
theorem leaks_step (h : Fresh w) (hstep : step w l = some (w', es)) :
    Leaves w w' es := by
  rw [step] at hstep
  split at hstep
  · exact absurd hstep (by simp)
  cases l with
  | connect base host port o =>
      have heq : w.connect base host port o = (w', es) := Option.some.inj hstep
      have hcases := connect_cases w base host port o
      rw [heq] at hcases
      rcases hcases with ⟨-, hopens⟩ | ⟨-, hmiss⟩
      · exact leaves_opens h hopens
      · exact leaves_misses h hmiss
  | asyncCommand cmd now o =>
      have heq : w.asyncCommand cmd now o = (w', es) := Option.some.inj hstep
      rw [World.asyncCommand] at heq
      split at heq
      · obtain ⟨rfl, rfl⟩ := Prod.mk.inj heq
        exact leaves_same h rfl rfl (by simp)
      · have hsend := leaves_send h cmd now o
        rw [heq] at hsend
        exact hsend
  | coroCommand cmd now o =>
      have heq : w.send cmd now o = (w', es) := Option.some.inj hstep
      have hsend := leaves_send h cmd now o
      rw [heq] at hsend
      exact hsend
  | connectCb x status =>
      simp only [stepOk] at hstep
      split at hstep
      · rename_i hx
        obtain ⟨rfl, rfl⟩ := Prod.mk.inj (Option.some.inj hstep)
        have hwired : (w.ctxs x).wired = true := by simp [hx, Phase.wired]
        rw [World.connectCb]
        split
        · exact leaves_setPhase (leaves_same h rfl rfl (by simp)) hwired (by simp)
        · have hclean : Leaves w w.clean [] := leaves_same h rfl rfl (by simp)
          exact leaves_setPhase hclean hwired (by simp)
      · exact absurd hstep (by simp)
  | disconnectCb x now o =>
      simp only [stepOk] at hstep
      split at hstep
      · rename_i hx
        obtain ⟨rfl, rfl⟩ := Prod.mk.inj (Option.some.inj hstep)
        exact leaves_setPhase (leaves_reconnect h now o)
          (reconnect_wired h (by simp [hx, Phase.wired]) now o) (by simp)
      · exact absurd hstep (by simp)

end leaves

/-! ## Over a run -/

section steps

variable {w w' : World} {l : Label} {es : List Event}

/-- A command sends through the connection, or is refused. -/
theorem single_send (h : Single w) (hf : Fresh w) (cmd : Bytes) (now : Int)
    (o : Attempt)
    (hone : ∀ x, w.client.redisCtx = some x → w.ctxs x = .connecting →
      ¬ Due w now o) :
    Single (w.send cmd now o).1
      ∧ ∀ x, Event.readFreed x ∉ (w.send cmd now o).2 := by
  rcases send_cases w cmd now o with ⟨x, -, heq⟩ | ⟨hnot, heq⟩
    | ⟨x, hctx, hph, -⟩
  · rw [heq]
    exact ⟨h, by simp⟩
  · rw [heq]
    have hevents : ∀ x, Event.readFreed x
        ∉ (w.reconnect now o).2 ++ [.refused cmd] := by
      intro x hx
      rcases List.mem_append.mp hx with hr | hr
      · exact readFreed_not_mem_reconnect w now o x hr
      · exact absurd hr (by simp)
    rcases reconnect_cases w now o with ⟨hdue, hopens⟩ | ⟨-, hmiss⟩
    · have hnone : w.client.redisCtx = none := by
        cases hctx : w.client.redisCtx with
        | none => rfl
        | some x =>
            exact absurd hdue
              (hone x hctx (connecting_of_flags h hctx (hnot x hctx)))
      exact ⟨single_opens h hopens hnone, hevents⟩
    · exact ⟨single_misses h hf hmiss, hevents⟩
  · have hwired := (h x).mp hctx
    rw [hph] at hwired
    exact absurd hwired (by decide)

/-- A second context beside one that is still connecting. -/
theorem not_single_send (hf : Fresh w) {x : CtxPtr} {now : Int} {o : Attempt}
    (cmd : Bytes) (hctx : w.client.redisCtx = some x)
    (hph : w.ctxs x = .connecting) (hdue : Due w now o) :
    ¬ Single (w.send cmd now o).1 := by
  have hidle : ∀ y, w.client.redisCtx = some y → w.flags y = some 0 := by
    intro y hy
    rw [hctx] at hy
    rw [← Option.some.inj hy, World.flags, hph]
  rw [send_reconnects cmd hidle]
  rcases reconnect_cases w now o with ⟨-, hopens⟩ | ⟨hnot, -⟩
  · exact not_single_opens hf hopens (x := x) (by simp [hph, Phase.wired])
  · exact absurd hdue hnot

/-- **STEP**: one connection at a time stays one. -/
theorem single_step (h : Single w) (hf : Fresh w) (hl : OneAtATime w l)
    (hstep : step w l = some (w', es)) :
    Single w' ∧ ∀ x, Event.readFreed x ∉ es := by
  rw [step] at hstep
  split at hstep
  · exact absurd hstep (by simp)
  cases l with
  | connect base host port o =>
      have heq : w.connect base host port o = (w', es) := Option.some.inj hstep
      have hcases := connect_cases w base host port o
      have hevents := connect_events w base host port o
      rw [heq] at hcases hevents
      refine ⟨?_, fun x hx => ?_⟩
      · rcases hcases with ⟨hc, hopens⟩ | ⟨-, hmiss⟩
        · exact single_opens h hopens (hl hc)
        · exact single_misses h hf hmiss
      · obtain ⟨y, hy⟩ := hevents _ hx
        exact absurd hy (by simp)
  | asyncCommand cmd now o =>
      have heq : w.asyncCommand cmd now o = (w', es) := Option.some.inj hstep
      rw [World.asyncCommand] at heq
      split at heq
      · obtain ⟨rfl, rfl⟩ := Prod.mk.inj heq
        exact ⟨h, by simp⟩
      · have hsend := single_send h hf cmd now o hl
        rw [heq] at hsend
        exact hsend
  | coroCommand cmd now o =>
      have heq : w.send cmd now o = (w', es) := Option.some.inj hstep
      have hsend := single_send h hf cmd now o hl
      rw [heq] at hsend
      exact hsend
  | connectCb x status =>
      simp only [stepOk] at hstep
      split at hstep
      · rename_i hx
        obtain ⟨rfl, rfl⟩ := Prod.mk.inj (Option.some.inj hstep)
        rw [World.connectCb]
        split
        · exact ⟨single_connected h hx, by simp⟩
        · exact ⟨single_failed h hx, by simp⟩
      · exact absurd hstep (by simp)
  | disconnectCb x now o =>
      simp only [stepOk] at hstep
      split at hstep
      · rename_i hx
        obtain ⟨rfl, rfl⟩ := Prod.mk.inj (Option.some.inj hstep)
        rcases reconnect_cases w now o with ⟨-, hopens⟩ | ⟨hnot, -⟩
        · exact ⟨single_replaced h hf hx hopens,
            readFreed_not_mem_reconnect w now o⟩
        · exact absurd hl hnot
      · exact absurd hstep (by simp)

/-- **STEP**: nothing else keeps it one. -/
theorem broken_step (h : Single w) (hf : Fresh w) (hl : ¬ OneAtATime w l)
    (hstep : step w l = some (w', es)) : ¬ Single w' := by
  rw [step] at hstep
  split at hstep
  · exact absurd hstep (by simp)
  cases l with
  | connect base host port o =>
      have heq : w.connect base host port o = (w', es) := Option.some.inj hstep
      have hcases := connect_cases w base host port o
      rw [heq] at hcases
      obtain ⟨hc, hctx⟩ := Classical.not_imp.mp hl
      obtain ⟨x, hx⟩ := Option.ne_none_iff_exists'.mp hctx
      rcases hcases with ⟨-, hopens⟩ | ⟨hnot, -⟩
      · exact not_single_opens hf hopens ((h x).mp hx)
      · exact absurd hc hnot
  | asyncCommand cmd now o =>
      have heq : w.asyncCommand cmd now o = (w', es) := Option.some.inj hstep
      simp only [OneAtATime, not_forall, not_not] at hl
      obtain ⟨x, hctx, hph, hdue⟩ := hl
      have hbroken := not_single_send hf cmd hctx hph hdue
      rw [World.asyncCommand, if_neg (by simp [hctx])] at heq
      rw [heq] at hbroken
      exact hbroken
  | coroCommand cmd now o =>
      have heq : w.send cmd now o = (w', es) := Option.some.inj hstep
      simp only [OneAtATime, not_forall, not_not] at hl
      obtain ⟨x, hctx, hph, hdue⟩ := hl
      have hbroken := not_single_send hf cmd hctx hph hdue
      rw [heq] at hbroken
      exact hbroken
  | connectCb x status => exact absurd trivial hl
  | disconnectCb x now o =>
      simp only [stepOk] at hstep
      split at hstep
      · rename_i hx
        obtain ⟨rfl, -⟩ := Prod.mk.inj (Option.some.inj hstep)
        rcases reconnect_cases w now o with ⟨hdue, -⟩ | ⟨-, hmiss⟩
        · exact absurd hdue hl
        · exact not_single_dangling h hx hmiss
      · exact absurd hstep (by simp)

end steps

/-- The times of the attempts. -/
def attempts (tr : List Event) : List Int :=
  tr.filterMap fun e => match e with
    | .attempt now => some now
    | _ => none

theorem attempts_append (tr es : List Event) :
    attempts (tr ++ es) = attempts tr ++ attempts es :=
  List.filterMap_append

/-- The next attempt is five seconds behind the last. -/
inductive Waits (w w' : World) (es : List Event) : Prop where
  | quiet : attempts es = [] →
      w'.client.lastReconnectTime = w.client.lastReconnectTime → Waits w w' es
  | attempt (now : Int) : attempts es = [now] →
      w.client.lastReconnectTime + 5 ≤ now →
      w'.client.lastReconnectTime = now → Waits w w' es

section spacing

variable {w w' : World} {l : Label} {es : List Event}

theorem attempts_connect (w : World) (base : Option BasePtr) (host : Bytes)
    (port : UInt16) (o : Attempt) :
    attempts (w.connect base host port o).2 = [] := by
  refine List.filterMap_eq_nil_iff.mpr fun e he => ?_
  obtain ⟨x, rfl⟩ := connect_events w base host port o e he
  rfl

theorem waits_reconnect (w : World) (now : Int) (o : Attempt) :
    Waits w (w.reconnect now o).1 (w.reconnect now o).2 := by
  rw [World.reconnect]
  split
  · exact .quiet rfl rfl
  · refine .attempt now ?_ (by omega) (connect_lastReconnectTime _ _ _ _ _)
    exact congrArg (now :: ·) (attempts_connect _ _ _ _ _)

theorem waits_send (w : World) (cmd : Bytes) (now : Int) (o : Attempt) :
    Waits w (w.send cmd now o).1 (w.send cmd now o).2 := by
  rcases send_cases w cmd now o with ⟨x, -, heq⟩ | ⟨-, heq⟩ | ⟨x, -, -, heq⟩
  · rw [heq]
    exact .quiet rfl rfl
  · rw [heq]
    have hes : attempts ((w.reconnect now o).2 ++ [.refused cmd])
        = attempts (w.reconnect now o).2 := by
      rw [attempts_append]
      exact List.append_nil _
    cases waits_reconnect w now o with
    | quiet hnone hlast => exact .quiet (hes.trans hnone) hlast
    | attempt t hone hle hlast => exact .attempt t (hes.trans hone) hle hlast
  · rw [heq]
    exact .quiet rfl rfl

/-- **STEP**: a step makes one attempt at most, and not too early. -/
theorem waits_step (hstep : step w l = some (w', es)) : Waits w w' es := by
  rw [step] at hstep
  split at hstep
  · exact absurd hstep (by simp)
  cases l with
  | connect base host port o =>
      have heq : w.connect base host port o = (w', es) := Option.some.inj hstep
      have hes := attempts_connect w base host port o
      have hlast := connect_lastReconnectTime w base host port o
      rw [heq] at hes hlast
      exact .quiet hes hlast
  | asyncCommand cmd now o =>
      have heq : w.asyncCommand cmd now o = (w', es) := Option.some.inj hstep
      rw [World.asyncCommand] at heq
      split at heq
      · obtain ⟨rfl, rfl⟩ := Prod.mk.inj heq
        exact .quiet rfl rfl
      · have hsend := waits_send w cmd now o
        rw [heq] at hsend
        exact hsend
  | coroCommand cmd now o =>
      have heq : w.send cmd now o = (w', es) := Option.some.inj hstep
      have hsend := waits_send w cmd now o
      rw [heq] at hsend
      exact hsend
  | connectCb x status =>
      simp only [stepOk] at hstep
      split at hstep
      · obtain ⟨rfl, rfl⟩ := Prod.mk.inj (Option.some.inj hstep)
        rw [World.connectCb]
        split <;> exact .quiet rfl rfl
      · exact absurd hstep (by simp)
  | disconnectCb x now o =>
      simp only [stepOk] at hstep
      split at hstep
      · obtain ⟨rfl, rfl⟩ := Prod.mk.inj (Option.some.inj hstep)
        cases waits_reconnect w now o with
        | quiet hnone hlast => exact .quiet hnone hlast
        | attempt t hone hle hlast => exact .attempt t hone hle hlast
      · exact absurd hstep (by simp)

/-- **RUN**: attempts are five seconds apart, whatever happens. -/
theorem attempts_run {ls : List Label} {tr : List Event}
    (h : Run step World.init ls w tr) :
    (attempts tr).Pairwise (fun t t' => t + 5 ≤ t') := by
  refine (h.invariant (fun w tr =>
    (attempts tr).Pairwise (fun t t' => t + 5 ≤ t')
      ∧ ∀ t ∈ attempts tr, t ≤ w.client.lastReconnectTime)
    ⟨List.Pairwise.nil, by simp [attempts]⟩ ?_).1
  rintro w tr l w' es ⟨hpw, hlast⟩ hstep
  rw [attempts_append]
  cases waits_step hstep with
  | quiet hnone hsame =>
      rw [hnone, List.append_nil, hsame]
      exact ⟨hpw, hlast⟩
  | attempt now hone hle hnow =>
      rw [hone, hnow]
      refine ⟨List.pairwise_append.mpr
        ⟨hpw, List.pairwise_singleton _ _, ?_⟩, ?_⟩
      · intro t ht t' ht'
        rw [List.mem_singleton.mp ht']
        have := hlast t ht
        omega
      · intro t ht
        rcases List.mem_append.mp ht with hold | hnew
        · have := hlast t hold
          omega
        · exact Int.le_of_eq (List.mem_singleton.mp hnew)

end spacing

/-- **RUN**: the contexts left behind are those that were dropped. -/
theorem leaks_run {ls : List Label} {w : World} {tr : List Event}
    (h : Run step World.init ls w tr) :
    Fresh w ∧ ∀ x, w.ctxs x = .leaked ↔ Event.leaked x ∈ tr := by
  refine h.invariant
    (fun w tr => Fresh w ∧ ∀ x, w.ctxs x = .leaked ↔ Event.leaked x ∈ tr)
    ⟨fun _ _ => rfl, by simp [World.init]⟩ ?_
  rintro w tr l w' es ⟨hfresh, hleaked⟩ hstep
  have hl := leaks_step hfresh hstep
  refine ⟨hl.fresh, fun x => ?_⟩
  rw [hl.leaked x, hleaked x, List.mem_append]

/-- What one connection at a time keeps. -/
structure Sound (w : World) (tr : List Event) : Prop where
  single : Single w
  fresh : Fresh w
  safe : ∀ x, Event.readFreed x ∉ tr

theorem sound_init : Sound World.init [] where
  single x := by simp [World.init, Phase.wired]
  fresh _ _ := rfl
  safe := by simp

theorem sound_step (w : World) (tr : List Event) (l : Label) (w' : World)
    (es : List Event) (h : Sound w tr) (hl : OneAtATime w l)
    (hstep : step w l = some (w', es)) : Sound w' (tr ++ es) := by
  obtain ⟨hsingle, hsafe⟩ := single_step h.single h.fresh hl hstep
  refine ⟨hsingle, (leaks_step h.fresh hstep).fresh, fun x hx => ?_⟩
  rcases List.mem_append.mp hx with hold | hnew
  · exact h.safe x hold
  · exact hsafe x hnew

/-- **CONNECTION**: `redis_ctx_` is the one context that has the callbacks
    throughout a run, exactly if a lost connection is always replaced at once
    and no attempt succeeds beside a connection.  Contexts without callbacks
    are those `connect` has dropped. -/
theorem single_iff (ls : List Label) (w : World) (tr : List Event)
    (h : Run step World.init ls w tr) :
    (HoldsThroughout step World.init ls (fun w _ => Single w)
        ↔ EveryStep step World.init ls OneAtATime)
      ∧ (EveryStep step World.init ls OneAtATime →
          ∀ x, Event.readFreed x ∉ tr)
      ∧ (attempts tr).Pairwise (fun t t' => t + 5 ≤ t')
      ∧ ∀ x, w.ctxs x = .leaked ↔ Event.leaked x ∈ tr := by
  refine ⟨holdsThroughout_iff_everyStep Sound sound_init
      (fun w tr hsound => hsound.single) sound_step ?_ h,
    fun hall => (inv_of_everyStep sound_init sound_step h hall).safe,
    attempts_run h, (leaks_run h).2⟩
  intro w tr l w' es hsound hl hstep
  exact broken_step hsound.single hsound.fresh hl hstep

/-- The connection is lost twice within five seconds, and a command follows. -/
def lostTwice : List Label :=
  [.connect (some 1) (lit "127.0.0.1") 6379 ⟨some 0, REDIS_OK⟩,
    .connectCb 0 REDIS_OK,
    .disconnectCb 0 100 ⟨some 0, REDIS_OK⟩,
    .connectCb 1 REDIS_OK,
    .disconnectCb 1 103 ⟨some 0, REDIS_OK⟩,
    .coroCommand (lit "ping") 200 ⟨some 0, REDIS_OK⟩]

/-- The command reads the freed context. -/
theorem single_iff_lostTwice :
    ∃ w tr, Run step World.init lostTwice w tr
      ∧ tr = [.attempt 100, .readFreed 1]
      ∧ ¬ EveryStep step World.init lostTwice OneAtATime := by
  obtain ⟨w, tr, hrun, htr⟩ : ∃ w tr, Run step World.init lostTwice w tr
      ∧ tr = [.attempt 100, .readFreed 1] := ⟨_, _, run_of_exec rfl, rfl⟩
  refine ⟨w, tr, hrun, htr, fun hall => ?_⟩
  have hsafe := (single_iff lostTwice w tr hrun).2.1 hall 1
  rw [htr] at hsafe
  exact hsafe (by simp)

end Reconnect
