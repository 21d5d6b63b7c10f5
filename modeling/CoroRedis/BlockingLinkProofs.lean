import CoroRedis.BlockingProofs

/-! # One connection next to its blocking programs

    A connection's requests, replies and callbacks in the order in which they
    were accepted, and what the blocking programs have learnt of them.

    * `LinkMatches` — the RELATION for one connection: a blocking program has
      learnt what its coroutine has, and the result of a call whose reply is
      under way; the requests of failed calls are those that callbacks have
      overtaken;
    * `linkMatches_moves`, `linkMatches_served`, `linkMatches_stray` — what a
      coroutine and the server do to it. -/

namespace Blocking

open CoroBytes HiredisFormat RedisReplies TaskAwaiters CoroCommand CommandOrder
open Cluster (LinkId Server Link LinkSound requested)
open RunLog Linear

/-! ## Requests and callbacks in one order -/

section order

variable {α : Type}

/-- Of two ways to cut a list without repetition, the shorter first part does
    not reach what the other one has behind it. -/
theorem mem_cut_iff {xs ys xs' ys' : List α} {a : α}
    (h : xs ++ ys = xs' ++ a :: ys') (hnd : (xs ++ ys).Nodup) :
    a ∈ xs ↔ xs'.length < xs.length := by
  rcases List.append_eq_append_iff.mp h with ⟨zs, hz, hz'⟩ | ⟨zs, hz, hz'⟩
  · -- the first cut comes first
    have hlen : xs.length ≤ xs'.length := by
      rw [hz, List.length_append]
      exact Nat.le_add_right _ _
    have hmem : a ∈ ys := by
      rw [hz']
      exact List.mem_append_right _ List.mem_cons_self
    refine ⟨fun ha => ?_, fun hlt => absurd hlt (Nat.not_lt.mpr hlen)⟩
    exact absurd rfl ((List.nodup_append.mp hnd).2.2 a ha a hmem)
  · cases zs with
    | nil =>
        rw [List.append_nil] at hz
        rw [List.nil_append] at hz'
        have hmem : a ∈ ys := by
          rw [← hz']
          exact List.mem_cons_self
        refine ⟨fun ha => ?_, fun hlt => ?_⟩
        · exact absurd rfl ((List.nodup_append.mp hnd).2.2 a ha a hmem)
        · rw [hz] at hlt
          exact absurd hlt (Nat.lt_irrefl _)
    | cons b zs =>
        obtain ⟨rfl, -⟩ := List.cons.inj hz'
        refine ⟨fun _ => ?_, fun _ => ?_⟩
        · rw [hz, List.length_append, List.length_cons]
          omega
        · rw [hz]
          exact List.mem_append_right _ List.mem_cons_self

end order

section account

variable {H : Hiredis} {lk : Link} {es : List CoroCommand.Event}
  {ops : List (Op AwaiterPtr (List Bytes) RedisReply)}

/-- How many callbacks have run before the server got to the request. -/
def overtaken (es : List CoroCommand.Event)
    (ops : List (Op AwaiterPtr (List Bytes) RedisReply)) : Nat :=
  (callbacks es).length - ops.length

/-- Requests in the order of acceptance, against callbacks in that order. -/
theorem ids_eq (h : LinkSound H lk es ops) :
    ∃ lost, ops.map Op.id ++ (lk.inbox.map Prod.fst ++ lost)
        = (callbacks es).map Prod.fst ++ lk.session.replies
      ∧ (ops.map Op.id ++ (lk.inbox.map Prod.fst ++ lost)).Nodup := by
  obtain ⟨lost, hreq, -⟩ := h.requests
  have hids : (requested H es).map Prod.fst
      = ops.map Op.id ++ (lk.inbox.map Prod.fst ++ lost.map Prod.fst) := by
    rw [hreq]
    simp only [List.map_append, List.map_map, Function.comp_def,
      List.append_assoc]
  have hacc := Cluster.requested_awaiters h
  refine ⟨lost.map Prod.fst, ?_, ?_⟩
  · rw [← hids, hacc, Cluster.accepted_awaiters h]
  · rw [← hids, hacc]
    exact h.linked.distinct

/-- Until the context is freed every callback comes after the execution. -/
theorem overtaken_connected (h : LinkSound H lk es ops)
    (hctx : lk.session.ctx ≠ .freeing) : overtaken es ops = 0 := by
  have hcb := congrArg List.length (Cluster.delivered_awaiters (h.whole hctx))
  have hrep := congrArg List.length h.replies
  rw [List.length_map, List.length_map] at hcb
  rw [List.length_map, List.length_append] at hrep
  rw [overtaken]
  omega

/-- The awaiter in front has its request executed iff callbacks are behind. -/
theorem front_executed_iff (h : LinkSound H lk es ops) {a : AwaiterPtr}
    {rest : List AwaiterPtr} (hr : lk.session.replies = a :: rest) :
    a ∈ ops.map Op.id ↔ (callbacks es).length < ops.length := by
  obtain ⟨lost, heq, hnd⟩ := ids_eq h
  rw [hr] at heq
  have hiff := mem_cut_iff heq hnd
  rw [List.length_map, List.length_map] at hiff
  exact hiff

/-- Of the awaiter whose request is next, the callback has run iff callbacks
    are ahead. -/
theorem next_called_iff (h : LinkSound H lk es ops) {a : AwaiterPtr}
    {argv : List Bytes} {rest : List (AwaiterPtr × List Bytes)}
    (hin : lk.inbox = (a, argv) :: rest) :
    a ∈ (callbacks es).map Prod.fst ↔ ops.length < (callbacks es).length := by
  obtain ⟨lost, heq, hnd⟩ := ids_eq h
  rw [heq] at hnd
  rw [hin] at heq
  have hiff := mem_cut_iff heq.symm hnd
  rw [List.length_map, List.length_map] at hiff
  exact hiff

/-- A request that is under way or executed is queued or called back. -/
theorem called_or_queued (h : LinkSound H lk es ops) {a : AwaiterPtr}
    (ha : a ∈ ops.map Op.id ∨ a ∈ lk.inbox.map Prod.fst) :
    a ∈ (callbacks es).map Prod.fst ∨ a ∈ lk.session.replies := by
  obtain ⟨lost, heq, -⟩ := ids_eq h
  refine List.mem_append.mp ?_
  rw [← heq]
  rcases ha with hop | hin
  · exact List.mem_append_left _ hop
  · exact List.mem_append_right _ (List.mem_append_left _ hin)

/-- Nobody is suspended on an awaiter whose callback has run. -/
theorem not_suspended_of_called (h : LinkSound H lk es ops) {a : AwaiterPtr}
    (ha : a ∈ (callbacks es).map Prod.fst) (k : CoroHandle) :
    (lk.session.coros k).status ≠ .suspended a := by
  intro hst
  have hacc : a ∈ (accepted es).map Prod.fst := by
    rw [Cluster.accepted_awaiters h]
    exact List.mem_append_left _ ha
  have hq := h.linked.waiting k a hst hacc
  have hnd := h.linked.distinct
  rw [Cluster.accepted_awaiters h] at hnd
  exact (List.nodup_append.mp hnd).2.2 a ha a hq rfl

/-- Somebody is suspended on every queued awaiter. -/
theorem waits_of_queued (h : LinkSound H lk es ops) {a : AwaiterPtr}
    (ha : a ∈ lk.session.replies) : ∃ k cmd, Waits lk.session k a cmd := by
  obtain ⟨p, ⟨-, -, hpend, -, -⟩, hp⟩ := h.linked.channel
  rw [← hpend] at ha
  obtain ⟨m, hm, rfl⟩ := List.mem_map.mp ha
  obtain ⟨k, hw⟩ := hp m hm
  exact ⟨k, m.2, hw⟩

/-- A reply on its way back is that of an execution. -/
theorem executed_of_outbox (h : LinkSound H lk es ops) {a : AwaiterPtr}
    (ha : a ∈ lk.outbox.map Prod.fst) : a ∈ ops.map Op.id := by
  have heq := congrArg (List.map Prod.fst) h.replies
  simp only [List.map_append, List.map_map, Function.comp_def] at heq
  show a ∈ ops.map fun op => op.id
  rw [heq]
  exact List.mem_append_right _ ha

/-- What was executed for a queued awaiter is on its way back. -/
theorem outbox_of_executed (h : LinkSound H lk es ops) {a : AwaiterPtr}
    (ha : a ∈ ops.map Op.id) (hq : a ∈ lk.session.replies) :
    a ∈ lk.outbox.map Prod.fst := by
  have heq := congrArg (List.map Prod.fst) h.replies
  simp only [List.map_append, List.map_map, Function.comp_def] at heq
  have ha' : a ∈ ops.map fun op => op.id := ha
  rw [heq] at ha'
  refine (List.mem_append.mp ha').resolve_left ?_
  intro hd
  obtain ⟨m, hm, rfl⟩ := List.mem_map.mp hd
  have hcalled : m.1 ∈ (callbacks es).map Prod.fst := by
    obtain ⟨e, he, heq'⟩ := List.mem_filterMap.mp hm
    cases e with
    | callback b reply =>
        cases reply with
        | none => exact absurd heq' (by simp)
        | some r =>
            rw [← Option.some.inj heq']
            exact List.mem_map.mpr
              ⟨(b, some r), List.mem_filterMap.mpr ⟨_, he, rfl⟩, rfl⟩
    | sent k a cmd => exact absurd heq' (by simp)
    | submitted a buf => exact absurd heq' (by simp)
    | accepted a cmd => exact absurd heq' (by simp)
    | refused a => exact absurd heq' (by simp)
    | resumed k a v => exact absurd heq' (by simp)
    | dangling a => exact absurd heq' (by simp)
  obtain ⟨k, cmd, hw⟩ := waits_of_queued h hq
  exact not_suspended_of_called h hcalled k hw.1

/-- An executed request was made. -/
theorem executed_lt (h : LinkSound H lk es ops) {a : AwaiterPtr}
    (ha : a ∈ ops.map Op.id) : a < lk.session.nextAwaiter := by
  have hacc : a ∈ (accepted es).map Prod.fst := by
    rw [Cluster.accepted_awaiters h]
    exact List.mem_append.mpr (called_or_queued h (Or.inl ha))
  obtain ⟨m, hm, rfl⟩ := List.mem_map.mp hacc
  obtain ⟨k, hs⟩ := h.linked.submitted m hm
  exact h.linked.bound k m.1 m.2 hs

/-- The awaiter of an execution is answered once. -/
theorem outbox_unique (h : LinkSound H lk es ops) {a : AwaiterPtr}
    {r r' : RedisReply} (hr : (a, r) ∈ lk.outbox) (hr' : (a, r') ∈ lk.outbox) :
    r = r' := by
  obtain ⟨lost, -, hnd⟩ := ids_eq h
  have hops := (List.nodup_append.mp hnd).1
  have heq := congrArg (List.map Prod.fst) h.replies
  simp only [List.map_append, List.map_map, Function.comp_def] at heq
  have hout : (lk.outbox.map Prod.fst).Nodup := by
    have hall : (ops.map fun op => op.id).Nodup := hops
    rw [heq] at hall
    exact (List.nodup_append.mp hall).2.1
  exact congrArg Prod.snd (List.inj_on_of_nodup_map hout hr hr' rfl)

end account

/-! ## The relation, for one connection -/

/-- What the blocking program has learnt and the coroutine has not: the result
    of a call whose reply is under way.  `fate` foretells whether the reply
    comes in. -/
inductive Ahead (fate : AwaiterPtr → Bool) (lk : Link) (k : CoroHandle) :
    List Item → Prop where
  | level : (∀ a, (lk.session.coros k).status = .suspended a →
      a ∉ lk.outbox.map Prod.fst) → Ahead fate lk k []
  | result {a : AwaiterPtr} {cmd : Command} {r : RedisReply} :
      Waits lk.session k a cmd → (a, r) ∈ lk.outbox →
      Ahead fate lk k [.result (cmd.op.resumeCallback
        (if fate a then some r else none))]

/-- The programs of a connection and the requests it leaves behind. -/
structure LinkMatches (fate : AwaiterPtr → Bool) (lk : Link)
    (es : List CoroCommand.Event)
    (ops : List (Op AwaiterPtr (List Bytes) RedisReply))
    (history : CoroHandle → List Item) (strays : List (List Bytes)) : Prop where
  history : ∀ k, ∃ items, history k = (lk.session.coros k).history ++ items
    ∧ Ahead fate lk k items
  strays : strays = (lk.inbox.take (overtaken es ops)).map Prod.snd

section link

variable {H : Hiredis} {lk lk' : Link} {es es' : List CoroCommand.Event}
  {ops : List (Op AwaiterPtr (List Bytes) RedisReply)}
  {fate fate' : AwaiterPtr → Bool} {k : CoroHandle} {items : List Item}
  {history history' : CoroHandle → List Item} {strays strays' : List (List Bytes)}
  {prog : CoroHandle → Program} {s' : Session} {l : CoroCommand.Label}

theorem linkMatches_fresh (fate : AwaiterPtr → Bool) :
    LinkMatches fate .fresh [] [] (fun _ => []) [] where
  history _ := ⟨[], rfl, .level fun _ _ => List.not_mem_nil⟩
  strays := rfl

/-- Nothing that concerns the coroutine has changed. -/
theorem ahead_congr (h : Ahead fate lk k items)
    (hst : (lk'.session.coros k).status = (lk.session.coros k).status)
    (hw : ∀ a cmd, Waits lk.session k a cmd → Waits lk'.session k a cmd)
    (hsame : ∀ a, (lk.session.coros k).status = .suspended a →
      fate' a = fate a ∧ ∀ r, (a, r) ∈ lk'.outbox ↔ (a, r) ∈ lk.outbox) :
    Ahead fate' lk' k items := by
  cases h with
  | level hnot =>
      refine .level ?_
      intro a hs hin
      rw [hst] at hs
      obtain ⟨m, hm, rfl⟩ := List.mem_map.mp hin
      exact hnot m.1 hs
        (List.mem_map.mpr ⟨m, ((hsame m.1 hs).2 m.2).mp hm, rfl⟩)
  | @result a cmd r hwait hr =>
      obtain ⟨hf, hout⟩ := hsame a hwait.1
      rw [← hf]
      exact .result (hw a cmd hwait) ((hout r).mpr hr)

/-- A coroutine without a reply on its way back is where its program is. -/
theorem ahead_nil (h : Ahead fate lk k items)
    (hnot : ∀ a, (lk.session.coros k).status = .suspended a →
      a ∉ lk.outbox.map Prod.fst) : items = [] := by
  cases h with
  | level _ => rfl
  | result hw hr =>
      exact absurd (List.mem_map.mpr ⟨_, hr, rfl⟩) (hnot _ hw.1)

/-- A coroutine whose reply is on its way back is one result behind. -/
theorem ahead_result (h : Ahead fate lk k items) {a : AwaiterPtr}
    {cmd : Command} (hw : Waits lk.session k a cmd)
    (ha : a ∈ lk.outbox.map Prod.fst) :
    ∃ r, (a, r) ∈ lk.outbox ∧ items
      = [.result (cmd.op.resumeCallback (if fate a then some r else none))] := by
  cases h with
  | level hnot => exact absurd ha (hnot a hw.1)
  | @result b cmd' r hw' hr =>
      have hab : b = a := by
        have hst := hw'.1.symm.trans hw.1
        injection hst
      subst hab
      obtain ⟨-, rfl⟩ := waits_unique hw' hw
      exact ⟨r, hr, rfl⟩

/-- What hiredis accepts goes behind the requests of those that gave up. -/
theorem take_requested (h : LinkSound H lk es ops)
    (hstep : CoroCommand.step H prog lk.session l = some (s', es')) :
    (lk.inbox ++ requested H es').take (overtaken es ops)
      = lk.inbox.take (overtaken es ops) := by
  by_cases hctx : lk.session.ctx = .freeing
  · obtain ⟨⟨es₁, es₂, rfl, hans, hiss⟩, -, -⟩ :=
      Cluster.step_shows h.linked hstep
    rw [Cluster.requested_append, (Cluster.requested_answered hans).1,
      Cluster.requested_issued hiss hctx, List.append_nil, List.append_nil]
  · rw [overtaken_connected h hctx, List.take_zero, List.take_zero]

theorem overtaken_quiet (hcb : callbacks es' = []) :
    overtaken (es ++ es') ops = overtaken es ops := by
  rw [overtaken, callbacks_append, hcb, List.append_nil, overtaken]

/-- **ONE COROUTINE MOVES**: if its program has learnt the same, all are where
    they should be. -/
theorem linkMatches_moves (hs : LinkSound H lk es ops)
    (hm : Moves prog lk.session s' l k items)
    (h : LinkMatches fate lk es ops history strays)
    {outbox : List (AwaiterPtr × RedisReply)}
    (hsub : ∀ m ∈ outbox, m ∈ lk.outbox)
    (hk : history' k = (lk.session.coros k).history ++ items)
    (hothers : ∀ k', k' ≠ k → history' k' = history k')
    (hsame : ∀ k', k' ≠ k → ∀ a, (lk.session.coros k').status = .suspended a →
      fate' a = fate a ∧ ∀ r, (a, r) ∈ outbox ↔ (a, r) ∈ lk.outbox)
    (hstrays : strays' = ((lk.inbox ++ requested H es').take
      (overtaken (es ++ es') ops)).map Prod.snd) :
    LinkMatches fate' ⟨s', lk.inbox ++ requested H es', outbox⟩ (es ++ es') ops
      history' strays' where
  strays := hstrays
  history k' := by
    by_cases hkk : k' = k
    · subst hkk
      refine ⟨[], ?_, .level ?_⟩
      · rw [List.append_nil, hk]
        exact hm.history.symm
      · intro a hst hin
        obtain ⟨m, hmem, rfl⟩ := List.mem_map.mp hin
        have hlt := executed_lt hs (executed_of_outbox hs
          (List.mem_map.mpr ⟨m, hsub m hmem, rfl⟩))
        rw [hm.fresh m.1 hst] at hlt
        exact Nat.lt_irrefl _ hlt
    · obtain ⟨items', hhist, hahead⟩ := h.history k'
      obtain ⟨hcoro, hkeep⟩ := hm.others k' hkk
      refine ⟨items', ?_, ahead_congr hahead (congrArg _ hcoro) hkeep
        (hsame k' hkk)⟩
      rw [hothers k' hkk, hhist]
      show _ = (s'.coros k').history ++ items'
      rw [hcoro]

/-- An event that only touches the context. -/
theorem linkMatches_still (h : LinkMatches fate lk es ops history strays)
    (hcoros : s'.coros = lk.session.coros)
    (haws : s'.awaiters = lk.session.awaiters) :
    LinkMatches fate ⟨s', lk.inbox, lk.outbox⟩ es ops history strays where
  strays := h.strays
  history k := by
    obtain ⟨items, hhist, hahead⟩ := h.history k
    refine ⟨items, ?_, ahead_congr hahead (by rw [hcoros]) ?_
      (fun _ _ => ⟨rfl, fun _ => Iff.rfl⟩)⟩
    · rw [hhist, hcoros]
    · intro a cmd hw
      exact ⟨hcoros ▸ hw.1, haws ▸ hw.2⟩

/-- Of what a freed context sent, some is lost. -/
theorem linkMatches_lose (h : LinkMatches fate lk es ops history strays)
    (n : Nat) :
    LinkMatches fate { lk with inbox := lk.inbox.take n } es ops history
      (strays.take n) where
  history k := by
    obtain ⟨items, hhist, hahead⟩ := h.history k
    exact ⟨items, hhist, ahead_congr hahead rfl (fun _ _ hw => hw)
      fun _ _ => ⟨rfl, fun _ => Iff.rfl⟩⟩
  strays := by
    rw [h.strays, ← List.map_take, List.take_take, List.take_take,
      Nat.min_comm]

section serve

variable {a : AwaiterPtr} {argv : List Bytes}
  {rest : List (AwaiterPtr × List Bytes)} {r : RedisReply}

/-- The server gets a request that nobody waits for. -/
theorem linkMatches_stray (hs : LinkSound H lk es ops)
    (h : LinkMatches fate lk es ops history strays)
    (hin : lk.inbox = (a, argv) :: rest) (hover : overtaken es ops ≠ 0) :
    strays = argv :: strays.tail
      ∧ LinkMatches fate
          { lk with inbox := rest, outbox := lk.outbox ++ [(a, r)] } es
          (ops ++ [⟨a, argv, r⟩]) history strays.tail := by
  obtain ⟨n, hn⟩ := Nat.exists_eq_succ_of_ne_zero hover
  have hn' : overtaken es (ops ++ [⟨a, argv, r⟩]) = n := by
    rw [overtaken, List.length_append, List.length_singleton]
    rw [overtaken] at hn
    omega
  have hstr := h.strays
  rw [hin, hn, List.take_succ_cons, List.map_cons] at hstr
  have hcalled : a ∈ (callbacks es).map Prod.fst := by
    refine (next_called_iff hs hin).mpr ?_
    rw [overtaken] at hover
    omega
  refine ⟨by rw [hstr]; rfl, ?_, ?_⟩
  · intro k
    obtain ⟨items, hhist, hahead⟩ := h.history k
    refine ⟨items, hhist, ahead_congr hahead rfl (fun _ _ hw => hw) ?_⟩
    intro b hst
    refine ⟨rfl, fun r' => ?_⟩
    have hne : b ≠ a := by
      rintro rfl
      exact not_suspended_of_called hs hcalled k hst
    show (b, r') ∈ lk.outbox ++ [(a, r)] ↔ _
    simp [hne]
  · rw [hstr, hn']
    rfl

/-- The server gets a request that somebody waits for, and who. -/
theorem waits_of_served (hs : LinkSound H lk es ops) (hp : Poised prog lk.session)
    (hin : lk.inbox = (a, argv) :: rest) (hover : overtaken es ops = 0) :
    ∃ k cmd, Waits lk.session k a cmd
      ∧ prog k (lk.session.coros k).history = .send cmd
      ∧ H.fmt.format cmd.text = some argv
      ∧ ∀ a', (lk.session.coros k).status = .suspended a' →
          a' ∉ lk.outbox.map Prod.fst := by
  have hmem : (a, argv) ∈ lk.inbox := by
    rw [hin]
    exact List.mem_cons_self
  have hnot : a ∉ (callbacks es).map Prod.fst := by
    rw [next_called_iff hs hin]
    rw [overtaken] at hover
    omega
  have hq := (called_or_queued hs (Or.inr
    (List.mem_map.mpr ⟨_, hmem, rfl⟩))).resolve_left hnot
  obtain ⟨k, cmd, hw⟩ := waits_of_queued hs hq
  refine ⟨k, cmd, hw, (hp k).calls a cmd hw, ?_, ?_⟩
  · -- the request is that of the command the coroutine sent
    obtain ⟨cmd₁, hacc, hfmt⟩ :=
      Cluster.accepted_of_requested (Cluster.inbox_worded hs hmem).1
    obtain ⟨k₁, hs₁⟩ := hs.linked.submitted _ hacc
    obtain ⟨cmd₂, hw₂, hs₂⟩ := hs.linked.alive k a hw.1
    obtain ⟨-, rfl⟩ := waits_unique hw hw₂
    obtain ⟨-, rfl⟩ := hs.unique _ _ _ _ _ hs₁ hs₂
    exact hfmt
  · intro a' hst hout
    have haa : a' = a := by
      have heq := hst.symm.trans hw.1
      injection heq
    subst haa
    exact Cluster.inbox_fresh hs hin (executed_of_outbox hs hout)

/-- The server gets a request that coroutine `k` waits for: the program has
    its result now. -/
theorem linkMatches_served (history' : CoroHandle → List Item)
    (r : RedisReply) (hs : LinkSound H lk es ops)
    (h : LinkMatches fate lk es ops history strays)
    (hin : lk.inbox = (a, argv) :: rest) (hover : overtaken es ops = 0)
    {cmd : Command} (hw : Waits lk.session k a cmd)
    (hnot : ∀ a', (lk.session.coros k).status = .suspended a' →
      a' ∉ lk.outbox.map Prod.fst)
    (hk : history' k = history k ++ [.result (cmd.op.resumeCallback
      (if fate a then some r else none))])
    (hothers : ∀ k', k' ≠ k → history' k' = history k') :
    LinkMatches fate
      { lk with inbox := rest, outbox := lk.outbox ++ [(a, r)] } es
      (ops ++ [⟨a, argv, r⟩]) history' [] where
  strays := by
    have hzero : overtaken es (ops ++ [⟨a, argv, r⟩]) = 0 := by
      rw [overtaken, List.length_append, List.length_singleton]
      rw [overtaken] at hover
      omega
    rw [hzero]
    rfl
  history k' := by
    by_cases hkk : k' = k
    · subst hkk
      obtain ⟨items, hhist, hahead⟩ := h.history k'
      rw [ahead_nil hahead hnot, List.append_nil] at hhist
      refine ⟨_, ?_, .result hw (List.mem_append_right _ List.mem_cons_self)⟩
      rw [hk, hhist]
    · obtain ⟨items, hhist, hahead⟩ := h.history k'
      refine ⟨items, (hothers k' hkk).trans hhist,
        ahead_congr hahead rfl (fun _ _ hw' => hw') ?_⟩
      intro b hst
      refine ⟨rfl, fun r' => ?_⟩
      have hne : b ≠ a := by
        rintro rfl
        obtain ⟨cmd', hw', -⟩ := hs.linked.alive k' b hst
        exact hkk (waits_unique hw' hw).1
      show (b, r') ∈ lk.outbox ++ [(a, r)] ↔ _
      simp [hne]

end serve

end link

end Blocking
