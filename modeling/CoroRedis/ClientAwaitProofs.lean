import CoroRedis.ClientStepProofs

/-! # Connect and fetch awaiters — completed once

    An awaiter is resumed at most once and not touched after `await_resume`
    has returned.

    * `completing_step`, `not_completedOnce_disconnectCb` — every step but a
      disconnect callback keeps it, and that callback breaks it: it still has
      the address of the awaiter, and by then the `co_await` is over;
    * `completedOnce_iff` — the EXACT CONDITION over a whole run. -/

namespace ClientAwaits

open CoroBytes TaskAwaiters ClientConnect ClientPool ClientRuns ClientSteps
open RunLog
open SharedPool hiding step

/-! ## Completed at most once -/

/-- What must not precede a use of an awaiter. -/
def UnusedBefore (pre : List Event) : Event → Prop
  | .resume a => Event.resume a ∉ pre ∧ ∀ v, Event.returned a v ∉ pre
  | .setCoroReturn a => ∀ v, Event.returned a v ∉ pre
  | _ => True

/-- Awaiters are resumed at most once, and after `await_resume` has returned
    no callback uses them. -/
def CompletedOnce (tr : List Event) : Prop := AtEach UnusedBefore tr

/-- `await_resume` may always return. -/
theorem completedOnce_returned {tr : List Event} (h : CompletedOnce tr)
    (a : AwaiterPtr) (v : AwaitValue) :
    CompletedOnce (tr ++ [.returned a v]) := atEach_snoc.mpr ⟨h, trivial⟩

/-- The awaiter has been neither resumed nor completed. -/
def Open (tr : List Event) (a : AwaiterPtr) : Prop :=
  Event.resume a ∉ tr ∧ ∀ v, Event.returned a v ∉ tr

theorem open_append {tr es : List Event} {a : AwaiterPtr} (h : Open tr a)
    (hes : Open es a) : Open (tr ++ es) a := by
  constructor
  · intro hm
    rcases List.mem_append.mp hm with hold | hnew
    · exact h.1 hold
    · exact hes.1 hnew
  · intro v hm
    rcases List.mem_append.mp hm with hold | hnew
    · exact h.2 v hold
    · exact hes.2 v hnew

/-- The awaiters of suspended coroutines are open, those of established
    contexts have returned. -/
structure Completing (w : World) (tr : List Event) : Prop where
  sound : Sound w
  once : CompletedOnce tr
  suspended : ∀ k a, w.coros k = .awaiting a → Open tr a
  fresh : ∀ a, w.nextAwaiter ≤ a → Open tr a
  established : ∀ (x : CtxPtr) c, w.ctxs[x]? = some c →
    c.phase = .established → ∃ v, Event.returned c.data v ∈ tr

theorem completing_init (pool : Pool) : Completing (World.init pool) [] where
  sound := sound_init pool
  once := atEach_nil _
  suspended _ _ hk := by cases hk
  fresh _ _ := ⟨List.not_mem_nil, fun _ => List.not_mem_nil⟩
  established x c hx := by simp [World.init] at hx

section completing

variable {w w' : World} {tr es : List Event} {l : Label} {k : CoroHandle}

/-- Events that neither resume nor complete keep everything open. -/
theorem open_quiet {a : AwaiterPtr} {e : Event} (h : Open tr a)
    (hr : e ≠ .resume a) (hv : ∀ v, e ≠ .returned a v) : Open (tr ++ [e]) a :=
  open_append h ⟨fun hm => hr (List.mem_singleton.mp hm).symm,
    fun v hm => hv v (List.mem_singleton.mp hm).symm⟩

/-- A context that is registered pending is not an established one. -/
theorem established_of_register {ctxs : List AsyncContext} {c d : AsyncContext}
    {x : CtxPtr} (hd : d.phase = .pending)
    (hx : (ctxs ++ [d])[x]? = some c) (hc : c.phase = .established) :
    ctxs[x]? = some c := by
  rcases getElem?_concat.mp hx with hold | ⟨-, rfl⟩
  · exact hold
  · rw [hd] at hc
    exact nomatch hc

/-- Coroutine `k` starts to wait; nothing is resumed. -/
theorem completing_awaitOn {w' : World} (h : Completing w tr)
    (hs : Sound w') (hnext : w'.nextAwaiter = w.nextAwaiter + 1)
    (hcoros : w'.coros = Function.update w.coros k (.awaiting w.nextAwaiter))
    (hctxs : ∀ (x : CtxPtr) c, w'.ctxs[x]? = some c →
      c.phase = .established → w.ctxs[x]? = some c)
    (honce : CompletedOnce (tr ++ es)) (hes : ∀ a, Open es a) :
    Completing w' (tr ++ es) where
  sound := hs
  once := honce
  suspended k' a hk := by
    rw [hcoros] at hk
    refine open_append ?_ (hes a)
    rcases awaiting_of_update_awaiting hk with ⟨-, rfl⟩ | ⟨-, hold⟩
    · exact h.fresh _ (Nat.le_refl _)
    · exact h.suspended k' a hold
  fresh a ha := by
    rw [hnext] at ha
    exact open_append (h.fresh a (Nat.le_of_succ_le ha)) (hes a)
  established x c hx hc := by
    obtain ⟨v, hv⟩ := h.established x c (hctxs x c hx hc) hc
    exact ⟨v, List.mem_append_left _ hv⟩

/-- A connect callback completes the open awaiter of its context. -/
theorem completing_callback {w' : World} {x : CtxPtr} {c : AsyncContext}
    (status : Int) (h : Completing w tr) (hs : Sound w')
    (hx : w.ctxs[x]? = some c)
    (hk : Suspended w k c.data (pendingAwaiter c.kind k))
    (hnext : w'.nextAwaiter = w.nextAwaiter)
    (hcoros : w'.coros = Function.update w.coros k .active)
    (hctxs : w'.ctxs = (w.setPhase x (phaseOf status)).ctxs)
    (honce : CompletedOnce (tr ++ es))
    (hes : ∀ a, a ≠ c.data → Open es a)
    (hret : ∃ v, Event.returned c.data v ∈ es) :
    Completing w' (tr ++ es) where
  sound := hs
  once := honce
  suspended k' a hk' := by
    rw [hcoros] at hk'
    obtain ⟨hne, hold⟩ := awaiting_of_update active_ne_awaiting hk'
    refine open_append (h.suspended k' a hold) (hes a ?_)
    rintro rfl
    obtain ⟨aw, h'⟩ := h.sound.alive k' c.data hold
    exact hne (suspended_unique h' hk).1
  fresh a ha := by
    rw [hnext] at ha
    refine open_append (h.fresh a ha) (hes a ?_)
    exact Nat.ne_of_gt (Nat.lt_of_lt_of_le (suspended_lt h.sound hk) ha)
  established y d hy hd := by
    rw [hctxs] at hy
    obtain ⟨c', hc', rfl⟩ := getElem?_setPhase.mp hy
    by_cases hxy : x = y
    · subst hxy
      rw [hx, Option.some.injEq] at hc'
      subst hc'
      rw [if_pos rfl]
      obtain ⟨v, hv⟩ := hret
      exact ⟨v, List.mem_append_right _ hv⟩
    · rw [if_neg hxy] at hd ⊢
      obtain ⟨v, hv⟩ := h.established y c' hc' hd
      exact ⟨v, List.mem_append_left _ hv⟩

/-- A fetch that throws ends the process while its own awaiter, which nobody
    has used before, is being resumed. -/
theorem completing_fetchThrows {w' : World} {aw : Awaiter} {f : Option Fault}
    (h : Completing w tr)
    (hw' : w' = { (w.awaitOn k aw).finishAwait k w.nextAwaiter with fault := f })
    (hs : Sound w') : Completing w' (tr ++ [.resume w.nextAwaiter]) := by
  subst hw'
  have hn := h.fresh w.nextAwaiter (Nat.le_refl _)
  have hother : ∀ a, a ≠ w.nextAwaiter → Open tr a →
      Open (tr ++ [.resume w.nextAwaiter]) a := by
    intro a ha hopen
    refine open_quiet hopen ?_ (by simp)
    intro heq
    injection heq with heq
    exact ha heq.symm
  refine ⟨hs, atEach_snoc.mpr ⟨h.once, hn⟩, ?_, ?_, ?_⟩
  · intro k' a hk'
    have hold := awaiting_of_finished hk'
    obtain ⟨aw, h'⟩ := h.sound.alive k' a hold
    exact hother a (Nat.ne_of_lt (suspended_lt h.sound h'))
      (h.suspended k' a hold)
  · intro a ha
    have ha' : w.nextAwaiter < a := ha
    exact hother a (Nat.ne_of_gt ha') (h.fresh a (Nat.le_of_lt ha'))
  · intro x c hx hc
    obtain ⟨v, hv⟩ := h.established x c hx hc
    exact ⟨v, List.mem_append_left _ hv⟩

/-- **GOOD STEPS KEEP IT**: every step but a disconnect callback. -/
theorem completing_step (h : Completing w tr)
    (hl : ∀ x, l ≠ .disconnectCb x) (hstep : step w l = some (w', es)) :
    Completing w' (tr ++ es) := by
  have ho := (step_outcome h.sound hstep).2
  have hs := sound_outcome h.sound ho
  cases ho with
  -- an early exit resumes nobody; whether anybody ever will is not asked here
  | connectExit hk _ =>
      exact completing_awaitOn h hs rfl rfl (fun _ _ hx _ => hx)
        (atEach_snoc.mpr ⟨h.once, trivial⟩) (fun a => ⟨by simp, by simp⟩)
  | connectPending hk _ =>
      refine completing_awaitOn h hs rfl rfl ?_
        (by rw [List.append_nil]; exact h.once) (fun a => ⟨by simp, by simp⟩)
      intro x c hx hc
      exact established_of_register rfl hx hc
  | fetchThrows _ _ => exact completing_fetchThrows h rfl hs
  | fetchExit hk _ _ _ =>
      exact completing_awaitOn h hs rfl rfl (fun _ _ hx _ => hx)
        (atEach_snoc.mpr ⟨h.once, trivial⟩) (fun a => ⟨by simp, by simp⟩)
  | fetchPending hk _ _ _ =>
      refine completing_awaitOn h hs rfl rfl ?_
        (atEach_snoc.mpr ⟨h.once, (h.fresh _ (Nat.le_refl _)).2⟩)
        (fun a => ⟨by simp, by simp⟩)
      intro x c hx hc
      exact established_of_register rfl hx hc
  | fetchParked hk _ _ =>
      exact completing_awaitOn h hs rfl rfl (fun _ _ hx _ => hx)
        (by rw [List.append_nil]; exact h.once) (fun a => ⟨by simp, by simp⟩)
  | @connected x c status k hx hc _ hk =>
      -- the awaiter is open: a coroutine still waits on it
      have hopen := h.suspended k c.data hk.1
      have h1 : CompletedOnce (tr ++ [.setCoroReturn c.data]) :=
        atEach_snoc.mpr ⟨h.once, hopen.2⟩
      have h2 : CompletedOnce
          ((tr ++ [.setCoroReturn c.data]) ++ [.resume c.data]) :=
        atEach_snoc.mpr ⟨h1, open_quiet hopen (by simp) (by simp)⟩
      refine completing_callback status h hs hx hk rfl rfl rfl ?_ ?_ (by simp)
      · have h3 := completedOnce_returned h2 c.data (.connect (some
          ⟨if status = REDIS_OK then some x else none⟩))
        rw [List.append_assoc, List.append_assoc] at h3
        exact h3
      · intro a ha
        exact ⟨by simp [ha], by simp [ha]⟩
  | @fetched x c status k hx hc _ hk =>
      have hopen := h.suspended k c.data hk.1
      have h1 : CompletedOnce (tr ++ [.resume c.data]) :=
        atEach_snoc.mpr ⟨h.once, hopen⟩
      refine completing_callback status h hs hx hk rfl rfl rfl ?_ ?_ (by simp)
      · have h2 := completedOnce_returned h1 c.data
          (.fetch (addTemporary w.pool x).fetchFromFreePool.1)
        rw [List.append_assoc] at h2
        exact h2
      · intro a ha
        exact ⟨by simp [ha], by simp [ha]⟩
  | lateSet hx _ _ => exact absurd rfl (hl _)
  | lateResume hx _ _ => exact absurd rfl (hl _)
  | dropped hc =>
      rw [List.append_nil]
      exact ⟨hs, h.once, h.suspended, h.fresh, h.established⟩
  | @moved l k st hk hst _ =>
      rw [List.append_nil]
      refine ⟨hs, h.once, ?_, h.fresh, h.established⟩
      intro k' a hk'
      exact h.suspended k' a (awaiting_of_update hst hk').2

/-- **BAD STEPS BREAK IT**: a disconnect callback uses an awaiter that has
    returned. -/
theorem not_completedOnce_disconnectCb {x : CtxPtr} (h : Completing w tr)
    (hstep : step w (.disconnectCb x) = some (w', es)) :
    ¬ CompletedOnce (tr ++ es) := by
  intro honce
  have ho := (step_outcome h.sound hstep).2
  cases ho with
  | lateSet hx hc _ =>
      obtain ⟨v, hv⟩ := h.established x _ hx hc
      exact (atEach_snoc.mp honce).2 v hv
  | lateResume hx hc _ =>
      obtain ⟨v, hv⟩ := h.established x _ hx hc
      exact (atEach_snoc.mp honce).2.2 v hv
  | moved _ _ hl => exact absurd hl (by simp)

end completing

/-- **WHEN AWAITERS ARE COMPLETED ONCE**: throughout a run exactly if no
    disconnect callback runs in it. -/
theorem completedOnce_iff (pool : Pool) (ls : List Label) (w : World)
    (tr : List Event) (h : Run step (World.init pool) ls w tr) :
    HoldsThroughout step (World.init pool) ls (fun _ tr => CompletedOnce tr)
      ↔ ∀ x, Label.disconnectCb x ∉ ls := by
  have hbreaks : ∀ w tr l w' es, Completing w tr →
      ¬ (∀ x, l ≠ .disconnectCb x) → step w l = some (w', es) →
      ¬ CompletedOnce (tr ++ es) := by
    intro w tr l w' es hinv hbad hstep
    obtain ⟨x, hx⟩ := not_forall.mp hbad
    rw [not_not] at hx
    subst hx
    exact not_completedOnce_disconnectCb hinv hstep
  have hiff : HoldsThroughout step (World.init pool) ls
        (fun _ tr => CompletedOnce tr)
      ↔ EveryStep step (World.init pool) ls
        (fun _ l => ∀ x, l ≠ .disconnectCb x) :=
    holdsThroughout_iff_everyStep Completing (completing_init pool)
      (fun _ _ hinv => hinv.once)
      (fun _ _ _ _ _ hinv hgood hstep => completing_step hinv hgood hstep)
      hbreaks h
  refine hiff.trans ((everyStep_label_iff h).trans ?_)
  constructor
  · intro hall x hx
    exact hall _ hx x rfl
  · rintro hnone l hl x rfl
    exact hnone x hl

/-- The server closes an established connection: the disconnect callback calls
    `set_coro_return` on the awaiter of a `co_await` that is over. -/
theorem disconnect_uses_dead_awaiter :
    ∃ w tr, Run step (World.init oneIoPool)
        [.connect 0 1 (lit "127.0.0.1") 6379 5 allOk, .connectCb 0 REDIS_OK,
          .finish 0, .disconnectCb 0] w tr
      ∧ tr = [.setCoroReturn 0, .resume 0,
          .returned 0 (.connect (some ⟨some 0⟩)), .setCoroReturn 0]
      ∧ ¬ CompletedOnce tr := by
  obtain ⟨w, tr, hrun, htr⟩ : ∃ w tr, Run step (World.init oneIoPool)
        [.connect 0 1 (lit "127.0.0.1") 6379 5 allOk, .connectCb 0 REDIS_OK,
          .finish 0, .disconnectCb 0] w tr
      ∧ tr = [.setCoroReturn 0, .resume 0,
          .returned 0 (.connect (some ⟨some 0⟩)), .setCoroReturn 0] :=
    ⟨_, _, run_of_exec rfl, rfl⟩
  refine ⟨w, tr, hrun, htr, ?_⟩
  intro honce
  have hlate := honce [.setCoroReturn 0, .resume 0,
    .returned 0 (.connect (some ⟨some 0⟩))] (.setCoroReturn 0) [] htr
  exact hlate (.connect (some ⟨some 0⟩)) (by simp)

theorem completedOnce_iff_oneConnect :
    ∃ w tr, Run step (World.init oneIoPool)
        [.connect 0 1 (lit "127.0.0.1") 6379 5 allOk, .connectCb 0 REDIS_OK]
        w tr
      ∧ (HoldsThroughout step (World.init oneIoPool)
          [.connect 0 1 (lit "127.0.0.1") 6379 5 allOk, .connectCb 0 REDIS_OK]
          (fun _ tr => CompletedOnce tr)
        ↔ ∀ x, Label.disconnectCb x ∉ [Label.connect 0 1 (lit "127.0.0.1")
          6379 5 allOk, .connectCb 0 REDIS_OK]) := by
  obtain ⟨w, tr, hrun⟩ : ∃ w tr, Run step (World.init oneIoPool)
        [.connect 0 1 (lit "127.0.0.1") 6379 5 allOk, .connectCb 0 REDIS_OK]
        w tr := ⟨_, _, run_of_exec rfl⟩
  exact ⟨w, tr, hrun, completedOnce_iff oneIoPool _ w tr hrun⟩

end ClientAwaits
