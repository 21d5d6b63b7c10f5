import Mathlib.Data.List.Nodup
import CoroRedis.ClientSlotProofs

/-! # Nobody is orphaned

    Every coroutine that is suspended in `coro_connect` or `fetch_coro_conn`
    has one registered wake-up, and who leaves a suspend callback early is
    resumed with null.

    * `registered_step`, `not_noOrphan_step` — what keeps it, and that nothing
      else does;
    * `noOrphan_iff` — the EXACT CONDITION over a whole run: no
      `ASSERT_RETURN` leaves a suspend callback, since none of them resumes
      the coroutine; and no `co_await` waits at an address that an outstanding
      connect callback still names;
    * `unnamed_of_quiet` — the latter takes a disconnect callback that has
      resumed another fetch. -/

namespace ClientOrphans

open CoroBytes TaskAwaiters ClientConnect ClientPool ClientSlots
open ClientRuns hiding step
open ClientSteps hiding Outcome step_outcome
open RunLog
open SharedPool hiding step

/-! ## Wake-ups -/

/-- The connect callback of context `x` is outstanding and will be given the
    awaiter at `a`. -/
def Outstanding (w : World) (a : AwaiterPtr) (x : CtxPtr) : Prop :=
  ∃ c, w.ctxs[x]? = some c ∧ c.phase = .pending ∧ c.data = a

/-- One wake-up is registered for `a`: an outstanding connect callback, or one
    entry of `fetch_awaiters_`, the latter for a fetch only. -/
def OneWakeUp (w : World) (a : AwaiterPtr) : Prop :=
  ((∃! x, Outstanding w a x) ∧ a ∉ w.pool.clt.fetchAwaiters)
  ∨ ((∀ x, ¬ Outstanding w a x) ∧ w.pool.clt.fetchAwaiters.count a = 1
    ∧ ∃ aw, w.awaiters a = some (.fetch aw))

/-- Nobody is orphaned: suspended coroutines have their wake-up, and who leaves
    through an early exit is resumed with null after it. -/
structure NoOrphan (w : World) (tr : List Event) : Prop where
  wakeUp : ∀ k a, w.coros k = .awaiting a → OneWakeUp w a
  exits : ∀ pre a post, tr = pre ++ .earlyExit a :: post →
    ∃ v, Event.returned a v ∈ post ∧ v.isNull = true

/-- The call is not left through an `ASSERT_RETURN`: the arguments are valid
    and the hiredis calls, where they are made, succeed. -/
def NoEarlyExit (w : World) : Label → Prop
  | .connect _ _ host port _ o => Valid host port ∧ o.Ok
  | .fetch _ o =>
      w.pool.clt.freePool = [] → w.pool.clt.poolIos ≠ [] → o.Ok
  | _ => True

/-- No outstanding connect callback names the address a `co_await` is to wait
    at. -/
def Unnamed (w : World) (l : SlotLabel) : Prop :=
  match l.label with
  | .connect _ _ _ _ _ _ => ∀ x, ¬ Outstanding w l.slot x
  | .fetch _ _ =>
      w.pool.clt.freePool = [] → ∀ x, ¬ Outstanding w l.slot x
  | _ => True

/-- What keeps everybody from being orphaned. -/
def Keeps (w : World) (l : SlotLabel) : Prop :=
  NoEarlyExit w l.label ∧ Unnamed w l

/-- Only the start of a `co_await` can fail to. -/
theorem keeps_of_not_awaits {w : World} {l : SlotLabel}
    (hl : awaits l.label = false) : Keeps w l := by
  obtain ⟨s, l⟩ := l
  cases l with
  | connect k ioc host port timeoutSeconds o => exact absurd hl (by simp [awaits])
  | fetch k o => exact absurd hl (by simp [awaits])
  | _ => exact ⟨trivial, trivial⟩

theorem awaits_ofContext {x : CtxPtr} {l : Label} (h : OfContext x l) :
    awaits l = false := by
  rcases h with ⟨status, rfl⟩ | rfl <;> rfl

/-- No two outstanding connect callbacks name the same awaiter. -/
def Apart (w : World) : Prop :=
  ∀ (x y : CtxPtr) c d, w.ctxs[x]? = some c → w.ctxs[y]? = some d →
    c.phase = .pending → d.phase = .pending → c.data = d.data → x = y

theorem apart_init (pool : Pool) : Apart (World.init pool) := by
  intro x y c d hx
  simp [World.init] at hx

/-- A new context for an awaiter that none names. -/
theorem apart_register {w : World} (h : Apart w) {c : AsyncContext}
    (hnone : ∀ x, ¬ Outstanding w c.data x) : Apart (w.register c) := by
  intro x y d e hx hy hd he hde
  rcases getElem?_concat.mp hx with hx' | ⟨hx', rfl⟩
  · rcases getElem?_concat.mp hy with hy' | ⟨-, rfl⟩
    · exact h x y d e hx' hy' hd he hde
    · exact absurd ⟨d, hx', hd, hde⟩ (hnone x)
  · rcases getElem?_concat.mp hy with hy' | ⟨hy', -⟩
    · exact absurd ⟨e, hy', he, hde.symm⟩ (hnone y)
    · rw [hx', hy']

theorem apart_setPhase {w : World} (h : Apart w) {x : CtxPtr} {ph : Phase}
    (hph : ph ≠ .pending) : Apart (w.setPhase x ph) := by
  intro y z d e hy hz hd he
  exact h y z d e (pending_of_setPhase hph hy hd).2
    (pending_of_setPhase hph hz he).2 hd he

/-- Suspended coroutines have a wake-up; who is named by a connect callback is
    what it counts on, and who is parked has nothing stored. -/
structure Registered (w : World) : Prop where
  owned : Owned w
  given : ∀ (x : CtxPtr) c k aw, w.ctxs[x]? = some c → c.phase = .pending →
    Suspended w k c.data aw → Given c.kind aw
  single : Apart w
  wakeUp : ∀ k a, w.coros k = .awaiting a →
    (∃ x, Outstanding w a x) ∨ a ∈ w.pool.clt.fetchAwaiters
  parked : ∀ a ∈ w.pool.clt.fetchAwaiters, ∀ k aw, Suspended w k a aw →
    aw = .fetch (.suspended k)
  parkedOnce : w.pool.clt.fetchAwaiters.Nodup
  /-- A parked awaiter is there for good, as long as the process is. -/
  live : w.fault = none → ∀ a ∈ w.pool.clt.fetchAwaiters, w.awaiters a ≠ none

theorem registered_init (pool : Pool) : Registered (World.init pool) where
  owned := owned_init pool
  given x c k aw hx := by simp [World.init] at hx
  single := apart_init pool
  wakeUp k a hk := by cases hk
  parked a ha := by simp [World.init] at ha
  parkedOnce := by simp [World.init]
  live hf a ha := by simp [World.init] at ha

section registered

variable {w w' : World} {tr es : List Event} {l : SlotLabel} {k : CoroHandle}
  {a : AwaiterPtr} {aw : Awaiter}

/-- What is parked is not what a connect callback counts on. -/
theorem not_parked_of_given (h : Registered w) (kind : CtxKind)
    (hk : Suspended w k a aw) (hg : Given kind aw) :
    a ∉ w.pool.clt.fetchAwaiters := by
  intro hpark
  rw [h.parked a hpark k aw hk] at hg
  cases kind with
  | connect => exact hg
  | fetch => exact absurd hg (by simp [Given])

/-- A wake-up is the only one. -/
theorem oneWakeUp_of_registered (h : Registered w)
    (hk : w.coros k = .awaiting a) : OneWakeUp w a := by
  obtain ⟨aw, hsus⟩ := h.owned.alive k a hk
  have hnot : ∀ x, Outstanding w a x → a ∉ w.pool.clt.fetchAwaiters := by
    rintro x ⟨c, hx, hc, rfl⟩
    exact not_parked_of_given h c.kind hsus (h.given x c k aw hx hc hsus)
  rcases h.wakeUp k a hk with ⟨x, hx⟩ | hpark
  · refine Or.inl ⟨⟨x, hx, ?_⟩, hnot x hx⟩
    rintro y ⟨d, hy, hd, hdata⟩
    obtain ⟨c, hx, hc, rfl⟩ := hx
    exact h.single y x d c hy hx hd hc hdata
  · refine Or.inr ⟨fun x hx => hnot x hx hpark,
      List.count_eq_one_of_mem h.parkedOnce hpark, .suspended k, ?_⟩
    rw [← h.parked a hpark k aw hsus]
    exact hsus.2.1

/-! ### The building blocks keep it -/

theorem outstanding_register {c : AsyncContext} {x : CtxPtr}
    (h : Outstanding w a x) : Outstanding (w.register c) a x := by
  obtain ⟨d, hx, hd, hda⟩ := h
  exact ⟨d, getElem?_concat.mpr (Or.inl hx), hd, hda⟩

theorem outstanding_register_self {c : AsyncContext} (hc : c.phase = .pending) :
    Outstanding (w.register c) c.data w.ctxs.length :=
  ⟨c, getElem?_concat.mpr (Or.inr ⟨rfl, rfl⟩), hc, rfl⟩

/-- The contexts, the pool's waiters and the fault say the same as before, and
    so do coroutines and awaiters. -/
theorem registered_congr (h : Registered w) (hcoros : w'.coros = w.coros)
    (hawaiters : w'.awaiters = w.awaiters) (hctxs : w'.ctxs = w.ctxs)
    (hpark : w'.pool.clt.fetchAwaiters = w.pool.clt.fetchAwaiters)
    (hfault : w'.fault = none → w.fault = none) : Registered w' := by
  have hsus : ∀ {k b aw}, Suspended w' k b aw → Suspended w k b aw :=
    fun h' => ⟨hcoros ▸ h'.1, hawaiters ▸ h'.2.1, h'.2.2⟩
  refine ⟨owned_congr h.owned hcoros hawaiters, ?_, ?_, ?_, ?_, ?_, ?_⟩
  · intro x c k aw hx hc hk
    rw [hctxs] at hx
    exact h.given x c k aw hx hc (hsus hk)
  · rw [Apart, hctxs]
    exact h.single
  · intro k b hb
    rw [hcoros] at hb
    simp only [Outstanding, hctxs, hpark]
    exact h.wakeUp k b hb
  · intro b hb k aw hk
    rw [hpark] at hb
    exact h.parked b hb k aw (hsus hk)
  · rw [hpark]
    exact h.parkedOnce
  · intro hf b hb
    rw [hpark] at hb
    rw [hawaiters]
    exact h.live (hfault hf) b hb

/-- A coroutine starts to wait for the connect callback of a new context. -/
theorem registered_pending (h : Registered w) (hf : w.fault = none)
    {c : AsyncContext} (hslot : w.awaiters c.data = none)
    (hk : w.coros k = .active) (haw : aw.hCoro = some k)
    (hc : c.phase = .pending) (hgiven : Given c.kind aw)
    (hnone : ∀ x, ¬ Outstanding w c.data x) :
    Registered ((awaitAt w c.data k aw).register c) := by
  have hpark : c.data ∉ w.pool.clt.fetchAwaiters :=
    fun hin => h.live hf _ hin hslot
  have hsus : ∀ {k' b aw'},
      Suspended ((awaitAt w c.data k aw).register c) k' b aw' →
      (k' = k ∧ b = c.data ∧ aw' = aw) ∨ Suspended w k' b aw' :=
    fun h' => suspended_of_awaitAt haw h'
  have hold : Apart (awaitAt w c.data k aw) := h.single
  refine ⟨owned_congr (owned_awaitAt h.owned hslot hk haw) rfl rfl, ?_,
    apart_register hold hnone, ?_, ?_, h.parkedOnce, ?_⟩
  · intro x d k' aw' hx hd hk'
    rcases getElem?_concat.mp hx with hold | ⟨-, rfl⟩
    · rcases hsus hk' with ⟨-, hdata, -⟩ | h'
      · exact absurd ⟨d, hold, hd, hdata⟩ (hnone x)
      · exact h.given x d k' aw' hold hd h'
    · rcases hsus hk' with ⟨-, -, rfl⟩ | h'
      · exact hgiven
      · exact absurd (hslot.symm.trans h'.2.1) (by simp)
  · intro k' b hb
    rcases awaiting_of_update_awaiting hb with ⟨-, rfl⟩ | ⟨-, hold⟩
    · exact Or.inl ⟨_, outstanding_register_self hc⟩
    · rcases h.wakeUp k' b hold with ⟨x, hx⟩ | hin
      · have hx' : Outstanding (awaitAt w c.data k aw) b x := hx
        exact Or.inl ⟨x, outstanding_register hx'⟩
      · exact Or.inr hin
  · intro b hb k' aw' hk'
    rcases hsus hk' with ⟨-, rfl, -⟩ | h'
    · exact absurd hb hpark
    · exact h.parked b hb k' aw' h'
  · intro _ b hb
    show Function.update w.awaiters c.data _ b ≠ none
    rw [Function.update_of_ne (ne_of_mem_of_not_mem hb hpark)]
    exact h.live hf b hb

/-- A coroutine starts to wait in `fetch_awaiters_`. -/
theorem registered_parked (h : Registered w) (hf : w.fault = none)
    (hslot : w.awaiters a = none) (hk : w.coros k = .active)
    (hnone : ∀ x, ¬ Outstanding w a x) :
    Registered { awaitAt w a k (.fetch (.suspended k)) with
      pool := w.pool.parkAwaiter a } := by
  have hpark : a ∉ w.pool.clt.fetchAwaiters :=
    fun hin => h.live hf _ hin hslot
  have hsus : ∀ {k' b aw'},
      Suspended { awaitAt w a k (.fetch (.suspended k)) with
        pool := w.pool.parkAwaiter a } k' b aw' →
      (k' = k ∧ b = a ∧ aw' = .fetch (.suspended k)) ∨ Suspended w k' b aw' :=
    fun h' => suspended_of_awaitAt rfl h'
  refine ⟨owned_congr (owned_awaitAt h.owned hslot hk rfl) rfl rfl, ?_,
    h.single, ?_, ?_, ?_, ?_⟩
  · intro x d k' aw' hx hd hk'
    rcases hsus hk' with ⟨-, hdata, -⟩ | h'
    · exact absurd ⟨d, hx, hd, hdata⟩ (hnone x)
    · exact h.given x d k' aw' hx hd h'
  · intro k' b hb
    rcases awaiting_of_update_awaiting hb with ⟨-, rfl⟩ | ⟨-, hold⟩
    · exact Or.inr (List.mem_append_right _ (List.mem_singleton_self _))
    · rcases h.wakeUp k' b hold with hx | hin
      · exact Or.inl hx
      · exact Or.inr (List.mem_append_left _ hin)
  · intro b hb k' aw' hk'
    rcases hsus hk' with ⟨rfl, -, rfl⟩ | h'
    · rfl
    · rcases List.mem_append.mp hb with hold | hnew
      · exact h.parked b hold k' aw' h'
      · rw [List.mem_singleton.mp hnew] at h'
        exact absurd (hslot.symm.trans h'.2.1) (by simp)
  · refine List.nodup_append.mpr ⟨h.parkedOnce, by simp, ?_⟩
    intro b hb c hc
    rw [List.mem_singleton.mp hc]
    rintro rfl
    exact hpark hb
  · intro _ b hb
    show Function.update w.awaiters a _ b ≠ none
    by_cases hba : b = a
    · rw [hba, Function.update_self]
      simp
    · rw [Function.update_of_ne hba]
      rcases List.mem_append.mp hb with hold | hnew
      · exact h.live hf b hold
      · exact absurd (List.mem_singleton.mp hnew) hba

/-- An await is over, and it was not a parked one, or the process ends. -/
theorem registered_finishAwait (h : Registered w) (hk : Suspended w k a aw)
    (f : Option Fault) (hpark : f = none →
      w.fault = none ∧ a ∉ w.pool.clt.fetchAwaiters) :
    Registered { w.finishAwait k a with fault := f } := by
  refine ⟨owned_congr (owned_finishAwait h.owned hk) rfl rfl, ?_, h.single, ?_,
    ?_, h.parkedOnce, ?_⟩
  · intro x c k' aw' hx hc hk'
    exact h.given x c k' aw' hx hc (suspended_of_finishAwait hk').1
  · intro k' b hb
    exact h.wakeUp k' b (awaiting_of_update active_ne_awaiting hb).2
  · intro b hb k' aw' hk'
    exact h.parked b hb k' aw' (suspended_of_finishAwait hk').1
  · intro hf b hb
    obtain ⟨hfault, hnot⟩ := hpark hf
    show Function.update w.awaiters a none b ≠ none
    rw [Function.update_of_ne (ne_of_mem_of_not_mem hb hnot)]
    exact h.live hfault b hb

/-- A callback has run, and nobody waits for it any more. -/
theorem registered_setPhase (h : Registered w) {x : CtxPtr} {c : AsyncContext}
    {ph : Phase} (hx : w.ctxs[x]? = some c) (hph : ph ≠ .pending)
    (hdead : c.phase = .pending → ∀ k aw, ¬ Suspended w k c.data aw) :
    Registered (w.setPhase x ph) := by
  refine ⟨owned_congr h.owned rfl rfl, ?_, apart_setPhase h.single hph, ?_,
    h.parked, h.parkedOnce, h.live⟩
  · intro y d k' aw' hy hd hk'
    exact h.given y d k' aw' (pending_of_setPhase hph hy hd).2 hd hk'
  · intro k' b hb
    rcases h.wakeUp k' b hb with ⟨y, d, hy, hd, rfl⟩ | hin
    · have hxy : x ≠ y := by
        rintro rfl
        rw [hx, Option.some.injEq] at hy
        subst hy
        obtain ⟨aw', h'⟩ := h.owned.alive k' _ hb
        exact hdead hd k' aw' h'
      exact Or.inl ⟨y, d, getElem?_setPhase.mpr ⟨d, hy, by rw [if_neg hxy]⟩,
        hd, rfl⟩
    · exact Or.inr hin

/-- A connect awaiter is given another value. -/
theorem registered_stored (h : Registered w)
    {aw₀ : TaskAwaiter (Option CtxPtr)} (v : Option CtxPtr)
    (hk : Suspended w k a (.connect aw₀)) :
    Registered (w.setAwaiter a (.connect (aw₀.setCoroReturn v))) := by
  have hpark : a ∉ w.pool.clt.fetchAwaiters :=
    not_parked_of_given h .connect hk trivial
  refine ⟨owned_setAwaiter h.owned hk hk.2.2, ?_, h.single, h.wakeUp, ?_,
    h.parkedOnce, ?_⟩
  · intro x c k' aw' hx hc hk'
    rcases suspended_of_setAwaiter hk' with ⟨hdata, rfl⟩ | ⟨-, h'⟩
    · have hg := h.given x c k _ hx hc (hdata ▸ hk)
      cases hkind : c.kind with
      | connect => trivial
      | fetch =>
          rw [hkind] at hg
          exact hg
    · exact h.given x c k' aw' hx hc h'
  · intro b hb k' aw' hk'
    rcases suspended_of_setAwaiter hk' with ⟨rfl, -⟩ | ⟨-, h'⟩
    · exact absurd hb hpark
    · exact h.parked b hb k' aw' h'
  · intro hf b hb
    show Function.update w.awaiters a _ b ≠ none
    rw [Function.update_of_ne (ne_of_mem_of_not_mem hb hpark)]
    exact h.live hf b hb

theorem registered_move {st : CoroStatus} (h : Registered w)
    (hk : ∀ b, w.coros k ≠ .awaiting b) (hst : ∀ b, st ≠ .awaiting b) :
    Registered { w with coros := Function.update w.coros k st } where
  owned := owned_move h.owned hk hst
  given x c k' aw' hx hc hk' :=
    h.given x c k' aw' hx hc ((suspended_move_iff hk hst).mp hk')
  single := h.single
  wakeUp k' b hb := h.wakeUp k' b (awaiting_of_update hst hb).2
  parked b hb k' aw' hk' :=
    h.parked b hb k' aw' ((suspended_move_iff hk hst).mp hk')
  parkedOnce := h.parkedOnce
  live := h.live

/-! ### Steps -/

theorem disconnected_ne_pending : Phase.disconnected ≠ .pending := by simp

/-- A callback has ended the await it met, and that was not a parked one. -/
theorem registered_callback (h : Registered w) {x : CtxPtr} {c : AsyncContext}
    {ph : Phase} (kind : CtxKind) (hx : w.ctxs[x]? = some c)
    (hk : Suspended w k c.data aw) (hg : Given kind aw) (hph : ph ≠ .pending) :
    Registered ((w.setPhase x ph).finishAwait k c.data) := by
  have hdone : Registered (w.finishAwait k c.data) :=
    registered_finishAwait h hk w.fault
      (fun hf => ⟨hf, not_parked_of_given h kind hk hg⟩)
  have hset := registered_setPhase hdone (x := x) (c := c) hx hph
    (fun _ _ _ hk' => (suspended_of_finishAwait hk').2 rfl)
  exact registered_congr hset rfl rfl rfl rfl id

/-- **STEP**: whoever is suspended has a wake-up, and still has one. -/
theorem registered_step (h : Registered w) (hl : Keeps w l)
    (hstep : step w l = some (w', es)) :
    Registered w' ∧ ∀ a, Event.earlyExit a ∉ es := by
  obtain ⟨hf, ho⟩ := step_outcome h.owned hstep
  cases ho with
  | connectExit _ _ ho => exact absurd hl.1 ho
  | connectPending hslot hk _ =>
      exact ⟨registered_pending h hf hslot hk rfl rfl trivial hl.2, by simp⟩
  | fetchThrows hslot hk _ =>
      obtain ⟨hcoros, hawaiters⟩ := finishAwait_awaitAt hslot hk
      exact ⟨registered_congr h hcoros hawaiters rfl rfl (by simp), by simp⟩
  | fetchExit _ _ hfree hio ho =>
      exact absurd (hl.1 hfree (List.ne_nil_of_mem (List.mem_of_getLast? hio)))
        ho
  | @fetchPending a k o ioc hslot hk hfree _ _ =>
      have hpend := registered_pending h hf (c := ⟨redisOptions w.pool.clt.host
          w.pool.clt.port w.pool.clt.timeout, ioc, .fetch, a, .pending⟩)
        hslot hk (hCoro_pendingAwaiter .fetch k) rfl rfl (hl.2 hfree)
      exact ⟨registered_congr hpend rfl rfl rfl rfl id, by simp⟩
  | fetchParked hslot hk hfree _ =>
      exact ⟨registered_parked h hf hslot hk (hl.2 hfree), by simp⟩
  | @connected s x c status k aw hx _ _ hk =>
      exact ⟨registered_callback h .connect hx hk trivial
        (phaseOf_ne_pending status), by simp⟩
  | @fetched s x c status k aw hx _ _ hk haw =>
      have hdone := registered_callback h .fetch hx hk haw
        (phaseOf_ne_pending status)
      exact ⟨registered_congr hdone rfl rfl rfl
        (fetchAwaiters_addTemporary w.pool x) id, by simp⟩
  | @stored s x c k aw hx hc _ hk =>
      have hset := registered_setPhase (registered_stored h none hk)
        hx disconnected_ne_pending
        (fun hpend => absurd (hc.symm.trans hpend) (by simp))
      exact ⟨registered_congr hset rfl rfl rfl rfl id, by simp⟩
  | @refetched s x c k aw hx _ _ hk haw =>
      have hdone := registered_callback h .fetch hx hk haw
        disconnected_ne_pending
      exact ⟨registered_congr hdone rfl rfl rfl
        (fetchAwaiters_fetchFromFreePool w.pool) id, by simp⟩
  | @threw s x c k aw hx _ _ hk _ =>
      -- the entry of `fetch_awaiters_` is left behind, but so is the process
      have hdone := registered_finishAwait h hk (some .terminated) (by simp)
      have hset := registered_setPhase hdone (x := x) (c := c)
        hx disconnected_ne_pending
        (fun _ _ _ hk' => (suspended_of_finishAwait hk').2 rfl)
      exact ⟨registered_congr hset rfl rfl rfl rfl id, by simp⟩
  | @dangled l x c ph f es hx _ hph hc hes =>
      have hset := registered_setPhase h hx hph
        (fun hpend k aw hk => hc hpend k aw hk (h.given x c k aw hx hpend hk))
      refine ⟨registered_congr hset rfl rfl rfl rfl (by simp), ?_⟩
      rcases hes with rfl | rfl | rfl <;> simp
  | dropped _ =>
      exact ⟨registered_congr h rfl rfl rfl (fetchAwaiters_dropHandle _ _) id,
        by simp⟩
  | moved hk hst _ => exact ⟨registered_move h hk hst, by simp⟩

/-- An early exit is followed by nothing. -/
theorem not_noOrphan_exit (h : NoOrphan w (tr ++ [.earlyExit a])) : False := by
  obtain ⟨v, hv, -⟩ := h.exits tr a [] rfl
  exact absurd hv List.not_mem_nil

/-- Two wake-ups for one address are not one. -/
theorem not_oneWakeUp_named {x : CtxPtr} (hx : Outstanding w a x)
    (hmore : (∃ y, y ≠ x ∧ Outstanding w a y)
      ∨ a ∈ w.pool.clt.fetchAwaiters) : ¬ OneWakeUp w a := by
  rintro (⟨⟨z, -, hz⟩, hpark⟩ | ⟨hnone, -⟩)
  · rcases hmore with ⟨y, hyx, hy⟩ | hin
    · exact hyx ((hz y hy).trans (hz x hx).symm)
    · exact hpark hin
  · exact hnone x hx

/-- A second context for one address, and who waits there. -/
theorem not_noOrphan_register {c : AsyncContext} {x : CtxPtr}
    (hx : Outstanding w c.data x) (hc : c.phase = .pending)
    (hk : w.coros k = .awaiting c.data) : ¬ NoOrphan (w.register c) tr := by
  intro hno
  have hne : w.ctxs.length ≠ x := by
    obtain ⟨d, hd, -⟩ := hx
    exact (Nat.ne_of_lt (List.getElem?_eq_some_iff.mp hd).1).symm
  exact not_oneWakeUp_named (outstanding_register hx)
    (Or.inl ⟨_, hne, outstanding_register_self hc⟩) (hno.wakeUp k _ hk)

/-- **STEP**: an early exit leaves the coroutine suspended, and a `co_await` at
    a named address has a wake-up too many. -/
theorem not_noOrphan_step (h : Registered w) (hl : ¬ Keeps w l)
    (hstep : step w l = some (w', es)) : ¬ NoOrphan w' (tr ++ es) := by
  intro hno
  obtain ⟨hf, ho⟩ := step_outcome h.owned hstep
  cases ho with
  | connectExit _ _ _ => exact not_noOrphan_exit hno
  | @connectPending a k ioc host port timeoutSeconds o hslot hk ho =>
      have hnamed : ¬ ∀ x, ¬ Outstanding w a x := fun hall => hl ⟨ho, hall⟩
      obtain ⟨x, hx⟩ := not_forall_not.mp hnamed
      have hx' : Outstanding (awaitAt w a k (.connect (.suspended k))) a x := hx
      exact not_noOrphan_register (k := k) hx' rfl (Function.update_self _ _ _)
        hno
  | fetchThrows _ _ hfree =>
      exact hl ⟨fun hnil => absurd hnil hfree, fun hnil => absurd hnil hfree⟩
  | fetchExit _ _ _ _ _ => exact not_noOrphan_exit hno
  | @fetchPending a k o ioc hslot hk hfree hio ho =>
      have hnamed : ¬ ∀ x, ¬ Outstanding w a x :=
        fun hall => hl ⟨fun _ _ => ho, fun _ => hall⟩
      obtain ⟨x, hx⟩ := not_forall_not.mp hnamed
      have hx' : Outstanding ({ awaitAt w a k (pendingAwaiter .fetch k) with
          pool := w.pool.takeIo } : World) a x := hx
      exact not_noOrphan_register (k := k) hx' rfl (Function.update_self _ _ _)
        hno
  | @fetchParked a k o hslot hk hfree hio =>
      have hnamed : ¬ ∀ x, ¬ Outstanding w a x :=
        fun hall => hl ⟨fun _ hne => absurd hio hne, fun _ => hall⟩
      obtain ⟨x, hx⟩ := not_forall_not.mp hnamed
      have hx' : Outstanding { awaitAt w a k (.fetch (.suspended k)) with
          pool := w.pool.parkAwaiter a } a x := hx
      exact not_oneWakeUp_named hx'
        (Or.inr (List.mem_append_right _ (List.mem_singleton_self _)))
        (hno.wakeUp k a (Function.update_self _ _ _))
  | connected _ _ _ _ => exact hl ⟨trivial, trivial⟩
  | fetched _ _ _ _ _ => exact hl ⟨trivial, trivial⟩
  | stored _ _ _ _ => exact hl ⟨trivial, trivial⟩
  | refetched _ _ _ _ _ => exact hl ⟨trivial, trivial⟩
  | threw _ _ _ _ _ => exact hl ⟨trivial, trivial⟩
  | dangled _ hctx _ _ _ => exact hl (keeps_of_not_awaits (awaits_ofContext hctx))
  | dropped _ => exact hl ⟨trivial, trivial⟩
  | moved _ _ hl' => exact hl (keeps_of_not_awaits hl')

end registered

/-! ## Over a run -/

/-- **WHEN NOBODY IS ORPHANED**: throughout a run exactly if no call in it is
    left through an `ASSERT_RETURN` and none waits at a named address. -/
theorem noOrphan_iff (pool : Pool) (ls : List SlotLabel) (w : World)
    (tr : List Event) (h : Run step (World.init pool) ls w tr) :
    HoldsThroughout step (World.init pool) ls NoOrphan
      ↔ EveryStep step (World.init pool) ls Keeps := by
  refine holdsThroughout_iff_everyStep
    (fun w tr => Registered w ∧ ∀ a, Event.earlyExit a ∉ tr)
    ⟨registered_init pool, by simp⟩ ?_ ?_ ?_ h
  · rintro w tr ⟨hreg, hexits⟩
    refine ⟨fun k a hk => oneWakeUp_of_registered hreg hk, ?_⟩
    rintro pre a post rfl
    exact absurd (by simp) (hexits a)
  · rintro w tr l w' es ⟨hreg, hexits⟩ hl hstep
    obtain ⟨hreg', hes⟩ := registered_step hreg hl hstep
    refine ⟨hreg', fun a ha => ?_⟩
    rcases List.mem_append.mp ha with hold | hnew
    · exact hexits a hold
    · exact hes a hnew
  · rintro w tr l w' es ⟨hreg, -⟩ hl hstep
    exact not_noOrphan_step hreg hl hstep

/-- A pool with two event loops. -/
def twoIoPool : Pool := Pool.init [1, 2] (lit "127.0.0.1") 6379 5

/-- Coroutine `0` fetches three times, from one slot; the disconnect callback
    of the first connection runs before the second has connected. -/
def reusedSlot : List SlotLabel :=
  [⟨0, .fetch 0 allOk⟩, ⟨0, .connectCb 0 REDIS_OK⟩, ⟨0, .fetch 0 allOk⟩,
    ⟨0, .disconnectCb 0⟩, ⟨0, .fetch 0 allOk⟩]

/-- The third fetch is parked while the connect callback of the second still
    names its slot. -/
theorem noOrphan_iff_reusedSlot :
    ∃ w tr, Run step (World.init twoIoPool) reusedSlot w tr
      ∧ w.coros 0 = .awaiting 0 ∧ w.pool.clt.fetchAwaiters = [0]
      ∧ Outstanding w 0 1
      ∧ (HoldsThroughout step (World.init twoIoPool) reusedSlot NoOrphan
        ↔ EveryStep step (World.init twoIoPool) reusedSlot Keeps) := by
  obtain ⟨w, tr, hrun, hk, hpark, hout⟩ : ∃ w tr,
      Run step (World.init twoIoPool) reusedSlot w tr
      ∧ w.coros 0 = .awaiting 0 ∧ w.pool.clt.fetchAwaiters = [0]
      ∧ Outstanding w 0 1 :=
    ⟨_, _, run_of_exec rfl, rfl, rfl, _, rfl, rfl, rfl⟩
  exact ⟨w, tr, hrun, hk, hpark, hout, noOrphan_iff twoIoPool _ w tr hrun⟩

/-- `coro_connect` with port `0`: the coroutine stays suspended for ever. -/
theorem connect_port_zero_orphans :
    ∃ w tr, Run step (World.init oneIoPool)
        [⟨0, .connect 0 1 (lit "127.0.0.1") 0 5 allOk⟩] w tr
      ∧ w.coros 0 = .awaiting 0 ∧ w.ctxs = [] ∧ ¬ NoOrphan w tr := by
  obtain ⟨w, tr, hrun, hk, hctxs, hpark⟩ : ∃ w tr,
      Run step (World.init oneIoPool)
        [⟨0, .connect 0 1 (lit "127.0.0.1") 0 5 allOk⟩] w tr
      ∧ w.coros 0 = .awaiting 0 ∧ w.ctxs = []
      ∧ w.pool.clt.fetchAwaiters = [] := ⟨_, _, run_of_exec rfl, rfl, rfl, rfl⟩
  refine ⟨w, tr, hrun, hk, hctxs, ?_⟩
  intro hno
  rcases hno.wakeUp 0 0 hk with ⟨⟨x, ⟨c, hx, -⟩, -⟩, -⟩ | ⟨-, hcount, -⟩
  · rw [hctxs] at hx
    exact absurd hx (by simp)
  · rw [hpark] at hcount
    exact absurd hcount (by simp)

/-! ## Without disconnect callbacks -/

/-- An outstanding connect callback names a live awaiter, and no two name the
    same. -/
structure Named (w : World) : Prop where
  owned : Owned w
  named : ∀ (x : CtxPtr) c, w.ctxs[x]? = some c → c.phase = .pending →
    w.awaiters c.data ≠ none
  single : Apart w

section named

variable {w w' : World} {es : List Event} {l : SlotLabel} {k : CoroHandle}
  {a : AwaiterPtr} {aw : Awaiter}

theorem unnamed_of_named (h : Named w) (hslot : w.awaiters a = none) :
    ∀ x, ¬ Outstanding w a x := by
  rintro x ⟨c, hx, hc, rfl⟩
  exact h.named x c hx hc hslot

/-- Awaiters that live go on living, and contexts stay. -/
theorem named_of_kept (h : Named w) (hown : Owned w') (hctxs : w'.ctxs = w.ctxs)
    (hlive : ∀ b, w.awaiters b ≠ none → w'.awaiters b ≠ none) : Named w' where
  owned := hown
  named x c hx hc := by
    rw [hctxs] at hx
    exact hlive _ (h.named x c hx hc)
  single := by
    rw [Apart, hctxs]
    exact h.single

theorem live_awaitAt (k : CoroHandle) {b : AwaiterPtr}
    (hb : w.awaiters b ≠ none) :
    (awaitAt w a k aw).awaiters b ≠ none := by
  show Function.update w.awaiters a _ b ≠ none
  by_cases hba : b = a
  · rw [hba, Function.update_self]
    simp
  · rw [Function.update_of_ne hba]
    exact hb

/-- A new context for the awaiter at its address. -/
theorem named_register (h : Named w) {c : AsyncContext}
    (hlive : w.awaiters c.data ≠ none) (hnone : ∀ x, ¬ Outstanding w c.data x) :
    Named (w.register c) where
  owned := owned_congr h.owned rfl rfl
  named x d hx hd := by
    rcases getElem?_concat.mp hx with hold | ⟨-, rfl⟩
    · exact h.named x d hold hd
    · exact hlive
  single := apart_register h.single hnone

/-- A callback has run: its context is not outstanding any more. -/
theorem named_setPhase (h : Named w) {x : CtxPtr} {ph : Phase}
    (hph : ph ≠ .pending) : Named (w.setPhase x ph) := by
  refine ⟨owned_congr h.owned rfl rfl, ?_, apart_setPhase h.single hph⟩
  intro y d hy hd
  exact h.named y d (pending_of_setPhase hph hy hd).2 hd

/-- The connect callback of `x` ends the await it names. -/
theorem named_callback (h : Named w) {x : CtxPtr} {c : AsyncContext} {ph : Phase}
    (hx : w.ctxs[x]? = some c) (hc : c.phase = .pending) (hph : ph ≠ .pending)
    (hk : Suspended w k c.data aw) :
    Named ((w.setPhase x ph).finishAwait k c.data) := by
  have hset := named_setPhase h (x := x) hph
  refine ⟨owned_congr (owned_finishAwait h.owned hk) rfl rfl, ?_, hset.single⟩
  intro y d hy hd
  obtain ⟨hxy, hold⟩ := pending_of_setPhase hph hy hd
  show Function.update w.awaiters c.data none d.data ≠ none
  rw [Function.update_of_ne]
  · exact h.named y d hold hd
  · intro hdata
    exact hxy (h.single x y c d hx hold hc hd hdata.symm)

/-- **STEP**: every step but a disconnect callback. -/
theorem named_outcome (h : Named w) (hl : ∀ x, l.label ≠ .disconnectCb x)
    (ho : Outcome w l w' es) : Named w' := by
  have hown := owned_outcome h.owned ho
  cases ho with
  | @connectExit a k _ _ _ _ _ _ _ _ =>
      exact named_of_kept h hown rfl (fun _ => live_awaitAt k)
  | @connectPending a k ioc host port timeoutSeconds o hslot hk _ =>
      have hwait : Named (awaitAt w a k (.connect (.suspended k))) :=
        named_of_kept h (owned_awaitAt h.owned hslot hk rfl) rfl
          (fun _ => live_awaitAt k)
      have hnone := unnamed_of_named h hslot
      exact named_register hwait (by simp [awaitAt, World.awaitOn, buildAt])
        hnone
  | @fetchThrows a k o hslot hk _ =>
      have hsame : ((awaitAt w a k (.fetch (.suspended k))).finishAwait k
          a).awaiters = w.awaiters := (finishAwait_awaitAt hslot hk).2
      refine named_of_kept h hown rfl (fun b hb => ?_)
      show ((awaitAt w a k (.fetch (.suspended k))).finishAwait k a).awaiters b
        ≠ none
      rw [hsame]
      exact hb
  | @fetchExit a k _ _ _ _ _ _ _ =>
      exact named_of_kept h hown rfl (fun _ => live_awaitAt k)
  | @fetchPending a k o ioc hslot hk _ _ _ =>
      have hwait : Named { awaitAt w a k (pendingAwaiter .fetch k) with
          pool := w.pool.takeIo } :=
        named_of_kept h (owned_congr (owned_awaitAt h.owned hslot hk
          (hCoro_pendingAwaiter .fetch k)) rfl rfl) rfl (fun _ => live_awaitAt k)
      have hnone := unnamed_of_named h hslot
      exact named_register hwait (by simp [awaitAt, World.awaitOn, buildAt])
        hnone
  | @fetchParked a k _ _ _ _ _ =>
      exact named_of_kept h hown rfl (fun _ => live_awaitAt k)
  | @connected s x c status k aw hx hc _ hk =>
      exact named_callback h hx hc (phaseOf_ne_pending status) hk
  | @fetched s x c status k aw hx hc _ hk _ =>
      have hdone := named_callback h hx hc (phaseOf_ne_pending status) hk
      exact named_of_kept hdone hown rfl (fun _ hb => hb)
  | stored _ _ _ _ => exact absurd rfl (hl _)
  | refetched _ _ _ _ _ => exact absurd rfl (hl _)
  | threw _ _ _ _ _ => exact absurd rfl (hl _)
  | dangled _ _ hph _ _ =>
      exact named_of_kept (named_setPhase h hph) hown rfl (fun _ hb => hb)
  | dropped _ => exact named_of_kept h hown rfl (fun _ hb => hb)
  | moved _ _ _ => exact named_of_kept h hown rfl (fun _ hb => hb)

/-- **RUN**: only a disconnect callback leaves an outstanding connect callback
    without its awaiter, so without one no `co_await` waits at a named
    address. -/
theorem unnamed_of_quiet {pool : Pool} {ls : List SlotLabel} {tr : List Event}
    (h : Run step (World.init pool) ls w tr)
    (hl : ∀ l ∈ ls, ∀ x, l.label ≠ .disconnectCb x) :
    EveryStep step (World.init pool) ls Unnamed := by
  refine everyStep_of_inv (fun w _ => Named w)
    (fun l => ∀ x, l.label ≠ .disconnectCb x)
    ⟨owned_init pool, by simp [World.init], apart_init pool⟩
    (fun w _ l w' es hinv hquiet hstep =>
      named_outcome hinv hquiet (step_outcome hinv.owned hstep).2)
    (fun w _ l w' es hinv hstep => ?_) h hl
  have ho := (step_outcome hinv.owned hstep).2
  cases hawaits : awaits l.label with
  | false => exact (keeps_of_not_awaits hawaits).2
  | true =>
      cases ho with
      | connectExit hslot _ _ => exact unnamed_of_named hinv hslot
      | connectPending hslot _ _ => exact unnamed_of_named hinv hslot
      | fetchThrows hslot _ _ => exact fun _ => unnamed_of_named hinv hslot
      | fetchExit hslot _ _ _ _ => exact fun _ => unnamed_of_named hinv hslot
      | fetchPending hslot _ _ _ _ => exact fun _ => unnamed_of_named hinv hslot
      | fetchParked hslot _ _ _ => exact fun _ => unnamed_of_named hinv hslot
      | dangled _ hctx _ _ _ =>
          exact absurd (awaits_ofContext hctx) (by simp [hawaits])
      | moved _ _ hl => exact absurd hl (by simp [hawaits])
      | _ => exact absurd hawaits (by simp [awaits])

end named

end ClientOrphans
