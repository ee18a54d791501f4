import Emm.Proofs.Reconciliation

/-!
The retry of a parked specific procedure. A collision, the record of the parent, its timer and the
notification by which the parent is resumed are tied together by the history of the run: what is
parked was parked by the latest collision and has not been resumed since. Main statements:
`awaited_of_path`, the invariant, and `parked_procedures_resume`.
-/

namespace Emm

namespace Moment

/-- The specific procedure on record stays there: it does not go, no other takes its place, and it
is not parked anew. -/
def Keeps (z : Moment) (ue : UeId) (id : ProcedureId) : Prop :=
  (z.after.mme.specific? ue).isSome ∧ (∀ kind, z.move ≠ .act (.beginSpecific ue kind)) ∧
    ∀ old, ¬z.Collides ue (some id) old

end Moment

/-- An identification that had the procedure as its parent ended in a collision with `old`, when the
interval up to `deadline` began; since then no other did, and the procedure was not resumed. -/
def Pending (ms : List Moment) (interval : Duration) (ue : UeId) (id : ProcedureId) (old : UeId)
    (deadline : Instant) : Prop :=
  ∃ pre x mid, ms = pre ++ x :: mid ∧ x.Collides ue (some id) old ∧
    x.before.mme.timers.now.after? interval = some deadline ∧
    ∀ y ∈ mid, (∀ o, ¬y.Collides ue (some id) o) ∧
      ∀ o, y.published? ≠ some (.specificProcedureRetry ue id o)

/-- The EMM task took the expiry of the procedure's retry timer, when that was on record; since then
it has only waited. -/
def TakenUp (ms : List Moment) (ue : UeId) (id : ProcedureId) : Prop :=
  ∃ pre z mid q timer, ms = pre ++ z :: mid ∧ z.TakesUp ue q timer ∧ q.id = id ∧
    ∀ w ∈ mid, w.move ≠ .receive ∧ w.move ≠ .publish

section

variable {ms : List Moment} {interval : Duration} {ue old : UeId} {id : ProcedureId}
  {deadline : Instant} {x : Moment}

namespace Pending

theorem entered (ms : List Moment) (hcollides : x.Collides ue (some id) old)
    (hdeadline : x.before.mme.timers.now.after? interval = some deadline) :
    Pending (ms ++ [x]) interval ue id old deadline :=
  ⟨ms, x, [], rfl, hcollides, hdeadline, by simp⟩

theorem snoc (h : Pending ms interval ue id old deadline)
    (hcollides : ∀ o, ¬x.Collides ue (some id) o)
    (hpublished : ∀ o, x.published? ≠ some (.specificProcedureRetry ue id o)) :
    Pending (ms ++ [x]) interval ue id old deadline := by
  obtain ⟨pre, y, mid, rfl, hy, hdeadline, hmid⟩ := h
  refine ⟨pre, y, mid ++ [x], by simp, hy, hdeadline, List.forall_mem_append.2 ⟨hmid, ?_⟩⟩
  rw [List.forall_mem_singleton]
  exact ⟨hcollides, hpublished⟩

theorem snoc_quiet (h : Pending ms interval ue id old deadline) (hquiet : x.published? = none) :
    Pending (ms ++ [x]) interval ue id old deadline := by
  refine h.snoc ?_ ?_
  · rintro o ⟨_, n, _, _, _, hn, _⟩
    cases hquiet.symm.trans hn
  · rw [hquiet]
    nofun

end Pending

namespace TakenUp

theorem entered (ms : List Moment) {q : Specific} {timer : TimerId} (h : x.TakesUp ue q timer) :
    TakenUp (ms ++ [x]) ue q.id :=
  ⟨ms, x, [], q, timer, rfl, h, rfl, by simp⟩

theorem snoc (h : TakenUp ms ue id) (hreceive : x.move ≠ .receive) (hpublish : x.move ≠ .publish) :
    TakenUp (ms ++ [x]) ue id := by
  obtain ⟨pre, z, mid, q, timer, rfl, hz, hq, hmid⟩ := h
  refine ⟨pre, z, mid ++ [x], q, timer, by simp, hz, hq, List.forall_mem_append.2 ⟨hmid, ?_⟩⟩
  rw [List.forall_mem_singleton]
  exact ⟨hreceive, hpublish⟩

end TakenUp

end

namespace System

variable {s s' : System} {a : Move} {ms : List Moment} {interval : Duration} {ue : UeId}

/-- A specific procedure is not parked, or it is because of a collision in the past, and its timer
is for the deadline that was set then. -/
inductive Waits (ms : List Moment) (interval : Duration) (s : System) (ue : UeId) (q : Specific) :
    Prop
  | nothing (htimer : q.retryTimer = none) (hnone : q.reconciliation = none)
  | retry {timer : TimerId} {r : Reconciliation} (htimer : q.retryTimer = some timer)
      (hr : q.reconciliation = some r) (hpending : Pending ms interval ue q.id r.old r.deadline)
      (htimed : s.Timed timer r.deadline)

/-- The procedure is about to be resumed: it is not parked any more, and the deadline is over. -/
structure Resuming (ms : List Moment) (interval : Duration) (s : System) (ue : UeId)
    (id : ProcedureId) (old : Option UeId) : Prop where
  taken : TakenUp ms ue id
  due : ∃ o deadline, old = some o ∧ Pending ms interval ue id o deadline ∧
    deadline.millis ≤ s.mme.timers.now.millis
  unparked : ∀ q, s.mme.specific? ue = some q → q.retryTimer = none

/-- The history of a run tells for what each specific procedure waits. -/
structure Awaited (ms : List Moment) (interval : Duration) (s : System) : Prop where
  configured : s.config.retryInterval = interval
  bus : s.bus.Live
  waits : ∀ ue q, s.mme.specific? ue = some q → s.Waits ms interval ue q
  resuming : ∀ subject n next ue id old, s.emm = .publishing subject n next →
    n.resumes? = some (ue, id, old) → next = .finished ∧ s.Resuming ms interval ue id old

theorem not_collides_of_parked (hok : s.Scheduled a) (hstep : s.step? a = some s')
    (hbus : s.bus.Live) {q : Specific} {timer : TimerId} {deadline : Instant}
    (htimer : q.retryTimer = some timer) (htimed : s.Timed timer deadline)
    (hq : s.mme.specific? ue = some q) (hsame : s'.mme.specific? ue = some q) (old : UeId) :
    ¬Moment.Collides ⟨s, a, s'⟩ ue (some q.id) old := by
  intro hcollides
  obtain ⟨q', deadline', _, _, _, hparked⟩ | ⟨hparent, _⟩ :=
    parks_of_collides hok.2.1 hbus hstep hcollides
  · -- Parking puts a new timer on the record, and this one is not new.
    rw [Option.some.inj (hsame.symm.trans hparked)] at htimer
    exact htimed.issued.ne_next hok.2.2.2 (Option.some.inj htimer).symm
  · exact hparent q hq rfl

theorem Awaited.not_resumed (hs : Awaited ms interval s) {q : Specific} {timer : TimerId}
    (hq : s.mme.specific? ue = some q) (htimer : q.retryTimer = some timer) (id : ProcedureId)
    (old : Option UeId) :
    Moment.published? ⟨s, a, s'⟩ ≠ some (.specificProcedureRetry ue id old) := by
  intro hpublished
  obtain ⟨_, subject, next, hemm⟩ := published?_eq_some hpublished
  obtain ⟨_, hresuming⟩ := hs.resuming _ _ _ _ _ _ hemm rfl
  cases (hresuming.unparked q hq).symm.trans htimer

theorem waits_step (hok : s.Scheduled a) (hstep : s.step? a = some s') (hunused : s.NextUnused)
    (hs : Awaited ms interval s) {q : Specific} (hq : s'.mme.specific? ue = some q) :
    s'.Waits (ms ++ [⟨s, a, s'⟩]) interval ue q := by
  cases specific_of_step hok hs.bus hstep ue with
  | same h =>
      rw [h] at hq
      cases hs.waits ue q hq with
      | nothing htimer hnone => exact .nothing htimer hnone
      | retry htimer hr hpending htimed =>
          refine .retry htimer hr (hpending.snoc ?_ ?_) (timed_step hok.2.2 hstep htimed)
          · exact not_collides_of_parked hok hstep hs.bus htimer htimed hq (h.trans hq)
          · exact hs.not_resumed hq htimer q.id
  | gone h => cases h.symm.trans hq
  | begun ha h =>
      cases h.symm.trans hq
      exact .nothing rfl rfl
  | parked hcollides _ hdeadline h htimers =>
      cases h.symm.trans hq
      have htimed := timed_of_started hok.2.2 hstep hunused hdeadline htimers
      rw [hs.configured] at hdeadline
      exact .retry rfl rfl (.entered ms hcollides hdeadline) htimed
  | takenUp htakes h =>
      cases h.symm.trans hq
      exact .nothing rfl rfl

theorem unparked_step (hok : s.Scheduled a) (hstep : s.step? a = some s') (hbus : s.bus.Live)
    (hpublish : a ≠ .publish) (hs : ∀ q, s.mme.specific? ue = some q → q.retryTimer = none)
    {q : Specific} (hq : s'.mme.specific? ue = some q) : q.retryTimer = none := by
  cases specific_of_step hok hbus hstep ue with
  | same h => exact hs q (h.symm.trans hq)
  | gone h => cases h.symm.trans hq
  | begun ha h =>
      cases h.symm.trans hq
      rfl
  | parked hcollides _ _ _ _ =>
      obtain ⟨_, _, _, _, _, hpublished, _⟩ := hcollides
      exact absurd (published?_eq_some hpublished).1 hpublish
  | takenUp htakes h =>
      cases h.symm.trans hq
      rfl

theorem resuming_step (hok : s.Scheduled a) (hstep : s.step? a = some s')
    (hs : Awaited ms interval s) {subject : UeId} {n : Notification} {next : Resumption}
    {id : ProcedureId} {old : Option UeId} (hemm : s'.emm = .publishing subject n next)
    (hn : n.resumes? = some (ue, id, old)) :
    next = .finished ∧ s'.Resuming (ms ++ [⟨s, a, s'⟩]) interval ue id old := by
  have hnow := now_le_of_step hstep
  obtain ⟨hreceive, hpublish, hwaited⟩ | ⟨q, timer, htakes, rfl, rfl⟩ :=
    waits_to_resume hok hs.bus hstep hemm hn
  · obtain ⟨hnext, htaken, ⟨o, deadline, ho, hpending, hdue⟩, hunparked⟩ :=
      hs.resuming _ _ _ _ _ _ hwaited hn
    refine ⟨hnext, htaken.snoc hreceive hpublish, ⟨o, deadline, ho, ?_, hdue.trans hnow⟩, ?_⟩
    · exact hpending.snoc_quiet (published?_of_ne hpublish)
    · exact fun q hq => unparked_step hok hstep hs.bus hpublish hunparked hq
  · obtain ⟨hwaits, hunparked⟩ := waits_of_takesUp hstep htakes
    have htakesUp := htakes
    obtain ⟨hhand, hq, htimer⟩ := htakes
    have hpublish : a ≠ .publish := by
      rintro rfl
      cases hhand
    cases hwaits.symm.trans hemm
    cases hs.waits ue q hq with
    | nothing hnone _ => cases hnone.symm.trans htimer
    | @retry timer' r htimer' hr hpending htimed =>
        cases htimer'.symm.trans htimer
        refine ⟨rfl, .entered ms htakesUp, ⟨r.old, r.deadline, ?_, ?_, ?_⟩, ?_⟩
        · rw [Specific.awaited?, hr, Option.map_some]
        · exact hpending.snoc_quiet (published?_of_ne hpublish)
        · exact (htimed.due _ (expiryAtHand_undelivered hhand) rfl).trans hnow
        · intro q' hq'
          cases hunparked.symm.trans hq'
          rfl

theorem awaited_idle (config : NasConfig) (inboxCapacity busCapacity : Nat) :
    (idle config inboxCapacity busCapacity).Awaited [] config.retryInterval where
  configured := rfl
  bus := ⟨rfl, rfl, nofun⟩
  waits _ _ := nofun
  resuming _ _ _ _ _ _ := nofun

theorem awaited_of_path {config : NasConfig} {inboxCapacity busCapacity : Nat}
    (path : Path Scheduled (idle config inboxCapacity busCapacity) ms s) :
    s.Awaited ms config.retryInterval := by
  induction path with
  | nil => exact awaited_idle config inboxCapacity busCapacity
  | @snoc ms s s' a path hok hstep ih =>
      have hunused := nextUnused_of_path (path.mono fun _ _ h => h.2.2) hok.2.2.2
      obtain ⟨hclose, hask⟩ := hok.keepsBus
      constructor
      · rw [config_of_step hstep]
        exact ih.configured
      · exact bus_live_step hclose hask hstep ih.bus
      · exact fun ue q hq => waits_step hok hstep hunused ih hq
      · exact fun subject n next ue id old hemm hn => resuming_step hok hstep ih hemm hn

theorem specific_kept {s₀ : System} (path : Path Scheduled s₀ ms s) (hbus : s₀.bus.Live)
    {q : Specific} {timer : TimerId} (hq : s₀.mme.specific? ue = some q)
    (htimer : q.retryTimer = some timer) (hkeeps : ∀ z ∈ ms, z.Keeps ue q.id)
    (hwaits : ∀ z ∈ ms, z.before.expiryAtHand z.move ≠ some ⟨timer, ue, .specificRetry⟩) :
    s.bus.Live ∧ s.mme.specific? ue = some q := by
  induction path with
  | nil => exact ⟨hbus, hq⟩
  | @snoc ms s s' a _ hok hstep ih =>
      obtain ⟨hlive, hkept⟩ := ih (fun z hz => hkeeps z (List.mem_append_left _ hz))
        fun z hz => hwaits z (List.mem_append_left _ hz)
      obtain ⟨hclose, hask⟩ := hok.keepsBus
      obtain ⟨hsome, hbegins, hcollides⟩ := hkeeps ⟨s, a, s'⟩ (by simp)
      refine ⟨bus_live_step hclose hask hstep hlive, ?_⟩
      cases specific_of_step hok hlive hstep ue with
      | same h => exact h.trans hkept
      | gone h =>
          rw [h] at hsome
          cases hsome
      | begun ha _ => exact absurd ha (hbegins _)
      | parked hparks hq' _ _ _ =>
          cases hkept.symm.trans hq'
          exact absurd hparks (hcollides _)
      | takenUp htakes _ =>
          obtain ⟨hhand, hq', htimer'⟩ := htakes
          cases hkept.symm.trans hq'
          cases htimer'.symm.trans htimer
          exact absurd hhand (hwaits ⟨s, a, s'⟩ (by simp))

theorem not_taken_of_undelivered {config : NasConfig} {inboxCapacity busCapacity : Nat}
    (path : Path TimersOnly (idle config inboxCapacity busCapacity) ms s) {e : Expiry}
    (he : e ∈ s.undelivered) : ∀ z ∈ ms, z.before.expiryAtHand z.move ≠ some e := by
  intro z hz hhand
  have honce := (single_of_path path e.timer).once
  have htaken : 0 < taken ms e.timer := List.countP_pos_iff.2 ⟨z, hz, by simp [hhand]⟩
  have hcoming : 0 < s.undelivered.countP fun x => x.timer = e.timer :=
    List.countP_pos_iff.2 ⟨e, he, by simp⟩
  omega

section Over

variable {config : NasConfig} {inboxCapacity busCapacity : Nat} {pre mid post : List Moment}
  {x y z : Moment} {id : ProcedureId}

theorem paired_of_path (path : Path Scheduled (idle config inboxCapacity busCapacity) ms s)
    {q : Specific} (hq : s.mme.specific? ue = some q) :
    q.retryTimer.isSome ↔ q.reconciliation.isSome := by
  cases (awaited_of_path path).waits ue q hq with
  | nothing htimer hnone => simp [htimer, hnone]
  | retry htimer hr _ _ => simp [htimer, hr]

theorem resuming_of_published
    (path : Path Scheduled (idle config inboxCapacity busCapacity) (pre ++ y :: post) s)
    {old : Option UeId} (hy : y.published? = some (.specificProcedureRetry ue id old)) :
    (∃ subject, y.before.emm =
        .publishing subject (.specificProcedureRetry ue id old) .finished) ∧
      y.before.Resuming pre config.retryInterval ue id old := by
  obtain ⟨_, subject, next, hemm⟩ := published?_eq_some hy
  obtain ⟨rfl, hresuming⟩ :=
    (awaited_of_path path.split.1).resuming _ _ _ _ _ _ hemm rfl
  exact ⟨⟨subject, hemm⟩, hresuming⟩

theorem collides_between
    (path : Path Scheduled (idle config inboxCapacity busCapacity)
      (pre ++ y :: (mid ++ z :: post)) s)
    {old old' : Option UeId} (hy : y.published? = some (.specificProcedureRetry ue id old))
    (hz : z.published? = some (.specificProcedureRetry ue id old')) :
    ∃ x ∈ mid, ∃ o, x.Collides ue (some id) o := by
  obtain ⟨⟨_, hemm⟩, _⟩ := resuming_of_published path hy
  have path' : Path Scheduled (idle config inboxCapacity busCapacity)
      ((pre ++ y :: mid) ++ z :: post) s := by
    rwa [List.append_assoc, List.cons_append]
  obtain ⟨o, _, _, ⟨pre', x, mid', heq, hx, _, hsince⟩, _⟩ :=
    (resuming_of_published path' hz).2.due
  rcases UnderWay.before_or_after heq.symm with rfl | hmem | hmem
  · -- The moment publishes a retry, and not an order to tear a UE down.
    obtain ⟨_, _, _, _, hemm', _⟩ := hx
    cases hemm.symm.trans hemm'
  · exact absurd hy ((hsince y hmem).2 old)
  · exact ⟨x, hmem, o, hx⟩

theorem parks_of_mem
    (path : Path Scheduled (idle config inboxCapacity busCapacity) (pre ++ x :: post) s)
    {q : Specific} {old : UeId} (hx : x.Collides ue (some q.id) old)
    (hq : x.before.mme.specific? ue = some q) :
    ∃ timer deadline, x.before.mme.timers.now.after? config.retryInterval = some deadline ∧
      x.after.mme.specific? ue = some (q.park timer old deadline) := by
  obtain ⟨path₀, hok, hstep, _⟩ := path.split
  have hs := awaited_of_path path₀
  obtain ⟨q', deadline, hq', _, hdeadline, hparked⟩ | ⟨hparent, _⟩ :=
    parks_of_collides hok.2.1 hs.bus hstep hx
  · cases hq.symm.trans hq'
    rw [hs.configured] at hdeadline
    exact ⟨_, deadline, hdeadline, hparked⟩
  · exact absurd rfl (hparent q hq)

theorem resumes_of_taken
    (path : Path Scheduled (idle config inboxCapacity busCapacity)
      (pre ++ x :: (mid ++ y :: post)) s)
    {q : Specific} {timer : TimerId} (hq : x.after.mme.specific? ue = some q)
    (htimer : q.retryTimer = some timer) (hkeeps : ∀ z ∈ mid, z.Keeps ue q.id)
    (hy : y.before.expiryAtHand y.move = some ⟨timer, ue, .specificRetry⟩) :
    y.after.emm = .publishing ue (.specificProcedureRetry ue q.id q.awaited?) .finished ∧
      (s.emm = .publishing ue (.specificProcedureRetry ue q.id q.awaited?) .finished ∧
          (∀ z ∈ post, z.move ≠ .receive ∧ z.move ≠ .publish) ∨
        ∃ mid' z post', post = mid' ++ z :: post' ∧
          z.published? = some (.specificProcedureRetry ue q.id q.awaited?) ∧
          ∀ w ∈ mid', w.move ≠ .receive ∧ w.move ≠ .publish) := by
  have path' : Path Scheduled (idle config inboxCapacity busCapacity)
      ((pre ++ x :: mid) ++ y :: post) s := by
    rwa [List.append_assoc, List.cons_append]
  obtain ⟨pathy, hoky, hstepy, pathpost⟩ := path'.split
  obtain ⟨path₀, hokx, hstepx, pathmid⟩ := pathy.split
  have hbus : x.after.bus.Live := bus_live_step hokx.keepsBus.1 hokx.keepsBus.2 hstepx
    (awaited_of_path path₀).bus
  have hfresh : ∀ z ∈ mid, z.before.expiryAtHand z.move ≠ some ⟨timer, ue, .specificRetry⟩ := by
    intro z hz
    exact not_taken_of_undelivered (pathy.mono fun _ _ h => h.2.2) (expiryAtHand_undelivered hy) z
      (by simp [hz])
  obtain ⟨hlive, hkept⟩ := specific_kept pathmid hbus hq htimer hkeeps hfresh
  obtain ⟨hwaits, _⟩ := waits_of_takesUp hstepy ⟨hy, hkept, htimer⟩
  have hlivey := bus_live_step hoky.keepsBus.1 hoky.keepsBus.2 hstepy hlive
  exact ⟨hwaits, (published_next (fun _ _ h => h.keepsBus) pathpost hlivey hwaits).2⟩

/-- While nothing shuts down, the timer of a parked procedure is armed for the deadline, or has
fired and its expiry is on its way. -/
theorem timer_kept (path : Path Scheduled (idle config inboxCapacity busCapacity) ms s)
    (steady : Path Steady (idle config inboxCapacity busCapacity) ms s) {q : Specific}
    {timer : TimerId} (hq : s.mme.specific? ue = some q) (htimer : q.retryTimer = some timer) :
    (∃ b ∈ s.mme.timers.armed, b.expiry = ⟨timer, ue, .specificRetry⟩ ∧
        q.reconciliation.map (·.deadline) = some b.deadline) ∨
      ⟨timer, ue, .specificRetry⟩ ∈ s.undelivered := by
  have hs : s.InStep := steady.induct (inStep_idle _ _ _) fun _ _ _ hok hstep hs =>
    inStep_step hok hstep hs
  have hhandle : s.mme.handle? ue .specificRetry = some timer := by
    rw [Mme.handle?_specificRetry, hq]
    exact htimer
  refine (hs.covered ue .specificRetry timer hhandle).imp_left ?_
  rintro ⟨b, hb, hexpiry⟩
  refine ⟨b, hb, hexpiry, ?_⟩
  cases (awaited_of_path path).waits ue q hq with
  | nothing hnone _ => cases hnone.symm.trans htimer
  | retry htimer' hr _ htimed =>
      cases htimer'.symm.trans htimer
      rw [hr, Option.map_some, htimed.armed b hb (congrArg Expiry.timer hexpiry)]

end Over

/-- A specific procedure that is the parent of an identification ending in a collision waits until
the interval is over, and is resumed once:

* a retry timer is on record exactly with what the procedure waits for;
* a procedure is resumed for the UE that was torn down in the latest collision with it as the
  parent, not before the interval from there is over, and it was on record when the EMM task took
  the expiry of its timer;
* it is resumed again only after another such collision;
* a collision parks its parent if that is on record; if the record is kept until the expiry of the
  timer is taken, it is resumed next of all notifications;
* a collision with another parent, or with none, starts no timer;
* while nothing shuts down, the timer of a parked procedure is armed for the deadline, or its expiry
  is on its way. -/
theorem parked_procedures_resume {config : NasConfig} {inboxCapacity busCapacity : Nat}
    (path : Path Scheduled (idle config inboxCapacity busCapacity) ms s) :
    (∀ ue q, s.mme.specific? ue = some q → (q.retryTimer.isSome ↔ q.reconciliation.isSome)) ∧
      (∀ (pre post : List Moment) (y : Moment) ue id old, ms = pre ++ y :: post →
        y.published? = some (.specificProcedureRetry ue id old) →
          TakenUp pre ue id ∧ ∃ o deadline, old = some o ∧
            Pending pre config.retryInterval ue id o deadline ∧
            deadline.millis ≤ y.before.mme.timers.now.millis) ∧
      (∀ (pre mid post : List Moment) (y z : Moment) ue id old old',
        ms = pre ++ y :: (mid ++ z :: post) →
        y.published? = some (.specificProcedureRetry ue id old) →
        z.published? = some (.specificProcedureRetry ue id old') →
          ∃ x ∈ mid, ∃ o, x.Collides ue (some id) o) ∧
      (∀ (pre rest : List Moment) (x : Moment) ue (q : Specific) old, ms = pre ++ x :: rest →
        x.Collides ue (some q.id) old → x.before.mme.specific? ue = some q →
          ∃ timer deadline, x.before.mme.timers.now.after? config.retryInterval = some deadline ∧
            x.after.mme.specific? ue = some (q.park timer old deadline) ∧
            ∀ (mid post : List Moment) (y : Moment), rest = mid ++ y :: post →
              (∀ z ∈ mid, z.Keeps ue q.id) →
              y.before.expiryAtHand y.move = some ⟨timer, ue, .specificRetry⟩ →
                (s.emm = .publishing ue (.specificProcedureRetry ue q.id (some old)) .finished ∧
                    (∀ z ∈ post, z.move ≠ .receive ∧ z.move ≠ .publish) ∨
                  ∃ mid' z post', post = mid' ++ z :: post' ∧
                    z.published? = some (.specificProcedureRetry ue q.id (some old)) ∧
                    ∀ w ∈ mid', w.move ≠ .receive ∧ w.move ≠ .publish)) ∧
      (∀ x ∈ ms, ∀ ue parent old, x.Collides ue parent old →
        (∀ q, x.before.mme.specific? ue = some q → parent ≠ some q.id) →
          x.after.mme.specific? = x.before.mme.specific? ∧
            x.before.mme.timers.Fewer x.after.mme.timers) ∧
      (Path Steady (idle config inboxCapacity busCapacity) ms s →
        ∀ ue q timer, s.mme.specific? ue = some q → q.retryTimer = some timer →
          (∃ b ∈ s.mme.timers.armed, b.expiry = ⟨timer, ue, .specificRetry⟩ ∧
              q.reconciliation.map (·.deadline) = some b.deadline) ∨
            ⟨timer, ue, .specificRetry⟩ ∈ s.undelivered) := by
  refine ⟨?_, ?_, ?_, ?_, ?_, ?_⟩
  · intro ue q hq
    exact paired_of_path path hq
  · rintro pre post y ue id old rfl hy
    obtain ⟨_, htaken, hdue, _⟩ := resuming_of_published path hy
    exact ⟨htaken, hdue⟩
  · rintro pre mid post y z ue id old old' rfl hy hz
    exact collides_between path hy hz
  · rintro pre rest x ue q old rfl hx hq
    obtain ⟨timer, deadline, hdeadline, hparked⟩ := parks_of_mem path hx hq
    refine ⟨timer, deadline, hdeadline, hparked, ?_⟩
    rintro mid post y rfl hkeeps hy
    exact (resumes_of_taken path hparked rfl hkeeps hy).2
  · intro x hx ue parent old hcollides hparent
    obtain ⟨pre, post, rfl⟩ := List.append_of_mem hx
    obtain ⟨path₀, hok, hstep, _⟩ := path.split
    obtain ⟨q, _, hq, hid, _⟩ | ⟨_, hsame, hfewer⟩ :=
      parks_of_collides hok.2.1 (awaited_of_path path₀).bus hstep hcollides
    · exact absurd hid (hparent q hq)
    · exact ⟨hsame, hfewer⟩
  · intro steady ue q timer hq htimer
    exact timer_kept path steady hq htimer

/-- The second UE attaches, claims the IMSI of the first, and is resumed a second later. -/
theorem parked_procedures_resume_attach :
    ∃ ms s, Path Scheduled (idle {} 4 8) ms s ∧ TakenUp ms ⟨2⟩ ⟨1⟩ ∧
      ∃ deadline, Pending ms (.ofSeconds 1) ⟨2⟩ ⟨1⟩ ⟨1⟩ deadline ∧
        deadline.millis ≤ s.mme.timers.now.millis := by
  let s := ((idle {} 4 8).walk? Scheduled
    [.act (.insert
        { ue := ⟨1⟩, state := .registered, imsi := some ⟨[0, 0, 1, 0, 1, 0], by decide⟩ }),
      .act (.insert { ue := ⟨2⟩, state := .deregistered }), .act (.beginSpecific ⟨2⟩ .attach),
      .send (.start ⟨2⟩ .imsi (some ⟨1⟩)), .receive, .publish, .publish,
      .send (.complete ⟨2⟩ (.imsi ⟨[0, 0, 1, 0, 1, 0], by decide⟩)), .receive, .publish, .publish,
      .advance ⟨1000⟩, .fire ⟨2⟩, .deliver, .receive]).get (by decide +kernel)
  let s' := (s.step? .publish).get (by decide +kernel)
  obtain ⟨ms, path⟩ : ∃ ms, Path Scheduled (idle {} 4 8) ms s :=
    Path.of_walk? (Option.some_get _).symm
  have hstep : s.step? .publish = some s' := (Option.some_get _).symm
  have hpublished : Moment.published? ⟨s, .publish, s'⟩ =
      some (.specificProcedureRetry ⟨2⟩ ⟨1⟩ (some ⟨1⟩)) := by decide +kernel
  have hok : s.Scheduled .publish := by decide +kernel
  clear_value s' s
  have h := (parked_procedures_resume (path.snoc hok hstep)).2.1
  obtain ⟨htaken, o, deadline, ho, hpending, hdue⟩ := h ms [] _ _ _ _ rfl hpublished
  cases ho
  exact ⟨ms, s, path, htaken, deadline, hpending, hdue⟩

/-- While the retry waits for room, the context of the UE is removed: the procedure is resumed that
is not on record any more. -/
theorem resumed_without_record :
    ∃ ms s s', Path Scheduled (idle {} 4 2) (ms ++ [⟨s, .publish, s'⟩]) s' ∧
      Moment.published? ⟨s, .publish, s'⟩ =
        some (.specificProcedureRetry ⟨2⟩ ⟨1⟩ (some ⟨1⟩)) ∧
      s.mme.context? ⟨2⟩ = none ∧ s'.mme.context? ⟨2⟩ = none := by
  let s := ((idle {} 4 2).walk? Scheduled
    [.act (.insert
        { ue := ⟨1⟩, state := .registered, imsi := some ⟨[0, 0, 1, 0, 1, 0], by decide⟩ }),
      .act (.insert { ue := ⟨2⟩, state := .deregistered }),
      .act (.insert { ue := ⟨3⟩, state := .deregistered }), .act (.beginSpecific ⟨2⟩ .attach),
      .send (.start ⟨2⟩ .imsi (some ⟨1⟩)), .receive, .publish, .publish, .take, .take,
      .send (.complete ⟨2⟩ (.imsi ⟨[0, 0, 1, 0, 1, 0], by decide⟩)), .receive, .publish, .publish,
      .take, .take, .send (.start ⟨3⟩ .imsi none), .receive, .publish, .publish,
      .advance ⟨1000⟩, .fire ⟨2⟩, .deliver, .receive, .act (.remove ⟨2⟩), .take]).get
        (by decide +kernel)
  let s' := (s.step? .publish).get (by decide +kernel)
  obtain ⟨ms, path⟩ : ∃ ms, Path Scheduled (idle {} 4 2) ms s :=
    Path.of_walk? (Option.some_get _).symm
  have hstep : s.step? .publish = some s' := (Option.some_get _).symm
  have hok : s.Scheduled .publish := by decide +kernel
  have hpublished : Moment.published? ⟨s, .publish, s'⟩ =
      some (.specificProcedureRetry ⟨2⟩ ⟨1⟩ (some ⟨1⟩)) := by decide +kernel
  have hgone : s.mme.context? ⟨2⟩ = none := by decide +kernel
  have hgone' : s'.mme.context? ⟨2⟩ = none := by decide +kernel
  exact ⟨ms, s, s', path.snoc hok hstep, hpublished, hgone, hgone'⟩

end System

end Emm
