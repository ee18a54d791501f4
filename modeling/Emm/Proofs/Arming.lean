import Emm.Proofs.Frame
import Emm.Proofs.Reconciliation

/-!
Which moves arm a timer. T3470 is armed in the move in which an Identity Request is accepted, and a
retry timer in that in which the teardown of a displaced UE is; no handler arms one otherwise.

Main statement: `timers_follow_notifications`. It also says what follows for a notification channel
that has been closed: armed timers only get fewer, each fires once at most, and an order to start an
identification fails without touching a timer.
-/

namespace Emm

def Bench.Action.startsTimer : Bench.Action → Bool
  | startTimer .. | armRetry .. => true
  | _ => false

/-- Nobody but a handler starts a timer. -/
def System.Unaided (_ : System) : Move → Prop
  | .act action => action.startsTimer = false
  | _ => True

instance (s : System) : (a : Move) → Decidable (s.Unaided a)
  | .act action => inferInstanceAs (Decidable (action.startsTimer = false))
  | .receive | .publish | .take | .discard | .fire _ | .deliver | .advance _ | .send _
  | .askEmmToStop | .askAppToStop | .closeBus | .tearDown _ => .isTrue trivial

/-- Nobody is left to receive, or nobody to send. -/
def Channel.Shut {α : Type} (c : Channel α) : Prop := c.isOpen = false ∨ c.hasSender = false

theorem Channel.Shut.send {α : Type} {c : Channel α} (h : c.Shut) (e : Envelope α) :
    c.send e = .error .closed := by
  unfold Channel.send
  rw [if_pos]
  rcases h with h | h
  · simp [h]
  · simp [h]

theorem TimerId.next_ne (id : TimerId) : id.next ≠ id := by
  intro h
  have hval := congrArg (fun i : TimerId => i.val.toNat) h
  have hlt := id.val.toNat_lt
  simp only [TimerId.next, UInt64.toNat_add, UInt64.toNat_one] at hval
  omega

namespace Timers

variable {t t' : Timers} {next : TimerId}

theorem Fewer.isArmed (h : t.Fewer t') {id : TimerId} (hid : t'.isArmed id = true) :
    t.isArmed id = true := by
  simp only [Timers.isArmed, List.any_eq_true] at hid ⊢
  obtain ⟨a, ha, heq⟩ := hid
  exact ⟨a, h.armed.subset ha, heq⟩

theorem Turns.fewer (h : Turns next t t') (hnext : t.nextId = next) (hsame : t'.nextId = next) :
    t.Fewer t' := by
  have hboth : t'.nextId = next ∧ t.Fewer t' ∨ t'.nextId = next.next := by
    clear hsame
    induction h with
    | refl => exact .inl ⟨hnext, .refl t⟩
    | tail _ hturn ih =>
        cases hturn with
        | disarm p =>
            rcases ih with ⟨hid, hfewer⟩ | hid
            · exact .inl ⟨hid, hfewer.trans ⟨rfl, List.filter_sublist⟩⟩
            · exact .inr hid
        | start ue kind interval heq => exact .inr (congrArg TimerId.next heq)
        | advance d =>
            rcases ih with ⟨hid, hfewer⟩ | hid
            · exact .inl ⟨hid, hfewer.trans ⟨rfl, .refl _⟩⟩
            · exact .inr hid
  rcases hboth with ⟨_, hfewer⟩ | hid
  · exact hfewer
  · exact absurd (hid.symm.trans hsame) next.next_ne

end Timers

namespace Mme

variable (m : Mme) (ue : UeId)

/-! ### First turns -/

@[simp]
theorem nextId_stopTimers (ids : List TimerId) :
    (m.stopTimers ids).timers.nextId = m.timers.nextId := by
  rw [timers_stopTimers]

@[simp]
theorem nextId_releaseIdentification :
    (m.releaseIdentification ue).timers.nextId = m.timers.nextId :=
  (m.fewer_releaseIdentification ue).nextId

@[simp]
theorem nextId_deleteProcedures : (m.deleteProcedures ue).timers.nextId = m.timers.nextId := by
  unfold deleteProcedures
  split
  · rw [nextId_stopTimers, timers_modifyContext]
  · rfl

@[simp]
theorem nextId_tearDown : (m.tearDown ue).timers.nextId = m.timers.nextId := by
  simp only [tearDown, unregister]
  split
  · exact (nextId_stopTimers _ _).trans (by rw [timers_removeContext])
  · rfl

theorem nextId_settleImsi (claim : Claim) :
    (m.settleImsi claim).1.timers.nextId = m.timers.nextId := by
  have hfound := m.timers_findHolder claim.ue claim.imsi
  unfold settleImsi
  split
  · rename_i m₁ holder heq
    rw [heq] at hfound
    exact congrArg _ hfound
  · rename_i m₁ heq
    rw [heq] at hfound
    rw [← hfound]
    split
    · rename_i m₂ hassign
      unfold assign at hassign
      split at hassign
      · cases hassign
        exact (nextId_releaseIdentification _ _).trans (by rw [timers_claim]; rfl)
      · cases hassign
    · exact nextId_releaseIdentification _ _

theorem nextId_complete (identity : MobileIdentity) :
    (m.complete ue identity).1.timers.nextId = m.timers.nextId := by
  unfold complete
  simp only [identification?_emit]
  split
  · rfl
  · rename_i p hp
    generalize hheard : Mme.modifyContext _ ue (noteEquipment identity) = m₁
    have hnext : m₁.timers.nextId = m.timers.nextId := by
      rw [← hheard, timers_modifyContext, nextId_stopTimers]
      rfl
    rw [← hnext]
    cases identity with
    | imsi imsi => exact nextId_settleImsi m₁ _
    | imei imei => exact nextId_releaseIdentification m₁ ue
    | imeisv imeisv => exact nextId_releaseIdentification m₁ ue
    | tmsi tmsi => exact nextId_releaseIdentification (m₁.emit _) ue

theorem nextId_begin (config : NasConfig) (msg : Message) :
    (m.begin config msg).1.timers.nextId = m.timers.nextId := by
  cases msg with
  | start ue requested parent => exact congrArg _ (m.timers_start ue requested parent)
  | complete ue identity => exact m.nextId_complete ue identity
  | expired e =>
      obtain ⟨timer, ue, kind⟩ := e
      cases kind with
      | t3470 => exact congrArg _ (m.timers_t3470Expired ue config timer)
      | specificRetry => exact congrArg _ (m.timers_retryExpired ue timer)
  | lowerLayerFailure ue =>
      simp only [Mme.begin, lowerLayerFailed]
      split <;> rfl
  | nonDelivery ue => exact congrArg _ (m.timers_request ue .redelivery)
  | abort ue =>
      simp only [Mme.begin, abort]
      split
      · rfl
      · exact m.nextId_releaseIdentification ue

/-! ### Later turns -/

/-- A timer that is armed between two notifications: none, or one of the UE that the accepted
notification is about, or that is to have the IMSI of the UE that is torn down. -/
inductive Arms (config : NasConfig) (t : Timers) : Resumption → Delivery → Timers → Prop
  | none {next : Resumption} {d : Delivery} {t' : Timers} (h : t'.nextId = t.nextId) :
      Arms config t next d t'
  | t3470 {ue : UeId} {purpose : RequestPurpose} {t' : Timers}
      (h : (t.start ue .t3470 config.t3470Interval).Fewer t') :
      Arms config t (.requested ue purpose) .accepted t'
  | retry {claim : Claim} {holder : Holder} {t' : Timers}
      (h : (t.start claim.ue .specificRetry config.retryInterval).Fewer t') :
      Arms config t (.displaced claim holder) .accepted t'

theorem timers_armT3470 (interval : Duration) :
    (m.armT3470 interval ue).timers = m.timers ∨
      (m.timers.start ue .t3470 interval).Fewer (m.armT3470 interval ue).timers := by
  unfold armT3470
  split
  · rename_i p hp
    refine .inr ((m.fewer_stopTimers p.t3470.toList).start ?_ ue .t3470 interval)
    rw [timers_stopTimers]
  · exact .inl rfl

theorem timers_parkParent (interval : Duration) (parent : Option ProcedureId) (old : UeId) :
    (m.parkParent interval ue parent old).1.timers = m.timers ∨
      (m.timers.start ue .specificRetry interval).Fewer
        (m.parkParent interval ue parent old).1.timers := by
  unfold parkParent
  split
  · exact .inl rfl
  · split
    · exact .inl rfl
    · rename_i q _
      have hstarted : (m.timers.start ue .specificRetry interval).Fewer
          ((m.stopTimers q.retryTimer.toList).startTimer ue .specificRetry interval).2.timers := by
        refine (m.fewer_stopTimers q.retryTimer.toList).start ?_ ue .specificRetry interval
        rw [timers_stopTimers]
      simp only
      split
      · exact .inr hstarted
      · exact .inr hstarted

theorem timers_displace (interval : Duration) (parent : Option ProcedureId) (holder : Holder) :
    (m.displace interval ue parent holder).1.timers = m.timers ∨
      (m.timers.start ue .specificRetry interval).Fewer
        (m.displace interval ue parent holder).1.timers := by
  cases holder with
  | context old => exact timers_parkParent (m.modifyContext old _) ue interval parent old
  | application old => exact timers_parkParent m ue interval parent old

theorem resume_arms (config : NasConfig) (n : Notification) (next : Resumption) (d : Delivery) :
    Arms config m.timers next d (m.resume config n next d).1.timers := by
  have hnoted : (m.noteRefusal n d).timers = m.timers := by
    cases d <;> rfl
  unfold resume
  split
  · rename_i ue purpose
    have hsent : ((m.armT3470 config.t3470Interval ue).requestSucceeded ue purpose).1.timers =
        (m.armT3470 config.t3470Interval ue).timers := by
      cases purpose <;> rfl
    rw [hsent]
    rcases m.timers_armT3470 ue config.t3470Interval with h | h
    · exact .none (congrArg _ h)
    · exact .t3470 h
  · exact .none (congrArg _ (m.timers_requestFailed _ _ _))
  · exact .none rfl
  · exact .none rfl
  · rename_i claim holder
    have hdisplaced := m.timers_displace claim.ue config.retryInterval claim.parent holder
    split
    · rename_i m₁ heq
      rw [heq] at hdisplaced
      rcases hdisplaced with h | h
      · exact .none ((m₁.nextId_releaseIdentification claim.ue).trans (congrArg _ h))
      · exact .retry (h.trans (m₁.fewer_releaseIdentification claim.ue))
    · rename_i m₁ crash heq
      rw [heq] at hdisplaced
      rcases hdisplaced with h | h
      · exact .none (congrArg _ h)
      · exact .retry h
  · exact .none (nextId_releaseIdentification (m.emit _) _)
  · exact .none (congrArg _ hnoted)
  · exact .none rfl
  · exact .none rfl
  · exact .none rfl
  · exact .none rfl
  · rename_i ue
    refine .none (Eq.trans ?_ ((nextId_deleteProcedures _ ue).trans (congrArg _ hnoted)))
    unfold followExhaustion
    split <;> rfl
  · exact .none ((nextId_deleteProcedures _ _).trans (congrArg _ hnoted))
  · exact .none (congrArg _ hnoted)

theorem nextId_act {action : Bench.Action} (h : action.startsTimer = false) :
    (action.run m).1.timers.nextId = m.timers.nextId := by
  cases action with
  | startTimer ue kind interval => cases h
  | armRetry ue interval => cases h
  | insert c => exact congrArg _ (m.timers_insertContext c)
  | claim imsi ue => exact congrArg _ (m.timers_claim ue imsi)
  | stopTimer id => exact (congrArg Timers.nextId (m.timers_stopTimer id)).trans rfl
  | remove ue | removeHeld ue cause =>
      simp only [Bench.Action.run]
      split
      · exact congrArg _ (m.timers_removeContext ue)
      · rfl
  | setState ue _ | setSecurity ue _ | setImsi ue _ | endSpecific ue | endIdentification ue
  | endAll ue | findSpecific ue _ => exact congrArg _ (m.timers_onContext ue _ _)
  | _ => rfl

end Mme

/-- A handler that goes on to arm a timer has a notification to publish first that calls for it. -/
def Notification.Suits (n : Notification) : Resumption → Prop
  | .requested ue _ => n.requests? = some ue
  | .displaced _ holder => n = holder.teardown
  | _ => True

theorem Notification.suits_of_isLast (n : Notification) {next : Resumption} (h : next.IsLast) :
    n.Suits next := by
  cases next <;> trivial

theorem Notification.suits_of_fails (n : Notification) {next : Resumption} {ue : UeId}
    (h : next.Fails ue) : n.Suits next := by
  cases h <;> trivial

def Progress.Suited (p : Progress) : Prop := ∀ n next, p = .publish n next → n.Suits next

def EmmPhase.Suited (phase : EmmPhase) : Prop :=
  ∀ ue n next, phase = .publishing ue n next → n.Suits next

theorem Begun.suited {m : Mme} {records : UeId → Option Identification} {msg : Message}
    {p : Progress} (h : Begun m records msg p) : p.Suited := by
  rintro n next rfl
  cases h with
  | notice => trivial
  | entered hrequest => exact hrequest
  | renewed hrequest => exact hrequest
  | displacing => exact rfl
  | ended _ _ hlast => exact n.suits_of_isLast hlast
  | failing _ _ hfails => exact n.suits_of_fails hfails

theorem Resumed.suited {config : NasConfig} {m : Mme} {records : UeId → Option Identification}
    {next : Resumption} {d : Delivery} {p : Progress} (h : Resumed config m records next d p) :
    p.Suited := by
  rintro n next' rfl
  cases h with
  | sent hprogress =>
      rcases hprogress with heq | ⟨_, heq, _⟩
      · cases heq
        trivial
      · cases heq
  | ended _ hlast => exact n.suits_of_isLast hlast
  | exhausted => trivial

namespace System

variable {s s' : System} {a : Move}

theorem suited_phaseAfter {ue : UeId} {p : Progress} (h : p.Suited) :
    (phaseAfter ue p).Suited := by
  intro ue' n next heq
  cases p with
  | publish n' next' =>
      cases heq
      exact h n next rfl
  | done outcome => cases outcome <;> cases heq

theorem suited_step (hstep : s.step? a = some s') (h : s.emm.Suited) : s'.emm.Suited := by
  by_cases hreceive : a = .receive
  · subst hreceive
    obtain ⟨_, _, ⟨msg, _, e, p, _, hbegun, hphase⟩ | ⟨_, _, hstopped⟩⟩ := turn_of_receive hstep
    · rw [hphase]
      exact suited_phaseAfter hbegun.suited
    · intro _ _ _ heq
      rw [hstopped] at heq
      cases heq
  by_cases hpublish : a = .publish
  · subst hpublish
    obtain ⟨_, _, _, _, _, p, _, _, _, hresumed, hphase, _⟩ := turn_of_publish hstep
    rw [hphase]
    exact suited_phaseAfter hresumed.suited
  · rw [(traffic_of_step hreceive hpublish hstep).1]
    exact h

theorem suited_of_path {ok : System → Move → Prop} {s₀ : System} {ms : List Moment}
    (path : Path ok s₀ ms s) (hs₀ : s₀.emm = .receiving) : s.emm.Suited := by
  refine path.induct ?_ fun _ _ _ _ hstep h => suited_step hstep h
  intro _ _ _ heq
  rw [hs₀] at heq
  cases heq

/-! ### Moves -/

theorem fewer_of_nextId (hstep : s.step? a = some s')
    (h : s'.mme.timers.nextId = s.mme.timers.nextId) : s.mme.timers.Fewer s'.mme.timers :=
  (turns_of_step hstep).fewer rfl h

/-- Past the EMM task a timer is started by nobody but those who say so. -/
theorem nextId_aside (hreceive : a ≠ .receive) (hpublish : a ≠ .publish) (hok : s.Unaided a)
    (hstep : s.step? a = some s') : s'.mme.timers.nextId = s.mme.timers.nextId := by
  have hchange := step_change hstep
  generalize s'.mme = m' at hchange ⊢
  cases hchange with
  | edits ha _ => exact (ha.elim hreceive hpublish).elim
  | log log => rfl
  | apply h =>
      cases h with
      | tearDown ue e => exact Mme.nextId_tearDown _ ue
      | _ => rfl
  | fire ha hdue => rfl
  | advance d => rfl
  | tearDown ue => exact Mme.nextId_tearDown _ ue
  | act action => exact s.mme.nextId_act hok

theorem nextId_receive (hstep : s.step? .receive = some s') :
    s'.mme.timers.nextId = s.mme.timers.nextId := by
  obtain ⟨_, ⟨msg, rest, _, rfl⟩ | ⟨_, ⟨log, hlog⟩, _⟩⟩ := receive?_eq_some hstep
  · rw [beginMessage_eq, timers_follow]
    exact Mme.nextId_begin _ s.config msg
  · rw [hlog]

/-- Between two notifications of a handler. -/
theorem arms_of_publish (hstep : s.step? .publish = some s') :
    ∃ subject n next d, s.emm = .publishing subject n next ∧
      Mme.Arms s.config s.mme.timers next d s'.mme.timers ∧
      (d = .accepted → ∃ bus, s.bus.send (.message n) = .ok bus) := by
  obtain ⟨subject, n, next, s₁, d, hemm, hoffer, rfl⟩ := publish?_eq_some hstep
  have harms := s₁.mme.resume_arms s₁.config n next d
  refine ⟨subject, n, next, d, hemm, ?_, fun hd => ?_⟩
  · rw [resume_eq, timers_follow]
    obtain ⟨bus, _, rfl, _⟩ | ⟨_, rfl, _⟩ := offer?_eq_some hoffer
    · exact harms
    · exact harms
  · obtain ⟨bus, hsend, _⟩ | ⟨_, _, hrefused⟩ := offer?_eq_some hoffer
    · exact ⟨bus, hsend⟩
    · rw [hd] at hrefused
      cases hrefused

end System

namespace Moment

/-- The timers that a move arms. There is at most one, and the move in which it is armed is the one
in which the notification is accepted that calls for it. -/
inductive Arms (x : Moment) : Prop
  | nothing (htimers : x.before.mme.timers.Fewer x.after.mme.timers)
  | t3470 {ue : UeId} {requested : IdentityType} {security : SecurityParams}
      (hpublished : x.published? = some (.sendIdentityRequest ue requested security))
      (htimers : (x.before.mme.timers.start ue .t3470 x.before.config.t3470Interval).Fewer
        x.after.mme.timers)
  | retry {ue : UeId} {parent : Option ProcedureId} {holder : Holder}
      (hpublished : x.published? = some holder.teardown)
      (hcollides : x.Collides ue parent holder.ue)
      (htimers : (x.before.mme.timers.start ue .specificRetry
        x.before.config.retryInterval).Fewer x.after.mme.timers)

end Moment

namespace System

variable {s s' : System} {a : Move}

theorem arms_of_step (hsuited : s.emm.Suited) (hok : s.Unaided a)
    (hstep : s.step? a = some s') : Moment.Arms ⟨s, a, s'⟩ := by
  by_cases hreceive : a = .receive
  · subst hreceive
    exact .nothing (fewer_of_nextId hstep (nextId_receive hstep))
  by_cases hpublish : a = .publish
  · subst hpublish
    obtain ⟨subject, n, next, d, hemm, harms, haccepted⟩ := arms_of_publish hstep
    have hsuits := hsuited subject n next hemm
    cases harms with
    | none h => exact .nothing (fewer_of_nextId hstep h)
    | @t3470 ue purpose _ h =>
        obtain ⟨bus, hsend⟩ := haccepted rfl
        cases n with
        | sendIdentityRequest ue' requested security =>
            cases hsuits
            exact .t3470 (published?_of_sent hemm hsend) h
        | _ => cases hsuits
    | @retry claim holder _ h =>
        obtain ⟨bus, hsend⟩ := haccepted rfl
        have hpublished : Moment.published? ⟨s, .publish, s'⟩ = _ := published?_of_sent hemm hsend
        have hcollides : Moment.Collides ⟨s, .publish, s'⟩ claim.ue claim.parent holder.ue :=
          ⟨subject, n, claim, holder, hemm, hpublished, rfl, rfl, rfl⟩
        cases hsuits
        exact .retry hpublished hcollides h
  · exact .nothing (fewer_of_nextId hstep (nextId_aside hreceive hpublish hok hstep))

theorem shut_step (hstep : s.step? a = some s') (h : s.bus.Shut) : s'.bus.Shut := by
  cases uptake_of_step hstep with
  | still _ hbus | taken _ _ hbus | discarded _ hbus | asked _ _ hbus =>
      rw [hbus]
      exact h
  | published _ hsend =>
      rw [h.send] at hsend
      cases hsend
  | stopped _ _ hbus | closed hbus =>
      rw [hbus]
      exact .inl rfl

theorem fewer_of_shut (hshut : s.bus.Shut) (hok : s.Unaided a)
    (hstep : s.step? a = some s') : s.mme.timers.Fewer s'.mme.timers := by
  by_cases hreceive : a = .receive
  · subst hreceive
    exact fewer_of_nextId hstep (nextId_receive hstep)
  by_cases hpublish : a = .publish
  · subst hpublish
    obtain ⟨subject, n, next, d, hemm, harms, haccepted⟩ := arms_of_publish hstep
    cases harms with
    | none h => exact fewer_of_nextId hstep h
    | t3470 _ | retry _ =>
        obtain ⟨bus, hsend⟩ := haccepted rfl
        rw [hshut.send] at hsend
        cases hsend
  · exact fewer_of_nextId hstep (nextId_aside hreceive hpublish hok hstep)

end System

def Moment.fired? (x : Moment) : Option TimerId :=
  match x.move with
  | .fire timer => some timer
  | _ => none

/-- The timers that have fired, the earliest first. -/
def System.firedIn (ms : List Moment) : List TimerId := ms.filterMap Moment.fired?

namespace System

variable {s s₀ s' : System} {a : Move} {ms : List Moment}

theorem firedIn_snoc (ms : List Moment) (x : Moment) :
    firedIn (ms ++ [x]) = firedIn ms ++ x.fired?.toList :=
  filterMap_snoc _ ms x

theorem fired?_eq_some {id : TimerId} (h : Moment.fired? ⟨s, a, s'⟩ = some id) : a = .fire id := by
  unfold Moment.fired? at h
  split at h
  · cases h
    assumption
  · cases h

/-- A run over a closed channel. What has fired was armed at the start and is so no longer. -/
structure Dwindled (s₀ : System) (ms : List Moment) (s : System) : Prop where
  shut : s.bus.Shut
  fewer : s₀.mme.timers.Fewer s.mme.timers
  moments : ∀ x ∈ ms, x.before.mme.timers.Fewer x.after.mme.timers
  nodup : (firedIn ms).Nodup
  fired : ∀ id ∈ firedIn ms, s₀.mme.timers.isArmed id = true ∧ s.mme.timers.isArmed id = false

theorem Dwindled.step (h : Dwindled s₀ ms s) (hok : s.Unaided a)
    (hstep : s.step? a = some s') : Dwindled s₀ (ms ++ [⟨s, a, s'⟩]) s' := by
  have hfewer := fewer_of_shut h.shut hok hstep
  have hgone : ∀ id ∈ firedIn ms, s'.mme.timers.isArmed id = false := by
    intro id hid
    by_contra harmed
    have hstill := hfewer.isArmed (Bool.eq_true_of_not_eq_false harmed)
    rw [(h.fired id hid).2] at hstill
    cases hstill
  have hnow : ∀ id, a = .fire id →
      s.mme.timers.isArmed id = true ∧ s'.mme.timers.isArmed id = false := by
    rintro id rfl
    obtain ⟨b, hb, rfl, _, rfl⟩ := fireOne?_eq_some hstep
    constructor
    · exact List.any_eq_true.2 ⟨b, hb, by simp⟩
    · simp [Timers.isArmed, Timers.stop]
  refine ⟨shut_step hstep h.shut, h.fewer.trans hfewer, ?_, ?_, ?_⟩
  · intro x hx
    rcases List.mem_append.1 hx with hx | hx
    · exact h.moments x hx
    · rw [List.mem_singleton.1 hx]
      exact hfewer
  · rw [firedIn_snoc]
    refine List.nodup_append.2 ⟨h.nodup, ?_, fun id hid id' hid' heq => ?_⟩
    · cases Moment.fired? ⟨s, a, s'⟩ <;> simp
    · have hfires := fired?_eq_some (Option.mem_toList.1 hid')
      rw [← heq] at hfires
      have harmed := (hnow id hfires).1
      rw [(h.fired id hid).2] at harmed
      cases harmed
  · intro id hid
    rw [firedIn_snoc] at hid
    rcases List.mem_append.1 hid with hid | hid
    · exact ⟨(h.fired id hid).1, hgone id hid⟩
    · have hfires := fired?_eq_some (Option.mem_toList.1 hid)
      exact ⟨h.fewer.isArmed (hnow id hfires).1, (hnow id hfires).2⟩

theorem dwindled_of_path (path : Path Unaided s₀ ms s) (hshut : s₀.bus.Shut) :
    Dwindled s₀ ms s := by
  induction path with
  | nil => exact ⟨hshut, .refl _, by simp, by simp [firedIn], by simp [firedIn]⟩
  | snoc _ hok hstep ih => exact ih.step hok hstep

theorem arms_of_mem (path : Path Unaided s₀ ms s) (hs₀ : s₀.emm = .receiving) {x : Moment}
    (hx : x ∈ ms) : x.Arms := by
  obtain ⟨pre, post, rfl⟩ := List.append_of_mem hx
  obtain ⟨hpre, hok, hstep, _⟩ := path.split
  exact arms_of_step (suited_of_path hpre hs₀) hok hstep

theorem receive_message {msg : Message} {rest : List (Envelope Message)} (hemm : s.emm = .receiving)
    (hqueue : s.inbox.queue = .message msg :: rest) :
    s.step? .receive =
      some ({ s with inbox := { s.inbox with queue := rest } }.beginMessage msg) := by
  simp only [step?, receive?, hemm, Channel.receive, hqueue]

theorem start_refused (hshut : s.bus.Shut) {subject ue : UeId} {n : Notification}
    (hemm : s.emm = .publishing subject n (.requested ue .start)) :
    ∃ s', s.step? .publish = some s' ∧ s'.emm = .receiving ∧ s.mme.SameButLog s'.mme ∧
      Moment.outcome? ⟨s, .publish, s'⟩ = some (.started (.error (.dispatch .closed))) := by
  have hoffer : s.offer? n = some (s, .refused .closed) := by
    simp only [offer?, hshut.send]
  refine ⟨s.resume subject n (.requested ue .start) (.refused .closed), ?_, ?_, ?_, ?_⟩
  · simp only [step?, publish?, hemm, hoffer, Option.map_some]
  · rfl
  · exact s.mme.sameButLog_emit _
  · simp only [Moment.outcome?, hemm, hoffer]
    rfl

theorem beginMessage_of_publish (msg : Message) {m : Mme} {n : Notification} {next : Resumption}
    (h : (s.mme.emit (.exchanged .received msg.primitive msg.ue)).begin s.config msg =
      (m, .publish n next)) :
    (s.beginMessage msg).mme = m ∧ (s.beginMessage msg).emm = .publishing msg.ue n next := by
  rw [beginMessage_eq, h]
  exact ⟨rfl, rfl⟩

theorem start_received {ue : UeId} {requested : IdentityType} {parent : Option ProcedureId}
    {c : Context} {rest : List (Envelope Message)} (hemm : s.emm = .receiving)
    (hqueue : s.inbox.queue = .message (.start ue requested parent) :: rest)
    (hrequest : requested.isRequestable = true) (hc : s.mme.context? ue = some c)
    (hadmits : c.state.admitsIdentification = true) :
    ∃ s', s.step? .receive = some s' ∧ s'.bus = s.bus ∧
      s.mme.Restarts ue c requested parent s'.mme ∧
      s'.emm = .publishing ue (.sendIdentityRequest ue requested c.security.params)
        (.requested ue .start) := by
  have hreceived : (s.mme.emit (.exchanged .received
      (Message.start ue requested parent).primitive ue)).context? ue = some c := hc
  obtain ⟨m', hstart, hrestarts⟩ := Mme.start_restarts hrequest hreceived hadmits parent
  obtain ⟨hmme, hphase⟩ := beginMessage_of_publish (.start ue requested parent)
    (s := { s with inbox := { s.inbox with queue := rest } }) hstart
  refine ⟨_, receive_message hemm hqueue, bus_follow _ _ _, ?_, hphase⟩
  rw [hmme]
  exact hrestarts.of_emit

/-- No move of the EMM task. -/
def PastEmm (_ : System) : Move → Prop
  | .receive | .publish => False
  | _ => True

theorem still_publishing (path : Path PastEmm s₀ ms s) : s.emm = s₀.emm := by
  induction path with
  | nil => rfl
  | snoc _ hok hstep ih =>
      rw [← ih]
      refine (traffic_of_step ?_ ?_ hstep).1
      · rintro rfl
        exact hok
      · rintro rfl
        exact hok

/-- A timer is armed in the move in which the notification is accepted that calls for it, and
nothing else arms one, in whatever state the notification channel is and is closed. Once it is
closed, armed timers only get fewer and each fires once at most; an order to start that could be
followed leaves its record and the timers as they are where it fails. -/
theorem timers_follow_notifications (path : Path Unaided s₀ ms s) :
    (s₀.emm = .receiving → ∀ x ∈ ms, x.Arms) ∧
    (s₀.bus.Shut →
      (∀ x ∈ ms, x.before.mme.timers.Fewer x.after.mme.timers) ∧
      s₀.mme.timers.Fewer s.mme.timers ∧
      (firedIn ms).Nodup ∧ (∀ id ∈ firedIn ms, s₀.mme.timers.isArmed id = true) ∧
      ∀ ue requested parent c rest, s.emm = .receiving →
        s.inbox.queue = .message (.start ue requested parent) :: rest →
        requested.isRequestable = true → s.mme.context? ue = some c →
        c.state.admitsIdentification = true →
          ∃ s₁, s.step? .receive = some s₁ ∧ s.mme.Restarts ue c requested parent s₁.mme ∧
            ∀ mid s₂, Path PastEmm s₁ mid s₂ →
              ∃ s₃, s₂.step? .publish = some s₃ ∧ s₃.emm = .receiving ∧
                s₂.mme.SameButLog s₃.mme ∧
                Moment.outcome? ⟨s₂, .publish, s₃⟩ =
                  some (.started (.error (.dispatch .closed)))) := by
  refine ⟨fun hs₀ x hx => arms_of_mem path hs₀ hx, fun hshut => ?_⟩
  have hdwindled := dwindled_of_path path hshut
  refine ⟨hdwindled.moments, hdwindled.fewer, hdwindled.nodup,
    fun id hid => (hdwindled.fired id hid).1, ?_⟩
  intro ue requested parent c rest hemm hqueue hrequest hc hadmits
  obtain ⟨s₁, hreceive, hbus, hrestarts, hphase⟩ :=
    start_received hemm hqueue hrequest hc hadmits
  refine ⟨s₁, hreceive, hrestarts, fun mid s₂ pathMid => ?_⟩
  have hshut₂ : s₂.bus.Shut := by
    refine pathMid.induct ?_ fun _ _ _ _ hstep h => shut_step hstep h
    rw [hbus]
    exact hdwindled.shut
  exact start_refused hshut₂ ((still_publishing pathMid).trans hphase)

/-- Two UEs are being identified when the channel closes. The timer of one fires, and the other is
to be identified anew: it keeps its timer. -/
theorem timers_follow_notifications_closed :
    ∃ s₀ ms s, s₀.bus.Shut ∧ Path Unaided s₀ ms s ∧ s₀.mme.timers.armed.length = 2 ∧
      (∀ x ∈ ms, x.before.mme.timers.Fewer x.after.mme.timers) ∧
      s.mme.timers.armed.length = 1 ∧
      ∃ ue p s₁, s.mme.identification? ue = some p ∧ p.t3470.isSome ∧
        s.step? .receive = some s₁ ∧ s₁.mme.timers = s.mme.timers ∧
        s₁.mme.identification? ue = some (p.restarted .imei none) := by
  let s₀ := ((idle {} 4 8).walk? (fun _ _ => True)
    [.act (.insert { ue := ⟨1⟩, state := .registered }),
      .act (.insert { ue := ⟨2⟩, state := .registered }),
      .send (.start ⟨1⟩ .imsi none), .receive, .publish, .publish,
      .send (.start ⟨2⟩ .imsi none), .receive, .publish, .publish, .closeBus]).get
    (by decide +kernel)
  let s := (s₀.walk? Unaided
    [.advance ⟨6000⟩, .fire ⟨1⟩, .send (.start ⟨2⟩ .imei none)]).get (by decide +kernel)
  obtain ⟨ms, path⟩ : ∃ ms, Path Unaided s₀ ms s := Path.of_walk? (Option.some_get _).symm
  have hshut : s₀.bus.Shut := .inl (by decide +kernel)
  let c := (s.mme.context? ⟨2⟩).get (by decide +kernel)
  let p : Identification :=
    { id := ⟨2⟩, ue := ⟨2⟩, requested := .imsi, t3470 := some ⟨2⟩, parent := none,
      previousState := .registered }
  have hc : s.mme.context? ⟨2⟩ = some c := (Option.some_get _).symm
  have hp : c.procedures.identification = some p := by decide +kernel
  obtain ⟨hfewer, _, _, _, hstart⟩ := (timers_follow_notifications path).2 hshut
  obtain ⟨s₁, hreceive, hrestarts, _⟩ := hstart ⟨2⟩ .imei none c [] (by decide +kernel)
    (by decide +kernel) rfl hc (by decide +kernel)
  have hpending := hrestarts.pending p hp
  refine ⟨s₀, ms, s, hshut, path, by decide +kernel, hfewer, by decide +kernel, ⟨2⟩, p, s₁, ?_, rfl,
    hreceive, hpending.timers, hpending.identification⟩
  exact (Mme.identification?_eq_some_iff s.mme ⟨2⟩ p).2 ⟨c, hc, hp⟩

end System

end Emm
