import Emm.Proofs.Bookkeeping
import Emm.Proofs.Settlement
import Emm.Proofs.Turn

/-!
What a turn does to the specific procedures. One that is the parent of an identification which ends
in a collision is parked until a retry timer runs out; the handler of the expiry has it resumed.
Main statements: `begin_specific` and `resume_specific`. A first turn takes a specific procedure up
again or leaves all of them alone; a later one parks one, deletes one or leaves all alone.
-/

namespace Emm

namespace Specific

def park (q : Specific) (timer : TimerId) (old : UeId) (deadline : Instant) : Specific :=
  { q with retryTimer := some timer, reconciliation := some ⟨old, deadline⟩ }

def unpark (q : Specific) : Specific := { q with retryTimer := none, reconciliation := none }

/-- The UE for whose context the procedure waits. -/
def awaited? (q : Specific) : Option UeId := q.reconciliation.map (·.old)

end Specific

/-- The specific procedure that a notification has resumed, with its UE and the UE it waited for. -/
def Notification.resumes? : Notification → Option (UeId × ProcedureId × Option UeId)
  | specificProcedureRetry ue id old => some (ue, id, old)
  | _ => none

def Progress.resumes? : Progress → Option (UeId × ProcedureId × Option UeId)
  | publish n _ => n.resumes?
  | done _ => none

/-- Some timers may have been disarmed, and none has been started. -/
structure Timers.Fewer (t t' : Timers) : Prop where
  nextId : t'.nextId = t.nextId
  armed : t'.armed.Sublist t.armed

namespace Timers.Fewer

variable {t t' t'' : Timers}

theorem refl (t : Timers) : t.Fewer t := ⟨rfl, .refl _⟩

theorem trans (h : t.Fewer t') (h' : t'.Fewer t'') : t.Fewer t'' :=
  ⟨h'.nextId.trans h.nextId, h'.armed.trans h.armed⟩

theorem start (h : t.Fewer t') (hnow : t'.now = t.now) (ue : UeId) (kind : TimerKind)
    (interval : Duration) : (t.start ue kind interval).Fewer (t'.start ue kind interval) where
  nextId := congrArg TimerId.next h.nextId
  armed := by
    simp only [Timers.start, h.nextId, hnow]
    exact h.armed.append (.refl _)

end Timers.Fewer

namespace Mme

variable (m : Mme) (ue : UeId)

theorem specific?_congr {m m' : Mme} (h : ∀ u, (m'.context? u).bind (·.procedures.specific) =
    (m.context? u).bind (·.procedures.specific)) : m'.specific? = m.specific? :=
  funext h

theorem specific?_modifyContext {f : Context → Context}
    (hf : ∀ c, (f c).procedures.specific = c.procedures.specific) :
    (m.modifyContext ue f).specific? = m.specific? := by
  refine specific?_congr fun u => ?_
  rw [context?_modifyContext]
  split
  · rw [Option.bind_map]
    exact congrArg _ (funext hf)
  · rfl

@[simp]
theorem specific?_emit (e : Log.Event) : (m.emit e).specific? = m.specific? := rfl

@[simp]
theorem specific?_setIdentification (p : Option Identification) :
    (m.setIdentification ue p).specific? = m.specific? :=
  specific?_modifyContext m ue fun _ => rfl

theorem specific?_setSpecific {c : Context} (hc : m.context? ue = some c) (q : Option Specific) :
    (m.setSpecific ue q).specific? = Function.update m.specific? ue q := by
  funext u
  by_cases hu : u = ue
  · subst hu
    simp [specific?, hc]
  · simp [specific?, hu]

@[simp]
theorem specific?_stopTimers (ids : List TimerId) : (m.stopTimers ids).specific? = m.specific? :=
  specific?_congr fun u => by rw [context?_stopTimers]

@[simp]
theorem specific?_claim (imsi : Imsi) : (m.claim imsi ue).specific? = m.specific? :=
  specific?_congr fun u => by rw [context?_claim]

@[simp]
theorem specific?_enterIdentification (c : Context) (requested : IdentityType)
    (parent : Option ProcedureId) :
    (m.enterIdentification ue c requested parent).specific? = m.specific? := by
  unfold enterIdentification
  split
  · exact specific?_setIdentification _ ue _
  · exact specific?_setIdentification m.takeProcedureId.2 ue _

@[simp]
theorem specific?_armT3470 (interval : Duration) :
    (m.armT3470 interval ue).specific? = m.specific? := by
  unfold armT3470
  split
  · exact (specific?_setIdentification _ ue _).trans (specific?_stopTimers m _)
  · rfl

@[simp]
theorem specific?_releaseIdentification : (m.releaseIdentification ue).specific? = m.specific? := by
  unfold releaseIdentification
  split
  · exact (specific?_stopTimers _ _).trans (specific?_setIdentification m ue none)
  · rfl

@[simp]
theorem specific?_deleteProcedures :
    (m.deleteProcedures ue).specific? = Function.update m.specific? ue none := by
  unfold deleteProcedures
  split
  · rename_i c hc
    rw [specific?_stopTimers]
    funext u
    by_cases hu : u = ue
    · subst hu
      simp [specific?, hc]
    · simp [specific?, hu]
  · rename_i hnone
    have hfree : m.specific? ue = none := by rw [specific?, hnone, Option.bind_none]
    rw [← hfree, Function.update_eq_self]

@[simp]
theorem specific?_noteRefusal (n : Notification) (d : Delivery) :
    (m.noteRefusal n d).specific? = m.specific? := by
  cases d <;> rfl

@[simp]
theorem specific?_findHolder (imsi : Imsi) :
    (m.findHolder ue imsi).1.specific? = m.specific? := by
  have happlication : ∀ m : Mme, (m.findApplicationHolder ue imsi).1.specific? = m.specific? := by
    intro m
    unfold findApplicationHolder
    split <;> rfl
  unfold findHolder
  split
  · split
    · rfl
    · exact happlication _
  · exact happlication m

theorem find_specific (id : ProcedureId) :
    (m.context? ue).bind (·.procedures.specific? id) =
      (m.specific? ue).filter fun q => q.id = id := by
  cases hc : m.context? ue with
  | none => simp [specific?, hc]
  | some c => simp [specific?, hc, Procedures.specific?]

/-- The specific procedures stay as they are, and none is resumed next. -/
structure SparesSpecific (m : Mme) (turn : Mme × Progress) : Prop where
  specific : turn.1.specific? = m.specific?
  resumes : turn.2.resumes? = none

variable {m} in
theorem SparesSpecific.after {m' : Mme} {turn : Mme × Progress} (h : m'.specific? = m.specific?)
    (hturn : m'.SparesSpecific turn) : m.SparesSpecific turn :=
  ⟨hturn.specific.trans h, hturn.resumes⟩

theorem requestFailed_sparesSpecific (purpose : RequestPurpose) (e : IdentificationError) :
    m.SparesSpecific (m.requestFailed ue purpose e) := by
  unfold requestFailed
  split
  · exact ⟨rfl, rfl⟩
  · exact ⟨rfl, rfl⟩
  · split <;> exact ⟨rfl, rfl⟩

theorem request_sparesSpecific (purpose : RequestPurpose) :
    m.SparesSpecific (m.request ue purpose) := by
  unfold request
  split
  · exact .after (m.specific?_emit _) (requestFailed_sparesSpecific _ ue purpose _)
  · split
    · exact requestFailed_sparesSpecific m ue purpose _
    · exact ⟨rfl, rfl⟩

theorem requestSucceeded_sparesSpecific (purpose : RequestPurpose) :
    m.SparesSpecific (m.requestSucceeded ue purpose) := by
  cases purpose <;> exact ⟨rfl, rfl⟩

theorem start_sparesSpecific (requested : IdentityType) (parent : Option ProcedureId) :
    m.SparesSpecific (m.start ue requested parent) := by
  unfold start
  split
  · exact ⟨rfl, rfl⟩
  · split
    · exact ⟨rfl, rfl⟩
    · rename_i c hc
      split
      · exact ⟨rfl, rfl⟩
      · have hentered := m.specific?_enterIdentification ue c requested parent
        exact .after ((specific?_emit _ _).trans hentered) (request_sparesSpecific _ ue .start)

theorem conclude_sparesSpecific (previousState : EmmState) (completion : Completion) :
    m.SparesSpecific (m.conclude ue previousState completion) :=
  ⟨m.specific?_releaseIdentification ue, rfl⟩

theorem giveUp_sparesSpecific (claim : Claim) (e : IdentificationError) :
    m.SparesSpecific (m.giveUp claim e) :=
  ⟨(m.emit _).specific?_releaseIdentification claim.ue, rfl⟩

theorem settleImsi_sparesSpecific (claim : Claim) : m.SparesSpecific (m.settleImsi claim) := by
  have hfind := m.specific?_findHolder claim.ue claim.imsi
  unfold settleImsi
  split
  · rename_i m₁ holder heq
    rw [heq] at hfind
    refine ⟨hfind, ?_⟩
    cases holder <;> rfl
  · rename_i m₁ heq
    rw [heq] at hfind
    refine .after hfind ?_
    unfold assign
    split
    · rename_i m₂ hassign
      split at hassign
      · cases hassign
        refine .after ?_ (conclude_sparesSpecific _ _ _ _)
        exact (specific?_claim _ _ _).trans (m₁.specific?_modifyContext _ fun _ => rfl)
      · cases hassign
    · exact giveUp_sparesSpecific m₁ claim _

theorem complete_sparesSpecific (identity : MobileIdentity) :
    m.SparesSpecific (m.complete ue identity) := by
  unfold complete
  simp only [identification?_emit]
  split
  · exact ⟨rfl, rfl⟩
  · rename_i p hp
    have hheard : ((((m.emit (.responseReceived ue identity)).setIdentification ue
        (some { p with t3470 := none })).stopTimers p.t3470.toList).modifyContext ue
          (noteEquipment identity)).specific? = m.specific? := by
      refine (specific?_modifyContext _ ue fun c => by cases identity <;> rfl).trans ?_
      exact (specific?_stopTimers _ _).trans (specific?_setIdentification (m.emit _) ue _)
    cases identity with
    | imsi imsi => exact .after hheard (settleImsi_sparesSpecific _ _)
    | imei imei => exact .after hheard (conclude_sparesSpecific _ ue _ _)
    | imeisv imeisv => exact .after hheard (conclude_sparesSpecific _ ue _ _)
    | tmsi tmsi => exact ⟨(specific?_releaseIdentification _ ue).trans hheard, rfl⟩

theorem t3470Expired_sparesSpecific (config : NasConfig) (timer : TimerId) :
    m.SparesSpecific (m.t3470Expired config ue timer) := by
  unfold t3470Expired
  split
  · exact ⟨rfl, rfl⟩
  · split
    · exact ⟨rfl, rfl⟩
    · rename_i p hp
      simp only
      split
      · exact .after ((specific?_emit _ _).trans (specific?_setIdentification m ue _))
          (request_sparesSpecific _ ue .retransmission)
      · exact ⟨specific?_setIdentification m ue _, rfl⟩

theorem lowerLayerFailed_sparesSpecific : m.SparesSpecific (m.lowerLayerFailed ue) := by
  unfold lowerLayerFailed
  split <;> exact ⟨rfl, rfl⟩

theorem abort_sparesSpecific : m.SparesSpecific (m.abort ue) := by
  unfold abort
  split
  · exact ⟨rfl, rfl⟩
  · exact ⟨m.specific?_releaseIdentification ue, rfl⟩

theorem followExhaustion_sparesSpecific : m.SparesSpecific (m.followExhaustion ue) := by
  unfold followExhaustion
  split <;> exact ⟨rfl, rfl⟩

/-- A first turn takes up the procedure whose retry timer has run out, or leaves all alone. -/
inductive BeginsSpecific (m : Mme) : Message → Mme × Progress → Prop
  | spared {msg : Message} {turn : Mme × Progress} (h : m.SparesSpecific turn) :
      BeginsSpecific m msg turn
  | takenUp {ue : UeId} {timer : TimerId} {q : Specific} {m' : Mme} (hq : m.specific? ue = some q)
      (htimer : q.retryTimer = some timer)
      (hspecific : m'.specific? = Function.update m.specific? ue (some q.unpark)) :
      BeginsSpecific m (.expired ⟨timer, ue, .specificRetry⟩)
        (m', .publish (.specificProcedureRetry ue q.id q.awaited?) .finished)

theorem retryExpired_specific (timer : TimerId) :
    BeginsSpecific m (.expired ⟨timer, ue, .specificRetry⟩) (m.retryExpired ue timer) := by
  unfold retryExpired
  split
  · exact .spared ⟨rfl, rfl⟩
  · rename_i q hfound
    obtain ⟨hq, htimer⟩ := Option.filter_eq_some_iff.1 hfound
    obtain ⟨c, hc, _⟩ := m.context_of_specific? ue hq
    exact .takenUp hq (by simpa using htimer) (specific?_setSpecific m ue hc _)

theorem begin_specific (config : NasConfig) (msg : Message) :
    m.BeginsSpecific msg (m.begin config msg) := by
  cases msg with
  | start ue requested parent => exact .spared (m.start_sparesSpecific ue requested parent)
  | complete ue identity => exact .spared (m.complete_sparesSpecific ue identity)
  | expired e =>
      obtain ⟨timer, ue, kind⟩ := e
      cases kind with
      | t3470 => exact .spared (m.t3470Expired_sparesSpecific ue config timer)
      | specificRetry => exact m.retryExpired_specific ue timer
  | lowerLayerFailure ue => exact .spared (m.lowerLayerFailed_sparesSpecific ue)
  | nonDelivery ue => exact .spared (m.request_sparesSpecific ue .redelivery)
  | abort ue => exact .spared (m.abort_sparesSpecific ue)

variable {m} in
theorem BeginsSpecific.congr {m₁ m' : Mme} {msg : Message} {turn : Mme × Progress}
    (h : m₁.BeginsSpecific msg turn) (hbefore : m₁.specific? = m.specific?)
    (hafter : m'.specific? = turn.1.specific?) : m.BeginsSpecific msg (m', turn.2) := by
  cases h with
  | spared h => exact .spared ⟨hafter.trans (h.specific.trans hbefore), h.resumes⟩
  | takenUp hq htimer hspecific =>
      rw [hbefore] at hq hspecific
      exact .takenUp hq htimer (hafter.trans hspecific)

theorem fewer_stopTimers (ids : List TimerId) : m.timers.Fewer (m.stopTimers ids).timers := by
  rw [timers_stopTimers]
  exact ⟨rfl, List.filter_sublist⟩

theorem fewer_releaseIdentification : m.timers.Fewer (m.releaseIdentification ue).timers := by
  unfold releaseIdentification
  split
  · exact fewer_stopTimers (m.setIdentification ue none) _
  · exact .refl _

/-- A later turn parks the parent of an identification that has ended in a collision, unless it is
not there any more; or it deletes a procedure with its context's others, or leaves all alone. -/
inductive ResumesSpecific (config : NasConfig) (m : Mme) :
    Resumption → Delivery → Mme × Progress → Prop
  | spared {next : Resumption} {d : Delivery} {turn : Mme × Progress}
      (hnext : next.displacing? = none ∨ d ≠ .accepted) (h : m.SparesSpecific turn) :
      ResumesSpecific config m next d turn
  | deleted {next : Resumption} {d : Delivery} {turn : Mme × Progress} {ue : UeId}
      (hnext : next.displacing? = none)
      (hspecific : turn.1.specific? = Function.update m.specific? ue none)
      (hresumes : turn.2.resumes? = none) : ResumesSpecific config m next d turn
  | parked {claim : Claim} {holder : Holder} {q : Specific} {deadline : Instant}
      {turn : Mme × Progress} (hq : m.specific? claim.ue = some q)
      (hparent : claim.parent = some q.id)
      (hdeadline : m.timers.now.after? config.retryInterval = some deadline)
      (hspecific : turn.1.specific? = Function.update m.specific? claim.ue
        (some (q.park m.timers.nextId holder.ue deadline)))
      (hresumes : turn.2.resumes? = none)
      (htimers : (m.timers.start claim.ue .specificRetry config.retryInterval).Fewer
        turn.1.timers) : ResumesSpecific config m (.displaced claim holder) .accepted turn
  | unparked {claim : Claim} {holder : Holder} {turn : Mme × Progress}
      (hparent : ∀ q, m.specific? claim.ue = some q → claim.parent ≠ some q.id)
      (h : m.SparesSpecific turn) (htimers : m.timers.Fewer turn.1.timers) :
      ResumesSpecific config m (.displaced claim holder) .accepted turn

variable {m} in
theorem ResumesSpecific.congr {config : NasConfig} {m₁ m' : Mme} {next : Resumption} {d : Delivery}
    {turn : Mme × Progress} (h : m₁.ResumesSpecific config next d turn)
    (hbefore : m₁.specific? = m.specific?) (htimers : m₁.timers = m.timers)
    (hafter : m'.specific? = turn.1.specific?) (htimers' : m'.timers = turn.1.timers) :
    m.ResumesSpecific config next d (m', turn.2) := by
  cases h with
  | spared hnext h => exact .spared hnext ⟨hafter.trans (h.specific.trans hbefore), h.resumes⟩
  | deleted hnext hspecific hresumes =>
      rw [hbefore] at hspecific
      exact .deleted hnext (hafter.trans hspecific) hresumes
  | parked hq hparent hdeadline hspecific hresumes hstarted =>
      rw [hbefore] at hq
      rw [htimers] at hdeadline hstarted
      rw [hbefore, htimers] at hspecific
      exact .parked hq hparent hdeadline (hafter.trans hspecific) hresumes (by rwa [htimers'])
  | unparked hparent h hfewer =>
      rw [hbefore] at hparent
      rw [htimers] at hfewer
      exact .unparked hparent ⟨hafter.trans (h.specific.trans hbefore), h.resumes⟩
        (by rwa [htimers'])

/-- What parking comes to where the deadline can be expressed. -/
inductive Parks (m : Mme) (interval : Duration) (ue : UeId) (parent : Option ProcedureId)
    (old : UeId) : Mme × Option Crash → Prop
  | parked {q : Specific} {deadline : Instant} {m' : Mme} (hq : m.specific? ue = some q)
      (hparent : parent = some q.id) (hdeadline : m.timers.now.after? interval = some deadline)
      (hspecific : m'.specific? =
        Function.update m.specific? ue (some (q.park m.timers.nextId old deadline)))
      (htimers : (m.timers.start ue .specificRetry interval).Fewer m'.timers) :
      Parks m interval ue parent old (m', none)
  | unparked {m' : Mme} (hparent : ∀ q, m.specific? ue = some q → parent ≠ some q.id)
      (hspecific : m'.specific? = m.specific?) (htimers : m'.timers = m.timers) :
      Parks m interval ue parent old (m', none)

theorem parkParent_parks (interval : Duration) (parent : Option ProcedureId) (old : UeId)
    (hfits : (m.timers.now.after? interval).isSome) :
    m.Parks interval ue parent old (m.parkParent interval ue parent old) := by
  unfold parkParent
  split
  · exact .unparked (fun _ _ => nofun) rfl rfl
  · rename_i id
    rw [find_specific]
    split
    · rename_i hnone
      refine .unparked (fun q hq hid => ?_) rfl rfl
      cases hid
      simp [hq] at hnone
    · rename_i q hfound
      obtain ⟨hq, hid⟩ := Option.filter_eq_some_iff.1 hfound
      have hid : q.id = id := by simpa using hid
      obtain ⟨c, hc, _⟩ := m.context_of_specific? ue hq
      obtain ⟨deadline, hdeadline⟩ := Option.isSome_iff_exists.1 hfits
      have hstarted : ((m.stopTimers q.retryTimer.toList).startTimer ue .specificRetry
          interval).2.context? ue = some c := by
        rw [context?_startTimer, context?_stopTimers, hc]
      have hnow : ((m.stopTimers q.retryTimer.toList).startTimer ue .specificRetry
          interval).2.timers.now = m.timers.now := by
        simp [timers_startTimer, Timers.start]
      have hnext : (m.stopTimers q.retryTimer.toList).timers.nextId = m.timers.nextId :=
        (m.fewer_stopTimers _).nextId
      simp only [hnow, hdeadline]
      refine .parked hq (by rw [hid]) hdeadline ?_ ?_
      · refine (specific?_setSpecific _ ue hstarted _).trans ?_
        rw [fst_startTimer, hnext]
        congr 1
        exact m.specific?_stopTimers _
      · refine (m.fewer_stopTimers q.retryTimer.toList).start ?_ ue .specificRetry interval
        rw [timers_stopTimers]

theorem displace_parks (interval : Duration) (parent : Option ProcedureId) (holder : Holder)
    (hfits : (m.timers.now.after? interval).isSome) :
    m.Parks interval ue parent holder.ue (m.displace interval ue parent holder) := by
  cases holder with
  | context old =>
      have hspecific := m.specific?_modifyContext old (f := fun c =>
        { c with cause := some .illegalUe }) fun _ => rfl
      have hparks := parkParent_parks (m.modifyContext old fun c =>
        { c with cause := some .illegalUe }) ue interval parent old hfits
      change m.Parks interval ue parent old (parkParent _ interval ue parent old)
      generalize parkParent _ interval ue parent old = parking at hparks ⊢
      cases hparks with
      | parked hq hparent hdeadline hparked htimers =>
          rw [hspecific] at hq hparked
          exact .parked hq hparent hdeadline hparked htimers
      | unparked hparent hsame htimers =>
          rw [hspecific] at hparent hsame
          exact .unparked hparent hsame htimers
  | application old => exact m.parkParent_parks ue interval parent old hfits

theorem resume_specific (config : NasConfig) (n : Notification) (next : Resumption) (d : Delivery)
    (hfits : (m.timers.now.after? config.retryInterval).isSome) :
    m.ResumesSpecific config next d (m.resume config n next d) := by
  have aside : ∀ {next d turn}, next.displacing? = none → m.SparesSpecific turn →
      m.ResumesSpecific config next d turn := fun hnext h => .spared (.inl hnext) h
  have deleted : ∀ ue, ((m.noteRefusal n d).deleteProcedures ue).specific? =
      Function.update m.specific? ue none := by
    intro ue
    rw [specific?_deleteProcedures, specific?_noteRefusal]
  unfold resume
  split
  · exact aside rfl (.after (m.specific?_armT3470 _ _) (requestSucceeded_sparesSpecific _ _ _))
  · exact aside rfl (m.requestFailed_sparesSpecific _ _ _)
  · exact aside rfl ⟨rfl, rfl⟩
  · exact aside rfl ⟨rfl, rfl⟩
  · rename_i claim holder
    have hparks := m.displace_parks claim.ue config.retryInterval claim.parent holder hfits
    generalize m.displace config.retryInterval claim.ue claim.parent holder = parking at hparks ⊢
    cases hparks with
    | @parked q deadline m₁ hq hparent hdeadline hspecific htimers =>
        refine .parked hq hparent hdeadline ?_ rfl ?_
        · exact (m₁.specific?_releaseIdentification claim.ue).trans hspecific
        · exact htimers.trans (m₁.fewer_releaseIdentification claim.ue)
    | @unparked m₁ hparent hspecific htimers =>
        refine .unparked hparent (.after hspecific (conclude_sparesSpecific _ _ _ _)) ?_
        rw [← htimers]
        exact m₁.fewer_releaseIdentification claim.ue
  · exact .spared (.inr nofun) (m.giveUp_sparesSpecific _ _)
  · exact aside rfl ⟨m.specific?_noteRefusal n d, rfl⟩
  · exact aside rfl ⟨rfl, rfl⟩
  · exact aside rfl ⟨rfl, rfl⟩
  · exact aside rfl ⟨rfl, rfl⟩
  · exact aside rfl ⟨rfl, rfl⟩
  · rename_i ue
    obtain ⟨hspecific, hresumes⟩ :=
      followExhaustion_sparesSpecific ((m.noteRefusal n d).deleteProcedures ue) ue
    exact .deleted rfl (hspecific.trans (deleted ue)) hresumes
  · rename_i ue
    exact .deleted rfl (deleted ue) rfl
  · exact aside rfl ⟨m.specific?_noteRefusal n d, rfl⟩

end Mme

end Emm
