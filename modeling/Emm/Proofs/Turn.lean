import Mathlib.Logic.Function.Basic
import Emm.Proofs.Lookup

/-!
What handling does to the records of identifications. A turn is a handler's run from one stop to the
next; it touches the record of one UE at most. Main statements: `begin_begun` and `resume_resumed`,
which say for every turn what becomes of that record and where the handler stops.
-/

namespace Emm

/-- The identification is the same one; its request, count and timer may have changed. -/
def Identification.Continues (q p : Identification) : Prop :=
  q.id = p.id ∧ q.previousState = p.previousState

namespace Notification

/-- The UE whose identification a terminal notification ends, and the state that it gives back. -/
def ending? : Notification → Option (UeId × EmmState)
  | procedureConfirmed ue ending => some (ue, ending.previousState)
  | procedureAborted ue ending _ => some (ue, ending.previousState)
  | _ => none

/-- The UE to which an Identity Request goes. -/
def requests? : Notification → Option UeId
  | sendIdentityRequest ue _ _ => some ue
  | _ => none

end Notification

namespace Resumption

/-- Nothing but the result of handling depends on the notification any more. -/
def IsLast : Resumption → Prop
  | announced | unresolved _ | violated _ | confirmed _ | finished => True
  | _ => False

/-- The end of an identification has been announced, and its record is still there. -/
inductive Fails (ue : UeId) : Resumption → Prop
  | exhausted : Fails ue (exhausted ue)
  | failed : Fails ue (failed ue)

end Resumption

/-- A handler's first turn: the records after it, and where the handler stops. -/
inductive Begun (m : Mme) (records : UeId → Option Identification) :
    Message → Progress → Prop
  | idle {msg : Message} {outcome : Outcome} (hsound : ∀ crash, outcome ≠ .crashed crash)
      (hrecords : records = m.identification?) : Begun m records msg (.done outcome)
  | notice {msg : Message} {n : Notification} (hending : n.ending? = none)
      (hrequest : n.requests? = none) (hrecords : records = m.identification?) :
      Begun m records msg (.publish n .finished)
  /-- A new record takes note of the UE's state. -/
  | entered {ue : UeId} {requested : IdentityType} {parent : Option ProcedureId} {c : Context}
      {q : Identification} {n : Notification} (hrequest : n.requests? = some ue)
      (hc : m.context? ue = some c) (hnone : m.identification? ue = none)
      (hq : q.previousState = c.state)
      (hrecords : records = Function.update m.identification? ue (some q)) :
      Begun m records (.start ue requested parent) (.publish n (.requested ue .start))
  | renewed {msg : Message} {ue : UeId} {purpose : RequestPurpose} {p q : Identification}
      {n : Notification} (hrequest : n.requests? = some ue) (hp : m.identification? ue = some p)
      (hq : q.Continues p)
      (hrecords : records = Function.update m.identification? ue (some q)) :
      Begun m records msg (.publish n (.requested ue purpose))
  | displacing {msg : Message} {claim : Claim} {holder : Holder} {p q : Identification}
      (hp : m.identification? claim.ue = some p) (hclaim : claim.previousState = p.previousState)
      (hq : q.Continues p)
      (hrecords : records = Function.update m.identification? claim.ue (some q)) :
      Begun m records msg (.publish holder.teardown (.displaced claim holder))
  | ended {msg : Message} {ue : UeId} {p : Identification} {n : Notification} {next : Resumption}
      (hp : m.identification? ue = some p) (hending : n.ending? = some (ue, p.previousState))
      (hlast : next.IsLast)
      (hrecords : records = Function.update m.identification? ue none) :
      Begun m records msg (.publish n next)
  | failing {msg : Message} {ue : UeId} {p q : Identification} {n : Notification}
      {next : Resumption} (hp : m.identification? ue = some p)
      (hending : n.ending? = some (ue, p.previousState)) (hfails : next.Fails ue)
      (hq : q.Continues p)
      (hrecords : records = Function.update m.identification? ue (some q)) :
      Begun m records msg (.publish n next)
  | aborted {ue : UeId} {outcome : Outcome} (hsound : ∀ crash, outcome ≠ .crashed crash)
      (hrecords : records = Function.update m.identification? ue none) :
      Begun m records (.abort ue) (.done outcome)

/-- A later turn, after a notification has been taken or refused. -/
inductive Resumed (config : NasConfig) (m : Mme) (records : UeId → Option Identification) :
    Resumption → Delivery → Progress → Prop
  | settled {next : Resumption} {d : Delivery} {outcome : Outcome} (hlast : next.IsLast)
      (hsound : ∀ crash, outcome ≠ .crashed crash)
      (hrecords : records = m.identification?) :
      Resumed config m records next d (.done outcome)
  /-- The UE may have lost its record while the request was handed over. -/
  | sent {ue : UeId} {purpose : RequestPurpose} {progress : Progress}
      (hprogress : progress = .publish (.procedureStarted ue) .announced ∨
        ∃ outcome, progress = .done outcome ∧ ∀ crash, outcome ≠ .crashed crash)
      (hrecords : records = Function.update m.identification? ue
        ((m.identification? ue).map fun p => { p with t3470 := some m.timers.nextId })) :
      Resumed config m records (.requested ue purpose) .accepted progress
  | unsent {ue : UeId} {purpose : RequestPurpose} {e : BusError} {outcome : Outcome}
      (hsound : ∀ crash, outcome ≠ .crashed crash)
      (hrecords : records = m.identification?) :
      Resumed config m records (.requested ue purpose) (.refused e) (.done outcome)
  | ended {claim : Claim} {holder : Holder} {d : Delivery} {n : Notification} {next : Resumption}
      (hending : n.ending? = some (claim.ue, claim.previousState)) (hlast : next.IsLast)
      (hrecords : records = Function.update m.identification? claim.ue none) :
      Resumed config m records (.displaced claim holder) d (.publish n next)
  | stuck {claim : Claim} {holder : Holder} {crash : Mme.Crash}
      (hdeadline : m.timers.now.after? config.retryInterval = none)
      (hrecords : records = m.identification?) :
      Resumed config m records (.displaced claim holder) .accepted (.done (.crashed crash))
  | exhausted {ue : UeId} {d : Delivery} {n : Notification} (hending : n.ending? = none)
      (hrequest : n.requests? = none)
      (hrecords : records = Function.update m.identification? ue none) :
      Resumed config m records (.exhausted ue) d (.publish n .finished)
  | failed {ue : UeId} {d : Delivery} {outcome : Outcome}
      (hsound : ∀ crash, outcome ≠ .crashed crash)
      (hrecords : records = Function.update m.identification? ue none) :
      Resumed config m records (.failed ue) d (.done outcome)

namespace Mme

variable (m : Mme) (ue : UeId)

theorem identification?_congr {m m' : Mme} (h : ∀ u, (m'.context? u).bind
    (·.procedures.identification) = (m.context? u).bind (·.procedures.identification)) :
    m'.identification? = m.identification? :=
  funext h

theorem identification?_modifyContext {f : Context → Context}
    (hf : ∀ c, (f c).procedures.identification = c.procedures.identification) :
    (m.modifyContext ue f).identification? = m.identification? := by
  refine identification?_congr fun u => ?_
  rw [context?_modifyContext]
  split
  · rw [Option.bind_map]
    exact congrArg _ (funext hf)
  · rfl

theorem identification?_setIdentification {c : Context} (hc : m.context? ue = some c)
    (p : Option Identification) :
    (m.setIdentification ue p).identification? = Function.update m.identification? ue p := by
  funext u
  by_cases hu : u = ue
  · subst hu
    simp [identification?, hc]
  · simp [identification?, hu]

@[simp]
theorem identification?_setSpecific (s : Option Specific) :
    (m.setSpecific ue s).identification? = m.identification? :=
  identification?_modifyContext m ue fun _ => rfl

@[simp]
theorem identification?_stopTimers (ids : List TimerId) :
    (m.stopTimers ids).identification? = m.identification? :=
  identification?_congr fun u => by rw [context?_stopTimers]

@[simp]
theorem identification?_claim (imsi : Imsi) :
    (m.claim imsi ue).identification? = m.identification? :=
  identification?_congr fun u => by rw [context?_claim]

theorem identification?_eq_none {c : Context} (h : m.context? ue = some c) :
    m.identification? ue = none ↔ c.procedures.identification = none := by
  simp [identification?, h]

@[simp]
theorem identification?_releaseIdentification :
    (m.releaseIdentification ue).identification? = Function.update m.identification? ue none := by
  unfold releaseIdentification
  split
  · rename_i p hp
    obtain ⟨c, hc, _⟩ := (identification?_eq_some_iff m ue p).1 hp
    rw [identification?_stopTimers, identification?_setIdentification m ue hc]
  · rename_i hnone
    rw [← hnone, Function.update_eq_self]

@[simp]
theorem identification?_deleteProcedures :
    (m.deleteProcedures ue).identification? = Function.update m.identification? ue none := by
  unfold deleteProcedures
  split
  · rename_i c hc
    rw [identification?_stopTimers]
    funext u
    by_cases hu : u = ue
    · subst hu
      simp [identification?, hc]
    · simp [identification?, hu]
  · rename_i hnone
    have hfree : m.identification? ue = none := by rw [identification?, hnone, Option.bind_none]
    rw [← hfree, Function.update_eq_self]

theorem identification?_armT3470 (interval : Duration) :
    (m.armT3470 interval ue).identification? = Function.update m.identification? ue
      ((m.identification? ue).map fun p => { p with t3470 := some m.timers.nextId }) := by
  unfold armT3470
  split
  · rename_i p hp
    obtain ⟨c, hc, _⟩ := (identification?_eq_some_iff m ue p).1 hp
    have hstarted : ((m.stopTimers p.t3470.toList).startTimer ue .t3470 interval).2.context? ue =
        some c := by
      rw [context?_startTimer, context?_stopTimers, hc]
    refine (identification?_setIdentification _ ue hstarted _).trans ?_
    have hsame : ((m.stopTimers p.t3470.toList).startTimer ue .t3470 interval).2.identification? =
        m.identification? := identification?_stopTimers m _
    rw [hsame, hp, timers_stopTimers]
    rfl
  · rename_i hnone
    rw [hnone, Option.map_none, ← hnone, Function.update_eq_self]
    rfl

@[simp]
theorem identification?_parkParent (interval : Duration) (parent : Option ProcedureId)
    (old : UeId) : (m.parkParent interval ue parent old).1.identification? = m.identification? := by
  unfold parkParent
  split
  · rfl
  · split
    · rfl
    · simp only
      split
      · exact (identification?_setSpecific _ ue _).trans (identification?_stopTimers m _)
      · exact (identification?_setSpecific _ ue _).trans (identification?_stopTimers m _)

@[simp]
theorem identification?_displace (interval : Duration) (parent : Option ProcedureId)
    (holder : Holder) :
    (m.displace interval ue parent holder).1.identification? = m.identification? := by
  cases holder with
  | context old =>
      exact (identification?_parkParent _ ue interval parent old).trans
        (identification?_modifyContext m old fun _ => rfl)
  | application old => exact identification?_parkParent m ue interval parent old

@[simp]
theorem identification?_findHolder (imsi : Imsi) :
    (m.findHolder ue imsi).1.identification? = m.identification? := by
  have happlication : ∀ m : Mme,
      (m.findApplicationHolder ue imsi).1.identification? = m.identification? := by
    intro m
    unfold findApplicationHolder
    split
    · rfl
    · rfl
  unfold findHolder
  split
  · split
    · rfl
    · exact happlication _
  · exact happlication m

@[simp]
theorem identification?_noteRefusal (n : Notification) (d : Delivery) :
    (m.noteRefusal n d).identification? = m.identification? := by
  cases d <;> rfl

/-- A handler crashes only on a retry that lies beyond what the clock can express. -/
theorem crash_of_parkParent {interval : Duration} {parent : Option ProcedureId} {old : UeId}
    {crash : Crash} (h : (m.parkParent interval ue parent old).2 = some crash) :
    m.timers.now.after? interval = none := by
  unfold parkParent at h
  split at h
  · cases h
  · split at h
    · cases h
    · simp only at h
      split at h
      · cases h
      · rename_i s _ _ hoverflow
        have hnow : ((m.stopTimers s.retryTimer.toList).startTimer ue .specificRetry
            interval).2.timers.now = m.timers.now := by
          rw [timers_startTimer, timers_stopTimers]
          rfl
        rwa [hnow] at hoverflow

theorem crash_of_displace {interval : Duration} {parent : Option ProcedureId} {holder : Holder}
    {crash : Crash} (h : (m.displace interval ue parent holder).2 = some crash) :
    m.timers.now.after? interval = none := by
  cases holder with
  | context old => exact crash_of_parkParent (m.modifyContext old _) ue h
  | application old => exact crash_of_parkParent m ue h

theorem requestFailed_idle (purpose : RequestPurpose) (e : IdentificationError) :
    ∃ outcome, (m.requestFailed ue purpose e).2 = .done outcome ∧
      (∀ crash, outcome ≠ .crashed crash) ∧
      (m.requestFailed ue purpose e).1.identification? = m.identification? := by
  unfold requestFailed
  split
  · exact ⟨_, rfl, nofun, rfl⟩
  · exact ⟨_, rfl, nofun, rfl⟩
  · split
    · exact ⟨_, rfl, nofun, rfl⟩
    · exact ⟨_, rfl, nofun, rfl⟩

theorem request_of_none (purpose : RequestPurpose) (h : m.identification? ue = none) :
    ∃ outcome, (m.request ue purpose).2 = .done outcome ∧
      (∀ crash, outcome ≠ .crashed crash) ∧
      (m.request ue purpose).1.identification? = m.identification? := by
  unfold request
  split
  · exact requestFailed_idle (m.emit _) ue purpose _
  · rename_i c hc
    rw [(identification?_eq_none m ue hc).1 h]
    exact requestFailed_idle m ue purpose _

theorem request_of_some (purpose : RequestPurpose) {p : Identification}
    (h : m.identification? ue = some p) :
    ∃ n : Notification, n.requests? = some ue ∧
      m.request ue purpose = (m, .publish n (.requested ue purpose)) := by
  obtain ⟨c, hc, hp⟩ := (identification?_eq_some_iff m ue p).1 h
  unfold request
  rw [hc]
  simp only [hp]
  exact ⟨_, rfl, rfl⟩

/-! ### First turns -/

theorem identification?_enterIdentification {c : Context} (hc : m.context? ue = some c)
    (requested : IdentityType) (parent : Option ProcedureId) :
    ∃ q, (m.enterIdentification ue c requested parent).identification? =
        Function.update m.identification? ue (some q) ∧
      ((∃ p, m.identification? ue = some p ∧ q.Continues p) ∨
        m.identification? ue = none ∧ q.previousState = c.state) := by
  unfold enterIdentification
  split
  · rename_i p hp
    have hident : m.identification? ue = some p :=
      (identification?_eq_some_iff m ue p).2 ⟨c, hc, hp⟩
    refine ⟨_, identification?_setIdentification (m.emit _) ue hc _, .inl ⟨p, hident, ?_⟩⟩
    exact ⟨rfl, rfl⟩
  · rename_i hnone
    refine ⟨_, identification?_setIdentification m.takeProcedureId.2 ue hc _, .inr ⟨?_, rfl⟩⟩
    exact (identification?_eq_none m ue hc).2 hnone

theorem start_begun (requested : IdentityType) (parent : Option ProcedureId) :
    Begun m (m.start ue requested parent).1.identification? (.start ue requested parent)
      (m.start ue requested parent).2 := by
  unfold start
  split
  · exact .idle nofun rfl
  · split
    · exact .idle nofun rfl
    · rename_i c hc
      split
      · exact .idle nofun rfl
      · obtain ⟨q, hrecords, hq⟩ :=
          identification?_enterIdentification m ue hc requested parent
        have hentered : ((m.enterIdentification ue c requested parent).emit
            (.initiating ue requested)).identification? ue = some q := by
          rw [identification?_emit, hrecords, Function.update_self]
        obtain ⟨n, hrequest, heq⟩ := request_of_some _ ue .start hentered
        rw [heq]
        rcases hq with ⟨p, hp, hcontinues⟩ | ⟨hnone, hstate⟩
        · exact .renewed hrequest hp hcontinues hrecords
        · exact .entered hrequest hc hnone hstate hrecords

theorem settleImsi_cases (claim : Claim) :
    (∃ holder, (m.settleImsi claim).2 = .publish holder.teardown (.displaced claim holder) ∧
        (m.settleImsi claim).1.identification? = m.identification?) ∨
      ∃ n next, (m.settleImsi claim).2 = .publish n next ∧
        n.ending? = some (claim.ue, claim.previousState) ∧ next.IsLast ∧
        (m.settleImsi claim).1.identification? =
          Function.update m.identification? claim.ue none := by
  have hfound := identification?_findHolder m claim.ue claim.imsi
  unfold settleImsi
  split
  · rename_i m₁ holder heq
    rw [heq] at hfound
    exact .inl ⟨holder, rfl, hfound⟩
  · rename_i m₁ heq
    rw [heq] at hfound
    refine .inr ?_
    split
    · rename_i m₂ hassign
      have hassigned : m₂.identification? = m₁.identification? := by
        unfold assign at hassign
        split at hassign
        · cases hassign
          rw [identification?_claim]
          exact identification?_modifyContext m₁ claim.ue fun _ => rfl
        · cases hassign
      refine ⟨_, _, rfl, rfl, trivial, ?_⟩
      rw [← hfound, ← hassigned]
      exact identification?_releaseIdentification m₂ claim.ue
    · refine ⟨_, _, rfl, rfl, trivial, ?_⟩
      rw [← hfound]
      exact identification?_releaseIdentification (m₁.emit _) claim.ue

theorem complete_begun (identity : MobileIdentity) :
    Begun m (m.complete ue identity).1.identification? (.complete ue identity)
      (m.complete ue identity).2 := by
  unfold complete
  simp only [identification?_emit]
  split
  · exact .idle nofun rfl
  · rename_i p hp
    obtain ⟨c, hc, _⟩ := (identification?_eq_some_iff m ue p).1 hp
    generalize htaken : Mme.modifyContext _ ue (noteEquipment identity) = m₁
    have hrecords : m₁.identification? =
        Function.update m.identification? ue (some { p with t3470 := none }) := by
      rw [← htaken, identification?_modifyContext _ ue fun c => by cases identity <;> rfl,
        identification?_stopTimers]
      exact identification?_setIdentification (m.emit _) ue hc _
    have hreleased : Function.update m₁.identification? ue none =
        Function.update m.identification? ue none := by
      rw [hrecords, Function.update_idem]
    cases identity with
    | imsi imsi =>
        obtain ⟨holder, hprogress, hsame⟩ | ⟨n, next, hprogress, hending, hlast, hended⟩ :=
          settleImsi_cases m₁ ⟨ue, imsi, p.parent, p.previousState⟩
        · rw [hprogress]
          exact .displacing (q := { p with t3470 := none }) hp rfl ⟨rfl, rfl⟩
            (hsame.trans hrecords)
        · rw [hprogress]
          exact .ended hp hending hlast (hended.trans hreleased)
    | imei imei =>
        refine .ended hp rfl trivial (Eq.trans ?_ hreleased)
        exact identification?_releaseIdentification m₁ ue
    | imeisv imeisv =>
        refine .ended hp rfl trivial (Eq.trans ?_ hreleased)
        exact identification?_releaseIdentification m₁ ue
    | tmsi tmsi =>
        refine .ended hp rfl trivial (Eq.trans ?_ hreleased)
        exact identification?_releaseIdentification (m₁.emit _) ue

theorem t3470Expired_cases (config : NasConfig) (timer : TimerId) :
    ((m.identification? ue).bind (·.t3470) ≠ some timer ∧
        (m.t3470Expired config ue timer).2 = .done .handled ∧
        (m.t3470Expired config ue timer).1.identification? = m.identification?) ∨
      ∃ p q, m.identification? ue = some p ∧ q.Continues p ∧ q.t3470 = none ∧
        (m.t3470Expired config ue timer).1.identification? =
          Function.update m.identification? ue (some q) ∧
        ((∃ n : Notification, n.requests? = some ue ∧
            (m.t3470Expired config ue timer).2 = .publish n (.requested ue .retransmission)) ∨
          ∃ n : Notification, n.ending? = some (ue, p.previousState) ∧
            (m.t3470Expired config ue timer).2 = .publish n (.exhausted ue)) := by
  unfold t3470Expired
  split
  · rename_i hnone
    exact .inl ⟨by simp [identification?, hnone], rfl, rfl⟩
  · rename_i c hc
    split
    · rename_i hstale
      refine .inl ⟨fun hhandle => ?_, rfl, rfl⟩
      have hrecord : c.procedures.identification.bind (·.t3470) = some timer := by
        simpa [identification?, hc] using hhandle
      obtain ⟨p, hp, htimer⟩ := Option.bind_eq_some_iff.1 hrecord
      simp [hp, htimer] at hstale
    · rename_i p hfound
      have hp : m.identification? ue = some p :=
        (identification?_eq_some_iff m ue p).2 ⟨c, hc, (Option.filter_eq_some_iff.1 hfound).1⟩
      simp only
      generalize hq : { p with t3470 := none, expiries := p.expiries + 1 } = q
      have hcontinues : q.Continues p ∧ q.t3470 = none := by
        rw [← hq]
        exact ⟨⟨rfl, rfl⟩, rfl⟩
      have hrecords := identification?_setIdentification m ue hc (some q)
      have htaken : ((m.setIdentification ue (some q)).emit
          (.t3470Expired ue timer (p.expiries + 1))).identification? ue = some q := by
        rw [identification?_emit, hrecords, Function.update_self]
      refine .inr ⟨p, q, hp, hcontinues.1, hcontinues.2, ?_⟩
      split
      · obtain ⟨n, hrequest, heq⟩ := request_of_some _ ue .retransmission htaken
        rw [heq]
        exact ⟨hrecords, .inl ⟨n, hrequest, rfl⟩⟩
      · exact ⟨hrecords, .inr ⟨_, rfl, rfl⟩⟩

theorem t3470Expired_begun (config : NasConfig) (timer : TimerId) :
    Begun m (m.t3470Expired config ue timer).1.identification? (.expired ⟨timer, ue, .t3470⟩)
      (m.t3470Expired config ue timer).2 := by
  obtain ⟨_, hprogress, hrecords⟩ | ⟨p, q, hp, hq, _, hrecords, hprogress⟩ :=
    t3470Expired_cases m ue config timer
  · rw [hprogress]
    exact .idle nofun hrecords
  · obtain ⟨n, hrequest, heq⟩ | ⟨n, hending, heq⟩ := hprogress
    · rw [heq]
      exact .renewed hrequest hp hq hrecords
    · rw [heq]
      exact .failing hp hending .exhausted hq hrecords

theorem retryExpired_begun (timer : TimerId) :
    Begun m (m.retryExpired ue timer).1.identification? (.expired ⟨timer, ue, .specificRetry⟩)
      (m.retryExpired ue timer).2 := by
  unfold retryExpired
  split
  · exact .idle nofun rfl
  · exact .notice rfl rfl (identification?_setSpecific m ue _)

theorem lowerLayerFailed_begun :
    Begun m (m.lowerLayerFailed ue).1.identification? (.lowerLayerFailure ue)
      (m.lowerLayerFailed ue).2 := by
  unfold lowerLayerFailed
  split
  · exact .idle nofun rfl
  · rename_i p hp
    refine .failing hp rfl .failed (q := p) ⟨rfl, rfl⟩ ?_
    rw [← hp, Function.update_eq_self]
    rfl

theorem nonDelivery_begun :
    Begun m (m.request ue .redelivery).1.identification? (.nonDelivery ue)
      (m.request ue .redelivery).2 := by
  cases h : m.identification? ue with
  | none =>
      obtain ⟨outcome, hdone, hsound, hrecords⟩ := request_of_none m ue .redelivery h
      rw [hdone]
      exact .idle hsound hrecords
  | some p =>
      obtain ⟨n, hrequest, heq⟩ := request_of_some m ue .redelivery h
      rw [heq]
      refine .renewed hrequest h (q := p) ⟨rfl, rfl⟩ ?_
      rw [← h, Function.update_eq_self]

theorem abort_begun : Begun m (m.abort ue).1.identification? (.abort ue) (m.abort ue).2 := by
  unfold abort
  split
  · exact .idle nofun rfl
  · exact .aborted nofun (identification?_releaseIdentification m ue)

theorem begin_begun (config : NasConfig) (msg : Message) :
    Begun m (m.begin config msg).1.identification? msg (m.begin config msg).2 := by
  cases msg with
  | start ue requested parent => exact start_begun m ue requested parent
  | complete ue identity => exact complete_begun m ue identity
  | expired e =>
      obtain ⟨timer, ue, kind⟩ := e
      cases kind with
      | t3470 => exact t3470Expired_begun m ue config timer
      | specificRetry => exact retryExpired_begun m ue timer
  | lowerLayerFailure ue => exact lowerLayerFailed_begun m ue
  | nonDelivery ue => exact nonDelivery_begun m ue
  | abort ue => exact abort_begun m ue

/-! ### Later turns -/

theorem sent_resumed (config : NasConfig) (interval : Duration) (purpose : RequestPurpose) :
    Resumed config m ((m.armT3470 interval ue).requestSucceeded ue purpose).1.identification?
      (.requested ue purpose) .accepted
      ((m.armT3470 interval ue).requestSucceeded ue purpose).2 := by
  have harmed := identification?_armT3470 m ue interval
  cases purpose with
  | start => exact .sent (.inl rfl) harmed
  | retransmission => exact .sent (.inr ⟨_, rfl, nofun⟩) harmed
  | redelivery => exact .sent (.inr ⟨_, rfl, nofun⟩) harmed

theorem displaced_resumed (config : NasConfig) (claim : Claim) (holder : Holder) (d : Delivery)
    (n : Notification) :
    Resumed config m (m.resume config n (.displaced claim holder) d).1.identification?
      (.displaced claim holder) d (m.resume config n (.displaced claim holder) d).2 := by
  cases d with
  | accepted =>
      have hparked := identification?_displace m claim.ue config.retryInterval claim.parent holder
      simp only [resume]
      split
      · rename_i m₁ heq
        rw [heq] at hparked
        refine .ended rfl trivial ?_
        rw [← hparked]
        exact identification?_releaseIdentification m₁ claim.ue
      · rename_i m₁ crash heq
        rw [heq] at hparked
        exact .stuck (crash_of_displace m claim.ue (by rw [heq])) hparked
  | refused e =>
      refine .ended rfl trivial ?_
      exact identification?_releaseIdentification (m.emit _) claim.ue

theorem exhausted_resumed (config : NasConfig) (n : Notification) (d : Delivery) :
    Resumed config m (m.resume config n (.exhausted ue) d).1.identification? (.exhausted ue)
      d (m.resume config n (.exhausted ue) d).2 := by
  have hdeleted : ((m.noteRefusal n d).deleteProcedures ue).identification? =
      Function.update m.identification? ue none := by
    rw [identification?_deleteProcedures, identification?_noteRefusal]
  simp only [resume, followExhaustion]
  split
  · exact .exhausted rfl rfl hdeleted
  · exact .exhausted rfl rfl hdeleted

theorem resume_resumed (config : NasConfig) (n : Notification) (next : Resumption)
    (d : Delivery) :
    Resumed config m (m.resume config n next d).1.identification? next d
      (m.resume config n next d).2 := by
  cases next with
  | requested ue purpose =>
      cases d with
      | accepted => exact sent_resumed m ue config config.t3470Interval purpose
      | refused e =>
          obtain ⟨outcome, hdone, hsound, hrecords⟩ :=
            requestFailed_idle m ue purpose (.dispatch e)
          have hprogress : (m.resume config n (.requested ue purpose) (.refused e)).2 =
              .done outcome := hdone
          rw [hprogress]
          exact .unsent hsound hrecords
  | announced => cases d <;> exact .settled trivial nofun rfl
  | displaced claim holder => exact displaced_resumed m config claim holder d n
  | unresolved e => exact .settled trivial nofun (identification?_noteRefusal m n d)
  | violated ue => cases d <;> exact .settled trivial nofun rfl
  | confirmed completion => cases d <;> exact .settled trivial nofun rfl
  | exhausted ue => exact exhausted_resumed m ue config n d
  | failed ue =>
      refine .failed nofun ((identification?_deleteProcedures (m.noteRefusal n d) ue).trans ?_)
      rw [identification?_noteRefusal]
  | finished => exact .settled trivial nofun (identification?_noteRefusal m n d)

end Mme

end Emm
