import Emm.Collision

/-!
The identification procedure on the network side (3GPP TS 24.301, 5.4.4), one message at a time.

Handling a message is a sequence of publications with changes of the shared state between them.
While a handler waits for its notification to be taken, anything else may happen to that state. So
handling is cut at its publications: `Mme.begin` runs up to the first one and says what is to be
done after it as a `Resumption`, a value that holds all that the handler remembers, and
`Mme.resume` runs from there to the next. Everything else is looked up afresh.
-/

namespace Emm

/-- Why an Identity Request is sent. -/
inductive RequestPurpose
  | start
  | retransmission
  /-- The request before it was lost in a handover. -/
  | redelivery
deriving DecidableEq

/-- How an Identity Response was taken. -/
inductive Completion
  /-- No identification was under way. -/
  | ignored
  | confirmed
  /-- The IMSI still belongs to `old`, which is torn down first. -/
  | deferred (old : UeId)
deriving DecidableEq

/-- How handling a message ended. -/
inductive Outcome
  | started (result : Except IdentificationError Unit)
  | completed (result : Except IdentificationError Completion)
  /-- The message is one that has no result. -/
  | handled
  | aborted (found : Bool)
  | crashed (crash : Mme.Crash)

/-- What a handler remembers of an identification while it settles who owns `imsi`. -/
structure Claim where
  ue : UeId
  imsi : Imsi
  parent : Option ProcedureId
  previousState : EmmState
deriving DecidableEq

/-- Where a handler goes on once its notification has been taken or refused. -/
inductive Resumption
  /-- The Identity Request has been handed over. -/
  | requested (ue : UeId) (purpose : RequestPurpose)
  /-- The start of the procedure has been announced. -/
  | announced
  /-- The teardown of the IMSI's present owner has been ordered. -/
  | displaced (claim : Claim) (holder : Holder)
  /-- The end of an identification whose IMSI could not be settled has been announced. -/
  | unresolved (error : IdentificationError)
  /-- The end of an identification that was answered with a TMSI has been announced. -/
  | violated (ue : UeId)
  | confirmed (completion : Completion)
  /-- The end after the last retransmission has been announced. -/
  | exhausted (ue : UeId)
  /-- The end after a failure of the lower layers has been announced. -/
  | failed (ue : UeId)
  /-- Nothing is left to be done. -/
  | finished
deriving DecidableEq

/-- Whether a notification was taken. -/
inductive Delivery
  | accepted
  | refused (error : BusError)
deriving DecidableEq

/-- Handling is over, or waits for a notification to be taken. -/
inductive Progress
  | done (outcome : Outcome)
  | publish (notification : Notification) (next : Resumption)

/-- How many notifications may still follow. -/
def Resumption.rank : Resumption → Nat
  | requested _ .start => 1
  | displaced .. => 1
  | exhausted _ => 1
  | _ => 0

/-- How many notifications may be published before handling is over. -/
def Progress.rank : Progress → Nat
  | done _ => 0
  | publish _ next => next.rank + 1

namespace Mme

/-! ### Identity Requests -/

def requestFailed (m : Mme) (ue : UeId) (purpose : RequestPurpose) (e : IdentificationError) :
    Mme × Progress :=
  match purpose with
  | .start => (m, .done (.started (.error e)))
  | .retransmission => (m.emit (.retransmissionFailed ue e), .done .handled)
  | .redelivery =>
      match e with
      | .procedureNotFound _ => (m.emit (.nonDeliveryWithoutProcedure ue), .done .handled)
      | e => (m.emit (.resendFailed ue e), .done .handled)

/-- The request carries the security parameters as they are before it is handed over. -/
def request (m : Mme) (ue : UeId) (purpose : RequestPurpose) : Mme × Progress :=
  match m.context? ue with
  | none => (m.emit (.requestWithoutContext ue)).requestFailed ue purpose (.contextNotFound ue)
  | some c =>
      match c.procedures.identification with
      | none => m.requestFailed ue purpose (.procedureNotFound ue)
      | some p =>
          (m, .publish (.sendIdentityRequest ue p.requested c.security.params)
            (.requested ue purpose))

/-- Starts T3470 afresh for the identification that is under way, if there still is one. -/
def armT3470 (m : Mme) (interval : Duration) (ue : UeId) : Mme :=
  match m.identification? ue with
  | some p =>
      let (timer, m) := (m.stopTimers p.t3470.toList).startTimer ue .t3470 interval
      (m.setIdentification ue (some { p with t3470 := some timer })).emit
        (.requestSent ue timer p.expiries)
  | none => m.emit (.releasedWhileSending ue)

def requestSucceeded (m : Mme) (ue : UeId) (purpose : RequestPurpose) : Mme × Progress :=
  match purpose with
  | .start => (m, .publish (.procedureStarted ue) .announced)
  | .retransmission => (m, .done .handled)
  | .redelivery => (m.emit (.requestResent ue), .done .handled)

/-! ### Start -/

/-- Enters the identification in the context: a pending one is taken over with the new request and
its count set back, else a new one begins. -/
def enterIdentification (m : Mme) (ue : UeId) (c : Context) (requested : IdentityType)
    (parent : Option ProcedureId) : Mme :=
  match c.procedures.identification with
  | some p =>
      (m.emit (.procedureReused ue p.id)).setIdentification ue
        (some { p with requested, parent, expiries := 0 })
  | none =>
      let (id, m) := m.takeProcedureId
      m.setIdentification ue (some { id, ue, requested, parent, previousState := c.state })

def start (m : Mme) (ue : UeId) (requested : IdentityType) (parent : Option ProcedureId) :
    Mme × Progress :=
  let fail (e : IdentificationError) := (m, Progress.done (.started (.error e)))
  if !requested.isRequestable then fail (.unsupportedIdentityType requested)
  else
    match m.context? ue with
    | none => fail (.contextNotFound ue)
    | some c =>
        if !c.state.admitsIdentification then fail (.invalidState ue c.state)
        else
          ((m.enterIdentification ue c requested parent).emit
            (.initiating ue requested)).request ue .start

/-! ### Completion -/

/-- Releases the identification and reports its success, or that it has to wait. -/
def conclude (m : Mme) (ue : UeId) (previousState : EmmState) (completion : Completion) :
    Mme × Progress :=
  (m.releaseIdentification ue,
    .publish (.procedureConfirmed ue
      { notify := completion = .confirmed, free := true, previousState }) (.confirmed completion))

/-- Releases the identification because the IMSI cannot be settled. -/
def giveUp (m : Mme) (claim : Claim) (e : IdentificationError) : Mme × Progress :=
  ((m.emit (.imsiUnresolved claim.ue claim.imsi e)).releaseIdentification claim.ue,
    .publish (.procedureAborted claim.ue
      { notify := false, free := true, previousState := claim.previousState } .resolutionFailed)
      (.unresolved e))

def settleImsi (m : Mme) (claim : Claim) : Mme × Progress :=
  match m.findHolder claim.ue claim.imsi with
  | (m, some holder) => (m, .publish holder.teardown (.displaced claim holder))
  | (m, none) =>
      match m.assign claim.ue claim.imsi with
      | .ok m => m.conclude claim.ue claim.previousState .confirmed
      | .error e => m.giveUp claim e

/-- Notes the equipment identity that a response carries. -/
def noteEquipment (identity : MobileIdentity) (c : Context) : Context :=
  match identity with
  | .imei i => { c with imei := some i }
  | .imeisv i => { c with imeisv := some i }
  | .imsi _ | .tmsi _ => c

def complete (m : Mme) (ue : UeId) (identity : MobileIdentity) : Mme × Progress :=
  let m := m.emit (.responseReceived ue identity)
  match m.identification? ue with
  | none => (m.emit (.responseWithoutProcedure ue), .done (.completed (.ok .ignored)))
  | some p =>
      let m := ((m.setIdentification ue (some { p with t3470 := none })).stopTimers
        p.t3470.toList).modifyContext ue (noteEquipment identity)
      match identity with
      | .imsi imsi => m.settleImsi ⟨ue, imsi, p.parent, p.previousState⟩
      | .imei _ | .imeisv _ => m.conclude ue p.previousState .confirmed
      | .tmsi _ =>
          ((m.emit (.responseCarriesTmsi ue)).releaseIdentification ue,
            .publish (.procedureAborted ue
              { notify := false, free := true, previousState := p.previousState }
              .protocolViolation) (.violated ue))

/-! ### Timer expiries -/

def t3470Expired (m : Mme) (config : NasConfig) (ue : UeId) (timer : TimerId) : Mme × Progress :=
  match m.context? ue with
  | none => (m.emit (.expiryWithoutContext ue timer), .done .handled)
  | some c =>
      match c.procedures.identification.filter fun p => p.t3470 = some timer with
      | none => (m.emit (.staleExpiry ue timer), .done .handled)
      | some p =>
          let expiries := p.expiries + 1
          let m := (m.setIdentification ue (some { p with t3470 := none, expiries })).emit
            (.t3470Expired ue timer expiries)
          if expiries < config.maxRetransmissions then m.request ue .retransmission
          else
            (m.emit (.limitReached ue expiries),
              .publish (.procedureAborted ue
                { notify := false, free := true, previousState := p.previousState }
                .retransmissionExceeded) (.exhausted ue))

/-- Tears the UE down after its identification has failed. Its context may have gone meanwhile;
then the application layer still has to let go of it. -/
def followExhaustion (m : Mme) (ue : UeId) : Mme × Progress :=
  if m.store.contains ue then
    (m.emit (.removingContext ue),
      .publish (.teardownSession ue .implicitlyDetached) .finished)
  else
    (m.emit (.contextGone ue), .publish (.applicationTeardown ue) .finished)

def retryExpired (m : Mme) (ue : UeId) (timer : TimerId) : Mme × Progress :=
  match (m.specific? ue).filter fun s => s.retryTimer = some timer with
  | none => (m.emit (.staleRetryExpiry ue timer), .done .handled)
  | some s =>
      let late := s.reconciliation.map fun r => m.timers.now.since r.deadline
      ((m.setSpecific ue (some { s with retryTimer := none, reconciliation := none })).emit
          (.retryExpired ue s.id late),
        .publish (.specificProcedureRetry ue s.id (s.reconciliation.map (·.old)))
          .finished)

def lowerLayerFailed (m : Mme) (ue : UeId) : Mme × Progress :=
  match m.identification? ue with
  | none => (m.emit (.failureWithoutProcedure ue), .done .handled)
  | some p =>
      (m.emit (.lowerLayerFailure ue),
        .publish (.procedureAborted ue
          { notify := false, free := true, previousState := p.previousState }
          .lowerLayerFailure) (.failed ue))

/-- Nothing is published: the owner gave the procedure up itself. -/
def abort (m : Mme) (ue : UeId) : Mme × Progress :=
  match m.identification? ue with
  | none => (m, .done (.aborted false))
  | some _ => ((m.releaseIdentification ue).emit (.procedureAborted ue), .done (.aborted true))

/-! ### Beginning and going on -/

/-- Handles a message up to its first notification. -/
def begin (m : Mme) (config : NasConfig) : Message → Mme × Progress
  | .start ue requested parent => m.start ue requested parent
  | .complete ue identity => m.complete ue identity
  | .expired ⟨timer, ue, .t3470⟩ => m.t3470Expired config ue timer
  | .expired ⟨timer, ue, .specificRetry⟩ => m.retryExpired ue timer
  | .lowerLayerFailure ue => m.lowerLayerFailed ue
  | .nonDelivery ue => m.request ue .redelivery
  | .abort ue => m.abort ue

/-- Where nobody waits for the result, a refused notification is logged and handling goes on. -/
def noteRefusal (m : Mme) (n : Notification) : Delivery → Mme
  | .accepted => m
  | .refused e => m.emit (.notSent n.ue n.primitive e)

/-- Goes on after `n` has been taken or refused, up to the next notification. -/
def resume (m : Mme) (config : NasConfig) (n : Notification) (next : Resumption) (d : Delivery) :
    Mme × Progress :=
  match next, d with
  | .requested ue purpose, .accepted =>
      (m.armT3470 config.t3470Interval ue).requestSucceeded ue purpose
  | .requested ue purpose, .refused e => m.requestFailed ue purpose (.dispatch e)
  | .announced, .accepted => (m, .done (.started (.ok ())))
  | .announced, .refused e => (m, .done (.started (.error (.dispatch e))))
  | .displaced claim holder, .accepted =>
      match m.displace config.retryInterval claim.ue claim.parent holder with
      | (m, none) => m.conclude claim.ue claim.previousState (.deferred holder.ue)
      | (m, some crash) => (m, .done (.crashed crash))
  | .displaced claim _, .refused e => m.giveUp claim (.dispatch e)
  | .unresolved e, d => (m.noteRefusal n d, .done (.completed (.error e)))
  | .violated ue, .accepted => (m, .done (.completed (.error (.protocolViolation ue))))
  | .violated _, .refused e => (m, .done (.completed (.error (.dispatch e))))
  | .confirmed completion, .accepted => (m, .done (.completed (.ok completion)))
  | .confirmed _, .refused e => (m, .done (.completed (.error (.dispatch e))))
  | .exhausted ue, d => ((m.noteRefusal n d).deleteProcedures ue).followExhaustion ue
  | .failed ue, d => ((m.noteRefusal n d).deleteProcedures ue, .done .handled)
  | .finished, d => (m.noteRefusal n d, .done .handled)

theorem requestFailed_rank (m : Mme) (ue : UeId) (purpose : RequestPurpose)
    (e : IdentificationError) : (m.requestFailed ue purpose e).2.rank = 0 := by
  unfold requestFailed
  split
  · rfl
  · rfl
  · split <;> rfl

theorem requestSucceeded_rank (m : Mme) (ue : UeId) (purpose : RequestPurpose) :
    (m.requestSucceeded ue purpose).2.rank ≤ (Resumption.requested ue purpose).rank := by
  cases purpose <;> simp [requestSucceeded, Progress.rank, Resumption.rank]

theorem followExhaustion_rank (m : Mme) (ue : UeId) : (m.followExhaustion ue).2.rank = 1 := by
  unfold followExhaustion
  split <;> rfl

/-- Every resumption is closer to the end than the one before it. -/
theorem resume_rank_le (m : Mme) (config : NasConfig) (n : Notification) (next : Resumption)
    (d : Delivery) : (m.resume config n next d).2.rank ≤ next.rank := by
  cases next with
  | requested ue purpose =>
      cases d with
      | accepted => exact requestSucceeded_rank _ _ _
      | refused e =>
          rw [resume, requestFailed_rank]
          exact Nat.zero_le _
  | displaced claim holder =>
      cases d with
      | accepted =>
          rw [resume]
          split
          · exact Nat.le_refl _
          · exact Nat.zero_le _
      | refused e => exact Nat.le_refl _
  | exhausted ue => exact Nat.le_of_eq (followExhaustion_rank _ _)
  | announced | violated ue | confirmed completion => cases d <;> exact Nat.zero_le _
  | unresolved e | failed ue | finished => exact Nat.zero_le _

/-- Carries handling on to its end over a bus that takes every notification at once. -/
def carryOut (config : NasConfig) (m : Mme) : Progress → Mme × List Notification × Outcome
  | .done outcome => (m, [], outcome)
  | .publish n next =>
      let m := m.emit (.exchanged .sent n.primitive n.ue)
      let r := m.resume config n next .accepted
      have : r.2.rank ≤ next.rank := m.resume_rank_le config n next .accepted
      let (m, published, outcome) := r.1.carryOut config r.2
      (m, n :: published, outcome)
termination_by p => p.rank
decreasing_by exact Nat.lt_succ_of_le this

/-- Handles a message over a bus that takes every notification at once: the state after it, what
was published, and how it ended. -/
def handle (m : Mme) (config : NasConfig) (msg : Message) : Mme × List Notification × Outcome :=
  let (m, p) := m.begin config msg
  m.carryOut config p

end Mme

end Emm
