import Emm.Failure
import Emm.Log.Level

/-!
The events that the service logs. Code that logs names an event; how the event reads is said here
and nowhere else.
-/

namespace Emm.Log

/-- Whether a primitive reaches the EMM layer or leaves it. -/
inductive Direction
  | received
  | sent
deriving DecidableEq

def Direction.text : Direction → String
  | received => "RX"
  | sent => "TX"

inductive Event
  -- stores
  | ownerMoved (ue previous : UeId)
  | contextStored (ue : UeId)
  | contextRemoved (ue : UeId)
  -- timers
  | timerStarted (timer : TimerId) (ue : UeId) (kind : TimerKind) (interval : Duration)
  | timerStopped (timer : TimerId)
  | expiryDropped (expiry : Expiry)
  -- primitives
  | exchanged (direction : Direction) (primitive : String) (ue : UeId)
  -- identification
  | procedureReused (ue : UeId) (procedure : ProcedureId)
  | initiating (ue : UeId) (requested : IdentityType)
  | requestWithoutContext (ue : UeId)
  | requestSent (ue : UeId) (timer : TimerId) (expiries : UInt32)
  | releasedWhileSending (ue : UeId)
  | responseReceived (ue : UeId) (identity : MobileIdentity)
  | responseWithoutProcedure (ue : UeId)
  | imsiUnresolved (ue : UeId) (imsi : Imsi) (error : IdentificationError)
  | responseCarriesTmsi (ue : UeId)
  | expiryWithoutContext (ue : UeId) (timer : TimerId)
  | staleExpiry (ue : UeId) (timer : TimerId)
  | t3470Expired (ue : UeId) (timer : TimerId) (expiries : UInt32)
  | retransmissionFailed (ue : UeId) (error : IdentificationError)
  | limitReached (ue : UeId) (expiries : UInt32)
  | removingContext (ue : UeId)
  | contextGone (ue : UeId)
  | staleRetryExpiry (ue : UeId) (timer : TimerId)
  | retryExpired (ue : UeId) (procedure : ProcedureId) (late : Option Duration)
  | failureWithoutProcedure (ue : UeId)
  | lowerLayerFailure (ue : UeId)
  | requestResent (ue : UeId)
  | nonDeliveryWithoutProcedure (ue : UeId)
  | resendFailed (ue : UeId) (error : IdentificationError)
  | procedureAborted (ue : UeId)
  | notSent (ue : UeId) (primitive : String) (error : BusError)
  -- collisions
  | imsiHeldByContext (ue old : UeId) (imsi : Imsi)
  | indexStale (old : UeId) (imsi : Imsi)
  | imsiHeldByApplication (ue old : UeId) (imsi : Imsi)
  | noParent (ue : UeId)
  | parentParked (ue : UeId) (procedure : ProcedureId) (timer : TimerId) (old : UeId)
      (interval : Duration)
  | parentNotFound (ue : UeId) (procedure : ProcedureId)
  -- EMM task
  | emmStarted
  | startFailed (ue : UeId) (error : IdentificationError)
  | responseIgnored (ue : UeId)
  | identityDeferred (ue old : UeId)
  | identificationFailed (ue : UeId) (error : IdentificationError)
  | abortWithoutProcedure (ue : UeId)
  | emmChannelClosed
  | emmStopped (handled : Nat)
  -- application task
  | appStarted
  | requestHandedOver (ue : UeId) (requested : IdentityType) (keySet : UInt8)
  | procedurePending (ue : UeId)
  | commonProcedureAborted (ue : UeId) (cause : AbortCause)
  | implicitDetach (ue : UeId) (cause : EmmCause)
  | contextAlreadyRemoved (ue : UeId)
  | applicationReleased (ue : UeId)
  | oldContextPresent (ue old : UeId)
  | mayResume (ue : UeId) (procedure : ProcedureId)
  | appStopped (requests : Nat)
  -- service
  | serviceStarted (t3470Seconds : UInt64) (maxRetransmissions : UInt32)
  | shuttingDown
  | exited
deriving DecidableEq

/-- An event as it is written: its level, the part of the program that it comes from, its message,
and further values by name. -/
structure Entry where
  level : Level
  target : String
  message : String
  fields : List (String × String) := []

private def latenessText : Option Duration → String
  | none => "None"
  | some d => "Some(" ++ d.text ++ ")"

private def ofStore (level : Level) (message : String) (fields : List (String × String)) : Entry :=
  ⟨level, "nextgsim_mme::context", message, fields⟩

private def ofTimers (level : Level) (message : String) (fields : List (String × String)) :
    Entry :=
  ⟨level, "nextgsim_mme::timer", message, fields⟩

private def ofIdentification (level : Level) (message : String)
    (fields : List (String × String)) : Entry :=
  ⟨level, "nextgsim_mme::nas::emm::identification", message, fields⟩

private def ofCollision (level : Level) (message : String) (fields : List (String × String)) :
    Entry :=
  ⟨level, "nextgsim_mme::nas::emm::collision", message, fields⟩

private def ofEmmTask (level : Level) (message : String) (fields : List (String × String)) :
    Entry :=
  ⟨level, "nextgsim_mme::nas::emm::task", message, fields⟩

private def ofAppTask (level : Level) (message : String) (fields : List (String × String)) :
    Entry :=
  ⟨level, "nextgsim_mme::app", message, fields⟩

private def ofService (message : String) (fields : List (String × String)) : Entry :=
  ⟨.info, "nr_mme", message, fields⟩

namespace Event

def entry : Event → Entry
  | ownerMoved ue previous =>
      ofStore .debug "IMSI index entry moved" [("ue_id", ue.text), ("previous", previous.text)]
  | contextStored ue => ofStore .debug "EMM context stored" [("ue_id", ue.text)]
  | contextRemoved ue => ofStore .debug "EMM context removed" [("ue_id", ue.text)]
  | timerStarted timer ue kind interval =>
      ofTimers .trace (kind.text ++ " started")
        [("timer_id", timer.text), ("ue_id", ue.text), ("interval", interval.text)]
  | timerStopped timer => ofTimers .trace "timer stopped" [("timer_id", timer.text)]
  | expiryDropped e =>
      ofTimers .debug ("EMM task gone, dropping " ++ e.kind.text ++ " expiry")
        [("timer_id", e.timer.text), ("ue_id", e.ue.text)]
  | exchanged direction primitive ue =>
      ⟨.debug, "nextgsim_common::logging", direction.text ++ " EMM-SAP " ++ primitive,
        [("direction", direction.text), ("primitive", primitive), ("ue_id", ue.text)]⟩
  | procedureReused ue procedure =>
      ofIdentification .debug "reusing identification procedure"
        [("ue_id", ue.text), ("procedure", procedure.text)]
  | initiating ue requested =>
      ofIdentification .info "initiating identification procedure"
        [("ue_id", ue.text), ("identity_type", requested.text)]
  | requestWithoutContext ue =>
      ofIdentification .error "no EMM context, Identity Request not sent" [("ue_id", ue.text)]
  | requestSent ue timer expiries =>
      ofIdentification .debug "Identity Request sent, T3470 started"
        [("ue_id", ue.text), ("timer_id", timer.text), ("count", toString expiries.toNat)]
  | releasedWhileSending ue =>
      ofIdentification .debug "identification released while sending, T3470 not started"
        [("ue_id", ue.text)]
  | responseReceived ue identity =>
      ofIdentification .info "identification complete"
        [("ue_id", ue.text), ("identity", identity.text)]
  | responseWithoutProcedure ue =>
      ofIdentification .debug "no identification pending, ignoring Identity Response"
        [("ue_id", ue.text)]
  | imsiUnresolved ue imsi error =>
      ofIdentification .error
        ("IMSI not resolved, aborting identification: " ++ error.message)
        [("ue_id", ue.text), ("imsi", imsi.text)]
  | responseCarriesTmsi ue =>
      ofIdentification .error "Identity Response carries a TMSI, aborting identification"
        [("ue_id", ue.text)]
  | expiryWithoutContext ue timer =>
      ofIdentification .warn "T3470 expired, no EMM context"
        [("ue_id", ue.text), ("timer_id", timer.text)]
  | staleExpiry ue timer =>
      ofIdentification .debug "stale T3470 expiry ignored"
        [("ue_id", ue.text), ("timer_id", timer.text)]
  | t3470Expired ue timer expiries =>
      ofIdentification .warn "T3470 expired"
        [("ue_id", ue.text), ("timer_id", timer.text), ("count", toString expiries.toNat)]
  | retransmissionFailed ue error =>
      ofIdentification .error ("Identity Request retransmission failed: " ++ error.message)
        [("ue_id", ue.text)]
  | limitReached ue expiries =>
      ofIdentification .warn "T3470 retransmission limit reached, aborting identification"
        [("ue_id", ue.text), ("count", toString expiries.toNat)]
  | removingContext ue =>
      ofIdentification .warn "removing EMM context after failed identification"
        [("ue_id", ue.text)]
  | contextGone ue =>
      ofIdentification .warn "EMM context already gone, releasing MME_APP context"
        [("ue_id", ue.text)]
  | staleRetryExpiry ue timer =>
      ofIdentification .debug "stale retry timer expiry ignored"
        [("ue_id", ue.text), ("timer_id", timer.text)]
  | retryExpired ue procedure late =>
      ofIdentification .info "specific procedure retry timer expired"
        [("ue_id", ue.text), ("procedure", procedure.text), ("late", latenessText late)]
  | failureWithoutProcedure ue =>
      ofIdentification .debug "lower layer failure without identification procedure"
        [("ue_id", ue.text)]
  | lowerLayerFailure ue =>
      ofIdentification .warn "lower layer failure, aborting identification" [("ue_id", ue.text)]
  | requestResent ue =>
      ofIdentification .info "Identity Request resent after handover non-delivery"
        [("ue_id", ue.text)]
  | nonDeliveryWithoutProcedure ue =>
      ofIdentification .debug "non-delivery without identification procedure"
        [("ue_id", ue.text)]
  | resendFailed ue error =>
      ofIdentification .error ("Identity Request resend failed: " ++ error.message)
        [("ue_id", ue.text)]
  | procedureAborted ue =>
      ofIdentification .info "identification procedure aborted" [("ue_id", ue.text)]
  | notSent ue primitive error =>
      ofIdentification .error ("failed to send " ++ primitive ++ ": " ++ error.message)
        [("ue_id", ue.text)]
  | imsiHeldByContext ue old imsi =>
      ofCollision .info "IMSI already owned by another EMM context, implicitly detaching it"
        [("ue_id", ue.text), ("old_ue_id", old.text), ("imsi", imsi.text)]
  | indexStale old imsi =>
      ofCollision .debug "IMSI index points at a removed context"
        [("old_ue_id", old.text), ("imsi", imsi.text)]
  | imsiHeldByApplication ue old imsi =>
      ofCollision .error "IMSI already owned by another MME_APP context, removing it"
        [("ue_id", ue.text), ("old_ue_id", old.text), ("imsi", imsi.text)]
  | noParent ue =>
      ofCollision .warn "identification has no parent procedure, nothing to retry"
        [("ue_id", ue.text)]
  | parentParked ue procedure timer old interval =>
      ofCollision .debug "specific procedure retry timer restarted"
        [("ue_id", ue.text), ("procedure", procedure.text), ("timer_id", timer.text),
          ("old_ue_id", old.text), ("retry_in", interval.text)]
  | parentNotFound ue procedure =>
      ofCollision .warn "parent procedure not found"
        [("ue_id", ue.text), ("procedure", procedure.text)]
  | emmStarted => ofEmmTask .info "EMM task started" []
  | startFailed ue error =>
      ofEmmTask .error ("failed to start identification: " ++ error.message)
        [("ue_id", ue.text)]
  | responseIgnored ue => ofEmmTask .debug "Identity Response ignored" [("ue_id", ue.text)]
  | identityDeferred ue old =>
      ofEmmTask .info "identity deferred until old context is removed"
        [("ue_id", ue.text), ("old_ue_id", old.text)]
  | identificationFailed ue error =>
      ofEmmTask .error ("identification failed: " ++ error.message) [("ue_id", ue.text)]
  | abortWithoutProcedure ue =>
      ofEmmTask .debug "abort without identification procedure" [("ue_id", ue.text)]
  | emmChannelClosed => ofEmmTask .warn "EMM task channel closed" []
  | emmStopped handled =>
      ofEmmTask .info ("EMM task stopped, " ++ toString handled ++ " messages handled") []
  | appStarted => ofAppTask .info "MME_APP task started" []
  | requestHandedOver ue requested keySet =>
      ofAppTask .debug "Identity Request handed to NAS transport"
        [("ue_id", ue.text), ("identity_type", requested.text), ("ksi", toString keySet.toNat)]
  | procedurePending ue => ofAppTask .debug "common procedure pending" [("ue_id", ue.text)]
  | commonProcedureAborted ue cause =>
      ofAppTask .info "common procedure aborted" [("ue_id", ue.text), ("cause", cause.text)]
  | implicitDetach ue cause =>
      ofAppTask .info "implicit detach" [("ue_id", ue.text), ("cause", cause.text)]
  | contextAlreadyRemoved ue =>
      ofAppTask .debug "EMM context already removed" [("ue_id", ue.text)]
  | applicationReleased ue => ofAppTask .info "MME_APP context released" [("ue_id", ue.text)]
  | oldContextPresent ue old =>
      ofAppTask .warn "old context still present at retry"
        [("ue_id", ue.text), ("old_ue_id", old.text)]
  | mayResume ue procedure =>
      ofAppTask .info "specific procedure may resume"
        [("ue_id", ue.text), ("procedure", procedure.text)]
  | appStopped requests =>
      ofAppTask .info ("MME_APP task stopped, " ++ toString requests ++ " Identity Requests sent")
        []
  | serviceStarted t3470Seconds maxRetransmissions =>
      ofService "MME started, press Ctrl-C to stop"
        [("t3470_secs", toString t3470Seconds.toNat),
          ("max_retransmissions", toString maxRetransmissions.toNat)]
  | shuttingDown => ofService "shutting down" []
  | exited => ofService "MME exited successfully" []

end Event

end Emm.Log
