import Emm.Procedure

/-!
What the EMM layer is told, and what it tells its owner. Both have a primitive name, under which
logs and scripts speak of them.
-/

namespace Emm

inductive Message
  /-- Start identification, or start it anew. -/
  | start (ue : UeId) (requested : IdentityType) (parent : Option ProcedureId)
  /-- The UE has answered an Identity Request. -/
  | complete (ue : UeId) (identity : MobileIdentity)
  | expired (expiry : Expiry)
  | lowerLayerFailure (ue : UeId)
  /-- A handover kept the Identity Request from the UE. -/
  | nonDelivery (ue : UeId)
  /-- The owner gives the identification up. -/
  | abort (ue : UeId)
deriving DecidableEq

namespace Message

def ue : Message → UeId
  | start ue _ _ => ue
  | complete ue _ => ue
  | expired e => e.ue
  | lowerLayerFailure ue => ue
  | nonDelivery ue => ue
  | abort ue => ue

def primitive : Message → String
  | start .. => "EMMREG_IDENT_START"
  | complete .. => "EMMAS_IDENTITY_RESPONSE"
  | expired _ => "EMM_TIMER_EXPIRY"
  | lowerLayerFailure _ => "EMMREG_LOWERLAYER_FAILURE"
  | nonDelivery _ => "EMMREG_LOWERLAYER_NON_DELIVERY"
  | abort _ => "EMMREG_PROC_ABORT"

end Message

inductive AbortCause
  | retransmissionExceeded
  | lowerLayerFailure
  | protocolViolation
  | resolutionFailed
deriving DecidableEq

def AbortCause.text : AbortCause → String
  | retransmissionExceeded => "retransmission-exceeded"
  | lowerLayerFailure => "lower-layer-failure"
  | protocolViolation => "protocol-violation"
  | resolutionFailed => "resolution-failed"

/-- How a common procedure ended: whether the owner may go on with its own procedure, whether the
record is released, and the state of the UE when the procedure began. -/
structure Ending where
  notify : Bool
  free : Bool
  previousState : EmmState
deriving DecidableEq

inductive Notification
  | procedureStarted (ue : UeId)
  | procedureConfirmed (ue : UeId) (ending : Ending)
  | procedureAborted (ue : UeId) (ending : Ending) (cause : AbortCause)
  | sendIdentityRequest (ue : UeId) (requested : IdentityType) (security : SecurityParams)
  /-- Detach the UE without telling it. -/
  | teardownSession (ue : UeId) (cause : EmmCause)
  /-- Release what the application layer keeps under the UE. -/
  | applicationTeardown (ue : UeId)
  /-- A specific procedure that waited for the context `old` to go may resume. -/
  | specificProcedureRetry (ue : UeId) (procedure : ProcedureId) (old : Option UeId)
deriving DecidableEq

namespace Notification

def ue : Notification → UeId
  | procedureStarted ue => ue
  | procedureConfirmed ue _ => ue
  | procedureAborted ue _ _ => ue
  | sendIdentityRequest ue _ _ => ue
  | teardownSession ue _ => ue
  | applicationTeardown ue => ue
  | specificProcedureRetry ue _ _ => ue

def primitive : Notification → String
  | procedureStarted _ => "EMMREG_COMMON_PROC_REQ"
  | procedureConfirmed .. => "EMMREG_COMMON_PROC_CNF"
  | procedureAborted .. => "EMMREG_COMMON_PROC_ABORT"
  | sendIdentityRequest .. => "EMMAS_SECURITY_REQ"
  | teardownSession .. => "EMMCN_IMPLICIT_DETACH_UE"
  | applicationTeardown _ => "ESM_DETACH_IND"
  | specificProcedureRetry .. => "EMMREG_SPECIFIC_PROC_RETRY"

/-- Does the notification end a common procedure? -/
def isTerminal : Notification → Bool
  | procedureConfirmed .. | procedureAborted .. => true
  | _ => false

end Notification

end Emm
