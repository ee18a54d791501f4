import Emm.Message

/-!
What can go wrong in an identification and around the tasks that carry it out.
-/

namespace Emm

/-- The one reason why a notification is not taken: nobody is left to receive it. -/
inductive BusError
  | closed
deriving DecidableEq

def BusError.message : BusError → String
  | closed => "notification channel closed"

inductive IdentificationError
  | contextNotFound (ue : UeId)
  | procedureNotFound (ue : UeId)
  | invalidState (ue : UeId) (state : EmmState)
  | unsupportedIdentityType (requested : IdentityType)
  | dispatch (error : BusError)
  /-- The UE answered with a TMSI. -/
  | protocolViolation (ue : UeId)
deriving DecidableEq

def IdentificationError.message : IdentificationError → String
  | contextNotFound ue => "no EMM context for ue_id " ++ ue.text
  | procedureNotFound ue => "no identification procedure for ue_id " ++ ue.text
  | invalidState ue state =>
      "ue_id " ++ ue.text ++ " cannot be identified in state " ++ state.text
  | unsupportedIdentityType t => "identity type " ++ t.text ++ " cannot be requested"
  | dispatch e => "failed to dispatch EMM primitive: " ++ e.message
  | protocolViolation ue => "ue_id " ++ ue.text ++ " answered the Identity Request with a TMSI"

inductive TaskError
  | channelClosed (task : String)
  | failed (task reason : String)
deriving DecidableEq

def TaskError.message : TaskError → String
  | channelClosed task => "task " ++ task ++ " channel closed"
  | failed task reason => "task " ++ task ++ " failed: " ++ reason

end Emm
