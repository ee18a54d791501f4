import Emm.MobileIdentity

/-!
The EMM state of a UE, the causes on record for a detach, and its security context.
-/

namespace Emm

/-- The state of a UE on the network side (3GPP TS 24.301, 5.1.3.4). -/
inductive EmmState
  | invalid
  | deregistered
  | registered
  | deregisteredInitiated
  | commonProcedureInitiated
deriving DecidableEq, Inhabited

namespace EmmState

/-- A common procedure under way is no obstacle: a pending identification restarts in place. -/
def admitsIdentification : EmmState → Bool
  | deregistered | registered | commonProcedureInitiated => true
  | invalid | deregisteredInitiated => false

def text : EmmState → String
  | invalid => "EMM-INVALID"
  | deregistered => "EMM-DEREGISTERED"
  | registered => "EMM-REGISTERED"
  | deregisteredInitiated => "EMM-DEREGISTERED-INITIATED"
  | commonProcedureInitiated => "EMM-COMMON-PROCEDURE-INITIATED"

end EmmState

/-- The causes in use (3GPP TS 24.301, 9.9.3.9). -/
inductive EmmCause
  | imsiUnknownInHss
  | illegalUe
  | illegalMe
  | implicitlyDetached
  | protocolErrorUnspecified
deriving DecidableEq

namespace EmmCause

def code : EmmCause → UInt8
  | imsiUnknownInHss => 2
  | illegalUe => 3
  | illegalMe => 6
  | implicitlyDetached => 10
  | protocolErrorUnspecified => 111

def ofCode (c : UInt8) : Except UnknownCode EmmCause :=
  match [imsiUnknownInHss, illegalUe, illegalMe, implicitlyDetached,
      protocolErrorUnspecified].find? fun e => e.code = c with
  | some e => .ok e
  | none => .error ⟨"EmmCause", c⟩

def name : EmmCause → String
  | imsiUnknownInHss => "IMSI unknown in HSS"
  | illegalUe => "illegal UE"
  | illegalMe => "illegal ME"
  | implicitlyDetached => "implicitly detached"
  | protocolErrorUnspecified => "protocol error, unspecified"

def text (c : EmmCause) : String := "#" ++ toString c.code.toNat ++ " (" ++ c.name ++ ")"

end EmmCause

/-- What is needed to protect one downlink message. -/
structure SecurityParams where
  keySet : UInt8
  downlinkCount : UInt32
  encryption : UInt8
  integrity : UInt8
  isProtected : Bool
deriving DecidableEq

/-- The EPS security context of a UE; key set 7 means that there is no key. -/
structure SecurityContext where
  keySet : UInt8 := 7
  uplinkCount : UInt32 := 0
  downlinkCount : UInt32 := 0
  encryption : UInt8 := 0
  integrity : UInt8 := 0
  activated : Bool := false
deriving DecidableEq

def SecurityContext.params (s : SecurityContext) : SecurityParams where
  keySet := s.keySet
  downlinkCount := s.downlinkCount
  encryption := s.encryption
  integrity := s.integrity
  isProtected := s.activated

end Emm
