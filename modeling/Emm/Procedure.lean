import Emm.State
import Emm.Timer

/-!
The procedures that run for a UE: at most one specific procedure (attach or tracking area update)
and at most one identification, which names its parent by identifier only.
-/

namespace Emm

structure ProcedureId where
  val : UInt64
deriving DecidableEq

namespace ProcedureId

def next (i : ProcedureId) : ProcedureId := ⟨i.val + 1⟩

def text (i : ProcedureId) : String := "proc-" ++ toString i.val.toNat

end ProcedureId

/-- An identification under way (3GPP TS 24.301, 5.4.4). -/
structure Identification where
  id : ProcedureId
  ue : UeId
  requested : IdentityType
  /-- How often T3470 has expired since the last start. -/
  expiries : UInt32 := 0
  t3470 : Option TimerId := none
  parent : Option ProcedureId
  /-- The state of the UE when the procedure began. -/
  previousState : EmmState
deriving DecidableEq

/-- A response is awaited exactly while the request's timer is on record. -/
def Identification.awaitsResponse (p : Identification) : Bool := p.t3470.isSome

inductive SpecificKind
  | attach
  | trackingAreaUpdate
deriving DecidableEq

def SpecificKind.text : SpecificKind → String
  | attach => "ATTACH"
  | trackingAreaUpdate => "TAU"

/-- The context that has to go before a specific procedure may resume, and when it is looked at
again. -/
structure Reconciliation where
  old : UeId
  deadline : Instant
deriving DecidableEq

structure Specific where
  id : ProcedureId
  kind : SpecificKind
  retryTimer : Option TimerId := none
  reconciliation : Option Reconciliation := none
deriving DecidableEq

structure Procedures where
  specific : Option Specific := none
  identification : Option Identification := none
deriving DecidableEq

namespace Procedures

def isEmpty (p : Procedures) : Bool := p.specific.isNone && p.identification.isNone

/-- The specific procedure, if it is the one named `id`. -/
def specific? (p : Procedures) (id : ProcedureId) : Option Specific :=
  p.specific.filter fun s => s.id = id

/-- Changes the specific procedure, if it is the one named `id`. -/
def modifySpecific (p : Procedures) (id : ProcedureId) (f : Specific → Specific) : Procedures :=
  { p with specific := p.specific.map fun s => if s.id = id then f s else s }

/-- The timers on record, that of the identification first. -/
def recordedTimers (p : Procedures) : List TimerId :=
  (p.identification.bind (·.t3470)).toList ++ (p.specific.bind (·.retryTimer)).toList

end Procedures

end Emm
