import Emm.Config
import Emm.Mme

/-!
What happens when a UE turns out to have an IMSI that another UE still owns: the old owner is torn
down first, and the attach or tracking area update of the new one waits on its retry timer until
the old context is gone. The teardown is announced before anything is changed, so a refused
announcement leaves all contexts as they were.
-/

namespace Emm

/-- Whether an IMSI could be given to the UE that claims it, or who had to be displaced first. -/
inductive Resolution
  | claimed
  | displacedContext (old : UeId)
  | displacedApplication (old : UeId)
deriving DecidableEq

/-- Another owner of an IMSI, and the table in which it was found. -/
inductive Holder
  | context (old : UeId)
  | application (old : UeId)
deriving DecidableEq

namespace Holder

def ue : Holder → UeId
  | context old => old
  | application old => old

/-- The notification that has the holder torn down. -/
def teardown : Holder → Notification
  | context old => .teardownSession old .illegalUe
  | application old => .applicationTeardown old

def resolution : Holder → Resolution
  | context old => .displacedContext old
  | application old => .displacedApplication old

end Holder

namespace Mme

/-- The application's entry counts only where no live context holds the IMSI. -/
def findApplicationHolder (m : Mme) (ue : UeId) (imsi : Imsi) : Mme × Option Holder :=
  match (m.registry.owner? imsi).filter (· ≠ ue) with
  | some old => (m.emit (.imsiHeldByApplication ue old imsi), some (.application old))
  | none => (m, none)

/-- Who owns `imsi` other than `ue`. An index entry of a UE without a context is no obstacle. -/
def findHolder (m : Mme) (ue : UeId) (imsi : Imsi) : Mme × Option Holder :=
  match (m.store.owner? imsi).filter (· ≠ ue) with
  | some old =>
      if m.store.contains old then
        (m.emit (.imsiHeldByContext ue old imsi), some (.context old))
      else
        (m.emit (.indexStale old imsi)).findApplicationHolder ue imsi
  | none => m.findApplicationHolder ue imsi

/-- Gives `imsi` to `ue`, in its context and in the index. -/
def assign (m : Mme) (ue : UeId) (imsi : Imsi) : Except IdentificationError Mme :=
  if m.store.contains ue then
    .ok ((m.modifyContext ue fun c => { c with imsi := some imsi }).claim imsi ue)
  else
    .error (.contextNotFound ue)

/-- Why a handler cannot go on. -/
inductive Crash
  /-- The time of the retry lies beyond what the clock can express. -/
  | deadlineOverflow
deriving DecidableEq

/-- Restarts the retry timer of the parent procedure and notes on it which UE it waits for. If the
deadline cannot be expressed the timer is already running and on record, and the note is missing. -/
def parkParent (m : Mme) (interval : Duration) (ue : UeId) (parent : Option ProcedureId)
    (old : UeId) : Mme × Option Crash :=
  match parent with
  | none => (m.emit (.noParent ue), none)
  | some id =>
      match (m.context? ue).bind (·.procedures.specific? id) with
      | none => (m.emit (.parentNotFound ue id), none)
      | some s =>
          let (timer, m) := (m.stopTimers s.retryTimer.toList).startTimer ue .specificRetry interval
          let s := { s with retryTimer := some timer }
          match m.timers.now.after? interval with
          | some deadline =>
              let m := m.setSpecific ue
                (some { s with reconciliation := some ⟨old, deadline⟩ })
              (m.emit (.parentParked ue id timer old interval), none)
          | none => (m.setSpecific ue (some s), some .deadlineOverflow)

/-- What follows the accepted teardown of `holder`. -/
def displace (m : Mme) (interval : Duration) (ue : UeId) (parent : Option ProcedureId) :
    Holder → Mme × Option Crash
  | .context old =>
      (m.modifyContext old fun c => { c with cause := some .illegalUe }).parkParent interval ue
        parent old
  | .application old => m.parkParent interval ue parent old

end Mme

def Mme.Crash.message : Mme.Crash → String
  | deadlineOverflow => Instant.overflowMessage

end Emm
