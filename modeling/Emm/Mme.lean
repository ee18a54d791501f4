import Emm.Log.Event
import Emm.Store

/-!
The state that the tasks of the MME share: contexts, registry, timers, and the log. The operations
here are those of the parts, together with what they log.
-/

namespace Emm

open Log (Event)

structure Mme where
  store : Store := {}
  registry : Registry := {}
  timers : Timers := {}
  /-- What has been logged, the latest event first. -/
  log : List Event := []

namespace Mme

def emit (m : Mme) (e : Event) : Mme := { m with log := e :: m.log }

def context? (m : Mme) (ue : UeId) : Option Context := m.store.context? ue

/-- The identification that runs for the UE. -/
def identification? (m : Mme) (ue : UeId) : Option Identification :=
  (m.context? ue).bind (·.procedures.identification)

/-- The specific procedure that runs for the UE. -/
def specific? (m : Mme) (ue : UeId) : Option Specific :=
  (m.context? ue).bind (·.procedures.specific)

def modifyContext (m : Mme) (ue : UeId) (f : Context → Context) : Mme :=
  { m with store := m.store.modify ue f }

def setIdentification (m : Mme) (ue : UeId) (p : Option Identification) : Mme :=
  m.modifyContext ue fun c => { c with procedures := { c.procedures with identification := p } }

def setSpecific (m : Mme) (ue : UeId) (p : Option Specific) : Mme :=
  m.modifyContext ue fun c => { c with procedures := { c.procedures with specific := p } }

/-- Logs that an IMSI has gone over to `ue` if it belonged to another UE before. -/
def emitMove (m : Mme) (ue : UeId) (previous : Option UeId) : Mme :=
  match previous.filter (· ≠ ue) with
  | some old => m.emit (.ownerMoved ue old)
  | none => m

/-- Makes `ue` the owner of `imsi` in the index. -/
def claim (m : Mme) (imsi : Imsi) (ue : UeId) : Mme :=
  { m with store := m.store.claim imsi ue }.emitMove ue (m.store.owner? imsi)

def insertContext (m : Mme) (c : Context) : Mme :=
  ({ m with store := m.store.insert c }.emitMove c.ue (c.imsi.bind m.store.owner?)).emit
    (.contextStored c.ue)

/-- Removes the context of `ue` with its index entries. Timers on record keep running. -/
def removeContext (m : Mme) (ue : UeId) : Mme :=
  if m.store.contains ue then
    { m with store := m.store.remove ue }.emit (.contextRemoved ue)
  else m

def takeProcedureId (m : Mme) : ProcedureId × Mme :=
  (m.store.nextProcedure, { m with store := m.store.takeProcedureId.2 })

def beginSpecific (m : Mme) (ue : UeId) (kind : SpecificKind) : Option ProcedureId × Mme :=
  ((m.store.beginSpecific ue kind).1, { m with store := (m.store.beginSpecific ue kind).2 })

/-- Arms a timer; its identifier is the first component. -/
def startTimer (m : Mme) (ue : UeId) (kind : TimerKind) (interval : Duration) : TimerId × Mme :=
  let id := m.timers.nextId
  (id, { m with timers := m.timers.start ue kind interval }.emit
    (.timerStarted id ue kind interval))

def stopTimer (m : Mme) (id : TimerId) : Mme :=
  if m.timers.isArmed id then
    { m with timers := m.timers.stop id }.emit (.timerStopped id)
  else m

/-- Stops the timers on record, as many as there are. -/
def stopTimers (m : Mme) (ids : List TimerId) : Mme := ids.foldl stopTimer m

/-- Releases the identification of the UE and stops its T3470. -/
def releaseIdentification (m : Mme) (ue : UeId) : Mme :=
  match m.identification? ue with
  | some p => (m.setIdentification ue none).stopTimers p.t3470.toList
  | none => m

/-- Deletes both procedures of the UE and stops the timers on record for them. -/
def deleteProcedures (m : Mme) (ue : UeId) : Mme :=
  match m.context? ue with
  | some c =>
      (m.modifyContext ue fun c => { c with procedures := {} }).stopTimers
        c.procedures.recordedTimers
  | none => m

end Mme

end Emm
