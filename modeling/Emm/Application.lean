import Emm.Mme

/-!
The application layer's side of the notifications: it tears contexts down and registers confirmed
identities. The transport of requests to the UE lies outside, so requests are only logged.
-/

namespace Emm.Mme

/-- Registers the IMSI of the UE, if it has a context with one. -/
def registerImsi (m : Mme) (ue : UeId) : Mme :=
  match (m.context? ue).bind (·.imsi) with
  | some imsi => { m with registry := m.registry.register imsi ue }
  | none => m

def unregister (m : Mme) (ue : UeId) : Mme := { m with registry := m.registry.unregister ue }

/-- Removes everything that is kept for the UE, and stops the timers on record for it. -/
def tearDown (m : Mme) (ue : UeId) : Mme :=
  let m := match m.context? ue with
    | some c => (m.removeContext ue).stopTimers c.procedures.recordedTimers
    | none => m.emit (.contextAlreadyRemoved ue)
  m.unregister ue

/-- Reports that a context that should be gone is still there. -/
def reportOld (m : Mme) (ue : UeId) (old : Option UeId) : Mme :=
  match old.filter m.store.contains with
  | some old => m.emit (.oldContextPresent ue old)
  | none => m

def apply (m : Mme) : Notification → Mme
  | .sendIdentityRequest ue requested security =>
      m.emit (.requestHandedOver ue requested security.keySet)
  | .procedureStarted ue => m.emit (.procedurePending ue)
  | .procedureConfirmed ue ending => if ending.notify then m.registerImsi ue else m
  | .procedureAborted ue _ cause => m.emit (.commonProcedureAborted ue cause)
  | .teardownSession ue cause => (m.emit (.implicitDetach ue cause)).tearDown ue
  | .applicationTeardown ue =>
      if m.registry.names ue then (m.unregister ue).emit (.applicationReleased ue) else m
  | .specificProcedureRetry ue procedure old =>
      (m.reportOld ue old).emit (.mayResume ue procedure)

end Emm.Mme
