import Emm.Mme

/-!
What a bench may do to the shared state directly, past the tasks.
-/

namespace Emm.Bench

inductive Action
  | insert (context : Context)
  | remove (ue : UeId)
  /-- Removal while another party holds the context, which sets the cause before it lets go. -/
  | removeHeld (ue : UeId) (cause : EmmCause)
  | contains (ue : UeId)
  | setState (ue : UeId) (state : EmmState)
  | setSecurity (ue : UeId) (security : SecurityContext)
  /-- Writes the context's IMSI and leaves the index alone. -/
  | setImsi (ue : UeId) (imsi : Option Imsi)
  | claim (imsi : Imsi) (ue : UeId)
  | register (imsi : Imsi) (ue : UeId)
  | unregister (ue : UeId)
  | takeProcedureId
  | beginSpecific (ue : UeId) (kind : SpecificKind)
  | endSpecific (ue : UeId)
  | endIdentification (ue : UeId)
  | endAll (ue : UeId)
  | findSpecific (ue : UeId) (id : ProcedureId)
  /-- Starts a retry timer and puts it on record with the specific procedure, if one runs. -/
  | armRetry (ue : UeId) (interval : Duration)
  | startTimer (ue : UeId) (kind : TimerKind) (interval : Duration)
  | stopTimer (timer : TimerId)
  | stopAllTimers

inductive ActionReply
  | done
  /-- The UE has no context. -/
  | absent
  | removed (context : Context)
  | flag (value : Bool)
  | procedure (id : Option ProcedureId)
  | timer (id : TimerId)
  | timers (ids : List TimerId)

/-- Changes the context of `ue` and gives `reply`, unless there is no context. -/
def onContext (m : Mme) (ue : UeId) (f : Context → Context) (reply : Context → ActionReply) :
    Mme × ActionReply :=
  match m.context? ue with
  | some c => (m.modifyContext ue f, reply c)
  | none => (m, .absent)

namespace Action

def run (m : Mme) : Action → Mme × ActionReply
  | insert c => (m.insertContext c, .done)
  | remove ue =>
      match m.context? ue with
      | some c => (m.removeContext ue, .removed c)
      | none => (m, .absent)
  | removeHeld ue cause =>
      match m.context? ue with
      | some c =>
          (m.removeContext ue,
            .removed (Store.part c fun c => { c with cause := some cause }).removed)
      | none => (m, .absent)
  | contains ue => (m, .flag (m.store.contains ue))
  | setState ue state => onContext m ue (fun c => { c with state }) fun _ => .done
  | setSecurity ue security => onContext m ue (fun c => { c with security }) fun _ => .done
  | setImsi ue imsi => onContext m ue (fun c => { c with imsi }) fun _ => .done
  | claim imsi ue => (m.claim imsi ue, .done)
  | register imsi ue => ({ m with registry := m.registry.register imsi ue }, .done)
  | unregister ue =>
      ({ m with registry := m.registry.unregister ue }, .flag (m.registry.names ue))
  | takeProcedureId =>
      let (id, m) := m.takeProcedureId
      (m, .procedure (some id))
  | beginSpecific ue kind =>
      let (id, m) := m.beginSpecific ue kind
      (m, .procedure id)
  | endSpecific ue =>
      onContext m ue (fun c => { c with procedures := { c.procedures with specific := none } })
        fun _ => .done
  | endIdentification ue =>
      onContext m ue
        (fun c => { c with procedures := { c.procedures with identification := none } })
        fun _ => .done
  | endAll ue =>
      onContext m ue (fun c => { c with procedures := {} })
        fun c => .timers c.procedures.recordedTimers
  | findSpecific ue id =>
      onContext m ue (fun c => c) fun c => .flag (c.procedures.specific? id).isSome
  | armRetry ue interval =>
      let (id, m) := m.startTimer ue .specificRetry interval
      match m.specific? ue with
      | some s => (m.setSpecific ue (some { s with retryTimer := some id }), .timer id)
      | none => (m, .timer id)
  | startTimer ue kind interval =>
      let (id, m) := m.startTimer ue kind interval
      (m, .timer id)
  | stopTimer id => (m.stopTimer id, .flag (m.timers.isArmed id))
  | stopAllTimers => ({ m with timers := m.timers.stopAll }, .done)

end Action

end Emm.Bench
