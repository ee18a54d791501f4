import Emm.Application
import Emm.Handler

/-!
What the operations on the shared state do to that which handlers look up in it: the contexts, the
owners of IMSIs in the index and in the registry, and the timers.
-/

namespace Emm

namespace Store

variable (s : Store) (ue u : UeId) (imsi i : Imsi)

theorem contains_eq_isSome : s.contains ue = (s.context? ue).isSome := rfl

@[simp]
theorem context?_claim : (s.claim imsi ue).context? u = s.context? u := rfl

@[simp]
theorem owner?_claim :
    (s.claim imsi ue).owner? i = if i = imsi then some ue else s.owner? i := by
  simp [claim, owner?]

@[simp]
theorem context?_insert (c : Context) :
    (s.insert c).context? u = if u = c.ue then some c else s.context? u := by
  simp only [insert, context?]
  split <;> simp [claim]

@[simp]
theorem owner?_insert (c : Context) :
    (s.insert c).owner? i = if c.imsi = some i then some c.ue else s.owner? i := by
  simp only [insert]
  split
  · rename_i j hj
    have howner := owner?_claim s c.ue j i
    simp only [owner?] at howner ⊢
    simp [howner, hj, eq_comm]
  · rename_i hnone
    simp [owner?, hnone]

@[simp]
theorem context?_modify (f : Context → Context) :
    (s.modify ue f).context? u = if u = ue then (s.context? u).map f else s.context? u := by
  simp [modify, context?]

@[simp]
theorem context?_remove : (s.remove ue).context? u = if u = ue then none else s.context? u := by
  simp only [remove]
  split
  · simp [context?]
  · rename_i habsent
    rw [contains_eq_isSome, Bool.not_eq_true, Option.isSome_eq_false_iff,
      Option.isNone_iff_eq_none] at habsent
    split
    · rename_i hu
      rw [hu, habsent]
    · rfl

theorem owner?_remove :
    (s.remove ue).owner? i =
      if s.contains ue then (s.owner? i).filter (· ≠ ue) else s.owner? i := by
  simp only [remove]
  split
  · simp [owner?, Table.get?_filterValues]
  · rfl

@[simp]
theorem context?_takeProcedureId : s.takeProcedureId.2.context? u = s.context? u := rfl

@[simp]
theorem context?_beginSpecific (kind : SpecificKind) :
    (s.beginSpecific ue kind).2.context? u =
      if u = ue then
        (s.context? u).map fun c => { c with
          procedures := { c.procedures with specific := some { id := s.nextProcedure, kind } } }
      else s.context? u := by
  simp only [beginSpecific]
  split
  · simp [takeProcedureId, context?, modify]
  · rename_i habsent
    have hnone : s.context? ue = none := by
      rwa [contains_eq_isSome, context?_takeProcedureId, Bool.not_eq_true,
        Option.isSome_eq_false_iff, Option.isNone_iff_eq_none] at habsent
    split
    · rename_i hu
      rw [hu, hnone]
      exact hnone
    · rfl

@[simp]
theorem owner?_beginSpecific (kind : SpecificKind) :
    (s.beginSpecific ue kind).2.owner? i = s.owner? i := by
  simp only [beginSpecific]
  split <;> rfl

end Store

namespace Registry

variable (r : Registry) (ue : UeId) (imsi i : Imsi)

@[simp]
theorem owner?_register :
    (r.register imsi ue).owner? i = if i = imsi then some ue else r.owner? i := by
  simp [register, owner?]

@[simp]
theorem owner?_unregister : (r.unregister ue).owner? i = (r.owner? i).filter (· ≠ ue) := by
  simp [unregister, owner?, Table.get?_filterValues]

end Registry

namespace Mme

variable (m : Mme) (ue u : UeId) (i : Imsi)

theorem contains_eq_isSome : m.store.contains ue = (m.context? ue).isSome := rfl

theorem identification?_eq_some_iff (p : Identification) :
    m.identification? ue = some p ↔
      ∃ c, m.context? ue = some c ∧ c.procedures.identification = some p := by
  simp [identification?, Option.bind_eq_some_iff]

@[simp]
theorem store_emit (e : Log.Event) : (m.emit e).store = m.store := rfl

@[simp]
theorem registry_emit (e : Log.Event) : (m.emit e).registry = m.registry := rfl

@[simp]
theorem timers_emit (e : Log.Event) : (m.emit e).timers = m.timers := rfl

@[simp]
theorem context?_emit (e : Log.Event) : (m.emit e).context? u = m.context? u := rfl

@[simp]
theorem identification?_emit (e : Log.Event) : (m.emit e).identification? = m.identification? :=
  rfl

@[simp]
theorem context?_modifyContext (f : Context → Context) :
    (m.modifyContext ue f).context? u =
      if u = ue then (m.context? u).map f else m.context? u :=
  Store.context?_modify m.store ue u f

@[simp]
theorem owner?_modifyContext (f : Context → Context) :
    (m.modifyContext ue f).store.owner? i = m.store.owner? i := rfl

@[simp]
theorem registry_modifyContext (f : Context → Context) :
    (m.modifyContext ue f).registry = m.registry := rfl

@[simp]
theorem timers_modifyContext (f : Context → Context) :
    (m.modifyContext ue f).timers = m.timers := rfl

@[simp]
theorem context?_setIdentification (p : Option Identification) :
    (m.setIdentification ue p).context? u =
      if u = ue then
        (m.context? u).map fun c =>
          { c with procedures := { c.procedures with identification := p } }
      else m.context? u :=
  context?_modifyContext ..

@[simp]
theorem timers_setIdentification (p : Option Identification) :
    (m.setIdentification ue p).timers = m.timers := rfl

@[simp]
theorem context?_setSpecific (p : Option Specific) :
    (m.setSpecific ue p).context? u =
      if u = ue then
        (m.context? u).map fun c => { c with procedures := { c.procedures with specific := p } }
      else m.context? u :=
  context?_modifyContext ..

theorem emitMove_eq (previous : Option UeId) :
    m.emitMove ue previous = m ∨ ∃ e, m.emitMove ue previous = m.emit e := by
  unfold emitMove
  split
  · exact .inr ⟨_, rfl⟩
  · exact .inl rfl

@[simp]
theorem store_emitMove (previous : Option UeId) : (m.emitMove ue previous).store = m.store := by
  rcases emitMove_eq m ue previous with h | ⟨e, h⟩ <;> simp [h]

@[simp]
theorem registry_emitMove (previous : Option UeId) :
    (m.emitMove ue previous).registry = m.registry := by
  rcases emitMove_eq m ue previous with h | ⟨e, h⟩ <;> simp [h]

@[simp]
theorem timers_emitMove (previous : Option UeId) :
    (m.emitMove ue previous).timers = m.timers := by
  rcases emitMove_eq m ue previous with h | ⟨e, h⟩ <;> simp [h]

@[simp]
theorem context?_claim (imsi : Imsi) : (m.claim imsi ue).context? u = m.context? u := by
  simp [claim, context?]

@[simp]
theorem owner?_claim (imsi : Imsi) :
    (m.claim imsi ue).store.owner? i = if i = imsi then some ue else m.store.owner? i := by
  simp [claim]

@[simp]
theorem registry_claim (imsi : Imsi) : (m.claim imsi ue).registry = m.registry := by
  simp [claim]

@[simp]
theorem timers_claim (imsi : Imsi) : (m.claim imsi ue).timers = m.timers := by
  simp [claim]

@[simp]
theorem context?_insertContext (c : Context) :
    (m.insertContext c).context? u = if u = c.ue then some c else m.context? u := by
  simp [insertContext, context?]

@[simp]
theorem owner?_insertContext (c : Context) :
    (m.insertContext c).store.owner? i =
      if c.imsi = some i then some c.ue else m.store.owner? i := by
  simp [insertContext]

@[simp]
theorem registry_insertContext (c : Context) : (m.insertContext c).registry = m.registry := by
  simp [insertContext]

@[simp]
theorem timers_insertContext (c : Context) : (m.insertContext c).timers = m.timers := by
  simp [insertContext]

@[simp]
theorem context?_removeContext :
    (m.removeContext ue).context? u = if u = ue then none else m.context? u := by
  have hremove := Store.context?_remove m.store ue u
  simp only [removeContext]
  split
  · exact hremove
  · rename_i habsent
    simp only [Store.remove, habsent] at hremove
    exact hremove

theorem owner?_removeContext :
    (m.removeContext ue).store.owner? i =
      if m.store.contains ue then (m.store.owner? i).filter (· ≠ ue) else m.store.owner? i := by
  simp only [removeContext]
  split
  · rename_i hpresent
    rw [store_emit, Store.owner?_remove, if_pos hpresent]
  · rfl

@[simp]
theorem registry_removeContext : (m.removeContext ue).registry = m.registry := by
  unfold removeContext
  split <;> rfl

@[simp]
theorem timers_removeContext : (m.removeContext ue).timers = m.timers := by
  unfold removeContext
  split <;> rfl

section

variable (kind : TimerKind) (interval : Duration)

@[simp]
theorem fst_startTimer : (m.startTimer ue kind interval).1 = m.timers.nextId := rfl

@[simp]
theorem context?_startTimer : (m.startTimer ue kind interval).2.context? u = m.context? u := rfl

@[simp]
theorem timers_startTimer :
    (m.startTimer ue kind interval).2.timers = m.timers.start ue kind interval := rfl

end

theorem stopTimer_eq (id : TimerId) :
    m.stopTimer id = { m with timers := m.timers.stop id } ∨
      m.stopTimer id = { m with timers := m.timers.stop id }.emit (.timerStopped id) := by
  unfold stopTimer
  split
  · exact .inr rfl
  · rename_i hidle
    refine .inl ?_
    have hsame : m.timers.stop id = m.timers := by
      simp only [Timers.isArmed, Bool.not_eq_true, List.any_eq_false, decide_eq_true_eq] at hidle
      simp only [Timers.stop]
      congr 1
      exact List.filter_eq_self.2 fun a ha => by simpa using hidle a ha
    rw [hsame]

@[simp]
theorem store_stopTimer (id : TimerId) : (m.stopTimer id).store = m.store := by
  rcases stopTimer_eq m id with h | h <;> simp [h]

@[simp]
theorem registry_stopTimer (id : TimerId) : (m.stopTimer id).registry = m.registry := by
  rcases stopTimer_eq m id with h | h <;> simp [h]

@[simp]
theorem timers_stopTimer (id : TimerId) : (m.stopTimer id).timers = m.timers.stop id := by
  rcases stopTimer_eq m id with h | h <;> simp [h]

@[simp]
theorem store_stopTimers (ids : List TimerId) : (m.stopTimers ids).store = m.store := by
  induction ids generalizing m with
  | nil => rfl
  | cons id ids ih =>
      have := ih (m.stopTimer id)
      simpa [stopTimers] using this

@[simp]
theorem registry_stopTimers (ids : List TimerId) :
    (m.stopTimers ids).registry = m.registry := by
  induction ids generalizing m with
  | nil => rfl
  | cons id ids ih =>
      have := ih (m.stopTimer id)
      simpa [stopTimers] using this

@[simp]
theorem timers_stopTimers (ids : List TimerId) :
    (m.stopTimers ids).timers =
      { m.timers with armed := m.timers.armed.filter fun a => a.id ∉ ids } := by
  induction ids generalizing m with
  | nil =>
      have hall : (m.timers.armed.filter fun a => a.id ∉ ([] : List TimerId)) = m.timers.armed :=
        List.filter_eq_self.2 fun a _ => by simp
      rw [hall]
      rfl
  | cons id ids ih =>
      have := ih (m.stopTimer id)
      simp only [stopTimers, List.foldl_cons] at this ⊢
      rw [this]
      simp only [timers_stopTimer, Timers.stop, List.filter_filter]
      congr 2
      funext a
      simp [Bool.and_comm]

@[simp]
theorem context?_stopTimers (ids : List TimerId) :
    (m.stopTimers ids).context? u = m.context? u := by
  simp [context?]

@[simp]
theorem context?_tearDown :
    (m.tearDown ue).context? u = if u = ue then none else m.context? u := by
  simp only [tearDown, unregister]
  split
  · change (stopTimers _ _).context? u = _
    rw [context?_stopTimers, context?_removeContext]
  · rename_i hnone
    split
    · rename_i hu
      rw [hu]
      exact hnone
    · rfl

theorem owner?_tearDown :
    (m.tearDown ue).store.owner? i =
      if m.store.contains ue then (m.store.owner? i).filter (· ≠ ue) else m.store.owner? i := by
  simp only [tearDown, unregister]
  split
  · change (stopTimers _ _).store.owner? i = _
    rw [store_stopTimers, owner?_removeContext]
  · rename_i hnone
    rw [contains_eq_isSome, hnone]
    rfl

@[simp]
theorem registry_tearDown : (m.tearDown ue).registry = m.registry.unregister ue := by
  simp only [tearDown, unregister]
  split
  · rw [registry_stopTimers, registry_removeContext]
  · rfl

end Mme

end Emm
