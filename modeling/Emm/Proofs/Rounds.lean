import Emm.Proofs.Run
import Emm.Proofs.Turn

/-!
The records of identifications and the channels in a run. Main statements: `turn_of_receive` and
`turn_of_publish`, which give the turn that the EMM task takes in a move; `records_step`, by which
all others only make records go, and only with their contexts; and that channels which nobody
closes stay as they are.
-/

namespace Emm

/-- Somebody receives, somebody sends, and nobody has asked the receiver to stop. -/
structure Channel.Live {α : Type} (c : Channel α) : Prop where
  isOpen : c.isOpen = true
  hasSender : c.hasSender = true
  unasked : .shutdown ∉ c.queue

namespace Channel.Live

variable {α : Type} {c c' : Channel α}

theorem not_over (hc : c.Live) : ¬c.Over := by
  rintro (⟨rest, hqueue⟩ | ⟨_, hsender⟩)
  · exact hc.unasked (by simp [hqueue])
  · rw [hc.hasSender] at hsender
    cases hsender

theorem rest (hc : c.Live) {e : Envelope α} {rest : List (Envelope α)}
    (hqueue : c.queue = e :: rest) : Channel.Live { c with queue := rest } where
  isOpen := hc.isOpen
  hasSender := hc.hasSender
  unasked hmem := hc.unasked (by rw [hqueue]; exact List.mem_cons_of_mem _ hmem)

theorem push (hc : c.Live) (x : α) :
    Channel.Live { c with queue := c.queue ++ [.message x] } where
  isOpen := hc.isOpen
  hasSender := hc.hasSender
  unasked hmem := hc.unasked (by simpa using hmem)

theorem sent (hc : c.Live) {x : α} (h : c.send (.message x) = .ok c') : c'.Live := by
  obtain ⟨_, _, _, rfl⟩ := send_eq_ok h
  exact hc.push x

theorem send_ne_closed (hc : c.Live) {e : Envelope α} : c.send e ≠ .error .closed :=
  Channel.send_ne_closed hc.isOpen hc.hasSender

end Channel.Live

namespace System

variable {s s' : System} {a : Move}

theorem identification?_follow (s : System) (ue : UeId) (p : Progress) :
    (s.follow ue p).mme.identification? = s.mme.identification? := by
  rcases mme_follow s ue p with h | ⟨e, h⟩
  · rw [h]
  · rw [h]
    rfl

theorem turn_of_receive (h : s.step? .receive = some s') :
    s.emm = .receiving ∧ s'.bus = s.bus ∧
      ((∃ msg rest e p, s.inbox.queue = .message msg :: rest ∧
          Begun (s.mme.emit e) s'.mme.identification? msg p ∧ s'.emm = phaseAfter msg.ue p) ∨
        s.inbox.Over ∧ s'.mme.identification? = s.mme.identification? ∧ s'.emm = .stopped) := by
  obtain ⟨hemm, ⟨msg, rest, hqueue, rfl⟩ | ⟨hover, ⟨log, hlog⟩, hstopped, _, hbus, _⟩⟩ :=
    receive?_eq_some h
  · refine ⟨hemm, bus_follow _ _ _, .inl ⟨msg, rest, .exchanged .received msg.primitive msg.ue, _,
      hqueue, ?_, emm_follow _ _ _⟩⟩
    have hbegun := Mme.begin_begun (s.mme.emit (.exchanged .received msg.primitive msg.ue))
      s.config msg
    rw [beginMessage_eq, identification?_follow]
    exact hbegun
  · refine ⟨hemm, hbus, .inr ⟨hover, ?_, hstopped⟩⟩
    rw [hlog]
    rfl

/-- The EMM task publishes a notification, or learns that nobody takes any, and takes its next
turn. -/
theorem turn_of_publish (h : s.step? .publish = some s') :
    ∃ ue n next d m p, s.emm = .publishing ue n next ∧
      m.identification? = s.mme.identification? ∧ m.timers = s.mme.timers ∧
      Resumed s.config m s'.mme.identification? next d p ∧ s'.emm = phaseAfter ue p ∧
      (s.bus.send (.message n) = .ok s'.bus ∧ d = .accepted ∨
        s.bus.send (.message n) = .error .closed ∧ s'.bus = s.bus) := by
  obtain ⟨ue, n, next, s₁, d, hemm, hoffer, rfl⟩ := publish?_eq_some h
  refine ⟨ue, n, next, d, s₁.mme, _, hemm, ?_, ?_, ?_, emm_follow _ _ _, ?_⟩
  · obtain ⟨bus, _, rfl, _⟩ | ⟨_, rfl, _⟩ := offer?_eq_some hoffer
    · rfl
    · rfl
  · obtain ⟨bus, _, rfl, _⟩ | ⟨_, rfl, _⟩ := offer?_eq_some hoffer
    · rfl
    · rfl
  · have hconfig : s₁.config = s.config := by
      obtain ⟨bus, _, rfl, _⟩ | ⟨_, rfl, _⟩ := offer?_eq_some hoffer
      · rfl
      · rfl
    rw [resume_eq, identification?_follow, ← hconfig]
    exact Mme.resume_resumed s₁.mme s₁.config n next d
  · rw [resume_eq, bus_follow]
    obtain ⟨bus, hsend, rfl, rfl⟩ | ⟨hclosed, rfl, _⟩ := offer?_eq_some hoffer
    · exact .inl ⟨hsend, rfl⟩
    · exact .inr ⟨hclosed, rfl⟩

theorem turn_of_accepted (hbus : s.bus.Live) (h : s.step? .publish = some s') :
    ∃ ue n next m p, s.emm = .publishing ue n next ∧
      m.identification? = s.mme.identification? ∧ m.timers = s.mme.timers ∧
      Resumed s.config m s'.mme.identification? next .accepted p ∧ s'.emm = phaseAfter ue p ∧
      s.bus.send (.message n) = .ok s'.bus := by
  obtain ⟨ue, n, next, d, m, p, hemm, hrecords, htimers, hresumed, hphase, houtcome⟩ :=
    turn_of_publish h
  obtain ⟨hsend, rfl⟩ := houtcome.resolve_right fun h => hbus.send_ne_closed h.1
  exact ⟨ue, n, next, m, p, hemm, hrecords, htimers, hresumed, hphase, hsend⟩

theorem bus_live_step (hclose : a ≠ .closeBus) (hask : a ≠ .askAppToStop)
    (hstep : s.step? a = some s') (hs : s.bus.Live) : s'.bus.Live := by
  cases uptake_of_step hstep with
  | still _ hbus =>
      rw [hbus]
      exact hs
  | published _ hsend => exact hs.sent hsend
  | taken _ hqueue hbus =>
      rw [hbus]
      exact hs.rest hqueue
  | stopped _ hover => exact absurd hover hs.not_over
  | discarded hqueue hbus =>
      rw [hbus]
      exact hs.rest hqueue
  | asked => exact absurd rfl hask
  | closed => exact absurd rfl hclose

end System

/-- Contexts are stored without an identification, and identifications are not taken off them past
the EMM task. -/
def Bench.Action.SparesRecords : Bench.Action → Prop
  | insert c => c.procedures.identification = none
  | endIdentification _ | endAll _ => False
  | _ => True

instance : (action : Bench.Action) → Decidable action.SparesRecords
  | .insert _ => inferInstanceAs (Decidable (_ = _))
  | .endIdentification _ | .endAll _ => .isFalse id
  | .remove _ | .removeHeld .. | .contains _ | .setState .. | .setSecurity .. | .setImsi ..
  | .claim .. | .register .. | .unregister _ | .takeProcedureId | .beginSpecific ..
  | .endSpecific _ | .findSpecific .. | .armRetry .. | .startTimer .. | .stopTimer _
  | .stopAllTimers => .isTrue trivial

namespace Mme

variable (m : Mme) (ue : UeId)

theorem identification?_tearDown :
    (m.tearDown ue).identification? = Function.update m.identification? ue none := by
  funext u
  by_cases hu : u = ue
  · subst hu
    simp [identification?]
  · simp [identification?, hu]

theorem identification?_onContext {f : Context → Context}
    (hf : ∀ c, (f c).procedures.identification = c.procedures.identification)
    (reply : Context → Bench.ActionReply) :
    (Bench.onContext m ue f reply).1.identification? = m.identification? := by
  unfold Bench.onContext
  split
  · exact identification?_modifyContext m ue hf
  · rfl

theorem identification?_act {action : Bench.Action} (h : action.SparesRecords) :
    (action.run m).1.identification? ue = m.identification? ue ∨
      (action.run m).1.identification? ue = none ∧
        ((action.run m).1.context? ue = none ∨ ∃ c, action = .insert c ∧ c.ue = ue) := by
  have removed : ∀ u, (m.removeContext u).identification? ue = m.identification? ue ∨
      (m.removeContext u).identification? ue = none ∧ (m.removeContext u).context? ue = none := by
    intro u
    by_cases hu : ue = u
    · simp [identification?, hu]
    · simp [identification?, hu]
  cases action with
  | insert c =>
      by_cases hue : c.ue = ue
      · refine .inr ⟨?_, .inr ⟨c, rfl, hue⟩⟩
        subst hue
        have hnone : c.procedures.identification = none := h
        simp [Bench.Action.run, identification?, hnone]
      · left
        simp [Bench.Action.run, identification?, Ne.symm hue]
  | remove u =>
      simp only [Bench.Action.run]
      split
      · exact (removed u).imp_right fun h => ⟨h.1, .inl h.2⟩
      · exact .inl rfl
  | removeHeld u cause =>
      simp only [Bench.Action.run]
      split
      · exact (removed u).imp_right fun h => ⟨h.1, .inl h.2⟩
      · exact .inl rfl
  | contains u => exact .inl rfl
  | setState u state => exact .inl (congrFun (m.identification?_onContext u (fun _ => by rfl) _) ue)
  | setSecurity u security =>
      exact .inl (congrFun (m.identification?_onContext u (fun _ => by rfl) _) ue)
  | setImsi u imsi => exact .inl (congrFun (m.identification?_onContext u (fun _ => by rfl) _) ue)
  | claim imsi u => exact .inl (congrFun (m.identification?_claim u imsi) ue)
  | register imsi u => exact .inl rfl
  | unregister u => exact .inl rfl
  | takeProcedureId => exact .inl rfl
  | beginSpecific u kind =>
      left
      have hcontext : (m.beginSpecific u kind).2.context? ue = _ :=
        Store.context?_beginSpecific m.store u ue kind
      change ((m.beginSpecific u kind).2.context? ue).bind _ = _
      rw [hcontext]
      split
      · rw [Option.bind_map]
        rfl
      · rfl
  | endSpecific u => exact .inl (congrFun (m.identification?_onContext u (fun _ => by rfl) _) ue)
  | endIdentification u => exact h.elim
  | endAll u => exact h.elim
  | findSpecific u id =>
      exact .inl (congrFun (m.identification?_onContext u (fun _ => by rfl) _) ue)
  | armRetry u interval =>
      left
      simp only [Bench.Action.run]
      split
      · exact congrFun (identification?_setSpecific _ u _) ue
      · rfl
  | startTimer u kind interval => exact .inl rfl
  | stopTimer id => exact .inl (congrFun (m.identification?_stopTimers [id]) ue)
  | stopAllTimers => exact .inl rfl

end Mme

namespace System

variable {s s' : System} {a : Move}

/-- Contexts are stored without a record, and records are not taken off them past the EMM task. -/
def SparesRecords (_ : System) : Move → Prop
  | .act action => action.SparesRecords
  | _ => True

instance (s : System) : (a : Move) → Decidable (s.SparesRecords a)
  | .act action => inferInstanceAs (Decidable action.SparesRecords)
  | .receive | .publish | .take | .discard | .fire _ | .deliver | .advance _ | .send _
  | .askEmmToStop | .askAppToStop | .closeBus | .tearDown _ => .isTrue trivial

theorem records_step (hreceive : a ≠ .receive) (hpublish : a ≠ .publish)
    (hspares : s.SparesRecords a)
    (hstep : s.step? a = some s') (ue : UeId) :
    s'.mme.identification? ue = s.mme.identification? ue ∨
      s'.mme.identification? ue = none ∧
        (s'.mme.context? ue = none ∨ ∃ c, a = .act (.insert c) ∧ c.ue = ue) := by
  have tornDown : ∀ (m : Mme) u, (m.tearDown u).identification? ue = m.identification? ue ∨
      (m.tearDown u).identification? ue = none ∧
        ((m.tearDown u).context? ue = none ∨ ∃ c, a = .act (.insert c) ∧ c.ue = ue) := by
    intro m u
    by_cases hu : ue = u
    · simp [Mme.identification?_tearDown, hu]
    · simp [Mme.identification?_tearDown, hu]
  have hchange := step_change hstep
  generalize s'.mme = m' at hchange
  cases hchange with
  | edits ha h => exact absurd ha (by simp [hreceive, hpublish])
  | log log => exact .inl rfl
  | apply h =>
      cases h with
      | log log => exact .inl rfl
      | register hc hcarried => exact .inl rfl
      | unregister u log => exact .inl rfl
      | tearDown u e => exact tornDown _ u
  | fire ha hdue => exact .inl rfl
  | advance d => exact .inl rfl
  | tearDown u => exact tornDown _ u
  | act action =>
      have hact := s.mme.identification?_act ue hspares
      exact hact.imp_right fun h => ⟨h.1, h.2.imp_right fun ⟨c, hc, hue⟩ => ⟨c, by rw [hc], hue⟩⟩

end System

end Emm
