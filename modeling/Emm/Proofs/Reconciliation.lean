import Emm.Proofs.Attribution
import Emm.Proofs.Ending
import Emm.Proofs.Parking
import Emm.Proofs.Quiescence

/-!
What a move does to the specific procedures of a system in which only the tasks park them and take
them up. Main statements: `specific_of_step`, by which one stays, goes, is begun, is parked or is
taken up, and `timed_step`, by which a timer keeps its deadline and is not early.
-/

namespace Emm

/-- Past the EMM task specific procedures are begun, end, or go with their contexts, and no timer is
put on one. -/
def Bench.Action.SparesRetries : Bench.Action → Prop
  | insert c => c.procedures.specific = none
  | armRetry .. => False
  | _ => True

instance : (action : Bench.Action) → Decidable action.SparesRetries
  | .insert _ => inferInstanceAs (Decidable (_ = _))
  | .armRetry .. => .isFalse id
  | .remove _ | .removeHeld .. | .contains _ | .setState .. | .setSecurity .. | .setImsi ..
  | .claim .. | .register .. | .unregister _ | .takeProcedureId | .beginSpecific ..
  | .endSpecific _ | .endIdentification _ | .endAll _ | .findSpecific .. | .startTimer ..
  | .stopTimer _ | .stopAllTimers => .isTrue trivial

namespace Moment

/-- An identification of the UE that was started for `parent` ends in a collision: the order to tear
`old` down, which has the IMSI, is taken. -/
def Collides (x : Moment) (ue : UeId) (parent : Option ProcedureId) (old : UeId) : Prop :=
  ∃ subject n claim holder, x.before.emm = .publishing subject n (.displaced claim holder) ∧
    x.published? = some n ∧ claim.ue = ue ∧ claim.parent = parent ∧ holder.ue = old

/-- The EMM task takes the expiry of the timer that is on record for the procedure. -/
def TakesUp (x : Moment) (ue : UeId) (q : Specific) (timer : TimerId) : Prop :=
  x.before.expiryAtHand x.move = some ⟨timer, ue, .specificRetry⟩ ∧
    x.before.mme.specific? ue = some q ∧ q.retryTimer = some timer

end Moment

namespace Timers.Turns

variable {next id : TimerId} {t t' : Timers}

theorem now_le (h : Turns next t t') : t.now.millis ≤ t'.now.millis := by
  induction h with
  | refl => exact Nat.le_refl _
  | tail _ hturn ih =>
      cases hturn with
      | disarm p => exact ih
      | start ue kind interval hnext => exact ih
      | advance d => exact Nat.le_add_right_of_le ih

theorem mem_armed (h : Turns next t t') (hid : id ≠ next) :
    ∀ b ∈ t'.armed, b.id = id → b ∈ t.armed := by
  induction h with
  | refl => exact fun _ hb _ => hb
  | tail _ hturn ih =>
      intro b hb hb'
      cases hturn with
      | disarm p => exact ih b (List.mem_of_mem_filter hb) hb'
      | start ue kind interval hnext =>
          rcases List.mem_append.1 hb with hb | hb
          · exact ih b hb hb'
          · rw [List.mem_singleton.1 hb] at hb'
            exact absurd (hb'.symm.trans hnext) hid
      | advance d => exact ih b hb hb'

end Timers.Turns

namespace Mme

variable (m : Mme) (ue : UeId)

theorem specific?_tearDown :
    (m.tearDown ue).specific? = Function.update m.specific? ue none := by
  funext u
  by_cases hu : u = ue
  · subst hu
    simp [specific?]
  · simp [specific?, hu]

theorem specific?_onContext {f : Context → Context}
    (hf : ∀ c, (f c).procedures.specific = c.procedures.specific)
    (reply : Context → Bench.ActionReply) :
    (Bench.onContext m ue f reply).1.specific? = m.specific? := by
  unfold Bench.onContext
  split
  · exact specific?_modifyContext m ue hf
  · rfl

theorem specific?_act {action : Bench.Action} (h : action.SparesRetries) :
    (action.run m).1.specific? ue = m.specific? ue ∨ (action.run m).1.specific? ue = none ∨
      ∃ kind id, action = .beginSpecific ue kind ∧
        (action.run m).1.specific? ue = some { id, kind } := by
  have removed : ∀ u, (m.removeContext u).specific? ue = m.specific? ue ∨
      (m.removeContext u).specific? ue = none := by
    intro u
    by_cases hu : ue = u
    · simp [specific?, hu]
    · simp [specific?, hu]
  have ended : ∀ u f reply, (∀ c : Context, (f c).procedures.specific = none) →
      (Bench.onContext m u f reply).1.specific? ue = m.specific? ue ∨
        (Bench.onContext m u f reply).1.specific? ue = none := by
    intro u f reply hf
    unfold Bench.onContext
    split
    · by_cases hu : ue = u
      · simp [specific?, hu, hf]
      · simp [specific?, hu]
    · exact .inl rfl
  cases action with
  | insert c =>
      have hnone : c.procedures.specific = none := h
      by_cases hue : ue = c.ue
      · refine .inr (.inl ?_)
        subst hue
        simp [Bench.Action.run, specific?, hnone]
      · left
        simp [Bench.Action.run, specific?, hue]
  | remove u =>
      simp only [Bench.Action.run]
      split
      · exact (removed u).imp_right .inl
      · exact .inl rfl
  | removeHeld u cause =>
      simp only [Bench.Action.run]
      split
      · exact (removed u).imp_right .inl
      · exact .inl rfl
  | beginSpecific u kind =>
      have hcontext : (m.beginSpecific u kind).2.context? ue = _ :=
        Store.context?_beginSpecific m.store u ue kind
      change ((m.beginSpecific u kind).2.context? ue).bind _ = _ ∨
        ((m.beginSpecific u kind).2.context? ue).bind _ = _ ∨
          ∃ kind' id, _ ∧ ((m.beginSpecific u kind).2.context? ue).bind _ = _
      rw [hcontext]
      split
      · rename_i hu
        subst hu
        cases hc : m.store.context? ue with
        | none => exact .inr (.inl rfl)
        | some c => exact .inr (.inr ⟨kind, _, rfl, rfl⟩)
      · exact .inl rfl
  | endSpecific u => exact (ended u _ _ fun _ => by rfl).imp_right .inl
  | endAll u => exact (ended u _ _ fun _ => by rfl).imp_right .inl
  | setState u state => exact .inl (congrFun (m.specific?_onContext u (fun _ => by rfl) _) ue)
  | setSecurity u security => exact .inl (congrFun (m.specific?_onContext u (fun _ => by rfl) _) ue)
  | setImsi u imsi => exact .inl (congrFun (m.specific?_onContext u (fun _ => by rfl) _) ue)
  | endIdentification u => exact .inl (congrFun (m.specific?_onContext u (fun _ => by rfl) _) ue)
  | findSpecific u id => exact .inl (congrFun (m.specific?_onContext u (fun _ => by rfl) _) ue)
  | claim imsi u => exact .inl (congrFun (m.specific?_claim u imsi) ue)
  | contains u => exact .inl rfl
  | register imsi u => exact .inl rfl
  | unregister u => exact .inl rfl
  | takeProcedureId => exact .inl rfl
  | startTimer u kind interval => exact .inl rfl
  | stopTimer id => exact .inl (congrFun (m.specific?_stopTimers [id]) ue)
  | stopAllTimers => exact .inl rfl
  | armRetry => exact h.elim

end Mme

namespace System

variable {s s' : System} {a : Move}

/-- Somebody always takes notifications, and nobody else interferes with retries. -/
def SparesRetries (_ : System) : Move → Prop
  | .closeBus | .askAppToStop => False
  | .act action => action.SparesRetries
  | _ => True

instance (s : System) : (a : Move) → Decidable (s.SparesRetries a)
  | .closeBus | .askAppToStop => .isFalse id
  | .act action => inferInstanceAs (Decidable action.SparesRetries)
  | .receive | .publish | .take | .discard | .fire _ | .deliver | .advance _ | .send _
  | .askEmmToStop | .tearDown _ => .isTrue trivial

/-- Retries can be scheduled, and nobody but the tasks and the timers has a part in them. -/
def Scheduled (s : System) (a : Move) : Prop := s.SparesRetries a ∧ s.RetryFits a ∧ s.TimersOnly a

instance (s : System) (a : Move) : Decidable (s.Scheduled a) :=
  inferInstanceAs (Decidable (_ ∧ _ ∧ _))

theorem Scheduled.keepsBus (hok : s.Scheduled a) : a ≠ .closeBus ∧ a ≠ .askAppToStop := by
  constructor
  · rintro rfl
    exact hok.1
  · rintro rfl
    exact hok.1

@[simp]
theorem specific?_follow (s : System) (ue : UeId) (p : Progress) :
    (s.follow ue p).mme.specific? = s.mme.specific? := by
  rcases mme_follow s ue p with h | ⟨e, h⟩
  · rw [h]
  · rw [h]
    rfl

theorem specific_of_receive (h : s.step? .receive = some s') :
    (∃ msg rest p, s.inbox.queue = .message msg :: rest ∧
        s.mme.BeginsSpecific msg (s'.mme, p) ∧ s'.emm = phaseAfter msg.ue p) ∨
      s'.mme.specific? = s.mme.specific? ∧ s'.emm = .stopped := by
  obtain ⟨_, ⟨msg, rest, hqueue, rfl⟩ | ⟨_, ⟨log, hlog⟩, hstopped, _⟩⟩ := receive?_eq_some h
  · have hbegins := Mme.begin_specific (s.mme.emit (.exchanged .received msg.primitive msg.ue))
      s.config msg
    rw [beginMessage_eq]
    refine .inl ⟨msg, rest, _, hqueue, hbegins.congr rfl ?_, emm_follow _ _ _⟩
    rw [specific?_follow]
  · refine .inr ⟨?_, hstopped⟩
    rw [hlog]
    rfl

theorem specific_of_publish (hbus : s.bus.Live) (hfits : s.RetryFits .publish)
    (h : s.step? .publish = some s') :
    ∃ ue n next p, s.emm = .publishing ue n next ∧ Moment.published? ⟨s, .publish, s'⟩ = some n ∧
      s.mme.ResumesSpecific s.config next .accepted (s'.mme, p) ∧ s'.emm = phaseAfter ue p := by
  obtain ⟨ue, n, next, s₁, d, hemm, hoffer, rfl⟩ := publish?_eq_some h
  obtain ⟨bus, hsend, rfl, rfl⟩ | ⟨hclosed, _⟩ := offer?_eq_some hoffer
  · have hresumes := Mme.resume_specific (s.mme.emit (.exchanged .sent n.primitive n.ue)) s.config
      n next .accepted hfits
    rw [resume_eq]
    refine ⟨ue, n, next, _, hemm, published?_of_sent hemm hsend,
      hresumes.congr rfl rfl ?_ ?_, emm_follow _ _ _⟩
    · rw [specific?_follow]
      rfl
    · rw [timers_follow]
      rfl
  · exact absurd hclosed hbus.send_ne_closed

theorem specific_aside (hspares : s.SparesRetries a) (hreceive : a ≠ .receive)
    (hpublish : a ≠ .publish) (hstep : s.step? a = some s') (ue : UeId) :
    s'.mme.specific? ue = s.mme.specific? ue ∨ s'.mme.specific? ue = none ∨
      ∃ kind id, a = .act (.beginSpecific ue kind) ∧
        s'.mme.specific? ue = some { id, kind } := by
  have tornDown : ∀ (m : Mme) u, (m.tearDown u).specific? ue = m.specific? ue ∨
      (m.tearDown u).specific? ue = none := by
    intro m u
    by_cases hu : ue = u
    · simp [Mme.specific?_tearDown, hu]
    · simp [Mme.specific?_tearDown, hu]
  have hchange := step_change hstep
  generalize s'.mme = m' at hchange
  cases hchange with
  | edits ha h => exact absurd ha (by simp [hreceive, hpublish])
  | log log => exact .inl rfl
  | apply h =>
      cases h with
      | log log => exact .inl rfl
      | register hc hcarried => exact .inl rfl
      | unregister u log => exact .inl rfl
      | tearDown u e => exact (tornDown _ u).imp_right .inl
  | fire ha hdue => exact .inl rfl
  | advance d => exact .inl rfl
  | tearDown u => exact (tornDown _ u).imp_right .inl
  | act action =>
      refine (s.mme.specific?_act ue hspares).imp_right (.imp_right ?_)
      rintro ⟨kind, id, rfl, h⟩
      exact ⟨kind, id, rfl, h⟩

/-- What becomes of a UE's specific procedure in a move: it stays, goes, or is begun; it is parked
as the parent of an identification that ends in a collision; or it is taken up again. -/
inductive SpecificStep (s : System) (a : Move) (s' : System) (ue : UeId) : Prop
  | same (h : s'.mme.specific? ue = s.mme.specific? ue)
  | gone (h : s'.mme.specific? ue = none)
  | begun {kind : SpecificKind} {id : ProcedureId} (ha : a = .act (.beginSpecific ue kind))
      (h : s'.mme.specific? ue = some { id, kind })
  | parked {q : Specific} {old : UeId} {deadline : Instant}
      (hcollides : Moment.Collides ⟨s, a, s'⟩ ue (some q.id) old)
      (hq : s.mme.specific? ue = some q)
      (hdeadline : s.mme.timers.now.after? s.config.retryInterval = some deadline)
      (h : s'.mme.specific? ue = some (q.park s.mme.timers.nextId old deadline))
      (htimers : (s.mme.timers.start ue .specificRetry s.config.retryInterval).Fewer
        s'.mme.timers)
  | takenUp {q : Specific} {timer : TimerId} (htakes : Moment.TakesUp ⟨s, a, s'⟩ ue q timer)
      (h : s'.mme.specific? ue = some q.unpark)

theorem specific_of_step (hok : s.Scheduled a) (hbus : s.bus.Live) (hstep : s.step? a = some s')
    (ue : UeId) : SpecificStep s a s' ue := by
  have updated : ∀ {u r}, s'.mme.specific? = Function.update s.mme.specific? u r → ue ≠ u →
      SpecificStep s a s' ue := by
    intro u r hspecific hne
    exact .same (by rw [hspecific, Function.update_of_ne hne])
  by_cases hreceive : a = .receive
  · subst hreceive
    obtain ⟨msg, rest, p, hqueue, hbegins, _⟩ | ⟨hsame, _⟩ := specific_of_receive hstep
    · cases hbegins with
      | spared h => exact .same (congrFun h.specific ue)
      | @takenUp u timer q _ hq htimer hspecific =>
          by_cases hu : ue = u
          · subst hu
            refine .takenUp ⟨?_, hq, htimer⟩ (by rw [hspecific, Function.update_self])
            simp [expiryAtHand, hqueue, Message.expiry?]
          · exact updated hspecific hu
    · exact .same (congrFun hsame ue)
  by_cases hpublish : a = .publish
  · subst hpublish
    obtain ⟨subject, n, next, p, hemm, hpublished, hresumes, _⟩ :=
      specific_of_publish hbus hok.2.1 hstep
    cases hresumes with
    | spared _ h => exact .same (congrFun h.specific ue)
    | @deleted _ _ _ u _ hspecific _ =>
        by_cases hu : ue = u
        · subst hu
          exact .gone (by rw [hspecific, Function.update_self])
        · exact updated hspecific hu
    | @parked claim holder q deadline _ hq hparent hdeadline hspecific _ htimers =>
        by_cases hu : ue = claim.ue
        · subst hu
          refine .parked ?_ hq hdeadline (by rw [hspecific, Function.update_self]) htimers
          exact ⟨subject, n, claim, holder, hemm, hpublished, rfl, hparent, rfl⟩
        · exact updated hspecific hu
    | unparked _ h _ => exact .same (congrFun h.specific ue)
  obtain hsame | hgone | ⟨kind, id, ha, hbegun⟩ :=
    specific_aside hok.1 hreceive hpublish hstep ue
  · exact .same hsame
  · exact .gone hgone
  · exact .begun ha hbegun

theorem waits_of_takesUp {ue : UeId} {q : Specific} {timer : TimerId}
    (hstep : s.step? a = some s') (h : Moment.TakesUp ⟨s, a, s'⟩ ue q timer) :
    s'.emm = .publishing ue (.specificProcedureRetry ue q.id q.awaited?) .finished ∧
      s'.mme.specific? ue = some q.unpark := by
  obtain ⟨hhand, hq, htimer⟩ := h
  have hstruck := handle?_at_hand hhand hstep
  have ha : a = .receive := by
    cases a with
    | receive => rfl
    | _ => cases hhand
  subst ha
  obtain ⟨msg, rest, p, hqueue, hbegins, hemm⟩ | ⟨hsame, _⟩ := specific_of_receive hstep
  · cases hbegins with
    | spared h =>
        rw [Mme.handle?_specificRetry, h.specific] at hstruck
        exact absurd (by rw [hq]; exact htimer) hstruck
    | @takenUp u timer' q' _ hq' htimer' hspecific =>
        have hue : u = ue := by
          simp only [expiryAtHand, hqueue, Message.expiry?] at hhand
          cases hhand
          rfl
        subst hue
        cases hq.symm.trans hq'
        exact ⟨hemm, by rw [hspecific, Function.update_self]⟩
  · rw [Mme.handle?_specificRetry, hsame] at hstruck
    exact absurd (by rw [hq]; exact htimer) hstruck

theorem waits_to_resume (hok : s.Scheduled a) (hbus : s.bus.Live) (hstep : s.step? a = some s')
    {subject ue : UeId} {n : Notification} {next : Resumption} {id : ProcedureId}
    {old : Option UeId} (hemm : s'.emm = .publishing subject n next)
    (hn : n.resumes? = some (ue, id, old)) :
    (a ≠ .receive ∧ a ≠ .publish ∧ s.emm = .publishing subject n next) ∨
      ∃ q timer, Moment.TakesUp ⟨s, a, s'⟩ ue q timer ∧ id = q.id ∧ old = q.awaited? := by
  by_cases hreceive : a = .receive
  · subst hreceive
    obtain ⟨msg, rest, p, hqueue, hbegins, hphase⟩ | ⟨_, hstopped⟩ := specific_of_receive hstep
    · rw [hphase] at hemm
      cases phaseAfter_eq_publishing hemm
      cases hbegins with
      | spared h => cases h.resumes.symm.trans hn
      | @takenUp u timer q _ hq htimer hspecific =>
          cases hn
          refine .inr ⟨q, timer, ⟨?_, hq, htimer⟩, rfl, rfl⟩
          simp [expiryAtHand, hqueue, Message.expiry?]
    · cases hstopped.symm.trans hemm
  by_cases hpublish : a = .publish
  · subst hpublish
    obtain ⟨_, _, _, p, _, _, hresumes, hphase⟩ := specific_of_publish hbus hok.2.1 hstep
    rw [hphase] at hemm
    cases phaseAfter_eq_publishing hemm
    have hnone : n.resumes? = none := by
      cases hresumes with
      | spared _ h => exact h.resumes
      | deleted _ _ hnone => exact hnone
      | parked _ _ _ _ hnone _ => exact hnone
      | unparked _ h _ => exact h.resumes
    cases hnone.symm.trans hn
  exact .inl ⟨hreceive, hpublish, (traffic_of_step hreceive hpublish hstep).1.symm.trans hemm⟩

/-- An identification that ends in a collision parks its parent; where that is not the UE's present
specific procedure, no timer is started. -/
theorem parks_of_collides (hfits : s.RetryFits a) (hbus : s.bus.Live)
    (hstep : s.step? a = some s') {ue old : UeId} {parent : Option ProcedureId}
    (h : Moment.Collides ⟨s, a, s'⟩ ue parent old) :
    (∃ q deadline, s.mme.specific? ue = some q ∧ parent = some q.id ∧
        s.mme.timers.now.after? s.config.retryInterval = some deadline ∧
        s'.mme.specific? ue = some (q.park s.mme.timers.nextId old deadline)) ∨
      (∀ q, s.mme.specific? ue = some q → parent ≠ some q.id) ∧
        s'.mme.specific? = s.mme.specific? ∧ s.mme.timers.Fewer s'.mme.timers := by
  obtain ⟨subject, n, claim, holder, hemm, hpublished, rfl, rfl, rfl⟩ := h
  obtain ⟨rfl, _⟩ := published?_eq_some hpublished
  obtain ⟨_, _, _, p, hemm', _, hresumes, _⟩ := specific_of_publish hbus hfits hstep
  cases hemm.symm.trans hemm'
  cases hresumes with
  | spared hnext _ => exact absurd hnext (by simp [Resumption.displacing?])
  | deleted hnext _ _ => cases hnext
  | parked hq hparent hdeadline hspecific _ _ =>
      exact .inl ⟨_, _, hq, hparent, hdeadline, by rw [hspecific, Function.update_self]⟩
  | unparked hparent h htimers => exact .inr ⟨hparent, h.specific, htimers⟩

/-- The timer is armed for the deadline and for no other, and none of its expiries has come before
that. -/
structure Timed (s : System) (timer : TimerId) (deadline : Instant) : Prop where
  issued : s.mme.timers.Issued timer
  armed : ∀ b ∈ s.mme.timers.armed, b.id = timer → b.deadline = deadline
  due : ∀ e ∈ s.undelivered, e.timer = timer → deadline.millis ≤ s.mme.timers.now.millis

theorem now_le_of_step (hstep : s.step? a = some s') :
    s.mme.timers.now.millis ≤ s'.mme.timers.now.millis :=
  (turns_of_step hstep).now_le

theorem undelivered_of_step (hok : s.TimersOnly a) (hstep : s.step? a = some s') {e : Expiry}
    (he : e ∈ s'.undelivered) : e ∈ s.undelivered ∨
      ∃ b ∈ s.mme.timers.armed, b.expiry = e ∧ a = .fire b.id ∧ s.mme.timers.isDue b = true := by
  by_cases hfire : ∃ timer, a = .fire timer
  · obtain ⟨timer, rfl⟩ := hfire
    obtain ⟨b, hb, rfl, hdue, rfl⟩ := fireOne?_eq_some hstep
    simp only [undelivered, List.mem_append, List.mem_singleton] at he ⊢
    rcases he with (he | rfl) | he
    · exact .inl (.inl he)
    · exact .inr ⟨b, hb, rfl, rfl, hdue⟩
    · exact .inl (.inr he)
  · have hfewer := countP_undelivered hok.1 (fun timer ha => hfire ⟨timer, ha⟩) hstep fun x => x = e
    have hpos : 0 < s'.undelivered.countP fun x => x = e :=
      List.countP_pos_iff.2 ⟨e, he, by simp⟩
    obtain ⟨x, hx, hxe⟩ := List.countP_pos_iff.1 (Nat.lt_of_lt_of_le hpos
      (Nat.le_of_add_right_le hfewer))
    rw [of_decide_eq_true hxe] at hx
    exact .inl hx

theorem timed_step (hok : s.TimersOnly a) (hstep : s.step? a = some s') {timer : TimerId}
    {deadline : Instant} (hs : s.Timed timer deadline) : s'.Timed timer deadline := by
  have hturns := turns_of_step hstep
  have harmed := hturns.mem_armed (hs.issued.ne_next hok.2)
  have hnow := now_le_of_step hstep
  refine ⟨hs.issued.turns hturns hok.2, fun b hb hid => hs.armed b (harmed b hb hid) hid, ?_⟩
  intro e he hid
  obtain hbefore | ⟨b, hb, rfl, _, hdue⟩ := undelivered_of_step hok hstep he
  · exact (hs.due e hbefore hid).trans hnow
  · have hdeadline := hs.armed b hb hid
    simp only [Timers.isDue, decide_eq_true_eq, hdeadline] at hdue
    exact hdue.trans hnow

/-- No timer has or has had the identifier that is given out next. -/
def NextUnused (s : System) : Prop :=
  (∀ b ∈ s.mme.timers.armed, b.id ≠ s.mme.timers.nextId) ∧
    ∀ e ∈ s.undelivered, e.timer ≠ s.mme.timers.nextId

theorem nextUnused_of_path {config : NasConfig} {inboxCapacity busCapacity : Nat}
    {ms : List Moment} (path : Path TimersOnly (idle config inboxCapacity busCapacity) ms s)
    (hids : s.FreshIds) : s.NextUnused := by
  have hsingle := single_of_path path s.mme.timers.nextId
  have hnone := Nat.eq_zero_of_not_pos fun hpos => (hsingle.issued hpos).ne_next hids rfl
  constructor
  · intro b hb hid
    have hpos : 0 < s.mme.timers.armed.countP fun b => b.id = s.mme.timers.nextId :=
      List.countP_pos_iff.2 ⟨b, hb, by simpa using hid⟩
    omega
  · intro e he hid
    have hpos : 0 < s.undelivered.countP fun e => e.timer = s.mme.timers.nextId :=
      List.countP_pos_iff.2 ⟨e, he, by simpa using hid⟩
    omega

theorem timed_of_started (hok : s.TimersOnly a) (hstep : s.step? a = some s')
    (hunused : s.NextUnused) {ue : UeId} {kind : TimerKind} {interval : Duration}
    {deadline : Instant} (hdeadline : s.mme.timers.now.after? interval = some deadline)
    (htimers : (s.mme.timers.start ue kind interval).Fewer s'.mme.timers) :
    s'.Timed s.mme.timers.nextId deadline := by
  obtain ⟨harmed, hundelivered⟩ := hunused
  constructor
  · rw [Timers.Issued, htimers.nextId]
    exact Ledger.issued_next (.inr rfl)
  · intro b hb hid
    rcases List.mem_append.1 (htimers.armed.subset hb) with hb | hb
    · exact absurd hid (harmed b hb)
    · rw [List.mem_singleton.1 hb, Timers.deadline, hdeadline]
      rfl
  · intro e he hid
    obtain hbefore | ⟨b, hb, rfl, _, _⟩ := undelivered_of_step hok hstep he
    · exact absurd hid (hundelivered e hbefore)
    · exact absurd hid (harmed b hb)

end System

end Emm
