import Emm.Proofs.Ending
import Emm.Proofs.Locality

/-!
A UE is out of the reach of the others. Contexts, index, registry, timers and channels are shared by
all UEs, and every step of a task works on one UE or two.

Main statement: `ues_isolated`. While nothing about a UE is under way and nobody brings anything
about it up, all that is kept for the UE stays as it is, whatever becomes of the other UEs.
-/

namespace Emm

/-- The action is none on the context of the UE or on its timers. -/
def Bench.Action.LeavesAlone (v : UeId) (armed : List ArmedTimer) : Bench.Action → Prop
  | insert c => c.ue ≠ v
  | remove ue | removeHeld ue _ | setState ue _ | setSecurity ue _ | setImsi ue _ | claim _ ue
  | register _ ue | unregister ue | beginSpecific ue _ | endSpecific ue | endIdentification ue
  | endAll ue | armRetry ue _ | startTimer ue _ _ => ue ≠ v
  | stopTimer id => ∀ a ∈ armed, a.id = id → a.expiry.ue ≠ v
  | stopAllTimers => ∀ a ∈ armed, a.expiry.ue ≠ v
  | contains _ | takeProcedureId | findSpecific .. => True

instance (v : UeId) (armed : List ArmedTimer) :
    (action : Bench.Action) → Decidable (action.LeavesAlone v armed)
  | .insert _ | .remove _ | .removeHeld .. | .setState .. | .setSecurity .. | .setImsi ..
  | .claim .. | .register .. | .unregister _ | .beginSpecific .. | .endSpecific _
  | .endIdentification _ | .endAll _ | .armRetry .. | .startTimer .. =>
      inferInstanceAs (Decidable (_ ≠ _))
  | .stopTimer _ => inferInstanceAs (Decidable (∀ a ∈ _, _ → _))
  | .stopAllTimers => inferInstanceAs (Decidable (∀ a ∈ _, _))
  | .contains _ | .takeProcedureId | .findSpecific .. => .isTrue trivial

/-- The EMM task does not wait with something about the UE. -/
def EmmPhase.Avoids (v : UeId) : EmmPhase → Prop
  | publishing _ n next => n.ue ≠ v ∧ next.Avoids v
  | receiving | stopped | crashed _ => True

namespace Mme

variable {v ue : UeId} (m : Mme)

/-- What the application layer does about another UE. An entry of the registry that it writes over
is one of that UE: the IMSI is that of its context. -/
theorem apart_apply {n : Notification} (hn : n.ue ≠ v) (howned : m.Owned) (hindexed : m.Indexed) :
    m.Apart v (m.apply n) := by
  cases n with
  | sendIdentityRequest ue requested security => exact m.apart_emit v _
  | procedureStarted ue => exact m.apart_emit v _
  | procedureConfirmed ue ending =>
      simp only [apply, registerImsi]
      split
      · split
        · rename_i imsi hcarried
          refine ⟨rfl, fun _ => Iff.rfl, fun i => ?_, .refl v _⟩
          simp only [Registry.owner?_register]
          split
          · rename_i hi
            subst hi
            refine iff_of_false (fun h => hn (Option.some.inj h)) fun h => ?_
            exact hn (Option.some.inj ((howned ue i hcarried).symm.trans (hindexed i v h).1))
          · exact Iff.rfl
        · exact .refl v m
      · exact .refl v m
  | procedureAborted ue ending cause => exact m.apart_emit v _
  | teardownSession ue cause => exact (m.apart_emit v _).trans (apart_tearDown _ hn)
  | applicationTeardown ue =>
      simp only [apply]
      split
      · exact (m.apart_unregister hn).trans (apart_emit v _ _)
      · exact .refl v m
  | specificProcedureRetry ue procedure old =>
      simp only [apply, reportOld]
      split
      · exact (m.apart_emit v _).trans (apart_emit v _ _)
      · exact m.apart_emit v _

theorem context?_onContext (hue : ue ≠ v) (f : Context → Context)
    (reply : Context → Bench.ActionReply) :
    (Bench.onContext m ue f reply).1.context? v = m.context? v := by
  unfold Bench.onContext
  split
  · rw [context?_modifyContext, if_neg hue.symm]
  · rfl

theorem untouched_by_act {action : Bench.Action} (h : action.LeavesAlone v m.timers.armed)
    (hmoves : (∃ c, action = .insert c) ∨ action.movesOwners = false) :
    (action.run m).1.context? v = m.context? v ∧
      (action.run m).1.ledger.armedOf v = m.ledger.armedOf v := by
  have same : ∀ {m' : Mme}, m'.timers = m.timers → m'.ledger.armedOf v = m.ledger.armedOf v := by
    intro m' htimers
    change (m'.timers.armed.filter fun a => a.expiry.ue = v) = _
    rw [htimers]
    rfl
  have fewer : ∀ p : ArmedTimer → Bool, (∀ a ∈ m.timers.armed, a.expiry.ue = v → p a = true) →
      ((m.timers.armed.filter p).filter fun a => a.expiry.ue = v) = m.ledger.armedOf v := by
    intro p hp
    rw [List.filter_filter]
    refine List.filter_congr fun a ha => ?_
    by_cases hv : a.expiry.ue = v
    · simp [hv, hp a ha hv]
    · simp [hv]
  have started : ∀ ue kind interval, ue ≠ v →
      ((m.timers.start ue kind interval).armed.filter fun a => a.expiry.ue = v) =
        m.ledger.armedOf v := by
    intro ue kind interval hue
    simp [Timers.start, Ledger.armedOf, ledger, hue]
  have untouched : ∀ {ue}, ue ≠ v → ∀ f reply,
      (Bench.onContext m ue f reply).1.context? v = m.context? v ∧
        (Bench.onContext m ue f reply).1.ledger.armedOf v = m.ledger.armedOf v :=
    fun hue f reply => ⟨m.context?_onContext hue f reply, same (m.timers_onContext _ f reply)⟩
  cases action with
  | insert c =>
      refine ⟨?_, same (m.timers_insertContext c)⟩
      exact (m.context?_insertContext v c).trans (if_neg (Ne.symm h))
  | remove | removeHeld | setImsi | claim | register | unregister =>
      rcases hmoves with ⟨c, hc⟩ | hstays
      · cases hc
      · cases hstays
  | setState ue state => exact untouched h _ _
  | setSecurity ue security => exact untouched h _ _
  | endSpecific ue => exact untouched h _ _
  | endIdentification ue => exact untouched h _ _
  | endAll ue => exact untouched h _ _
  | findSpecific ue id =>
      refine ⟨?_, same (m.timers_onContext ue _ _)⟩
      simp only [Bench.Action.run, Bench.onContext]
      split
      · rw [context?_modifyContext]
        split
        · exact Option.map_id'
        · rfl
      · rfl
  | contains ue => exact ⟨rfl, rfl⟩
  | takeProcedureId => exact ⟨rfl, rfl⟩
  | beginSpecific ue kind =>
      refine ⟨?_, rfl⟩
      exact (Store.context?_beginSpecific m.store ue v kind).trans (if_neg (Ne.symm h))
  | armRetry ue interval =>
      simp only [Bench.Action.run]
      split
      · refine ⟨?_, started ue .specificRetry interval h⟩
        rw [context?_setSpecific, if_neg (Ne.symm h), context?_startTimer]
      · exact ⟨rfl, started ue .specificRetry interval h⟩
  | startTimer ue kind interval => exact ⟨rfl, started ue kind interval h⟩
  | stopTimer id =>
      refine ⟨m.context?_stopTimers v [id], ?_⟩
      change ((m.stopTimer id).timers.armed.filter fun a => a.expiry.ue = v) = _
      rw [timers_stopTimer]
      exact fewer _ fun a ha hv => by simpa using fun hid => h a ha hid hv
  | stopAllTimers =>
      refine ⟨rfl, ?_⟩
      have hnone := fewer (fun _ => false) fun a ha hv => absurd hv (h a ha)
      rw [← hnone]
      simp [Ledger.armedOf, ledger, Bench.Action.run, Timers.stopAll]

end Mme

namespace System

variable {s s' : System} {a : Move} {v : UeId}

/-- Contexts and tables are written by the tasks, but for contexts that are stored: these bring no
IMSI that the index has under another UE, and no timer of another. -/
def Hosted (s : System) (a : Move) : Prop :=
  s.BringsUnownedImsi a ∧ s.StoresOwnTimers a ∧ s.FreshIds

instance (s : System) (a : Move) : Decidable (s.Hosted a) :=
  inferInstanceAs (Decidable (_ ∧ _ ∧ _))

/-- The IMSI in the response that the EMM task takes next. -/
def imsiAtHand (s : System) : Option Imsi :=
  match s.inbox.queue with
  | .message (.complete _ (.imsi imsi)) :: _ => some imsi
  | _ => none

/-- Nobody brings the UE up: no message about it is sent, no timer of it fires, and no response with
an IMSI that one of the tables has under it is taken. -/
def LeavesAlone (v : UeId) (s : System) : Move → Prop
  | .receive => ∀ imsi ∈ s.imsiAtHand,
      s.mme.store.owner? imsi ≠ some v ∧ s.mme.registry.owner? imsi ≠ some v
  | .fire timer => ∀ b ∈ s.mme.timers.armed, b.id = timer → b.expiry.ue ≠ v
  | .send msg => msg.ue ≠ v
  | .tearDown ue => ue ≠ v
  | .act action => action.LeavesAlone v s.mme.timers.armed
  | _ => True

instance (v : UeId) (s : System) : (a : Move) → Decidable (s.LeavesAlone v a)
  | .receive => inferInstanceAs (Decidable (∀ imsi ∈ _, _ ∧ _))
  | .fire _ => inferInstanceAs (Decidable (∀ b ∈ _, _ → _))
  | .send _ | .tearDown _ => inferInstanceAs (Decidable (_ ≠ _))
  | .act action => inferInstanceAs (Decidable (action.LeavesAlone v s.mme.timers.armed))
  | .publish | .take | .discard | .deliver | .advance _ | .askEmmToStop | .askAppToStop
  | .closeBus => .isTrue trivial

/-- Nothing about the UE is under way. -/
structure Clear (v : UeId) (s : System) : Prop where
  inbox : ∀ msg, .message msg ∈ s.inbox.queue → msg.ue ≠ v
  expiries : ∀ e ∈ s.expiries, e.ue ≠ v
  bus : ∀ n, .message n ∈ s.bus.queue → n.ue ≠ v
  emm : s.emm.Avoids v

theorem attributed_of_path {config : NasConfig} {inboxCapacity busCapacity : Nat}
    {ms : List Moment} (path : Path Hosted (idle config inboxCapacity busCapacity) ms s) :
    s.mme.ledger.Attributed := by
  refine path.induct (P := fun s => s.mme.ledger.Attributed) ?_
    fun _ _ _ hok hstep hs => attributed_step hok.2.2 hok.2.1 hstep hs
  refine ⟨List.nodup_nil, nofun, fun ue kind id hid => ?_⟩
  cases hid

theorem avoids_phaseAfter {p : Progress} (ue : UeId) (h : p.Avoids v) :
    (phaseAfter ue p).Avoids v := by
  cases p with
  | publish n next => exact h
  | done outcome => cases outcome <;> trivial

theorem apart_follow {m : Mme} (h : m.Apart v s.mme) (ue : UeId) (p : Progress) :
    m.Apart v (s.follow ue p).mme := by
  rcases mme_follow s ue p with heq | ⟨e, heq⟩
  · rwa [heq]
  · rw [heq]
    exact h.trans (s.mme.apart_emit v e)

theorem apart_receive (hleaves : s.LeavesAlone v .receive) (hs : s.Clear v)
    (hstep : s.receive? = some s') : s.mme.Apart v s'.mme ∧ s'.emm.Avoids v := by
  obtain ⟨_, ⟨msg, rest, hqueue, rfl⟩ | ⟨_, ⟨log, hlog⟩, hemm, _⟩⟩ := receive?_eq_some hstep
  · have hmsg : msg.ue ≠ v := hs.inbox msg (by simp [hqueue])
    have hpasses := (s.mme.emit (.exchanged .received msg.primitive msg.ue)).begin_passesBy
      s.config hmsg fun ue imsi hclaims => hleaves imsi (by simp [imsiAtHand, hqueue, hclaims])
    rw [beginMessage_eq]
    refine ⟨apart_follow ((s.mme.apart_emit v _).trans hpasses.apart) _ _, ?_⟩
    rw [emm_follow]
    exact avoids_phaseAfter msg.ue hpasses.avoids
  · rw [hlog, hemm]
    exact ⟨⟨rfl, fun _ => Iff.rfl, fun _ => Iff.rfl, .refl v _⟩, trivial⟩

theorem apart_publish (hids : s.FreshIds) (hs : s.Clear v) (hstep : s.publish? = some s') :
    s.mme.Apart v s'.mme ∧ s'.emm.Avoids v := by
  obtain ⟨ue, n, next, s₁, d, hemm, hoffer, rfl⟩ := publish?_eq_some hstep
  have havoids : n.ue ≠ v ∧ next.Avoids v := by
    have hwaits := hs.emm
    rwa [hemm] at hwaits
  have hoffered : s.mme.Apart v s₁.mme ∧ s₁.mme.timers = s.mme.timers := by
    obtain ⟨bus, _, rfl, _⟩ | ⟨_, rfl, _⟩ := offer?_eq_some hoffer
    · exact ⟨s.mme.apart_emit v _, rfl⟩
    · exact ⟨.refl v _, rfl⟩
  have hpasses := s₁.mme.resume_passesBy s₁.config n d havoids.2 (by rwa [hoffered.2])
  rw [resume_eq]
  refine ⟨apart_follow (hoffered.1.trans hpasses.apart) _ _, ?_⟩
  rw [emm_follow]
  exact avoids_phaseAfter ue hpasses.avoids

theorem apart_step (hok : s.Hosted a) (hleaves : s.LeavesAlone v a) (hstep : s.step? a = some s')
    (hconsistent : s.Consistent) (hs : s.Clear v) : s.mme.Apart v s'.mme := by
  have logged : ∀ log, s.mme.Apart v { s.mme with log } := fun log =>
    ⟨rfl, fun _ => Iff.rfl, fun _ => Iff.rfl, .refl v _⟩
  by_cases htake : a = .take
  · subst htake
    obtain ⟨_, _, _, _, ⟨n, rest, hqueue, hmme, _⟩ | ⟨_, ⟨log, hlog⟩⟩⟩ :=
      takeNotification?_eq_some hstep
    · rw [hmme]
      exact s.mme.apart_apply (hs.bus n (by simp [hqueue])) hconsistent.owned hconsistent.indexed
    · rw [hlog]
      exact logged log
  by_cases hreceive : a = .receive
  · subst hreceive
    exact (apart_receive hleaves hs hstep).1
  by_cases hpublish : a = .publish
  · subst hpublish
    exact (apart_publish hok.2.2 hs hstep).1
  -- what is left are the moves past both tasks
  have hattributed := attributed_step hok.2.2 hok.2.1 hstep
  have hchange := step_change hstep
  generalize s'.mme = m' at hchange hattributed
  cases hchange with
  | edits ha _ => exact absurd ha (not_or.2 ⟨hreceive, hpublish⟩)
  | log log => exact logged log
  | apply _ => exact absurd rfl htake
  | @fire b hb hdue =>
      refine ⟨rfl, fun _ => Iff.rfl, fun _ => Iff.rfl, fun hl => ⟨hattributed hl, ?_⟩⟩
      change List.filter _ (List.filter _ _) = List.filter _ _
      rw [List.filter_filter]
      refine List.filter_congr fun x hx => ?_
      by_cases hv : x.expiry.ue = v
      · have hne : x.id ≠ b.id := fun hid => hleaves x hx hid hv
        simp [hv, hne]
      · simp [hv]
  | advance d =>
      exact ⟨rfl, fun _ => Iff.rfl, fun _ => Iff.rfl, fun hl => ⟨hattributed hl, rfl⟩⟩
  | tearDown ue => exact s.mme.apart_tearDown hleaves
  | act action =>
      have hspares : action.LeavesAlone v s.mme.timers.armed := hleaves
      obtain ⟨c, rfl, hunowned⟩ | hstays := hok.1.stores_or_stays
      · obtain ⟨hcontext, harmed⟩ := s.mme.untouched_by_act hspares (.inl ⟨c, rfl⟩)
        refine ⟨hcontext, fun i => ?_, fun i => ?_, fun hl => ⟨hattributed hl, harmed⟩⟩
        · change (s.mme.insertContext c).store.owner? i = some v ↔ _
          rw [Mme.owner?_insertContext]
          split
          · rename_i hbrought
            refine iff_of_false (fun h => hspares (Option.some.inj h)) fun h => ?_
            exact hspares (hunowned v (by simpa [hbrought] using h)).symm
          · exact Iff.rfl
        · change (s.mme.insertContext c).registry.owner? i = some v ↔ _
          rw [Mme.registry_insertContext]
      · obtain ⟨hcontext, harmed⟩ := s.mme.untouched_by_act hspares (.inr hstays)
        exact .of_sameOwners (s.mme.sameOwners_action hstays) hcontext fun hl =>
          ⟨hattributed hl, harmed⟩

theorem mem_bus_of_step {n : Notification} (hstep : s.step? a = some s')
    (hn : .message n ∈ s'.bus.queue) :
    .message n ∈ s.bus.queue ∨ ∃ ue next, a = .publish ∧ s.emm = .publishing ue n next := by
  cases uptake_of_step hstep with
  | still _ hbus =>
      rw [hbus] at hn
      exact .inl hn
  | @published ue n' next hemm hsend =>
      obtain ⟨_, _, _, hbus⟩ := Channel.send_eq_ok hsend
      rw [hbus] at hn
      rcases List.mem_append.1 hn with hn | hn
      · exact .inl hn
      · cases List.mem_singleton.1 hn
        exact .inr ⟨ue, next, rfl, hemm⟩
  | taken _ hqueue hbus =>
      rw [hbus] at hn
      rw [hqueue]
      exact .inl (List.mem_cons_of_mem _ hn)
  | discarded hqueue hbus =>
      rw [hbus] at hn
      rw [hqueue]
      exact .inl (List.mem_cons_of_mem _ hn)
  | asked _ _ hbus =>
      rw [hbus] at hn
      exact .inl (by simpa using hn)
  | stopped _ _ hbus | closed hbus =>
      rw [hbus] at hn
      cases hn

/-- Nothing about the UE gets under way. -/
theorem clear_step (hok : s.Hosted a) (hleaves : s.LeavesAlone v a) (hstep : s.step? a = some s')
    (hs : s.Clear v) : s'.Clear v := by
  have hbus : ∀ n, .message n ∈ s'.bus.queue → n.ue ≠ v := by
    intro n hn
    obtain hbefore | ⟨ue, next, _, hemm⟩ := mem_bus_of_step hstep hn
    · exact hs.bus n hbefore
    · have hwaits := hs.emm
      rw [hemm] at hwaits
      exact hwaits.1
  by_cases hreceive : a = .receive
  · subst hreceive
    have hemm := (apart_receive hleaves hs hstep).2
    obtain ⟨_, ⟨msg, rest, hqueue, rfl⟩ | ⟨_, _, _, hempty, _, hexpiries⟩⟩ :=
      receive?_eq_some hstep
    · refine ⟨fun msg' hmsg' => hs.inbox msg' ?_, ?_, hbus, hemm⟩
      · rw [beginMessage_eq] at hmsg'
        rw [hqueue]
        exact List.mem_cons_of_mem _ (queue_follow_subset _ _ _ _ hmsg')
      · rw [expiries_beginMessage]
        exact hs.expiries
    · refine ⟨fun msg' hmsg' => ?_, ?_, hbus, hemm⟩
      · rw [hempty] at hmsg'
        cases hmsg'
      · rw [hexpiries]
        exact hs.expiries
  by_cases hpublish : a = .publish
  · subst hpublish
    have hemm := (apart_publish hok.2.2 hs hstep).2
    obtain ⟨ue, n, next, s₁, d, _, hoffer, rfl⟩ := publish?_eq_some hstep
    have hoffered : s₁.inbox = s.inbox ∧ s₁.expiries = s.expiries := by
      obtain ⟨bus, _, rfl, _⟩ | ⟨_, rfl, _⟩ := offer?_eq_some hoffer
      · exact ⟨rfl, rfl⟩
      · exact ⟨rfl, rfl⟩
    refine ⟨fun msg' hmsg' => hs.inbox msg' ?_, ?_, hbus, hemm⟩
    · rw [resume_eq] at hmsg'
      have hkept := queue_follow_subset _ _ _ _ hmsg'
      simp only [hoffered.1] at hkept
      exact hkept
    · rw [expiries_resume, hoffered.2]
      exact hs.expiries
  -- past the EMM task nothing is handled: only the inbox and the expiries may change
  obtain ⟨hemm, htraffic⟩ := traffic_of_step hreceive hpublish hstep
  have hwaits : s'.emm.Avoids v := by
    rw [hemm]
    exact hs.emm
  cases htraffic with
  | still hinbox hexpiries =>
      exact ⟨by rw [hinbox]; exact hs.inbox, by rw [hexpiries]; exact hs.expiries, hbus, hwaits⟩
  | fired hinbox hexpiries =>
      obtain ⟨b, hb, hid, _, rfl⟩ := fireOne?_eq_some hstep
      refine ⟨hs.inbox, fun e he => ?_, hbus, hwaits⟩
      rcases List.mem_append.1 he with he | he
      · exact hs.expiries e he
      · rw [List.mem_singleton.1 he]
        exact hleaves b hb hid
  | @delivered e hexpiries hsend =>
      obtain ⟨_, _, _, hinbox⟩ := Channel.send_eq_ok hsend
      refine ⟨fun msg' hmsg' => ?_, fun e' he' => hs.expiries e' ?_, hbus, hwaits⟩
      · rw [hinbox] at hmsg'
        rcases List.mem_append.1 hmsg' with hmsg' | hmsg'
        · exact hs.inbox msg' hmsg'
        · cases List.mem_singleton.1 hmsg'
          exact hs.expiries e (by simp [hexpiries])
      · rw [hexpiries]
        exact List.mem_cons_of_mem _ he'
  | dropped hexpiries hinbox hclosed =>
      refine ⟨by rw [hinbox]; exact hs.inbox, fun e he => hs.expiries e ?_, hbus, hwaits⟩
      rw [hexpiries]
      exact List.mem_cons_of_mem _ he
  | @sent msg hinbox hexpiries =>
      refine ⟨fun msg' hmsg' => ?_, by rw [hexpiries]; exact hs.expiries, hbus, hwaits⟩
      rw [hinbox] at hmsg'
      rcases List.mem_append.1 hmsg' with hmsg' | hmsg'
      · exact hs.inbox msg' hmsg'
      · cases List.mem_singleton.1 hmsg'
        exact hleaves
  | asked hinbox hexpiries =>
      have hquiet : ∀ e ∈ s'.expiries, e.ue ≠ v := by
        rw [hexpiries]
        exact hs.expiries
      refine ⟨fun msg' hmsg' => hs.inbox msg' ?_, hquiet, hbus, hwaits⟩
      rw [hinbox] at hmsg'
      simpa using hmsg'

theorem Clear.published_ne (hs : s.Clear v) {n : Notification}
    (hn : Moment.published? ⟨s, a, s'⟩ = some n) : n.ue ≠ v := by
  have hwaits := hs.emm
  simp only [Moment.published?] at hn
  split at hn
  · rename_i hemm
    rw [hemm] at hwaits
    split at hn
    · cases hn
      exact hwaits.1
    · cases hn
  · cases hn

/-- Start in a state in which no handler waits and nothing about a UE is under way. As long as no
message about the UE is sent, its context is not stored anew or written by its owner, no timer of
it fires, and no response is taken with an IMSI that the index or the registry has under it: the
context of the UE, the IMSIs that the tables have under it and its armed timers stay as they are,
and no notification about it is published. -/
theorem ues_isolated {config : NasConfig} {inboxCapacity busCapacity : Nat} {s₀ : System}
    {ms : List Moment} (h : Reachable Hosted (idle config inboxCapacity busCapacity) s₀)
    (hemm : ∀ ue n next, s₀.emm ≠ .publishing ue n next)
    (hinbox : ∀ msg, .message msg ∈ s₀.inbox.queue → msg.ue ≠ v)
    (hexpiries : ∀ e ∈ s₀.expiries, e.ue ≠ v) (hbus : ∀ n, .message n ∈ s₀.bus.queue → n.ue ≠ v)
    (path : Path (fun s a => s.Hosted a ∧ s.LeavesAlone v a) s₀ ms s) :
    s₀.mme.AlikeFor v s.mme ∧ ∀ x ∈ ms, ∀ n, x.published? = some n → n.ue ≠ v := by
  obtain ⟨ms₀, path₀⟩ := h
  have hconsistent : s₀.Consistent := consistent_of_path (path₀.mono fun _ _ hok => hok.1)
  have hattributed := attributed_of_path path₀
  have hclear : s₀.Clear v := by
    refine ⟨hinbox, hexpiries, hbus, ?_⟩
    cases hphase : s₀.emm with
    | publishing ue n next => exact absurd hphase (hemm ue n next)
    | _ => trivial
  suffices hrun : s.Consistent ∧ s.Clear v ∧ s₀.mme.Apart v s.mme ∧
      ∀ x ∈ ms, ∀ n, x.published? = some n → n.ue ≠ v from
    ⟨hrun.2.2.1.alikeFor hattributed, hrun.2.2.2⟩
  clear hemm hinbox hexpiries hbus
  induction path with
  | nil => exact ⟨hconsistent, hclear, .refl v _, by simp⟩
  | snoc _ hok hstep ih =>
      obtain ⟨hconsistent, hclear, hapart, hpublished⟩ := ih
      refine ⟨consistent_step hok.1.1 hstep hconsistent, clear_step hok.1 hok.2 hstep hclear,
        hapart.trans (apart_step hok.1 hok.2 hstep hconsistent hclear), fun x hx n hn => ?_⟩
      rcases List.mem_append.1 hx with hx | hx
      · exact hpublished x hx n hn
      · rw [List.mem_singleton.1 hx] at hn
        exact hclear.published_ne hn

/-- One UE is being identified. Meanwhile another claims the IMSI of a third, which is torn down. -/
theorem ues_isolated_collision :
    ∃ s₀ s : System, s₀.mme.timers.armed.any (fun b => b.expiry.ue = ⟨1⟩) = true ∧
      s₀.mme.store.contains ⟨3⟩ = true ∧ s.mme.store.contains ⟨3⟩ = false ∧
      s₀.mme.AlikeFor ⟨1⟩ s.mme := by
  let imsi : Imsi := ⟨[0, 0, 1, 0, 1, 0], by decide⟩
  let s₀ := ((idle {} 4 8).walk? Hosted
    [.act (.insert { ue := ⟨1⟩, state := .deregistered }),
      .act (.insert { ue := ⟨2⟩, state := .deregistered }),
      .act (.insert { ue := ⟨3⟩, state := .registered, imsi := some imsi }),
      .send (.start ⟨1⟩ .imsi none), .receive, .publish, .publish, .take, .take]).get
        (by decide +kernel)
  let s := (s₀.walk? (fun s a => s.Hosted a ∧ s.LeavesAlone ⟨1⟩ a)
    [.send (.start ⟨2⟩ .imsi none), .send (.complete ⟨2⟩ (.imsi imsi)), .receive, .publish,
      .publish, .receive, .publish, .publish, .take, .take, .take, .take]).get (by decide +kernel)
  have h : Reachable Hosted (idle {} 4 8) s₀ := Path.of_walk? (Option.some_get _).symm
  obtain ⟨ms, path⟩ :
      ∃ ms, Path (fun s a => s.Hosted a ∧ s.LeavesAlone ⟨1⟩ a) s₀ ms s :=
    Path.of_walk? (Option.some_get _).symm
  have hemm : s₀.emm = .receiving := by decide +kernel
  refine ⟨s₀, s, by decide +kernel, by decide +kernel, by decide +kernel,
    (ues_isolated h (fun ue n next => ?_) (fun msg => ?_) (fun e => ?_) (fun n => ?_) path).1⟩
  · rw [hemm]
    exact nofun
  · have hempty : s₀.inbox.queue = [] := by decide +kernel
    rw [hempty]
    exact nofun
  · have hempty : s₀.expiries = [] := by decide +kernel
    rw [hempty]
    exact nofun
  · have hempty : s₀.bus.queue = [] := by decide +kernel
    rw [hempty]
    exact nofun

end System

end Emm
