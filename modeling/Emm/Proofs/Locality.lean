import Emm.Proofs.Attribution
import Emm.Proofs.Registration

/-!
What a handler leaves alone. It changes things of the UE that its message is about, and, where it
displaces the owner of an IMSI, the cause in the context of that owner. What is kept for another UE
stays as it is: the context, the entries in the tables of owners, the armed timers.

Main statements: `begin_passesBy` and `resume_passesBy`. The timers need the most care, as handlers
stop them by identifier: `Apart` counts on identifiers that do not lead to the timer of another UE.
-/

namespace Emm

namespace Ledger

def armedOf (l : Ledger) (v : UeId) : List ArmedTimer :=
  l.timers.armed.filter fun a => a.expiry.ue = v

/-- A change that leaves the timers of the UE as they are, and attributed. -/
def Apart (v : UeId) (l l' : Ledger) : Prop :=
  l.Attributed → l'.Attributed ∧ l'.armedOf v = l.armedOf v

variable {l l' l'' : Ledger} {v ue : UeId}

namespace Apart

theorem refl (v : UeId) (l : Ledger) : l.Apart v l := fun h => ⟨h, rfl⟩

theorem trans (h : l.Apart v l') (h' : l'.Apart v l'') : l.Apart v l'' := by
  intro hl
  obtain ⟨hl', harmed⟩ := h hl
  obtain ⟨hl'', harmed'⟩ := h' hl'
  exact ⟨hl'', harmed'.trans harmed⟩

theorem of_eq (h : l' = l) : l.Apart v l' := by
  rw [h]
  exact refl v l

theorem drop (l : Ledger) (hue : ue ≠ v) (kinds : List TimerKind) :
    l.Apart v (l.drop ue kinds) := by
  intro hl
  refine ⟨hl.drop ue kinds, ?_⟩
  simp only [armedOf, Ledger.drop, List.filter_filter]
  refine List.filter_congr fun a ha => ?_
  by_cases hv : a.expiry.ue = v
  · have hkept : a.id ∉ kinds.filterMap (l.handle ue) := by
      intro hmem
      obtain ⟨kind, _, hid⟩ := List.mem_filterMap.1 hmem
      exact hue (((hl.recorded ue kind a.id hid).2 a ha rfl).symm.trans hv)
    simp [hv, hkept]
  · simp [hv]

theorem restart (l : Ledger) (hue : ue ≠ v) (kind : TimerKind) (interval : Duration)
    (hnext : l.timers.nextId.val ≠ 0) : l.Apart v (l.restart ue kind interval) := by
  refine (drop l hue [kind]).trans fun hl => ⟨hl.start ue kind interval hnext, ?_⟩
  simp [armedOf, Ledger.restart, Ledger.start, Timers.start, hue]

theorem take (l : Ledger) (v : UeId) (e : Expiry) : l.Apart v (l.take e) :=
  fun hl => ⟨hl.take e, rfl⟩

end Apart

end Ledger

/-- What is kept for the UE is the same: its context, the IMSIs that each table has under it, and
its armed timers. -/
structure Mme.AlikeFor (v : UeId) (m m' : Mme) : Prop where
  context : m'.context? v = m.context? v
  index : ∀ imsi, m'.store.owner? imsi = some v ↔ m.store.owner? imsi = some v
  registry : ∀ imsi, m'.registry.owner? imsi = some v ↔ m.registry.owner? imsi = some v
  timers : (m'.timers.armed.filter fun a => a.expiry.ue = v) =
    m.timers.armed.filter fun a => a.expiry.ue = v

/-- A change that leaves everything of the UE as it is. That it does so with the timers depends on
whether identifiers lead to the right ones. -/
structure Mme.Apart (v : UeId) (m m' : Mme) : Prop where
  context : m'.context? v = m.context? v
  index : ∀ imsi, m'.store.owner? imsi = some v ↔ m.store.owner? imsi = some v
  registry : ∀ imsi, m'.registry.owner? imsi = some v ↔ m.registry.owner? imsi = some v
  ledger : m.ledger.Apart v m'.ledger

namespace Mme

variable {v ue : UeId} {m m' m'' : Mme}

namespace Apart

theorem refl (v : UeId) (m : Mme) : m.Apart v m :=
  ⟨rfl, fun _ => Iff.rfl, fun _ => Iff.rfl, .refl v _⟩

theorem trans (h : m.Apart v m') (h' : m'.Apart v m'') : m.Apart v m'' where
  context := h'.context.trans h.context
  index imsi := (h'.index imsi).trans (h.index imsi)
  registry imsi := (h'.registry imsi).trans (h.registry imsi)
  ledger := h.ledger.trans h'.ledger

theorem alikeFor (h : m.Apart v m') (hm : m.ledger.Attributed) : m.AlikeFor v m' :=
  ⟨h.context, h.index, h.registry, (h.ledger hm).2⟩

theorem of_sameOwners (h : m.SameOwners m') (hcontext : m'.context? v = m.context? v)
    (hledger : m.ledger.Apart v m'.ledger) : m.Apart v m' where
  context := hcontext
  index imsi := by rw [h.index imsi]
  registry imsi := by rw [h.registry]
  ledger := hledger

end Apart

theorem apart_emit (v : UeId) (m : Mme) (e : Log.Event) : m.Apart v (m.emit e) where
  context := rfl
  index _ := Iff.rfl
  registry _ := Iff.rfl
  ledger := .refl v m.ledger

theorem apart_noteRefusal (v : UeId) (m : Mme) (n : Notification) (d : Delivery) :
    m.Apart v (m.noteRefusal n d) := by
  cases d with
  | accepted => exact .refl v m
  | refused e => exact apart_emit v m _

theorem apart_modifyContext (m : Mme) (hue : ue ≠ v) {f : Context → Context}
    (himsi : ∀ c, (f c).imsi = c.imsi) (hprocedures : ∀ c, (f c).procedures = c.procedures) :
    m.Apart v (m.modifyContext ue f) := by
  refine .of_sameOwners (m.sameOwners_modifyContext ue himsi) ?_ ?_
  · rw [context?_modifyContext, if_neg hue.symm]
  · exact .of_eq (m.ledger_modifyContext ue hprocedures)

theorem apart_enterIdentification (m : Mme) (hue : ue ≠ v) {c : Context}
    (hc : m.context? ue = some c) (requested : IdentityType) (parent : Option ProcedureId) :
    m.Apart v (m.enterIdentification ue c requested parent) := by
  refine .of_sameOwners (m.sameOwners_enterIdentification ue c requested parent) ?_ ?_
  · unfold enterIdentification
    split
    · rw [context?_setIdentification, if_neg hue.symm, context?_emit]
    · simp only [context?_setIdentification, if_neg hue.symm]
      rfl
  · exact .of_eq (m.ledger_enterIdentification ue hc requested parent)

theorem apart_armT3470 (m : Mme) (hue : ue ≠ v) (interval : Duration)
    (hnext : m.timers.nextId.val ≠ 0) : m.Apart v (m.armT3470 interval ue) := by
  refine .of_sameOwners (m.sameOwners_armT3470 ue interval) ?_ ?_
  · unfold armT3470
    split
    · simp only [context?_emit, context?_setIdentification, if_neg hue.symm, context?_startTimer,
        context?_stopTimers]
    · rfl
  · rcases m.ledger_armT3470 ue interval with h | h
    · exact .of_eq h
    · rw [h]
      exact .restart m.ledger hue _ interval hnext

theorem apart_disarm (m : Mme) (hue : ue ≠ v) {p : Identification}
    (hp : m.identification? ue = some p) {q : Option Identification}
    (hq : q.bind (·.t3470) = none) :
    m.Apart v ((m.setIdentification ue q).stopTimers p.t3470.toList) := by
  refine .of_sameOwners
    ((m.sameOwners_setIdentification ue q).trans (sameOwners_stopTimers _ _)) ?_ ?_
  · rw [context?_stopTimers, context?_setIdentification, if_neg hue.symm]
  · rw [m.ledger_dropT3470 ue hp hq]
    exact .drop m.ledger hue _

theorem apart_releaseIdentification (m : Mme) (hue : ue ≠ v) :
    m.Apart v (m.releaseIdentification ue) := by
  unfold releaseIdentification
  split
  · rename_i p hp
    exact m.apart_disarm hue hp rfl
  · exact .refl v m

theorem apart_deleteProcedures (m : Mme) (hue : ue ≠ v) : m.Apart v (m.deleteProcedures ue) := by
  refine .of_sameOwners (m.sameOwners_deleteProcedures ue) ?_ ?_
  · unfold deleteProcedures
    split
    · rw [context?_stopTimers, context?_modifyContext, if_neg hue.symm]
    · rfl
  · cases hc : m.context? ue with
    | none =>
        refine .of_eq ?_
        unfold deleteProcedures
        rw [hc]
    | some c =>
        rw [m.ledger_deleteProcedures ue hc]
        exact .drop m.ledger hue _

theorem apart_assign (m : Mme) (hue : ue ≠ v) {imsi : Imsi}
    (hindex : m.store.owner? imsi ≠ some v) :
    m.Apart v ((m.modifyContext ue fun c => { c with imsi := some imsi }).claim imsi ue) where
  context := by rw [context?_claim, context?_modifyContext, if_neg hue.symm]
  index i := by
    rw [owner?_claim, owner?_modifyContext]
    by_cases hi : i = imsi
    · subst hi
      simp [hue, hindex]
    · rw [if_neg hi]
  registry i := by rw [registry_claim, registry_modifyContext]
  ledger := by
    refine .of_eq ((ledger_of_procedures (fun u => ?_) (timers_claim _ _ _)).trans
      (m.ledger_modifyContext _ fun _ => rfl))
    rw [context?_claim]

theorem apart_parkParent (m : Mme) (hue : ue ≠ v) (interval : Duration)
    (parent : Option ProcedureId) (old : UeId) (hnext : m.timers.nextId.val ≠ 0) :
    m.Apart v (m.parkParent interval ue parent old).1 := by
  refine .of_sameOwners (m.sameOwners_parkParent ue interval parent old) ?_ ?_
  · unfold parkParent
    split
    · rfl
    · split
      · rfl
      · simp only
        split
        · simp only [context?_emit, context?_setSpecific, if_neg hue.symm, context?_startTimer,
            context?_stopTimers]
        · simp only [context?_setSpecific, if_neg hue.symm, context?_startTimer,
            context?_stopTimers]
  · rcases m.ledger_parkParent ue interval parent old with h | h
    · exact .of_eq h
    · rw [h]
      exact .restart m.ledger hue _ interval hnext

theorem apart_takeT3470 (m : Mme) (hue : ue ≠ v) {p q : Identification}
    (hp : m.identification? ue = some p) (hq : q.t3470 = none) (timer : TimerId) :
    m.Apart v (m.setIdentification ue (some q)) := by
  refine .of_sameOwners (m.sameOwners_setIdentification ue _) ?_ ?_
  · rw [context?_setIdentification, if_neg hue.symm]
  · rw [m.ledger_takeT3470 ue hp hq timer]
    exact .take m.ledger v _

theorem apart_takeRetry (m : Mme) (hue : ue ≠ v) {s q : Specific} (hs : m.specific? ue = some s)
    (hq : q.retryTimer = none) (timer : TimerId) : m.Apart v (m.setSpecific ue (some q)) := by
  refine .of_sameOwners (m.sameOwners_setSpecific ue _) ?_ ?_
  · rw [context?_setSpecific, if_neg hue.symm]
  · rw [m.ledger_takeRetry ue hs hq timer]
    exact .take m.ledger v _

theorem apart_tearDown (m : Mme) (hue : ue ≠ v) : m.Apart v (m.tearDown ue) where
  context := by rw [context?_tearDown, if_neg hue.symm]
  index imsi := by
    rw [owner?_tearDown]
    split
    · simp only [Option.filter_eq_some_iff, decide_eq_true_eq]
      exact ⟨fun h => h.1, fun h => ⟨h, hue.symm⟩⟩
    · exact Iff.rfl
  registry imsi := by
    rw [registry_tearDown, Registry.owner?_unregister]
    simp only [Option.filter_eq_some_iff, decide_eq_true_eq]
    exact ⟨fun h => h.1, fun h => ⟨h, hue.symm⟩⟩
  ledger := by
    rcases m.ledger_tearDown ue with h | h
    · exact .of_eq h
    · rw [h]
      exact .drop m.ledger hue _

theorem apart_unregister (m : Mme) (hue : ue ≠ v) : m.Apart v (m.unregister ue) where
  context := rfl
  index _ := Iff.rfl
  registry imsi := by
    simp only [unregister, Registry.owner?_unregister, Option.filter_eq_some_iff,
      decide_eq_true_eq]
    exact ⟨fun h => h.1, fun h => ⟨h, hue.symm⟩⟩
  ledger := .refl v _

end Mme

/-- The handler goes on with other UEs. -/
def Resumption.Avoids (v : UeId) : Resumption → Prop
  | requested ue _ => ue ≠ v
  | displaced claim holder => claim.ue ≠ v ∧ holder.ue ≠ v
  | exhausted ue | failed ue => ue ≠ v
  | announced | unresolved _ | violated _ | confirmed _ | finished => True

/-- What is published is about another UE, and so is what comes after it. -/
def Progress.Avoids (v : UeId) : Progress → Prop
  | publish n next => n.ue ≠ v ∧ next.Avoids v
  | done _ => True

/-- The turn leaves everything of the UE as it is, and so will the next one. -/
structure Mme.PassesBy (v : UeId) (m : Mme) (turn : Mme × Progress) : Prop where
  apart : m.Apart v turn.1
  avoids : turn.2.Avoids v

namespace Mme

variable {v ue : UeId} {m m' : Mme}

theorem PassesBy.after {turn : Mme × Progress} (h : m.Apart v m') (hturn : m'.PassesBy v turn) :
    m.PassesBy v turn :=
  ⟨h.trans hturn.apart, hturn.avoids⟩

theorem requestFailed_passesBy (v : UeId) (m : Mme) (ue : UeId) (purpose : RequestPurpose)
    (e : IdentificationError) : m.PassesBy v (m.requestFailed ue purpose e) := by
  unfold requestFailed
  split
  · exact ⟨.refl v m, trivial⟩
  · exact ⟨m.apart_emit v _, trivial⟩
  · split
    · exact ⟨m.apart_emit v _, trivial⟩
    · exact ⟨m.apart_emit v _, trivial⟩

section

variable (m : Mme) (hue : ue ≠ v)

include hue

theorem request_passesBy (purpose : RequestPurpose) : m.PassesBy v (m.request ue purpose) := by
  unfold request
  split
  · exact .after (m.apart_emit v _) (requestFailed_passesBy v _ ue purpose _)
  · split
    · exact requestFailed_passesBy v m ue purpose _
    · exact ⟨.refl v m, hue, hue⟩

theorem start_passesBy (requested : IdentityType) (parent : Option ProcedureId) :
    m.PassesBy v (m.start ue requested parent) := by
  unfold start
  split
  · exact ⟨.refl v m, trivial⟩
  · split
    · exact ⟨.refl v m, trivial⟩
    · rename_i c hc
      split
      · exact ⟨.refl v m, trivial⟩
      · exact .after ((m.apart_enterIdentification hue hc requested parent).trans
          (apart_emit v _ _)) (request_passesBy _ hue .start)

theorem conclude_passesBy (previousState : EmmState) (completion : Completion) :
    m.PassesBy v (m.conclude ue previousState completion) :=
  ⟨m.apart_releaseIdentification hue, hue, trivial⟩

omit hue in
theorem giveUp_passesBy (claim : Claim) (hue : claim.ue ≠ v) (e : IdentificationError) :
    m.PassesBy v (m.giveUp claim e) :=
  ⟨(m.apart_emit v _).trans (apart_releaseIdentification _ hue), hue, trivial⟩

omit hue in
theorem findHolder_apart (ue : UeId) {imsi : Imsi} (hindex : m.store.owner? imsi ≠ some v)
    (hregistry : m.registry.owner? imsi ≠ some v) :
    m.Apart v (m.findHolder ue imsi).1 ∧
      ∀ holder, (m.findHolder ue imsi).2 = some holder → holder.ue ≠ v := by
  have happlication : ∀ m₁ : Mme, m₁.registry = m.registry →
      m₁.Apart v (m₁.findApplicationHolder ue imsi).1 ∧
        ∀ holder, (m₁.findApplicationHolder ue imsi).2 = some holder → holder.ue ≠ v := by
    intro m₁ hsame
    unfold findApplicationHolder
    split
    · rename_i old hfound
      refine ⟨m₁.apart_emit v _, ?_⟩
      rintro holder ⟨⟩ rfl
      rw [hsame] at hfound
      exact hregistry (Option.filter_eq_some_iff.1 hfound).1
    · exact ⟨.refl v m₁, nofun⟩
  unfold findHolder
  split
  · rename_i old hfound
    split
    · refine ⟨m.apart_emit v _, ?_⟩
      rintro holder ⟨⟩ rfl
      exact hindex (Option.filter_eq_some_iff.1 hfound).1
    · obtain ⟨hapart, hholder⟩ := happlication (m.emit (.indexStale old imsi)) rfl
      exact ⟨(m.apart_emit v _).trans hapart, hholder⟩
  · exact happlication m rfl

omit hue in
theorem settleImsi_passesBy (claim : Claim) (hue : claim.ue ≠ v)
    (hindex : m.store.owner? claim.imsi ≠ some v)
    (hregistry : m.registry.owner? claim.imsi ≠ some v) :
    m.PassesBy v (m.settleImsi claim) := by
  obtain ⟨hfind, hholder⟩ := m.findHolder_apart claim.ue hindex hregistry
  have hstore := (hfind.index claim.imsi).not.2 hindex
  unfold settleImsi
  split
  · rename_i m₁ holder heq
    rw [heq] at hfind hholder
    have hne := hholder holder rfl
    refine ⟨hfind, ?_, hue, hne⟩
    cases holder <;> exact hne
  · rename_i m₁ heq
    rw [heq] at hfind hstore
    refine .after hfind ?_
    unfold assign
    split
    · rename_i m₂ hassign
      split at hassign
      · cases hassign
        exact .after (apart_assign m₁ hue hstore) (conclude_passesBy _ hue _ _)
      · cases hassign
    · exact m₁.giveUp_passesBy claim hue _

theorem complete_passesBy (identity : MobileIdentity)
    (hclaimed : ∀ imsi, identity = .imsi imsi →
      m.store.owner? imsi ≠ some v ∧ m.registry.owner? imsi ≠ some v) :
    m.PassesBy v (m.complete ue identity) := by
  unfold complete
  simp only [identification?_emit]
  split
  · exact ⟨(m.apart_emit v _).trans (apart_emit v _ _), trivial⟩
  · rename_i p hp
    have hheard : m.Apart v
        ((((m.emit (.responseReceived ue identity)).setIdentification ue
          (some { p with t3470 := none })).stopTimers p.t3470.toList).modifyContext ue
            (noteEquipment identity)) := by
      refine (m.apart_emit v (.responseReceived ue identity)).trans ?_
      refine (apart_disarm (m.emit _) hue hp rfl).trans (apart_modifyContext _ hue ?_ ?_)
      · intro c
        cases identity <;> rfl
      · intro c
        cases identity <;> rfl
    cases identity with
    | imsi imsi =>
        obtain ⟨hindex, hregistry⟩ := hclaimed imsi rfl
        refine .after hheard (settleImsi_passesBy _ _ hue ?_ ?_)
        · exact (hheard.index imsi).not.2 hindex
        · exact (hheard.registry imsi).not.2 hregistry
    | imei imei => exact .after hheard (conclude_passesBy _ hue _ _)
    | imeisv imeisv => exact .after hheard (conclude_passesBy _ hue _ _)
    | tmsi tmsi =>
        exact ⟨(hheard.trans (apart_emit v _ _)).trans (apart_releaseIdentification _ hue),
          hue, trivial⟩

theorem t3470Expired_passesBy (config : NasConfig) (timer : TimerId) :
    m.PassesBy v (m.t3470Expired config ue timer) := by
  unfold t3470Expired
  split
  · exact ⟨m.apart_emit v _, trivial⟩
  · rename_i c hc
    split
    · exact ⟨m.apart_emit v _, trivial⟩
    · rename_i p hfound
      have hp : m.identification? ue = some p :=
        (identification?_eq_some_iff m ue p).2 ⟨c, hc, (Option.filter_eq_some_iff.1 hfound).1⟩
      have htaken : m.Apart v ((m.setIdentification ue (some { p with
          t3470 := none, expiries := p.expiries + 1 })).emit
            (.t3470Expired ue timer (p.expiries + 1))) :=
        (m.apart_takeT3470 hue hp rfl timer).trans (apart_emit v _ _)
      simp only
      split
      · exact .after htaken (request_passesBy _ hue .retransmission)
      · exact ⟨htaken.trans (apart_emit v _ _), hue, hue⟩

theorem retryExpired_passesBy (timer : TimerId) : m.PassesBy v (m.retryExpired ue timer) := by
  unfold retryExpired
  split
  · exact ⟨m.apart_emit v _, trivial⟩
  · rename_i s hfound
    have hs := (Option.filter_eq_some_iff.1 hfound).1
    exact ⟨(m.apart_takeRetry hue hs rfl timer).trans (apart_emit v _ _), hue, trivial⟩

theorem lowerLayerFailed_passesBy : m.PassesBy v (m.lowerLayerFailed ue) := by
  unfold lowerLayerFailed
  split
  · exact ⟨m.apart_emit v _, trivial⟩
  · exact ⟨m.apart_emit v _, hue, hue⟩

theorem abort_passesBy : m.PassesBy v (m.abort ue) := by
  unfold abort
  split
  · exact ⟨.refl v m, trivial⟩
  · exact ⟨(m.apart_releaseIdentification hue).trans (apart_emit v _ _), trivial⟩

end

/-- A message about another UE, with no IMSI that a table has under this one, is handled apart from
it. -/
theorem begin_passesBy (m : Mme) (config : NasConfig) {msg : Message} (hmsg : msg.ue ≠ v)
    (hclaimed : ∀ ue imsi, msg = .complete ue (.imsi imsi) →
      m.store.owner? imsi ≠ some v ∧ m.registry.owner? imsi ≠ some v) :
    m.PassesBy v (m.begin config msg) := by
  cases msg with
  | start ue requested parent => exact m.start_passesBy hmsg requested parent
  | complete ue identity =>
      refine m.complete_passesBy hmsg identity ?_
      rintro imsi rfl
      exact hclaimed ue imsi rfl
  | expired e =>
      obtain ⟨timer, ue, kind⟩ := e
      cases kind with
      | t3470 => exact m.t3470Expired_passesBy hmsg config timer
      | specificRetry => exact m.retryExpired_passesBy hmsg timer
  | lowerLayerFailure ue => exact m.lowerLayerFailed_passesBy hmsg
  | nonDelivery ue => exact m.request_passesBy hmsg .redelivery
  | abort ue => exact m.abort_passesBy hmsg

theorem requestSucceeded_passesBy (m : Mme) (hue : ue ≠ v) (purpose : RequestPurpose) :
    m.PassesBy v (m.requestSucceeded ue purpose) := by
  cases purpose with
  | start => exact ⟨.refl v m, hue, trivial⟩
  | retransmission => exact ⟨.refl v m, trivial⟩
  | redelivery => exact ⟨m.apart_emit v _, trivial⟩

theorem apart_displace (m : Mme) (hue : ue ≠ v) (interval : Duration)
    (parent : Option ProcedureId) {holder : Holder} (hholder : holder.ue ≠ v)
    (hnext : m.timers.nextId.val ≠ 0) : m.Apart v (m.displace interval ue parent holder).1 := by
  cases holder with
  | context old =>
      have hblamed : m.Apart v (m.modifyContext old fun c => { c with cause := some .illegalUe }) :=
        m.apart_modifyContext hholder (fun _ => rfl) fun _ => rfl
      exact hblamed.trans (apart_parkParent _ hue interval parent old hnext)
  | application old => exact m.apart_parkParent hue interval parent old hnext

theorem followExhaustion_passesBy (m : Mme) (hue : ue ≠ v) :
    m.PassesBy v (m.followExhaustion ue) := by
  unfold followExhaustion
  split
  · exact ⟨m.apart_emit v _, hue, trivial⟩
  · exact ⟨m.apart_emit v _, hue, trivial⟩

theorem resume_passesBy (m : Mme) (config : NasConfig) (n : Notification) {next : Resumption}
    (d : Delivery) (hnext : next.Avoids v) (hids : m.timers.nextId.val ≠ 0) :
    m.PassesBy v (m.resume config n next d) := by
  have hnoted := m.apart_noteRefusal v n d
  unfold resume
  split
  · rename_i ue purpose
    exact .after (m.apart_armT3470 hnext config.t3470Interval hids)
      (requestSucceeded_passesBy _ hnext purpose)
  · exact requestFailed_passesBy v m _ _ _
  · exact ⟨.refl v m, trivial⟩
  · exact ⟨.refl v m, trivial⟩
  · rename_i claim holder
    have hdisplaced := m.apart_displace hnext.1 config.retryInterval claim.parent hnext.2 hids
    split
    · rename_i m₁ heq
      rw [heq] at hdisplaced
      exact .after hdisplaced (conclude_passesBy m₁ hnext.1 _ _)
    · rename_i m₁ crash heq
      rw [heq] at hdisplaced
      exact ⟨hdisplaced, trivial⟩
  · exact m.giveUp_passesBy _ hnext.1 _
  · exact ⟨hnoted, trivial⟩
  · exact ⟨.refl v m, trivial⟩
  · exact ⟨.refl v m, trivial⟩
  · exact ⟨.refl v m, trivial⟩
  · exact ⟨.refl v m, trivial⟩
  · exact .after (hnoted.trans (apart_deleteProcedures _ hnext))
      (followExhaustion_passesBy _ hnext)
  · exact ⟨hnoted.trans (apart_deleteProcedures _ hnext), trivial⟩
  · exact ⟨hnoted, trivial⟩

end Mme

end Emm
