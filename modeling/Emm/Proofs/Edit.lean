import Mathlib.Logic.Relation
import Emm.Proofs.Lookup

/-!
What the handlers can do to the shared state. Between two publications a handler makes a sequence of
edits, and there are twelve kinds of edit. Main statements: `begin_edits` and `resume_edits`. An
invariant of the shared state that every edit keeps is kept by every handler, wherever it stops.
-/

namespace Emm

/-- What a handler starts from: the expiry that it handles, if it handles one, and the identifier
that the next timer will have. -/
structure Occasion where
  expiry : Option Expiry
  nextId : TimerId

/-- One change that a handler makes to the shared state. Between two notifications it starts at most
one timer, so that timer has the identifier that was next at the beginning. -/
inductive Edit (occasion : Occasion) (m : Mme) : Mme → Prop
  | log (log : List Log.Event) : Edit occasion m { m with log }
  | enter {ue : UeId} {c : Context} (requested : IdentityType) (parent : Option ProcedureId)
      (hc : m.context? ue = some c) (hadmits : c.state.admitsIdentification = true) :
      Edit occasion m (m.enterIdentification ue c requested parent)
  | arm (interval : Duration) (ue : UeId) (hnext : m.timers.nextId = occasion.nextId) :
      Edit occasion m (m.armT3470 interval ue)
  | disarm {ue : UeId} {p : Identification} (hp : m.identification? ue = some p) :
      Edit occasion m
        ((m.setIdentification ue (some { p with t3470 := none })).stopTimers p.t3470.toList)
  | equip (ue : UeId) (identity : MobileIdentity) :
      Edit occasion m (m.modifyContext ue (Mme.noteEquipment identity))
  | release (ue : UeId) : Edit occasion m (m.releaseIdentification ue)
  /-- An IMSI is given to a UE only where no other UE is found to own it. -/
  | assign {ue : UeId} {c : Context} {imsi : Imsi} (hc : m.context? ue = some c)
      (hindex : ∀ old, m.store.owner? imsi = some old → old ≠ ue → m.context? old = none)
      (hregistry : ∀ old, m.registry.owner? imsi = some old → old = ue) :
      Edit occasion m ((m.modifyContext ue fun c => { c with imsi := some imsi }).claim imsi ue)
  | blame (old : UeId) :
      Edit occasion m (m.modifyContext old fun c => { c with cause := some .illegalUe })
  | park (interval : Duration) (ue : UeId) (parent : Option ProcedureId) (old : UeId)
      (hnext : m.timers.nextId = occasion.nextId) :
      Edit occasion m (m.parkParent interval ue parent old).1
  | deleteAll (ue : UeId) : Edit occasion m (m.deleteProcedures ue)
  | takeT3470 {ue : UeId} {timer : TimerId} {p : Identification}
      (hoccasion : occasion.expiry = some ⟨timer, ue, .t3470⟩) (hp : m.identification? ue = some p)
      (htimer : p.t3470 = some timer) :
      Edit occasion m
        (m.setIdentification ue (some { p with t3470 := none, expiries := p.expiries + 1 }))
  | takeRetry {ue : UeId} {timer : TimerId} {s : Specific}
      (hoccasion : occasion.expiry = some ⟨timer, ue, .specificRetry⟩)
      (hs : m.specific? ue = some s) (htimer : s.retryTimer = some timer) :
      Edit occasion m
        (m.setSpecific ue (some { s with retryTimer := none, reconciliation := none }))

/-- What a handler may have done after any number of edits. -/
abbrev Edits (occasion : Occasion) : Mme → Mme → Prop :=
  Relation.ReflTransGen (Edit occasion)

/-- The expiry that a message delivers. -/
def Message.expiry? : Message → Option Expiry
  | expired e => some e
  | _ => none

theorem Edits.induct {occasion : Occasion} {P : Mme → Prop}
    (hstep : ∀ m m', Edit occasion m m' → P m → P m') {m m' : Mme} (h : Edits occasion m m')
    (hm : P m) : P m' := by
  induction h with
  | refl => exact hm
  | tail _ hedit ih => exact hstep _ _ hedit ih

namespace Mme

variable {occasion : Occasion} (m : Mme) (ue : UeId)

theorem edits_emit (e : Log.Event) : Edits occasion m (m.emit e) := .single (.log _)

theorem edits_requestFailed (purpose : RequestPurpose) (e : IdentificationError) :
    Edits occasion m (m.requestFailed ue purpose e).1 := by
  unfold requestFailed
  split
  · exact .refl
  · exact edits_emit m _
  · split
    · exact edits_emit m _
    · exact edits_emit m _

theorem edits_request (purpose : RequestPurpose) :
    Edits occasion m (m.request ue purpose).1 := by
  unfold request
  split
  · exact (edits_emit m _).trans (edits_requestFailed _ ue purpose _)
  · split
    · exact edits_requestFailed m ue purpose _
    · exact .refl

theorem edits_requestSucceeded (purpose : RequestPurpose) :
    Edits occasion m (m.requestSucceeded ue purpose).1 := by
  cases purpose with
  | start => exact .refl
  | retransmission => exact .refl
  | redelivery => exact edits_emit m _

theorem edits_start (requested : IdentityType) (parent : Option ProcedureId) :
    Edits occasion m (m.start ue requested parent).1 := by
  unfold start
  split
  · exact .refl
  · split
    · exact .refl
    · rename_i c hc
      split
      · exact .refl
      · rename_i hadmits
        have henter : Edits occasion m (m.enterIdentification ue c requested parent) :=
          .single (.enter requested parent hc (by simpa using hadmits))
        exact (henter.trans (edits_emit _ _)).trans (edits_request _ ue .start)

theorem edits_conclude (previousState : EmmState) (completion : Completion) :
    Edits occasion m (m.conclude ue previousState completion).1 :=
  .single (.release ue)

theorem edits_giveUp (claim : Claim) (e : IdentificationError) :
    Edits occasion m (m.giveUp claim e).1 :=
  (edits_emit m _).trans (.single (.release claim.ue))

theorem edits_findApplicationHolder (imsi : Imsi) :
    Edits occasion m (m.findApplicationHolder ue imsi).1 := by
  unfold findApplicationHolder
  split
  · exact edits_emit m _
  · exact .refl

theorem edits_findHolder (imsi : Imsi) : Edits occasion m (m.findHolder ue imsi).1 := by
  unfold findHolder
  split
  · split
    · exact edits_emit m _
    · exact (edits_emit m _).trans (edits_findApplicationHolder _ ue imsi)
  · exact edits_findApplicationHolder m ue imsi

theorem findApplicationHolder_eq_none {imsi : Imsi}
    (h : (m.findApplicationHolder ue imsi).2 = none) :
    (m.findApplicationHolder ue imsi).1 = m ∧
      ∀ old, m.registry.owner? imsi = some old → old = ue := by
  unfold findApplicationHolder at h ⊢
  split at h
  · cases h
  · rename_i hnone
    refine ⟨rfl, fun old hold => ?_⟩
    simpa [Option.filter_eq_none_iff, hold] using hnone

/-- Nobody is found to hold an IMSI exactly if it is free for the UE to take. -/
theorem findHolder_eq_none {imsi : Imsi} (h : (m.findHolder ue imsi).2 = none) :
    (∀ u, (m.findHolder ue imsi).1.context? u = m.context? u) ∧
      (m.findHolder ue imsi).1.store = m.store ∧
      (m.findHolder ue imsi).1.registry = m.registry ∧
      (∀ old, m.store.owner? imsi = some old → old ≠ ue → m.context? old = none) ∧
      ∀ old, m.registry.owner? imsi = some old → old = ue := by
  unfold findHolder at h ⊢
  split at h
  · rename_i old hold
    obtain ⟨howner, hne⟩ := Option.filter_eq_some_iff.1 hold
    split at h
    · cases h
    · rename_i habsent
      obtain ⟨hsame, hfree⟩ := findApplicationHolder_eq_none _ ue h
      rw [if_neg habsent, hsame]
      refine ⟨fun _ => rfl, rfl, rfl, fun other hother _ => ?_, hfree⟩
      cases howner.symm.trans hother
      simpa [contains_eq_isSome] using habsent
  · rename_i hnone
    obtain ⟨hsame, hfree⟩ := findApplicationHolder_eq_none m ue h
    rw [hsame]
    refine ⟨fun _ => rfl, rfl, rfl, fun old hold hne => ?_, hfree⟩
    simp [Option.filter_eq_none_iff, hold] at hnone
    exact absurd hnone hne

theorem edits_settleImsi (claim : Claim) : Edits occasion m (m.settleImsi claim).1 := by
  have hfind : Edits occasion m (m.findHolder claim.ue claim.imsi).1 :=
    edits_findHolder m claim.ue claim.imsi
  unfold settleImsi
  split
  · rename_i m₁ holder heq
    rw [heq] at hfind
    exact hfind
  · rename_i m₁ heq
    have hnone : (m.findHolder claim.ue claim.imsi).2 = none := by rw [heq]
    have hfree := findHolder_eq_none m claim.ue hnone
    rw [heq] at hfind hfree
    obtain ⟨hcontext, hstore, hregistry, hindex, happlication⟩ := hfree
    unfold assign
    split
    · rename_i m₂ hassign
      split at hassign
      · rename_i hpresent
        cases hassign
        obtain ⟨c, hc⟩ := Option.isSome_iff_exists.1 hpresent
        have hassigned : Edit occasion m₁ ((m₁.modifyContext claim.ue fun c =>
            { c with imsi := some claim.imsi }).claim claim.imsi claim.ue) := by
          refine .assign hc (fun old hold hne => ?_) (fun old hold => ?_)
          · rw [hcontext]
            exact hindex old (by rwa [hstore] at hold) hne
          · exact happlication old (by rwa [hregistry] at hold)
        exact (hfind.tail hassigned).trans (edits_conclude _ _ _ _)
      · cases hassign
    · exact hfind.trans (edits_giveUp m₁ claim _)

theorem edits_complete (identity : MobileIdentity) :
    Edits occasion m (m.complete ue identity).1 := by
  unfold complete
  simp only [identification?_emit]
  split
  · exact (edits_emit m _).trans (edits_emit _ _)
  · rename_i p hp
    have htaken : Edits occasion m
        ((((m.emit (.responseReceived ue identity)).setIdentification ue
          (some { p with t3470 := none })).stopTimers p.t3470.toList).modifyContext ue
            (noteEquipment identity)) :=
      ((edits_emit m _).tail (.disarm hp)).tail (.equip ue identity)
    cases identity with
    | imsi imsi => exact htaken.trans (edits_settleImsi _ _)
    | imei imei => exact htaken.trans (edits_conclude _ ue _ _)
    | imeisv imeisv => exact htaken.trans (edits_conclude _ ue _ _)
    | tmsi tmsi => exact (htaken.trans (edits_emit _ _)).tail (.release ue)

theorem edits_displace (interval : Duration) (parent : Option ProcedureId) (holder : Holder)
    (hnext : m.timers.nextId = occasion.nextId) :
    Edits occasion m (m.displace interval ue parent holder).1 := by
  cases holder with
  | context old =>
      exact (Relation.ReflTransGen.single (.blame old)).tail (.park interval ue parent old hnext)
  | application old => exact .single (.park interval ue parent old hnext)

theorem edits_t3470Expired (config : NasConfig) {timer : TimerId}
    (hoccasion : occasion.expiry = some ⟨timer, ue, .t3470⟩) :
    Edits occasion m (m.t3470Expired config ue timer).1 := by
  unfold t3470Expired
  split
  · exact edits_emit m _
  · rename_i c hc
    split
    · exact edits_emit m _
    · rename_i p hp
      obtain ⟨hrecord, htimer⟩ := Option.filter_eq_some_iff.1 hp
      have hident : m.identification? ue = some p :=
        (identification?_eq_some_iff m ue p).2 ⟨c, hc, hrecord⟩
      have htaken : Edits occasion m
          (m.setIdentification ue (some { p with t3470 := none, expiries := p.expiries + 1 })) :=
        .single (.takeT3470 hoccasion hident (by simpa using htimer))
      have hlogged := htaken.trans (edits_emit _ (.t3470Expired ue timer (p.expiries + 1)))
      simp only
      split
      · exact hlogged.trans (edits_request _ ue .retransmission)
      · exact hlogged.trans (edits_emit _ _)

theorem edits_retryExpired {timer : TimerId}
    (hoccasion : occasion.expiry = some ⟨timer, ue, .specificRetry⟩) :
    Edits occasion m (m.retryExpired ue timer).1 := by
  unfold retryExpired
  split
  · exact edits_emit m _
  · rename_i s hs
    obtain ⟨hrecord, htimer⟩ := Option.filter_eq_some_iff.1 hs
    have htaken : Edits occasion m
        (m.setSpecific ue (some { s with retryTimer := none, reconciliation := none })) :=
      .single (.takeRetry hoccasion hrecord (by simpa using htimer))
    exact htaken.trans (edits_emit _ _)

theorem edits_followExhaustion : Edits occasion m (m.followExhaustion ue).1 := by
  unfold followExhaustion
  split
  · exact edits_emit m _
  · exact edits_emit m _

theorem edits_lowerLayerFailed : Edits occasion m (m.lowerLayerFailed ue).1 := by
  unfold lowerLayerFailed
  split
  · exact edits_emit m _
  · exact edits_emit m _

theorem edits_abort : Edits occasion m (m.abort ue).1 := by
  unfold abort
  split
  · exact .refl
  · exact (Relation.ReflTransGen.single (.release ue)).trans (edits_emit _ _)

theorem edits_noteRefusal (n : Notification) (d : Delivery) :
    Edits occasion m (m.noteRefusal n d) := by
  cases d with
  | accepted => exact .refl
  | refused e => exact edits_emit m _

theorem begin_edits (config : NasConfig) (msg : Message) :
    Edits ⟨msg.expiry?, m.timers.nextId⟩ m (m.begin config msg).1 := by
  cases msg with
  | start ue requested parent => exact edits_start m ue requested parent
  | complete ue identity => exact edits_complete m ue identity
  | expired e =>
      obtain ⟨timer, ue, kind⟩ := e
      cases kind with
      | t3470 => exact edits_t3470Expired m ue config rfl
      | specificRetry => exact edits_retryExpired m ue rfl
  | lowerLayerFailure ue => exact edits_lowerLayerFailed m ue
  | nonDelivery ue => exact edits_request m ue .redelivery
  | abort ue => exact edits_abort m ue

theorem resume_edits (config : NasConfig) (n : Notification) (next : Resumption)
    (d : Delivery) : Edits ⟨none, m.timers.nextId⟩ m (m.resume config n next d).1 := by
  unfold resume
  split
  · exact (Relation.ReflTransGen.single (.arm _ _ rfl)).trans (edits_requestSucceeded _ _ _)
  · exact edits_requestFailed m _ _ _
  · exact .refl
  · exact .refl
  · rename_i claim holder
    have hdisplace : Edits ⟨none, m.timers.nextId⟩ m
        (m.displace config.retryInterval claim.ue claim.parent holder).1 :=
      edits_displace m claim.ue config.retryInterval claim.parent holder rfl
    split
    · rename_i m₁ heq
      rw [heq] at hdisplace
      exact hdisplace.trans (edits_conclude _ _ _ _)
    · rename_i m₁ crash heq
      rw [heq] at hdisplace
      exact hdisplace
  · exact edits_giveUp m _ _
  · exact edits_noteRefusal m n d
  · exact .refl
  · exact .refl
  · exact .refl
  · exact .refl
  · rename_i ue
    exact ((edits_noteRefusal m n d).tail (.deleteAll ue)).trans (edits_followExhaustion _ ue)
  · rename_i ue
    exact (edits_noteRefusal m n d).tail (.deleteAll ue)
  · exact edits_noteRefusal m n d

end Mme

end Emm
