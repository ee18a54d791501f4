import Emm.Proofs.Ownership

/-!
How it is settled who owns an IMSI. A turn is a handler's run from one stop to the next. Main
statements: `findHolder_found`, which says who is found to own an IMSI; `begin_settles` and
`resume_aside`, by which an IMSI changes hands in the first turn of the handler that takes a
response with it and in no other; and `settled_of_step`, which says the same of the EMM task.
-/

namespace Emm

/-- The claim that waits for its holder to be displaced. -/
def Resumption.displacing? : Resumption → Option (Claim × Holder)
  | displaced claim holder => some (claim, holder)
  | _ => none

def Progress.displacing? : Progress → Option (Claim × Holder)
  | publish _ next => next.displacing?
  | done _ => none

/-- The UE that a notification has torn down as an illegal one. -/
def Notification.condemned? : Notification → Option UeId
  | teardownSession ue .illegalUe => some ue
  | _ => none

def Progress.condemned? : Progress → Option UeId
  | publish n _ => n.condemned?
  | done _ => none

/-- The index names no other live UE under the IMSI. -/
def Mme.Unheld (m : Mme) (ue : UeId) (imsi : Imsi) : Prop :=
  ∀ old, m.store.owner? imsi = some old → old ≠ ue → m.context? old = none

/-- Whom a UE that claims an IMSI finds in its way. The registry counts only where the index names
no live UE. -/
inductive Found (m : Mme) (ue : UeId) (imsi : Imsi) : Option Holder → Prop
  | context {old : UeId} (hindex : m.store.owner? imsi = some old) (hne : old ≠ ue)
      (hlive : (m.context? old).isSome) : Found m ue imsi (some (.context old))
  | application {old : UeId} (hindex : m.Unheld ue imsi)
      (hregistry : m.registry.owner? imsi = some old) (hne : old ≠ ue) :
      Found m ue imsi (some (.application old))
  | nobody (hindex : m.Unheld ue imsi)
      (hregistry : ∀ old, m.registry.owner? imsi = some old → old = ue) : Found m ue imsi none

theorem Mme.Unheld.of_sameOwners {m m' : Mme} {ue : UeId} {imsi : Imsi} (h : m.SameOwners m')
    (hindex : m'.Unheld ue imsi) : m.Unheld ue imsi := by
  intro old hold hne
  have hgone := hindex old ((h.index imsi).trans hold) hne
  have hsame := h.isSome_context? old
  rw [hgone] at hsame
  simpa using hsame.symm

theorem Found.of_sameOwners {m m' : Mme} {ue : UeId} {imsi : Imsi} {holder : Option Holder}
    (h : m.SameOwners m') (hfound : Found m' ue imsi holder) : Found m ue imsi holder := by
  cases hfound with
  | context hindex hne hlive =>
      refine .context ((h.index imsi).symm.trans hindex) hne ?_
      rwa [← h.isSome_context?]
  | application hindex hregistry hne =>
      exact .application (hindex.of_sameOwners h) (by rwa [← h.registry]) hne
  | nobody hindex hregistry =>
      exact .nobody (hindex.of_sameOwners h) fun old hold => hregistry old (by rwa [h.registry])

namespace Mme

variable (m : Mme) (ue : UeId) (imsi : Imsi)

theorem findApplicationHolder_found (hindex : m.Unheld ue imsi) :
    m.SameOwners (m.findApplicationHolder ue imsi).1 ∧
      Found m ue imsi (m.findApplicationHolder ue imsi).2 := by
  unfold findApplicationHolder
  split
  · rename_i old hold
    obtain ⟨hregistry, hne⟩ := Option.filter_eq_some_iff.1 hold
    exact ⟨m.sameOwners_emit _, .application hindex hregistry (by simpa using hne)⟩
  · rename_i hnone
    refine ⟨.refl m, .nobody hindex fun old hold => ?_⟩
    simpa [Option.filter_eq_none_iff, hold] using hnone

theorem findHolder_found :
    m.SameOwners (m.findHolder ue imsi).1 ∧ Found m ue imsi (m.findHolder ue imsi).2 := by
  unfold findHolder
  split
  · rename_i old hold
    obtain ⟨hindex, hne⟩ := Option.filter_eq_some_iff.1 hold
    split
    · rename_i hlive
      exact ⟨m.sameOwners_emit _, .context hindex (by simpa using hne) hlive⟩
    · rename_i habsent
      have hstale : m.Unheld ue imsi := by
        intro other hother _
        cases hindex.symm.trans hother
        simpa [contains_eq_isSome] using habsent
      have hlogged := m.sameOwners_emit (.indexStale old imsi)
      obtain ⟨howners, hfound⟩ := findApplicationHolder_found (m.emit _) ue imsi hstale
      exact ⟨hlogged.trans howners, hfound.of_sameOwners hlogged⟩
  · rename_i hnone
    refine findApplicationHolder_found m ue imsi fun old hold hne => ?_
    simp [Option.filter_eq_none_iff, hold] at hnone
    exact absurd hnone hne

/-- The turn leaves the owners alone, and the handler does not stop to displace one. -/
structure Aside (m : Mme) (turn : Mme × Progress) : Prop where
  owners : m.SameOwners turn.1
  displacing : turn.2.displacing? = none
  condemned : turn.2.condemned? = none

theorem Aside.after {m m' : Mme} {turn : Mme × Progress} (h : m.SameOwners m')
    (hturn : m'.Aside turn) : m.Aside turn :=
  ⟨h.trans hturn.owners, hturn.displacing, hturn.condemned⟩

theorem requestFailed_aside (purpose : RequestPurpose) (e : IdentificationError) :
    m.Aside (m.requestFailed ue purpose e) := by
  unfold requestFailed
  split
  · exact ⟨.refl m, rfl, rfl⟩
  · exact ⟨m.sameOwners_emit _, rfl, rfl⟩
  · split
    · exact ⟨m.sameOwners_emit _, rfl, rfl⟩
    · exact ⟨m.sameOwners_emit _, rfl, rfl⟩

theorem request_aside (purpose : RequestPurpose) : m.Aside (m.request ue purpose) := by
  unfold request
  split
  · exact .after (m.sameOwners_emit _) (requestFailed_aside _ ue purpose _)
  · split
    · exact requestFailed_aside m ue purpose _
    · exact ⟨.refl m, rfl, rfl⟩

theorem requestSucceeded_aside (purpose : RequestPurpose) :
    m.Aside (m.requestSucceeded ue purpose) := by
  cases purpose with
  | start => exact ⟨.refl m, rfl, rfl⟩
  | retransmission => exact ⟨.refl m, rfl, rfl⟩
  | redelivery => exact ⟨m.sameOwners_emit _, rfl, rfl⟩

theorem start_aside (requested : IdentityType) (parent : Option ProcedureId) :
    m.Aside (m.start ue requested parent) := by
  unfold start
  split
  · exact ⟨.refl m, rfl, rfl⟩
  · split
    · exact ⟨.refl m, rfl, rfl⟩
    · rename_i c hc
      split
      · exact ⟨.refl m, rfl, rfl⟩
      · have hentered := m.sameOwners_enterIdentification ue c requested parent
        exact .after (hentered.trans (sameOwners_emit _ _)) (request_aside _ ue .start)

theorem conclude_aside (previousState : EmmState) (completion : Completion) :
    m.Aside (m.conclude ue previousState completion) :=
  ⟨m.sameOwners_releaseIdentification ue, rfl, rfl⟩

theorem giveUp_aside (claim : Claim) (e : IdentificationError) : m.Aside (m.giveUp claim e) :=
  ⟨(m.sameOwners_emit _).trans (sameOwners_releaseIdentification _ _), rfl, rfl⟩

theorem t3470Expired_aside (config : NasConfig) (timer : TimerId) :
    m.Aside (m.t3470Expired config ue timer) := by
  unfold t3470Expired
  split
  · exact ⟨m.sameOwners_emit _, rfl, rfl⟩
  · split
    · exact ⟨m.sameOwners_emit _, rfl, rfl⟩
    · rename_i p hp
      have htaken := (m.sameOwners_setIdentification ue
        (some { p with t3470 := none, expiries := p.expiries + 1 })).trans
          (sameOwners_emit _ (.t3470Expired ue timer (p.expiries + 1)))
      simp only
      split
      · exact .after htaken (request_aside _ ue .retransmission)
      · exact ⟨htaken.trans (sameOwners_emit _ _), rfl, rfl⟩

theorem retryExpired_aside (timer : TimerId) : m.Aside (m.retryExpired ue timer) := by
  unfold retryExpired
  split
  · exact ⟨m.sameOwners_emit _, rfl, rfl⟩
  · exact ⟨(m.sameOwners_setSpecific ue _).trans (sameOwners_emit _ _), rfl, rfl⟩

theorem lowerLayerFailed_aside : m.Aside (m.lowerLayerFailed ue) := by
  unfold lowerLayerFailed
  split
  · exact ⟨m.sameOwners_emit _, rfl, rfl⟩
  · exact ⟨m.sameOwners_emit _, rfl, rfl⟩

theorem abort_aside : m.Aside (m.abort ue) := by
  unfold abort
  split
  · exact ⟨.refl m, rfl, rfl⟩
  · exact ⟨(m.sameOwners_releaseIdentification ue).trans (sameOwners_emit _ _), rfl, rfl⟩

theorem sameOwners_noteRefusal (n : Notification) (d : Delivery) :
    m.SameOwners (m.noteRefusal n d) := by
  cases d with
  | accepted => exact .refl m
  | refused e => exact m.sameOwners_emit _

theorem sameOwners_displace (interval : Duration) (parent : Option ProcedureId) (holder : Holder) :
    m.SameOwners (m.displace interval ue parent holder).1 := by
  cases holder with
  | context old =>
      have hblamed : m.SameOwners (m.modifyContext old fun c =>
          { c with cause := some .illegalUe }) := m.sameOwners_modifyContext old fun _ => rfl
      exact hblamed.trans (sameOwners_parkParent _ ue interval parent old)
  | application old => exact m.sameOwners_parkParent ue interval parent old

theorem followExhaustion_aside : m.Aside (m.followExhaustion ue) := by
  unfold followExhaustion
  split
  · exact ⟨m.sameOwners_emit _, rfl, rfl⟩
  · exact ⟨m.sameOwners_emit _, rfl, rfl⟩

theorem resume_aside (config : NasConfig) (n : Notification) (next : Resumption) (d : Delivery) :
    m.Aside (m.resume config n next d) := by
  unfold resume
  split
  · exact .after (m.sameOwners_armT3470 _ _) (requestSucceeded_aside _ _ _)
  · exact requestFailed_aside m _ _ _
  · exact ⟨.refl m, rfl, rfl⟩
  · exact ⟨.refl m, rfl, rfl⟩
  · rename_i claim holder
    have hdisplaced := m.sameOwners_displace claim.ue config.retryInterval claim.parent holder
    split
    · rename_i m₁ heq
      rw [heq] at hdisplaced
      exact .after hdisplaced (conclude_aside _ _ _ _)
    · rename_i m₁ crash heq
      rw [heq] at hdisplaced
      exact ⟨hdisplaced, rfl, rfl⟩
  · exact giveUp_aside m _ _
  · exact ⟨m.sameOwners_noteRefusal n d, rfl, rfl⟩
  · exact ⟨.refl m, rfl, rfl⟩
  · exact ⟨.refl m, rfl, rfl⟩
  · exact ⟨.refl m, rfl, rfl⟩
  · exact ⟨.refl m, rfl, rfl⟩
  · rename_i ue
    have hdeleted := (m.sameOwners_noteRefusal n d).trans (sameOwners_deleteProcedures _ ue)
    exact .after hdeleted (followExhaustion_aside _ ue)
  · exact ⟨(m.sameOwners_noteRefusal n d).trans (sameOwners_deleteProcedures _ _), rfl, rfl⟩
  · exact ⟨m.sameOwners_noteRefusal n d, rfl, rfl⟩

/-- The UE carries the IMSI, and the index names it. -/
def assigned : Mme := (m.modifyContext ue fun c => { c with imsi := some imsi }).claim imsi ue

theorem SameOwners.assigned {m m' : Mme} (h : m.SameOwners m') (ue : UeId) (imsi : Imsi) :
    (m.assigned ue imsi).SameOwners (m'.assigned ue imsi) where
  carried u := by
    have hcarried := h.carried u
    simp only [Mme.assigned, context?_claim, context?_modifyContext]
    split
    · have hlive := h.isSome_context? u
      cases hm : m.context? u <;> cases hm' : m'.context? u <;> simp_all
    · exact hcarried
  index i := by
    simp only [Mme.assigned, owner?_claim, owner?_modifyContext, h.index]
  registry := by
    simp only [Mme.assigned, registry_claim, registry_modifyContext, h.registry]

/-- How a response with an IMSI is taken: whoever is found to own the IMSI is to be displaced, or
the UE gets it and its identification ends. -/
inductive Takes (m : Mme) (ue : UeId) (imsi : Imsi) (p : Identification) : Mme × Progress → Prop
  | displaces {holder : Holder} {m' : Mme} (hfound : Found m ue imsi (some holder))
      (howners : m.SameOwners m') :
      Takes m ue imsi p
        (m', .publish holder.teardown
          (.displaced ⟨ue, imsi, p.parent, p.previousState⟩ holder))
  | assigns {m' : Mme} (hfound : Found m ue imsi none)
      (howners : (m.assigned ue imsi).SameOwners m') :
      Takes m ue imsi p
        (m', .publish (.procedureConfirmed ue
          { notify := true, free := true, previousState := p.previousState })
          (.confirmed .confirmed))

/-- What a first turn does to the owners, and whether the handler stops to displace one. -/
inductive Settles (m : Mme) : Message → Mme × Progress → Prop
  | aside {msg : Message} {turn : Mme × Progress} (h : m.Aside turn) : Settles m msg turn
  | takes {ue : UeId} {imsi : Imsi} {p : Identification} {turn : Mme × Progress}
      (hp : m.identification? ue = some p) (h : m.Takes ue imsi p turn) :
      Settles m (.complete ue (.imsi imsi)) turn

theorem settleImsi_takes (p : Identification) {m₁ : Mme} (h : m.SameOwners m₁)
    (hlive : (m₁.context? ue).isSome) :
    m.Takes ue imsi p (m₁.settleImsi ⟨ue, imsi, p.parent, p.previousState⟩) := by
  obtain ⟨howners, hfound⟩ := findHolder_found m₁ ue imsi
  unfold settleImsi
  split
  · rename_i m₂ holder heq
    rw [heq] at howners hfound
    exact .displaces (hfound.of_sameOwners h) (h.trans howners)
  · rename_i m₂ heq
    rw [heq] at howners hfound
    have hpresent : m₂.store.contains ue = true := by
      rw [contains_eq_isSome, howners.isSome_context?]
      exact hlive
    simp only [assign, if_pos hpresent]
    refine .assigns (hfound.of_sameOwners h) ?_
    exact ((h.trans howners).assigned ue imsi).trans (sameOwners_releaseIdentification _ ue)

theorem sameOwners_heard (identity : MobileIdentity) (p : Identification) :
    m.SameOwners ((((m.emit (.responseReceived ue identity)).setIdentification ue
      (some { p with t3470 := none })).stopTimers p.t3470.toList).modifyContext ue
        (noteEquipment identity)) := by
  refine .trans ?_ (sameOwners_modifyContext _ ue fun c => by cases identity <;> rfl)
  refine .trans ?_ (sameOwners_stopTimers _ _)
  exact (m.sameOwners_emit _).trans (sameOwners_setIdentification _ ue _)

theorem complete_takes {p : Identification} (hp : m.identification? ue = some p) :
    m.Takes ue imsi p (m.complete ue (.imsi imsi)) := by
  have howners := m.sameOwners_heard ue (.imsi imsi) p
  obtain ⟨c, hc, _⟩ := (identification?_eq_some_iff m ue p).1 hp
  unfold complete
  simp only [identification?_emit, hp]
  refine settleImsi_takes m ue imsi p howners ?_
  rw [howners.isSome_context?, hc]
  rfl

theorem complete_settles (identity : MobileIdentity) :
    Settles m (.complete ue identity) (m.complete ue identity) := by
  cases hp : m.identification? ue with
  | none =>
      refine .aside ?_
      unfold complete
      simp only [identification?_emit, hp]
      exact ⟨(m.sameOwners_emit _).trans (sameOwners_emit _ _), rfl, rfl⟩
  | some p =>
      have howners := m.sameOwners_heard ue identity p
      cases identity with
      | imsi imsi => exact .takes hp (complete_takes m ue imsi hp)
      | imei imei =>
          unfold complete
          simp only [identification?_emit, hp]
          exact .aside (.after howners (conclude_aside _ ue _ _))
      | imeisv imeisv =>
          unfold complete
          simp only [identification?_emit, hp]
          exact .aside (.after howners (conclude_aside _ ue _ _))
      | tmsi tmsi =>
          unfold complete
          simp only [identification?_emit, hp]
          have hreleased := (howners.trans (sameOwners_emit _ (.responseCarriesTmsi ue))).trans
            (sameOwners_releaseIdentification _ ue)
          exact .aside ⟨hreleased, rfl, rfl⟩

theorem begin_settles (config : NasConfig) (msg : Message) :
    Settles m msg (m.begin config msg) := by
  cases msg with
  | start ue requested parent => exact .aside (start_aside m ue requested parent)
  | complete ue identity => exact complete_settles m ue identity
  | expired e =>
      obtain ⟨timer, ue, kind⟩ := e
      cases kind with
      | t3470 => exact .aside (t3470Expired_aside m ue config timer)
      | specificRetry => exact .aside (retryExpired_aside m ue timer)
  | lowerLayerFailure ue => exact .aside (lowerLayerFailed_aside m ue)
  | nonDelivery ue => exact .aside (request_aside m ue .redelivery)
  | abort ue => exact .aside (abort_aside m ue)

end Mme

/-- The claim that the EMM task holds while it waits to have a holder torn down. -/
def EmmPhase.displacing? : EmmPhase → Option (Claim × Holder)
  | publishing _ _ next => next.displacing?
  | receiving | stopped | crashed _ => none

def EmmPhase.condemned? : EmmPhase → Option UeId
  | publishing _ n _ => n.condemned?
  | receiving | stopped | crashed _ => none

namespace System

/-- What a move of the EMM task does to the owners, and whom the task then waits to displace. -/
inductive Settled (s : System) : Move → System → Prop
  | aside {a : Move} {s' : System} (howners : s.mme.SameOwners s'.mme)
      (hdisplacing : s'.emm.displacing? = none) (hcondemned : s'.emm.condemned? = none) :
      Settled s a s'
  | displaces {s' : System} {ue : UeId} {imsi : Imsi} {rest : List (Envelope Message)}
      {p : Identification} {holder : Holder}
      (hqueue : s.inbox.queue = .message (.complete ue (.imsi imsi)) :: rest)
      (hp : s.mme.identification? ue = some p) (hfound : Found s.mme ue imsi (some holder))
      (howners : s.mme.SameOwners s'.mme)
      (hemm : s'.emm = .publishing ue holder.teardown
        (.displaced ⟨ue, imsi, p.parent, p.previousState⟩ holder)) : Settled s .receive s'
  | assigns {s' : System} {ue : UeId} {imsi : Imsi} {rest : List (Envelope Message)}
      {p : Identification}
      (hqueue : s.inbox.queue = .message (.complete ue (.imsi imsi)) :: rest)
      (hp : s.mme.identification? ue = some p) (hfound : Found s.mme ue imsi none)
      (howners : (s.mme.assigned ue imsi).SameOwners s'.mme)
      (hemm : s'.emm = .publishing ue
        (.procedureConfirmed ue { notify := true, free := true, previousState := p.previousState })
        (.confirmed .confirmed)) : Settled s .receive s'

variable {s s' : System}

theorem displacing?_phaseAfter (ue : UeId) (p : Progress) :
    (phaseAfter ue p).displacing? = p.displacing? := by
  cases p with
  | done outcome => cases outcome <;> rfl
  | publish n next => rfl

theorem condemned?_phaseAfter (ue : UeId) (p : Progress) :
    (phaseAfter ue p).condemned? = p.condemned? := by
  cases p with
  | done outcome => cases outcome <;> rfl
  | publish n next => rfl

theorem sameOwners_follow {m : Mme} (hm : m.SameOwners s.mme) (ue : UeId) (p : Progress) :
    m.SameOwners (s.follow ue p).mme := by
  rcases mme_follow s ue p with h | ⟨e, h⟩
  · rwa [h]
  · rw [h]
    exact hm.trans (s.mme.sameOwners_emit e)

theorem settled_of_aside {m : Mme} {turn : Mme × Progress} {a : Move} {ue : UeId}
    (hmme : s.mme.SameOwners m) (h : m.Aside turn) {s₁ : System} (hs₁ : s₁.mme = turn.1) :
    Settled s a (s₁.follow ue turn.2) := by
  refine .aside ?_ ?_ ?_
  · have howners := hmme.trans h.owners
    rw [← hs₁] at howners
    exact sameOwners_follow howners ue turn.2
  · rw [emm_follow, displacing?_phaseAfter]
    exact h.displacing
  · rw [emm_follow, condemned?_phaseAfter]
    exact h.condemned

theorem settled_of_receive (h : s.receive? = some s') : Settled s .receive s' := by
  obtain ⟨_, ⟨msg, rest, hqueue, rfl⟩ | ⟨_, ⟨log, hlog⟩, hemm, _⟩⟩ := receive?_eq_some h
  · have hreceived := s.mme.sameOwners_emit (.exchanged .received msg.primitive msg.ue)
    have hsettles := Mme.begin_settles (s.mme.emit (.exchanged .received msg.primitive msg.ue))
      s.config msg
    rw [beginMessage_eq]
    simp only
    generalize Mme.begin _ s.config msg = turn at hsettles ⊢
    cases hsettles with
    | aside h => exact settled_of_aside hreceived h rfl
    | takes hp h =>
        cases h with
        | displaces hfound howners =>
            refine .displaces hqueue hp (hfound.of_sameOwners hreceived) ?_ (emm_follow _ _ _)
            exact sameOwners_follow (hreceived.trans howners) _ _
        | assigns hfound howners =>
            refine .assigns hqueue hp (hfound.of_sameOwners hreceived) ?_ (emm_follow _ _ _)
            exact sameOwners_follow ((hreceived.assigned _ _).trans howners) _ _
  · refine .aside ?_ ?_ ?_
    · rw [hlog]
      exact s.mme.sameOwners_log log
    · rw [hemm]
      rfl
    · rw [hemm]
      rfl

theorem settled_of_publish (h : s.publish? = some s') : Settled s .publish s' := by
  obtain ⟨ue, n, next, s₁, d, _, hoffer, rfl⟩ := publish?_eq_some h
  have hoffered : s.mme.SameOwners s₁.mme := by
    obtain ⟨bus, _, rfl, _⟩ | ⟨_, rfl, _⟩ := offer?_eq_some hoffer
    · exact s.mme.sameOwners_emit _
    · exact .refl s₁.mme
  rw [resume_eq]
  exact settled_of_aside hoffered (s₁.mme.resume_aside s₁.config n next d) rfl

/-- Only in taking a response does the EMM task give an IMSI away, or come to wait for a holder to
be displaced. -/
theorem settled_of_step {a : Move} (ha : a = .receive ∨ a = .publish)
    (hstep : s.step? a = some s') : Settled s a s' := by
  rcases ha with rfl | rfl
  · exact settled_of_receive hstep
  · exact settled_of_publish hstep

end System

end Emm
