import Emm.Proofs.Frame
import Emm.Proofs.Settlement

/-!
Which procedures are on record after a turn of a handler. Every record of an identification or of a
specific procedure goes back to one that was there before, under the same identifier; only an order
to start that is followed brings in a new one, or names another parent in the one that is there.

Main statements: `begin_descends` and `resume_addsNone`, for a handler's first turn and for a later
one.
-/

namespace Emm

/-- Every procedure on record in `ps` is one on record in `ps₀`: an identification with the same
identifier and parent, a specific procedure with the same identifier and of the same kind. -/
structure Procedures.Within (ps ps₀ : Procedures) : Prop where
  identification : ∀ q, ps.identification = some q →
    ∃ p, ps₀.identification = some p ∧ p.id = q.id ∧ p.parent = q.parent
  specific : ∀ q, ps.specific = some q → ∃ p, ps₀.specific = some p ∧ p.id = q.id ∧ p.kind = q.kind

namespace Procedures.Within

variable {ps ps₁ ps₂ : Procedures}

theorem refl (ps : Procedures) : ps.Within ps where
  identification q hq := ⟨q, hq, rfl, rfl⟩
  specific q hq := ⟨q, hq, rfl, rfl⟩

theorem trans (h : ps.Within ps₁) (h' : ps₁.Within ps₂) : ps.Within ps₂ where
  identification q hq := by
    obtain ⟨p, hp, hid, hparent⟩ := h.identification q hq
    obtain ⟨r, hr, hid', hparent'⟩ := h'.identification p hp
    exact ⟨r, hr, hid'.trans hid, hparent'.trans hparent⟩
  specific q hq := by
    obtain ⟨p, hp, hid, hkind⟩ := h.specific q hq
    obtain ⟨r, hr, hid', hkind'⟩ := h'.specific p hp
    exact ⟨r, hr, hid'.trans hid, hkind'.trans hkind⟩

theorem empty (ps : Procedures) : Within {} ps := ⟨nofun, nofun⟩

theorem setIdentification {r : Option Identification}
    (h : ∀ q, r = some q → ∃ p, ps.identification = some p ∧ p.id = q.id ∧ p.parent = q.parent) :
    Within { ps with identification := r } ps :=
  ⟨h, fun q hq => ⟨q, hq, rfl, rfl⟩⟩

theorem setSpecific {r : Option Specific}
    (h : ∀ q, r = some q → ∃ p, ps.specific = some p ∧ p.id = q.id ∧ p.kind = q.kind) :
    Within { ps with specific := r } ps :=
  ⟨fun q hq => ⟨q, hq, rfl, rfl⟩, h⟩

end Procedures.Within

namespace Mme

def procedures (m : Mme) (ue : UeId) : Procedures :=
  ((m.context? ue).map (·.procedures)).getD {}

/-- Every procedure on record in `m'` is on record in `m` already, and no identifier is taken. -/
structure AddsNone (m m' : Mme) : Prop where
  counter : m'.store.nextProcedure = m.store.nextProcedure
  within : ∀ u, (m'.procedures u).Within (m.procedures u)

variable {m m₁ m₂ : Mme} {ue u : UeId} {c : Context}

theorem procedures_eq (hc : m.context? ue = some c) : m.procedures ue = c.procedures := by
  simp [procedures, hc]

theorem procedures_congr (h : m₁.context? u = m.context? u) : m₁.procedures u = m.procedures u := by
  rw [procedures, procedures, h]

theorem identification?_eq_procedures (m : Mme) (ue : UeId) :
    m.identification? ue = (m.procedures ue).identification := by
  cases hc : m.context? ue <;> simp [identification?, procedures, hc]

theorem specific?_eq_procedures (m : Mme) (ue : UeId) :
    m.specific? ue = (m.procedures ue).specific := by
  cases hc : m.context? ue <;> simp [specific?, procedures, hc]

namespace AddsNone

theorem refl (m : Mme) : m.AddsNone m := ⟨rfl, fun _ => .refl _⟩

theorem trans (h : m.AddsNone m₁) (h' : m₁.AddsNone m₂) : m.AddsNone m₂ :=
  ⟨h'.counter.trans h.counter, fun u => (h'.within u).trans (h.within u)⟩

theorem of_store (h : m₁.store = m.store) : m.AddsNone m₁ where
  counter := by rw [h]
  within u := by
    have hsame : m₁.procedures u = m.procedures u :=
      procedures_congr (by rw [context?, context?, h])
    rw [hsame]
    exact .refl _

theorem emit (h : m.AddsNone m₁) (e : Log.Event) : m.AddsNone (m₁.emit e) :=
  h.trans (.of_store rfl)

theorem stopTimers (h : m.AddsNone m₁) (ids : List TimerId) : m.AddsNone (m₁.stopTimers ids) :=
  h.trans (.of_store (store_stopTimers m₁ ids))

end AddsNone

theorem addsNone_modifyContext {f : Context → Context}
    (hf : ∀ c, m.context? ue = some c → (f c).procedures.Within c.procedures) :
    m.AddsNone (m.modifyContext ue f) where
  counter := rfl
  within u := by
    by_cases hu : u = ue
    · subst hu
      cases hc : m.context? u with
      | none =>
          rw [procedures_congr (m := m) (by rw [context?_modifyContext, hc]; simp)]
          exact .refl _
      | some c =>
          rw [procedures_eq (c := f c) (by rw [context?_modifyContext, hc]; simp),
            procedures_eq hc]
          exact hf c hc
    · rw [procedures_congr (m := m) (by rw [context?_modifyContext, if_neg hu])]
      exact .refl _

theorem addsNone_setIdentification {p q : Identification} (hp : m.identification? ue = some p)
    (hid : p.id = q.id) (hparent : p.parent = q.parent) :
    m.AddsNone (m.setIdentification ue (some q)) := by
  refine addsNone_modifyContext fun c hc => .setIdentification ?_
  rintro _ ⟨⟩
  rw [identification?_eq_procedures, procedures_eq hc] at hp
  exact ⟨p, hp, hid, hparent⟩

theorem addsNone_setSpecific {p q : Specific} (hp : m.specific? ue = some p) (hid : p.id = q.id)
    (hkind : p.kind = q.kind) : m.AddsNone (m.setSpecific ue (some q)) := by
  refine addsNone_modifyContext fun c hc => .setSpecific ?_
  rintro _ ⟨⟩
  rw [specific?_eq_procedures, procedures_eq hc] at hp
  exact ⟨p, hp, hid, hkind⟩

theorem addsNone_claim (m : Mme) (imsi : Imsi) (ue : UeId) : m.AddsNone (m.claim imsi ue) where
  counter := by simp [claim, Store.claim]
  within u := by
    rw [procedures_congr (m := m) (context?_claim m ue u imsi)]
    exact .refl _

theorem addsNone_releaseIdentification (m : Mme) (ue : UeId) :
    m.AddsNone (m.releaseIdentification ue) := by
  unfold releaseIdentification
  split
  · refine AddsNone.stopTimers (addsNone_modifyContext fun _ _ => ?_) _
    exact .setIdentification (by rintro _ ⟨⟩)
  · exact .refl m

theorem addsNone_deleteProcedures (m : Mme) (ue : UeId) : m.AddsNone (m.deleteProcedures ue) := by
  unfold deleteProcedures
  split
  · exact (addsNone_modifyContext fun _ _ => .empty _).stopTimers _
  · exact .refl m

theorem addsNone_armT3470 (m : Mme) (interval : Duration) (ue : UeId) :
    m.AddsNone (m.armT3470 interval ue) := by
  unfold armT3470
  split
  · rename_i p hp
    have hstarted : m.AddsNone
        ((m.stopTimers p.t3470.toList).startTimer ue .t3470 interval).2 :=
      .of_store (store_stopTimers m _)
    have hrecord : ((m.stopTimers p.t3470.toList).startTimer ue .t3470
        interval).2.identification? ue = some p := by
      rw [identification?, context?_startTimer, context?_stopTimers]
      exact hp
    refine AddsNone.emit (hstarted.trans ?_) _
    exact addsNone_setIdentification hrecord rfl rfl
  · exact .of_store rfl

theorem addsNone_parkParent (m : Mme) (interval : Duration) (ue : UeId)
    (parent : Option ProcedureId) (old : UeId) :
    m.AddsNone (m.parkParent interval ue parent old).1 := by
  unfold parkParent
  split
  · exact .of_store rfl
  · split
    · exact .of_store rfl
    · rename_i id _ q hfound
      obtain ⟨c, hc, hfilter⟩ := Option.bind_eq_some_iff.1 hfound
      have hq : c.procedures.specific = some q := (Option.filter_eq_some_iff.1 hfilter).1
      have hstarted : m.AddsNone
          ((m.stopTimers q.retryTimer.toList).startTimer ue .specificRetry interval).2 :=
        .of_store (store_stopTimers m _)
      have hrecord : ((m.stopTimers q.retryTimer.toList).startTimer ue .specificRetry
          interval).2.specific? ue = some q := by
        rw [specific?, context?_startTimer, context?_stopTimers, hc]
        exact hq
      simp only
      split
      · refine AddsNone.emit (hstarted.trans ?_) _
        exact addsNone_setSpecific hrecord rfl rfl
      · refine hstarted.trans ?_
        exact addsNone_setSpecific hrecord rfl rfl

theorem addsNone_displace (m : Mme) (interval : Duration) (ue : UeId)
    (parent : Option ProcedureId) (holder : Holder) :
    m.AddsNone (m.displace interval ue parent holder).1 := by
  cases holder with
  | context old =>
      have hblamed : m.AddsNone
          (m.modifyContext old fun c => { c with cause := some .illegalUe }) :=
        addsNone_modifyContext fun _ _ => .refl _
      exact hblamed.trans (addsNone_parkParent _ interval ue parent old)
  | application old => exact addsNone_parkParent m interval ue parent old

theorem addsNone_removeContext (m : Mme) (ue : UeId) : m.AddsNone (m.removeContext ue) where
  counter := by
    unfold removeContext
    split
    · simp only [store_emit, Store.remove]
      split <;> rfl
    · rfl
  within u := by
    by_cases hu : u = ue
    · have hgone : (m.removeContext ue).context? u = none := by
        rw [context?_removeContext, if_pos hu]
      rw [procedures, hgone]
      exact .empty _
    · rw [procedures_congr (m := m) (by rw [context?_removeContext, if_neg hu])]
      exact .refl _

theorem addsNone_tearDown (m : Mme) (ue : UeId) : m.AddsNone (m.tearDown ue) := by
  cases hc : m.context? ue with
  | none =>
      simp only [tearDown, hc]
      exact .of_store rfl
  | some c =>
      simp only [tearDown, hc]
      exact ((addsNone_removeContext m ue).stopTimers _).trans (.of_store rfl)

theorem addsNone_requestFailed (m : Mme) (ue : UeId) (purpose : RequestPurpose)
    (e : IdentificationError) : m.AddsNone (m.requestFailed ue purpose e).1 := by
  unfold requestFailed
  split
  · exact .refl m
  · exact .of_store rfl
  · split <;> exact .of_store rfl

theorem addsNone_request (m : Mme) (ue : UeId) (purpose : RequestPurpose) :
    m.AddsNone (m.request ue purpose).1 := by
  unfold request
  split
  · exact ((AddsNone.refl m).emit _).trans (addsNone_requestFailed _ ue purpose _)
  · split
    · exact addsNone_requestFailed m ue purpose _
    · exact .refl m

theorem addsNone_requestSucceeded (m : Mme) (ue : UeId) (purpose : RequestPurpose) :
    m.AddsNone (m.requestSucceeded ue purpose).1 := by
  cases purpose <;> exact .of_store rfl

theorem store_findApplicationHolder (m : Mme) (ue : UeId) (imsi : Imsi) :
    (m.findApplicationHolder ue imsi).1.store = m.store := by
  unfold findApplicationHolder
  split <;> rfl

theorem store_findHolder (m : Mme) (ue : UeId) (imsi : Imsi) :
    (m.findHolder ue imsi).1.store = m.store := by
  unfold findHolder
  split
  · split
    · rfl
    · exact store_findApplicationHolder _ ue imsi
  · exact store_findApplicationHolder m ue imsi

theorem addsNone_giveUp (m : Mme) (claim : Claim) (e : IdentificationError) :
    m.AddsNone (m.giveUp claim e).1 :=
  ((AddsNone.refl m).emit _).trans (addsNone_releaseIdentification _ claim.ue)

theorem addsNone_settleImsi (m : Mme) (claim : Claim) : m.AddsNone (m.settleImsi claim).1 := by
  have hfound : m.AddsNone (m.findHolder claim.ue claim.imsi).1 :=
    .of_store (store_findHolder m claim.ue claim.imsi)
  unfold settleImsi
  split
  · rename_i m₁ holder heq
    rw [heq] at hfound
    exact hfound
  · rename_i m₁ heq
    rw [heq] at hfound
    split
    · rename_i m₂ hassign
      unfold assign at hassign
      split at hassign
      · cases hassign
        have hnoted : m₁.AddsNone
            (m₁.modifyContext claim.ue fun c => { c with imsi := some claim.imsi }) :=
          addsNone_modifyContext fun _ _ => .refl _
        have hassigned := hnoted.trans (addsNone_claim _ claim.imsi claim.ue)
        exact (hfound.trans hassigned).trans (addsNone_releaseIdentification _ claim.ue)
      · cases hassign
    · exact hfound.trans (addsNone_giveUp m₁ claim _)

theorem addsNone_complete (m : Mme) (ue : UeId) (identity : MobileIdentity) :
    m.AddsNone (m.complete ue identity).1 := by
  unfold complete
  simp only [identification?_emit]
  split
  · exact .of_store rfl
  · rename_i p hp
    have hstopped : m.AddsNone (((m.emit (.responseReceived ue identity)).setIdentification ue
        (some { p with t3470 := none })).stopTimers p.t3470.toList) := by
      refine AddsNone.stopTimers (((AddsNone.refl m).emit (.responseReceived ue
        identity)).trans ?_) _
      exact addsNone_setIdentification hp rfl rfl
    generalize (((m.emit (.responseReceived ue identity)).setIdentification ue
        (some { p with t3470 := none })).stopTimers p.t3470.toList) = m₁ at hstopped ⊢
    have hnoted : m₁.AddsNone (m₁.modifyContext ue (noteEquipment identity)) :=
      addsNone_modifyContext fun c _ => by cases identity <;> exact .refl _
    have htaken := hstopped.trans hnoted
    cases identity with
    | imsi imsi => exact htaken.trans (addsNone_settleImsi _ _)
    | imei imei => exact htaken.trans (addsNone_releaseIdentification _ ue)
    | imeisv imeisv => exact htaken.trans (addsNone_releaseIdentification _ ue)
    | tmsi tmsi => exact (htaken.emit _).trans (addsNone_releaseIdentification _ ue)

theorem addsNone_t3470Expired (m : Mme) (config : NasConfig) (ue : UeId) (timer : TimerId) :
    m.AddsNone (m.t3470Expired config ue timer).1 := by
  unfold t3470Expired
  split
  · exact .of_store rfl
  · rename_i c hc
    split
    · exact .of_store rfl
    · rename_i p hfound
      have hp : m.identification? ue = some p :=
        (identification?_eq_some_iff m ue p).2 ⟨c, hc, (Option.filter_eq_some_iff.1 hfound).1⟩
      have hcounted : m.AddsNone ((m.setIdentification ue
          (some { p with t3470 := none, expiries := p.expiries + 1 })).emit
            (.t3470Expired ue timer (p.expiries + 1))) := by
        refine AddsNone.emit ?_ _
        exact addsNone_setIdentification hp rfl rfl
      simp only
      split
      · exact hcounted.trans (addsNone_request _ ue .retransmission)
      · exact hcounted.emit _

theorem addsNone_retryExpired (m : Mme) (ue : UeId) (timer : TimerId) :
    m.AddsNone (m.retryExpired ue timer).1 := by
  unfold retryExpired
  split
  · exact .of_store rfl
  · rename_i q hfound
    refine AddsNone.emit ?_ _
    exact addsNone_setSpecific (Option.filter_eq_some_iff.1 hfound).1 rfl rfl

theorem addsNone_abort (m : Mme) (ue : UeId) : m.AddsNone (m.abort ue).1 := by
  unfold abort
  split
  · exact .refl m
  · exact (addsNone_releaseIdentification m ue).emit _

/-- An order to start an identification of the UE has been followed, and `q` is on record: a new one
with the next identifier, or the one that was there. All other procedures are as they were. -/
structure Identifies (m : Mme) (ue : UeId) (q : Identification) (m' : Mme) : Prop where
  record : m'.procedures ue = { m.procedures ue with identification := some q }
  others : ∀ u, u ≠ ue → m'.procedures u = m.procedures u
  fresh : (m.procedures ue).identification = none →
    q.id = m.store.nextProcedure ∧ m'.store.nextProcedure = m.store.nextProcedure.next
  pending : ∀ p, (m.procedures ue).identification = some p →
    q.id = p.id ∧ m'.store.nextProcedure = m.store.nextProcedure

theorem Restarts.identifies {requested : IdentityType} {parent : Option ProcedureId}
    (h : m.Restarts ue c requested parent m₁) (hc : m.context? ue = some c) :
    ∃ q, q.parent = parent ∧ m.Identifies ue q m₁ := by
  have hprocedures := procedures_eq hc
  cases hp : c.procedures.identification with
  | none =>
      have hfresh := h.fresh hp
      let q : Identification :=
        { id := m.store.nextProcedure, ue, requested, parent, previousState := c.state }
      refine ⟨q, rfl, ⟨?_, fun u hu => procedures_congr (hfresh.others u hu), ?_, ?_⟩⟩
      · rw [procedures_eq hfresh.context, hprocedures]
      · intro _
        exact ⟨rfl, hfresh.nextProcedure⟩
      · intro p hsome
        rw [hprocedures, hp] at hsome
        cases hsome
  | some p =>
      have hpending := h.pending p hp
      refine ⟨p.restarted requested parent, rfl,
        ⟨?_, fun u hu => procedures_congr (hpending.others u hu), ?_, ?_⟩⟩
      · rw [procedures_eq hpending.context, hprocedures]
      · intro hnone
        rw [hprocedures, hp] at hnone
        cases hnone
      · intro p' hsome
        rw [hprocedures, hp] at hsome
        cases hsome
        exact ⟨rfl, hpending.nextProcedure⟩

theorem start_descends (m : Mme) (ue : UeId) (requested : IdentityType)
    (parent : Option ProcedureId) :
    m.AddsNone (m.start ue requested parent).1 ∨
      ∃ q, q.parent = parent ∧ m.Identifies ue q (m.start ue requested parent).1 := by
  cases hrequest : requested.isRequestable with
  | false =>
      left
      simp only [start, hrequest]
      exact .refl m
  | true =>
      cases hc : m.context? ue with
      | none =>
          left
          simp only [start, hrequest, hc]
          exact .refl m
      | some c =>
          cases hadmits : c.state.admitsIdentification with
          | false =>
              left
              simp only [start, hrequest, hc, hadmits]
              exact .refl m
          | true =>
              right
              obtain ⟨m', heq, hrestarts⟩ := start_restarts hrequest hc hadmits parent
              rw [heq]
              exact hrestarts.identifies hc

/-- A first turn brings nothing new on record, unless it follows an order to start. -/
theorem begin_descends (m : Mme) (config : NasConfig) (msg : Message) :
    m.AddsNone (m.begin config msg).1 ∨
      ∃ ue requested parent q, msg = .start ue requested parent ∧ q.parent = parent ∧
        m.Identifies ue q (m.begin config msg).1 := by
  cases msg with
  | start ue requested parent =>
      rcases start_descends m ue requested parent with hnone | ⟨q, hparent, hidentifies⟩
      · exact .inl hnone
      · exact .inr ⟨ue, requested, parent, q, rfl, hparent, hidentifies⟩
  | complete ue identity => exact .inl (addsNone_complete m ue identity)
  | expired e =>
      obtain ⟨timer, ue, kind⟩ := e
      cases kind with
      | t3470 => exact .inl (addsNone_t3470Expired m config ue timer)
      | specificRetry => exact .inl (addsNone_retryExpired m ue timer)
  | lowerLayerFailure ue =>
      left
      simp only [begin, lowerLayerFailed]
      split <;> exact .of_store rfl
  | nonDelivery ue => exact .inl (addsNone_request m ue .redelivery)
  | abort ue => exact .inl (addsNone_abort m ue)

theorem resume_addsNone (m : Mme) (config : NasConfig) (n : Notification) (next : Resumption)
    (d : Delivery) : m.AddsNone (m.resume config n next d).1 := by
  have noted : m.AddsNone (m.noteRefusal n d) := by
    cases d with
    | accepted => exact .refl m
    | refused e => exact .of_store rfl
  unfold resume
  split
  · exact (addsNone_armT3470 m _ _).trans (addsNone_requestSucceeded _ _ _)
  · exact addsNone_requestFailed m _ _ _
  · exact .refl m
  · exact .refl m
  · rename_i claim holder
    have hdisplaced := addsNone_displace m config.retryInterval claim.ue claim.parent holder
    split
    · rename_i m₁ heq
      rw [heq] at hdisplaced
      exact hdisplaced.trans (addsNone_releaseIdentification m₁ claim.ue)
    · rename_i m₁ crash heq
      rw [heq] at hdisplaced
      exact hdisplaced
  · exact addsNone_giveUp m _ _
  · exact noted
  · exact .refl m
  · exact .refl m
  · exact .refl m
  · exact .refl m
  · rename_i ue
    have hdeleted := noted.trans (addsNone_deleteProcedures _ ue)
    refine hdeleted.trans ?_
    unfold followExhaustion
    split <;> exact .of_store rfl
  · rename_i ue
    exact noted.trans (addsNone_deleteProcedures _ ue)
  · exact noted

end Mme

end Emm
