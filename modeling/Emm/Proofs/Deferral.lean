import Emm.Proofs.Frame
import Emm.Proofs.Parking
import Emm.Proofs.Succession

/-!
What a response with an IMSI comes to when nothing comes between the notifications of its handler.
If another UE is found to own the IMSI, that UE is to be torn down first and the parent procedure
waits for it; if nobody is, the UE that answered gets the IMSI.

Main statement: `response_with_imsi`. It says for each of the cases what is published, what the
result is, and what becomes of every context, of both tables of owners and of the timers.
-/

namespace Emm

theorem Found.unique {m : Mme} {ue : UeId} {imsi : Imsi} {holder holder' : Option Holder}
    (h : Found m ue imsi holder) (h' : Found m ue imsi holder') : holder = holder' := by
  cases h with
  | context hindex hne hlive =>
      cases h' with
      | context hindex' _ _ => rw [Option.some.inj (hindex.symm.trans hindex')]
      | application hunheld _ _ => simp [hunheld _ hindex hne] at hlive
      | nobody hunheld _ => simp [hunheld _ hindex hne] at hlive
  | application hunheld hregistry hne =>
      cases h' with
      | context hindex hne' hlive => simp [hunheld _ hindex hne'] at hlive
      | application _ hregistry' _ => rw [Option.some.inj (hregistry.symm.trans hregistry')]
      | nobody _ hnobody => exact absurd (hnobody _ hregistry) hne
  | nobody hunheld hnobody =>
      cases h' with
      | context hindex hne' hlive => simp [hunheld _ hindex hne'] at hlive
      | application _ hregistry hne => exact absurd (hnobody _ hregistry) hne
      | nobody _ _ => rfl

namespace Mme

variable {m m₁ m₂ : Mme} {ue : UeId} {c : Context} {p : Identification} {imsi : Imsi}

/-- The identification of `ue` has ended in a collision with `old`. Its record is gone and its T3470
is disarmed. The parent, if it still runs, waits on one new retry timer for the context of `old` to
go. No identity of the UE has changed, and neither has a table of owners. -/
structure Defers (m : Mme) (ue : UeId) (c : Context) (p : Identification) (old : UeId)
    (deadline : Instant) (m' : Mme) : Prop where
  context : m'.context? ue =
    some { c with procedures := { specific := m'.specific? ue, identification := none } }
  index : m'.store.index = m.store.index
  nextProcedure : m'.store.nextProcedure = m.store.nextProcedure
  registry : m'.registry = m.registry
  parked : ∀ q, c.procedures.specific = some q → p.parent = some q.id →
    m'.specific? ue = some (q.park m.timers.nextId old deadline) ∧
      m'.timers =
        { now := m.timers.now
          nextId := m.timers.nextId.next
          armed := (m.timers.without (p.t3470.toList ++ q.retryTimer.toList)).armed ++
            [⟨⟨m.timers.nextId, ue, .specificRetry⟩, deadline⟩] }
  unparked : (∀ q, c.procedures.specific = some q → p.parent ≠ some q.id) →
    m'.specific? ue = c.procedures.specific ∧ m'.timers = m.timers.without p.t3470.toList

/-- A response has been noted: the record is still there, its timer is not. -/
abbrev Hears (m : Mme) (ue : UeId) (c : Context) (p : Identification) : Mme → Prop :=
  m.Differs ue c { c.procedures with identification := some { p with t3470 := none } }
    (m.timers.without p.t3470.toList)

theorem complete_hears (hc : m.context? ue = some c) (hp : c.procedures.identification = some p)
    (imsi : Imsi) :
    ∃ m₁, m.Hears ue c p m₁ ∧
      m.complete ue (.imsi imsi) = m₁.settleImsi ⟨ue, imsi, p.parent, p.previousState⟩ := by
  have hrecord := (identification?_eq_some_iff m ue p).2 ⟨c, hc, hp⟩
  have hlogged := (Differs.refl hc).emit (.responseReceived ue (.imsi imsi))
  refine ⟨_, ((hlogged.setIdentification (some { p with t3470 := none })).stopTimers
    p.t3470.toList).modifyContext (f := noteEquipment (.imsi imsi)) rfl, ?_⟩
  unfold complete
  simp only [identification?_emit, hrecord]

theorem Differs.sameOwners {ps : Procedures} {t : Timers} (h : m.Differs ue c ps t m₁)
    (hc : m.context? ue = some c) : m.SameOwners m₁ where
  carried u := by
    by_cases hu : u = ue
    · rw [hu, h.context, hc]
      rfl
    · rw [h.others u hu]
  index i := by simp only [Store.owner?, h.index]
  registry := h.registry

theorem findHolder_sameButLog (m : Mme) (ue : UeId) (imsi : Imsi) :
    m.SameButLog (m.findHolder ue imsi).1 := by
  have happlication : ∀ m : Mme, m.SameButLog (m.findApplicationHolder ue imsi).1 := by
    intro m
    unfold findApplicationHolder
    split
    · exact m.sameButLog_emit _
    · exact .refl m
  unfold findHolder
  split
  · split
    · exact m.sameButLog_emit _
    · exact (m.sameButLog_emit _).trans (happlication _)
  · exact happlication m

/-- The context of the holder takes note of why it is to go. -/
def blame (m : Mme) : Holder → Mme
  | .context old => m.modifyContext old fun c => { c with cause := some .illegalUe }
  | .application _ => m

@[simp]
theorem timers_blame (m : Mme) (holder : Holder) : (m.blame holder).timers = m.timers := by
  cases holder <;> rfl

theorem displace_eq (m : Mme) (interval : Duration) (ue : UeId) (parent : Option ProcedureId)
    (holder : Holder) :
    m.displace interval ue parent holder =
      (m.blame holder).parkParent interval ue parent holder.ue := by
  cases holder <;> rfl

theorem Differs.blame {ps : Procedures} {t : Timers} (h : m.Differs ue c ps t m₁) {holder : Holder}
    (hne : holder.ue ≠ ue) : (m.blame holder).Differs ue c ps t (m₁.blame holder) := by
  cases holder with
  | context old =>
      refine ⟨?_, fun u hu => ?_, h.index, h.nextProcedure, h.registry, h.timers⟩
      · exact (context?_modifyContext m₁ old ue _).trans ((if_neg hne.symm).trans h.context)
      · simp only [Mme.blame, context?_modifyContext, h.others u hu]
  | application old => exact h

theorem parkParent_of_parent {interval : Duration} {deadline : Instant} {q : Specific} (old : UeId)
    (hq : m.specific? ue = some q) (hdeadline : m.timers.now.after? interval = some deadline) :
    m.parkParent interval ue (some q.id) old =
      ((((m.stopTimers q.retryTimer.toList).startTimer ue .specificRetry interval).2.setSpecific ue
        (some (q.park m.timers.nextId old deadline))).emit
          (.parentParked ue q.id m.timers.nextId old interval), none) := by
  have hfound : (m.context? ue).bind (·.procedures.specific? q.id) = some q := by
    rw [find_specific, hq]
    simp
  unfold parkParent
  simp only [hfound, timers_startTimer, timers_stopTimers, Timers.start, hdeadline,
    fst_startTimer]
  rfl

theorem parkParent_of_no_parent {parent : Option ProcedureId} (interval : Duration) (old : UeId)
    (h : ∀ q, m.specific? ue = some q → parent ≠ some q.id) :
    ∃ e, m.parkParent interval ue parent old = (m.emit e, none) := by
  unfold parkParent
  split
  · exact ⟨_, rfl⟩
  · rename_i id
    rw [find_specific]
    split
    · exact ⟨_, rfl⟩
    · rename_i q hfound
      obtain ⟨hq, hid⟩ := Option.filter_eq_some_iff.1 hfound
      exact absurd (congrArg some (of_decide_eq_true hid).symm) (h q hq)

theorem Differs.defers (h : m.Hears ue c p m₁) {interval : Duration} {deadline : Instant}
    (hdeadline : m.timers.now.after? interval = some deadline) (old : UeId) :
    ∃ m₂, m₁.parkParent interval ue p.parent old = (m₂, none) ∧
      m.Defers ue c p old deadline (m₂.releaseIdentification ue) ∧
      ∀ u, u ≠ ue → (m₂.releaseIdentification ue).context? u = m.context? u := by
  by_cases hparent : ∃ q, c.procedures.specific = some q ∧ p.parent = some q.id
  · obtain ⟨q, hq, hid⟩ := hparent
    have hdeadline₁ : m₁.timers.now.after? interval = some deadline := by
      rw [h.timers]
      exact hdeadline
    have heq := parkParent_of_parent old (h.specific.trans hq) hdeadline₁
    have hparked := (((((h.stopTimers q.retryTimer.toList).startTimer .specificRetry
      interval).setSpecific (some (q.park m₁.timers.nextId old deadline))).emit
        (.parentParked ue q.id m₁.timers.nextId old interval)).release rfl)
    rw [← hid] at heq
    refine ⟨_, heq, ⟨?_, hparked.index, hparked.nextProcedure, hparked.registry, ?_, ?_⟩,
      hparked.others⟩
    · rw [hparked.context, hparked.specific]
    · intro q' hq' _
      cases hq.symm.trans hq'
      have hnext : m₁.timers.nextId = m.timers.nextId := by
        rw [h.timers]
        rfl
      rw [hparked.specific, hparked.timers, hnext, Timers.without_without]
      have hnow : (m.timers.without (p.t3470.toList ++ q.retryTimer.toList)).now.after? interval =
          some deadline := hdeadline
      exact ⟨rfl, (Timers.without_nil _).trans (Timers.start_eq hnow ue _)⟩
    · exact fun hnone => absurd hid (hnone q hq)
  · have hnone : ∀ q, c.procedures.specific = some q → p.parent ≠ some q.id :=
      fun q hq hid => hparent ⟨q, hq, hid⟩
    obtain ⟨e, heq⟩ := parkParent_of_no_parent interval old fun q hq =>
      hnone q (h.specific.symm.trans hq)
    have hreleased := (h.emit e).release rfl
    refine ⟨_, heq, ⟨?_, hreleased.index, hreleased.nextProcedure, hreleased.registry, ?_, ?_⟩,
      hreleased.others⟩
    · rw [hreleased.context, hreleased.specific]
    · exact fun q hq hid => absurd hid (hnone q hq)
    · intro _
      rw [hreleased.specific, hreleased.timers]
      exact ⟨rfl, Timers.without_nil _⟩

theorem Defers.of_blame {old : UeId} {deadline : Instant} {holder : Holder}
    (h : (m.blame holder).Defers ue c p old deadline m₁) : m.Defers ue c p old deadline m₁ := by
  cases holder with
  | context _ => exact ⟨h.context, h.index, h.nextProcedure, h.registry, h.parked, h.unparked⟩
  | application _ => exact h

theorem Defers.log {old : UeId} {deadline : Instant} (h : m.Defers ue c p old deadline m₁)
    (hsame : m₁.SameButLog m₂) : m.Defers ue c p old deadline m₂ := by
  rw [hsame]
  exact ⟨h.context, h.index, h.nextProcedure, h.registry, h.parked, h.unparked⟩

theorem findHolder_eq {holder : Option Holder} (howners : m.SameOwners m₁)
    (hfound : Found m ue imsi holder) :
    ∃ m₂, m₁.findHolder ue imsi = (m₂, holder) ∧ m₁.SameButLog m₂ := by
  obtain ⟨_, hfound₁⟩ := m₁.findHolder_found ue imsi
  have hholder := (hfound₁.of_sameOwners howners).unique hfound
  exact ⟨_, Prod.ext rfl hholder, m₁.findHolder_sameButLog ue imsi⟩

theorem complete_of_holder {holder : Holder} (hc : m.context? ue = some c)
    (hp : c.procedures.identification = some p) (hfound : Found m ue imsi (some holder)) :
    ∃ m₁, m.complete ue (.imsi imsi) =
        (m₁, .publish holder.teardown
          (.displaced ⟨ue, imsi, p.parent, p.previousState⟩ holder)) ∧
      m.Hears ue c p m₁ := by
  obtain ⟨m₁, hheard, hcomplete⟩ := complete_hears hc hp imsi
  obtain ⟨m₂, hholder, hlogged⟩ := findHolder_eq (hheard.sameOwners hc) hfound
  refine ⟨m₂, ?_, hheard.log hlogged⟩
  simp only [hcomplete, settleImsi, hholder]

theorem carryOut_displaced {config : NasConfig} (claim : Claim) {holder : Holder} {n : Notification}
    (hdisplace : (m₁.emit (.exchanged .sent n.primitive n.ue)).displace config.retryInterval
      claim.ue claim.parent holder = (m₂, none)) :
    ∃ m', m₁.carryOut config (.publish n (.displaced claim holder)) =
        (m', [n, .procedureConfirmed claim.ue
          { notify := false, free := true, previousState := claim.previousState }],
          .completed (.ok (.deferred holder.ue))) ∧
      (m₂.releaseIdentification claim.ue).SameButLog m' := by
  refine ⟨_, ?_, sameButLog_emit _ (.exchanged .sent "EMMREG_COMMON_PROC_CNF" claim.ue)⟩
  rw [carryOut]
  simp only [resume, hdisplace, conclude]
  rw [carryOut]
  simp only [resume]
  rw [carryOut]
  rfl

/-- The handler's whole run where another UE is found to own the IMSI. -/
theorem handle_of_holder {config : NasConfig} {deadline : Instant} {holder : Holder}
    (hc : m.context? ue = some c) (hp : c.procedures.identification = some p)
    (hdeadline : m.timers.now.after? config.retryInterval = some deadline)
    (hfound : Found m ue imsi (some holder)) :
    ∃ m', m.handle config (.complete ue (.imsi imsi)) =
        (m', [holder.teardown, .procedureConfirmed ue
          { notify := false, free := true, previousState := p.previousState }],
          .completed (.ok (.deferred holder.ue))) ∧
      m.Defers ue c p holder.ue deadline m' ∧
      ∀ u, u ≠ ue → m'.context? u = (m.blame holder).context? u := by
  obtain ⟨m₂, hbegun, hheard⟩ := complete_of_holder hc hp hfound
  have hsent := hheard.emit (.exchanged .sent holder.teardown.primitive holder.teardown.ue)
  have hblamed := hsent.blame hfound.ne
  rw [← m.timers_blame holder] at hblamed hdeadline
  obtain ⟨m₃, hparked, hdefers, hothers⟩ := Differs.defers hblamed hdeadline holder.ue
  rw [← displace_eq] at hparked
  obtain ⟨m', hcarried, hlogged'⟩ := carryOut_displaced
    ⟨ue, imsi, p.parent, p.previousState⟩ hparked
  refine ⟨m', ?_, hdefers.of_blame.log hlogged', fun u hu => ?_⟩
  · simp only [handle, begin, hbegun, hcarried]
  · rw [hlogged'.context?, hothers u hu]

/-- The identification of `ue` has ended, and the UE has got the IMSI. -/
structure Confirms (m : Mme) (ue : UeId) (c : Context) (p : Identification) (imsi : Imsi)
    (m' : Mme) : Prop where
  context : m'.context? ue =
    some { c with imsi := some imsi, procedures := { c.procedures with identification := none } }
  others : ∀ u, u ≠ ue → m'.context? u = m.context? u
  index : m'.store.index = m.store.index.insert imsi ue
  nextProcedure : m'.store.nextProcedure = m.store.nextProcedure
  registry : m'.registry = m.registry
  timers : m'.timers = m.timers.without p.t3470.toList

theorem index_assigned (m : Mme) (ue : UeId) (imsi : Imsi) :
    (m.assigned ue imsi).store.index = m.store.index.insert imsi ue := by
  rw [assigned, claim, store_emitMove]
  rfl

theorem nextProcedure_assigned (m : Mme) (ue : UeId) (imsi : Imsi) :
    (m.assigned ue imsi).store.nextProcedure = m.store.nextProcedure := by
  rw [assigned, claim, store_emitMove]
  rfl

theorem context?_assigned (m : Mme) (ue : UeId) (imsi : Imsi) (u : UeId) :
    (m.assigned ue imsi).context? u =
      if u = ue then (m.context? u).map fun c => { c with imsi := some imsi }
      else m.context? u := by
  rw [assigned, context?_claim, context?_modifyContext]

theorem Differs.assigned {ps : Procedures} {t : Timers} (h : m.Differs ue c ps t m₁) (imsi : Imsi) :
    (m.assigned ue imsi).Differs ue { c with imsi := some imsi } ps t (m₁.assigned ue imsi) where
  context := by rw [context?_assigned, if_pos rfl, h.context, Option.map_some]
  others u hu := by simp only [context?_assigned, if_neg hu, h.others u hu]
  index := by rw [index_assigned, index_assigned, h.index]
  nextProcedure := by rw [nextProcedure_assigned, nextProcedure_assigned, h.nextProcedure]
  registry := by simp only [Mme.assigned, registry_claim, registry_modifyContext, h.registry]
  timers := by simp only [Mme.assigned, timers_claim, timers_modifyContext, h.timers]

theorem carryOut_confirmed (m : Mme) (config : NasConfig) (n : Notification)
    (completion : Completion) :
    ∃ m', m.carryOut config (.publish n (.confirmed completion)) =
        (m', [n], .completed (.ok completion)) ∧ m.SameButLog m' := by
  refine ⟨_, ?_, m.sameButLog_emit (.exchanged .sent n.primitive n.ue)⟩
  rw [carryOut]
  simp only [resume]
  rw [carryOut]

theorem Confirms.log (h : m.Confirms ue c p imsi m₁) (hsame : m₁.SameButLog m₂) :
    m.Confirms ue c p imsi m₂ := by
  rw [hsame]
  exact ⟨h.context, h.others, h.index, h.nextProcedure, h.registry, h.timers⟩

theorem complete_of_nobody (hc : m.context? ue = some c)
    (hp : c.procedures.identification = some p) (hfound : Found m ue imsi none) :
    ∃ m₁, m.complete ue (.imsi imsi) =
        (m₁, .publish (.procedureConfirmed ue
          { notify := true, free := true, previousState := p.previousState })
          (.confirmed .confirmed)) ∧
      m.Confirms ue c p imsi m₁ := by
  obtain ⟨m₁, hheard, hcomplete⟩ := complete_hears hc hp imsi
  obtain ⟨m₂, hholder, hlogged⟩ := findHolder_eq (hheard.sameOwners hc) hfound
  have hlooked := hheard.log hlogged
  have hpresent : m₂.store.contains ue = true := by
    rw [contains_eq_isSome, hlooked.context]
    rfl
  have hended := (hlooked.assigned imsi).release rfl
  refine ⟨(m₂.assigned ue imsi).releaseIdentification ue, ?_, hended.context, fun u hu => ?_, ?_,
    ?_, ?_, ?_⟩
  · simp only [hcomplete, settleImsi, hholder, assign, hpresent, if_true]
    rfl
  · rw [hended.others u hu, context?_assigned, if_neg hu]
  · rw [hended.index, index_assigned]
  · rw [hended.nextProcedure, nextProcedure_assigned]
  · rw [hended.registry]
    simp [assigned]
  · rw [hended.timers]
    exact Timers.without_nil _

theorem handle_of_nobody {config : NasConfig} (hc : m.context? ue = some c)
    (hp : c.procedures.identification = some p) (hfound : Found m ue imsi none) :
    ∃ m', m.handle config (.complete ue (.imsi imsi)) =
        (m', [.procedureConfirmed ue
          { notify := true, free := true, previousState := p.previousState }],
          .completed (.ok .confirmed)) ∧
      m.Confirms ue c p imsi m' := by
  obtain ⟨m₁, hbegun, hconfirms⟩ := complete_of_nobody hc hp hfound
  obtain ⟨m', hcarried, hlogged⟩ := m₁.carryOut_confirmed config (.procedureConfirmed ue
    { notify := true, free := true, previousState := p.previousState }) .confirmed
  refine ⟨m', ?_, hconfirms.log hlogged⟩
  simp only [handle, begin, hbegun, hcarried]

/-- A UE with an identification under way answers with an IMSI, and nothing comes between the
notifications. Where the index names another live UE under the IMSI, or else the registry names
another UE, that one is to be torn down and the UE's claim is deferred; else the claim is
confirmed. -/
theorem response_with_imsi {config : NasConfig} {deadline : Instant}
    (hc : m.context? ue = some c) (hp : c.procedures.identification = some p)
    (hdeadline : m.timers.now.after? config.retryInterval = some deadline) (imsi : Imsi) :
    (∀ old a, m.store.owner? imsi = some old → old ≠ ue → m.context? old = some a →
      ∃ m', m.handle config (.complete ue (.imsi imsi)) =
          (m', [.teardownSession old .illegalUe, .procedureConfirmed ue
            { notify := false, free := true, previousState := p.previousState }],
            .completed (.ok (.deferred old))) ∧
        m.Defers ue c p old deadline m' ∧
        m'.context? old = some { a with cause := some .illegalUe } ∧
        ∀ u, u ≠ ue → u ≠ old → m'.context? u = m.context? u) ∧
    ((∀ old, m.store.owner? imsi = some old → old ≠ ue → m.context? old = none) →
      (∀ old, m.registry.owner? imsi = some old → old ≠ ue →
        ∃ m', m.handle config (.complete ue (.imsi imsi)) =
            (m', [.applicationTeardown old, .procedureConfirmed ue
              { notify := false, free := true, previousState := p.previousState }],
              .completed (.ok (.deferred old))) ∧
          m.Defers ue c p old deadline m' ∧ ∀ u, u ≠ ue → m'.context? u = m.context? u) ∧
      ((∀ old, m.registry.owner? imsi = some old → old = ue) →
        ∃ m', m.handle config (.complete ue (.imsi imsi)) =
            (m', [.procedureConfirmed ue
              { notify := true, free := true, previousState := p.previousState }],
              .completed (.ok .confirmed)) ∧
          m.Confirms ue c p imsi m')) := by
  constructor
  · intro old a hindex hne ha
    have hfound : Found m ue imsi (some (.context old)) := .context hindex hne (by rw [ha]; rfl)
    obtain ⟨m', hrun, hdefers, hothers⟩ := handle_of_holder hc hp hdeadline hfound
    refine ⟨m', hrun, hdefers, ?_, fun u hu hold => ?_⟩
    · rw [hothers old hne, blame, context?_modifyContext, if_pos rfl, ha, Option.map_some]
    · rw [hothers u hu, blame, context?_modifyContext, if_neg hold]
  · intro hunheld
    constructor
    · intro old hregistry hne
      exact handle_of_holder hc hp hdeadline (.application hunheld hregistry hne)
    · intro hnobody
      exact handle_of_nobody hc hp (.nobody hunheld hnobody)

/-- A UE that attaches, with a retry timer running, claims the IMSI of another one. -/
theorem response_with_imsi_of_another :
    ∃ (config : NasConfig) (m m' : Mme) (ue old : UeId) (imsi : Imsi) (c : Context)
      (p : Identification) (q : Specific), m.context? ue = some c ∧
      c.procedures.identification = some p ∧ c.procedures.specific = some q ∧
      q.retryTimer.isSome ∧ p.t3470.isSome ∧ m.timers.armed.length = 2 ∧
      m.handle config (.complete ue (.imsi imsi)) =
        (m', [.teardownSession old .illegalUe, .procedureConfirmed ue
          { notify := false, free := true, previousState := p.previousState }],
          .completed (.ok (.deferred old))) ∧
      m'.specific? ue = some (q.park m.timers.nextId old ⟨1000⟩) ∧
      m'.timers.armed = [⟨⟨m.timers.nextId, ue, .specificRetry⟩, ⟨1000⟩⟩] := by
  let x : Imsi := ⟨[0, 0, 1, 0, 1, 0], by decide⟩
  let s := ((System.idle {} 4 8).walk? (fun _ _ => True)
    [.act (.insert { ue := ⟨1⟩, state := .registered, imsi := some x }),
      .act (.insert { ue := ⟨2⟩, state := .deregistered }),
      .act (.beginSpecific ⟨2⟩ .attach), .act (.armRetry ⟨2⟩ ⟨500⟩),
      .send (.start ⟨2⟩ .imsi (some ⟨1⟩)), .receive, .publish, .publish]).get (by decide +kernel)
  let c := (s.mme.context? ⟨2⟩).get (by decide +kernel)
  let a := (s.mme.context? ⟨1⟩).get (by decide +kernel)
  let q : Specific := { id := ⟨1⟩, kind := .attach, retryTimer := some ⟨1⟩ }
  let p : Identification :=
    { id := ⟨2⟩, ue := ⟨2⟩, requested := .imsi, t3470 := some ⟨2⟩, parent := some q.id,
      previousState := .deregistered }
  have hc : s.mme.context? ⟨2⟩ = some c := (Option.some_get _).symm
  have ha : s.mme.context? ⟨1⟩ = some a := (Option.some_get _).symm
  have hp : c.procedures.identification = some p := by decide +kernel
  have hq : c.procedures.specific = some q := by decide +kernel
  have hdeadline : s.mme.timers.now.after? s.config.retryInterval = some ⟨1000⟩ := by
    decide +kernel
  obtain ⟨m', hrun, hdefers, _⟩ := (response_with_imsi hc hp hdeadline x).1 ⟨1⟩ a
    (by decide +kernel) (by decide) ha
  obtain ⟨hparked, htimers⟩ := hdefers.parked q hq rfl
  refine ⟨s.config, s.mme, m', ⟨2⟩, ⟨1⟩, x, c, p, q, hc, hp, hq, rfl, rfl, by decide +kernel, hrun,
    hparked, ?_⟩
  have hstopped : (s.mme.timers.without (p.t3470.toList ++ q.retryTimer.toList)).armed = [] := by
    decide +kernel
  rw [htimers, hstopped]
  rfl

end Mme

end Emm
