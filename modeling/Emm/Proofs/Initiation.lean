import Emm.Proofs.Frame

/-!
What an order to start an identification comes to when nothing comes between the notifications of
its handler and all of them are taken.

Main statement: `start_end_to_end`.
-/

namespace Emm

theorem EmmState.admitsIdentification_iff (s : EmmState) :
    s.admitsIdentification = true ↔
      s = .deregistered ∨ s = .registered ∨ s = .commonProcedureInitiated := by
  cases s <;> simp [admitsIdentification]

theorem IdentityType.isRequestable_iff (t : IdentityType) : t.isRequestable = true ↔ t ≠ .tmsi := by
  simp [isRequestable]

namespace Mme

/-- The identification of `ue`, whose context was `c`, has been started. A pending one has been
taken over; else there is a new one. Its T3470 is a new timer, and the one that stood on the record
is disarmed. -/
structure Starts (config : NasConfig) (m : Mme) (ue : UeId) (c : Context)
    (requested : IdentityType) (parent : Option ProcedureId) (p : Identification) (m' : Mme) :
    Prop where
  context : m'.context? ue =
    some { c with procedures := { c.procedures with identification := some p } }
  pending : ∀ q, c.procedures.identification = some q →
    p = { q with requested, parent, expiries := 0, t3470 := some m.timers.nextId } ∧
      m'.store.nextProcedure = m.store.nextProcedure
  fresh : c.procedures.identification = none →
    p = { id := m.store.nextProcedure, ue, requested, parent, expiries := 0,
          t3470 := some m.timers.nextId, previousState := c.state } ∧
      m'.store.nextProcedure = m.store.nextProcedure.next
  others : ∀ u, u ≠ ue → m'.context? u = m.context? u
  index : m'.store.index = m.store.index
  registry : m'.registry = m.registry
  timers : m'.timers =
    (m.timers.without (c.procedures.identification.bind (·.t3470)).toList).start ue .t3470
      config.t3470Interval

variable {m m₁ m₂ : Mme} {ue : UeId} {c : Context} {requested : IdentityType}
  {parent : Option ProcedureId} {config : NasConfig}

namespace Starts

variable {p : Identification}

theorem armed (h : m.Starts config ue c requested parent p m₁) :
    ⟨⟨m.timers.nextId, ue, .t3470⟩, Timers.deadline m.timers.now config.t3470Interval⟩ ∈
      m₁.timers.armed := by
  rw [h.timers]
  exact List.mem_append_right _ (List.mem_singleton_self _)

theorem disarmed (h : m.Starts config ue c requested parent p m₁) {q : Identification}
    (hq : c.procedures.identification = some q) {timer : TimerId} (htimer : q.t3470 = some timer)
    (hissued : timer ≠ m.timers.nextId) : m₁.timers.isArmed timer = false := by
  rw [h.timers, hq, Option.bind_some, htimer]
  have hothers : ∀ a ∈ m.timers.armed, ¬a.id = timer → decide (a.id = timer) = false :=
    fun _ _ hne => decide_eq_false hne
  simpa [Timers.isArmed, Timers.start, Timers.without, ArmedTimer.id, hissued.symm] using hothers

theorem log (h : m.Starts config ue c requested parent p m₁) (hsame : m₁.SameButLog m₂) :
    m.Starts config ue c requested parent p m₂ := by
  rw [hsame]
  exact ⟨h.context, h.pending, h.fresh, h.others, h.index, h.registry, h.timers⟩

end Starts

theorem Restarts.log (h : m.Restarts ue c requested parent m₁) (hsame : m₁.SameButLog m₂) :
    m.Restarts ue c requested parent m₂ :=
  ⟨fun hnone => (h.fresh hnone).log hsame, fun q hq => (h.pending q hq).log hsame⟩

theorem Restarts.starts (h : m.Restarts ue c requested parent m₁) (config : NasConfig) :
    ∃ p, m.Starts config ue c requested parent p (m₁.armT3470 config.t3470Interval ue) := by
  cases hp : c.procedures.identification with
  | none =>
      have harmed := (h.fresh hp).arm rfl config.t3470Interval
      rw [Option.toList_none, Timers.without_nil] at harmed
      refine ⟨_, harmed.context, ?_, ?_, harmed.others, harmed.index, harmed.registry, ?_⟩
      · intro q hq
        cases hp.symm.trans hq
      · intro _
        exact ⟨rfl, harmed.nextProcedure⟩
      · rw [hp]
        exact harmed.timers.trans (by simp)
  | some q =>
      have harmed := (h.pending q hp).arm rfl config.t3470Interval
      refine ⟨_, harmed.context, ?_, ?_, harmed.others, harmed.index, harmed.registry, ?_⟩
      · intro q' hq'
        cases hp.symm.trans hq'
        exact ⟨rfl, harmed.nextProcedure⟩
      · intro hnone
        cases hp.symm.trans hnone
      · rw [hp]
        exact harmed.timers

theorem handle_of_refused {e : IdentificationError}
    (h : m.start ue requested parent = (m, .done (.started (.error e)))) (config : NasConfig) :
    m.handle config (.start ue requested parent) = (m, [], .started (.error e)) := by
  simp only [handle, begin, h]
  rw [carryOut]

theorem handle_start_unsupported (m : Mme) (config : NasConfig) (ue : UeId)
    (parent : Option ProcedureId) :
    m.handle config (.start ue .tmsi parent) =
      (m, [], .started (.error (.unsupportedIdentityType .tmsi))) :=
  handle_of_refused rfl config

section Requestable

variable (hrequest : requested ≠ .tmsi)

include hrequest

theorem handle_start_absent (config : NasConfig) (habsent : m.context? ue = none)
    (parent : Option ProcedureId) :
    m.handle config (.start ue requested parent) =
      (m, [], .started (.error (.contextNotFound ue))) := by
  have hrequestable := requested.isRequestable_iff.2 hrequest
  apply handle_of_refused
  simp [start, hrequestable, habsent]

theorem handle_start_inadmissible (config : NasConfig) (hc : m.context? ue = some c)
    (hstate : c.state = .invalid ∨ c.state = .deregisteredInitiated)
    (parent : Option ProcedureId) :
    m.handle config (.start ue requested parent) =
      (m, [], .started (.error (.invalidState ue c.state))) := by
  have hrequestable := requested.isRequestable_iff.2 hrequest
  have hinadmissible : c.state.admitsIdentification = false := by
    rcases hstate with h | h
    · rw [h]
      rfl
    · rw [h]
      rfl
  apply handle_of_refused
  simp [start, hrequestable, hc, hinadmissible]

theorem handle_start_admissible (config : NasConfig) (hc : m.context? ue = some c)
    (hstate : c.state = .deregistered ∨ c.state = .registered ∨
      c.state = .commonProcedureInitiated) (parent : Option ProcedureId) :
    ∃ p m', m.handle config (.start ue requested parent) =
        (m', [.sendIdentityRequest ue requested c.security.params, .procedureStarted ue],
          .started (.ok ())) ∧
      m.Starts config ue c requested parent p m' := by
  obtain ⟨m₁, hbegun, hrestarts⟩ := start_restarts (requested.isRequestable_iff.2 hrequest) hc
    (c.state.admitsIdentification_iff.2 hstate) parent
  let sent := m₁.emit (.exchanged .sent "EMMAS_SECURITY_REQ" ue)
  have hsent := hrestarts.log (m₁.sameButLog_emit (.exchanged .sent "EMMAS_SECURITY_REQ" ue))
  obtain ⟨p, hstarts⟩ := hsent.starts config
  have hannounced := sameButLog_emit (sent.armT3470 config.t3470Interval ue)
    (.exchanged .sent "EMMREG_COMMON_PROC_REQ" ue)
  refine ⟨p, _, ?_, hstarts.log hannounced⟩
  simp only [handle, begin, hbegun]
  rw [carryOut]
  simp only [resume, requestSucceeded]
  rw [carryOut]
  simp only [resume]
  rw [carryOut]
  rfl

end Requestable

theorem handle_start_ok_iff (m : Mme) (config : NasConfig) (ue : UeId) (requested : IdentityType)
    (parent : Option ProcedureId) :
    (m.handle config (.start ue requested parent)).2.2 = .started (.ok ()) ↔
      requested ≠ .tmsi ∧ ∃ c, m.context? ue = some c ∧
        (c.state = .deregistered ∨ c.state = .registered ∨
          c.state = .commonProcedureInitiated) := by
  constructor
  · intro hok
    have hrequest : requested ≠ .tmsi := by
      rintro rfl
      rw [handle_start_unsupported] at hok
      cases hok
    refine ⟨hrequest, ?_⟩
    cases hc : m.context? ue with
    | none =>
        rw [handle_start_absent hrequest config hc] at hok
        cases hok
    | some c =>
        refine ⟨c, rfl, ?_⟩
        have hvalid : ¬(c.state = .invalid ∨ c.state = .deregisteredInitiated) := by
          intro hstate
          rw [handle_start_inadmissible hrequest config hc hstate] at hok
          cases hok
        cases hstate : c.state <;> simp [hstate] at hvalid ⊢
  · rintro ⟨hrequest, c, hc, hstate⟩
    obtain ⟨p, m', hrun, _⟩ := handle_start_admissible hrequest config hc hstate parent
    rw [hrun]

/-- An order to start an identification fails at the first of three checks that does not hold, and
then changes nothing at all. If all of them hold the request is sent and the start announced, and
after that the UE has one identification with what was asked for, a count of zero and a new T3470
that runs for the whole interval. -/
theorem start_end_to_end (m : Mme) (config : NasConfig) (ue : UeId) (requested : IdentityType)
    (parent : Option ProcedureId) :
    ((m.handle config (.start ue requested parent)).2.2 = .started (.ok ()) ↔
      requested ≠ .tmsi ∧ ∃ c, m.context? ue = some c ∧
        (c.state = .deregistered ∨ c.state = .registered ∨
          c.state = .commonProcedureInitiated)) ∧
    (requested = .tmsi → m.handle config (.start ue requested parent) =
      (m, [], .started (.error (.unsupportedIdentityType requested)))) ∧
    (requested ≠ .tmsi → m.context? ue = none → m.handle config (.start ue requested parent) =
      (m, [], .started (.error (.contextNotFound ue)))) ∧
    (requested ≠ .tmsi → ∀ c, m.context? ue = some c →
      (c.state = .invalid ∨ c.state = .deregisteredInitiated →
        m.handle config (.start ue requested parent) =
          (m, [], .started (.error (.invalidState ue c.state)))) ∧
      (c.state = .deregistered ∨ c.state = .registered ∨ c.state = .commonProcedureInitiated →
        ∃ p m', m.handle config (.start ue requested parent) =
            (m', [.sendIdentityRequest ue requested c.security.params, .procedureStarted ue],
              .started (.ok ())) ∧
          m.Starts config ue c requested parent p m' ∧
          ⟨⟨m.timers.nextId, ue, .t3470⟩, Timers.deadline m.timers.now config.t3470Interval⟩ ∈
            m'.timers.armed ∧
          ∀ q timer, c.procedures.identification = some q → q.t3470 = some timer →
            timer ≠ m.timers.nextId → m'.timers.isArmed timer = false)) := by
  refine ⟨handle_start_ok_iff m config ue requested parent, ?_, ?_, fun hrequest c hc => ⟨?_, ?_⟩⟩
  · rintro rfl
    exact handle_start_unsupported m config ue parent
  · intro hrequest habsent
    exact handle_start_absent hrequest config habsent parent
  · intro hstate
    exact handle_start_inadmissible hrequest config hc hstate parent
  · intro hstate
    obtain ⟨p, m', hrun, hstarts⟩ := handle_start_admissible hrequest config hc hstate parent
    refine ⟨p, m', hrun, hstarts, hstarts.armed, ?_⟩
    intro q timer hq htimer hissued
    exact hstarts.disarmed hq htimer hissued

/-- A second order to start takes the pending identification over, whose T3470 is running. -/
theorem start_end_to_end_pending :
    ∃ (config : NasConfig) (m m' : Mme) (ue : UeId) (c : Context) (p q : Identification),
      m.context? ue = some c ∧ c.procedures.identification = some q ∧ q.requested = .imei ∧
      m.timers.isArmed ⟨1⟩ = true ∧ q.t3470 = some ⟨1⟩ ∧
      m.handle config (.start ue .imsi (some ⟨7⟩)) =
        (m', [.sendIdentityRequest ue .imsi c.security.params, .procedureStarted ue],
          .started (.ok ())) ∧
      m'.identification? ue = some p ∧ p.id = q.id ∧ p.requested = .imsi ∧ p.parent = some ⟨7⟩ ∧
      p.t3470 = some ⟨2⟩ ∧ m'.timers.isArmed ⟨1⟩ = false := by
  let s := ((System.idle {} 4 8).walk? (fun _ _ => True)
    [.act (.insert { ue := ⟨1⟩, state := .registered }), .send (.start ⟨1⟩ .imei none), .receive,
      .publish, .publish]).get (by decide +kernel)
  let c := (s.mme.context? ⟨1⟩).get (by decide +kernel)
  let q : Identification :=
    { id := ⟨1⟩, ue := ⟨1⟩, requested := .imei, t3470 := some ⟨1⟩, parent := none,
      previousState := .registered }
  have hc : s.mme.context? ⟨1⟩ = some c := (Option.some_get _).symm
  have hq : c.procedures.identification = some q := by decide +kernel
  have hnext : s.mme.timers.nextId = ⟨2⟩ := by decide +kernel
  obtain ⟨_, _, _, hpresent⟩ := start_end_to_end s.mme s.config ⟨1⟩ .imsi (some ⟨7⟩)
  obtain ⟨p, m', hrun, hstarts, _, hdisarmed⟩ :=
    (hpresent (by decide) c hc).2 (.inr (.inl (by decide +kernel)))
  have hp := (hstarts.pending q hq).1
  refine ⟨s.config, s.mme, m', ⟨1⟩, c, p, q, hc, hq, rfl, by decide +kernel, rfl, hrun, ?_, ?_⟩
  · rw [identification?, hstarts.context]
    rfl
  · rw [hp, hnext]
    exact ⟨rfl, rfl, rfl, rfl, hdisarmed q ⟨1⟩ hq rfl (by rw [hnext]; decide)⟩

end Mme

end Emm
