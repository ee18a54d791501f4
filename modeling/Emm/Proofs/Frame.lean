import Emm.Proofs.Rejection

/-!
What exactly a handler's turn changes. Most turns change no more than the procedures of one UE and
the timers; `Mme.Differs` says to which, and that all the rest is as it was. `Mme.Strips` says it of
procedures given up where the UE may have lost its context.

Main statements: `start_restarts`, `request_of_identification`, `t3470Expired_of_current` and
`t3470Expired_of_last`. They say what the turns up to an Identity Request, or up to the end after
the last one, leave behind.
-/

namespace Emm

namespace Timers

/-- The timers named in `ids` are disarmed. -/
def without (t : Timers) (ids : List TimerId) : Timers :=
  { t with armed := t.armed.filter fun a => a.id ∉ ids }

@[simp]
theorem without_nil (t : Timers) : t.without [] = t := by
  simp [without]

theorem without_without (t : Timers) (ids ids' : List TimerId) :
    (t.without ids).without ids' = t.without (ids ++ ids') := by
  simp only [without, List.filter_filter, List.mem_append, not_or]
  congr 2
  funext a
  simp [Bool.and_comm]

theorem start_eq {t : Timers} {interval : Duration} {deadline : Instant}
    (h : t.now.after? interval = some deadline) (ue : UeId) (kind : TimerKind) :
    t.start ue kind interval =
      { now := t.now
        nextId := t.nextId.next
        armed := t.armed ++ [⟨⟨t.nextId, ue, kind⟩, deadline⟩] } := by
  simp only [start, Timers.deadline, h, Option.getD_some]

end Timers

namespace Identification

/-- The record after an order to start anew. It keeps its timer. -/
def restarted (p : Identification) (requested : IdentityType) (parent : Option ProcedureId) :
    Identification :=
  { p with requested, parent, expiries := 0 }

def counted (p : Identification) : Identification :=
  { p with t3470 := none, expiries := p.expiries + 1 }

end Identification

namespace Mme

/-- Apart from the log the states differ in no more than the procedures of one UE, whose context was
`c` before, and in the timers. -/
structure Differs (m : Mme) (ue : UeId) (c : Context) (procedures : Procedures) (timers : Timers)
    (m' : Mme) : Prop where
  context : m'.context? ue = some { c with procedures }
  others : ∀ u, u ≠ ue → m'.context? u = m.context? u
  index : m'.store.index = m.store.index
  nextProcedure : m'.store.nextProcedure = m.store.nextProcedure
  registry : m'.registry = m.registry
  timers : m'.timers = timers

variable {m m₁ m₂ : Mme} {ue : UeId} {c : Context} {p : Identification}

namespace Differs

variable {ps : Procedures} {t : Timers}

theorem refl (hc : m.context? ue = some c) : m.Differs ue c c.procedures m.timers m :=
  ⟨hc, fun _ _ => rfl, rfl, rfl, rfl, rfl⟩

theorem log (h : m.Differs ue c ps t m₁) (hsame : m₁.SameButLog m₂) :
    m.Differs ue c ps t m₂ := by
  rw [hsame]
  exact ⟨h.context, h.others, h.index, h.nextProcedure, h.registry, h.timers⟩

theorem emit (h : m.Differs ue c ps t m₁) (e : Log.Event) : m.Differs ue c ps t (m₁.emit e) :=
  h.log (m₁.sameButLog_emit e)

theorem of_emit {e : Log.Event} (h : (m.emit e).Differs ue c ps t m₁) : m.Differs ue c ps t m₁ :=
  ⟨h.context, h.others, h.index, h.nextProcedure, h.registry, h.timers⟩

theorem modifyContext (h : m.Differs ue c ps t m₁) {f : Context → Context} {ps' : Procedures}
    (hf : f { c with procedures := ps } = { c with procedures := ps' }) :
    m.Differs ue c ps' t (m₁.modifyContext ue f) where
  context := by rw [context?_modifyContext, if_pos rfl, h.context, Option.map_some, hf]
  others u hu := by rw [context?_modifyContext, if_neg hu, h.others u hu]
  index := h.index
  nextProcedure := h.nextProcedure
  registry := h.registry
  timers := h.timers

theorem setIdentification (h : m.Differs ue c ps t m₁) (q : Option Identification) :
    m.Differs ue c { ps with identification := q } t (m₁.setIdentification ue q) :=
  h.modifyContext rfl

theorem setSpecific (h : m.Differs ue c ps t m₁) (q : Option Specific) :
    m.Differs ue c { ps with specific := q } t (m₁.setSpecific ue q) :=
  h.modifyContext rfl

theorem stopTimers (h : m.Differs ue c ps t m₁) (ids : List TimerId) :
    m.Differs ue c ps (t.without ids) (m₁.stopTimers ids) where
  context := by rw [context?_stopTimers, h.context]
  others u hu := by rw [context?_stopTimers, h.others u hu]
  index := by rw [store_stopTimers, h.index]
  nextProcedure := by rw [store_stopTimers, h.nextProcedure]
  registry := by rw [registry_stopTimers, h.registry]
  timers := by
    rw [timers_stopTimers, h.timers]
    rfl

theorem startTimer (h : m.Differs ue c ps t m₁) (kind : TimerKind) (interval : Duration) :
    m.Differs ue c ps (t.start ue kind interval) (m₁.startTimer ue kind interval).2 :=
  ⟨h.context, h.others, h.index, h.nextProcedure, h.registry, by rw [timers_startTimer, h.timers]⟩

theorem identification (h : m.Differs ue c ps t m₁) :
    m₁.identification? ue = ps.identification := by
  simp [identification?, h.context]

theorem specific (h : m.Differs ue c ps t m₁) : m₁.specific? ue = ps.specific := by
  simp [specific?, h.context]

theorem release (h : m.Differs ue c ps t m₁) (hp : ps.identification = some p) :
    m.Differs ue c { ps with identification := none } (t.without p.t3470.toList)
      (m₁.releaseIdentification ue) := by
  unfold releaseIdentification
  rw [h.identification, hp]
  exact (h.setIdentification none).stopTimers p.t3470.toList

theorem deleteAll (h : m.Differs ue c ps t m₁) :
    m.Differs ue c {} (t.without ps.recordedTimers) (m₁.deleteProcedures ue) := by
  unfold deleteProcedures
  rw [h.context]
  exact (h.modifyContext rfl).stopTimers ps.recordedTimers

theorem arm (h : m.Differs ue c ps t m₁) (hp : ps.identification = some p) (interval : Duration) :
    m.Differs ue c { ps with identification := some { p with t3470 := some t.nextId } }
      ((t.without p.t3470.toList).start ue .t3470 interval) (m₁.armT3470 interval ue) := by
  have hnext : (m₁.stopTimers p.t3470.toList).timers.nextId = t.nextId := by
    rw [timers_stopTimers, h.timers]
  unfold armT3470
  rw [h.identification, hp]
  have harmed := ((h.stopTimers p.t3470.toList).startTimer .t3470 interval).setIdentification
    (some { p with t3470 := some t.nextId })
  rw [← hnext] at harmed ⊢
  exact harmed.emit _

end Differs

/-- If the UE has a context, of its procedures those are left that `kept` keeps, and the timers that
`stopped` names are disarmed. No more is changed. -/
structure Strips (m : Mme) (ue : UeId) (kept : Procedures → Procedures)
    (stopped : Procedures → List TimerId) (m' : Mme) : Prop where
  present : ∀ c, m.context? ue = some c →
    m.Differs ue c (kept c.procedures) (m.timers.without (stopped c.procedures)) m'
  absent : m.context? ue = none → m.SameButLog m'

/-- The identification of the UE is released with the timer that stands on it, if there is one, and
no more is changed. -/
abbrev Drops (m : Mme) (ue : UeId) (m' : Mme) : Prop :=
  m.Strips ue (fun ps => { ps with identification := none })
    (fun ps => (ps.identification.bind (·.t3470)).toList) m'

/-- Both procedures of the UE are deleted, the timers on record for them are disarmed, and no more
is changed. -/
abbrev Clears (m : Mme) (ue : UeId) (m' : Mme) : Prop :=
  m.Strips ue (fun _ => {}) (·.recordedTimers) m'

namespace Strips

variable {kept : Procedures → Procedures} {stopped : Procedures → List TimerId}

theorem log (h : m.Strips ue kept stopped m₁) (hsame : m₁.SameButLog m₂) :
    m.Strips ue kept stopped m₂ where
  present c hc := (h.present c hc).log hsame
  absent habsent := (h.absent habsent).trans hsame

theorem of_sameButLog (h : m₁.Strips ue kept stopped m₂) (hsame : m.SameButLog m₁) :
    m.Strips ue kept stopped m₂ := by
  rw [hsame] at h
  refine ⟨fun c hc => ?_, h.absent⟩
  have hdiffers := h.present c hc
  exact ⟨hdiffers.context, hdiffers.others, hdiffers.index, hdiffers.nextProcedure,
    hdiffers.registry, hdiffers.timers⟩

theorem isSome_context? (h : m.Strips ue kept stopped m₁) :
    (m₁.context? ue).isSome = (m.context? ue).isSome := by
  cases hc : m.context? ue with
  | none => rw [(h.absent hc).context?, hc]
  | some c =>
      rw [(h.present c hc).context]
      rfl

end Strips

theorem drops_releaseIdentification (m : Mme) (ue : UeId) :
    m.Drops ue (m.releaseIdentification ue) where
  present c hc := by
    cases hp : c.procedures.identification with
    | some p => exact (Differs.refl hc).release hp
    | none =>
        have hsame : m.releaseIdentification ue = m := by
          simp [releaseIdentification, identification?, hc, hp]
        have hprocedures : { c.procedures with identification := none } = c.procedures := by
          rw [← hp]
        rw [hsame, hprocedures, Option.bind_none, Option.toList_none, Timers.without_nil]
        exact .refl hc
  absent habsent := by
    have hsame : m.releaseIdentification ue = m := by
      simp [releaseIdentification, identification?, habsent]
    rw [hsame]
    exact .refl m

theorem clears_deleteProcedures (m : Mme) (ue : UeId) : m.Clears ue (m.deleteProcedures ue) where
  present _ hc := (Differs.refl hc).deleteAll
  absent habsent := by
    unfold deleteProcedures
    rw [habsent]
    exact .refl m

theorem request_of_identification (hc : m.context? ue = some c)
    (hp : c.procedures.identification = some p) (purpose : RequestPurpose) :
    m.request ue purpose =
      (m, .publish (.sendIdentityRequest ue p.requested c.security.params)
        (.requested ue purpose)) := by
  simp only [request, hc, hp]

/-- An order to start has been taken for `ue`, whose context was `c`. Where nothing was pending
there is a record that has counted no expiry and has no timer; a record that was pending has been
taken over, keeps its timer, and its count is set back. -/
structure Restarts (m : Mme) (ue : UeId) (c : Context) (requested : IdentityType)
    (parent : Option ProcedureId) (m' : Mme) : Prop where
  fresh : c.procedures.identification = none →
    m.takeProcedureId.2.Differs ue c
      { c.procedures with
        identification := some
          { id := m.store.nextProcedure, ue, requested, parent, previousState := c.state } }
      m.timers m'
  pending : ∀ p, c.procedures.identification = some p →
    m.Differs ue c { c.procedures with identification := some (p.restarted requested parent) }
      m.timers m'

theorem Restarts.of_emit {e : Log.Event} {requested : IdentityType} {parent : Option ProcedureId}
    (h : (m.emit e).Restarts ue c requested parent m₁) : m.Restarts ue c requested parent m₁ where
  fresh hnone :=
    have hfresh := h.fresh hnone
    ⟨hfresh.context, hfresh.others, hfresh.index, hfresh.nextProcedure, hfresh.registry,
      hfresh.timers⟩
  pending p hp := (h.pending p hp).of_emit

theorem start_restarts {requested : IdentityType} (hrequest : requested.isRequestable = true)
    (hc : m.context? ue = some c) (hadmits : c.state.admitsIdentification = true)
    (parent : Option ProcedureId) :
    ∃ m', m.start ue requested parent =
        (m', .publish (.sendIdentityRequest ue requested c.security.params)
          (.requested ue .start)) ∧
      m.Restarts ue c requested parent m' := by
  cases hp : c.procedures.identification with
  | none =>
      let q : Identification :=
        { id := m.store.nextProcedure, ue, requested, parent, previousState := c.state }
      have hentered : m.enterIdentification ue c requested parent =
          m.takeProcedureId.2.setIdentification ue (some q) := by
        simp only [enterIdentification, hp]
        rfl
      have hdiffers := ((Differs.refl (m := m.takeProcedureId.2) hc).setIdentification
        (some q)).emit (.initiating ue requested)
      refine ⟨_, ?_, fun _ => hdiffers, fun p hsome => absurd (hp.symm.trans hsome) nofun⟩
      simp only [start, hrequest, hc, hadmits, hentered]
      exact request_of_identification hdiffers.context rfl .start
  | some p =>
      have hentered : m.enterIdentification ue c requested parent =
          (m.emit (.procedureReused ue p.id)).setIdentification ue
            (some (p.restarted requested parent)) := by
        simp only [enterIdentification, hp]
        rfl
      have hdiffers := (((Differs.refl hc).emit (.procedureReused ue p.id)).setIdentification
        (some (p.restarted requested parent))).emit (.initiating ue requested)
      generalize hm' : Mme.emit _ (.initiating ue requested) = m' at hdiffers
      refine ⟨m', ?_, fun hnone => absurd (hp.symm.trans hnone) nofun, fun p' hsome => ?_⟩
      · simp only [start, hrequest, hc, hadmits, hentered, hm']
        exact request_of_identification hdiffers.context rfl .start
      · cases hp.symm.trans hsome
        exact hdiffers

section Expired

variable {timer : TimerId} {config : NasConfig} (hc : m.context? ue = some c)
  (hp : c.procedures.identification = some p) (htimer : p.t3470 = some timer)

include hc hp htimer

theorem t3470Expired_of_current (hbelow : p.expiries + 1 < config.maxRetransmissions) :
    ∃ m', m.t3470Expired config ue timer =
        (m', .publish (.sendIdentityRequest ue p.requested c.security.params)
          (.requested ue .retransmission)) ∧
      m.Differs ue c { c.procedures with identification := some p.counted } m.timers m' := by
  have hfound : c.procedures.identification.filter (fun p => p.t3470 = some timer) = some p := by
    simp [hp, htimer]
  have hdiffers := ((Differs.refl hc).setIdentification (some p.counted)).emit
    (.t3470Expired ue timer (p.expiries + 1))
  refine ⟨_, ?_, hdiffers⟩
  simp only [t3470Expired, hc, hfound, if_pos hbelow]
  exact request_of_identification hdiffers.context rfl .retransmission

theorem t3470Expired_of_last (hbound : ¬p.expiries + 1 < config.maxRetransmissions) :
    ∃ m', m.t3470Expired config ue timer =
        (m', .publish (.procedureAborted ue
          { notify := false, free := true, previousState := p.previousState }
          .retransmissionExceeded) (.exhausted ue)) ∧
      m.Differs ue c { c.procedures with identification := some p.counted } m.timers m' := by
  have hfound : c.procedures.identification.filter (fun p => p.t3470 = some timer) = some p := by
    simp [hp, htimer]
  have hdiffers := (((Differs.refl hc).setIdentification (some p.counted)).emit
    (.t3470Expired ue timer (p.expiries + 1))).emit (.limitReached ue (p.expiries + 1))
  refine ⟨_, ?_, hdiffers⟩
  simp only [t3470Expired, hc, hfound, if_neg hbound]
  rfl

end Expired

end Mme

end Emm
