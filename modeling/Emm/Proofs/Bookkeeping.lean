import Emm.Proofs.Ledger

/-!
What the operations on the shared state do to the ledger of timers. Main statements: `Edit.entries`,
by which the edits of a handler are entries in the ledger, and `ledger_tearDown`.
-/

namespace Emm

namespace Mme

/-- The timer of this kind that is on record for the UE. -/
def handle? (m : Mme) (ue : UeId) (kind : TimerKind) : Option TimerId :=
  (m.context? ue).bind (·.procedures.timer? kind)

def ledger (m : Mme) : Ledger := ⟨m.handle?, m.timers⟩

variable (m : Mme) (ue u : UeId) (kind k : TimerKind)

theorem handle?_of_context? {c : Context} (hc : m.context? ue = some c) :
    m.handle? ue kind = c.procedures.timer? kind := by
  simp [handle?, hc]

theorem handle?_t3470 : m.handle? ue .t3470 = (m.identification? ue).bind (·.t3470) := by
  simp only [handle?, identification?, Option.bind_assoc]
  rfl

theorem handle?_specificRetry :
    m.handle? ue .specificRetry = (m.specific? ue).bind (·.retryTimer) := by
  simp only [handle?, specific?, Option.bind_assoc]
  rfl

theorem handle?_congr {m m' : Mme}
    (h : ∀ u, (m'.context? u).map (·.procedures) = (m.context? u).map (·.procedures)) :
    m'.handle? = m.handle? := by
  funext u k
  have hbind : ∀ m : Mme, m.handle? u k =
      ((m.context? u).map (·.procedures)).bind (·.timer? k) := by
    intro m
    rw [Option.bind_map]
    rfl
  rw [hbind m', hbind m, h u]

theorem handle?_modifyContext {f : Context → Context}
    (hf : ∀ c, (f c).procedures = c.procedures) : (m.modifyContext ue f).handle? = m.handle? := by
  refine handle?_congr fun u => ?_
  rw [context?_modifyContext]
  split
  · simp [Option.map_map, Function.comp_def, hf]
  · rfl

theorem handle?_setIdentification {c : Context} (hc : m.context? ue = some c)
    (p : Option Identification) :
    (m.setIdentification ue p).handle? u k =
      if u = ue ∧ k = .t3470 then p.bind (·.t3470) else m.handle? u k := by
  simp only [handle?, context?_setIdentification]
  by_cases hu : u = ue
  · subst hu
    cases k <;> simp [hc, Procedures.timer?]
  · simp [hu]

theorem handle?_setSpecific {c : Context} (hc : m.context? ue = some c) (p : Option Specific) :
    (m.setSpecific ue p).handle? u k =
      if u = ue ∧ k = .specificRetry then p.bind (·.retryTimer) else m.handle? u k := by
  simp only [handle?, context?_setSpecific]
  by_cases hu : u = ue
  · subst hu
    cases k <;> simp [hc, Procedures.timer?]
  · simp [hu]

@[simp]
theorem handle?_stopTimers (ids : List TimerId) : (m.stopTimers ids).handle? = m.handle? :=
  handle?_congr fun u => by rw [context?_stopTimers]

@[simp]
theorem handle?_startTimer (interval : Duration) :
    (m.startTimer ue kind interval).2.handle? = m.handle? := rfl

theorem context_of_specific? {s : Specific} (hs : m.specific? ue = some s) :
    ∃ c, m.context? ue = some c ∧ c.procedures.specific = some s := by
  simpa [specific?, Option.bind_eq_some_iff] using hs

theorem recordedT3470_eq {p : Identification} (hp : m.identification? ue = some p) :
    p.t3470.toList = [TimerKind.t3470].filterMap (m.handle? ue) := by
  cases ht : p.t3470 <;> simp [handle?_t3470, hp, ht]

theorem recordedTimers_eq {c : Context} (hc : m.context? ue = some c) :
    c.procedures.recordedTimers =
      [TimerKind.t3470, .specificRetry].filterMap (m.handle? ue) := by
  have hhandle := fun k => handle?_of_context? m ue k hc
  cases hi : c.procedures.timer? .t3470 <;> cases hs : c.procedures.timer? .specificRetry <;>
    simp_all [Procedures.recordedTimers, Procedures.timer?]

end Mme

namespace Ledger

/-- One entry that a handler makes in the ledger. -/
inductive Entry (occasion : Occasion) (l : Ledger) : Ledger → Prop
  | drop (ue : UeId) (kinds : List TimerKind) : Entry occasion l (l.drop ue kinds)
  | start {ue : UeId} {kind : TimerKind} (interval : Duration) (hfree : l.handle ue kind = none)
      (hnext : l.timers.nextId = occasion.nextId) : Entry occasion l (l.start ue kind interval)
  | take {e : Expiry} (hoccasion : occasion.expiry = some e)
      (hhandle : l.handle e.ue e.kind = some e.timer) : Entry occasion l (l.take e)

abbrev Entries (occasion : Occasion) : Ledger → Ledger → Prop :=
  Relation.ReflTransGen (Entry occasion)

/-- Starts a timer in place of the one on record, which is stopped. -/
def restart (l : Ledger) (ue : UeId) (kind : TimerKind) (interval : Duration) : Ledger :=
  (l.drop ue [kind]).start ue kind interval

theorem entries_restart {occasion : Occasion} (l : Ledger) (ue : UeId) (kind : TimerKind)
    (interval : Duration) (hnext : l.timers.nextId = occasion.nextId) :
    Entries occasion l (l.restart ue kind interval) :=
  (Relation.ReflTransGen.single (.drop ue [kind])).tail
    (.start interval (by simp [drop]) hnext)

theorem ext {l l' : Ledger} (hhandle : ∀ u k, l.handle u k = l'.handle u k)
    (htimers : l.timers = l'.timers) : l = l' := by
  cases l
  cases l'
  cases htimers
  congr 1
  funext u k
  exact hhandle u k

end Ledger

namespace Mme

variable (m : Mme) (ue : UeId)

theorem ledger_of_procedures {m m' : Mme}
    (h : ∀ u, (m'.context? u).map (·.procedures) = (m.context? u).map (·.procedures))
    (htimers : m'.timers = m.timers) : m'.ledger = m.ledger :=
  congrArg₂ Ledger.mk (handle?_congr h) htimers

theorem ledger_modifyContext {f : Context → Context} (hf : ∀ c, (f c).procedures = c.procedures) :
    (m.modifyContext ue f).ledger = m.ledger :=
  congrArg₂ Ledger.mk (handle?_modifyContext m ue hf) rfl

theorem ledger_setIdentification {p q : Identification} (hp : m.identification? ue = some p)
    (hq : q.t3470 = p.t3470) : (m.setIdentification ue (some q)).ledger = m.ledger := by
  obtain ⟨c, hc, _⟩ := (identification?_eq_some_iff m ue p).1 hp
  refine Ledger.ext (fun u k => ?_) rfl
  simp only [ledger, handle?_setIdentification m ue u k hc]
  split
  · rename_i hsame
    obtain ⟨rfl, rfl⟩ := hsame
    rw [handle?_t3470, hp]
    exact hq
  · rfl

theorem ledger_enterIdentification {c : Context} (hc : m.context? ue = some c)
    (requested : IdentityType) (parent : Option ProcedureId) :
    (m.enterIdentification ue c requested parent).ledger = m.ledger := by
  unfold enterIdentification
  split
  · rename_i p hp
    have hident : m.identification? ue = some p :=
      (identification?_eq_some_iff m ue p).2 ⟨c, hc, hp⟩
    exact ledger_setIdentification (m.emit _) ue hident rfl
  · rename_i hnone
    -- the new record has no timer yet, and there was none before it
    refine Ledger.ext (fun u k => ?_) rfl
    have hc' : m.takeProcedureId.2.context? ue = some c := hc
    simp only [ledger, handle?_setIdentification _ ue u k hc']
    split
    · rename_i hsame
      obtain ⟨rfl, rfl⟩ := hsame
      rw [handle?_of_context? m u .t3470 hc]
      simp [Procedures.timer?, hnone]
    · rfl

theorem ledger_dropT3470 {p : Identification} (hp : m.identification? ue = some p)
    {q : Option Identification} (hq : q.bind (·.t3470) = none) :
    ((m.setIdentification ue q).stopTimers p.t3470.toList).ledger =
      m.ledger.drop ue [.t3470] := by
  obtain ⟨c, hc, _⟩ := (identification?_eq_some_iff m ue p).1 hp
  refine Ledger.ext (fun u k => ?_) ?_
  · simp [ledger, Ledger.drop, handle?_setIdentification m ue u k hc, hq]
  · simp [ledger, Ledger.drop, recordedT3470_eq m ue hp]

theorem ledger_restart {m m' : Mme} {ue : UeId} {kind : TimerKind} {ids : List TimerId}
    {interval : Duration} (hids : [kind].filterMap (m.handle? ue) = ids)
    (hhandle : ∀ u k, m'.handle? u k =
      if u = ue ∧ k = kind then some m.timers.nextId else m.handle? u k)
    (htimers : m'.timers = (m.stopTimers ids).timers.start ue kind interval) :
    m'.ledger = m.ledger.restart ue kind interval := by
  refine Ledger.ext (fun u k => ?_) ?_
  · simp only [ledger, Ledger.restart, Ledger.start, Ledger.drop, hhandle, List.mem_singleton]
    split <;> rfl
  · simp [ledger, Ledger.restart, Ledger.drop, Ledger.start, htimers, hids]

theorem ledger_armT3470 (interval : Duration) :
    (m.armT3470 interval ue).ledger = m.ledger ∨
      (m.armT3470 interval ue).ledger = m.ledger.restart ue .t3470 interval := by
  unfold armT3470
  split
  · rename_i p hp
    obtain ⟨c, hc, _⟩ := (identification?_eq_some_iff m ue p).1 hp
    have hstarted : ((m.stopTimers p.t3470.toList).startTimer ue .t3470 interval).2.context? ue =
        some c := by
      rw [context?_startTimer, context?_stopTimers, hc]
    refine .inr (ledger_restart (recordedT3470_eq m ue hp).symm (fun u k => ?_) rfl)
    refine (handle?_setIdentification _ ue u k hstarted _).trans ?_
    simp only [handle?_startTimer, handle?_stopTimers, timers_stopTimers, Option.bind_some]
  · exact .inl rfl

theorem ledger_parkParent (interval : Duration) (parent : Option ProcedureId) (old : UeId) :
    (m.parkParent interval ue parent old).1.ledger = m.ledger ∨
      (m.parkParent interval ue parent old).1.ledger =
        m.ledger.restart ue .specificRetry interval := by
  unfold parkParent
  split
  · exact .inl rfl
  · split
    · exact .inl rfl
    · rename_i s hs
      obtain ⟨c, hc, hfound⟩ := Option.bind_eq_some_iff.1 hs
      have hspecific : c.procedures.specific = some s := (Option.filter_eq_some_iff.1 hfound).1
      have hids : [TimerKind.specificRetry].filterMap (m.handle? ue) = s.retryTimer.toList := by
        cases ht : s.retryTimer <;>
          simp [handle?_of_context? m ue _ hc, Procedures.timer?, hspecific, ht]
      have hstarted : ((m.stopTimers s.retryTimer.toList).startTimer ue .specificRetry
          interval).2.context? ue = some c := by
        rw [context?_startTimer, context?_stopTimers, hc]
      have noted : ∀ q : Specific, q.retryTimer = some m.timers.nextId →
          (((m.stopTimers s.retryTimer.toList).startTimer ue
            .specificRetry interval).2.setSpecific ue (some q)).ledger =
              m.ledger.restart ue .specificRetry interval := by
        intro q hq
        refine ledger_restart hids (fun u k => ?_) rfl
        refine (handle?_setSpecific _ ue u k hstarted _).trans ?_
        simp only [handle?_startTimer, handle?_stopTimers, Option.bind_some, hq]
      simp only
      split
      · exact .inr (noted _ (by simp))
      · exact .inr (noted _ (by simp))

theorem ledger_takeT3470 {p q : Identification} (hp : m.identification? ue = some p)
    (hq : q.t3470 = none) (timer : TimerId) :
    (m.setIdentification ue (some q)).ledger = m.ledger.take ⟨timer, ue, .t3470⟩ := by
  obtain ⟨c, hc, _⟩ := (identification?_eq_some_iff m ue p).1 hp
  refine Ledger.ext (fun u k => ?_) rfl
  simp only [ledger, Ledger.take, handle?_setIdentification m ue u k hc, Option.bind_some, hq]

theorem ledger_takeRetry {s q : Specific} (hs : m.specific? ue = some s)
    (hq : q.retryTimer = none) (timer : TimerId) :
    (m.setSpecific ue (some q)).ledger = m.ledger.take ⟨timer, ue, .specificRetry⟩ := by
  obtain ⟨c, hc, hrecord⟩ := context_of_specific? m ue hs
  refine Ledger.ext (fun u k => ?_) rfl
  simp only [ledger, Ledger.take, handle?_setSpecific m ue u k hc, Option.bind_some, hq]

theorem ledger_deleteProcedures {c : Context} (hc : m.context? ue = some c) :
    (m.deleteProcedures ue).ledger = m.ledger.drop ue [.t3470, .specificRetry] := by
  unfold deleteProcedures
  rw [hc]
  refine Ledger.ext (fun u k => ?_) ?_
  · simp only [ledger, Ledger.drop, handle?_stopTimers]
    simp only [handle?, context?_modifyContext]
    by_cases hu : u = ue
    · subst hu
      cases k <;> simp [hc, Procedures.timer?]
    · simp [hu]
  · simp [ledger, Ledger.drop, recordedTimers_eq m ue hc]

theorem ledger_tearDown :
    (m.tearDown ue).ledger = m.ledger ∨
      (m.tearDown ue).ledger = m.ledger.drop ue [.t3470, .specificRetry] := by
  unfold tearDown
  split
  · rename_i c hc
    refine .inr (Ledger.ext (fun u k => ?_) ?_)
    · change ((m.removeContext ue).stopTimers c.procedures.recordedTimers).handle? u k = _
      rw [handle?_stopTimers]
      simp only [ledger, Ledger.drop, handle?, context?_removeContext]
      by_cases hu : u = ue
      · cases k <;> simp [hu]
      · simp [hu]
    · change ((m.removeContext ue).stopTimers c.procedures.recordedTimers).timers = _
      simp [ledger, Ledger.drop, recordedTimers_eq m ue hc]
  · exact .inl rfl

end Mme

/-- The edits of a handler are entries in the ledger. -/
theorem Edit.entries {occasion : Occasion} {m m' : Mme} (h : Edit occasion m m') :
    Ledger.Entries occasion m.ledger m'.ledger := by
  have same : ∀ {m' : Mme}, m'.ledger = m.ledger → Ledger.Entries occasion m.ledger m'.ledger := by
    intro m' heq
    rw [heq]
  have restarted : ∀ {m' : Mme} ue kind interval, m.timers.nextId = occasion.nextId →
      m'.ledger = m.ledger ∨ m'.ledger = m.ledger.restart ue kind interval →
        Ledger.Entries occasion m.ledger m'.ledger := by
    rintro m' ue kind interval hnext (heq | heq)
    · exact same heq
    · rw [heq]
      exact m.ledger.entries_restart ue kind interval hnext
  cases h with
  | log log => exact .refl
  | enter requested parent hc hadmits =>
      exact same (m.ledger_enterIdentification _ hc requested parent)
  | arm interval ue hnext => exact restarted _ _ _ hnext (m.ledger_armT3470 ue interval)
  | disarm hp =>
      rw [m.ledger_dropT3470 _ hp rfl]
      exact .single (.drop _ _)
  | equip ue identity =>
      exact same (m.ledger_modifyContext ue fun c => by cases identity <;> rfl)
  | release ue =>
      unfold Mme.releaseIdentification
      split
      · rename_i p hp
        rw [m.ledger_dropT3470 ue hp rfl]
        exact .single (.drop _ _)
      · exact .refl
  | assign hc hindex hregistry =>
      refine same ?_
      refine (Mme.ledger_of_procedures (fun u => ?_) (Mme.timers_claim _ _ _)).trans
        (m.ledger_modifyContext _ fun _ => rfl)
      rw [Mme.context?_claim]
  | blame old => exact same (m.ledger_modifyContext old fun _ => rfl)
  | park interval ue parent old hnext =>
      exact restarted _ _ _ hnext (m.ledger_parkParent ue interval parent old)
  | deleteAll ue =>
      cases hc : m.context? ue with
      | none =>
          unfold Mme.deleteProcedures
          rw [hc]
      | some c =>
          rw [m.ledger_deleteProcedures ue hc]
          exact .single (.drop _ _)
  | takeT3470 hoccasion hp htimer =>
      rename_i timer p
      rw [m.ledger_takeT3470 _ hp rfl timer]
      exact .single (.take hoccasion (by simp [Mme.ledger, Mme.handle?_t3470, hp, htimer]))
  | takeRetry hoccasion hs htimer =>
      rename_i timer s
      rw [m.ledger_takeRetry _ hs rfl timer]
      exact .single (.take hoccasion (by simp [Mme.ledger, Mme.handle?_specificRetry, hs, htimer]))

theorem Edits.entries {occasion : Occasion} {m m' : Mme} (h : Edits occasion m m') :
    Ledger.Entries occasion m.ledger m'.ledger := by
  induction h with
  | refl => exact .refl
  | tail _ hedit ih => exact ih.trans hedit.entries

end Emm
