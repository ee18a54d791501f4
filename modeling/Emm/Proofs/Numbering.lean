import Emm.Proofs.Descent

/-!
The identifiers of procedures. One counter numbers the identifications and the specific procedures
of all UEs, and an identification names its parent by identifier only. Between the start of an
identification and its end the parent may be replaced, or the UE may lose its context and get
another; a run has to show that the name never comes to stand for another procedure.

Main statements: `numbers_step`, which says what a move does to the counter and to the records; and
`procedure_ids_lasting`.
-/

namespace Emm

inductive Role
  | identification
  | specific (kind : SpecificKind)
deriving DecidableEq

/-- The procedure that is on record in the role. -/
def Procedures.inRole (ps : Procedures) : Role → Option ProcedureId
  | .identification => ps.identification.map (·.id)
  | .specific kind => (ps.specific.filter fun q => q.kind = kind).map (·.id)

theorem Procedures.Within.inRole {ps ps₀ : Procedures} (h : ps.Within ps₀) {role : Role}
    {id : ProcedureId} (hid : ps.inRole role = some id) : ps₀.inRole role = some id := by
  cases role with
  | identification =>
      obtain ⟨q, hq, rfl⟩ := Option.map_eq_some_iff.1 hid
      obtain ⟨p, hp, hsame, _⟩ := h.identification q hq
      rw [Procedures.inRole, hp, Option.map_some, hsame]
  | specific kind =>
      obtain ⟨q, hfound, rfl⟩ := Option.map_eq_some_iff.1 hid
      obtain ⟨hq, hkind⟩ := Option.filter_eq_some_iff.1 hfound
      obtain ⟨p, hp, hsame, hkind'⟩ := h.specific q hq
      rw [Procedures.inRole, hp, Option.filter_some, hkind', if_pos hkind, Option.map_some, hsame]

namespace ProcedureId

theorem next_ne (i : ProcedureId) : i.next ≠ i := by
  intro h
  have hval : i.val + 1 = i.val := congrArg val h
  simp at hval

end ProcedureId

/-- The procedure `id` is on record for the UE in the role. -/
def Mme.Plays (m : Mme) (ue : UeId) (role : Role) (id : ProcedureId) : Prop :=
  (m.procedures ue).inRole role = some id

instance (m : Mme) (ue : UeId) (role : Role) (id : ProcedureId) : Decidable (m.Plays ue role id) :=
  inferInstanceAs (Decidable (_ = _))

namespace Moment

/-- An identifier is taken from the counter. -/
def Allocates (x : Moment) : Prop :=
  x.after.mme.store.nextProcedure ≠ x.before.mme.store.nextProcedure

instance (x : Moment) : Decidable x.Allocates := inferInstanceAs (Decidable (_ ≠ _))

/-- An operation on the store begins a specific procedure for the UE and answers with `id`. -/
def Begins (x : Moment) (ue : UeId) (kind : SpecificKind) (id : ProcedureId) : Prop :=
  x.move = .act (.beginSpecific ue kind) ∧
    (x.before.mme.beginSpecific ue kind).1 = some id

/-- The EMM task takes an order to start an identification of the UE for `parent`. -/
def Orders (x : Moment) (ue : UeId) (parent : Option ProcedureId) : Prop :=
  x.move = .receive ∧
    ∃ requested rest, x.before.inbox.queue = .message (.start ue requested parent) :: rest

/-- The identifier `id` is given out: an operation on the store answers with it, or an
identification is entered under it. -/
def Gives (x : Moment) (id : ProcedureId) : Prop :=
  (∃ action, x.move = .act action ∧ (action.run x.before.mme).2 = .procedure (some id)) ∨
    ∃ ue, x.after.mme.Plays ue .identification id ∧ ¬x.before.mme.Plays ue .identification id

/-- The procedure `id` is entered for the UE in the role, under the identifier that was next. -/
structure Enters (x : Moment) (ue : UeId) (role : Role) (id : ProcedureId) : Prop where
  id_eq : id = x.before.mme.store.nextProcedure
  counter : x.after.mme.store.nextProcedure = x.before.mme.store.nextProcedure.next
  cause : match role with
    | .identification => ∃ parent, x.Orders ue parent
    | .specific kind => x.Begins ue kind id

theorem Enters.allocates {x : Moment} {ue : UeId} {role : Role} {id : ProcedureId}
    (h : x.Enters ue role id) : x.Allocates := by
  rw [Allocates, h.counter]
  exact ProcedureId.next_ne _

theorem Enters.unique {x : Moment} {ue ue' : UeId} {role role' : Role} {id id' : ProcedureId}
    (h : x.Enters ue role id) (h' : x.Enters ue' role' id') : ue = ue' ∧ role = role' := by
  have hcause := h.cause
  have hcause' := h'.cause
  cases role with
  | identification =>
      obtain ⟨parent, hmove, requested, rest, hqueue⟩ := hcause
      cases role' with
      | identification =>
          obtain ⟨_, _, _, _, hqueue'⟩ := hcause'
          cases hqueue.symm.trans hqueue'
          exact ⟨rfl, rfl⟩
      | specific kind => cases hmove.symm.trans hcause'.1
  | specific kind =>
      cases role' with
      | identification =>
          obtain ⟨parent, hmove, _⟩ := hcause'
          cases hmove.symm.trans hcause.1
      | specific kind' =>
          cases hcause.1.symm.trans hcause'.1
          exact ⟨rfl, rfl⟩

end Moment

/-- How many identifiers have been taken. -/
def allocations (ms : List Moment) : Nat := ms.countP fun x => x.Allocates

/-- Every order to start that is taken names as parent nothing, or an identifier with which a
specific procedure was begun before. -/
def ParentsBegun (ms : List Moment) : Prop :=
  ∀ pre x post ue id, ms = pre ++ x :: post → x.Orders ue (some id) →
    ∃ y ∈ pre, ∃ v kind, y.Begins v kind id

/-! ### Operations on the store -/

namespace Mme

variable {m : Mme} {ue : UeId}

theorem addsNone_onContext {f : Context → Context} (reply : Context → Bench.ActionReply)
    (hf : ∀ c, (f c).procedures.Within c.procedures) :
    m.AddsNone (Bench.onContext m ue f reply).1 := by
  unfold Bench.onContext
  split
  · exact addsNone_modifyContext fun c _ => hf c
  · exact .refl m

theorem addsNone_insertContext {c : Context} (hc : c.procedures = {}) :
    m.AddsNone (m.insertContext c) where
  counter := by
    simp only [insertContext, store_emit, store_emitMove, Store.insert]
    split <;> rfl
  within u := by
    by_cases hu : u = c.ue
    · have hstored : (m.insertContext c).context? u = some c := by
        rw [context?_insertContext, if_pos hu]
      rw [procedures_eq hstored, hc]
      exact .empty _
    · rw [procedures_congr (m := m) (by rw [context?_insertContext, if_neg hu])]
      exact .refl _

theorem addsNone_armRetry (m : Mme) (ue : UeId) (interval : Duration) :
    m.AddsNone ((Bench.Action.armRetry ue interval).run m).1 := by
  simp only [Bench.Action.run]
  split
  · rename_i q hq
    have hq' : m.specific? ue = some q := hq
    have hstarted : m.AddsNone (m.startTimer ue .specificRetry interval).2 := .of_store rfl
    refine hstarted.trans ?_
    exact addsNone_setSpecific hq' rfl rfl
  · exact .of_store rfl

theorem beginSpecific_of_context {c : Context} (hc : m.context? ue = some c)
    (kind : SpecificKind) :
    (m.beginSpecific ue kind).1 = some m.store.nextProcedure ∧
      (m.beginSpecific ue kind).2.store.nextProcedure = m.store.nextProcedure.next ∧
      (m.beginSpecific ue kind).2.procedures ue =
        { m.procedures ue with specific := some { id := m.store.nextProcedure, kind } } ∧
      ∀ u, u ≠ ue → (m.beginSpecific ue kind).2.procedures u = m.procedures u := by
  have hlive : m.store.contains ue = true := by
    rw [contains_eq_isSome, hc]
    rfl
  have hcontext : ∀ u, (m.beginSpecific ue kind).2.context? u = _ :=
    fun u => m.store.context?_beginSpecific ue u kind
  have hc' : m.store.context? ue = some c := hc
  have heq : m.store.beginSpecific ue kind =
      (some m.store.nextProcedure, m.store.takeProcedureId.2.modify ue fun c =>
        { c with procedures :=
          { c.procedures with specific := some { id := m.store.nextProcedure, kind } } }) := by
    simp only [Store.beginSpecific]
    exact if_pos hlive
  refine ⟨congrArg Prod.fst heq, ?_, ?_, fun u hu => procedures_congr ?_⟩
  · exact congrArg (fun r => r.2.nextProcedure) heq
  · rw [procedures_eq hc, procedures_eq ((hcontext ue).trans (by rw [if_pos rfl, hc']; rfl))]
  · rw [hcontext, if_neg hu]
    rfl

theorem beginSpecific_of_absent (h : m.context? ue = none) (kind : SpecificKind) :
    (m.beginSpecific ue kind).1 = none ∧
      (m.beginSpecific ue kind).2.store.nextProcedure = m.store.nextProcedure.next ∧
      ∀ u, (m.beginSpecific ue kind).2.procedures u = m.procedures u := by
  have habsent : ¬m.store.contains ue = true := by
    rw [contains_eq_isSome, h]
    exact Bool.false_ne_true
  have heq : m.store.beginSpecific ue kind = (none, m.store.takeProcedureId.2) := by
    simp only [Store.beginSpecific]
    exact if_neg habsent
  refine ⟨congrArg Prod.fst heq, congrArg (fun r => r.2.nextProcedure) heq, fun u => ?_⟩
  exact procedures_congr (congrArg (fun r => r.2.context? u) heq)

end Mme

namespace System

variable {s s' : System} {a : Move} {ue : UeId} {role : Role} {id : ProcedureId}

/-- Contexts are stored without procedures. -/
def StoresIdle (_ : System) : Move → Prop
  | .act (.insert c) => c.procedures = {}
  | _ => True

instance (s : System) : (a : Move) → Decidable (s.StoresIdle a)
  | .act (.insert c) => inferInstanceAs (Decidable (c.procedures = {}))
  | .act (.remove _) | .act (.removeHeld ..) | .act (.contains _) | .act (.setState ..)
  | .act (.setSecurity ..) | .act (.setImsi ..) | .act (.claim ..) | .act (.register ..)
  | .act (.unregister _) | .act .takeProcedureId | .act (.beginSpecific ..)
  | .act (.endSpecific _) | .act (.endIdentification _) | .act (.endAll _)
  | .act (.findSpecific ..) | .act (.armRetry ..) | .act (.startTimer ..)
  | .act (.stopTimer _) | .act .stopAllTimers => .isTrue trivial
  | .receive | .publish | .take | .discard | .fire _ | .deliver | .advance _ | .send _
  | .askEmmToStop | .askAppToStop | .closeBus | .tearDown _ => .isTrue trivial

/-- What a move does to the counter and to the procedures on record. -/
inductive Numbers (s : System) : Move → System → Prop
  | unchanged {a : Move} {s' : System} (h : s.mme.AddsNone s'.mme) : Numbers s a s'
  /-- An identifier is taken that names no procedure. -/
  | spent {a : Move} {s' : System}
      (hcounter : s'.mme.store.nextProcedure = s.mme.store.nextProcedure.next)
      (hsame : ∀ u, s'.mme.procedures u = s.mme.procedures u) : Numbers s a s'
  | begun {ue : UeId} {kind : SpecificKind} {s' : System}
      (hgiven : (s.mme.beginSpecific ue kind).1 = some s.mme.store.nextProcedure)
      (hcounter : s'.mme.store.nextProcedure = s.mme.store.nextProcedure.next)
      (hrecord : s'.mme.procedures ue =
        { s.mme.procedures ue with specific := some { id := s.mme.store.nextProcedure, kind } })
      (hothers : ∀ u, u ≠ ue → s'.mme.procedures u = s.mme.procedures u) :
      Numbers s (.act (.beginSpecific ue kind)) s'
  | identified {ue : UeId} {requested : IdentityType} {q : Identification}
      {rest : List (Envelope Message)} {s' : System}
      (hqueue : s.inbox.queue = .message (.start ue requested q.parent) :: rest)
      (h : s.mme.Identifies ue q s'.mme) : Numbers s .receive s'

theorem numbers_act {action : Bench.Action} (hok : s.StoresIdle (.act action))
    (hs' : s'.mme = (action.run s.mme).1) : s.Numbers (.act action) s' := by
  have within : s.mme.AddsNone (action.run s.mme).1 → s.Numbers (.act action) s' := by
    intro h
    rw [← hs'] at h
    exact .unchanged h
  cases action with
  | insert c => exact within (Mme.addsNone_insertContext hok)
  | remove ue =>
      apply within
      simp only [Bench.Action.run]
      split
      · exact Mme.addsNone_removeContext s.mme ue
      · exact .refl s.mme
  | removeHeld ue cause =>
      apply within
      simp only [Bench.Action.run]
      split
      · exact Mme.addsNone_removeContext s.mme ue
      · exact .refl s.mme
  | setState ue state => exact within (Mme.addsNone_onContext _ fun c => .refl c.procedures)
  | setSecurity ue security => exact within (Mme.addsNone_onContext _ fun c => .refl c.procedures)
  | setImsi ue imsi => exact within (Mme.addsNone_onContext _ fun c => .refl c.procedures)
  | findSpecific ue id => exact within (Mme.addsNone_onContext _ fun c => .refl c.procedures)
  | endSpecific ue =>
      refine within (Mme.addsNone_onContext _ fun c => .setSpecific ?_)
      rintro _ ⟨⟩
  | endIdentification ue =>
      refine within (Mme.addsNone_onContext _ fun c => .setIdentification ?_)
      rintro _ ⟨⟩
  | endAll ue => exact within (Mme.addsNone_onContext _ fun c => .empty c.procedures)
  | claim imsi ue => exact within (Mme.addsNone_claim s.mme imsi ue)
  | armRetry ue interval => exact within (Mme.addsNone_armRetry s.mme ue interval)
  | stopTimer id => exact within (.of_store (s.mme.store_stopTimer id))
  | contains ue => exact within (.of_store rfl)
  | register imsi ue => exact within (.of_store rfl)
  | unregister ue => exact within (.of_store rfl)
  | startTimer ue kind interval => exact within (.of_store rfl)
  | stopAllTimers => exact within (.of_store rfl)
  | takeProcedureId =>
      refine .spent ?_ fun u => ?_
      · rw [hs']
        rfl
      · rw [hs']
        rfl
  | beginSpecific ue kind =>
      have hrun : s'.mme = (s.mme.beginSpecific ue kind).2 := hs'
      cases hc : s.mme.context? ue with
      | none =>
          obtain ⟨_, hcounter, hsame⟩ := Mme.beginSpecific_of_absent hc kind
          rw [← hrun] at hcounter hsame
          exact .spent hcounter hsame
      | some c =>
          obtain ⟨hgiven, hcounter, hrecord, hothers⟩ := Mme.beginSpecific_of_context hc kind
          rw [← hrun] at hcounter hrecord hothers
          exact .begun hgiven hcounter hrecord hothers

theorem numbers_receive (hstep : s.receive? = some s') : s.Numbers .receive s' := by
  obtain ⟨_, ⟨msg, rest, hqueue, rfl⟩ | ⟨_, ⟨log, hlog⟩, _⟩⟩ := receive?_eq_some hstep
  · rw [beginMessage_eq]
    have hbegin := Mme.begin_descends (s.mme.emit (.exchanged .received msg.primitive msg.ue))
      s.config msg
    obtain hnone | ⟨ue, requested, parent, q, rfl, rfl, hidentifies⟩ := hbegin
    · have htaken := ((Mme.AddsNone.refl s.mme).emit _).trans hnone
      refine .unchanged (htaken.trans (.of_store ?_))
      rw [store_follow]
    · refine .identified hqueue ⟨?_, fun u hu => ?_, fun hfree => ?_, fun p hp => ?_⟩
      · rw [Mme.procedures_congr (context?_follow _ _ _ ue)]
        exact hidentifies.record
      · rw [Mme.procedures_congr (context?_follow _ _ _ u)]
        exact hidentifies.others u hu
      · rw [store_follow]
        exact hidentifies.fresh hfree
      · rw [store_follow]
        exact hidentifies.pending p hp
  · refine .unchanged (.of_store ?_)
    rw [hlog]

theorem numbers_publish (hstep : s.publish? = some s') : s.Numbers .publish s' := by
  obtain ⟨ue, n, next, s₁, d, _, hoffer, rfl⟩ := publish?_eq_some hstep
  have hoffered : s.mme.AddsNone s₁.mme := by
    obtain ⟨bus, _, rfl, _⟩ | ⟨_, rfl, _⟩ := offer?_eq_some hoffer
    · exact .of_store rfl
    · exact .refl s₁.mme
  rw [resume_eq]
  have hresumed := hoffered.trans (Mme.resume_addsNone s₁.mme s₁.config n next d)
  refine .unchanged (hresumed.trans (.of_store ?_))
  rw [store_follow]

/-- A move brings in no procedure and leaves the counter, or takes the next identifier, for at most
one new procedure; or it names another parent in an identification. -/
theorem numbers_step (hok : s.StoresIdle a) (hstep : s.step? a = some s') : s.Numbers a s' := by
  by_cases hreceive : a = .receive
  · subst hreceive
    exact numbers_receive hstep
  by_cases hpublish : a = .publish
  · subst hpublish
    exact numbers_publish hstep
  have hchange := step_change hstep
  generalize hm' : s'.mme = m' at hchange
  cases hchange with
  | edits ha h => exact absurd ha (by simp [hreceive, hpublish])
  | log log => exact .unchanged (.of_store (by rw [hm']))
  | apply h =>
      refine .unchanged ?_
      rw [hm']
      cases h with
      | log log => exact .of_store rfl
      | register hc hcarried => exact .of_store rfl
      | unregister u log => exact .of_store rfl
      | tearDown u e => exact ((Mme.AddsNone.refl _).emit e).trans (Mme.addsNone_tearDown _ u)
  | fire ha hdue => exact .unchanged (.of_store (by rw [hm']))
  | advance d => exact .unchanged (.of_store (by rw [hm']))
  | tearDown u =>
      refine .unchanged ?_
      rw [hm']
      exact Mme.addsNone_tearDown _ u
  | act action => exact numbers_act hok hm'

theorem Numbers.plays (h : s.Numbers a s') (hplays : s'.mme.Plays ue role id) :
    s.mme.Plays ue role id ∨ Moment.Enters ⟨s, a, s'⟩ ue role id := by
  have kept : s'.mme.procedures ue = s.mme.procedures ue → s.mme.Plays ue role id := by
    intro hsame
    rwa [Mme.Plays, hsame] at hplays
  cases h with
  | unchanged h => exact .inl ((h.within ue).inRole hplays)
  | spent hcounter hsame => exact .inl (kept (hsame ue))
  | @begun u kind _ hgiven hcounter hrecord hothers =>
      by_cases hu : ue = u
      · subst hu
        rw [Mme.Plays, hrecord] at hplays
        cases role with
        | identification => exact .inl hplays
        | specific kind' =>
            obtain ⟨q, hfound, rfl⟩ := Option.map_eq_some_iff.1 hplays
            obtain ⟨hq, hkind⟩ := Option.filter_eq_some_iff.1 hfound
            cases hq
            obtain rfl : kind = kind' := by simpa using hkind
            exact .inr ⟨rfl, hcounter, rfl, hgiven⟩
      · exact .inl (kept (hothers ue hu))
  | @identified u requested q rest _ hqueue h =>
      by_cases hu : ue = u
      · subst hu
        rw [Mme.Plays, h.record] at hplays
        cases role with
        | specific kind => exact .inl hplays
        | identification =>
            obtain rfl : q.id = id := by simpa [Procedures.inRole] using hplays
            cases hp : (s.mme.procedures ue).identification with
            | some p =>
                left
                rw [(h.pending p hp).1, Mme.Plays, Procedures.inRole, hp, Option.map_some]
            | none =>
                obtain ⟨hid, hcounter⟩ := h.fresh hp
                exact .inr ⟨hid, hcounter, q.parent, rfl, requested, rest, hqueue⟩
      · exact .inl (kept (h.others ue hu))

theorem Numbers.counter (h : s.Numbers a s') :
    s'.mme.store.nextProcedure = s.mme.store.nextProcedure ∨
      s'.mme.store.nextProcedure = s.mme.store.nextProcedure.next := by
  cases h with
  | unchanged h => exact .inl h.counter
  | spent hcounter hsame => exact .inr hcounter
  | begun hgiven hcounter hrecord hothers => exact .inr hcounter
  | @identified u requested q rest _ hqueue h =>
      cases hp : (s.mme.procedures u).identification with
      | some p => exact .inl (h.pending p hp).2
      | none => exact .inr (h.fresh hp).2

theorem Numbers.gives (h : s.Numbers a s') (hstep : s.step? a = some s')
    (hgives : Moment.Gives ⟨s, a, s'⟩ id) :
    id = s.mme.store.nextProcedure ∧
      s'.mme.store.nextProcedure = s.mme.store.nextProcedure.next := by
  rcases hgives with ⟨action, rfl, hreply⟩ | ⟨ue, hplays, hnew⟩
  · obtain rfl : s' = { s with mme := (action.run s.mme).1 } := (Option.some.inj hstep).symm
    cases action with
    | takeProcedureId =>
        cases hreply
        exact ⟨rfl, rfl⟩
    | beginSpecific ue kind =>
        have hgiven : (s.mme.beginSpecific ue kind).1 = some id := by
          injection hreply
        cases hc : s.mme.context? ue with
        | none => cases (Mme.beginSpecific_of_absent hc kind).1.symm.trans hgiven
        | some c =>
            obtain ⟨hnext, hcounter, _⟩ := Mme.beginSpecific_of_context hc kind
            cases hnext.symm.trans hgiven
            exact ⟨rfl, hcounter⟩
    | remove ue | removeHeld ue cause =>
        simp only [Bench.Action.run] at hreply
        split at hreply <;> cases hreply
    | setState | setSecurity | setImsi | endSpecific | endIdentification | endAll
    | findSpecific =>
        simp only [Bench.Action.run, Bench.onContext] at hreply
        split at hreply <;> cases hreply
    | armRetry ue interval =>
        simp only [Bench.Action.run] at hreply
        split at hreply <;> cases hreply
    | insert | contains | claim | register | unregister | startTimer | stopTimer
    | stopAllTimers => cases hreply
  · rcases h.plays hplays with hold | henters
    · exact absurd hold hnew
    · exact ⟨henters.id_eq, henters.counter⟩

theorem begins_enters (hstep : s.step? a = some s') {kind : SpecificKind}
    (h : Moment.Begins ⟨s, a, s'⟩ ue kind id) :
    Moment.Enters ⟨s, a, s'⟩ ue (.specific kind) id ∧ s'.mme.Plays ue (.specific kind) id := by
  obtain ⟨rfl, hgiven⟩ := h
  obtain rfl : s' = { s with mme := (s.mme.beginSpecific ue kind).2 } :=
    (Option.some.inj hstep).symm
  cases hc : s.mme.context? ue with
  | none => cases (Mme.beginSpecific_of_absent hc kind).1.symm.trans hgiven
  | some c =>
      obtain ⟨hnext, hcounter, hrecord, _⟩ := Mme.beginSpecific_of_context hc kind
      obtain rfl : s.mme.store.nextProcedure = id := Option.some.inj (hnext.symm.trans hgiven)
      refine ⟨⟨rfl, hcounter, rfl, hgiven⟩, ?_⟩
      rw [Mme.Plays, hrecord]
      simp [Procedures.inRole]

/-- `id` is the parent of the identification that runs for the UE, or of one that is being settled
by the handler which waits. -/
def Names (s : System) (ue : UeId) (id : ProcedureId) : Prop :=
  (s.mme.identification? ue).bind (·.parent) = some id ∨
    ∃ claim holder, s.emm.displacing? = some (claim, holder) ∧ claim.ue = ue ∧
      claim.parent = some id

theorem Numbers.parent (h : s.Numbers a s')
    (hparent : (s'.mme.identification? ue).bind (·.parent) = some id) :
    (s.mme.identification? ue).bind (·.parent) = some id ∨
      Moment.Orders ⟨s, a, s'⟩ ue (some id) := by
  rw [Mme.identification?_eq_procedures] at hparent ⊢
  cases h with
  | unchanged h =>
      obtain ⟨q, hq, hid⟩ := Option.bind_eq_some_iff.1 hparent
      obtain ⟨p, hp, _, hsame⟩ := (h.within ue).identification q hq
      left
      rw [hp, Option.bind_some, hsame, hid]
  | spent hcounter hsame =>
      rw [hsame ue] at hparent
      exact .inl hparent
  | @begun u kind _ hgiven hcounter hrecord hothers =>
      by_cases hu : ue = u
      · subst hu
        rw [hrecord] at hparent
        exact .inl hparent
      · rw [hothers ue hu] at hparent
        exact .inl hparent
  | @identified u requested q rest _ hqueue h =>
      by_cases hu : ue = u
      · subst hu
        rw [h.record] at hparent
        have hid : q.parent = some id := hparent
        rw [hid] at hqueue
        exact .inr ⟨rfl, requested, rest, hqueue⟩
      · rw [h.others ue hu] at hparent
        exact .inl hparent

theorem names_step (hok : s.StoresIdle a) (hstep : s.step? a = some s') (h : s'.Names ue id) :
    s.Names ue id ∨ Moment.Orders ⟨s, a, s'⟩ ue (some id) := by
  rcases h with hrecord | ⟨claim, holder, hclaim, hue, hparent⟩
  · exact ((numbers_step hok hstep).parent hrecord).imp_left .inl
  · left
    by_cases hemm : a = .receive ∨ a = .publish
    · cases settled_of_step hemm hstep with
      | aside howners hdisplacing hcondemned => cases hdisplacing.symm.trans hclaim
      | @displaces _ u imsi rest p holder' hqueue hp hfound howners hemm =>
          rw [hemm] at hclaim
          cases hclaim
          subst hue
          refine .inl ?_
          rw [hp]
          exact hparent
      | assigns hqueue hp hfound howners hemm =>
          rw [hemm] at hclaim
          cases hclaim
    · have hsame : s'.emm = s.emm :=
        (traffic_of_step (fun h => hemm (.inl h)) (fun h => hemm (.inr h)) hstep).1
      rw [hsame] at hclaim
      exact .inr ⟨claim, holder, hclaim, hue, hparent⟩

end System

/-! ### Histories -/

theorem splits_cases {α : Type} {pre pre' post post' : List α} {x y : α}
    (h : pre ++ x :: post = pre' ++ y :: post') :
    (pre = pre' ∧ x = y ∧ post = post') ∨
      (∃ mid, pre' = pre ++ x :: mid ∧ post = mid ++ y :: post') ∨
      ∃ mid, pre = pre' ++ y :: mid ∧ post' = mid ++ x :: post := by
  rcases List.append_eq_append_iff.1 h with ⟨mid, hpre, hpost⟩ | ⟨mid, hpre, hpost⟩
  · cases mid with
    | nil =>
        cases hpost
        exact .inl ⟨by simpa using hpre.symm, rfl, rfl⟩
    | cons z mid =>
        cases hpost
        exact .inr (.inl ⟨mid, hpre, rfl⟩)
  · cases mid with
    | nil =>
        cases hpost
        exact .inl ⟨by simpa using hpre, rfl, rfl⟩
    | cons z mid =>
        cases hpost
        exact .inr (.inr ⟨mid, hpre, rfl⟩)

theorem allocations_snoc (ms : List Moment) (x : Moment) :
    allocations (ms ++ [x]) = allocations ms + if x.Allocates then 1 else 0 := by
  simp [allocations, List.countP_append, List.countP_singleton]

theorem allocations_of_allocates {pre post : List Moment} {x : Moment} (hx : x.Allocates) :
    allocations (pre ++ x :: post) = allocations pre + 1 + allocations post := by
  have hcount : allocations (x :: post) = allocations post + 1 :=
    List.countP_cons_of_pos (by simpa using hx)
  rw [allocations, List.countP_append]
  change allocations pre + allocations (x :: post) = _
  rw [hcount, Nat.add_assoc, Nat.add_comm 1]

namespace ParentsBegun

variable {ms ms' : List Moment} {x : Moment}

theorem left (h : ParentsBegun (ms ++ ms')) : ParentsBegun ms := by
  intro pre x post ue id hms horders
  refine h pre x (post ++ ms') ue id ?_ horders
  rw [hms, List.append_assoc, List.cons_append]

theorem of_quiet (h : ∀ x ∈ ms, x.move ≠ .receive) : ParentsBegun ms := by
  intro pre x post ue id hms horders
  exact absurd horders.1 (h x (by rw [hms]; simp))

theorem snoc (h : ParentsBegun ms)
    (hx : ∀ ue id, x.Orders ue (some id) → ∃ y ∈ ms, ∃ v kind, y.Begins v kind id) :
    ParentsBegun (ms ++ [x]) := by
  intro pre y post ue id hms horders
  rcases splits_cases hms with ⟨rfl, rfl, _⟩ | ⟨mid, _, hmid⟩ | ⟨mid, rfl, _⟩
  · exact hx ue id horders
  · simp at hmid
  · exact h pre y mid ue id rfl horders

end ParentsBegun

namespace System

variable {config : NasConfig} {inboxCapacity busCapacity : Nat} {ms pre post : List Moment}
  {x y : Moment} {s : System} {ue v : UeId} {role : Role} {kind : SpecificKind} {id : ProcedureId}

theorem counter_of_path (path : Path StoresIdle (idle config inboxCapacity busCapacity) ms s) :
    s.mme.store.nextProcedure.val = UInt64.ofNat (1 + allocations ms) := by
  induction path with
  | nil => rfl
  | @snoc ms s s' a path hok hstep ih =>
      rw [allocations_snoc]
      rcases (numbers_step hok hstep).counter with hsame | hnext
      · rw [if_neg (fun h => h hsame), hsame]
        exact ih
      · have hallocates : Moment.Allocates ⟨s, a, s'⟩ := by
          rw [Moment.Allocates, hnext]
          exact ProcedureId.next_ne _
        rw [if_pos hallocates, hnext, ← Nat.add_assoc, UInt64.ofNat_add, ← ih]
        rfl

/-- What is on record has been entered once, and has been there ever since. -/
theorem entered_of_path (path : Path StoresIdle (idle config inboxCapacity busCapacity) ms s)
    (hplays : s.mme.Plays ue role id) :
    ∃ pre x post, ms = pre ++ x :: post ∧ x.Enters ue role id ∧
      ∀ z ∈ x :: post, z.after.mme.Plays ue role id := by
  induction path with
  | nil => cases role <;> cases hplays
  | @snoc ms s s' a path hok hstep ih =>
      rcases (numbers_step hok hstep).plays hplays with hold | henters
      · obtain ⟨pre, x, post, rfl, hx, hsince⟩ := ih hold
        refine ⟨pre, x, post ++ [⟨s, a, s'⟩], by simp, hx, fun z hz => ?_⟩
        rcases List.mem_append.1 (List.cons_append ▸ hz : z ∈ (x :: post) ++ [⟨s, a, s'⟩]) with
          hz | hz
        · exact hsince z hz
        · rw [List.mem_singleton.1 hz]
          exact hplays
      · refine ⟨ms, _, [], rfl, henters, fun z hz => ?_⟩
        rw [List.mem_singleton.1 hz]
        exact hplays

theorem kept_or_entered {s₀ : System} (path : Path StoresIdle s₀ ms s)
    (hplays : s.mme.Plays ue role id) :
    s₀.mme.Plays ue role id ∨ ∃ x ∈ ms, x.Enters ue role id := by
  induction path with
  | nil => exact .inl hplays
  | @snoc ms s s' a path hok hstep ih =>
      rcases (numbers_step hok hstep).plays hplays with hold | henters
      · rcases ih hold with hstart | ⟨x, hx, henters⟩
        · exact .inl hstart
        · exact .inr ⟨x, List.mem_append_left _ hx, henters⟩
      · exact .inr ⟨_, List.mem_append_right _ (List.mem_singleton_self _), henters⟩

theorem begun_of_names (path : Path StoresIdle (idle config inboxCapacity busCapacity) ms s)
    (hparents : ParentsBegun ms) (h : s.Names ue id) : ∃ y ∈ ms, ∃ v kind, y.Begins v kind id := by
  induction path with
  | nil =>
      rcases h with hrecord | ⟨claim, holder, hclaim, _⟩
      · cases hrecord
      · cases hclaim
  | @snoc ms s s' a path hok hstep ih =>
      have hbegun : ∃ y ∈ ms, ∃ v kind, y.Begins v kind id := by
        rcases names_step hok hstep h with hnamed | horders
        · exact ih hparents.left hnamed
        · exact hparents ms _ [] ue id rfl horders
      obtain ⟨y, hy, hbegins⟩ := hbegun
      exact ⟨y, List.mem_append_left _ hy, hbegins⟩

theorem gives_of_split (path : Path StoresIdle (idle config inboxCapacity busCapacity) ms s)
    (hms : ms = pre ++ x :: post) (hx : x.Gives id) :
    id = x.before.mme.store.nextProcedure ∧ x.Allocates := by
  subst hms
  obtain ⟨_, hok, hstep, _⟩ := path.split
  obtain ⟨hid, hcounter⟩ := (numbers_step hok hstep).gives hstep hx
  refine ⟨hid, ?_⟩
  rw [Moment.Allocates, hcounter]
  exact ProcedureId.next_ne _

section Few

variable (hfew : allocations ms < UInt64.size)

include hfew

/-- The identifier that is taken after `pre` is numbered by how many were taken before. -/
theorem number_of_allocates
    (path : Path StoresIdle (idle config inboxCapacity busCapacity) ms s)
    (hms : ms = pre ++ x :: post) (hx : x.Allocates) :
    x.before.mme.store.nextProcedure.val.toNat = 1 + allocations pre ∧
      1 + allocations pre + allocations post = allocations ms := by
  subst hms
  rw [allocations_of_allocates hx] at hfew ⊢
  have hbound : 1 + allocations pre < UInt64.size := by omega
  refine ⟨?_, by omega⟩
  rw [counter_of_path path.split.1, UInt64.toNat_ofNat', Nat.mod_eq_of_lt hbound]

theorem number_lt {pre mid post : List Moment}
    (path : Path StoresIdle (idle config inboxCapacity busCapacity) ms s)
    (hms : ms = pre ++ x :: (mid ++ y :: post)) (hx : x.Allocates) (hy : y.Allocates) :
    x.before.mme.store.nextProcedure.val.toNat < y.before.mme.store.nextProcedure.val.toNat := by
  have hms' : ms = (pre ++ x :: mid) ++ y :: post := by
    rw [hms, List.append_assoc, List.cons_append]
  rw [(number_of_allocates hfew path hms hx).1, (number_of_allocates hfew path hms' hy).1,
    allocations_of_allocates hx]
  omega

theorem moment_of_number {pre' post' : List Moment}
    (path : Path StoresIdle (idle config inboxCapacity busCapacity) ms s)
    (hms : ms = pre ++ x :: post) (hms' : ms = pre' ++ y :: post') (hx : x.Allocates)
    (hy : y.Allocates)
    (hsame : x.before.mme.store.nextProcedure = y.before.mme.store.nextProcedure) :
    pre = pre' ∧ x = y ∧ post = post' := by
  rcases splits_cases (hms.symm.trans hms') with h | ⟨mid, _, hpost⟩ | ⟨mid, _, hpost⟩
  · exact h
  · have hlt := number_lt hfew path (by rw [hms, hpost]) hx hy
    rw [hsame] at hlt
    exact absurd hlt (Nat.lt_irrefl _)
  · have hlt := number_lt hfew path (by rw [hms', hpost]) hy hx
    rw [hsame] at hlt
    exact absurd hlt (Nat.lt_irrefl _)

end Few

/-- What a run shows of the identifiers of procedures, after the moments `ms` and in the state `s`.
An identifier stands for one procedure for good. -/
structure Lasting (ms : List Moment) (s : System) : Prop where
  /-- The counter stands at the number of the next identifier, as far as it can express it. -/
  counter : s.mme.store.nextProcedure.val = UInt64.ofNat (1 + allocations ms)
  /-- The identifiers on record have been numbered already. They are less than the counter unless
  that has just wrapped around. -/
  below : ∀ ue role id, s.mme.Plays ue role id →
    id.val.toNat < 1 + allocations ms ∧
      (1 + allocations ms < UInt64.size → id.val < s.mme.store.nextProcedure.val)
  /-- No two procedures on record share an identifier, whatever they are and for whatever UEs. -/
  distinct : ∀ ue role ue' role' id, s.mme.Plays ue role id → s.mme.Plays ue' role' id →
    ue = ue' ∧ role = role'
  /-- The identifiers that are given out increase; no move gives out two. -/
  rising : ∀ pre x mid y post id id', ms = pre ++ x :: (mid ++ y :: post) → x.Gives id →
    y.Gives id' → id.val < id'.val
  single : ∀ x ∈ ms, ∀ id id', x.Gives id → x.Gives id' → id = id'
  /-- A parent is one with whose identifier a specific procedure was begun. -/
  named : ∀ ue id, s.Names ue id → ∃ y ∈ ms, ∃ v kind, y.Begins v kind id
  /-- To look `id` up finds the very procedure that was begun with it: it runs for the UE for which
  it was begun, is of that kind, and has been on record all the time. -/
  found : ∀ pre x post v kind id ue q, ms = pre ++ x :: post → x.Begins v kind id →
    (s.mme.context? ue).bind (·.procedures.specific? id) = some q →
    ue = v ∧ q.kind = kind ∧ ∀ z ∈ x :: post, z.after.mme.Plays v (.specific kind) id
  /-- Once the parent that an identification names is not the specific procedure of the UE, no
  specific procedure is begun under that identifier any more, and to look it up finds nothing. -/
  lost : ∀ pre x post ue id, ms = pre ++ x :: post → x.before.Names ue id →
    (x.before.mme.specific? ue).map (·.id) ≠ some id →
    (∀ y ∈ x :: post, ∀ v kind, ¬y.Begins v kind id) ∧
      (s.mme.context? ue).bind (·.procedures.specific? id) = none

section Few

variable (hfew : allocations ms < UInt64.size)
  (path : Path StoresIdle (idle config inboxCapacity busCapacity) ms s)

include hfew path

theorem below_of_plays (hplays : s.mme.Plays ue role id) :
    id.val.toNat < 1 + allocations ms ∧
      (1 + allocations ms < UInt64.size → id.val < s.mme.store.nextProcedure.val) := by
  obtain ⟨pre, x, post, hms, henters, _⟩ := entered_of_path path hplays
  have hnumber := number_of_allocates hfew path hms henters.allocates
  rw [← henters.id_eq] at hnumber
  have hlt : id.val.toNat < 1 + allocations ms := by omega
  refine ⟨hlt, fun hfits => ?_⟩
  rw [UInt64.lt_iff_toNat_lt, counter_of_path path, UInt64.toNat_ofNat', Nat.mod_eq_of_lt hfits]
  exact hlt

theorem plays_unique {ue' : UeId} {role' : Role} (hplays : s.mme.Plays ue role id)
    (hplays' : s.mme.Plays ue' role' id) : ue = ue' ∧ role = role' := by
  obtain ⟨pre, x, post, hms, henters, _⟩ := entered_of_path path hplays
  obtain ⟨pre', y, post', hms', henters', _⟩ := entered_of_path path hplays'
  obtain ⟨_, rfl, _⟩ := moment_of_number hfew path hms hms' henters.allocates henters'.allocates
    (henters.id_eq.symm.trans henters'.id_eq)
  exact henters.unique henters'

theorem begins_of_split (hms : ms = pre ++ x :: post) (hx : x.Begins v kind id) :
    x.Enters v (.specific kind) id ∧ x.after.mme.Plays v (.specific kind) id := by
  subst hms
  exact begins_enters path.split.2.2.1 hx

theorem not_begins_again {pre mid post : List Moment} {kind' : SpecificKind}
    (hms : ms = pre ++ x :: (mid ++ y :: post)) (hx : x.Begins v kind id) :
    ¬y.Begins ue kind' id := by
  intro hy
  have hms' : ms = (pre ++ x :: mid) ++ y :: post := by
    rw [hms, List.append_assoc, List.cons_append]
  obtain ⟨henters, _⟩ := begins_of_split hfew path hms hx
  obtain ⟨henters', _⟩ := begins_of_split hfew path hms' hy
  have hlt := number_lt hfew path hms henters.allocates henters'.allocates
  rw [← henters.id_eq, ← henters'.id_eq] at hlt
  exact absurd hlt (Nat.lt_irrefl _)

theorem begun_since (hms : ms = pre ++ x :: post) (hx : x.Begins v kind id)
    (hplays : s.mme.Plays ue role id) :
    ue = v ∧ role = .specific kind ∧ ∀ z ∈ x :: post, z.after.mme.Plays v (.specific kind) id := by
  obtain ⟨henters, _⟩ := begins_of_split hfew path hms hx
  obtain ⟨pre', y, post', hms', henters', hsince⟩ := entered_of_path path hplays
  obtain ⟨_, rfl, rfl⟩ := moment_of_number hfew path hms hms' henters.allocates henters'.allocates
    (henters.id_eq.symm.trans henters'.id_eq)
  obtain ⟨rfl, rfl⟩ := henters'.unique henters
  exact ⟨rfl, rfl, hsince⟩

end Few

theorem find_of_plays (h : s.mme.Plays ue (.specific kind) id) :
    (s.mme.specific? ue).map (·.id) = some id := by
  obtain ⟨q, hfound, rfl⟩ := Option.map_eq_some_iff.1 h
  rw [Mme.specific?_eq_procedures, (Option.filter_eq_some_iff.1 hfound).1, Option.map_some]

theorem plays_of_find {q : Specific}
    (h : (s.mme.context? ue).bind (·.procedures.specific? id) = some q) :
    q.id = id ∧ s.mme.Plays ue (.specific q.kind) id := by
  obtain ⟨c, hc, hfound⟩ := Option.bind_eq_some_iff.1 h
  obtain ⟨hq, hid⟩ := Option.filter_eq_some_iff.1 hfound
  obtain rfl : q.id = id := by simpa using hid
  refine ⟨rfl, ?_⟩
  rw [Mme.Plays, Mme.procedures_eq hc, Procedures.inRole, hq]
  simp

/-- In any run that stores contexts without procedures, takes fewer than 2^64 identifiers and starts
identifications for no parent but one begun before, an identifier stands for one procedure for
good. -/
theorem procedure_ids_lasting
    (path : Path StoresIdle (idle config inboxCapacity busCapacity) ms s)
    (hparents : ParentsBegun ms) (hfew : allocations ms < UInt64.size) : Lasting ms s := by
  refine ⟨counter_of_path path, fun _ _ _ => below_of_plays hfew path,
    fun _ _ _ _ _ => plays_unique hfew path, ?_, ?_, fun _ _ => begun_of_names path hparents,
    ?_, ?_⟩
  · intro pre x mid y post id id' hms hx hy
    have hms' : ms = (pre ++ x :: mid) ++ y :: post := by
      rw [hms, List.append_assoc, List.cons_append]
    obtain ⟨rfl, htaken⟩ := gives_of_split path hms hx
    obtain ⟨rfl, htaken'⟩ := gives_of_split path hms' hy
    exact UInt64.lt_iff_toNat_lt.2 (number_lt hfew path hms htaken htaken')
  · intro x hmem id id' hx hx'
    obtain ⟨pre, post, hms⟩ := List.append_of_mem hmem
    exact (gives_of_split path hms hx).1.trans (gives_of_split path hms hx').1.symm
  · intro pre x post v kind id ue q hms hx hfound
    obtain ⟨rfl, hplays⟩ := plays_of_find hfound
    obtain ⟨rfl, hrole, hsince⟩ := begun_since hfew path hms hx hplays
    cases hrole
    exact ⟨rfl, rfl, hsince⟩
  · intro pre x post ue id hms hnames hlost
    subst hms
    obtain ⟨path₀, hok, hstep, path₁⟩ := path.split
    obtain ⟨y, hy, v, kind, hbegins⟩ := begun_of_names path₀ hparents.left hnames
    obtain ⟨pre', mid, rfl⟩ := List.append_of_mem hy
    have hnever : ∀ z ∈ x :: post, ∀ v' kind', ¬z.Begins v' kind' id := by
      intro z hz v' kind'
      obtain ⟨mid', post', hpost⟩ := List.append_of_mem hz
      have hsplit : (pre' ++ y :: mid) ++ x :: post =
          pre' ++ y :: ((mid ++ mid') ++ z :: post') := by
        rw [hpost, List.append_assoc, List.append_assoc, List.cons_append]
      exact not_begins_again hfew path hsplit hbegins
    refine ⟨hnever, ?_⟩
    cases hfind : (s.mme.context? ue).bind (·.procedures.specific? id) with
    | none => rfl
    | some q =>
        obtain ⟨_, hplays⟩ := plays_of_find hfind
        rcases kept_or_entered (.cons hok hstep path₁) hplays with hbefore | ⟨z, hz, henters⟩
        · exact absurd (find_of_plays hbefore) hlost
        · exact absurd henters.cause (hnever z hz ue q.kind)

/-- An attach is replaced by a tracking area update while the identification that was started for it
runs. -/
theorem procedure_ids_lasting_replaced :
    ∃ ms s, Path StoresIdle (idle {} 4 8) ms s ∧ ParentsBegun ms ∧ allocations ms < UInt64.size ∧
      s.Names ⟨1⟩ ⟨1⟩ ∧ s.mme.Plays ⟨1⟩ .identification ⟨2⟩ ∧
      s.mme.Plays ⟨1⟩ (.specific .trackingAreaUpdate) ⟨3⟩ ∧ Lasting ms s := by
  let c : Context := { ue := ⟨1⟩, state := .deregistered }
  let s₀ := idle {} 4 8
  let s₁ := (s₀.step? (.act (.insert c))).get (by decide +kernel)
  let s₂ := (s₁.step? (.act (.beginSpecific ⟨1⟩ .attach))).get (by decide +kernel)
  let s₃ := (s₂.step? (.send (.start ⟨1⟩ .imsi (some ⟨1⟩)))).get (by decide +kernel)
  let s₄ := (s₃.step? .receive).get (by decide +kernel)
  let s₅ := (s₄.step? (.act (.beginSpecific ⟨1⟩ .trackingAreaUpdate))).get (by decide +kernel)
  let x₁ : Moment := ⟨s₀, .act (.insert c), s₁⟩
  let x₂ : Moment := ⟨s₁, .act (.beginSpecific ⟨1⟩ .attach), s₂⟩
  let x₃ : Moment := ⟨s₂, .send (.start ⟨1⟩ .imsi (some ⟨1⟩)), s₃⟩
  let x₄ : Moment := ⟨s₃, .receive, s₄⟩
  let x₅ : Moment := ⟨s₄, .act (.beginSpecific ⟨1⟩ .trackingAreaUpdate), s₅⟩
  have path : Path StoresIdle s₀ [x₁, x₂, x₃, x₄, x₅] s₅ :=
    .cons rfl (Option.some_get _).symm <| .cons trivial (Option.some_get _).symm <|
      .cons trivial (Option.some_get _).symm <| .cons trivial (Option.some_get _).symm <|
        .cons trivial (Option.some_get _).symm .nil
  have hbegun : x₂.Begins ⟨1⟩ .attach ⟨1⟩ := ⟨rfl, by decide +kernel⟩
  have hquiet : ParentsBegun [x₁, x₂, x₃] := by
    apply ParentsBegun.of_quiet
    simp [x₁, x₂, x₃]
  have horder : ParentsBegun ([x₁, x₂, x₃] ++ [x₄]) := by
    refine hquiet.snoc ?_
    rintro ue id ⟨_, requested, rest, hqueue⟩
    cases hqueue
    exact ⟨x₂, by simp, ⟨1⟩, .attach, hbegun⟩
  have hparents : ParentsBegun ([x₁, x₂, x₃, x₄] ++ [x₅]) := by
    refine horder.snoc ?_
    rintro ue id ⟨hmove, _⟩
    cases hmove
  have hfew : allocations [x₁, x₂, x₃, x₄, x₅] < UInt64.size := by decide +kernel
  exact ⟨_, s₅, path, hparents, hfew, .inl (by decide +kernel), by decide +kernel,
    by decide +kernel, procedure_ids_lasting path hparents hfew⟩

end System

end Emm
