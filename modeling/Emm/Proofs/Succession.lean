import Emm.Proofs.Settlement

/-!
How an IMSI goes from one UE to another when nobody else interferes. A claim is put off as long as
somebody else is found to own the IMSI, and each time that owner is torn down. Main statements:
`PutOff.snoc`, by which this happens twice at most, and `assigned_confirmed`.
-/

namespace Emm

namespace Notification

def removed? : Notification → Option UeId
  | teardownSession ue _ => some ue
  | _ => none

def tornDown? : Notification → Option UeId
  | teardownSession ue _ | applicationTeardown ue => some ue
  | _ => none

end Notification

namespace Holder

@[simp]
theorem tornDown?_teardown (holder : Holder) : holder.teardown.tornDown? = some holder.ue := by
  cases holder <;> rfl

@[simp]
theorem removed?_teardown_context (old : UeId) :
    (context old).teardown.removed? = some old := rfl

@[simp]
theorem removed?_teardown_application (old : UeId) :
    (application old).teardown.removed? = none := rfl

end Holder

theorem Found.ne {m : Mme} {ue : UeId} {imsi : Imsi} {holder : Holder}
    (h : Found m ue imsi (some holder)) : holder.ue ≠ ue := by
  cases h with
  | context _ hne _ => exact hne
  | application _ _ hne => exact hne

namespace Mme

def state? (m : Mme) (ue : UeId) : Option EmmState := (m.context? ue).map (·.state)

section

variable (m : Mme) (ue : UeId)

theorem state?_congr {m m' : Mme} (h : ∀ u, m'.context? u = m.context? u) :
    m'.state? = m.state? := by
  funext u
  rw [state?, state?, h]

theorem state?_modifyContext {f : Context → Context} (hf : ∀ c, (f c).state = c.state) :
    (m.modifyContext ue f).state? = m.state? := by
  funext u
  simp only [state?, context?_modifyContext]
  split
  · rw [Option.map_map]
    congr 1
    funext c
    exact hf c
  · rfl

@[simp]
theorem state?_setIdentification (p : Option Identification) :
    (m.setIdentification ue p).state? = m.state? :=
  state?_modifyContext m ue fun _ => rfl

@[simp]
theorem state?_setSpecific (p : Option Specific) : (m.setSpecific ue p).state? = m.state? :=
  state?_modifyContext m ue fun _ => rfl

@[simp]
theorem state?_stopTimers (ids : List TimerId) : (m.stopTimers ids).state? = m.state? :=
  state?_congr fun u => by rw [context?_stopTimers]

theorem state?_armT3470 (interval : Duration) : (m.armT3470 interval ue).state? = m.state? := by
  unfold armT3470
  split
  · exact (state?_setIdentification _ ue _).trans (state?_stopTimers m _)
  · rfl

theorem state?_releaseIdentification : (m.releaseIdentification ue).state? = m.state? := by
  unfold releaseIdentification
  split
  · rw [state?_stopTimers, state?_setIdentification]
  · rfl

theorem state?_deleteProcedures : (m.deleteProcedures ue).state? = m.state? := by
  unfold deleteProcedures
  split
  · rw [state?_stopTimers]
    exact state?_modifyContext m ue fun _ => rfl
  · rfl

theorem state?_parkParent (interval : Duration) (parent : Option ProcedureId) (old : UeId) :
    (m.parkParent interval ue parent old).1.state? = m.state? := by
  unfold parkParent
  split
  · rfl
  · split
    · rfl
    · simp only
      split
      · exact (state?_setSpecific _ ue _).trans (state?_stopTimers m _)
      · exact (state?_setSpecific _ ue _).trans (state?_stopTimers m _)

theorem state?_assigned (imsi : Imsi) : (m.assigned ue imsi).state? = m.state? := by
  rw [assigned, state?_congr (m := m.modifyContext ue _) fun u => context?_claim _ _ _ _]
  exact state?_modifyContext m ue fun _ => rfl

end

end Mme

theorem Edit.state? {occasion : Occasion} {m m' : Mme} (h : Edit occasion m m') :
    m'.state? = m.state? := by
  cases h with
  | log log => rfl
  | enter requested parent hc hadmits =>
      unfold Mme.enterIdentification
      split
      · exact Mme.state?_setIdentification _ _ _
      · exact Mme.state?_setIdentification _ _ _
  | arm interval ue => exact m.state?_armT3470 ue interval
  | disarm hp => rw [Mme.state?_stopTimers, Mme.state?_setIdentification]
  | equip ue identity => exact m.state?_modifyContext ue fun c => by cases identity <;> rfl
  | release ue => exact m.state?_releaseIdentification ue
  | assign hc hindex hregistry => exact m.state?_assigned _ _
  | blame old => exact m.state?_modifyContext old fun _ => rfl
  | park interval ue parent old => exact m.state?_parkParent ue interval parent old
  | deleteAll ue => exact m.state?_deleteProcedures ue
  | takeT3470 hoccasion hp htimer => exact m.state?_setIdentification _ _
  | takeRetry hoccasion hs htimer => exact m.state?_setSpecific _ _

theorem Edits.state? {occasion : Occasion} {m m' : Mme} (h : Edits occasion m m') :
    m'.state? = m.state? :=
  h.induct (P := fun m' => m'.state? = m.state?) (fun _ _ hedit ih => hedit.state?.trans ih) rfl

namespace Mme

/-- The same UEs are in the same EMM states, and the same UEs own the same IMSIs. -/
structure Alike (m m' : Mme) : Prop extends SameOwners m m' where
  state : m'.state? = m.state?

section

variable (m : Mme) (n : Notification) (ue u : UeId) (imsi i : Imsi)

theorem Alike.refl : m.Alike m := ⟨.refl m, rfl⟩

theorem Alike.trans {m m' m'' : Mme} (h : m.Alike m') (h' : m'.Alike m'') : m.Alike m'' :=
  ⟨h.toSameOwners.trans h'.toSameOwners, h'.state.trans h.state⟩

theorem alike_emit (e : Log.Event) : m.Alike (m.emit e) := ⟨m.sameOwners_emit e, rfl⟩

@[simp]
theorem context?_registerImsi : (m.registerImsi ue).context? u = m.context? u := by
  unfold registerImsi
  split <;> rfl

theorem context?_apply :
    (m.apply n).context? u = if n.removed? = some u then none else m.context? u := by
  cases n with
  | procedureConfirmed ue ending =>
      simp only [apply]
      split
      · simp [Notification.removed?]
      · rfl
  | teardownSession ue cause => simp [apply, Notification.removed?, eq_comm]
  | applicationTeardown ue =>
      simp only [apply]
      split <;> rfl
  | specificProcedureRetry ue procedure old =>
      simp only [apply, reportOld]
      split <;> rfl
  | _ => rfl

theorem state?_apply :
    (m.apply n).state? u = if n.removed? = some u then none else m.state? u := by
  rw [state?, context?_apply]
  split <;> rfl

theorem owner?_apply (h : n.removed? = none) :
    (m.apply n).store.owner? i = m.store.owner? i := by
  cases n with
  | procedureConfirmed ue ending =>
      simp only [apply, registerImsi]
      split
      · split <;> rfl
      · rfl
  | teardownSession ue cause => cases h
  | applicationTeardown ue =>
      simp only [apply]
      split <;> rfl
  | specificProcedureRetry ue procedure old =>
      simp only [apply, reportOld]
      split <;> rfl
  | _ => rfl

theorem owner?_apply_teardownSession (cause : EmmCause) :
    (m.apply (.teardownSession ue cause)).store.owner? i =
      if m.store.contains ue then (m.store.owner? i).filter (· ≠ ue) else m.store.owner? i :=
  owner?_tearDown (m.emit _) ue i

theorem registry_registerImsi :
    (m.registerImsi ue).registry =
      ((m.imsi? ue).map fun imsi => m.registry.register imsi ue).getD m.registry := by
  have himsi : m.imsi? ue = (m.context? ue).bind (·.imsi) := rfl
  unfold registerImsi
  rw [← himsi]
  cases m.imsi? ue <;> rfl

theorem SameOwners.apply {m m' : Mme} (h : m.SameOwners m') (n : Notification) :
    (m.apply n).SameOwners (m'.apply n) where
  carried u := by
    rw [context?_apply, context?_apply]
    split
    · rfl
    · exact h.carried u
  index i := by
    cases hn : n.removed? with
    | none => rw [owner?_apply _ n i hn, owner?_apply _ n i hn, h.index]
    | some old =>
        cases n with
        | teardownSession ue cause =>
            rw [owner?_apply_teardownSession, owner?_apply_teardownSession, contains_eq_isSome,
              contains_eq_isSome, h.isSome_context?, h.index]
        | _ => cases hn
  registry := by
    cases n with
    | procedureConfirmed ue ending =>
        simp only [Mme.apply]
        split
        · rw [registry_registerImsi, registry_registerImsi, h.imsi?, h.registry]
        · exact h.registry
    | teardownSession ue cause =>
        refine (registry_tearDown (m'.emit _) ue).trans (.trans ?_ (registry_tearDown _ ue).symm)
        rw [registry_emit, registry_emit, h.registry]
    | applicationTeardown ue =>
        simp only [Mme.apply, h.registry]
        split
        · exact congrArg (·.unregister ue) h.registry
        · exact h.registry
    | specificProcedureRetry ue procedure old =>
        have hsame : ∀ m : Mme, (m.apply (.specificProcedureRetry ue procedure old)).registry =
            m.registry := by
          intro m
          simp only [Mme.apply, reportOld]
          split <;> rfl
        rw [hsame, hsame, h.registry]
    | _ => exact h.registry

theorem Alike.apply {m m' : Mme} (h : m.Alike m') (n : Notification) :
    (m.apply n).Alike (m'.apply n) where
  toSameOwners := h.toSameOwners.apply n
  state := by
    funext u
    rw [state?_apply, state?_apply, h.state]

theorem owner?_apply_applicationTeardown :
    (m.apply (.applicationTeardown ue)).registry.owner? i =
      (m.registry.owner? i).filter (· ≠ ue) := by
  simp only [apply]
  split
  · exact Registry.owner?_unregister m.registry ue i
  · rename_i hunnamed
    have hother : ∀ owner, m.registry.owner? i = some owner → owner ≠ ue := by
      rintro _ howner rfl
      refine hunnamed ((Table.anyValue_eq_true_iff _ _).2 ⟨i, _, howner, ?_⟩)
      exact decide_eq_true rfl
    cases howner : m.registry.owner? i with
    | none => rfl
    | some owner => rw [Option.filter_some, if_pos (by simpa using hother owner howner)]

end

section

variable {m m' : Mme} {ue : UeId} {imsi : Imsi} {holder : Holder}

theorem Unheld.not_context {old : UeId} (h : m.Unheld ue imsi) :
    ¬Found m ue imsi (some (.context old)) := by
  rintro (⟨hindex, hne, hlive⟩ | _)
  rw [h old hindex hne] at hlive
  cases hlive

/-- At most so many owners are found one after the other, before nobody is. -/
def HeldAtMost (m : Mme) (ue : UeId) (imsi : Imsi) : Nat → Prop
  | 0 => Found m ue imsi none
  | 1 => m.Unheld ue imsi
  | _ => True

theorem HeldAtMost.of_sameOwners {left : Nat} (h : m'.SameOwners m)
    (hheld : m.HeldAtMost ue imsi left) : m'.HeldAtMost ue imsi left := by
  match left with
  | 0 => exact Found.of_sameOwners h hheld
  | 1 => exact Unheld.of_sameOwners h hheld
  | _ + 2 => trivial

theorem unheld_of_teardown (hfound : Found m ue imsi (some holder)) :
    (m.apply holder.teardown).Unheld ue imsi := by
  intro other hother hne
  cases hfound with
  | @context old hindex _ hlive =>
      have hcontains : m.store.contains old = true := hlive
      rw [Holder.teardown, owner?_apply_teardownSession, if_pos hcontains, hindex] at hother
      obtain ⟨hsame, hother⟩ := Option.filter_eq_some_iff.1 hother
      cases hsame
      simp at hother
  | application hindex _ _ =>
      rw [Holder.teardown, owner?_apply _ _ _ rfl] at hother
      rw [Holder.teardown, context?_apply]
      exact hindex other hother hne

theorem HeldAtMost.teardown {left : Nat} (hheld : m.HeldAtMost ue imsi left)
    (hfound : Found m ue imsi (some holder)) :
    ∃ fewer, left = fewer + 1 ∧ (m.apply holder.teardown).HeldAtMost ue imsi fewer := by
  have hunheld := unheld_of_teardown hfound
  match left with
  | 0 =>
      obtain ⟨_⟩ | ⟨_⟩ | ⟨hindex, hregistry⟩ := hheld
      cases hfound with
      | context howner hne hlive => exact absurd (.context howner hne hlive) hindex.not_context
      | application _ howner hne => exact absurd (hregistry _ howner) hne
  | 1 =>
      refine ⟨0, rfl, ?_⟩
      cases hfound with
      | context howner hne hlive =>
          exact absurd (.context howner hne hlive) (Unheld.not_context hheld)
      | @application old _ howner hne =>
          refine .nobody hunheld fun other hother => ?_
          rw [Holder.teardown, owner?_apply_applicationTeardown, howner] at hother
          obtain ⟨hsame, hother⟩ := Option.filter_eq_some_iff.1 hother
          cases hsame
          simp at hother
  | 2 => exact ⟨1, rfl, hunheld⟩
  | left + 3 => exact ⟨left + 2, rfl, trivial⟩

/-- What has become of things after a claim has been put off, each time to tear one UE down. The
claimant is untouched, and one context is gone at most. -/
structure PutOff (m : Mme) (ue : UeId) (imsi : Imsi) (olds : List UeId) (m' : Mme) : Prop where
  carried : m'.imsi? ue = m.imsi? ue
  state : m'.state? ue = m.state? ue
  others : ue ∉ olds
  removed : ∃ gone : Option UeId, (olds = [] → gone = none) ∧ gone ≠ some ue ∧
    ∀ u, (m'.context? u).isSome ↔ (m.context? u).isSome ∧ gone ≠ some u
  held : ∃ left, olds.length + left = 2 ∧ m'.HeldAtMost ue imsi left

theorem PutOff.nil (m : Mme) (ue : UeId) (imsi : Imsi) : PutOff m ue imsi [] m where
  carried := rfl
  state := rfl
  others := by simp
  removed := ⟨none, fun _ => rfl, by simp, fun u => by simp⟩
  held := ⟨2, rfl, trivial⟩

theorem PutOff.of_alike {olds : List UeId} {m'' : Mme} (h : PutOff m ue imsi olds m')
    (halike : m'.Alike m'') : PutOff m ue imsi olds m'' where
  carried := (halike.imsi? ue).trans h.carried
  state := (congrFun halike.state ue).trans h.state
  others := h.others
  removed := by
    obtain ⟨gone, hfirst, hne, hlive⟩ := h.removed
    exact ⟨gone, hfirst, hne, fun u => by rw [halike.isSome_context?, hlive]⟩
  held := by
    obtain ⟨left, hleft, hheld⟩ := h.held
    refine ⟨left, hleft, hheld.of_sameOwners ?_⟩
    exact ⟨fun u => (halike.carried u).symm, fun i => (halike.index i).symm, halike.registry.symm⟩

theorem PutOff.length_le {olds : List UeId} (h : PutOff m ue imsi olds m') : olds.length ≤ 2 := by
  obtain ⟨left, hleft, _⟩ := h.held
  omega

theorem PutOff.isSome_context? {olds : List UeId} (h : PutOff m ue imsi olds m')
    (hlive : (m.context? ue).isSome) : (m'.context? ue).isSome := by
  obtain ⟨gone, _, hspared, hkept⟩ := h.removed
  exact (hkept ue).2 ⟨hlive, hspared⟩

/-- A claim is put off twice at most: only the first owner can have a context. -/
theorem PutOff.snoc {olds : List UeId} (h : PutOff m ue imsi olds m')
    (hfound : Found m' ue imsi (some holder)) :
    PutOff m ue imsi (olds ++ [holder.ue]) (m'.apply holder.teardown) := by
  obtain ⟨left, hleft, hheld⟩ := h.held
  obtain ⟨fewer, rfl, hfewer⟩ := hheld.teardown hfound
  have hspared : holder.teardown.removed? ≠ some ue := by
    have hne := hfound.ne
    cases holder with
    | context old => exact fun h => hne (Option.some.inj h)
    | application old => simp
  constructor
  · rw [imsi?, context?_apply, if_neg hspared]
    exact h.carried
  · rw [state?_apply, if_neg hspared]
    exact h.state
  · simpa [h.others] using hfound.ne.symm
  · obtain ⟨gone, hfirst, hne, hlive⟩ := h.removed
    cases hholder : holder with
    | context old =>
        subst hholder
        -- of owners that are found one after the other only the first can have a context
        have hstart : olds = [] := by
          cases olds with
          | nil => rfl
          | cons x olds =>
              have hone : fewer = 0 := by
                simp at hleft
                omega
              subst hone
              exact absurd hfound (Unheld.not_context hheld)
        refine ⟨some old, by simp, hspared, fun u => ?_⟩
        rw [context?_apply, Holder.removed?_teardown_context]
        split
        · simp_all
        · rename_i hu
          rw [hlive, hfirst hstart]
          simp [hu]
    | application old =>
        refine ⟨gone, by simp, hne, fun u => ?_⟩
        rw [context?_apply, Holder.removed?_teardown_application,
          if_neg (Option.some_ne_none u).symm]
        exact hlive u
  · exact ⟨fewer, by simp; omega, hfewer⟩

theorem assigned_confirmed (hlive : (m.context? ue).isSome) {ending : Ending}
    (hnotify : ending.notify = true)
    (h : ((m.assigned ue imsi).apply (.procedureConfirmed ue ending)).SameOwners m') :
    m'.imsi? ue = some imsi ∧ m'.store.owner? imsi = some ue ∧
      m'.registry.owner? imsi = some ue ∧
      ∀ u, (m'.context? u).isSome ↔ (m.context? u).isSome := by
  have hcarried : (m.assigned ue imsi).imsi? ue = some imsi := by
    obtain ⟨c, hc⟩ := Option.isSome_iff_exists.1 hlive
    simp [assigned, imsi?, hc]
  have hregistry : ((m.assigned ue imsi).apply (.procedureConfirmed ue ending)).registry =
      m.registry.register imsi ue := by
    simp only [apply, hnotify, if_true, registry_registerImsi, hcarried, Option.map_some,
      Option.getD_some]
    simp [assigned]
  refine ⟨?_, ?_, ?_, fun u => ?_⟩
  · rw [h.imsi?, imsi?, context?_apply]
    exact hcarried
  · rw [h.index, owner?_apply _ _ _ rfl]
    simp [assigned]
  · rw [h.registry, hregistry, Registry.owner?_register, if_pos rfl]
  · have hremoved : (Notification.procedureConfirmed ue ending).removed? ≠ some u :=
      (Option.some_ne_none u).symm
    rw [h.isSome_context?, context?_apply, if_neg hremoved, assigned, context?_claim,
      context?_modifyContext]
    split
    · rw [Option.isSome_map]
    · rfl

end

end Mme

end Emm
