import Emm.Proofs.Run

/-!
Who owns an IMSI. Main statement: `imsi_owned_exclusively`. In every state of a run the index maps
the IMSI of a live context to the UE of that context, also while a handler waits in the middle of a
message, so no two live contexts carry the same IMSI.
-/

namespace Emm

namespace Mme

def imsi? (m : Mme) (ue : UeId) : Option Imsi := (m.context? ue).bind (·.imsi)

theorem imsi?_eq_some_iff (m : Mme) (ue : UeId) (imsi : Imsi) :
    m.imsi? ue = some imsi ↔ ∃ c, m.context? ue = some c ∧ c.imsi = some imsi := by
  simp [imsi?, Option.bind_eq_some_iff]

/-- The same UEs have contexts, these carry the same IMSIs, and both tables name the same owners. -/
structure SameOwners (m m' : Mme) : Prop where
  carried : ∀ ue, (m'.context? ue).map (·.imsi) = (m.context? ue).map (·.imsi)
  index : ∀ imsi, m'.store.owner? imsi = m.store.owner? imsi
  registry : m'.registry = m.registry

namespace SameOwners

variable {m m' m'' : Mme}

theorem refl (m : Mme) : SameOwners m m := ⟨fun _ => rfl, fun _ => rfl, rfl⟩

theorem trans (h : SameOwners m m') (h' : SameOwners m' m'') : SameOwners m m'' :=
  ⟨fun ue => (h'.carried ue).trans (h.carried ue), fun i => (h'.index i).trans (h.index i),
    h'.registry.trans h.registry⟩

theorem imsi? (h : SameOwners m m') (ue : UeId) : m'.imsi? ue = m.imsi? ue := by
  have hcarried := h.carried ue
  cases hm : m.context? ue <;> cases hm' : m'.context? ue <;>
    simp_all [Mme.imsi?]

theorem isSome_context? (h : SameOwners m m') (ue : UeId) :
    (m'.context? ue).isSome = (m.context? ue).isSome := by
  simpa using congrArg Option.isSome (h.carried ue)

end SameOwners

section

variable (m : Mme) (ue : UeId)

theorem sameOwners_log (log : List Log.Event) : SameOwners m { m with log } :=
  ⟨fun _ => rfl, fun _ => rfl, rfl⟩

theorem sameOwners_emit (e : Log.Event) : SameOwners m (m.emit e) := sameOwners_log m _

theorem sameOwners_modifyContext {f : Context → Context} (hf : ∀ c, (f c).imsi = c.imsi) :
    SameOwners m (m.modifyContext ue f) where
  carried u := by
    rw [context?_modifyContext]
    split
    · rw [Option.map_map]
      congr 1
      funext c
      exact hf c
    · rfl
  index _ := rfl
  registry := rfl

theorem sameOwners_setIdentification (p : Option Identification) :
    SameOwners m (m.setIdentification ue p) :=
  sameOwners_modifyContext m ue fun _ => rfl

theorem sameOwners_setSpecific (p : Option Specific) : SameOwners m (m.setSpecific ue p) :=
  sameOwners_modifyContext m ue fun _ => rfl

theorem sameOwners_takeProcedureId : SameOwners m m.takeProcedureId.2 :=
  ⟨fun _ => rfl, fun _ => rfl, rfl⟩

theorem sameOwners_startTimer (kind : TimerKind) (interval : Duration) :
    SameOwners m (m.startTimer ue kind interval).2 :=
  ⟨fun _ => rfl, fun _ => rfl, rfl⟩

theorem sameOwners_stopTimers (ids : List TimerId) : SameOwners m (m.stopTimers ids) where
  carried u := by rw [context?_stopTimers]
  index i := by rw [store_stopTimers]
  registry := registry_stopTimers m ids

theorem sameOwners_enterIdentification (c : Context) (requested : IdentityType)
    (parent : Option ProcedureId) :
    SameOwners m (m.enterIdentification ue c requested parent) := by
  unfold enterIdentification
  split
  · exact (sameOwners_emit m _).trans (sameOwners_setIdentification _ ue _)
  · exact (sameOwners_takeProcedureId m).trans (sameOwners_setIdentification _ ue _)

theorem sameOwners_armT3470 (interval : Duration) : SameOwners m (m.armT3470 interval ue) := by
  unfold armT3470
  split
  · refine .trans ?_ (sameOwners_emit _ _)
    refine .trans ?_ (sameOwners_setIdentification _ ue _)
    exact (sameOwners_stopTimers m _).trans (sameOwners_startTimer _ ue _ interval)
  · exact sameOwners_emit m _

theorem sameOwners_releaseIdentification : SameOwners m (m.releaseIdentification ue) := by
  unfold releaseIdentification
  split
  · exact (sameOwners_setIdentification m ue _).trans (sameOwners_stopTimers _ _)
  · exact .refl m

theorem sameOwners_deleteProcedures : SameOwners m (m.deleteProcedures ue) := by
  unfold deleteProcedures
  split
  · refine .trans ?_ (sameOwners_stopTimers _ _)
    exact sameOwners_modifyContext m ue fun _ => rfl
  · exact .refl m

theorem sameOwners_parkParent (interval : Duration) (parent : Option ProcedureId) (old : UeId) :
    SameOwners m (m.parkParent interval ue parent old).1 := by
  unfold parkParent
  split
  · exact sameOwners_log m _
  · split
    · exact sameOwners_log m _
    · rename_i s hs
      have hstarted : SameOwners m
          ((m.stopTimers s.retryTimer.toList).startTimer ue .specificRetry interval).2 :=
        (sameOwners_stopTimers m _).trans (sameOwners_startTimer _ ue _ interval)
      simp only
      split
      · exact (hstarted.trans (sameOwners_setSpecific _ ue _)).trans (sameOwners_log _ _)
      · exact hstarted.trans (sameOwners_setSpecific _ ue _)

theorem sameOwners_onContext {f : Context → Context} (hf : ∀ c, (f c).imsi = c.imsi)
    (reply : Context → Bench.ActionReply) : SameOwners m (Bench.onContext m ue f reply).1 := by
  unfold Bench.onContext
  split
  · exact sameOwners_modifyContext m ue hf
  · exact .refl m

end

end Mme

/-- Does the action store or remove a context, or write an IMSI or one of the tables of owners? -/
def Bench.Action.movesOwners : Bench.Action → Bool
  | insert _ | remove _ | removeHeld .. | setImsi .. | claim .. | register .. | unregister _ => true
  | _ => false

theorem Mme.sameOwners_action (m : Mme) {action : Bench.Action}
    (h : action.movesOwners = false) : m.SameOwners (action.run m).1 := by
  cases action with
  | insert | remove | removeHeld | setImsi | claim | register | unregister => cases h
  | contains ue => exact .refl m
  | setState ue state => exact sameOwners_onContext m ue (fun _ => by rfl) _
  | setSecurity ue security => exact sameOwners_onContext m ue (fun _ => by rfl) _
  | takeProcedureId => exact m.sameOwners_takeProcedureId
  | beginSpecific ue kind =>
      refine ⟨fun u => ?_, fun i => Store.owner?_beginSpecific m.store ue i kind, rfl⟩
      have hcontext := Store.context?_beginSpecific m.store ue u kind
      refine (congrArg (Option.map (·.imsi)) hcontext).trans ?_
      split
      · rw [Option.map_map]
        rfl
      · rfl
  | endSpecific ue => exact sameOwners_onContext m ue (fun _ => by rfl) _
  | endIdentification ue => exact sameOwners_onContext m ue (fun _ => by rfl) _
  | endAll ue => exact sameOwners_onContext m ue (fun _ => by rfl) _
  | findSpecific ue id => exact sameOwners_onContext m ue (fun _ => by rfl) _
  | armRetry ue interval =>
      have hstarted := m.sameOwners_startTimer ue .specificRetry interval
      simp only [Bench.Action.run]
      split
      · exact hstarted.trans (sameOwners_setSpecific _ ue _)
      · exact hstarted
  | startTimer ue kind interval => exact m.sameOwners_startTimer ue kind interval
  | stopTimer id => exact m.sameOwners_stopTimers [id]
  | stopAllTimers => exact ⟨fun _ => rfl, fun _ => rfl, rfl⟩

/-- No edit touches an owner, unless a UE takes an IMSI that no other UE is found to own. -/
theorem Edit.sameOwners {occasion : Occasion} {m m' : Mme} (h : Edit occasion m m') :
    m.SameOwners m' ∨
      ∃ ue c imsi, m.context? ue = some c ∧
        (∀ old, m.store.owner? imsi = some old → old ≠ ue → m.context? old = none) ∧
        (∀ old, m.registry.owner? imsi = some old → old = ue) ∧
        m' = (m.modifyContext ue fun c => { c with imsi := some imsi }).claim imsi ue := by
  cases h with
  | log log => exact .inl (m.sameOwners_log log)
  | enter requested parent hc hadmits => exact .inl (m.sameOwners_enterIdentification _ _ _ _)
  | arm interval ue => exact .inl (m.sameOwners_armT3470 ue interval)
  | disarm hp =>
      exact .inl ((m.sameOwners_setIdentification _ _).trans (Mme.sameOwners_stopTimers _ _))
  | equip ue identity =>
      refine .inl (m.sameOwners_modifyContext ue fun c => ?_)
      cases identity <;> rfl
  | release ue => exact .inl (m.sameOwners_releaseIdentification ue)
  | assign hc hindex hregistry => exact .inr ⟨_, _, _, hc, hindex, hregistry, rfl⟩
  | blame old => exact .inl (m.sameOwners_modifyContext old fun _ => rfl)
  | park interval ue parent old => exact .inl (m.sameOwners_parkParent ue interval parent old)
  | deleteAll ue => exact .inl (m.sameOwners_deleteProcedures ue)
  | takeT3470 hoccasion hp htimer => exact .inl (m.sameOwners_setIdentification _ _)
  | takeRetry hoccasion hs htimer => exact .inl (m.sameOwners_setSpecific _ _)

/-- The index maps the IMSI of every live context to the UE of that context. -/
def Mme.Owned (m : Mme) : Prop :=
  ∀ ue imsi, m.imsi? ue = some imsi → m.store.owner? imsi = some ue

namespace Mme.Owned

variable {m m' : Mme}

theorem of_sameOwners (h : m.SameOwners m') (hm : m.Owned) : m'.Owned := by
  intro ue imsi himsi
  rw [h.imsi?] at himsi
  rw [h.index]
  exact hm ue imsi himsi

/-- A free IMSI is carried by nobody else: whoever carries it is the one whom the index names. -/
theorem assign {ue : UeId} {imsi : Imsi} (hm : m.Owned)
    (hfree : ∀ old, m.store.owner? imsi = some old → old ≠ ue → m.context? old = none) :
    Mme.Owned ((m.modifyContext ue fun c => { c with imsi := some imsi }).claim imsi ue) := by
  intro u i hi
  obtain ⟨c, hc, hcarried⟩ := (imsi?_eq_some_iff _ u i).1 hi
  rw [context?_claim, context?_modifyContext] at hc
  rw [owner?_claim, owner?_modifyContext]
  by_cases hu : u = ue
  · rw [if_pos hu] at hc
    obtain ⟨_, _, rfl⟩ := Option.map_eq_some_iff.1 hc
    cases hcarried
    rw [if_pos rfl, hu]
  · rw [if_neg hu] at hc
    have howner := hm u i ((imsi?_eq_some_iff m u i).2 ⟨c, hc, hcarried⟩)
    have hne : i ≠ imsi := by
      rintro rfl
      rw [hfree u howner hu] at hc
      cases hc
    rw [if_neg hne]
    exact howner

theorem edit {occasion : Occasion} (h : Edit occasion m m') (hm : m.Owned) : m'.Owned := by
  obtain hsame | ⟨ue, c, imsi, _, hfree, _, rfl⟩ := h.sameOwners
  · exact hm.of_sameOwners hsame
  · exact hm.assign hfree

theorem without (hm : m.Owned) {ue : UeId}
    (hcontext : ∀ u, m'.context? u = if u = ue then none else m.context? u)
    (hindex : ∀ i, m'.store.owner? i =
      if m.store.contains ue then (m.store.owner? i).filter (· ≠ ue) else m.store.owner? i) :
    m'.Owned := by
  intro u imsi himsi
  obtain ⟨c, hc, hcarried⟩ := (imsi?_eq_some_iff _ u imsi).1 himsi
  rw [hcontext] at hc
  split at hc
  · cases hc
  · rename_i hne
    have howner := hm u imsi ((imsi?_eq_some_iff m u imsi).2 ⟨c, hc, hcarried⟩)
    rw [hindex, howner]
    simp [hne]

theorem removeContext (hm : m.Owned) (ue : UeId) : (m.removeContext ue).Owned :=
  hm.without (m.context?_removeContext ue) (m.owner?_removeContext ue)

theorem tearDown (hm : m.Owned) (ue : UeId) : (m.tearDown ue).Owned :=
  hm.without (m.context?_tearDown ue) (m.owner?_tearDown ue)

theorem application (h : Application m m') (hm : m.Owned) : m'.Owned := by
  cases h with
  | log log => exact hm.of_sameOwners (m.sameOwners_log log)
  | register hc hcarried => exact hm
  | unregister ue log => exact hm
  | tearDown ue e => exact tearDown (hm.of_sameOwners (m.sameOwners_emit e)) ue

theorem insertContext (hm : m.Owned) {c : Context}
    (hfree : ∀ imsi, c.imsi = some imsi → ∀ ue, ue ≠ c.ue → m.imsi? ue ≠ some imsi) :
    (m.insertContext c).Owned := by
  intro u i hi
  obtain ⟨c', hc', hcarried⟩ := (imsi?_eq_some_iff _ u i).1 hi
  rw [context?_insertContext] at hc'
  rw [owner?_insertContext]
  by_cases hu : u = c.ue
  · rw [if_pos hu] at hc'
    cases hc'
    rw [if_pos hcarried, hu]
  · rw [if_neg hu] at hc'
    have hi' := (imsi?_eq_some_iff m u i).2 ⟨c', hc', hcarried⟩
    rw [if_neg fun hbrought => hfree i hbrought u hu hi']
    exact hm u i hi'

theorem act (hm : m.Owned) {action : Bench.Action}
    (hinsert : ∀ c, action = .insert c →
      ∀ imsi, c.imsi = some imsi → ∀ ue, ue ≠ c.ue → m.imsi? ue ≠ some imsi)
    (hwrite : ∀ ue imsi, action ≠ .setImsi ue imsi) (hclaim : ∀ imsi ue, action ≠ .claim imsi ue) :
    Mme.Owned (action.run m).1 := by
  by_cases hmoves : action.movesOwners = false
  · exact hm.of_sameOwners (m.sameOwners_action hmoves)
  · cases action with
    | insert c => exact hm.insertContext (hinsert c rfl)
    | remove ue =>
        simp only [Bench.Action.run]
        split
        · exact hm.removeContext ue
        · exact hm
    | removeHeld ue cause =>
        simp only [Bench.Action.run]
        split
        · exact hm.removeContext ue
        · exact hm
    | setImsi ue imsi => exact absurd rfl (hwrite ue imsi)
    | claim imsi ue => exact absurd rfl (hclaim imsi ue)
    | register ue imsi => exact hm
    | unregister ue => exact hm
    | _ => exact absurd rfl hmoves

end Mme.Owned

/-- Whoever stores a context brings no IMSI that another live context carries, and contexts and
index are told of an IMSI by the handlers only. -/
def System.BringsFreeImsi (s : System) : Move → Prop
  | .act (.insert c) => ∀ imsi, c.imsi = some imsi → ∀ ue, ue ≠ c.ue → s.mme.imsi? ue ≠ some imsi
  | .act (.setImsi ..) => False
  | .act (.claim ..) => False
  | _ => True

theorem System.owned_step {s s' : System} {a : Move} (hok : s.BringsFreeImsi a)
    (hstep : s.step? a = some s') (hs : s.mme.Owned) : s'.mme.Owned := by
  have hchange := step_change hstep
  generalize s'.mme = m' at hchange
  cases hchange with
  | edits _ h => exact h.induct (fun _ _ hedit hm => hm.edit hedit) hs
  | log log => exact hs
  | apply h => exact hs.application h
  | fire ha hdue => exact hs
  | advance d => exact hs
  | tearDown ue => exact hs.tearDown ue
  | act action =>
      refine hs.act (fun c hc => ?_) (fun ue imsi hc => ?_) (fun imsi ue hc => ?_)
      · subst hc
        exact hok
      · subst hc
        exact hok
      · subst hc
        exact hok

theorem System.owned_of_reachable {config : NasConfig} {inboxCapacity busCapacity : Nat}
    {s : System} (h : Reachable BringsFreeImsi (idle config inboxCapacity busCapacity) s) :
    s.mme.Owned := by
  obtain ⟨ms, path⟩ := h
  refine path.induct ?_ fun _ _ _ hok hstep hs => owned_step hok hstep hs
  intro ue imsi himsi
  cases himsi

/-- However the tasks, the timers and the owner of the contexts take turns, the index names the
carrier of an IMSI, and no two live contexts carry the same one. -/
theorem System.imsi_owned_exclusively {config : NasConfig} {inboxCapacity busCapacity : Nat}
    {s : System} (h : Reachable BringsFreeImsi (idle config inboxCapacity busCapacity) s) :
    (∀ ue c imsi, s.mme.context? ue = some c → c.imsi = some imsi →
        s.mme.store.owner? imsi = some ue) ∧
      ∀ ue₁ ue₂ c₁ c₂ imsi, s.mme.context? ue₁ = some c₁ → s.mme.context? ue₂ = some c₂ →
        c₁.imsi = some imsi → c₂.imsi = some imsi → ue₁ = ue₂ := by
  have howned : ∀ ue c imsi, s.mme.context? ue = some c → c.imsi = some imsi →
      s.mme.store.owner? imsi = some ue := by
    intro ue c imsi hc himsi
    exact owned_of_reachable h ue imsi ((Mme.imsi?_eq_some_iff _ ue imsi).2 ⟨c, hc, himsi⟩)
  refine ⟨howned, ?_⟩
  intro ue₁ ue₂ c₁ c₂ imsi hc₁ hc₂ h₁ h₂
  have hsame := (howned ue₁ c₁ imsi hc₁ h₁).symm.trans (howned ue₂ c₂ imsi hc₂ h₂)
  exact Option.some.inj hsame

/-- A second UE claims the IMSI of the first, and its handler waits to have the first torn down. -/
theorem System.imsi_owned_exclusively_displacing :
    ∃ s, Reachable BringsFreeImsi (idle {} 4 8) s ∧
      s.emm matches .publishing ⟨2⟩ (.teardownSession ⟨1⟩ .illegalUe) _ ∧
      s.mme.imsi? ⟨1⟩ = some ⟨[0, 0, 1, 0, 1, 0], by decide⟩ ∧
      s.mme.store.owner? ⟨[0, 0, 1, 0, 1, 0], by decide⟩ = some ⟨1⟩ := by
  have first : Reachable BringsFreeImsi (idle {} 4 8) _ :=
    ⟨_, ((((((((Path.nil.snoc
      (a := .act (.insert { ue := ⟨1⟩, state := .deregistered }))
        (by simp [BringsFreeImsi]) rfl).snoc
      (a := .act (.insert { ue := ⟨2⟩, state := .deregistered }))
        (by simp [BringsFreeImsi]) rfl).snoc
      (a := .send (.start ⟨1⟩ .imsi none)) trivial rfl).snoc
      (a := .send (.complete ⟨1⟩ (.imsi ⟨[0, 0, 1, 0, 1, 0], by decide⟩))) trivial rfl).snoc
      (a := .receive) trivial rfl).snoc
      (a := .publish) trivial rfl).snoc
      (a := .publish) trivial rfl).snoc
      (a := .receive) trivial rfl).snoc
      (a := .publish) trivial rfl⟩
  obtain ⟨ms, path⟩ := first
  have h : Reachable BringsFreeImsi (idle {} 4 8) _ :=
    ⟨_, (((((path.snoc
      (a := .send (.start ⟨2⟩ .imsi none)) trivial rfl).snoc
      (a := .send (.complete ⟨2⟩ (.imsi ⟨[0, 0, 1, 0, 1, 0], by decide⟩))) trivial rfl).snoc
      (a := .receive) trivial rfl).snoc
      (a := .publish) trivial rfl).snoc
      (a := .publish) trivial rfl).snoc
      (a := .receive) trivial rfl⟩
  exact ⟨_, h, rfl, rfl, (imsi_owned_exclusively h).1 ⟨1⟩ _ _ rfl rfl⟩

end Emm
