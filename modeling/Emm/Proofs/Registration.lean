import Emm.Proofs.Settlement

/-!
The registry of the application layer and the index of the EMM layer. They are written by different
tasks at different times. Main statement: `registry_within_index`. As long as nobody stores a
context with an IMSI that the index has under another UE, every entry of the registry stands in the
index too, under a UE with a context. So no collision is ever found in the registry, and no UE's
entry there is taken over by another.
-/

namespace Emm

/-- Every entry of the registry stands in the index, under a UE with a context. -/
def Mme.Indexed (m : Mme) : Prop :=
  ∀ imsi ue, m.registry.owner? imsi = some ue →
    m.store.owner? imsi = some ue ∧ (m.context? ue).isSome

namespace Mme.Indexed

variable {m m' : Mme} {ue : UeId} {imsi : Imsi}

theorem of_sameOwners (h : m.SameOwners m') (hm : m.Indexed) : m'.Indexed := by
  intro imsi ue hregistered
  rw [h.registry] at hregistered
  obtain ⟨hindex, hlive⟩ := hm imsi ue hregistered
  exact ⟨(h.index imsi).trans hindex, by rwa [h.isSome_context?]⟩

theorem assign (hm : m.Indexed)
    (hregistry : ∀ old, m.registry.owner? imsi = some old → old = ue) :
    (m.assigned ue imsi).Indexed := by
  intro i u hregistered
  rw [assigned, registry_claim, registry_modifyContext] at hregistered
  obtain ⟨hindex, hlive⟩ := hm i u hregistered
  constructor
  · rw [assigned, owner?_claim, owner?_modifyContext]
    split
    · rename_i hi
      subst hi
      exact congrArg some (hregistry u hregistered).symm
    · exact hindex
  · rw [assigned, context?_claim, context?_modifyContext]
    split
    · simpa using hlive
    · exact hlive

theorem register (hm : m.Indexed) (howned : m.Owned) (hcarried : m.imsi? ue = some imsi) :
    Mme.Indexed { m with registry := m.registry.register imsi ue } := by
  intro i u hregistered
  simp only [Registry.owner?_register] at hregistered
  split at hregistered
  · rename_i hi
    cases hregistered
    subst hi
    obtain ⟨c, hc, _⟩ := (imsi?_eq_some_iff m ue i).1 hcarried
    have hlive : (m.context? ue).isSome := by simp [hc]
    exact ⟨howned ue i hcarried, hlive⟩
  · exact hm i u hregistered

theorem unregister (hm : m.Indexed) (ue : UeId) : (m.unregister ue).Indexed := by
  intro i u hregistered
  simp only [Mme.unregister, Registry.owner?_unregister, Option.filter_eq_some_iff]
    at hregistered
  exact hm i u hregistered.1

theorem tearDown (hm : m.Indexed) (ue : UeId) : (m.tearDown ue).Indexed := by
  intro i u hregistered
  rw [registry_tearDown, Registry.owner?_unregister, Option.filter_eq_some_iff] at hregistered
  obtain ⟨hindex, hlive⟩ := hm i u hregistered.1
  have hne : u ≠ ue := by simpa using hregistered.2
  constructor
  · rw [owner?_tearDown, hindex]
    simp [hne]
  · rwa [context?_tearDown, if_neg hne]

theorem insertContext (hm : m.Indexed) {c : Context}
    (hunowned : ∀ u ∈ c.imsi.bind m.store.owner?, u = c.ue) : (m.insertContext c).Indexed := by
  intro i u hregistered
  rw [registry_insertContext] at hregistered
  obtain ⟨hindex, hlive⟩ := hm i u hregistered
  constructor
  · rw [owner?_insertContext]
    split
    · rename_i hbrought
      have hu : u = c.ue := hunowned u (by simpa [hbrought] using hindex)
      rw [hu]
    · exact hindex
  · rw [context?_insertContext]
    split
    · rfl
    · exact hlive

theorem application (hm : m.Indexed) (howned : m.Owned) (h : Application m m') :
    m'.Indexed := by
  cases h with
  | log log => exact hm
  | register hc hcarried =>
      exact hm.register howned ((imsi?_eq_some_iff m _ _).2 ⟨_, hc, hcarried⟩)
  | unregister ue log => exact hm.unregister ue
  | tearDown ue e => exact tearDown (hm.of_sameOwners (m.sameOwners_emit e)) ue

theorem edit {occasion : Occasion} (h : Edit occasion m m') (hm : m.Indexed) : m'.Indexed := by
  obtain hsame | ⟨ue, c, imsi, _, _, hregistry, rfl⟩ := h.sameOwners
  · exact hm.of_sameOwners hsame
  · exact hm.assign hregistry

theorem found_ne_application (hm : m.Indexed) {old : UeId} :
    ¬Found m ue imsi (some (.application old)) := by
  rintro (_ | ⟨hindex, hregistry, hne⟩)
  obtain ⟨howner, hlive⟩ := hm imsi old hregistry
  rw [hindex old howner hne] at hlive
  cases hlive

end Mme.Indexed

theorem Mme.registry_of_edits {occasion : Occasion} {m m' : Mme} (h : Edits occasion m m') :
    m'.registry = m.registry := by
  refine h.induct (P := fun m' => m'.registry = m.registry) (fun m₁ m₂ hedit ih => ?_) rfl
  obtain hsame | ⟨_, _, _, _, _, _, rfl⟩ := hedit.sameOwners
  · exact hsame.registry.trans ih
  · rwa [Mme.registry_claim, Mme.registry_modifyContext]

namespace System

variable {s s' : System} {a : Move}

/-- Whoever stores a context brings no IMSI that the index has under another UE. Nobody but the
tasks removes a context, writes an IMSI or writes one of the tables of owners. -/
def BringsUnownedImsi (s : System) : Move → Prop
  | .act (.insert c) => ∀ ue ∈ c.imsi.bind s.mme.store.owner?, ue = c.ue
  | .act action => action.movesOwners = false
  | _ => True

instance (s : System) : (a : Move) → Decidable (s.BringsUnownedImsi a)
  | .act (.insert _) => inferInstanceAs (Decidable (∀ ue ∈ Option.bind _ _, ue = _))
  | .act (.remove _) | .act (.removeHeld ..) | .act (.contains _) | .act (.setState ..)
  | .act (.setSecurity ..) | .act (.setImsi ..) | .act (.claim ..) | .act (.register ..)
  | .act (.unregister _) | .act .takeProcedureId | .act (.beginSpecific ..) | .act (.endSpecific _)
  | .act (.endIdentification _) | .act (.endAll _) | .act (.findSpecific ..)
  | .act (.armRetry ..) | .act (.startTimer ..) | .act (.stopTimer _) | .act .stopAllTimers =>
      inferInstanceAs (Decidable (_ = false))
  | .receive | .publish | .take | .discard | .fire _ | .deliver | .advance _ | .send _
  | .askEmmToStop | .askAppToStop | .closeBus | .tearDown _ => .isTrue trivial

theorem BringsUnownedImsi.stores_or_stays {action : Bench.Action}
    (hok : s.BringsUnownedImsi (.act action)) :
    (∃ c, action = .insert c ∧ ∀ ue ∈ c.imsi.bind s.mme.store.owner?, ue = c.ue) ∨
      action.movesOwners = false := by
  cases action with
  | insert c => exact .inl ⟨c, rfl, hok⟩
  | _ => exact .inr hok

theorem BringsUnownedImsi.bringsFreeImsi (hok : s.BringsUnownedImsi a) (howned : s.mme.Owned) :
    s.BringsFreeImsi a := by
  cases a with
  | act action =>
      obtain ⟨c, rfl, hunowned⟩ | hstays := hok.stores_or_stays
      · intro imsi hbrought ue hne hcarried
        have howner := howned ue imsi hcarried
        exact hne (hunowned ue (by simpa [hbrought] using howner))
      · cases action with
        | setImsi ue imsi => cases hstays
        | claim imsi ue => cases hstays
        | insert c => cases hstays
        | _ => trivial
  | _ => trivial

theorem indexed_step (hok : s.BringsUnownedImsi a) (hstep : s.step? a = some s')
    (howned : s.mme.Owned) (hs : s.mme.Indexed) : s'.mme.Indexed := by
  have hchange := step_change hstep
  generalize s'.mme = m' at hchange
  cases hchange with
  | edits _ h => exact h.induct (fun _ _ hedit hm => hm.edit hedit) hs
  | log log => exact hs
  | apply h => exact hs.application howned h
  | fire ha hdue => exact hs
  | advance d => exact hs
  | tearDown ue => exact hs.tearDown ue
  | act action =>
      obtain ⟨c, rfl, hunowned⟩ | hstays := hok.stores_or_stays
      · exact hs.insertContext hunowned
      · exact hs.of_sameOwners (s.mme.sameOwners_action hstays)

/-- The index and the registry as they are kept in a run, and what the EMM task waits for. -/
structure Consistent (s : System) : Prop where
  owned : s.mme.Owned
  indexed : s.mme.Indexed
  displacing : ∀ claim old, s.emm.displacing? ≠ some (claim, .application old)

theorem consistent_step (hok : s.BringsUnownedImsi a) (hstep : s.step? a = some s')
    (hs : s.Consistent) : s'.Consistent where
  owned := owned_step (hok.bringsFreeImsi hs.owned) hstep hs.owned
  indexed := indexed_step hok hstep hs.owned hs.indexed
  displacing := by
    intro claim old
    by_cases ha : a = .receive ∨ a = .publish
    · obtain ⟨_, hdisplacing, _⟩ | ⟨_, _, hfound, _, hemm⟩ | ⟨_, _, _, _, hemm⟩ :=
        settled_of_step ha hstep
      · rw [hdisplacing]
        exact nofun
      · rw [hemm]
        rintro ⟨⟩
        exact hs.indexed.found_ne_application hfound
      · rw [hemm]
        exact nofun
    · obtain ⟨hreceive, hpublish⟩ := not_or.1 ha
      rw [(traffic_of_step hreceive hpublish hstep).1]
      exact hs.displacing claim old

theorem consistent_of_path {config : NasConfig} {inboxCapacity busCapacity : Nat}
    {ms : List Moment}
    (path : Path BringsUnownedImsi (idle config inboxCapacity busCapacity) ms s) :
    s.Consistent := by
  refine path.induct ⟨?_, ?_, nofun⟩ fun _ _ _ hok hstep hs => consistent_step hok hstep hs
  · intro ue imsi himsi
    cases himsi
  · intro imsi ue hregistered
    cases hregistered

/-- An entry of the registry goes with a teardown or stays with its UE. -/
theorem registry_step (hok : s.BringsUnownedImsi a) (hstep : s.step? a = some s')
    (hs : s.Consistent) {imsi : Imsi} {ue ue' : UeId}
    (hbefore : s.mme.registry.owner? imsi = some ue)
    (hafter : s'.mme.registry.owner? imsi = some ue') : ue' = ue := by
  have hsame : s.mme.registry.owner? imsi = some ue' → ue' = ue := fun h =>
    Option.some.inj (h.symm.trans hbefore)
  have hchange := step_change hstep
  generalize s'.mme = m' at hchange hafter
  cases hchange with
  | edits _ h =>
      rw [Mme.registry_of_edits h] at hafter
      exact hsame hafter
  | log log => exact hsame hafter
  | apply h =>
      cases h with
      | log log => exact hsame hafter
      | @register u c i hc hcarried =>
          simp only [Registry.owner?_register] at hafter
          split at hafter
          · rename_i hi
            cases hafter
            subst hi
            -- the context carries the IMSI, so the index names its UE, as the registry has done
            have hindex := hs.owned ue' imsi ((Mme.imsi?_eq_some_iff _ _ _).2 ⟨c, hc, hcarried⟩)
            exact Option.some.inj (hindex.symm.trans (hs.indexed imsi ue hbefore).1)
          · exact hsame hafter
      | unregister u log =>
          simp only [Mme.unregister, Registry.owner?_unregister, Option.filter_eq_some_iff]
            at hafter
          exact hsame hafter.1
      | tearDown u e =>
          rw [Mme.registry_tearDown, Registry.owner?_unregister, Option.filter_eq_some_iff]
            at hafter
          exact hsame hafter.1
  | fire ha hdue => exact hsame hafter
  | advance d => exact hsame hafter
  | tearDown u =>
      rw [Mme.registry_tearDown, Registry.owner?_unregister, Option.filter_eq_some_iff] at hafter
      exact hsame hafter.1
  | act action =>
      obtain ⟨c, rfl, _⟩ | hstays := hok.stores_or_stays
      · change (s.mme.insertContext c).registry.owner? imsi = some ue' at hafter
        rw [Mme.registry_insertContext] at hafter
        exact hsame hafter
      · rw [(s.mme.sameOwners_action hstays).registry] at hafter
        exact hsame hafter

/-- However the tasks, the timers and the owner of the contexts take turns: what the registry says
the index says too, of a UE with a context; a collision is found in the index and never in the
registry, by a handler that looks an IMSI up and by the one that waits to displace its owner; and
an entry of the registry is not taken over by another UE. -/
theorem registry_within_index {config : NasConfig} {inboxCapacity busCapacity : Nat}
    (h : Reachable BringsUnownedImsi (idle config inboxCapacity busCapacity) s) :
    (∀ imsi ue, s.mme.registry.owner? imsi = some ue →
        (s.mme.context? ue).isSome ∧ s.mme.store.owner? imsi = some ue) ∧
      (∀ ue imsi old, (s.mme.findHolder ue imsi).2 ≠ some (.application old)) ∧
      (∀ ue n claim old, s.emm ≠ .publishing ue n (.displaced claim (.application old))) ∧
      ∀ a s', s.BringsUnownedImsi a → s.step? a = some s' → ∀ imsi ue ue',
        s.mme.registry.owner? imsi = some ue → s'.mme.registry.owner? imsi = some ue' →
          ue' = ue := by
  obtain ⟨ms, path⟩ := h
  have hs := consistent_of_path path
  refine ⟨?_, ?_, ?_, ?_⟩
  · intro imsi ue hregistered
    exact (hs.indexed imsi ue hregistered).symm
  · intro ue imsi old hholder
    have hfound := (s.mme.findHolder_found ue imsi).2
    rw [hholder] at hfound
    exact hs.indexed.found_ne_application hfound
  · intro ue n claim old hemm
    exact hs.displacing claim old (by rw [hemm]; rfl)
  · intro a s' hok hstep imsi ue ue' hbefore hafter
    exact registry_step hok hstep hs hbefore hafter

/-- The IMSI of a UE that has been registered is claimed by another, whose handler waits to have the
first torn down. -/
theorem registry_within_index_contested :
    ∃ s imsi, Reachable BringsUnownedImsi (idle {} 4 8) s ∧
      s.emm.condemned? = some ⟨1⟩ ∧ s.mme.registry.owner? imsi = some ⟨1⟩ ∧
      s.mme.store.owner? imsi = some ⟨1⟩ := by
  let imsi : Imsi := ⟨[0, 0, 1, 0, 1, 0], by decide⟩
  let s := ((idle {} 4 8).walk? BringsUnownedImsi
    [.act (.insert { ue := ⟨1⟩, state := .deregistered }),
      .act (.insert
        { ue := ⟨2⟩, state := .deregistered, imsi := some ⟨[9, 9, 9, 9, 9, 9], by decide⟩ }),
      .send (.start ⟨1⟩ .imsi none), .receive, .publish, .publish,
      .send (.complete ⟨1⟩ (.imsi imsi)), .receive, .publish, .take, .take, .take,
      .send (.start ⟨2⟩ .imsi none), .receive, .publish, .publish,
      .send (.complete ⟨2⟩ (.imsi imsi)), .receive]).get (by decide +kernel)
  have h : Reachable BringsUnownedImsi (idle {} 4 8) s := Path.of_walk? (Option.some_get _).symm
  have hregistered : s.mme.registry.owner? imsi = some ⟨1⟩ := by decide +kernel
  exact ⟨s, imsi, h, by decide +kernel, hregistered,
    ((registry_within_index h).1 imsi ⟨1⟩ hregistered).2⟩

end System

end Emm
