import Emm.Proofs.Ownership
import Emm.Proofs.Wiring

/-!
What is left of a UE after its teardown. Main statement: `torn_down_for_good`. Once the application
task has handled the order to tear a UE down, nothing is kept for the UE, and nothing that was under
way brings anything back.
-/

namespace Emm

namespace Mme

/-- Nothing is kept for the UE: no context, no owner's entry, no running timer. -/
structure FreeOf (m : Mme) (ue : UeId) : Prop where
  context : m.context? ue = none
  index : ∀ imsi, m.store.owner? imsi ≠ some ue
  registry : ∀ imsi, m.registry.owner? imsi ≠ some ue
  timers : ∀ a ∈ m.timers.armed, a.expiry.ue ≠ ue

/-- Whoever owns an IMSI has a context. -/
structure Attended (m : Mme) : Prop where
  index : ∀ imsi ue, m.store.owner? imsi = some ue → (m.context? ue).isSome
  registry : ∀ imsi ue, m.registry.owner? imsi = some ue → (m.context? ue).isSome

/-- If owners have contexts and timers are on record in one, all depends on the context. -/
theorem FreeOf.of_absent {m : Mme} {due : List Expiry} {ue : UeId} (hm : m.Attended)
    (hsound : m.ledger.Sound due) (habsent : m.context? ue = none) : m.FreeOf ue where
  context := habsent
  index imsi howner := by
    have hpresent := hm.index imsi ue howner
    rw [habsent] at hpresent
    cases hpresent
  registry imsi howner := by
    have hpresent := hm.registry imsi ue howner
    rw [habsent] at hpresent
    cases hpresent
  timers a ha := by
    rintro rfl
    have hrecorded : m.handle? a.expiry.ue a.expiry.kind = some a.id := hsound.recorded a ha
    rw [handle?, habsent] at hrecorded
    cases hrecorded

namespace Attended

variable {m m' : Mme}

theorem of_sameOwners (h : m.SameOwners m') (hm : m.Attended) : m'.Attended where
  index imsi ue howner := by
    rw [h.isSome_context?]
    rw [h.index] at howner
    exact hm.index imsi ue howner
  registry imsi ue howner := by
    rw [h.isSome_context?]
    rw [h.registry] at howner
    exact hm.registry imsi ue howner

theorem edit {occasion : Occasion} (h : Edit occasion m m') (hm : m.Attended) : m'.Attended := by
  obtain hsame | ⟨ue, c, imsi, hc, _, _, rfl⟩ := h.sameOwners
  · exact hm.of_sameOwners hsame
  · have hcontext : ∀ u, (m.context? u).isSome → (((m.modifyContext ue fun c =>
        { c with imsi := some imsi }).claim imsi ue).context? u).isSome := by
      intro u hu
      rw [context?_claim, context?_modifyContext]
      split
      · rw [Option.isSome_map]
        exact hu
      · exact hu
    constructor
    · intro i u howner
      rw [owner?_claim] at howner
      split at howner
      · cases howner
        exact hcontext ue (by rw [hc]; rfl)
      · exact hcontext u (hm.index i u howner)
    · intro i u howner
      rw [registry_claim] at howner
      exact hcontext u (hm.registry i u howner)

theorem tearDown (hm : m.Attended) (ue : UeId) : (m.tearDown ue).Attended := by
  have hcontext : ∀ u, u ≠ ue → (m.context? u).isSome → ((m.tearDown ue).context? u).isSome := by
    intro u hne hu
    rw [context?_tearDown, if_neg hne]
    exact hu
  constructor
  · intro i u howner
    rw [owner?_tearDown, contains_eq_isSome] at howner
    split at howner
    · obtain ⟨hold, hne⟩ := Option.filter_eq_some_iff.1 howner
      exact hcontext u (by simpa using hne) (hm.index i u hold)
    · rename_i habsent
      have hpresent := hm.index i u howner
      refine hcontext u ?_ hpresent
      rintro rfl
      exact habsent hpresent
  · intro i u howner
    rw [registry_tearDown, Registry.owner?_unregister] at howner
    obtain ⟨hold, hne⟩ := Option.filter_eq_some_iff.1 howner
    exact hcontext u (by simpa using hne) (hm.registry i u hold)

theorem application (h : Application m m') (hm : m.Attended) : m'.Attended := by
  cases h with
  | log log => exact hm.of_sameOwners (m.sameOwners_log log)
  | register hc hcarried =>
      refine ⟨hm.index, fun i u howner => ?_⟩
      simp only [Registry.owner?_register] at howner
      split at howner
      · cases howner
        exact Option.isSome_iff_exists.2 ⟨_, hc⟩
      · exact hm.registry i u howner
  | unregister ue log =>
      refine ⟨hm.index, fun i u howner => ?_⟩
      simp only [Mme.unregister, Registry.owner?_unregister] at howner
      exact hm.registry i u (Option.filter_eq_some_iff.1 howner).1
  | tearDown ue e => exact (hm.of_sameOwners (m.sameOwners_emit e)).tearDown ue

theorem insertContext (hm : m.Attended) (c : Context) : (m.insertContext c).Attended := by
  have hcontext : ∀ u, (m.context? u).isSome → ((m.insertContext c).context? u).isSome := by
    intro u hu
    rw [context?_insertContext]
    split
    · rfl
    · exact hu
  constructor
  · intro i u howner
    rw [owner?_insertContext] at howner
    split at howner
    · cases howner
      rw [context?_insertContext, if_pos rfl]
      rfl
    · exact hcontext u (hm.index i u howner)
  · intro i u howner
    rw [registry_insertContext] at howner
    exact hcontext u (hm.registry i u howner)

end Attended

theorem sameOwners_of_admits (m : Mme) {action : Bench.Action} (h : m.Admits action)
    (hinsert : ∀ c, action ≠ .insert c) : m.SameOwners (action.run m).1 := by
  refine m.sameOwners_action ?_
  cases action with
  | insert c => exact absurd rfl (hinsert c)
  | remove | removeHeld | setImsi | claim | register | unregister => exact h.elim
  | _ => rfl

end Mme

/-- The UE for which the move stores a context. -/
def Move.stores? : Move → Option UeId
  | .act (.insert c) => some c.ue
  | _ => none

namespace System

variable {s s' : System} {a : Move}

theorem attended_step (hok : s.Wired a) (hstep : s.step? a = some s') (hs : s.mme.Attended) :
    s'.mme.Attended := by
  have hchange := step_change hstep
  generalize s'.mme = m' at hchange
  cases hchange with
  | edits _ h => exact h.induct (fun _ _ hedit hm => hm.edit hedit) hs
  | log log => exact ⟨hs.index, hs.registry⟩
  | apply h => exact hs.application h
  | fire ha hdue => exact ⟨hs.index, hs.registry⟩
  | advance d => exact ⟨hs.index, hs.registry⟩
  | tearDown ue => exact hs.tearDown ue
  | act action =>
      by_cases hinsert : ∃ c, action = .insert c
      · obtain ⟨c, rfl⟩ := hinsert
        exact hs.insertContext c
      · exact hs.of_sameOwners (s.mme.sameOwners_of_admits hok fun c hc => hinsert ⟨c, hc⟩)

theorem absent_step {ue : UeId} (hok : s.Wired a) (hstores : a.stores? ≠ some ue)
    (hstep : s.step? a = some s') (hs : s.mme.context? ue = none) : s'.mme.context? ue = none := by
  have kept : ∀ {m m' : Mme}, m.SameOwners m' → m.context? ue = none → m'.context? ue = none := by
    intro m m' hsame hm
    have hpresent := hsame.isSome_context? ue
    rw [hm] at hpresent
    simpa using hpresent
  have hchange := step_change hstep
  generalize s'.mme = m' at hchange
  cases hchange with
  | log log => exact hs
  | edits _ h =>
      refine h.induct (P := fun m => m.context? ue = none) (fun m m' hedit hm => ?_) hs
      obtain hsame | ⟨u, c, imsi, hc, _, _, rfl⟩ := hedit.sameOwners
      · exact kept hsame hm
      · rw [Mme.context?_claim, Mme.context?_modifyContext, hm, Option.map_none, ite_self]
  | apply h =>
      cases h with
      | log log => exact hs
      | register hc hcarried => exact hs
      | unregister u log => exact hs
      | tearDown u e => rw [Mme.context?_tearDown, Mme.context?_emit, hs, ite_self]
  | fire ha hdue => exact hs
  | advance d => exact hs
  | tearDown u => rw [Mme.context?_tearDown, hs, ite_self]
  | act action =>
      by_cases hinsert : ∃ c, action = .insert c
      · obtain ⟨c, rfl⟩ := hinsert
        change (s.mme.insertContext c).context? ue = none
        rw [Mme.context?_insertContext, if_neg fun hc => hstores (congrArg some hc.symm)]
        exact hs
      · exact kept (s.mme.sameOwners_of_admits hok fun c hc => hinsert ⟨c, hc⟩) hs

theorem attended_of_reachable {config : NasConfig} {inboxCapacity busCapacity : Nat}
    (h : Reachable InService (idle config inboxCapacity busCapacity) s) : s.mme.Attended := by
  obtain ⟨ms, path⟩ := h
  refine path.induct (P := fun s => s.mme.Attended) ?_ fun s s' a hok hstep hs => ?_
  · exact ⟨nofun, nofun⟩
  · exact attended_step hok.1 hstep hs

theorem free_of_absent {config : NasConfig} {inboxCapacity busCapacity : Nat} {ue : UeId}
    {ms : List Moment} (h : Reachable InService (idle config inboxCapacity busCapacity) s)
    (habsent : s.mme.context? ue = none)
    (path : Path (fun s a => s.InService a ∧ a.stores? ≠ some ue) s ms s') :
    s'.mme.FreeOf ue := by
  have hreachable : Reachable InService (idle config inboxCapacity busCapacity) s' := by
    obtain ⟨ms₀, path₀⟩ := h
    exact ⟨_, path₀.append (path.mono fun _ _ hok => hok.1)⟩
  have habsent' : s'.mme.context? ue = none :=
    path.induct (P := fun s => s.mme.context? ue = none) habsent fun _ _ _ hok hstep hs =>
      absent_step hok.1.1 hok.2 hstep hs
  have hsound := sound_of_reachable (fun _ _ hok => hok) hreachable
  exact .of_absent (attended_of_reachable hreachable) hsound habsent'

theorem absent_of_take {ue : UeId} {cause : EmmCause} {rest : List (Envelope Notification)}
    (hnext : s.bus.queue = .message (.teardownSession ue cause) :: rest)
    (htake : s.step? .take = some s') : s'.mme.context? ue = none := by
  obtain ⟨_, _, _, _, ⟨n, rest', hqueue, hmme, _⟩ | ⟨hover, _⟩⟩ :=
    takeNotification?_eq_some htake
  · cases hnext.symm.trans hqueue
    rw [hmme]
    change ((s.mme.emit _).tearDown ue).context? ue = none
    rw [Mme.context?_tearDown, if_pos rfl]
  · exact absurd hnext (hover.queue_ne _ _)

/-- Once the application task has handled the order to tear a UE down, nothing is kept for the UE.
That stays so whatever comes next, of handlers in the middle of a message about the UE, of messages,
expiries and notifications still queued, until a context is stored for the UE again. -/
theorem torn_down_for_good {config : NasConfig} {inboxCapacity busCapacity : Nat}
    {s s₁ s' : System} {ue : UeId} {cause : EmmCause} {rest : List (Envelope Notification)}
    {ms : List Moment} (h : Reachable InService (idle config inboxCapacity busCapacity) s)
    (hnext : s.bus.queue = .message (.teardownSession ue cause) :: rest)
    (path : Path (fun s a => s.InService a ∧ a.stores? ≠ some ue) s (⟨s, .take, s₁⟩ :: ms) s') :
    s'.mme.FreeOf ue := by
  have hsplit : Path _ s ([] ++ ⟨s, .take, s₁⟩ :: ms) s' := path
  obtain ⟨_, hok, htake, path₁⟩ := hsplit.split
  have htaken : Reachable InService (idle config inboxCapacity busCapacity) s₁ := by
    obtain ⟨ms₀, path₀⟩ := h
    exact ⟨_, path₀.snoc hok.1 htake⟩
  exact free_of_absent htaken (absent_of_take hnext htake) path₁

/-- A handler begins to start an identification for a UE that has been torn down. -/
theorem torn_down_for_good_started_again :
    ∃ s : System, s.handled = 3 ∧ s.mme.FreeOf ⟨1⟩ := by
  let before := ((idle { maxRetransmissions := 1 } 4 8).walk? InService
    [.act (.insert { ue := ⟨1⟩, state := .deregistered }), .send (.start ⟨1⟩ .imsi none), .receive,
      .publish, .publish, .advance ⟨6000⟩, .fire ⟨1⟩, .deliver, .receive, .publish, .publish,
      .take, .take, .take]).get (by decide +kernel)
  let torn := (before.step? .take).get (by decide +kernel)
  let after := (torn.walk? (fun s a => s.InService a ∧ a.stores? ≠ some ⟨1⟩)
    [.send (.start ⟨1⟩ .imsi none), .receive]).get (by decide +kernel)
  obtain ⟨ms₀, reached⟩ : ∃ ms, Path InService (idle { maxRetransmissions := 1 } 4 8) ms before :=
    Path.of_walk? (Option.some_get _).symm
  obtain ⟨ms, path⟩ : ∃ ms, Path _ torn ms after := Path.of_walk? (Option.some_get _).symm
  have hnext : before.bus.queue = [.message (.teardownSession ⟨1⟩ .implicitlyDetached)] := by
    decide +kernel
  refine ⟨after, by decide +kernel, ?_⟩
  exact torn_down_for_good ⟨ms₀, reached⟩ hnext
    (path.cons (by decide +kernel) (Option.some_get _).symm)

end System

end Emm
