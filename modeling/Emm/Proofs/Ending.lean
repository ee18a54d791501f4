import Emm.Proofs.Rounds

/-!
How identifications end. What a run has seen of an identification is read off its moments: the one
in which a record is entered, and those in which a terminal notification is published for its UE.
`Followed` ties that history to the records and to the position of a waiting handler.

Main statement: `one_end_per_identification`.
-/

namespace Emm

namespace Moment

def published? (x : Moment) : Option Notification :=
  match x.move, x.before.emm with
  | .publish, .publishing _ n _ =>
      match x.before.bus.send (.message n) with
      | .ok _ => some n
      | .error _ => none
  | _, _ => none

/-- A terminal notification is published for an identification of the UE that began in `state`. -/
def Ends (x : Moment) (ue : UeId) (state : EmmState) : Prop :=
  ∃ n, x.published? = some n ∧ n.ending? = some (ue, state)

/-- The UE has a record after the move that it did not have before. -/
def Creates (x : Moment) (ue : UeId) : Prop :=
  ∃ q, x.after.mme.identification? ue = some q ∧
    (x.before.mme.identification? ue).map (·.id) ≠ some q.id

/-- The UE had the record before the move and does not have it any more. -/
def Releases (x : Moment) (ue : UeId) (p : Identification) : Prop :=
  x.before.mme.identification? ue = some p ∧
    (x.after.mme.identification? ue).map (·.id) ≠ some p.id

/-- The EMM task takes an order to start an identification and goes on to send the request. -/
def AcceptsStart (x : Moment) (ue : UeId) : Prop :=
  x.move = .receive ∧
    (∃ requested parent rest,
      x.before.inbox.queue = .message (.start ue requested parent) :: rest) ∧
    ∃ n, x.after.emm = .publishing ue n (.requested ue .start)

/-- The EMM task takes an order to give the identification up. -/
def TakesAbort (x : Moment) (ue : UeId) : Prop :=
  x.move = .receive ∧ ∃ rest, x.before.inbox.queue = .message (.abort ue) :: rest

end Moment

/-- A record of the UE was entered when the UE was in `state`; since then no other was entered, and
no end was published. -/
def UnderWay (ms : List Moment) (ue : UeId) (state : EmmState) : Prop :=
  ∃ pre x mid, ms = pre ++ x :: mid ∧ x.Creates ue ∧
    (x.before.mme.context? ue).map (·.state) = some state ∧
    ∀ y ∈ mid, ¬y.Creates ue ∧ ∀ state, ¬y.Ends ue state

namespace UnderWay

variable {ms : List Moment} {ue : UeId} {state : EmmState} {x : Moment}

theorem snoc (h : UnderWay ms ue state) (hcreates : ¬x.Creates ue)
    (hends : ∀ state, ¬x.Ends ue state) : UnderWay (ms ++ [x]) ue state := by
  obtain ⟨pre, b, mid, rfl, hb, hstate, hmid⟩ := h
  refine ⟨pre, b, mid ++ [x], by simp, hb, hstate, ?_⟩
  intro y hy
  rcases List.mem_append.1 hy with hy | hy
  · exact hmid y hy
  · rw [List.mem_singleton.1 hy]
    exact ⟨hcreates, hends⟩

theorem entered (ms : List Moment) (hcreates : x.Creates ue)
    (hstate : (x.before.mme.context? ue).map (·.state) = some state) :
    UnderWay (ms ++ [x]) ue state :=
  ⟨ms, x, [], rfl, hcreates, hstate, by simp⟩

theorem before_or_after {pre pre' mid mid' : List Moment} {y : Moment}
    (h : pre ++ x :: mid = pre' ++ y :: mid') : x = y ∨ y ∈ mid ∨ x ∈ mid' := by
  induction pre generalizing pre' with
  | nil =>
      cases pre' with
      | nil => exact .inl (List.cons.inj h).1
      | cons z pre' =>
          right; left
          rw [(List.cons.inj h).2]
          simp
  | cons z pre ih =>
      cases pre' with
      | nil =>
          right; right
          rw [← (List.cons.inj h).2]
          simp
      | cons z' pre' => exact ih (List.cons.inj h).2

theorem unique {state' : EmmState} (h : UnderWay ms ue state) (h' : UnderWay ms ue state') :
    state = state' := by
  obtain ⟨pre, x, mid, heq, hx, hstate, hmid⟩ := h
  obtain ⟨pre', y, mid', heq', hy, hstate', hmid'⟩ := h'
  rcases before_or_after (heq.symm.trans heq') with rfl | hmem | hmem
  · exact Option.some.inj (hstate.symm.trans hstate')
  · exact absurd hy (hmid y hmem).1
  · exact absurd hx (hmid' x hmem).1

theorem creates_of_ends {pre mid : List Moment} {state' : EmmState}
    (h : UnderWay (pre ++ x :: mid) ue state) (hx : x.Ends ue state') (hcreates : ¬x.Creates ue) :
    ∃ y ∈ mid, y.Creates ue := by
  obtain ⟨pre', y, mid', heq, hy, _, hmid⟩ := h
  rcases before_or_after heq with rfl | hmem | hmem
  · exact absurd hy hcreates
  · exact ⟨y, hmem, hy⟩
  · exact absurd hx ((hmid x hmem).2 state')

end UnderWay

/-- A record that is there afterwards was there before. -/
def Retained (r r' : Option Identification) : Prop :=
  ∀ q, r' = some q → ∃ p, r = some p ∧ q.Continues p

namespace Retained

theorem refl (r : Option Identification) : Retained r r :=
  fun q hq => ⟨q, hq, rfl, rfl⟩

theorem of_eq {r r' : Option Identification} (h : r' = r) : Retained r r' := h ▸ refl r

theorem none (r : Option Identification) : Retained r none := nofun

theorem update {records : UeId → Option Identification} {ue : UeId} {r : Option Identification}
    (h : Retained (records ue) r) (u : UeId) :
    Retained (records u) (Function.update records ue r u) := by
  by_cases hu : u = ue
  · subst hu
    rw [Function.update_self]
    exact h
  · rw [Function.update_of_ne hu]
    exact refl _

theorem eq_none {r r' : Option Identification} (h : Retained r r') (hr : r = .none) :
    r' = .none := by
  cases r' with
  | none => rfl
  | some q =>
      obtain ⟨p, hp, _⟩ := h q rfl
      cases hr.symm.trans hp

theorem not_creates {x : Moment} {ue : UeId}
    (h : Retained (x.before.mme.identification? ue) (x.after.mme.identification? ue)) :
    ¬x.Creates ue := by
  rintro ⟨q, hq, hne⟩
  obtain ⟨p, hp, hcontinues⟩ := h q hq
  rw [hp, Option.map_some, hcontinues.1] at hne
  exact hne rfl

end Retained

/-- A record that was there before is there afterwards. -/
def Kept (r r' : Option Identification) : Prop :=
  ∀ p, r = some p → r'.map (·.id) = some p.id

namespace Kept

theorem of_eq {r r' : Option Identification} (h : r' = r) : Kept r r' := by
  rintro p hp
  rw [h, hp, Option.map_some]

theorem of_none {r r' : Option Identification} (h : r = none) : Kept r r' := by
  intro p hp
  cases h.symm.trans hp

theorem of_continues {r : Option Identification} {p q : Identification} (hp : r = some p)
    (hq : q.Continues p) : Kept r (some q) := by
  intro p' hp'
  cases hp.symm.trans hp'
  rw [Option.map_some, hq.1]

variable {records : UeId → Option Identification} {ue : UeId} {r : Option Identification}

theorem update_of_ne {u : UeId} (hu : u ≠ ue) :
    Kept (records u) (Function.update records ue r u) :=
  .of_eq (Function.update_of_ne hu _ _)

theorem update (h : Kept (records ue) r) (u : UeId) :
    Kept (records u) (Function.update records ue r u) := by
  by_cases hu : u = ue
  · subst hu
    rw [Function.update_self]
    exact h
  · exact update_of_ne hu

end Kept

/-- What a handler waits to publish, and what has become of the identification meanwhile. -/
inductive Waiting (ms : List Moment) (records : UeId → Option Identification) :
    Notification → Resumption → Prop
  | request {n : Notification} {ue : UeId} {purpose : RequestPurpose} {state : EmmState}
      (hrequest : n.requests? = some ue) (h : UnderWay ms ue state) :
      Waiting ms records n (.requested ue purpose)
  | displacing {claim : Claim} {holder : Holder}
      (h : UnderWay ms claim.ue claim.previousState) :
      Waiting ms records holder.teardown (.displaced claim holder)
  | ending {n : Notification} {next : Resumption} {ue : UeId} {state : EmmState}
      (hending : n.ending? = some (ue, state)) (h : UnderWay ms ue state)
      (hfree : records ue = none) (hlast : next.IsLast) : Waiting ms records n next
  | failing {n : Notification} {next : Resumption} {ue : UeId} {state : EmmState}
      (hending : n.ending? = some (ue, state)) (h : UnderWay ms ue state)
      (hfails : next.Fails ue) : Waiting ms records n next
  | notice {n : Notification} {next : Resumption} (hending : n.ending? = none)
      (hrequest : n.requests? = none) (hlast : next.IsLast) : Waiting ms records n next

theorem Notification.ending?_of_requests? {n : Notification} {ue : UeId}
    (h : n.requests? = some ue) : n.ending? = none := by
  cases n with
  | sendIdentityRequest => rfl
  | _ => cases h

theorem Holder.ending?_teardown (holder : Holder) : holder.teardown.ending? = none := by
  cases holder <;> rfl

theorem Holder.requests?_teardown (holder : Holder) : holder.teardown.requests? = none := by
  cases holder <;> rfl

theorem Waiting.underWay_of_ending {ms : List Moment} {records : UeId → Option Identification}
    {n : Notification} {next : Resumption} {ue : UeId} {state : EmmState}
    (h : Waiting ms records n next) (hending : n.ending? = some (ue, state)) :
    UnderWay ms ue state := by
  cases h with
  | request hrequest h => cases (Notification.ending?_of_requests? hrequest).symm.trans hending
  | displacing h => cases (Holder.ending?_teardown _).symm.trans hending
  | ending hending' h hfree hlast =>
      cases hending'.symm.trans hending
      exact h
  | failing hending' h hfails =>
      cases hending'.symm.trans hending
      exact h
  | notice hnone hrequest hlast => cases hnone.symm.trans hending

theorem Waiting.underWay_of_request {ms : List Moment} {records : UeId → Option Identification}
    {n : Notification} {next : Resumption} {ue : UeId} (h : Waiting ms records n next)
    (hrequest : n.requests? = some ue) : ∃ state, UnderWay ms ue state := by
  have hnone := Notification.ending?_of_requests? hrequest
  cases h with
  | request hrequest' h =>
      cases hrequest'.symm.trans hrequest
      exact ⟨_, h⟩
  | displacing h => cases (Holder.requests?_teardown _).symm.trans hrequest
  | ending hending h hfree hlast => cases hnone.symm.trans hending
  | failing hending h hfails => cases hnone.symm.trans hending
  | notice hending hnone' hlast => cases hnone'.symm.trans hrequest

/-! ### First turns -/

section Begun

variable {m : Mme} {records : UeId → Option Identification} {msg : Message} {p : Progress}

theorem Begun.retained (h : Begun m records msg p) (ue : UeId) :
    Retained (m.identification? ue) (records ue) ∨
      ∃ requested parent c q n, msg = .start ue requested parent ∧
        p = .publish n (.requested ue .start) ∧ m.context? ue = some c ∧
        m.identification? ue = none ∧ records ue = some q ∧ q.previousState = c.state := by
  have continued : ∀ {u r q}, m.identification? u = some r → q.Continues r →
      Retained (m.identification? u) (some q) := by
    rintro u r q hr hq _ ⟨⟩
    exact ⟨r, hr, hq⟩
  cases h with
  | idle hsound hrecords => exact .inl (.of_eq (congrFun hrecords ue))
  | notice hending hrequest hrecords => exact .inl (.of_eq (congrFun hrecords ue))
  | entered hrequest hc hnone hq hrecords =>
      rename_i u requested parent c q n
      by_cases hu : ue = u
      · subst hu
        refine .inr ⟨requested, parent, c, q, n, rfl, rfl, hc, hnone, ?_, hq⟩
        rw [hrecords, Function.update_self]
      · rw [hrecords, Function.update_of_ne hu]
        exact .inl (.refl _)
  | renewed hrequest hp hq hrecords =>
      rw [hrecords]
      exact .inl ((continued hp hq).update ue)
  | displacing hp hclaim hq hrecords =>
      rw [hrecords]
      exact .inl ((continued hp hq).update ue)
  | ended hp hending hlast hrecords =>
      rw [hrecords]
      exact .inl ((Retained.none _).update ue)
  | failing hp hending hfails hq hrecords =>
      rw [hrecords]
      exact .inl ((continued hp hq).update ue)
  | aborted hsound hrecords =>
      rw [hrecords]
      exact .inl ((Retained.none _).update ue)

theorem Begun.waiting {ms : List Moment} {n : Notification} {next : Resumption}
    (h : Begun m records msg (.publish n next))
    (hrecords : ∀ ue q, records ue = some q → UnderWay ms ue q.previousState)
    (hreleased : ∀ ue p, m.identification? ue = some p → records ue = none →
      UnderWay ms ue p.previousState) : Waiting ms records n next := by
  have entry : ∀ {u q}, records = Function.update m.identification? u (some q) →
      UnderWay ms u q.previousState := by
    intro u q hupdate
    refine hrecords u q ?_
    rw [hupdate, Function.update_self]
  cases h with
  | notice hending hrequest hsame => exact .notice hending hrequest trivial
  | entered hrequest hc hnone hq hupdate => exact .request hrequest (entry hupdate)
  | renewed hrequest hp hq hupdate => exact .request hrequest (entry hupdate)
  | displacing hp hclaim hq hupdate =>
      refine .displacing ?_
      rw [hclaim, ← hq.2]
      exact entry hupdate
  | @ended _ ue _ _ _ hp hending hlast hupdate =>
      have hfree : records ue = none := by rw [hupdate, Function.update_self]
      exact .ending hending (hreleased _ _ hp hfree) hfree hlast
  | failing hp hending hfails hq hupdate =>
      refine .failing hending ?_ hfails
      rw [← hq.2]
      exact entry hupdate

theorem Begun.released (h : Begun m records msg p) (ue : UeId) :
    Kept (m.identification? ue) (records ue) ∨ msg = .abort ue ∨
      ∃ r n next, m.identification? ue = some r ∧ p = .publish n next ∧
        n.ending? = some (ue, r.previousState) := by
  cases h with
  | idle hsound hrecords => exact .inl (.of_eq (congrFun hrecords ue))
  | notice hending hrequest hrecords => exact .inl (.of_eq (congrFun hrecords ue))
  | entered hrequest hc hnone hq hrecords =>
      rw [hrecords]
      exact .inl ((Kept.of_none hnone).update ue)
  | renewed hrequest hp hq hrecords =>
      rw [hrecords]
      exact .inl ((Kept.of_continues hp hq).update ue)
  | displacing hp hclaim hq hrecords =>
      rw [hrecords]
      exact .inl ((Kept.of_continues hp hq).update ue)
  | @ended _ u r n next hp hending hlast hrecords =>
      by_cases hu : ue = u
      · subst hu
        exact .inr (.inr ⟨r, n, next, hp, rfl, hending⟩)
      · rw [hrecords]
        exact .inl (Kept.update_of_ne hu)
  | failing hp hending hfails hq hrecords =>
      rw [hrecords]
      exact .inl ((Kept.of_continues hp hq).update ue)
  | @aborted u _ _ hrecords =>
      by_cases hu : ue = u
      · subst hu
        exact .inr (.inl rfl)
      · rw [hrecords]
        exact .inl (Kept.update_of_ne hu)

end Begun

/-! ### Later turns -/

section Resumed

variable {config : NasConfig} {m : Mme} {records : UeId → Option Identification}
  {next : Resumption} {d : Delivery} {p : Progress}

theorem Resumed.retained (h : Resumed config m records next d p) (ue : UeId) :
    Retained (m.identification? ue) (records ue) := by
  cases h with
  | settled hlast hsound hrecords => exact .of_eq (congrFun hrecords ue)
  | sent hprogress hrecords =>
      rw [hrecords]
      refine Retained.update (fun q hq => ?_) ue
      obtain ⟨r, hr, rfl⟩ := Option.map_eq_some_iff.1 hq
      exact ⟨r, hr, rfl, rfl⟩
  | unsent hsound hrecords => exact .of_eq (congrFun hrecords ue)
  | ended hending hlast hrecords =>
      rw [hrecords]
      exact (Retained.none _).update ue
  | stuck hdeadline hrecords => exact .of_eq (congrFun hrecords ue)
  | exhausted hending hrequest hrecords =>
      rw [hrecords]
      exact (Retained.none _).update ue
  | failed hsound hrecords =>
      rw [hrecords]
      exact (Retained.none _).update ue

theorem Resumed.waiting {ms : List Moment} {n' : Notification} {next' : Resumption}
    (h : Resumed config m records next d (.publish n' next'))
    (hdisplaced : ∀ claim holder, next = .displaced claim holder →
      UnderWay ms claim.ue claim.previousState) : Waiting ms records n' next' := by
  cases h with
  | sent hprogress hrecords =>
      rcases hprogress with heq | ⟨outcome, heq, _⟩
      · cases heq
        exact .notice rfl rfl trivial
      · cases heq
  | ended hending hlast hrecords =>
      refine .ending hending (hdisplaced _ _ rfl) ?_ hlast
      rw [hrecords, Function.update_self]
  | exhausted hending hrequest hrecords => exact .notice hending hrequest trivial

theorem Resumed.free_of_ending {ms : List Moment} {n : Notification} {ue : UeId}
    {state : EmmState} (h : Resumed config m records next .accepted p)
    (hwaiting : Waiting ms m.identification? n next) (hending : n.ending? = some (ue, state)) :
    records ue = none := by
  cases hwaiting with
  | request hrequest hunderway =>
      rw [Notification.ending?_of_requests? hrequest] at hending
      cases hending
  | displacing hunderway =>
      rw [Holder.ending?_teardown] at hending
      cases hending
  | ending hending' hunderway hfree hlast =>
      cases hending'.symm.trans hending
      exact (h.retained ue).eq_none hfree
  | failing hending' hunderway hfails =>
      cases hending'.symm.trans hending
      cases hfails with
      | exhausted =>
          cases h with
          | settled hlast hsound hrecords => exact hlast.elim
          | exhausted hnone hrequest hrecords => rw [hrecords, Function.update_self]
      | failed =>
          cases h with
          | settled hlast hsound hrecords => exact hlast.elim
          | failed hsound hrecords => rw [hrecords, Function.update_self]
  | notice hnone hrequest hlast => cases hnone.symm.trans hending

theorem Waiting.ended {ms : List Moment} {n : Notification} {ue : UeId} (hfails : next.Fails ue)
    (h : Waiting ms records n next) :
    ∃ state, UnderWay ms ue state ∧ n.ending? = some (ue, state) := by
  cases h with
  | failing hending hunderway hfails' =>
      cases hfails <;> cases hfails' <;> exact ⟨_, hunderway, hending⟩
  | ending hending hunderway hfree hlast => cases hfails <;> exact hlast.elim
  | notice hending hrequest hlast => cases hfails <;> exact hlast.elim
  | request hrequest hunderway => cases hfails
  | displacing hunderway => cases hfails

theorem Resumed.released {ms : List Moment} {n : Notification}
    (h : Resumed config m records next d p) (hwaiting : Waiting ms m.identification? n next)
    (ue : UeId) :
    Kept (m.identification? ue) (records ue) ∨
      ∃ state, UnderWay ms ue state ∧ (n.ending? = some (ue, state) ∨
        ∃ n' next', p = .publish n' next' ∧ n'.ending? = some (ue, state)) := by
  cases h with
  | settled hlast hsound hrecords => exact .inl (.of_eq (congrFun hrecords ue))
  | sent hprogress hrecords =>
      rw [hrecords]
      refine .inl (Kept.update (fun r hr => ?_) ue)
      rw [hr]
      rfl
  | unsent hsound hrecords => exact .inl (.of_eq (congrFun hrecords ue))
  | @ended claim _ _ _ _ hending hlast hrecords =>
      by_cases hu : ue = claim.ue
      · subst hu
        right
        cases hwaiting with
        | displacing hunderway => exact ⟨_, hunderway, .inr ⟨_, _, rfl, hending⟩⟩
        | ending _ _ _ hlast => exact hlast.elim
        | failing _ _ hfails => cases hfails
        | notice _ _ hlast => exact hlast.elim
      · rw [hrecords]
        exact .inl (Kept.update_of_ne hu)
  | stuck hdeadline hrecords => exact .inl (.of_eq (congrFun hrecords ue))
  | @exhausted u _ _ _ _ hrecords =>
      by_cases hu : ue = u
      · subst hu
        obtain ⟨state, hunderway, hended⟩ := hwaiting.ended .exhausted
        exact .inr ⟨state, hunderway, .inl hended⟩
      · rw [hrecords]
        exact .inl (Kept.update_of_ne hu)
  | @failed u _ _ _ hrecords =>
      by_cases hu : ue = u
      · subst hu
        obtain ⟨state, hunderway, hended⟩ := hwaiting.ended .failed
        exact .inr ⟨state, hunderway, .inl hended⟩
      · rw [hrecords]
        exact .inl (Kept.update_of_ne hu)

end Resumed

/-! ### Runs -/

namespace System

variable {s s' : System} {a : Move} {ms : List Moment}

/-- Somebody always takes notifications, and past the EMM task identifications come and go with
their contexts only. -/
def OnAir (_ : System) : Move → Prop
  | .closeBus | .askAppToStop => False
  | .act action => action.SparesRecords
  | _ => True

instance (s : System) : (a : Move) → Decidable (s.OnAir a)
  | .closeBus | .askAppToStop => .isFalse id
  | .act action => inferInstanceAs (Decidable action.SparesRecords)
  | .receive | .publish | .take | .discard | .fire _ | .deliver | .advance _ | .send _
  | .askEmmToStop | .tearDown _ => .isTrue trivial

/-- The history of a run, and the state to which it has led. -/
structure Followed (ms : List Moment) (s : System) : Prop where
  bus : s.bus.Live
  records : ∀ ue p, s.mme.identification? ue = some p → UnderWay ms ue p.previousState
  waiting : ∀ subject n next, s.emm = .publishing subject n next →
    Waiting ms s.mme.identification? n next

theorem OnAir.sparesRecords (hok : s.OnAir a) : s.SparesRecords a := by
  cases a with
  | act action => exact hok
  | _ => trivial

theorem phaseAfter_eq_publishing {ue subject : UeId} {p : Progress} {n : Notification}
    {next : Resumption} (h : phaseAfter ue p = .publishing subject n next) :
    p = .publish n next := by
  cases p with
  | publish n' next' =>
      cases h
      rfl
  | done outcome => cases outcome <;> cases h

theorem published?_of_ne (ha : a ≠ .publish) : Moment.published? ⟨s, a, s'⟩ = none := by
  cases a with
  | publish => exact absurd rfl ha
  | _ => rfl

theorem published?_of_sent {subject : UeId} {n : Notification} {next : Resumption}
    {bus : Channel Notification} (hemm : s.emm = .publishing subject n next)
    (hsend : s.bus.send (.message n) = .ok bus) :
    Moment.published? ⟨s, .publish, s'⟩ = some n := by
  simp [Moment.published?, hemm, hsend]

theorem underWay_of_retained (hs : Followed ms s)
    (hretained : ∀ ue, Retained (s.mme.identification? ue) (s'.mme.identification? ue)) {ue : UeId}
    {q : Identification} (hq : s'.mme.identification? ue = some q)
    (hends : ∀ state, ¬Moment.Ends ⟨s, a, s'⟩ ue state) :
    UnderWay (ms ++ [⟨s, a, s'⟩]) ue q.previousState := by
  obtain ⟨p, hp, hcontinues⟩ := hretained ue q hq
  rw [hcontinues.2]
  exact (hs.records ue p hp).snoc (hretained ue).not_creates hends

theorem not_ends (ha : a ≠ .publish) (ue : UeId) (state : EmmState) :
    ¬Moment.Ends ⟨s, a, s'⟩ ue state := by
  rintro ⟨n, hn, _⟩
  rw [published?_of_ne ha] at hn
  cases hn

theorem retained_aside (hok : s.OnAir a) (hreceive : a ≠ .receive) (hpublish : a ≠ .publish)
    (hstep : s.step? a = some s') (ue : UeId) :
    Retained (s.mme.identification? ue) (s'.mme.identification? ue) := by
  rcases records_step hreceive hpublish hok.sparesRecords hstep ue with hsame | ⟨hnone, _⟩
  · exact .of_eq hsame
  · rw [hnone]
    exact .none _

theorem followed_aside (hok : s.OnAir a) (hreceive : a ≠ .receive) (hpublish : a ≠ .publish)
    (hbus : s'.bus.Live) (hstep : s.step? a = some s') (hs : Followed ms s) :
    Followed (ms ++ [⟨s, a, s'⟩]) s' := by
  have hretained := retained_aside hok hreceive hpublish hstep
  have hkept : ∀ ue state, UnderWay ms ue state →
      UnderWay (ms ++ [⟨s, a, s'⟩]) ue state := by
    intro ue state h
    exact h.snoc (hretained ue).not_creates (not_ends hpublish ue)
  refine ⟨hbus, ?_, ?_⟩
  · intro ue q hq
    exact underWay_of_retained hs hretained hq (not_ends hpublish ue)
  · intro subject n next hemm
    rw [(traffic_of_step hreceive hpublish hstep).1] at hemm
    cases hs.waiting subject n next hemm with
    | request hrequest h => exact .request hrequest (hkept _ _ h)
    | displacing h => exact .displacing (hkept _ _ h)
    | ending hending h hfree hlast =>
        exact .ending hending (hkept _ _ h) ((hretained _).eq_none hfree) hlast
    | failing hending h hfails => exact .failing hending (hkept _ _ h) hfails
    | notice hending hrequest hlast => exact .notice hending hrequest hlast

theorem followed_receive (hbus : s'.bus.Live) (hstep : s.step? .receive = some s')
    (hs : Followed ms s) : Followed (ms ++ [⟨s, .receive, s'⟩]) s' := by
  have hends : ∀ ue state, ¬Moment.Ends ⟨s, .receive, s'⟩ ue state := not_ends nofun
  obtain ⟨_, _, ⟨msg, rest, e, p, hqueue, hbegun, hphase⟩ | ⟨_, hsame, hstopped⟩⟩ :=
    turn_of_receive hstep
  · have hrecords : ∀ ue q, s'.mme.identification? ue = some q →
        UnderWay (ms ++ [⟨s, .receive, s'⟩]) ue q.previousState := by
      intro ue q hq
      rcases hbegun.retained ue with hretained | ⟨_, _, c, q', _, _, _, hc, hnone, hq', hstate⟩
      · obtain ⟨r, hr, hcontinues⟩ := hretained q hq
        rw [hcontinues.2]
        exact (hs.records ue r hr).snoc hretained.not_creates (hends ue)
      · cases hq.symm.trans hq'
        rw [hstate]
        have hnone' : s.mme.identification? ue = none := hnone
        have hc' : s.mme.context? ue = some c := hc
        exact .entered ms ⟨q, hq, by simp [hnone']⟩ (by simp [hc'])
    refine ⟨hbus, hrecords, ?_⟩
    intro subject n next hemm
    rw [hphase] at hemm
    cases phaseAfter_eq_publishing hemm
    refine hbegun.waiting hrecords fun ue r hr hgone => ?_
    refine (hs.records ue r hr).snoc ?_ (hends ue)
    rintro ⟨q, hq, _⟩
    cases hgone.symm.trans hq
  · have hretained : ∀ ue, Retained (s.mme.identification? ue) (s'.mme.identification? ue) :=
      fun ue => .of_eq (congrFun hsame ue)
    refine ⟨hbus, ?_, ?_⟩
    · intro ue q hq
      exact underWay_of_retained hs hretained hq (hends ue)
    · intro subject n next hemm
      cases hstopped.symm.trans hemm

theorem followed_publish (hbus : s'.bus.Live) (hstep : s.step? .publish = some s')
    (hs : Followed ms s) : Followed (ms ++ [⟨s, .publish, s'⟩]) s' := by
  obtain ⟨subject, n, next, m, p, hemm, hrecords, _, hresumed, hphase, hsend⟩ :=
    turn_of_accepted hs.bus hstep
  have hwaiting := hs.waiting subject n next hemm
  have hpublished : Moment.published? ⟨s, .publish, s'⟩ = some n :=
    published?_of_sent hemm hsend
  have hretained := hresumed.retained
  rw [hrecords] at hretained
  refine ⟨hbus, ?_, ?_⟩
  · intro ue q hq
    refine underWay_of_retained hs hretained hq ?_
    rintro state ⟨n', hn', hending⟩
    cases hpublished.symm.trans hn'
    -- The move publishes the end of this identification, and the turn after it drops the record.
    rw [← hrecords] at hwaiting
    rw [hresumed.free_of_ending hwaiting hending] at hq
    cases hq
  · intro subject' n' next' hemm'
    rw [hphase] at hemm'
    cases phaseAfter_eq_publishing hemm'
    refine hresumed.waiting fun claim holder hnext => ?_
    subst hnext
    cases hwaiting with
    | displacing h =>
        refine h.snoc (hretained _).not_creates ?_
        rintro state ⟨n', hn', hending⟩
        cases hpublished.symm.trans hn'
        rw [Holder.ending?_teardown] at hending
        cases hending
    | ending _ _ _ hlast => exact hlast.elim
    | failing _ _ hfails => cases hfails
    | notice _ _ hlast => exact hlast.elim

theorem OnAir.keepsBus (hok : s.OnAir a) : a ≠ .closeBus ∧ a ≠ .askAppToStop := by
  constructor
  · rintro rfl
    exact hok
  · rintro rfl
    exact hok

theorem bus_live_of_onAir (hok : s.OnAir a) (hstep : s.step? a = some s') (hs : s.bus.Live) :
    s'.bus.Live :=
  bus_live_step hok.keepsBus.1 hok.keepsBus.2 hstep hs

/-- Every move goes on with the history as its records and the waiting handler show it. -/
theorem followed_step (hok : s.OnAir a) (hstep : s.step? a = some s') (hs : Followed ms s) :
    Followed (ms ++ [⟨s, a, s'⟩]) s' := by
  have hbus := bus_live_of_onAir hok hstep hs.bus
  by_cases hreceive : a = .receive
  · subst hreceive
    exact followed_receive hbus hstep hs
  by_cases hpublish : a = .publish
  · subst hpublish
    exact followed_publish hbus hstep hs
  exact followed_aside hok hreceive hpublish hbus hstep hs

theorem followed_of_path {config : NasConfig} {inboxCapacity busCapacity : Nat}
    (path : Path OnAir (idle config inboxCapacity busCapacity) ms s) : Followed ms s := by
  induction path with
  | nil =>
      refine ⟨⟨rfl, rfl, nofun⟩, ?_, ?_⟩
      · intro ue p hp
        cases hp
      · intro subject n next hemm
        cases hemm
  | snoc _ hok hstep ih => exact followed_step hok hstep ih

theorem published?_eq_some {n : Notification}
    (h : Moment.published? ⟨s, a, s'⟩ = some n) :
    a = .publish ∧ ∃ subject next, s.emm = .publishing subject n next := by
  simp only [Moment.published?] at h
  split at h
  · rename_i subject n' next hemm
    split at h
    · cases h
      exact ⟨rfl, subject, next, hemm⟩
    · cases h
  · cases h

theorem accepted_of_creates (hok : s.OnAir a) (hstep : s.step? a = some s') {ue : UeId}
    (h : Moment.Creates ⟨s, a, s'⟩ ue) :
    Moment.AcceptsStart ⟨s, a, s'⟩ ue ∧ ∃ q c, s'.mme.identification? ue = some q ∧
      s.mme.context? ue = some c ∧ q.previousState = c.state := by
  by_cases hreceive : a = .receive
  · subst hreceive
    obtain ⟨_, _, ⟨msg, rest, e, p, hqueue, hbegun, hphase⟩ | ⟨_, hsame, _⟩⟩ :=
      turn_of_receive hstep
    · rcases hbegun.retained ue with hretained |
        ⟨requested, parent, c, q, n, rfl, rfl, hc, _, hq, hstate⟩
      · exact absurd h hretained.not_creates
      · exact ⟨⟨rfl, ⟨requested, parent, rest, hqueue⟩, n, hphase⟩, q, c, hq, hc, hstate⟩
    · exact absurd h (Retained.of_eq (congrFun hsame ue)).not_creates
  by_cases hpublish : a = .publish
  · subst hpublish
    obtain ⟨_, _, _, _, m, _, _, hrecords, _, hresumed, _, _⟩ := turn_of_publish hstep
    have hretained := hresumed.retained ue
    rw [hrecords] at hretained
    exact absurd h hretained.not_creates
  · exact absurd h (retained_aside hok hreceive hpublish hstep ue).not_creates

theorem released_step (hok : s.OnAir a) (hstep : s.step? a = some s') (hs : Followed ms s)
    {ue : UeId} {r : Identification} (h : Moment.Releases ⟨s, a, s'⟩ ue r) :
    Moment.TakesAbort ⟨s, a, s'⟩ ue ∨ s'.mme.context? ue = none ∨
      (∃ c, a = .act (.insert c) ∧ c.ue = ue) ∨
      Moment.Ends ⟨s, a, s'⟩ ue r.previousState ∨
      ∃ subject n next, s'.emm = .publishing subject n next ∧
        n.ending? = some (ue, r.previousState) := by
  obtain ⟨hr, hgone⟩ := h
  by_cases hreceive : a = .receive
  · subst hreceive
    obtain ⟨_, _, ⟨msg, rest, e, p, hqueue, hbegun, hphase⟩ | ⟨_, hsame, _⟩⟩ :=
      turn_of_receive hstep
    · have hreleased := hbegun.released ue
      obtain hkept | rfl | ⟨r', n, next, hr', rfl, hending⟩ := hreleased
      · exact absurd (hkept r hr) hgone
      · exact .inl ⟨rfl, rest, hqueue⟩
      · cases hr'.symm.trans hr
        exact .inr (.inr (.inr (.inr ⟨_, n, next, hphase, hending⟩)))
    · rw [hsame, hr] at hgone
      exact absurd rfl hgone
  by_cases hpublish : a = .publish
  · subst hpublish
    obtain ⟨subject, n, next, m, p, hemm, hrecords, _, hresumed, hphase, hsend⟩ :=
      turn_of_accepted hs.bus hstep
    have hwaiting := hs.waiting subject n next hemm
    rw [← hrecords] at hwaiting
    have hreleased := hresumed.released hwaiting ue
    rw [hrecords] at hreleased
    obtain hkept | ⟨state, hunderway, hended⟩ := hreleased
    · exact absurd (hkept r hr) hgone
    rw [hunderway.unique (hs.records ue r hr)] at hended
    rcases hended with hending | ⟨n', next', rfl, hending⟩
    · exact .inr (.inr (.inr (.inl ⟨n, published?_of_sent hemm hsend, hending⟩)))
    · exact .inr (.inr (.inr (.inr ⟨_, n', next', hphase, hending⟩)))
  · rcases records_step hreceive hpublish hok.sparesRecords hstep ue with
      hsame | ⟨_, habsent | hinsert⟩
    · rw [hsame, hr] at hgone
      exact absurd rfl hgone
    · exact .inr (.inl habsent)
    · exact .inr (.inr (.inl hinsert))

theorem published_next {ok : System → Move → Prop}
    (hkeeps : ∀ s a, ok s a → a ≠ .closeBus ∧ a ≠ .askAppToStop)
    {subject : UeId} {n : Notification} {next : Resumption} (path : Path ok s ms s')
    (hbus : s.bus.Live) (hemm : s.emm = .publishing subject n next) :
    s'.bus.Live ∧
      (s'.emm = .publishing subject n next ∧
          (∀ z ∈ ms, z.move ≠ .receive ∧ z.move ≠ .publish) ∨
        ∃ mid y post, ms = mid ++ y :: post ∧ y.published? = some n ∧
          ∀ z ∈ mid, z.move ≠ .receive ∧ z.move ≠ .publish) := by
  induction path with
  | nil => exact ⟨hbus, .inl ⟨hemm, by simp⟩⟩
  | @snoc ms s₁ s₂ a path hok hstep ih =>
      obtain ⟨hclose, hask⟩ := hkeeps _ _ hok
      obtain ⟨hlive, hwaits | ⟨mid, y, post, rfl, hy, hmid⟩⟩ := ih
      · refine ⟨bus_live_step hclose hask hstep hlive, ?_⟩
        obtain ⟨hemm₁, hquiet⟩ := hwaits
        by_cases hpublish : a = .publish
        · subst hpublish
          refine .inr ⟨ms, ⟨s₁, .publish, s₂⟩, [], rfl, ?_, hquiet⟩
          obtain ⟨_, _, _, _, _, hemm', _, _, _, _, hsend⟩ := turn_of_accepted hlive hstep
          cases hemm₁.symm.trans hemm'
          exact published?_of_sent hemm₁ hsend
        · have hreceive : a ≠ .receive := by
            rintro rfl
            cases hemm₁.symm.trans (turn_of_receive hstep).1
          refine .inl ⟨(traffic_of_step hreceive hpublish hstep).1.trans hemm₁, ?_⟩
          intro z hz
          rcases List.mem_append.1 hz with hz | hz
          · exact hquiet z hz
          · rw [List.mem_singleton.1 hz]
            exact ⟨hreceive, hpublish⟩
      · refine ⟨bus_live_step hclose hask hstep hlive, .inr ⟨mid, y, post ++ [⟨s₁, a, s₂⟩], ?_⟩⟩
        refine ⟨?_, hy, hmid⟩
        rw [List.append_assoc, List.cons_append]

section Over

variable {config : NasConfig} {inboxCapacity busCapacity : Nat} {pre mid post : List Moment}
  {x y : Moment} {ue : UeId} {state : EmmState}

theorem accepted_of_mem (path : Path OnAir (idle config inboxCapacity busCapacity) ms s)
    (hx : x ∈ ms) (h : x.Creates ue) : x.AcceptsStart ue ∧
      ∃ q c, x.after.mme.identification? ue = some q ∧ x.before.mme.context? ue = some c ∧
        q.previousState = c.state := by
  obtain ⟨pre, post, rfl⟩ := List.append_of_mem hx
  obtain ⟨_, hok, hstep, _⟩ := path.split
  exact accepted_of_creates hok hstep h

theorem underWay_of_ends
    (path : Path OnAir (idle config inboxCapacity busCapacity) (pre ++ x :: post) s)
    (h : x.Ends ue state) : UnderWay pre ue state := by
  obtain ⟨n, hn, hending⟩ := h
  have hs := followed_of_path path.split.1
  obtain ⟨_, subject, next, hemm⟩ := published?_eq_some hn
  exact (hs.waiting subject n next hemm).underWay_of_ending hending

theorem not_creates_of_ends
    (path : Path OnAir (idle config inboxCapacity busCapacity) ms s) (hx : x ∈ ms)
    (h : x.Ends ue state) : ¬x.Creates ue := by
  intro hcreates
  obtain ⟨n, hn, _⟩ := h
  have hreceive := (accepted_of_mem path hx hcreates).1.1
  rw [(published?_eq_some hn).1] at hreceive
  cases hreceive

theorem accepted_between
    (path : Path OnAir (idle config inboxCapacity busCapacity) (pre ++ x :: (mid ++ y :: post)) s)
    (hx : x.Ends ue state) {n : Notification} (hn : y.published? = some n)
    (hrequest : n.requests? = some ue) : ∃ z ∈ mid, z.AcceptsStart ue := by
  have hsplit : Path OnAir (idle config inboxCapacity busCapacity)
      ((pre ++ x :: mid) ++ y :: post) s := by
    rwa [List.append_assoc, List.cons_append]
  have hs := followed_of_path hsplit.split.1
  obtain ⟨_, subject, next, hemm⟩ := published?_eq_some hn
  obtain ⟨state', hunderway⟩ := (hs.waiting subject n next hemm).underWay_of_request hrequest
  have hquiet := not_creates_of_ends path (by simp) hx
  obtain ⟨z, hz, hentered⟩ := hunderway.creates_of_ends hx hquiet
  exact ⟨z, hz, (accepted_of_mem path (by simp [hz]) hentered).1⟩

/-- A record is released for a reason, or with the end of its identification, published in that
move or next of all. -/
theorem cause_of_release
    (path : Path OnAir (idle config inboxCapacity busCapacity) (pre ++ x :: post) s)
    {r : Identification} (h : x.Releases ue r) :
    x.TakesAbort ue ∨ x.after.mme.context? ue = none ∨
      (∃ c, x.move = .act (.insert c) ∧ c.ue = ue) ∨ x.Ends ue r.previousState ∨
      (∃ mid y post', post = mid ++ y :: post' ∧ y.Ends ue r.previousState ∧
        ∀ z ∈ mid, ¬z.Creates ue ∧ z.published? = none) ∨
      ∃ subject n next, s.emm = .publishing subject n next ∧
        n.ending? = some (ue, r.previousState) := by
  obtain ⟨path₀, hok, hstep, path₁⟩ := path.split
  have hs := followed_of_path path₀
  obtain habort | habsent | hinsert | hends | ⟨subject, n, next, hemm, hending⟩ :=
    released_step hok hstep hs h
  · exact .inl habort
  · exact .inr (.inl habsent)
  · exact .inr (.inr (.inl hinsert))
  · exact .inr (.inr (.inr (.inl hends)))
  · obtain ⟨_, ⟨hwaits, _⟩ | ⟨mid, y, post', rfl, hy, hmid⟩⟩ :=
      published_next (fun _ _ h => h.keepsBus) path₁ (bus_live_of_onAir hok hstep hs.bus) hemm
    · exact .inr (.inr (.inr (.inr (.inr ⟨subject, n, next, hwaits, hending⟩))))
    · refine .inr (.inr (.inr (.inr (.inl ⟨mid, y, post', rfl, ⟨n, hy, hending⟩, ?_⟩))))
      intro z hz
      refine ⟨fun hcreates => ?_, published?_of_ne (hmid z hz).2⟩
      exact (hmid z hz).1 (accepted_of_mem path (by simp [hz]) hcreates).1.1

end Over

/-- However messages, publications, expiries and removals take turns, an identification ends once:

* a terminal notification gives back the state in which the UE was when the record was entered, and
  no other was published since;
* after it no Identity Request is published for the UE until an order to start is accepted;
* records are entered on such orders only;
* a record is released by an order to abort, with its context, for a new context, or with the one
  terminal notification of its identification, published in that move or next of all. -/
theorem one_end_per_identification {config : NasConfig} {inboxCapacity busCapacity : Nat}
    (path : Path OnAir (idle config inboxCapacity busCapacity) ms s) :
    (∀ pre x post ue state, ms = pre ++ x :: post → x.Ends ue state → UnderWay pre ue state) ∧
      (∀ pre x mid y post ue state n, ms = pre ++ x :: (mid ++ y :: post) → x.Ends ue state →
        y.published? = some n → n.requests? = some ue → ∃ z ∈ mid, z.AcceptsStart ue) ∧
      (∀ x ∈ ms, ∀ ue, x.Creates ue → x.AcceptsStart ue ∧
        ∃ q c, x.after.mme.identification? ue = some q ∧ x.before.mme.context? ue = some c ∧
          q.previousState = c.state) ∧
      ∀ pre x post ue r, ms = pre ++ x :: post → x.Releases ue r →
        x.TakesAbort ue ∨ x.after.mme.context? ue = none ∨
          (∃ c, x.move = .act (.insert c) ∧ c.ue = ue) ∨ x.Ends ue r.previousState ∨
          (∃ mid y post', post = mid ++ y :: post' ∧ y.Ends ue r.previousState ∧
            ∀ z ∈ mid, ¬z.Creates ue ∧ z.published? = none) ∨
          ∃ subject n next, s.emm = .publishing subject n next ∧
            n.ending? = some (ue, r.previousState) := by
  refine ⟨?_, ?_, ?_, ?_⟩
  · rintro pre x post ue state rfl hx
    exact underWay_of_ends path hx
  · rintro pre x mid y post ue state n rfl hx hn hrequest
    exact accepted_between path hx hn hrequest
  · intro x hx ue h
    exact accepted_of_mem path hx h
  · rintro pre x post ue r rfl h
    exact cause_of_release path h

/-- An identification is restarted after the UE has registered, and answered with an IMEI: its end
gives back the state in which the UE was at first. -/
theorem one_end_per_identification_restarted :
    ∃ ms x, Moment.Ends x ⟨1⟩ .deregistered ∧ UnderWay ms ⟨1⟩ .deregistered ∧
      (x.before.mme.context? ⟨1⟩).map (·.state) = some .registered := by
  let before := ((idle {} 4 8).walk? OnAir
    [.act (.insert { ue := ⟨1⟩, state := .deregistered }), .send (.start ⟨1⟩ .imsi none), .receive,
      .publish, .publish, .act (.setState ⟨1⟩ .registered), .send (.start ⟨1⟩ .imei none), .receive,
      .publish, .publish,
      .send (.complete ⟨1⟩ (.imei ⟨[0, 0, 1, 0, 1, 0, 0, 0, 0, 0, 0, 0, 0, 0, 0], by decide⟩)),
      .receive]).get (by decide +kernel)
  let after := (before.step? .publish).get (by decide +kernel)
  obtain ⟨ms, path⟩ : ∃ ms, Path OnAir (idle {} 4 8) ms before :=
    Path.of_walk? (Option.some_get _).symm
  have hended : Moment.Ends ⟨before, .publish, after⟩ ⟨1⟩ .deregistered := by
    refine ⟨.procedureConfirmed ⟨1⟩ ⟨true, true, .deregistered⟩, ?_, rfl⟩
    decide +kernel
  refine ⟨ms, ⟨before, .publish, after⟩, hended, ?_, by decide +kernel⟩
  have hstep : before.step? .publish = some after := (Option.some_get _).symm
  have h := one_end_per_identification (path.snoc (a := .publish) trivial hstep)
  exact h.1 ms _ [] ⟨1⟩ .deregistered rfl hended

end System

end Emm
