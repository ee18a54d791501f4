import Emm.Proofs.Retransmission

/-!
What the announcement of a start tells. The EMM task goes on to it once the Identity Request has
been taken, without asking whether the record is still there for which the request was made. Main
statement: `start_announced`, which says when it is; and that the announcement is the last thing to
be heard of the procedure when it is not.
-/

namespace Emm

instance (phase : EmmPhase) (ue : UeId) (n : Notification) (next : Resumption) :
    Decidable (phase = .publishing ue n next) :=
  match phase with
  | .publishing ue' n' next' =>
      decidable_of_iff (ue' = ue ∧ n' = n ∧ next' = next) (EmmPhase.publishing.injEq .. ▸ .rfl)
  | .receiving | .stopped | .crashed _ => .isFalse nofun

namespace Mme

variable {m : Mme} {ue : UeId} {n : Notification} {next : Resumption}

theorem next_of_request {purpose : RequestPurpose}
    (h : (m.request ue purpose).2 = .publish n next) : next = .requested ue purpose := by
  cases hp : m.identification? ue with
  | none =>
      obtain ⟨outcome, hdone, _⟩ := m.request_of_none ue purpose hp
      cases hdone.symm.trans h
  | some p =>
      obtain ⟨n', _, hrequest⟩ := m.request_of_some ue purpose hp
      rw [hrequest] at h
      cases h
      rfl

theorem next_of_complete {identity : MobileIdentity}
    (h : (m.complete ue identity).2 = .publish n next) :
    next.IsLast ∨ ∃ claim holder, next = .displaced claim holder := by
  unfold complete at h
  simp only [identification?_emit] at h
  split at h
  · cases h
  · cases identity with
    | imsi imsi =>
        rename_i p _
        generalize Mme.modifyContext _ ue _ = m₁ at h
        obtain ⟨holder, hprogress, _⟩ | ⟨n', next', hprogress, _, hlast, _⟩ :=
          m₁.settleImsi_cases ⟨ue, imsi, p.parent, p.previousState⟩
        · cases hprogress.symm.trans h
          exact .inr ⟨_, _, rfl⟩
        · cases hprogress.symm.trans h
          exact .inl hlast
    | imei _ | imeisv _ | tmsi _ =>
        cases h
        exact .inl trivial

theorem message_of_starting {config : NasConfig} {msg : Message}
    (h : (m.begin config msg).2 = .publish n (.requested ue .start)) :
    ∃ requested parent, msg = .start ue requested parent := by
  cases msg with
  | start u requested parent =>
      simp only [begin, start] at h
      split at h
      · cases h
      · split at h
        · cases h
        · split at h
          · cases h
          · cases next_of_request h
            exact ⟨requested, parent, rfl⟩
  | complete u identity =>
      obtain hlast | ⟨_, _, hnext⟩ := next_of_complete h
      · exact hlast.elim
      · cases hnext
  | expired e =>
      obtain ⟨timer, u, kind⟩ := e
      cases kind with
      | t3470 =>
          simp only [begin, t3470Expired] at h
          split at h
          · cases h
          · split at h
            · cases h
            · split at h
              · cases next_of_request h
              · cases h
      | specificRetry =>
          simp only [begin, retryExpired] at h
          split at h <;> cases h
  | lowerLayerFailure u =>
      simp only [begin, lowerLayerFailed] at h
      split at h <;> cases h
  | nonDelivery u => cases next_of_request h
  | abort u =>
      simp only [begin, abort] at h
      split at h <;> cases h

theorem recorded_of_requested {config : NasConfig} {msg : Message} {purpose : RequestPurpose}
    (h : (m.begin config msg).2 = .publish n (.requested ue purpose)) :
    ∃ q, (m.begin config msg).1.identification? ue = some q := by
  have hbegun := m.begin_begun config msg
  rw [h] at hbegun
  generalize (m.begin config msg).1.identification? = records at hbegun
  cases hbegun with
  | entered _ _ _ _ hrecords =>
      rw [hrecords, Function.update_self]
      exact ⟨_, rfl⟩
  | renewed _ _ _ hrecords =>
      rw [hrecords, Function.update_self]
      exact ⟨_, rfl⟩
  | ended _ _ hlast _ => exact hlast.elim
  | failing _ _ hfails _ _ => cases hfails

theorem sent_of_announced {config : NasConfig} {d : Delivery}
    (h : (m.resume config n next d).2 = .publish (.procedureStarted ue) .announced) :
    d = .accepted ∧ next = .requested ue .start := by
  have hresumed := m.resume_resumed config n next d
  rw [h] at hresumed
  generalize (m.resume config n next d).1.identification? = records at hresumed
  cases hresumed with
  | @sent u purpose _ hprogress hrecords =>
      cases purpose with
      | start =>
          cases h
          exact ⟨rfl, rfl⟩
      | retransmission | redelivery => cases h
  | ended hending => cases hending

end Mme

/-- Where a handler waits with `n`, it neither announces the end of an identification of the UE nor
has one to announce next. -/
def SilentOn (ue : UeId) (n : Notification) (next : Resumption) : Prop :=
  (∀ state, n.ending? ≠ some (ue, state)) ∧
    ∀ claim holder, next = .displaced claim holder → claim.ue ≠ ue

theorem Begun.silentOn {m : Mme} {records : UeId → Option Identification} {msg : Message}
    {ue : UeId} {n : Notification} {next : Resumption}
    (h : Begun m records msg (.publish n next)) (hnone : m.identification? ue = none) :
    SilentOn ue n next := by
  have others : ∀ {u p}, m.identification? u = some p → u ≠ ue := by
    rintro u p hp rfl
    cases hnone.symm.trans hp
  cases h with
  | notice hending => exact ⟨fun _ h => (by cases hending.symm.trans h), nofun⟩
  | entered hrequest | renewed hrequest =>
      have hending := Notification.ending?_of_requests? hrequest
      exact ⟨fun _ h => (by cases hending.symm.trans h), nofun⟩
  | displacing hp =>
      refine ⟨fun _ h => (by cases (Holder.ending?_teardown _).symm.trans h), ?_⟩
      rintro _ _ ⟨⟩
      exact others hp
  | ended hp hending hlast | failing hp hending hlast =>
      refine ⟨fun state h => others hp ?_, ?_⟩
      · cases hending.symm.trans h
        rfl
      · rintro _ _ rfl
        cases hlast

theorem Resumed.isLast {config : NasConfig} {m : Mme} {records : UeId → Option Identification}
    {n : Notification} {next next' : Resumption} {d : Delivery}
    (h : Resumed config m records next d (.publish n next')) : next'.IsLast := by
  cases h with
  | sent hprogress =>
      obtain hstarted | ⟨_, hdone, _⟩ := hprogress
      · cases hstarted
        trivial
      · cases hdone
  | ended _ hlast => exact hlast
  | exhausted => trivial

theorem Resumed.silentOn {config : NasConfig} {m : Mme} {records : UeId → Option Identification}
    {ue : UeId} {n n' : Notification} {next next' : Resumption} {d : Delivery}
    (h : Resumed config m records next d (.publish n' next')) (hs : SilentOn ue n next) :
    SilentOn ue n' next' := by
  refine ⟨fun state hending => ?_, ?_⟩
  · cases h with
    | sent hprogress =>
        obtain hstarted | ⟨_, hdone, _⟩ := hprogress
        · cases hstarted
          cases hending
        · cases hdone
    | ended hended =>
        cases hended.symm.trans hending
        exact hs.2 _ _ rfl rfl
    | exhausted hnone => cases hnone.symm.trans hending
  · rintro _ _ rfl
    exact h.isLast.elim

namespace System

variable {s₀ s s' : System} {ms pre mid post : List Moment} {x : Moment} {subject ue : UeId}
  {n : Notification} {next : Resumption} {a : Move} {ok : System → Move → Prop}

theorem last_turn (path : Path ok s₀ ms s) (hmoved : s.emm ≠ s₀.emm) :
    ∃ pre w mid, ms = pre ++ w :: mid ∧ (w.move = .receive ∨ w.move = .publish) ∧
      w.before.step? w.move = some w.after ∧ w.after.emm = s.emm ∧
      Path (fun s a => ok s a ∧ s.PastEmm a) w.after mid s := by
  induction path with
  | nil => exact absurd rfl hmoved
  | @snoc ms s s' a path hok hstep ih =>
      by_cases hturn : a = .receive ∨ a = .publish
      · exact ⟨ms, ⟨s, a, s'⟩, [], rfl, hturn, hstep, rfl, .nil⟩
      · rw [not_or] at hturn
        have hpast : s.PastEmm a := by
          cases a with
          | receive => exact hturn.1 rfl
          | publish => exact hturn.2 rfl
          | _ => trivial
        have hsame := (traffic_of_step hturn.1 hturn.2 hstep).1
        rw [hsame] at hmoved ⊢
        obtain ⟨pre, w, mid, rfl, hw, hstepw, hemm, pathMid⟩ := ih hmoved
        exact ⟨pre, w, mid ++ [⟨s, a, s'⟩], by simp, hw, hstepw, hemm,
          pathMid.snoc ⟨hok, hpast⟩ hstep⟩

/-- A handler that waits for the request of a start has accepted that start in its last move, and
entered the record. -/
theorem accepted_start (path : Path ok s₀ ms s) (hs₀ : s₀.emm = .receiving)
    (hemm : s.emm = .publishing subject n (.requested ue .start)) :
    ∃ pre w mid q, ms = pre ++ w :: mid ∧ w.AcceptsStart ue ∧
      w.after.mme.identification? ue = some q ∧
      Path (fun s a => ok s a ∧ s.PastEmm a) w.after mid s := by
  have hmoved : s.emm ≠ s₀.emm := by
    rw [hemm, hs₀]
    exact nofun
  obtain ⟨pre, w, mid, rfl, hturn, hstep, hafter, pathMid⟩ := last_turn path hmoved
  rw [hemm] at hafter
  obtain hreceive | hpublish := hturn
  · rw [hreceive] at hstep
    obtain ⟨_, ⟨msg, rest, hqueue, hbegin⟩ | ⟨_, _, hstopped, _⟩⟩ := receive?_eq_some hstep
    · rw [hbegin, beginMessage_eq, emm_follow] at hafter
      have hprogress := phaseAfter_eq_publishing hafter
      obtain ⟨requested, parent, rfl⟩ := Mme.message_of_starting hprogress
      obtain ⟨q, hq⟩ := Mme.recorded_of_requested hprogress
      refine ⟨pre, w, mid, q, rfl, ⟨hreceive, ⟨requested, parent, rest, hqueue⟩, n, ?_⟩, ?_,
        pathMid⟩
      · rw [hbegin, beginMessage_eq, emm_follow, hprogress]
        rfl
      · rw [hbegin, beginMessage_eq, identification?_follow]
        exact hq
    · cases hstopped.symm.trans hafter
  · rw [hpublish] at hstep
    obtain ⟨_, _, _, _, _, p, _, _, _, hresumed, hphase, _⟩ := turn_of_publish hstep
    rw [hphase] at hafter
    -- No later turn goes on to the request of a start.
    cases phaseAfter_eq_publishing hafter
    exact hresumed.isLast.elim

theorem unrecorded_of_loses (hok : s.SparesRecords a) (hstep : s.step? a = some s')
    (hlost : Moment.LosesContext ⟨s, a, s'⟩ ue) : s'.mme.identification? ue = none := by
  rcases hlost with habsent | ⟨c, hinsert, rfl⟩
  · have hnone : s'.mme.context? ue = none := habsent
    rw [Mme.identification?, hnone, Option.bind_none]
  · have hact : a = .act (.insert c) := hinsert
    subst hact
    cases hstep
    have hfree : c.procedures.identification = none := hok
    simp [Bench.Action.run, Mme.identification?, hfree]

theorem record_lost (path : Path Aside s₀ mid s) (hlost : ∃ x ∈ mid, x.LosesContext ue) :
    s.mme.identification? ue = none := by
  induction path with
  | nil => simp at hlost
  | @snoc mid s s' a _ hok hstep ih =>
      obtain ⟨x, hx, hloses⟩ := hlost
      rcases List.mem_append.1 hx with hbefore | hnow
      · obtain ⟨hspares, hreceive, hpublish⟩ := aside_iff.1 hok
        have hnone := ih ⟨x, hbefore, hloses⟩
        rcases records_step hreceive hpublish hspares hstep ue with hsame | ⟨hgone, _⟩
        · rw [hsame, hnone]
        · exact hgone
      · rw [List.mem_singleton.1 hnow] at hloses
        exact unrecorded_of_loses hok.1 hstep hloses

theorem announced_turn (hstep : s.step? .publish = some s')
    (hannounce : s'.emm = .publishing subject (.procedureStarted ue) .announced) :
    ∃ subject' n e, s.emm = .publishing subject' n (.requested ue .start) ∧
      s'.mme = (s.mme.emit e).armT3470 s.config.t3470Interval ue := by
  obtain ⟨subject', n, next, s₁, d, hemm, hoffer, rfl⟩ := publish?_eq_some hstep
  rw [resume_eq, emm_follow] at hannounce
  obtain ⟨rfl, rfl⟩ := Mme.sent_of_announced (phaseAfter_eq_publishing hannounce)
  obtain ⟨bus, _, rfl, _⟩ | ⟨_, _, hrefused⟩ := offer?_eq_some hoffer
  · exact ⟨subject', n, _, hemm, rfl⟩
  · cases hrefused

/-- The UE has no identification, and the handler at work has no end of one to announce. -/
structure Silent (s : System) (ue : UeId) : Prop where
  unrecorded : s.mme.identification? ue = none
  waiting : ∀ subject n next, s.emm = .publishing subject n next → SilentOn ue n next

theorem silent_receive (hstep : s.step? .receive = some s')
    (hstart : ¬Moment.AcceptsStart ⟨s, .receive, s'⟩ ue) (hs : s.Silent ue) : s'.Silent ue := by
  obtain ⟨_, _, ⟨msg, rest, e, p, hqueue, hbegun, hphase⟩ | ⟨_, hsame, hstopped⟩⟩ :=
    turn_of_receive hstep
  · have hnone : (s.mme.emit e).identification? ue = none := hs.unrecorded
    refine ⟨?_, fun subject n next hemm => ?_⟩
    · rcases hbegun.retained ue with hretained | ⟨requested, parent, _, _, n, rfl, rfl, _⟩
      · exact hretained.eq_none hnone
      · exact absurd ⟨rfl, ⟨requested, parent, rest, hqueue⟩, n, hphase⟩ hstart
    · rw [hphase] at hemm
      cases phaseAfter_eq_publishing hemm
      exact hbegun.silentOn hnone
  · refine ⟨?_, fun subject n next hemm => ?_⟩
    · rw [hsame]
      exact hs.unrecorded
    · cases hstopped.symm.trans hemm

theorem silent_publish (hstep : s.step? .publish = some s') (hs : s.Silent ue) :
    s'.Silent ue := by
  obtain ⟨_, n, next, _, _, _, hemm, hrecords, _, hresumed, hphase, _⟩ := turn_of_publish hstep
  refine ⟨?_, fun subject n' next' hemm' => ?_⟩
  · refine (hresumed.retained ue).eq_none ?_
    rw [hrecords]
    exact hs.unrecorded
  · rw [hphase] at hemm'
    cases phaseAfter_eq_publishing hemm'
    exact hresumed.silentOn (hs.waiting _ n next hemm)

theorem silent_aside (hok : s.Aside a) (hstep : s.step? a = some s') (hs : s.Silent ue) :
    s'.Silent ue := by
  obtain ⟨hspares, hreceive, hpublish⟩ := aside_iff.1 hok
  refine ⟨?_, fun subject n next hemm => ?_⟩
  · rcases records_step hreceive hpublish hspares hstep ue with hsame | ⟨hnone, _⟩
    · rw [hsame]
      exact hs.unrecorded
    · exact hnone
  · rw [(traffic_of_step hreceive hpublish hstep).1] at hemm
    exact hs.waiting subject n next hemm

theorem silent_of_path (path : Path SparesRecords s₀ ms s) (hs₀ : s₀.Silent ue)
    (hstart : ∀ x ∈ ms, ¬x.AcceptsStart ue) : s.Silent ue := by
  induction path with
  | nil => exact hs₀
  | @snoc ms s s' a _ hok hstep ih =>
      have hbefore := ih fun x hx => hstart x (List.mem_append_left _ hx)
      have hnow := hstart ⟨s, a, s'⟩ (List.mem_append_right _ (List.mem_singleton_self _))
      by_cases hreceive : a = .receive
      · subst hreceive
        exact silent_receive hstep hnow hbefore
      by_cases hpublish : a = .publish
      · subst hpublish
        exact silent_publish hstep hbefore
      · exact silent_aside (aside_iff.2 ⟨hok, hreceive, hpublish⟩) hstep hbefore

theorem Silent.not_ends (hs : s.Silent ue) (state : EmmState) :
    ¬Moment.Ends ⟨s, a, s'⟩ ue state := by
  rintro ⟨n, hpublished, hending⟩
  obtain ⟨_, subject, next, hemm⟩ := published?_eq_some hpublished
  exact (hs.waiting subject n next hemm).1 state hending

/-- Nothing is heard of the end of an identification of the UE until an order to start one has been
accepted. -/
def Unheard (ms : List Moment) (ue : UeId) : Prop :=
  ∀ pre x post, ms = pre ++ x :: post → (∀ y ∈ pre, ¬y.AcceptsStart ue) → ∀ state, ¬x.Ends ue state

theorem Silent.unheard (hs : s₀.Silent ue) (path : Path SparesRecords s₀ ms s) :
    Unheard ms ue := by
  rintro pre x post rfl hstart state
  obtain ⟨pathPre, _, _, _⟩ := path.split
  exact (silent_of_path pathPre hs hstart).not_ends state

/-- The start is announced as soon as the request for it has been taken. The handler has accepted
the order to start in its last turn; if the UE has kept its context since, the record is there, and
T3470 has just been armed for it. If the context has gone, as it does when the application layer
takes a teardown from the same channel, the announcement is made all the same: nothing has been
armed, and no end will be announced of what is said to have started. -/
theorem start_announced (path : Path SparesRecords s₀ (pre ++ x :: post) s)
    (hs₀ : s₀.emm = .receiving) (hmove : x.move = .publish)
    (hannounce : x.after.emm = .publishing subject (.procedureStarted ue) .announced) :
    ∃ before w mid q, pre = before ++ w :: mid ∧ w.AcceptsStart ue ∧
      w.after.mme.identification? ue = some q ∧
      (∀ y ∈ mid, y.move ≠ .receive ∧ y.move ≠ .publish) ∧
      ((∀ y ∈ mid, ¬y.LosesContext ue) → ∃ c, x.before.mme.context? ue = some c ∧
        c.procedures.identification = some q ∧
        x.before.mme.Differs ue c
          { c.procedures with
            identification := some { q with t3470 := some x.before.mme.timers.nextId } }
          ((x.before.mme.timers.without q.t3470.toList).start ue .t3470
            x.before.config.t3470Interval)
          x.after.mme) ∧
      ((∃ y ∈ mid, y.LosesContext ue) → x.after.mme.identification? ue = none ∧
        x.before.mme.SameButLog x.after.mme ∧ Unheard post ue) := by
  obtain ⟨pathPre, _, hstep, pathPost⟩ := path.split
  rw [hmove] at hstep
  obtain ⟨subject', n, e, hemm, hafter⟩ := announced_turn hstep hannounce
  obtain ⟨before, w, mid, q, rfl, haccepts, hq, pathMid⟩ := accepted_start pathPre hs₀ hemm
  refine ⟨before, w, mid, q, rfl, haccepts, hq, fun y hy => ?_, fun hkept => ?_, fun hlost => ?_⟩
  · obtain ⟨_, _, rfl⟩ := List.append_of_mem hy
    obtain ⟨_, hok, _, _⟩ := pathMid.split
    exact (aside_iff.1 hok).2
  · have hrecord := (record_kept pathMid hkept).trans hq
    obtain ⟨c, hc, hp⟩ := (Mme.identification?_eq_some_iff _ ue q).1 hrecord
    refine ⟨c, hc, hp, ?_⟩
    rw [hafter]
    exact ((Mme.Differs.refl hc).emit e).arm hp _
  · have hnone := record_lost pathMid hlost
    have hsame : x.before.mme.SameButLog x.after.mme := by
      rw [hafter, Mme.armT3470]
      have hgone : (x.before.mme.emit e).identification? ue = none := hnone
      rw [hgone]
      exact rfl
    have hafterwards : x.after.mme.identification? ue = none := by
      rw [Mme.identification?, hsame.context?]
      exact hnone
    refine ⟨hafterwards, hsame, Silent.unheard ⟨hafterwards, ?_⟩ pathPost⟩
    intro subject n next hemm
    cases hannounce.symm.trans hemm
    refine ⟨fun state h => ?_, fun claim holder h => ?_⟩
    · cases h
    · cases h

/-- UE 1 keeps its context while it is asked for its IMSI, and its T3470 runs once the start is
announced. -/
theorem start_announced_of_kept :
    ∃ pre x q, Path SparesRecords (idle {} 4 8) (pre ++ [x]) x.after ∧
      x.after.emm = .publishing ⟨1⟩ (.procedureStarted ⟨1⟩) .announced ∧
      x.before.mme.identification? ⟨1⟩ = some q ∧
      x.after.mme.identification? ⟨1⟩ = some { q with t3470 := some ⟨1⟩ } ∧
      x.after.mme.timers.isArmed ⟨1⟩ := by
  let before := ((idle {} 4 8).walk? SparesRecords
    [.act (.insert { ue := ⟨1⟩, state := .registered }), .send (.start ⟨1⟩ .imsi none),
      .receive]).get (by decide +kernel)
  let after := (before.step? .publish).get (by decide +kernel)
  obtain ⟨pre, path⟩ : ∃ ms, Path SparesRecords (idle {} 4 8) ms before :=
    Path.of_walk? (Option.some_get _).symm
  let x : Moment := ⟨before, .publish, after⟩
  have pathAfter : Path SparesRecords (idle {} 4 8) (pre ++ [x]) after :=
    path.snoc trivial (Option.some_get _).symm
  have hannounce : x.after.emm = .publishing ⟨1⟩ (.procedureStarted ⟨1⟩) .announced := by
    decide +kernel
  obtain ⟨_, _, mid, q, _, _, _, _, hkept, hlost⟩ :=
    start_announced pathAfter rfl rfl hannounce
  have hstill : ∀ y ∈ mid, ¬y.LosesContext ⟨1⟩ := by
    intro y hy hloses
    have hnone := (hlost ⟨y, hy, hloses⟩).1
    revert hnone
    decide +kernel
  obtain ⟨c, hc, hp, hdiffers⟩ := hkept hstill
  refine ⟨pre, x, q, pathAfter, hannounce, ?_, hdiffers.identification, by decide +kernel⟩
  exact (Mme.identification?_eq_some_iff _ ⟨1⟩ q).2 ⟨c, hc, hp⟩

/-- While the request to UE 1 waits for room, the application task takes the teardown that has been
queued since UE 2 was found to have the IMSI of UE 1. The start is announced for a UE without a
context. -/
theorem announced_without_context :
    ∃ s s₁ s₂, Reachable InService (idle {} 4 2) s ∧
      s.emm = .publishing ⟨1⟩ (.sendIdentityRequest ⟨1⟩ .imsi (SecurityContext.params {}))
        (.requested ⟨1⟩ .start) ∧
      (s.mme.identification? ⟨1⟩).isSome ∧
      s.bus.queue.head? = some (.message (.teardownSession ⟨1⟩ .illegalUe)) ∧
      s.step? .take = some s₁ ∧ s₁.step? .publish = some s₂ ∧
      s₂.emm = .publishing ⟨1⟩ (.procedureStarted ⟨1⟩) .announced ∧
      s₂.mme.context? ⟨1⟩ = none := by
  let x : Imsi := ⟨[0, 0, 1, 0, 1, 0], by decide⟩
  let s := ((idle {} 4 2).walk? InService
    [.act (.insert { ue := ⟨1⟩, state := .registered, imsi := some x }),
      .act (.insert { ue := ⟨2⟩, state := .registered }),
      .send (.start ⟨2⟩ .imsi none), .receive, .publish, .take, .publish, .take,
      .send (.complete ⟨2⟩ (.imsi x)), .receive, .publish, .publish,
      .send (.start ⟨1⟩ .imsi none), .receive]).get (by decide +kernel)
  let s₁ := (s.step? .take).get (by decide +kernel)
  let s₂ := (s₁.step? .publish).get (by decide +kernel)
  exact ⟨s, s₁, s₂, Path.of_walk? (Option.some_get _).symm, by decide +kernel, by decide +kernel,
    by decide +kernel, (Option.some_get _).symm, (Option.some_get _).symm, by decide +kernel,
    by decide +kernel⟩

end System

end Emm
