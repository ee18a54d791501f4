import Emm.Proofs.Tally

/-!
How an Identity Request is repeated. Each expiry of T3470 below the bound, each handover
non-delivery and each order to start anew has exactly one request sent, in which the record says
what is asked for and the context how it is protected, and T3470 starts afresh. The expiry that
reaches the bound ends the identification and the UE's other procedures with it.

Main statement: `retransmissions_bounded`.
-/

namespace Emm

/-- The UE loses its context in the move, or is given a new one. -/
def Moment.LosesContext (x : Moment) (ue : UeId) : Prop :=
  x.after.mme.context? ue = none ∨ ∃ c, x.move = .act (.insert c) ∧ c.ue = ue

namespace System

variable {s s' s₁ s₂ s₃ : System} {ms mid : List Moment} {subject ue : UeId} {c : Context}
  {p q : Identification} {n : Notification} {next : Resumption}

/-- A move of others while the EMM task waits. -/
def Meanwhile (s : System) (a : Move) : Prop := s.OnAir a ∧ s.PastEmm a

/-- A move of others while the EMM task waits. They may close the channel on it. -/
def Aside (s : System) (a : Move) : Prop := s.SparesRecords a ∧ s.PastEmm a

/-- The handler at work publishes `n` next, as soon as the channel has room and whatever others do
in the meantime; `after` is true of what they do and of the states before and after. -/
def Publishes (s₁ : System) (n : Notification) (after : List Moment → System → System → Prop) :
    Prop :=
  ∀ mid s₂, Path Meanwhile s₁ mid s₂ →
    (s₂.bus.queue.length < s₂.bus.capacity → ∃ s₃, s₂.step? .publish = some s₃) ∧
      ∀ s₃, s₂.step? .publish = some s₃ →
        Moment.published? ⟨s₂, .publish, s₃⟩ = some n ∧ after mid s₂ s₃

/-- The handler at work sends the UE the request that stands on the record `q`, and T3470 starts
afresh. Thereupon the EMM task is in `phase`. -/
def Sends (s₁ : System) (ue : UeId) (q : Identification) (security : SecurityParams)
    (phase : EmmPhase) : Prop :=
  s₁.Publishes (.sendIdentityRequest ue q.requested security) fun mid s₂ s₃ =>
    s₃.emm = phase ∧
      ((∀ x ∈ mid, ¬x.LosesContext ue) → ∃ c, s₂.mme.context? ue = some c ∧
        c.procedures.identification = some q ∧
        s₂.mme.Differs ue c
          { c.procedures with
            identification := some { q with t3470 := some s₂.mme.timers.nextId } }
          ((s₂.mme.timers.without q.t3470.toList).start ue .t3470 s₂.config.t3470Interval)
          s₃.mme)

/-- The handler at work announces the end of the identification `q`, removes the procedures of the
UE with the timers on them, and has the UE torn down. -/
def GivesUp (s₁ : System) (ue : UeId) (q : Identification) : Prop :=
  s₁.Publishes (.procedureAborted ue
      { notify := false, free := true, previousState := q.previousState } .retransmissionExceeded)
    fun mid s₂ s₃ => (∀ x ∈ mid, ¬x.LosesContext ue) → ∃ c, s₂.mme.context? ue = some c ∧
      c.procedures.identification = some q ∧
      s₂.mme.Differs ue c {} (s₂.mme.timers.without c.procedures.recordedTimers) s₃.mme ∧
      s₃.Publishes (.teardownSession ue .implicitlyDetached) fun _ s₄ s₅ =>
        s₅.emm = .receiving ∧ s₄.mme.SameButLog s₅.mme

theorem live_meanwhile (path : Path Meanwhile s₁ mid s₂) (hbus : s₁.bus.Live) : s₂.bus.Live :=
  path.induct hbus fun _ _ _ hok hstep h => bus_live_of_onAir hok.1 hstep h

theorem aside_iff : s.Aside a ↔ s.SparesRecords a ∧ a ≠ .receive ∧ a ≠ .publish := by
  cases a <;> simp [Aside, PastEmm]

theorem record_kept (path : Path Aside s₁ mid s₂) (hkept : ∀ x ∈ mid, ¬x.LosesContext ue) :
    s₂.mme.identification? ue = s₁.mme.identification? ue := by
  induction path with
  | nil => rfl
  | @snoc mid s s' a _ hok hstep ih =>
      obtain ⟨hspares, hreceive, hpublish⟩ := aside_iff.1 hok
      have hnow := hkept ⟨s, a, s'⟩ (List.mem_append_right _ (List.mem_singleton_self _))
      rcases records_step hreceive hpublish hspares hstep ue with hsame | ⟨_, hlost⟩
      · rw [hsame, ih fun x hx => hkept x (List.mem_append_left _ hx)]
      · exact absurd hlost hnow

theorem Meanwhile.aside {a : Move} (h : s.Meanwhile a) : s.Aside a :=
  ⟨h.1.sparesRecords, h.2⟩

theorem still_on_record (path : Path Meanwhile s₁ mid s₂) (hq : s₁.mme.identification? ue = some q)
    (hkept : ∀ x ∈ mid, ¬x.LosesContext ue) : s₂.mme.identification? ue = some q :=
  (record_kept (path.mono fun _ _ h => h.aside) hkept).trans hq

/-- The handler has gone on after the channel has taken the notification for which it had waited. -/
structure GoesOn (s : System) (subject : UeId) (n : Notification) (next : Resumption)
    (m : Mme) (s' : System) : Prop where
  before : s.mme.SameButLog m
  bus : s'.bus.Live
  phase : s'.emm = phaseAfter subject (m.resume s.config n next .accepted).2
  after : (m.resume s.config n next .accepted).1.SameButLog s'.mme

theorem goesOn_of_publish (hbus : s.bus.Live) (hemm : s.emm = .publishing subject n next)
    (hstep : s.step? .publish = some s') :
    Moment.published? ⟨s, .publish, s'⟩ = some n ∧ ∃ m, GoesOn s subject n next m s' := by
  have hlive := bus_live_step (a := .publish) (fun h => nomatch h) (fun h => nomatch h) hstep hbus
  obtain ⟨subject', n', next', s₁, d, hemm', hoffer, rfl⟩ := publish?_eq_some hstep
  cases hemm.symm.trans hemm'
  obtain ⟨bus, hsend, rfl, rfl⟩ | ⟨hclosed, _⟩ := offer?_eq_some hoffer
  · refine ⟨published?_of_sent hemm hsend, s.mme.emit (.exchanged .sent n.primitive n.ue),
      s.mme.sameButLog_emit _, hlive, emm_follow _ _ _, sameButLog_follow _ _ _⟩
  · exact absurd hclosed hbus.send_ne_closed

theorem publish_of_room (hbus : s.bus.Live) (hemm : s.emm = .publishing subject n next)
    (hroom : s.bus.queue.length < s.bus.capacity) : ∃ s', s.step? .publish = some s' := by
  simp [step?, publish?, hemm, offer?, hbus.send_eq_ok hroom]

theorem publishes_of_waiting {after : List Moment → System → System → Prop} (hbus : s₁.bus.Live)
    (hemm : s₁.emm = .publishing subject n next)
    (hafter : ∀ mid s₂ s₃ m, Path Meanwhile s₁ mid s₂ → GoesOn s₂ subject n next m s₃ →
      after mid s₂ s₃) : s₁.Publishes n after := by
  intro mid s₂ path
  have hbus₂ := live_meanwhile path hbus
  have hemm₂ := (still_publishing (path.mono fun _ _ h => h.2)).trans hemm
  refine ⟨publish_of_room hbus₂ hemm₂, fun s₃ hstep => ?_⟩
  obtain ⟨hpublished, m, hgoesOn⟩ := goesOn_of_publish hbus₂ hemm₂ hstep
  exact ⟨hpublished, hafter mid s₂ s₃ m path hgoesOn⟩

theorem context_meanwhile (path : Path Meanwhile s₁ mid s₂)
    (hq : s₁.mme.identification? ue = some q) (hkept : ∀ x ∈ mid, ¬x.LosesContext ue) :
    ∃ c, s₂.mme.context? ue = some c ∧ c.procedures.identification = some q :=
  (Mme.identification?_eq_some_iff _ ue q).1 (still_on_record path hq hkept)

theorem sends_of_waiting {purpose : RequestPurpose} {security : SecurityParams} {phase : EmmPhase}
    (hbus : s₁.bus.Live) (hq : s₁.mme.identification? ue = some q)
    (hemm : s₁.emm = .publishing ue (.sendIdentityRequest ue q.requested security)
      (.requested ue purpose))
    (hphase : ∀ m : Mme, phaseAfter ue (m.requestSucceeded ue purpose).2 = phase) :
    s₁.Sends ue q security phase := by
  refine publishes_of_waiting hbus hemm fun mid s₂ s₃ m path hgoesOn => ⟨?_, fun hkept => ?_⟩
  · rw [hgoesOn.phase]
    exact hphase _
  · obtain ⟨c, hc, hrecord⟩ := context_meanwhile path hq hkept
    refine ⟨c, hc, hrecord, ?_⟩
    have harmed := ((Mme.Differs.refl hc).log hgoesOn.before).arm hrecord s₂.config.t3470Interval
    have hafter := hgoesOn.after
    refine (harmed.log ?_).log hafter
    cases purpose with
    | start | retransmission => exact .refl _
    | redelivery => exact Mme.sameButLog_emit _ _

theorem givesUp_of_waiting (hbus : s₁.bus.Live) (hq : s₁.mme.identification? ue = some q)
    (hemm : s₁.emm = .publishing ue (.procedureAborted ue
      { notify := false, free := true, previousState := q.previousState } .retransmissionExceeded)
      (.exhausted ue)) : s₁.GivesUp ue q := by
  refine publishes_of_waiting hbus hemm fun mid s₂ s₃ m path hgoesOn hkept => ?_
  obtain ⟨c, hc, hrecord⟩ := context_meanwhile path hq hkept
  have hdeleted := ((Mme.Differs.refl hc).log hgoesOn.before).deleteAll
  have hpresent : (m.deleteProcedures ue).store.contains ue = true := by
    rw [Mme.contains_eq_isSome, hdeleted.context]
    rfl
  have hphase := hgoesOn.phase
  have hafter := hgoesOn.after
  simp only [Mme.resume, Mme.noteRefusal, Mme.followExhaustion, hpresent] at hphase hafter
  refine ⟨c, hc, hrecord, (hdeleted.emit _).log hafter, ?_⟩
  refine publishes_of_waiting hgoesOn.bus hphase fun _ s₄ s₅ m' _ hlast => ⟨hlast.phase, ?_⟩
  exact hlast.before.trans hlast.after

/-- What the EMM task makes of `msg` where `p` is the identification of the UE, whose context is
`c`. -/
structure Treats (s : System) (ue : UeId) (c : Context) (p : Identification) (msg : Message)
    (s₁ : System) : Prop where
  stale : ∀ timer, msg = .expired ⟨timer, ue, .t3470⟩ → p.t3470 ≠ some timer →
    s₁.emm = .receiving ∧ s.mme.SameButLog s₁.mme
  repeated : ∀ timer, msg = .expired ⟨timer, ue, .t3470⟩ → p.t3470 = some timer →
    p.expiries.toNat + 1 < s.config.bound →
      s.mme.Differs ue c { c.procedures with identification := some p.counted } s.mme.timers
          s₁.mme ∧
        s₁.Sends ue p.counted c.security.params .receiving
  exhausted : ∀ timer, msg = .expired ⟨timer, ue, .t3470⟩ → p.t3470 = some timer →
    p.expiries.toNat + 1 = s.config.bound →
      s.mme.Differs ue c { c.procedures with identification := some p.counted } s.mme.timers
          s₁.mme ∧
        s₁.GivesUp ue p.counted
  resent : msg = .nonDelivery ue →
    s.mme.SameButLog s₁.mme ∧ s₁.Sends ue p c.security.params .receiving
  restarted : ∀ requested parent, msg = .start ue requested parent →
    requested.isRequestable = true → c.state.admitsIdentification = true →
      s.mme.Differs ue c
          { c.procedures with identification := some (p.restarted requested parent) } s.mme.timers
          s₁.mme ∧
        s₁.Sends ue (p.restarted requested parent) c.security.params
          (.publishing ue (.procedureStarted ue) .announced)

section Treats

variable {inbox : Channel Message} (hbus : s.bus.Live) (hc : s.mme.context? ue = some c)
  (hp : c.procedures.identification = some p)

theorem begun_publishing (inbox : Channel Message) (msg : Message) {m : Mme} {t : Timers}
    {ps : Procedures}
    (hbegin : (s.mme.emit (.exchanged .received msg.primitive msg.ue)).begin s.config msg =
      (m, .publish n next))
    (hdiffers : (s.mme.emit (.exchanged .received msg.primitive msg.ue)).Differs ue c ps t m) :
    s.mme.Differs ue c ps t ({ s with inbox }.beginMessage msg).mme ∧
      ({ s with inbox }.beginMessage msg).emm = .publishing msg.ue n next ∧
      ({ s with inbox }.beginMessage msg).bus = s.bus := by
  obtain ⟨hmme, hphase⟩ := beginMessage_of_publish msg (s := { s with inbox }) hbegin
  refine ⟨?_, hphase, bus_follow _ _ _⟩
  rw [hmme]
  exact hdiffers.of_emit

include hbus hc hp

theorem repeats_request {timer : TimerId} (htimer : p.t3470 = some timer)
    (hbelow : p.expiries + 1 < s.config.maxRetransmissions) :
    s.mme.Differs ue c { c.procedures with identification := some p.counted } s.mme.timers
        ({ s with inbox }.beginMessage (.expired ⟨timer, ue, .t3470⟩)).mme ∧
      ({ s with inbox }.beginMessage (.expired ⟨timer, ue, .t3470⟩)).Sends ue p.counted
        c.security.params .receiving := by
  obtain ⟨m', hexpired, hdiffers⟩ := Mme.t3470Expired_of_current (m := s.mme.emit _) hc hp htimer
    hbelow
  obtain ⟨hdiffers', hphase, hbus'⟩ := begun_publishing inbox
    (.expired ⟨timer, ue, .t3470⟩) hexpired hdiffers
  refine ⟨hdiffers', sends_of_waiting ?_ hdiffers'.identification hphase fun _ => rfl⟩
  rw [hbus']
  exact hbus

theorem gives_up {timer : TimerId} (htimer : p.t3470 = some timer)
    (hlast : ¬p.expiries + 1 < s.config.maxRetransmissions) :
    s.mme.Differs ue c { c.procedures with identification := some p.counted } s.mme.timers
        ({ s with inbox }.beginMessage (.expired ⟨timer, ue, .t3470⟩)).mme ∧
      ({ s with inbox }.beginMessage (.expired ⟨timer, ue, .t3470⟩)).GivesUp ue p.counted := by
  obtain ⟨m', hexpired, hdiffers⟩ := Mme.t3470Expired_of_last (m := s.mme.emit _) hc hp htimer hlast
  obtain ⟨hdiffers', hphase, hbus'⟩ := begun_publishing inbox
    (.expired ⟨timer, ue, .t3470⟩) hexpired hdiffers
  refine ⟨hdiffers', givesUp_of_waiting ?_ hdiffers'.identification hphase⟩
  rw [hbus']
  exact hbus

theorem resends_request :
    s.mme.SameButLog ({ s with inbox }.beginMessage (.nonDelivery ue)).mme ∧
      ({ s with inbox }.beginMessage (.nonDelivery ue)).Sends ue p c.security.params
        .receiving := by
  have hrequest := Mme.request_of_identification (m := s.mme.emit (.exchanged .received
    (Message.nonDelivery ue).primitive ue)) hc hp .redelivery
  obtain ⟨hmme, hphase⟩ := beginMessage_of_publish (.nonDelivery ue)
    (s := { s with inbox }) hrequest
  have hsame : s.mme.SameButLog ({ s with inbox }.beginMessage (.nonDelivery ue)).mme := by
    rw [hmme]
    exact s.mme.sameButLog_emit _
  refine ⟨hsame, sends_of_waiting ?_ ?_ hphase fun _ => rfl⟩
  · rw [beginMessage_eq, bus_follow]
    exact hbus
  · exact (Mme.identification?_eq_some_iff _ ue p).2 ⟨c, (hsame.context? ue).trans hc, hp⟩

theorem restarts_request {requested : IdentityType} (hrequest : requested.isRequestable = true)
    (hadmits : c.state.admitsIdentification = true) (parent : Option ProcedureId) :
    s.mme.Differs ue c
        { c.procedures with identification := some (p.restarted requested parent) } s.mme.timers
        ({ s with inbox }.beginMessage (.start ue requested parent)).mme ∧
      ({ s with inbox }.beginMessage (.start ue requested parent)).Sends ue
        (p.restarted requested parent) c.security.params
        (.publishing ue (.procedureStarted ue) .announced) := by
  obtain ⟨m', hstart, hrestarts⟩ := Mme.start_restarts (m := s.mme.emit _) hrequest hc hadmits
    parent
  obtain ⟨hdiffers, hphase, hbus'⟩ := begun_publishing inbox
    (.start ue requested parent) hstart (hrestarts.pending p hp)
  refine ⟨hdiffers, sends_of_waiting ?_ hdiffers.identification hphase fun _ => rfl⟩
  rw [hbus']
  exact hbus

theorem treats_receive (hemm : s.emm = .receiving) (hcount : p.expiries.toNat < s.config.bound)
    {msg : Message} {rest : List (Envelope Message)}
    (hqueue : s.inbox.queue = .message msg :: rest) :
    ∃ s₁, s.step? .receive = some s₁ ∧ s.Treats ue c p msg s₁ := by
  refine ⟨_, receive_message hemm hqueue, ?_⟩
  have hcounted := Identification.counted_lt_iff hcount
  constructor
  · rintro timer rfl hstale
    have hrejects : s.mme.Rejects (.expired ⟨timer, ue, .t3470⟩) := by
      simp [Mme.Rejects, Mme.handle?_t3470, Mme.identification?, hc, hp, hstale]
    obtain ⟨s', hreceive, hsame, hphase, _⟩ := (received_ignored_iff hemm hqueue).2 hrejects
    cases hreceive.symm.trans (receive_message hemm hqueue)
    exact ⟨hphase, hsame⟩
  · rintro timer rfl htimer hbelow
    exact repeats_request hbus hc hp htimer (hcounted.2 hbelow)
  · rintro timer rfl htimer hreached
    refine gives_up hbus hc hp htimer fun hbelow => ?_
    have := hcounted.1 hbelow
    omega
  · rintro rfl
    exact resends_request hbus hc hp
  · rintro requested parent rfl hrequest hadmits
    exact restarts_request hbus hc hp hrequest hadmits parent

end Treats

/-- The count on a record is the number of expiries of its T3470 since the last order to start that
was followed, and the type on it is that of this order. While the EMM task is at rest the count is
below the bound, so that it never comes round; the next expiry has the request repeated as long as
the count stays below, and the identification given up when it reaches the bound. A handover
non-delivery has the request repeated without being counted, and another order to start sets the
count back. -/
theorem retransmissions_bounded {config : NasConfig} {inboxCapacity busCapacity : Nat}
    (path : Path OnAir (idle config inboxCapacity busCapacity) ms s)
    (hc : s.mme.context? ue = some c) (hp : c.procedures.identification = some p) :
    Tallied ue ms p.requested p.expiries.toNat ∧
      (s.emm = .receiving → p.expiries.toNat < config.bound ∧
        p.counted.expiries.toNat = p.expiries.toNat + 1 ∧
        ∀ msg rest, s.inbox.queue = .message msg :: rest →
          ∃ s₁, s.step? .receive = some s₁ ∧ s.Treats ue c p msg s₁) := by
  have htallies := tallies_of_path path
  have hrecord := (Mme.identification?_eq_some_iff _ ue p).2 ⟨c, hc, hp⟩
  obtain ⟨htallied, hbound⟩ := htallies.records ue p hrecord
  refine ⟨htallied, fun hemm => ?_⟩
  have hbelow : p.expiries.toNat < s.config.bound := by
    refine hbound.resolve_right ?_
    rintro ⟨_, _, _, hpublishing⟩
    rw [hemm] at hpublishing
    cases hpublishing
  have hconfig : s.config = config := config_of_path path
  refine ⟨hconfig ▸ hbelow, Identification.toNat_counted hbelow, fun msg rest hqueue => ?_⟩
  exact treats_receive htallies.bus hc hp hemm hbelow hqueue

/-- With a bound of two the first expiry has the request for the IMSI sent once more. -/
theorem retransmissions_bounded_two :
    ∃ ms s c s₁ s₃, Path OnAir (idle { maxRetransmissions := 2 } 4 8) ms s ∧
      Tallied ⟨1⟩ ms .imsi 0 ∧ s.mme.context? ⟨1⟩ = some c ∧ s.step? .receive = some s₁ ∧
      s₁.step? .publish = some s₃ ∧ s₃.emm = .receiving ∧
      Moment.published? ⟨s₁, .publish, s₃⟩ =
        some (.sendIdentityRequest ⟨1⟩ .imsi c.security.params) ∧
      ∃ q, s₃.mme.identification? ⟨1⟩ = some q ∧ q.expiries = 1 ∧ q.t3470.isSome := by
  let s := ((idle { maxRetransmissions := 2 } 4 8).walk? OnAir
    [.act (.insert { ue := ⟨1⟩, state := .registered }), .send (.start ⟨1⟩ .imsi none), .receive,
      .publish, .publish, .advance ⟨6000⟩, .fire ⟨1⟩, .deliver]).get (by decide +kernel)
  obtain ⟨ms, path⟩ : ∃ ms, Path OnAir (idle { maxRetransmissions := 2 } 4 8) ms s :=
    Path.of_walk? (Option.some_get _).symm
  let c := (s.mme.context? ⟨1⟩).get (by decide +kernel)
  let p : Identification :=
    { id := ⟨1⟩, ue := ⟨1⟩, requested := .imsi, t3470 := some ⟨1⟩, parent := none,
      previousState := .registered }
  have hc : s.mme.context? ⟨1⟩ = some c := (Option.some_get _).symm
  have hp : c.procedures.identification = some p := by decide +kernel
  obtain ⟨htallied, hrest⟩ := retransmissions_bounded path hc hp
  obtain ⟨_, _, hnext⟩ := hrest (by decide +kernel)
  obtain ⟨s₁, hreceive, htreats⟩ := hnext (.expired ⟨⟨1⟩, ⟨1⟩, .t3470⟩) [] (by decide +kernel)
  obtain ⟨_, hsends⟩ := htreats.repeated ⟨1⟩ rfl rfl (by decide +kernel)
  have hwhole : ((s.step? .receive).bind (·.step? .publish)).isSome = true := by decide +kernel
  obtain ⟨s₃, hboth⟩ := Option.isSome_iff_exists.1 hwhole
  obtain ⟨s₁', hreceive', hpublish⟩ := Option.bind_eq_some_iff.1 hboth
  cases hreceive.symm.trans hreceive'
  obtain ⟨hpublished, hphase, hkept⟩ := (hsends [] s₁ .nil).2 s₃ hpublish
  obtain ⟨c₁, _, _, hdiffers⟩ := hkept (by simp)
  exact ⟨ms, s, c, s₁, s₃, path, htallied, hc, hreceive, hpublish, hphase, hpublished, _,
    hdiffers.identification, rfl, rfl⟩

end System

end Emm
