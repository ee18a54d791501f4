import Emm.Proofs.Rounds
import Emm.Proofs.Wiring

/-!
Timers and records in step. Main statement: `timers_match_records`. In every state of a run in which
nothing shuts down, armed timers are on record, timers on record are armed or their expiry is on its
way, and an identification without a timer is one that a handler is in the middle of.
-/

namespace Emm

namespace Resumption

/-- The UE whose identification may be without a timer while the handler waits. -/
def pending? : Resumption → Option UeId
  | requested ue _ => some ue
  | displaced claim _ => some claim.ue
  | exhausted ue => some ue
  | failed ue => some ue
  | _ => none

theorem IsLast.pending? {next : Resumption} (h : next.IsLast) : next.pending? = none := by
  cases next with
  | requested | displaced | exhausted | failed => exact h.elim
  | _ => rfl

theorem Fails.pending? {ue : UeId} {next : Resumption} (h : next.Fails ue) :
    next.pending? = some ue := by
  cases h <;> rfl

end Resumption

namespace EmmPhase

def pending? : EmmPhase → Option UeId
  | publishing _ _ next => next.pending?
  | _ => none

/-- The EMM task has neither stopped nor crashed. -/
def IsRunning : EmmPhase → Prop
  | receiving | publishing .. => True
  | stopped | crashed _ => False

end EmmPhase

instance (phase : EmmPhase) : Decidable (phase = .receiving) :=
  match phase with
  | .receiving => .isTrue rfl
  | .publishing .. | .stopped | .crashed _ => .isFalse nofun

/-- Where a handler stops: whose identification may be without a timer. -/
def Progress.pending? : Progress → Option UeId
  | publish _ next => next.pending?
  | done _ => none

/-- The handler goes on or comes to an end of its own. -/
def Progress.IsSound (p : Progress) : Prop :=
  ∀ crash, p ≠ .done (.crashed crash)

namespace Progress

theorem isSound_publish (n : Notification) (next : Resumption) : (publish n next).IsSound := by
  intro crash h
  cases h

theorem isSound_done {outcome : Outcome} (h : ∀ crash, outcome ≠ .crashed crash) :
    (done outcome).IsSound := by
  intro crash heq
  cases heq
  exact h crash rfl

end Progress

/-- Every identification has its timer on record, that of one UE excepted. -/
def Guarded (records : UeId → Option Identification) (pending : Option UeId) : Prop :=
  ∀ ue p, records ue = some p → p.t3470 = none → pending = some ue

namespace Guarded

variable {records : UeId → Option Identification} {pending : Option UeId} {ue : UeId}

theorem update (h : Guarded records pending) (hpending : ∀ u, pending = some u → u = ue)
    {q : Option Identification} (hq : ∀ p, q = some p → p.t3470 ≠ none) :
    Guarded (Function.update records ue q) none := by
  intro u p hp htimer
  by_cases hu : u = ue
  · subst hu
    rw [Function.update_self] at hp
    exact absurd htimer (hq p hp)
  · rw [Function.update_of_ne hu] at hp
    exact absurd (hpending u (h u p hp htimer)) hu

theorem update_pending (h : Guarded records none) (q : Option Identification) :
    Guarded (Function.update records ue q) (some ue) := by
  intro u p hp htimer
  by_cases hu : u = ue
  · rw [hu]
  · rw [Function.update_of_ne hu] at hp
    cases h u p hp htimer

end Guarded

theorem Begun.guarded {m : Mme} {records : UeId → Option Identification} {msg : Message}
    {p : Progress} (h : Begun m records msg p) (hm : Guarded m.identification? none) :
    p.IsSound ∧ Guarded records p.pending? := by
  cases h with
  | idle hsound hrecords =>
      refine ⟨Progress.isSound_done hsound, ?_⟩
      rw [hrecords]
      exact hm
  | notice hending hrequest hrecords =>
      refine ⟨Progress.isSound_publish _ _, ?_⟩
      rw [hrecords]
      exact hm
  | entered hrequest hc hnone hq hrecords =>
      refine ⟨Progress.isSound_publish _ _, ?_⟩
      rw [hrecords]
      exact hm.update_pending _
  | renewed hrequest hp hq hrecords =>
      refine ⟨Progress.isSound_publish _ _, ?_⟩
      rw [hrecords]
      exact hm.update_pending _
  | displacing hp hclaim hq hrecords =>
      refine ⟨Progress.isSound_publish _ _, ?_⟩
      rw [hrecords]
      exact hm.update_pending _
  | ended hp hending hlast hrecords =>
      refine ⟨Progress.isSound_publish _ _, ?_⟩
      rw [hrecords, Progress.pending?, hlast.pending?]
      exact hm.update nofun nofun
  | failing hp hending hfails hq hrecords =>
      refine ⟨Progress.isSound_publish _ _, ?_⟩
      rw [hrecords, Progress.pending?, hfails.pending?]
      exact hm.update_pending _
  | aborted hsound hrecords =>
      refine ⟨Progress.isSound_done hsound, ?_⟩
      rw [hrecords]
      exact hm.update nofun nofun

theorem Resumed.guarded {config : NasConfig} {m : Mme} {records : UeId → Option Identification}
    {next : Resumption} {p : Progress} (h : Resumed config m records next .accepted p)
    (hdeadline : (m.timers.now.after? config.retryInterval).isSome)
    (hm : Guarded m.identification? next.pending?) : p.IsSound ∧ Guarded records p.pending? := by
  cases h with
  | settled hlast hsound hrecords =>
      refine ⟨Progress.isSound_done hsound, ?_⟩
      rw [hlast.pending?] at hm
      rw [hrecords]
      exact hm
  | sent hprogress hrecords =>
      have harmed : Guarded records none := by
        rw [hrecords]
        refine hm.update (fun u hu => (Option.some.inj hu).symm) fun p hp => ?_
        obtain ⟨_, _, rfl⟩ := Option.map_eq_some_iff.1 hp
        nofun
      rcases hprogress with rfl | ⟨outcome, rfl, hsound⟩
      · exact ⟨Progress.isSound_publish _ _, harmed⟩
      · exact ⟨Progress.isSound_done hsound, harmed⟩
  | ended hending hlast hrecords =>
      refine ⟨Progress.isSound_publish _ _, ?_⟩
      rw [hrecords, Progress.pending?, hlast.pending?]
      exact hm.update (fun u hu => (Option.some.inj hu).symm) nofun
  | stuck hoverflow hrecords =>
      rw [hoverflow] at hdeadline
      cases hdeadline
  | exhausted hending hrequest hrecords =>
      refine ⟨Progress.isSound_publish _ _, ?_⟩
      rw [hrecords]
      exact hm.update (fun u hu => (Option.some.inj hu).symm) nofun
  | failed hsound hrecords =>
      refine ⟨Progress.isSound_done hsound, ?_⟩
      rw [hrecords]
      exact hm.update (fun u hu => (Option.some.inj hu).symm) nofun

/-- Does the move bring a part of the program to its end? -/
def Move.shutsDown : Move → Bool
  | .askEmmToStop | .askAppToStop | .closeBus | .act .stopAllTimers => true
  | _ => false

namespace System

variable {s s' : System} {a : Move}

/-- The clock can express the time of a retry, where a handler may schedule one. -/
def RetryFits (s : System) : Move → Prop
  | .publish => (s.mme.timers.now.after? s.config.retryInterval).isSome
  | _ => True

instance (s : System) : (a : Move) → Decidable (s.RetryFits a)
  | .publish => inferInstanceAs (Decidable (_ = true))
  | .receive | .take | .discard | .fire _ | .deliver | .advance _ | .send _ | .askEmmToStop
  | .askAppToStop | .closeBus | .tearDown _ | .act _ => .isTrue trivial

/-- The program as it is wired, where nothing shuts down and retries can be scheduled. -/
def Steady (s : System) (a : Move) : Prop :=
  s.InService a ∧ a.shutsDown = false ∧ s.RetryFits a

instance (s : System) (a : Move) : Decidable (s.Steady a) := inferInstanceAs (Decidable (_ ∧ _ ∧ _))

theorem inbox_follow_of_running {s : System} {ue : UeId} {p : Progress}
    (h : (s.follow ue p).emm.IsRunning) : (s.follow ue p).inbox = s.inbox := by
  rw [emm_follow] at h
  rw [inbox_follow]
  split
  · exact h.elim
  · rfl

theorem inbox_beginMessage {s : System} {msg : Message} (h : (s.beginMessage msg).emm.IsRunning) :
    (s.beginMessage msg).inbox = s.inbox := by
  rw [beginMessage_eq] at h ⊢
  exact inbox_follow_of_running h

theorem expiries_beginMessage (s : System) (msg : Message) :
    (s.beginMessage msg).expiries = s.expiries := by
  rw [beginMessage_eq, expiries_follow]

theorem inbox_resume {s : System} {ue : UeId} {n : Notification} {next : Resumption}
    {d : Delivery} (h : (s.resume ue n next d).emm.IsRunning) :
    (s.resume ue n next d).inbox = s.inbox := by
  rw [resume_eq] at h ⊢
  exact inbox_follow_of_running h

theorem expiries_resume (s : System) (ue : UeId) (n : Notification) (next : Resumption)
    (d : Delivery) : (s.resume ue n next d).expiries = s.expiries := by
  rw [resume_eq, expiries_follow]

theorem inbox_live_step (hask : a ≠ .askEmmToStop) (hrunning : s'.emm.IsRunning)
    (hstep : s.step? a = some s') (hs : s.inbox.Live) : s'.inbox.Live := by
  by_cases hreceive : a = .receive
  · subst hreceive
    obtain ⟨_, ⟨msg, rest, hqueue, rfl⟩ | ⟨hover, _⟩⟩ := receive?_eq_some hstep
    · rw [inbox_beginMessage hrunning]
      exact hs.rest hqueue
    · exact absurd hover hs.not_over
  by_cases hpublish : a = .publish
  · subst hpublish
    obtain ⟨ue, n, next, s₁, d, _, hoffer, rfl⟩ := publish?_eq_some hstep
    rw [inbox_resume hrunning]
    obtain ⟨bus, _, rfl, _⟩ | ⟨_, rfl, _⟩ := offer?_eq_some hoffer
    · exact hs
    · exact hs
  cases (traffic_of_step hreceive hpublish hstep).2 with
  | still hinbox hexpiries => rwa [hinbox]
  | fired hinbox hexpiries => rwa [hinbox]
  | delivered hexpiries hsend => exact hs.sent hsend
  | dropped hexpiries hinbox hclosed => rwa [hinbox]
  | sent hinbox hexpiries =>
      rw [hinbox]
      exact hs.push _
  | asked hinbox hexpiries => exact absurd rfl hask

theorem undelivered_kept (hask : a ≠ .askEmmToStop) (hrunning : s'.emm.IsRunning)
    (hstep : s.step? a = some s') (hs : s.inbox.Live) :
    ∀ e ∈ s.undelivered, s.expiryAtHand a = some e ∨ e ∈ s'.undelivered := by
  intro e he
  rw [mem_undelivered] at he
  by_cases hreceive : a = .receive
  · subst hreceive
    obtain ⟨_, ⟨msg, rest, hqueue, rfl⟩ | ⟨hover, _⟩⟩ := receive?_eq_some hstep
    · rw [mem_undelivered, inbox_beginMessage hrunning, expiries_beginMessage]
      rw [hqueue, List.mem_cons] at he
      rcases he with he | he | he
      · exact .inr (.inl he)
      · left
        cases he
        simp [expiryAtHand, hqueue, Message.expiry?]
      · exact .inr (.inr he)
    · exact absurd hover hs.not_over
  by_cases hpublish : a = .publish
  · subst hpublish
    obtain ⟨ue, n, next, s₁, d, _, hoffer, rfl⟩ := publish?_eq_some hstep
    rw [mem_undelivered, inbox_resume hrunning, expiries_resume]
    obtain ⟨bus, _, rfl, _⟩ | ⟨_, rfl, _⟩ := offer?_eq_some hoffer
    · exact .inr he
    · exact .inr he
  right
  rw [mem_undelivered]
  -- while the EMM task runs its inbox takes what is delivered
  cases (traffic_of_step hreceive hpublish hstep).2 with
  | still hinbox hexpiries => rwa [hinbox, hexpiries]
  | fired hinbox hexpiries =>
      rw [hinbox, hexpiries, List.mem_append]
      exact he.imp_left .inl
  | delivered hexpiries hsend =>
      obtain ⟨_, _, _, hinbox⟩ := Channel.send_eq_ok hsend
      rw [hexpiries, List.mem_cons] at he
      simp only [hinbox, List.mem_append, List.mem_singleton, Envelope.message.injEq,
        Message.expired.injEq]
      tauto
  | dropped hexpiries hinbox hclosed =>
      exact absurd hclosed hs.send_ne_closed
  | sent hinbox hexpiries =>
      rw [hinbox, hexpiries, List.mem_append]
      exact he.imp_right .inl
  | asked hinbox hexpiries => exact absurd rfl hask

theorem isRunning_phaseAfter {ue : UeId} {p : Progress} (h : p.IsSound) :
    (phaseAfter ue p).IsRunning := by
  cases p with
  | publish n next => trivial
  | done outcome =>
      cases outcome with
      | crashed crash => exact absurd rfl (h crash)
      | _ => trivial

theorem pending?_phaseAfter (ue : UeId) (p : Progress) :
    (phaseAfter ue p).pending? = p.pending? := by
  cases p with
  | publish n next => rfl
  | done outcome => cases outcome <;> rfl

theorem spares_of_admits {m : Mme} {action : Bench.Action} (h : m.Admits action) :
    action.SparesRecords := by
  cases action with
  | insert c =>
      have hblank : c.procedures = {} := h.2
      change c.procedures.identification = none
      rw [hblank]
  | endIdentification ue => exact h.elim
  | endAll ue => exact h.elim
  | _ => trivial

/-- A handler crashes, or leaves an identification without a timer, nowhere but in the middle. -/
theorem guarded_step (hok : s.Steady a) (hstep : s.step? a = some s') (hbus : s.bus.Live)
    (hinbox : s.inbox.Live) (hrunning : s.emm.IsRunning)
    (hs : Guarded s.mme.identification? s.emm.pending?) :
    s'.emm.IsRunning ∧ Guarded s'.mme.identification? s'.emm.pending? := by
  by_cases hreceive : a = .receive
  · subst hreceive
    obtain ⟨hemm, _, ⟨msg, _, e, p, _, hbegun, hphase⟩ | ⟨hover, _⟩⟩ := turn_of_receive hstep
    · rw [hemm] at hs
      obtain ⟨hsound, hguarded⟩ := hbegun.guarded hs
      rw [hphase, pending?_phaseAfter]
      exact ⟨isRunning_phaseAfter hsound, hguarded⟩
    · exact absurd hover hinbox.not_over
  by_cases hpublish : a = .publish
  · subst hpublish
    obtain ⟨ue, n, next, m, p, hemm, hrecords, htimers, hresumed, hphase, _⟩ :=
      turn_of_accepted hbus hstep
    rw [hemm, ← hrecords] at hs
    have hdeadline : (s.mme.timers.now.after? s.config.retryInterval).isSome := hok.2.2
    rw [← htimers] at hdeadline
    obtain ⟨hsound, hguarded⟩ := hresumed.guarded hdeadline hs
    rw [hphase, pending?_phaseAfter]
    exact ⟨isRunning_phaseAfter hsound, hguarded⟩
  have hemm := (traffic_of_step hreceive hpublish hstep).1
  refine ⟨by rwa [hemm], ?_⟩
  rw [hemm]
  intro ue p hp htimer
  have hspares : s.SparesRecords a := by
    cases a with
    | act action => exact spares_of_admits hok.1.1
    | _ => trivial
  rcases records_step hreceive hpublish hspares hstep ue with hsame | ⟨hnone, _⟩
  · exact hs ue p (hsame ▸ hp) htimer
  · rw [hp] at hnone
    cases hnone

theorem handle?_begin_expired (m : Mme) (config : NasConfig) (e : Expiry) :
    (m.begin config (.expired e)).1.handle? e.ue e.kind ≠ some e.timer := by
  obtain ⟨timer, ue, kind⟩ := e
  cases kind with
  | t3470 =>
      change (m.t3470Expired config ue timer).1.handle? ue .t3470 ≠ some timer
      rw [Mme.handle?_t3470]
      obtain ⟨hstale, _, hrecords⟩ | ⟨p, q, _, _, hq, hrecords, _⟩ :=
        Mme.t3470Expired_cases m ue config timer
      · rw [hrecords]
        exact hstale
      · rw [hrecords, Function.update_self, Option.bind_some, hq]
        nofun
  | specificRetry =>
      change (m.retryExpired ue timer).1.handle? ue .specificRetry ≠ some timer
      unfold Mme.retryExpired
      split
      · rename_i hstale
        change m.handle? ue .specificRetry ≠ some timer
        rw [Mme.handle?_specificRetry]
        intro hhandle
        obtain ⟨p, hp, htimer⟩ := Option.bind_eq_some_iff.1 hhandle
        simp [hp, htimer] at hstale
      · rename_i p hfound
        obtain ⟨c, hc, _⟩ := m.context_of_specific? ue (Option.filter_eq_some_iff.1 hfound).1
        have hset := m.handle?_setSpecific ue ue .specificRetry hc
          (some { p with retryTimer := none, reconciliation := none })
        intro hhandle
        have hstruck := hset.symm.trans hhandle
        rw [if_pos ⟨rfl, rfl⟩] at hstruck
        cases hstruck

theorem handle?_at_hand {e : Expiry} (hhand : s.expiryAtHand a = some e)
    (hstep : s.step? a = some s') : s'.mme.handle? e.ue e.kind ≠ some e.timer := by
  cases a with
  | receive =>
      obtain ⟨_, ⟨msg, rest, hqueue, rfl⟩ | ⟨hover, _⟩⟩ := receive?_eq_some hstep
      · have hmsg : msg = .expired e := by
          simp only [expiryAtHand, hqueue] at hhand
          cases msg with
          | expired x =>
              cases hhand
              rfl
          | _ => cases hhand
        subst hmsg
        rw [beginMessage_eq, Mme.handle?, context?_follow]
        exact handle?_begin_expired _ s.config e
      · simp only [expiryAtHand] at hhand
        split at hhand
        · rename_i hqueue
          exact absurd hqueue (hover.queue_ne _ _)
        · cases hhand
  | _ => cases hhand

/-- While nothing shuts down, every timer on record is armed or its expiry on its way. -/
theorem covered_step (hok : s.Steady a) (hstep : s.step? a = some s') (hinbox : s.inbox.Live)
    (hrunning : s'.emm.IsRunning) (hsound : s.mme.ledger.Sound s.undelivered)
    (hs : s.mme.ledger.Covered s.undelivered) : s'.mme.ledger.Covered s'.undelivered := by
  have hask : a ≠ .askEmmToStop := by
    rintro rfl
    cases hok.2.1
  have hkept := undelivered_kept hask hrunning hstep hinbox
  by_cases hfire : ∃ id, a = .fire id
  · obtain ⟨id, rfl⟩ := hfire
    obtain ⟨b, hb, rfl, _, rfl⟩ := fireOne?_eq_some hstep
    refine (Ledger.Covered.fire hs hsound hb).mono ?_
    intro e he
    simp only [undelivered, List.mem_append, List.mem_cons, List.not_mem_nil, or_false] at he ⊢
    tauto
  · have hposting := posting_of_step hok.1.1 hstep fun id ha => hfire ⟨id, ha⟩
    have hcovered : s'.mme.ledger.Covered s.undelivered := by
      generalize s'.mme.ledger = l' at hposting
      cases hposting with
      | entries h =>
          exact h.covered hok.1.2 (fun e he => expiryAtHand_undelivered he) hsound hs
      | advance d => exact hs
      | stopAll => cases hok.2.1
    cases hhand : s.expiryAtHand a with
    | none =>
        refine hcovered.mono fun e he => ?_
        exact (hkept e he).resolve_left (by simp [hhand])
    | some e =>
        -- The expiry at hand leaves the inbox, but its handler has struck the timer off the record.
        refine hcovered.settle (handle?_at_hand hhand hstep) fun x hx => ?_
        refine (hkept x hx).imp_left fun h => ?_
        rw [hhand] at h
        exact (Option.some.inj h).symm

/-- What a run keeps in which nothing shuts down. -/
structure InStep (s : System) : Prop where
  sound : s.mme.ledger.Sound s.undelivered
  covered : s.mme.ledger.Covered s.undelivered
  inbox : s.inbox.Live
  bus : s.bus.Live
  running : s.emm.IsRunning
  guarded : Guarded s.mme.identification? s.emm.pending?

theorem inStep_idle (config : NasConfig) (inboxCapacity busCapacity : Nat) :
    (idle config inboxCapacity busCapacity).InStep where
  sound := ⟨nofun, List.nodup_nil, nofun, nofun, nofun⟩
  covered _ _ _ := nofun
  inbox := ⟨rfl, rfl, nofun⟩
  bus := ⟨rfl, rfl, nofun⟩
  running := trivial
  guarded _ _ := nofun

theorem inStep_step (hok : s.Steady a) (hstep : s.step? a = some s') (hs : s.InStep) :
    s'.InStep := by
  have hup : ∀ b : Move, b.shutsDown = true → a ≠ b := by
    rintro b hb rfl
    cases hb.symm.trans hok.2.1
  obtain ⟨hrunning, hguarded⟩ :=
    guarded_step hok hstep hs.bus hs.inbox hs.running hs.guarded
  exact {
    sound := sound_step hok.1.1 hok.1.2 hstep hs.sound
    covered := covered_step hok hstep hs.inbox hrunning hs.sound hs.covered
    inbox := inbox_live_step (hup _ rfl) hrunning hstep hs.inbox
    bus := bus_live_step (hup _ rfl) (hup _ rfl) hstep hs.bus
    running := hrunning
    guarded := hguarded }

/-- In every state of a run in which nothing shuts down, also while a handler waits: an armed timer
is on record in the live context of its UE, where a UE has one of a kind at most; a timer on record
is armed, or its expiry is on its way. Between messages every identification has its timer. -/
theorem timers_match_records {config : NasConfig} {inboxCapacity busCapacity : Nat}
    (h : Reachable Steady (idle config inboxCapacity busCapacity) s) :
    (∀ t ∈ s.mme.timers.armed, ∃ c, s.mme.context? t.expiry.ue = some c ∧
        c.procedures.timer? t.expiry.kind = some t.id) ∧
      (∀ ue kind, (s.mme.timers.armed.filter fun t =>
        t.expiry.ue = ue ∧ t.expiry.kind = kind).length ≤ 1) ∧
      (∀ ue c kind id, s.mme.context? ue = some c → c.procedures.timer? kind = some id →
        (∃ t ∈ s.mme.timers.armed, t.expiry = ⟨id, ue, kind⟩) ∨
          ⟨id, ue, kind⟩ ∈ s.expiries ∨
            .message (.expired ⟨id, ue, kind⟩) ∈ s.inbox.queue) ∧
      (s.emm = .receiving → ∀ ue c p, s.mme.context? ue = some c →
        c.procedures.identification = some p → p.t3470.isSome) := by
  obtain ⟨ms, path⟩ := h
  have hs : s.InStep := path.induct (inStep_idle _ _ _) fun _ _ _ hok hstep hs =>
    inStep_step hok hstep hs
  refine ⟨?_, ?_, ?_, ?_⟩
  · intro t ht
    exact Option.bind_eq_some_iff.1 (hs.sound.recorded t ht)
  · exact hs.sound.length_armed_le_one
  · intro ue c kind id hc hid
    have hhandle : s.mme.handle? ue kind = some id := by
      rw [s.mme.handle?_of_context? ue kind hc, hid]
    exact (hs.covered ue kind id hhandle).imp_right mem_undelivered.1
  · intro hemm ue c p hc hp
    have hguarded := hs.guarded ue p ((s.mme.identification?_eq_some_iff ue p).2 ⟨c, hc, hp⟩)
    rw [hemm] at hguarded
    rw [Option.isSome_iff_ne_none]
    intro htimer
    cases hguarded htimer

/-- A request is lost while its timer fires: the handler waits to send it again, the old timer is
still on record, and the expiry is not handled yet. -/
theorem timers_match_records_resending :
    ∃ s : System, s.emm.pending? = some ⟨1⟩ ∧ s.mme.timers.armed = [] ∧
      (⟨⟨1⟩, ⟨1⟩, .t3470⟩ ∈ s.expiries ∨
        .message (.expired ⟨⟨1⟩, ⟨1⟩, .t3470⟩) ∈ s.inbox.queue) := by
  let s := ((idle {} 4 8).walk? Steady
    [.act (.insert { ue := ⟨1⟩, state := .deregistered }), .send (.start ⟨1⟩ .imsi none), .receive,
      .publish, .publish, .advance ⟨6000⟩, .send (.nonDelivery ⟨1⟩), .fire ⟨1⟩, .receive,
      .deliver]).get (by decide +kernel)
  obtain ⟨ms, path⟩ : ∃ ms, Path Steady (idle {} 4 8) ms s :=
    Path.of_walk? (Option.some_get _).symm
  have harmed : s.mme.timers.armed = [] := by decide +kernel
  have hhandle : s.mme.handle? ⟨1⟩ .t3470 = some ⟨1⟩ := by decide +kernel
  obtain ⟨c, hc, hid⟩ := Option.bind_eq_some_iff.1 hhandle
  refine ⟨s, by decide +kernel, harmed, ?_⟩
  refine ((timers_match_records ⟨ms, path⟩).2.2.1 ⟨1⟩ c .t3470 ⟨1⟩ hc hid).resolve_left ?_
  simp [harmed]

end System

end Emm
