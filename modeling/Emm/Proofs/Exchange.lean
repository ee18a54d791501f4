import Emm.Proofs.Standstill
import Emm.Proofs.Succession
import Emm.Proofs.Timekeeping

/-!
What comes of a message to a system in which nothing else happens. Its handler plays a script, the
notifications that it publishes and the outcome to which it comes; the application task takes these
in their order, early or late. Main statements: `exchange_plays`, which says what has been done when
the system is at rest again, and `comes_to_rest`, by which it always comes to that.
-/

namespace Emm

/-! ### Scripts -/

/-- What a handler still publishes and how it ends, if all its notifications are taken. After the
last retransmission this is not settled yet: it depends on whether the context is still there. -/
def Resumption.script? : Resumption → Option (List Notification × Outcome)
  | requested ue .start => some ([.procedureStarted ue], .started (.ok ()))
  | requested .. => some ([], .handled)
  | announced => some ([], .started (.ok ()))
  | displaced claim holder =>
      some ([.procedureConfirmed claim.ue
        { notify := false, free := true, previousState := claim.previousState }],
        .completed (.ok (.deferred holder.ue)))
  | unresolved e => some ([], .completed (.error e))
  | violated ue => some ([], .completed (.error (.protocolViolation ue)))
  | confirmed completion => some ([], .completed (.ok completion))
  | exhausted _ => none
  | failed _ | finished => some ([], .handled)

def Progress.script? : Progress → Option (List Notification × Outcome)
  | done (.crashed _) => none
  | done outcome => some ([], outcome)
  | publish n next => next.script?.map fun script => (n :: script.1, script.2)

def Progress.outcome? : Progress → Option Outcome
  | done outcome => some outcome
  | publish .. => none

theorem Progress.script?_publish {n : Notification} {next : Resumption} {ns : List Notification}
    {outcome : Outcome} :
    (publish n next).script? = some (ns, outcome) ↔
      ∃ rest, next.script? = some (rest, outcome) ∧ ns = n :: rest := by
  simp only [script?, Option.map_eq_some_iff, Prod.exists, Prod.mk.injEq]
  constructor
  · rintro ⟨rest, outcome, h, rfl, rfl⟩
    exact ⟨rest, h, rfl⟩
  · rintro ⟨rest, h, rfl⟩
    exact ⟨rest, outcome, h, rfl, rfl⟩

theorem Progress.script?_done {outcome outcome' : Outcome} {ns : List Notification}
    (h : (done outcome).script? = some (ns, outcome')) :
    ns = [] ∧ outcome' = outcome ∧ ∀ crash, outcome ≠ .crashed crash := by
  cases outcome with
  | crashed crash => cases h
  | _ =>
      cases h
      exact ⟨rfl, rfl, nofun⟩

theorem Progress.length_script {p : Progress} {ns : List Notification} {outcome : Outcome}
    (h : p.script? = some (ns, outcome)) : ns.length ≤ 2 := by
  cases p with
  | done outcome' => simp [(script?_done h).1]
  | publish n next =>
      obtain ⟨rest, hnext, rfl⟩ := script?_publish.1 h
      cases next with
      | requested ue purpose =>
          cases purpose <;> cases hnext <;> simp
      | exhausted ue => cases hnext
      | _ =>
          cases hnext
          simp

namespace Mme

variable (m : Mme) (ue : UeId)

theorem requestFailed_script (purpose : RequestPurpose) (e : IdentificationError) :
    (m.requestFailed ue purpose e).2.script?.isSome := by
  unfold requestFailed
  split
  · rfl
  · rfl
  · split <;> rfl

theorem request_script (purpose : RequestPurpose) : (m.request ue purpose).2.script?.isSome := by
  unfold request
  split
  · exact requestFailed_script (m.emit _) ue purpose _
  · split
    · exact requestFailed_script m ue purpose _
    · cases purpose <;> rfl

theorem begin_script (config : NasConfig) {msg : Message} (hmsg : msg.expiry? = none) :
    (m.begin config msg).2.script?.isSome := by
  cases msg with
  | start ue requested parent =>
      simp only [Mme.begin, start]
      split
      · rfl
      · split
        · rfl
        · split
          · rfl
          · exact request_script _ ue .start
  | complete ue identity =>
      simp only [Mme.begin, complete, identification?_emit]
      split
      · rfl
      · cases identity with
        | imsi imsi =>
            simp only [settleImsi]
            split
            · rfl
            · split <;> rfl
        | imei imei => rfl
        | imeisv imeisv => rfl
        | tmsi tmsi => rfl
  | expired e => cases hmsg
  | lowerLayerFailure ue =>
      simp only [Mme.begin, lowerLayerFailed]
      split <;> rfl
  | nonDelivery ue => exact m.request_script ue .redelivery
  | abort ue =>
      simp only [Mme.begin, abort]
      split <;> rfl

theorem resume_script {config : NasConfig} {next : Resumption} (n : Notification)
    {script : List Notification × Outcome}
    (hretry : (m.timers.now.after? config.retryInterval).isSome) (h : next.script? = some script) :
    (m.resume config n next .accepted).2.script? = some script := by
  cases next with
  | requested ue purpose =>
      cases purpose with
      | start => exact h
      | retransmission => exact h
      | redelivery => exact h
  | displaced claim holder =>
      simp only [resume]
      split
      · exact h
      · rename_i m₁ crash heq
        have hoverflow := m.crash_of_displace claim.ue (by rw [heq])
        rw [hoverflow] at hretry
        cases hretry
  | exhausted ue => cases h
  | _ => exact h

theorem alike_resume (config : NasConfig) (n : Notification) (next : Resumption) (d : Delivery) :
    m.Alike (m.resume config n next d).1 :=
  ⟨(m.resume_aside config n next d).owners, (m.resume_edits config n next d).state?⟩

def applyAll (m : Mme) (ns : List Notification) : Mme := ns.foldl apply m

end Mme

namespace Moment

def taken? (x : Moment) : Option Notification :=
  match x.move, x.before.bus.queue with
  | .take, .message n :: _ => some n
  | _, _ => none

def outcome? (x : Moment) : Option Outcome :=
  match x.move, x.before.emm with
  | .receive, .receiving =>
      match x.before.inbox.queue with
      | .message msg :: _ =>
          ((x.before.mme.emit (.exchanged .received msg.primitive msg.ue)).begin
            x.before.config msg).2.outcome?
      | _ => none
  | .publish, .publishing _ n next =>
      (x.before.offer? n).bind fun (s, d) => (s.mme.resume s.config n next d).2.outcome?
  | _, _ => none

end Moment

namespace System

/-- What the application task has taken, the earliest first. -/
def takenIn (ms : List Moment) : List Notification := ms.filterMap Moment.taken?

/-- How handlers have ended, the earliest first. -/
def outcomesIn (ms : List Moment) : List Outcome := ms.filterMap Moment.outcome?

theorem takenIn_snoc (ms : List Moment) (x : Moment) :
    takenIn (ms ++ [x]) = takenIn ms ++ x.taken?.toList :=
  filterMap_snoc _ ms x

theorem outcomesIn_snoc (ms : List Moment) (x : Moment) :
    outcomesIn (ms ++ [x]) = outcomesIn ms ++ x.outcome?.toList :=
  filterMap_snoc _ ms x

/-- The moves of the program itself. -/
def OfProgram (_ : System) : Move → Prop
  | .receive | .publish | .take | .fire _ | .deliver => True
  | .discard | .advance _ | .send _ | .askEmmToStop | .askAppToStop | .closeBus | .tearDown _
  | .act _ => False

instance (s : System) : (a : Move) → Decidable (s.OfProgram a)
  | .receive | .publish | .take | .fire _ | .deliver => .isTrue trivial
  | .discard | .advance _ | .send _ | .askEmmToStop | .askAppToStop | .closeBus | .tearDown _
  | .act _ => .isFalse id

/-- Both tasks can do their work, and no timer has anything to do with it at present. -/
structure Running (s : System) : Prop where
  config : s.config.validate = .ok ()
  retry : (s.mme.timers.now.after? s.config.retryInterval).isSome
  inbox : s.inbox.Live
  inboxRoom : 0 < s.inbox.capacity
  bus : s.bus.Live
  busRoom : 0 < s.bus.capacity
  application : s.appRunning = true
  expiries : s.expiries = []
  undue : ∀ a ∈ s.mme.timers.armed, s.mme.timers.isDue a = false

/-- There is nothing left to be done until somebody sends a message or time goes on. -/
structure AtRest (s : System) : Prop extends Running s where
  emm : s.emm = .receiving
  inboxEmpty : s.inbox.queue = []
  busEmpty : s.bus.queue = []

instance {α : Type} [DecidableEq α] (c : Channel α) : Decidable c.Live :=
  decidable_of_iff (c.isOpen = true ∧ c.hasSender = true ∧ .shutdown ∉ c.queue)
    ⟨fun ⟨hopen, hsender, hunasked⟩ => ⟨hopen, hsender, hunasked⟩,
      fun h => ⟨h.isOpen, h.hasSender, h.unasked⟩⟩

instance (s : System) : Decidable s.Running :=
  decidable_of_iff (s.config.validate = .ok () ∧
      (s.mme.timers.now.after? s.config.retryInterval).isSome ∧ s.inbox.Live ∧
      0 < s.inbox.capacity ∧ s.bus.Live ∧ 0 < s.bus.capacity ∧ s.appRunning = true ∧
      s.expiries = [] ∧ ∀ a ∈ s.mme.timers.armed, s.mme.timers.isDue a = false)
    ⟨fun ⟨h₁, h₂, h₃, h₄, h₅, h₆, h₇, h₈, h₉⟩ => ⟨h₁, h₂, h₃, h₄, h₅, h₆, h₇, h₈, h₉⟩,
      fun ⟨h₁, h₂, h₃, h₄, h₅, h₆, h₇, h₈, h₉⟩ => ⟨h₁, h₂, h₃, h₄, h₅, h₆, h₇, h₈, h₉⟩⟩

instance (s : System) : Decidable s.AtRest :=
  decidable_of_iff (s.Running ∧ s.emm = .receiving ∧ s.inbox.queue = [] ∧ s.bus.queue = [])
    ⟨fun ⟨hrunning, hemm, hinbox, hbus⟩ => ⟨hrunning, hemm, hinbox, hbus⟩,
      fun h => ⟨h.toRunning, h.emm, h.inboxEmpty, h.busEmpty⟩⟩

/-- Somebody sends a message to a system at rest, which makes its moves until it is at rest once
more. -/
def Exchange (msg : Message) (s : System) (ms : List Moment) (s' : System) : Prop :=
  ∃ s₁, s.step? (.send msg) = some s₁ ∧ Path OfProgram s₁ ms s' ∧ s'.AtRest

/-- The system after a message and the given moves, if these bring it to rest. -/
def exchange? (s : System) (msg : Message) (moves : List Move) : Option System :=
  ((s.step? (.send msg)).bind fun s₁ => s₁.walk? OfProgram moves).filter fun s' => s'.AtRest

theorem Exchange.of_exchange? {s s' : System} {msg : Message} {moves : List Move}
    (h : s.exchange? msg moves = some s') : ∃ ms, Exchange msg s ms s' := by
  obtain ⟨hbind, hrest⟩ := Option.filter_eq_some_iff.1 h
  obtain ⟨s₁, hsend, hwalk⟩ := Option.bind_eq_some_iff.1 hbind
  obtain ⟨ms, path⟩ := Path.of_walk? hwalk
  exact ⟨ms, s₁, hsend, path, of_decide_eq_true hrest⟩

end System

/-! ### Playing a script -/

/-- Where the EMM task is in a script: what it has still to publish, and how its handler has ended
once it has. -/
inductive EmmPhase.Plays (outcome : Outcome) :
    EmmPhase → List Notification → Option Outcome → Prop
  | publishing {ue : UeId} {n : Notification} {next : Resumption} {ns : List Notification}
      (h : (Progress.publish n next).script? = some (ns, outcome)) :
      Plays outcome (.publishing ue n next) ns none
  | ended : Plays outcome .receiving [] (some outcome)

namespace Channel

variable {α : Type} {c : Channel α}

theorem Live.send_eq_ok (hc : c.Live) {e : Envelope α} (hroom : c.queue.length < c.capacity) :
    c.send e = .ok { c with queue := c.queue ++ [e] } := by
  simp [send, hc.isOpen, hc.hasSender, hroom]

end Channel

namespace System

variable {s s' : System}

theorem plays_phaseAfter (ue : UeId) {p : Progress} {ns : List Notification} {outcome : Outcome}
    (h : p.script? = some (ns, outcome)) : (phaseAfter ue p).Plays outcome ns p.outcome? := by
  cases p with
  | publish n next => exact .publishing h
  | done outcome' =>
      obtain ⟨rfl, rfl, hsound⟩ := Progress.script?_done h
      cases outcome with
      | crashed crash => exact absurd rfl (hsound crash)
      | _ => exact .ended

theorem inbox_follow_of_script (s : System) (ue : UeId) {p : Progress}
    {script : List Notification × Outcome} (h : p.script? = some script) :
    (s.follow ue p).inbox = s.inbox := by
  rw [inbox_follow]
  split
  · cases h
  · rfl

theorem alike_follow {m : Mme} (hm : m.Alike s.mme) (ue : UeId) (p : Progress) :
    m.Alike (s.follow ue p).mme := by
  rcases mme_follow s ue p with h | ⟨e, h⟩
  · rwa [h]
  · rw [h]
    exact hm.trans (s.mme.alike_emit e)

theorem Running.of_still (hs : s.Running) (hconfig : s'.config = s.config)
    (hstill : s.mme.timers.Still s'.mme.timers) (hinbox : s'.inbox.Live)
    (hinboxRoom : s'.inbox.capacity = s.inbox.capacity) (hbus : s'.bus.Live)
    (hbusRoom : s'.bus.capacity = s.bus.capacity) (happlication : s'.appRunning = s.appRunning)
    (hexpiries : s'.expiries = s.expiries) : s'.Running where
  config := by rw [hconfig, hs.config]
  retry := by
    rw [hconfig, hstill.now]
    exact hs.retry
  inbox := hinbox
  inboxRoom := by
    rw [hinboxRoom]
    exact hs.inboxRoom
  bus := hbus
  busRoom := by
    rw [hbusRoom]
    exact hs.busRoom
  application := happlication.trans hs.application
  expiries := hexpiries.trans hs.expiries
  undue a ha := by
    rw [Bool.eq_false_iff]
    intro hdue
    have hbefore : s.mme.timers.isDue a = true := by
      simpa [Timers.isDue, hstill.now] using hdue
    rw [hs.undue a (hstill.due a ha hdue)] at hbefore
    cases hbefore

theorem Running.follow (hs : s.Running) (ue : UeId) {p : Progress}
    {script : List Notification × Outcome} (h : p.script? = some script) :
    (s.follow ue p).Running := by
  have hinbox := inbox_follow_of_script s ue h
  refine hs.of_still (config_follow _ _ _) ?_ ?_ ?_ ?_ ?_ (appRunning_follow _ _ _)
    (expiries_follow _ _ _)
  · rw [timers_follow]
    exact .refl _
  · rw [hinbox]
    exact hs.inbox
  · rw [hinbox]
  · rw [bus_follow]
    exact hs.bus
  · rw [bus_follow]

/-- A script that began in `m₀` is being played: so much of it has been taken, so much waits in the
channel, and so much is still to be published. -/
structure Plays (m₀ : Mme) (script : List Notification × Outcome) (ms : List Moment)
    (s : System) : Prop where
  running : s.Running
  inboxEmpty : s.inbox.queue = []
  progress : ∃ queued coming,
    s.bus.queue = queued.map .message ∧ takenIn ms ++ (queued ++ coming) = script.1 ∧
      ms.length = 1 + 2 * (takenIn ms).length + queued.length ∧
      ∃ ended, s.emm.Plays script.2 coming ended ∧ outcomesIn ms = ended.toList
  alike : (m₀.applyAll (takenIn ms)).Alike s.mme

variable {m₀ : Mme} {script : List Notification × Outcome} {ms : List Moment} {a : Move}

theorem plays_follow (queued : List Notification) {coming : List Notification} {p : Progress}
    (hs : s.Running) (hempty : s.inbox.queue = []) (ue : UeId)
    (hscript : p.script? = some (coming, script.2))
    (hqueue : s.bus.queue = queued.map .message)
    (hparts : takenIn ms ++ (queued ++ coming) = script.1)
    (hlength : ms.length = 1 + 2 * (takenIn ms).length + queued.length)
    (houtcomes : outcomesIn ms = p.outcome?.toList)
    (halike : (m₀.applyAll (takenIn ms)).Alike s.mme) : Plays m₀ script ms (s.follow ue p) where
  running := hs.follow ue hscript
  inboxEmpty := by
    rw [inbox_follow_of_script _ _ hscript]
    exact hempty
  progress := by
    refine ⟨queued, coming, ?_, hparts, hlength, p.outcome?, ?_, houtcomes⟩
    · rw [bus_follow]
      exact hqueue
    · rw [emm_follow]
      exact plays_phaseAfter ue hscript
  alike := alike_follow halike ue p

theorem publish?_of_live (hbus : s.bus.Live) (h : s.publish? = some s') :
    ∃ ue n next turn, s.emm = .publishing ue n next ∧
      turn = (s.mme.emit (.exchanged .sent n.primitive n.ue)).resume s.config n next .accepted ∧
      Moment.outcome? ⟨s, .publish, s'⟩ = turn.2.outcome? ∧
      s' = { s with
        mme := turn.1
        bus := { s.bus with queue := s.bus.queue ++ [Envelope.message n] } }.follow ue turn.2 := by
  obtain ⟨ue, n, next, s₁, d, hemm, hoffer, rfl⟩ := publish?_eq_some h
  obtain ⟨bus, hsend, rfl, rfl⟩ | ⟨hclosed, _⟩ := offer?_eq_some hoffer
  · obtain ⟨_, _, _, rfl⟩ := Channel.send_eq_ok hsend
    refine ⟨ue, n, next, _, hemm, rfl, ?_, rfl⟩
    simp only [Moment.outcome?, hemm, hoffer, Option.bind_some]
    rfl
  · exact absurd hclosed hbus.send_ne_closed

theorem plays_publish (hs : Plays m₀ script ms s) (hstep : s.step? .publish = some s') :
    Plays m₀ script (ms ++ [⟨s, .publish, s'⟩]) s' := by
  obtain ⟨ue, n, next, turn, hemm, hturn, houtcome, hs'⟩ :=
    publish?_of_live hs.running.bus hstep
  obtain ⟨queued, coming, hqueue, hparts, hlength, ended, hphase, hended⟩ := hs.progress
  rw [hemm] at hphase
  obtain ⟨hscript⟩ | _ := hphase
  obtain ⟨rest, hnext, rfl⟩ := Progress.script?_publish.1 hscript
  have hrest : turn.2.script? = some (rest, script.2) := by
    rw [hturn]
    exact Mme.resume_script _ n hs.running.retry hnext
  have hstill : s.mme.timers.Still turn.1.timers := by
    obtain ⟨ht3470, hretry⟩ := s.config.intervals_pos hs.running.config
    rw [hturn]
    exact Mme.still_resume (s.mme.emit _) ht3470 hretry n next .accepted
  have halike : s.mme.Alike turn.1 := by
    rw [hturn]
    exact (s.mme.alike_emit _).trans (Mme.alike_resume _ s.config n next .accepted)
  have htaken : takenIn (ms ++ [⟨s, .publish, s'⟩]) = takenIn ms := by
    simp [takenIn_snoc, Moment.taken?]
  have houtcomes : outcomesIn (ms ++ [⟨s, .publish, s'⟩]) = turn.2.outcome?.toList := by
    rw [outcomesIn_snoc, houtcome, hended]
    rfl
  rw [hs'] at htaken houtcomes ⊢
  have hrunning : System.Running { s with
      mme := turn.1
      bus := { s.bus with queue := s.bus.queue ++ [Envelope.message n] } } :=
    hs.running.of_still rfl hstill hs.running.inbox rfl (hs.running.bus.push n) rfl rfl rfl
  refine plays_follow (queued ++ [n]) hrunning hs.inboxEmpty ue hrest ?_ ?_ ?_ houtcomes ?_
  · rw [hqueue, List.map_append]
    rfl
  · rw [htaken, List.append_assoc]
    exact hparts
  · rw [htaken]
    simp only [List.length_append, List.length_singleton]
    omega
  · rw [htaken]
    exact hs.alike.trans halike

theorem takeNotification?_of_queue (happlication : s.appRunning = true) {n : Notification}
    {rest : List (Envelope Notification)} (hqueue : s.bus.queue = .message n :: rest) :
    s.takeNotification? =
      some ({ s with bus := { s.bus with queue := rest } }.applyNotification n) := by
  simp [takeNotification?, happlication, Channel.receive, hqueue]

theorem plays_take (hs : Plays m₀ script ms s) (hstep : s.step? .take = some s') :
    Plays m₀ script (ms ++ [⟨s, .take, s'⟩]) s' := by
  obtain ⟨hemm, hinbox, hexpiries, hconfig, ⟨n, rest, hqueue, hmme, hbus⟩ | ⟨hover, _⟩⟩ :=
    takeNotification?_eq_some hstep
  · obtain ⟨queued, coming, hqueued, hparts, hlength, ended, hphase, hended⟩ := hs.progress
    obtain ⟨queued, rfl, rfl⟩ : ∃ queued', queued = n :: queued' ∧ rest = queued'.map .message := by
      rw [hqueue] at hqueued
      cases queued with
      | nil => cases hqueued
      | cons n' queued =>
          cases hqueued
          exact ⟨queued, rfl, rfl⟩
    have htaken : takenIn (ms ++ [⟨s, .take, s'⟩]) = takenIn ms ++ [n] := by
      simp [takenIn_snoc, Moment.taken?, hqueue]
    have houtcomes : outcomesIn (ms ++ [⟨s, .take, s'⟩]) = outcomesIn ms := by
      simp [outcomesIn_snoc, Moment.outcome?]
    have happlication : s'.appRunning = s.appRunning := by
      have htake : s.takeNotification? = some s' := hstep
      rw [takeNotification?_of_queue hs.running.application hqueue] at htake
      cases htake
      unfold applyNotification
      split <;> rfl
    constructor
    · refine hs.running.of_still hconfig ?_ ?_ ?_ ?_ ?_ happlication hexpiries
      · rw [hmme]
        exact s.mme.still_apply n
      · rw [hinbox]
        exact hs.running.inbox
      · rw [hinbox]
      · rw [hbus]
        exact hs.running.bus.rest hqueue
      · rw [hbus]
    · rw [hinbox]
      exact hs.inboxEmpty
    · refine ⟨queued, coming, ?_, ?_, ?_, ended, ?_, houtcomes.trans hended⟩
      · rw [hbus]
      · rw [htaken, List.append_assoc]
        exact hparts
      · rw [htaken]
        simp only [List.length_append, List.length_cons, List.length_nil] at hlength ⊢
        omega
      · rw [hemm]
        exact hphase
    · rw [htaken, hmme, Mme.applyAll, List.foldl_append]
      exact hs.alike.apply n
  · exact absurd hover hs.running.bus.not_over

theorem Running.not_fire_or_deliver (hs : s.Running) (hstep : s.step? a = some s') :
    (∀ timer, a ≠ .fire timer) ∧ a ≠ .deliver := by
  constructor
  · rintro timer rfl
    obtain ⟨b, hb, _, hdue, _⟩ := fireOne?_eq_some hstep
    cases (hs.undue b hb).symm.trans hdue
  · rintro rfl
    obtain ⟨e, rest, hexpiries, _⟩ := deliverExpiry?_eq_some hstep
    cases hs.expiries.symm.trans hexpiries

theorem Plays.publish_or_take (hs : Plays m₀ script ms s) (hok : s.OfProgram a)
    (hstep : s.step? a = some s') : a = .publish ∨ a = .take := by
  obtain ⟨hfire, hdeliver⟩ := hs.running.not_fire_or_deliver hstep
  cases a with
  | receive =>
      obtain ⟨_, ⟨msg, rest, hqueue, _⟩ | ⟨hover, _⟩⟩ := receive?_eq_some hstep
      · cases hs.inboxEmpty.symm.trans hqueue
      · exact absurd hover hs.running.inbox.not_over
  | publish => exact .inl rfl
  | take => exact .inr rfl
  | fire timer => exact absurd rfl (hfire timer)
  | deliver => exact absurd rfl hdeliver
  | _ => exact hok.elim

theorem plays_step (hs : Plays m₀ script ms s) (hok : s.OfProgram a)
    (hstep : s.step? a = some s') : Plays m₀ script (ms ++ [⟨s, a, s'⟩]) s' := by
  obtain rfl | rfl := hs.publish_or_take hok hstep
  · exact plays_publish hs hstep
  · exact plays_take hs hstep

def turnOf (s : System) (msg : Message) : Mme × Progress :=
  (s.mme.emit (.exchanged .received msg.primitive msg.ue)).begin s.config msg

variable {msg : Message}

def addressed (s : System) (msg : Message) : System :=
  { s with inbox := { s.inbox with queue := [.message msg] } }

theorem sent_of_atRest (hs : s.AtRest) (msg : Message) :
    s.step? (.send msg) = some (s.addressed msg) := by
  have hroom : s.inbox.queue.length < s.inbox.capacity := by
    rw [hs.inboxEmpty]
    exact hs.inboxRoom
  simp [step?, hs.inbox.send_eq_ok hroom, hs.inboxEmpty, Except.toOption, addressed]

theorem running_addressed (hs : s.AtRest) (msg : Message) : (s.addressed msg).Running :=
  hs.toRunning.of_still rfl (.refl _)
    ⟨hs.inbox.isOpen, hs.inbox.hasSender, by simp [addressed]⟩ rfl hs.bus rfl rfl rfl

theorem first_move (hs : s.AtRest) (hok : (s.addressed msg).OfProgram a)
    (hstep : (s.addressed msg).step? a = some s') :
    a = .receive ∧ s' = { s with
      mme := (s.turnOf msg).1
      inbox := { s.inbox with queue := [] }
      handled := s.handled + 1 }.follow msg.ue (s.turnOf msg).2 := by
  obtain ⟨hfire, hdeliver⟩ := (running_addressed hs msg).not_fire_or_deliver hstep
  cases a with
  | receive =>
      refine ⟨rfl, ?_⟩
      have hreceived : receive? _ = some s' := hstep
      simp only [receive?, addressed, hs.emm, Channel.receive, Option.some.injEq] at hreceived
      rw [← hreceived, beginMessage_eq]
      rfl
  | publish =>
      obtain ⟨ue, n, next, _, _, hemm, _⟩ := publish?_eq_some hstep
      cases hs.emm.symm.trans hemm
  | take =>
      obtain ⟨_, _, _, _, ⟨n, rest, hqueue, _⟩ | ⟨hover, _⟩⟩ := takeNotification?_eq_some hstep
      · cases hs.busEmpty.symm.trans hqueue
      · exact absurd hover hs.bus.not_over
  | fire timer => exact absurd rfl (hfire timer)
  | deliver => exact absurd rfl hdeliver
  | _ => exact hok.elim

theorem plays_begin (hs : s.AtRest) (hscript : (s.turnOf msg).2.script? = some script)
    (hok : (s.addressed msg).OfProgram a) (hstep : (s.addressed msg).step? a = some s') :
    Plays (s.turnOf msg).1 script [⟨s.addressed msg, a, s'⟩] s' := by
  obtain ⟨rfl, hs'⟩ := first_move hs hok hstep
  have hstill : s.mme.timers.Still (s.turnOf msg).1.timers :=
    Mme.still_begin (s.mme.emit _) s.config msg
  have houtcomes : outcomesIn [⟨s.addressed msg, .receive, s'⟩] =
      (s.turnOf msg).2.outcome?.toList := by
    have houtcome : Moment.outcome? ⟨s.addressed msg, .receive, s'⟩ =
        (s.turnOf msg).2.outcome? := by
      simp only [Moment.outcome?, addressed, hs.emm]
      rfl
    rw [← List.nil_append [_], outcomesIn_snoc, houtcome]
    rfl
  have htaken : takenIn [⟨s.addressed msg, .receive, s'⟩] = [] := rfl
  rw [hs'] at houtcomes htaken ⊢
  have hrunning : System.Running { s with
      mme := (s.turnOf msg).1
      inbox := { s.inbox with queue := [] }
      handled := s.handled + 1 } :=
    hs.toRunning.of_still rfl hstill ⟨hs.inbox.isOpen, hs.inbox.hasSender, by simp⟩ rfl hs.bus rfl
      rfl rfl
  refine plays_follow [] hrunning rfl msg.ue hscript hs.busEmpty ?_ ?_ houtcomes ?_
  · rw [htaken]
    rfl
  · rw [htaken]
    rfl
  · rw [htaken]
    exact .refl _

theorem plays_of_path (hs : s.AtRest) (hscript : (s.turnOf msg).2.script? = some script)
    (path : Path OfProgram (s.addressed msg) ms s') :
    ms = [] ∧ s' = s.addressed msg ∨ Plays (s.turnOf msg).1 script ms s' := by
  induction path with
  | nil => exact .inl ⟨rfl, rfl⟩
  | snoc _ hok hstep ih =>
      right
      obtain ⟨rfl, rfl⟩ | hplays := ih
      · exact plays_begin hs hscript hok hstep
      · exact plays_step hplays hok hstep

theorem Exchange.path (h : Exchange msg s ms s') (hs : s.AtRest) :
    Path OfProgram (s.addressed msg) ms s' ∧ s'.AtRest ∧ ms ≠ [] := by
  obtain ⟨s₁, hsend, path, hrest⟩ := h
  rw [sent_of_atRest hs msg] at hsend
  cases hsend
  refine ⟨path, hrest, fun hms => ?_⟩
  cases path with
  | nil => cases hrest.inboxEmpty
  | snoc _ _ _ => simp at hms

/-- When a system is at rest again after a message, the whole script of its handler has been played
and taken. -/
theorem exchange_plays (hs : s.AtRest) (hscript : (s.turnOf msg).2.script? = some script)
    (h : Exchange msg s ms s') :
    takenIn ms = script.1 ∧ outcomesIn ms = [script.2] ∧
      ((s.turnOf msg).1.applyAll script.1).Alike s'.mme := by
  obtain ⟨path, hrest, hms⟩ := h.path hs
  obtain ⟨hnone, _⟩ | hplays := plays_of_path hs hscript path
  · exact absurd hnone hms
  · obtain ⟨queued, coming, hqueue, hparts, _, ended, hphase, hended⟩ := hplays.progress
    rw [hrest.emm] at hphase
    cases hphase
    have hnone : queued = [] := by
      rw [hrest.busEmpty] at hqueue
      cases queued with
      | nil => rfl
      | cons n queued => cases hqueue
    have htaken : takenIn ms = script.1 := by
      rw [← hparts, hnone]
      simp
    rw [← htaken]
    exact ⟨rfl, hended, hplays.alike⟩

theorem Plays.rest_or_step (hs : Plays m₀ script ms s) :
    s.AtRest ∨ ∃ a s', s.OfProgram a ∧ s.step? a = some s' := by
  obtain ⟨queued, coming, hqueue, _, _, ended, hphase, _⟩ := hs.progress
  cases queued with
  | cons n queued =>
      exact .inr ⟨.take, _, trivial, takeNotification?_of_queue hs.running.application hqueue⟩
  | nil =>
      generalize hemm : s.emm = phase at hphase
      cases hphase with
      | ended => exact .inl ⟨hs.running, hemm, hs.inboxEmpty, hqueue⟩
      | publishing _ =>
          have hroom : s.bus.queue.length < s.bus.capacity := by
            rw [hqueue]
            exact hs.running.busRoom
          have hpublished : (s.step? .publish).isSome := by
            simp only [step?, publish?, hemm, offer?, hs.running.bus.send_eq_ok hroom]
            rfl
          obtain ⟨s', hstep⟩ := Option.isSome_iff_exists.1 hpublished
          exact .inr ⟨.publish, s', trivial, hstep⟩

theorem Plays.length_le (hs : Plays m₀ script ms s) : ms.length ≤ 1 + 2 * script.1.length := by
  obtain ⟨queued, coming, _, hparts, hlength, _⟩ := hs.progress
  have hsum := congrArg List.length hparts
  simp only [List.length_append] at hsum
  omega

theorem Plays.comes_to_rest (hs : Plays m₀ script ms s) :
    ∃ ms' s', Path OfProgram s ms' s' ∧ s'.AtRest := by
  -- By induction on how many moves there may still be.
  obtain ⟨k, hk⟩ : ∃ k, ms.length + k = 1 + 2 * script.1.length :=
    ⟨_, Nat.add_sub_of_le hs.length_le⟩
  induction k generalizing ms s with
  | zero =>
      obtain hrest | ⟨a, s', hok, hstep⟩ := hs.rest_or_step
      · exact ⟨[], s, .nil, hrest⟩
      · have hlonger := (plays_step hs hok hstep).length_le
        simp only [List.length_append, List.length_singleton] at hlonger
        omega
  | succ k ih =>
      obtain hrest | ⟨a, s', hok, hstep⟩ := hs.rest_or_step
      · exact ⟨[], s, .nil, hrest⟩
      · obtain ⟨ms', s'', path, hrest⟩ := ih (plays_step hs hok hstep) (by simp; omega)
        exact ⟨_, s'', .cons hok hstep path, hrest⟩

/-- The message can be sent, and whichever moves then come first, there are few of them, and they
end with the system at rest. -/
def ComesToRest (s : System) (msg : Message) : Prop :=
  ∃ s₁, s.step? (.send msg) = some s₁ ∧
    ∀ ms s₂, Path OfProgram s₁ ms s₂ →
      ms.length ≤ 5 ∧ ∃ ms' s', Path OfProgram s₂ ms' s' ∧ s'.AtRest

theorem comes_to_rest (hs : s.AtRest) (hmsg : msg.expiry? = none) : ComesToRest s msg := by
  obtain ⟨script, hscript⟩ :=
    Option.isSome_iff_exists.1 (Mme.begin_script (s.mme.emit _) s.config hmsg)
  refine ⟨_, sent_of_atRest hs msg, fun ms s₂ path => ?_⟩
  obtain ⟨rfl, rfl⟩ | hplays :=
    plays_of_path hs hscript path
  · have hreceived : ((s.addressed msg).step? .receive).isSome := by
      simp only [step?, receive?, addressed, hs.emm, Channel.receive]
      rfl
    obtain ⟨s', hstep⟩ := Option.isSome_iff_exists.1 hreceived
    have hok : (s.addressed msg).OfProgram .receive := trivial
    have hplays := plays_begin hs hscript hok hstep
    obtain ⟨ms', s'', path, hrest⟩ := hplays.comes_to_rest
    exact ⟨Nat.zero_le 5, _, s'', .cons hok hstep path, hrest⟩
  · refine ⟨?_, hplays.comes_to_rest⟩
    have hlength := hplays.length_le
    have hshort := Progress.length_script hscript
    omega

end System

end Emm
