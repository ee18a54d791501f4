import Emm.Service
import Emm.Proofs.Ending
import Emm.Proofs.Exchange
import Emm.Proofs.Quiescence

/-!
What a shutdown does not lose. Both tasks take what was sent to them in the order in which it was
sent, up to the request to stop; and the application task is asked only when the EMM task publishes
no more.

Main statement: `orderly_of_run`.
-/

namespace Emm

/-- How near a task is to its end. -/
inductive Standing
  | working
  | asked
  | stopped
deriving DecidableEq

/-- The channel to a task, which has `taken` of what was `sent` before the request to stop. -/
inductive Channel.Holds {α : Type} (c : Channel α) (running stopped : Prop) (sent taken : List α) :
    Standing → Prop
  | working {rest : List α} (hrunning : running) (hopen : c.isOpen = true)
      (hsender : c.hasSender = true) (hqueue : c.queue = rest.map .message)
      (hsent : sent = taken ++ rest) : Holds c running stopped sent taken .working
  | asked {rest : List α} {behind : List (Envelope α)} (hrunning : running)
      (hopen : c.isOpen = true) (hsender : c.hasSender = true)
      (hqueue : c.queue = rest.map .message ++ .shutdown :: behind) (hsent : sent = taken ++ rest) :
      Holds c running stopped sent taken .asked
  | stopped (hstopped : stopped) (hsent : sent = taken) :
      Holds c running stopped sent taken .stopped

namespace Channel.Holds

variable {α : Type} {c c' : Channel α} {running running' stopped stopped' : Prop}
  {sent taken : List α} {x : Standing} {a : α}

theorem mono (h : c.Holds running stopped sent taken x) (hrunning : running → running')
    (hstopped : stopped → stopped') : c.Holds running' stopped' sent taken x := by
  cases h with
  | working h hopen hsender hqueue hsent => exact .working (hrunning h) hopen hsender hqueue hsent
  | asked h hopen hsender hqueue hsent => exact .asked (hrunning h) hopen hsender hqueue hsent
  | stopped h hsent => exact .stopped (hstopped h) hsent

theorem live (h : c.Holds running stopped sent taken .working) : c.Live := by
  cases h with
  | working _ hopen hsender hqueue _ => exact ⟨hopen, hsender, by simp [hqueue]⟩

theorem take (h : c.Holds running stopped sent taken x) (hstill : ¬stopped)
    {rest : List (Envelope α)} (hqueue : c.queue = .message a :: rest) (hrunning : running') :
    Channel.Holds { c with queue := rest } running' stopped' sent (taken ++ [a]) x := by
  cases h with
  | @working ahead _ hopen hsender hahead hsent =>
      cases ahead with
      | nil => cases hahead.symm.trans hqueue
      | cons b ahead =>
          cases hahead.symm.trans hqueue
          exact .working hrunning hopen hsender rfl (by simp [hsent])
  | @asked ahead behind _ hopen hsender hahead hsent =>
      cases ahead with
      | nil => cases hahead.symm.trans hqueue
      | cons b ahead =>
          cases hahead.symm.trans hqueue
          exact .asked hrunning hopen hsender rfl (by simp [hsent])
  | stopped h _ => exact absurd h hstill

theorem taken_of_over (h : c.Holds running stopped sent taken x) (hstill : ¬stopped)
    (hover : c.Over) : x = .asked ∧ sent = taken := by
  cases h with
  | @working ahead _ _ hsender hahead _ =>
      rcases hover with ⟨rest, hqueue⟩ | ⟨_, hnone⟩
      · cases ahead <;> cases hahead.symm.trans hqueue
      · cases hsender.symm.trans hnone
  | @asked ahead behind _ _ hsender hahead hsent =>
      rcases hover with ⟨rest, hqueue⟩ | ⟨_, hnone⟩
      · cases ahead with
        | nil => exact ⟨rfl, by simp [hsent]⟩
        | cons b ahead => cases hahead.symm.trans hqueue
      · cases hsender.symm.trans hnone
  | stopped h _ => exact absurd h hstill

theorem push (h : c.Holds running stopped sent taken .working)
    (hsend : c.send (.message a) = .ok c') :
    c'.Holds running stopped (sent ++ [a]) taken .working := by
  obtain ⟨_, _, _, rfl⟩ := send_eq_ok hsend
  cases h with
  | @working rest hrunning hopen hsender hqueue hsent =>
      have hpushed : c.queue ++ [.message a] = (rest ++ [a]).map .message := by simp [hqueue]
      exact .working hrunning hopen hsender hpushed (by simp [hsent])

theorem ask (h : c.Holds running stopped sent taken .working)
    (hsend : c.send .shutdown = .ok c') : c'.Holds running stopped sent taken .asked := by
  obtain ⟨_, _, _, rfl⟩ := send_eq_ok hsend
  cases h with
  | working hrunning hopen hsender hqueue hsent =>
      exact .asked hrunning hopen hsender (by rw [hqueue]) hsent

theorem push_behind (h : c.Holds running stopped sent taken x) (hx : x ≠ .working)
    {e : Envelope α} (hsend : c.send e = .ok c') : c'.Holds running stopped sent taken x := by
  obtain ⟨_, _, _, rfl⟩ := send_eq_ok hsend
  cases h with
  | working => exact absurd rfl hx
  | @asked rest behind hrunning hopen hsender hqueue hsent =>
      have hpushed : c.queue ++ [e] = rest.map .message ++ .shutdown :: (behind ++ [e]) := by
        simp [hqueue]
      exact .asked hrunning hopen hsender hpushed hsent
  | stopped hstopped hsent => exact .stopped hstopped hsent

theorem initial (h : c.Holds running stopped sent taken x) : taken <+: sent := by
  cases h with
  | @working rest _ _ _ _ hsent | @asked rest _ _ _ _ _ hsent => exact ⟨rest, hsent.symm⟩
  | stopped _ hsent => exact hsent ▸ List.prefix_rfl

theorem all_taken (h : c.Holds running stopped sent taken x) (hended : ¬running) :
    x = .stopped ∧ taken = sent := by
  cases h with
  | working hrunning | asked hrunning => exact absurd hrunning hended
  | stopped _ hsent => exact ⟨rfl, hsent.symm⟩

theorem start (hc : c.Live) (hrunning : running) :
    c.Holds running stopped (c.queue.filterMap (·.payload?)) [] .working := by
  refine .working hrunning hc.isOpen hc.hasSender ?_ rfl
  have hunasked := hc.unasked
  generalize c.queue = queue at hunasked
  induction queue with
  | nil => rfl
  | cons e queue ih =>
      simp only [List.mem_cons, not_or] at hunasked
      cases e with
      | message b => simpa [Envelope.payload?] using ih hunasked.2
      | shutdown => exact absurd rfl hunasked.1

end Channel.Holds

/-! ### The course of a shutdown -/

/-- The move of a task or of a timer, or of somebody who leaves the channels alone. -/
def Move.SparesChannels : Move → Prop
  | receive | publish | take | fire _ | advance _ | tearDown _ | act _ => True
  | discard | deliver | send _ | askEmmToStop | askAppToStop | closeBus => False

instance : (a : Move) → Decidable a.SparesChannels
  | .receive | .publish | .take | .fire _ | .advance _ | .tearDown _ | .act _ => .isTrue trivial
  | .discard | .deliver | .send _ | .askEmmToStop | .askAppToStop | .closeBus => .isFalse id

def Moment.received? (x : Moment) : Option Message :=
  match x.move, x.before.inbox.queue with
  | .receive, .message msg :: _ => some msg
  | _, _ => none

/-- Whether a handler is suspended. -/
def EmmPhase.handlers : EmmPhase → Nat
  | .publishing .. => 1
  | .receiving | .stopped | .crashed _ => 0

namespace System

/-- What the EMM task has taken, the earliest first. -/
def receivedIn (ms : List Moment) : List Message := ms.filterMap Moment.received?

/-- What the EMM task has published, the earliest first. -/
def publishedIn (ms : List Moment) : List Notification := ms.filterMap Moment.published?

/-- Both channels, with what has been sent to either task and what the task has taken of it. -/
structure Carries (s : System) (sent received : List Message)
    (published taken : List Notification) (x y : Standing) : Prop where
  inbox : s.inbox.Holds s.emm.IsRunning (s.emm = .stopped) sent received x
  bus : s.bus.Holds (s.appRunning = true) (s.appRunning = false) published taken y

variable {s s' : System} {a : Move} {sent received : List Message}
  {published taken : List Notification} {x y : Standing}

theorem appRunning_of_step (htake : a ≠ .take) (hstep : s.step? a = some s') :
    s'.appRunning = s.appRunning := by
  cases uptake_of_step hstep with
  | still _ _ happ | published _ _ happ | discarded _ _ happ | asked _ _ _ happ | closed _ happ =>
      exact happ
  | taken | stopped => exact absurd rfl htake

theorem expiries_of_step (hok : a.SparesChannels) (hstep : s.step? a = some s') :
    s.expiries.length ≤ s'.expiries.length := by
  by_cases hreceive : a = .receive
  · subst hreceive
    obtain ⟨_, ⟨msg, rest, _, rfl⟩ | ⟨_, _, _, _, _, hexpiries⟩⟩ := receive?_eq_some hstep
    · rw [expiries_beginMessage]
    · rw [hexpiries]
  by_cases hpublish : a = .publish
  · subst hpublish
    obtain ⟨ue, n, next, s₁, d, _, hoffer, rfl⟩ := publish?_eq_some hstep
    rw [expiries_resume]
    obtain ⟨bus, _, rfl, _⟩ | ⟨_, rfl, _⟩ := offer?_eq_some hoffer <;> exact Nat.le_refl _
  cases (traffic_of_step hreceive hpublish hstep).2 with
  | still _ hexpiries => rw [hexpiries]
  | fired _ hexpiries => simp [hexpiries]
  | delivered | dropped | sent | asked => exact hok.elim

theorem bus_of_step (hok : a.SparesChannels) (hpublish : a ≠ .publish) (htake : a ≠ .take)
    (hstep : s.step? a = some s') : s'.bus = s.bus := by
  cases uptake_of_step hstep with
  | still _ hbus => exact hbus
  | published => exact absurd rfl hpublish
  | taken | stopped => exact absurd rfl htake
  | discarded | asked | closed => exact hok.elim

theorem received?_of_ne (h : a ≠ .receive) : Moment.received? ⟨s, a, s'⟩ = none := by
  cases a with
  | receive => exact absurd rfl h
  | _ => rfl

theorem taken?_of_ne (h : a ≠ .take) : Moment.taken? ⟨s, a, s'⟩ = none := by
  cases a with
  | take => exact absurd rfl h
  | _ => rfl

theorem outcome_or_handler (ue : UeId) (p : Progress) :
    p.outcome?.toList.length + (phaseAfter ue p).handlers = 1 := by
  cases p with
  | publish n next => rfl
  | done outcome => cases outcome <;> rfl

theorem outcome_of_step (hstep : s.step? a = some s') :
    (Moment.outcome? ⟨s, a, s'⟩).toList.length + s'.emm.handlers =
      (Moment.received? ⟨s, a, s'⟩).toList.length + s.emm.handlers := by
  by_cases hreceive : a = .receive
  · subst hreceive
    obtain ⟨hemm, ⟨msg, rest, hqueue, rfl⟩ | ⟨hover, _, hstopped, _⟩⟩ := receive?_eq_some hstep
    · rw [beginMessage_eq, emm_follow]
      simp only [Moment.outcome?, Moment.received?, hemm, hqueue]
      exact outcome_or_handler _ _
    · have hnothing : ∀ msg rest, s.inbox.queue ≠ .message msg :: rest := hover.queue_ne
      rw [hstopped, hemm]
      simp only [Moment.outcome?, Moment.received?, hemm]
      split
      · rename_i hqueue
        exact absurd hqueue (hnothing _ _)
      · rfl
  by_cases hpublish : a = .publish
  · subst hpublish
    obtain ⟨ue, n, next, s₁, d, hemm, hoffer, rfl⟩ := publish?_eq_some hstep
    rw [resume_eq, emm_follow, hemm]
    simp only [Moment.outcome?, hemm, hoffer, Option.bind_some]
    exact outcome_or_handler _ _
  · rw [received?_of_ne hreceive, (traffic_of_step hreceive hpublish hstep).1]
    cases a with
    | receive => exact absurd rfl hreceive
    | publish => exact absurd rfl hpublish
    | _ => rfl

theorem Carries.not_stopped (h : s.Carries sent received published taken x y) {ue : UeId}
    {n : Notification} {next : Resumption} (hemm : s.emm = .publishing ue n next) :
    x ≠ .stopped := by
  rintro rfl
  cases h.inbox with
  | stopped hstopped _ => cases hemm.symm.trans hstopped

theorem carries_receive (h : s.Carries sent received published taken x y)
    (hstep : s.step? .receive = some s') :
    ∃ x', (x' = x ∨ x = .asked ∧ x' = .stopped) ∧
      s'.Carries sent (received ++ (Moment.received? ⟨s, .receive, s'⟩).toList) published taken x'
        y := by
  have hbus := h.bus
  rw [← appRunning_of_step (a := .receive) (fun h => nomatch h) hstep,
    ← (turn_of_receive hstep).2.1] at hbus
  obtain ⟨hemm, ⟨msg, rest, hqueue, hs'⟩ | ⟨hover, _, hstopped, _⟩⟩ := receive?_eq_some hstep
  · have hrunning : s'.emm.IsRunning := by
      obtain ⟨_, _, ⟨msg, _, e, p, _, hbegun, hphase⟩ | ⟨hover, _⟩⟩ := turn_of_receive hstep
      · rw [hphase]
        exact isRunning_phaseAfter hbegun.isSound
      · exact absurd hqueue (hover.queue_ne _ _)
    have hinbox : s'.inbox = { s.inbox with queue := rest } := by
      rw [hs'] at hrunning ⊢
      exact inbox_beginMessage hrunning
    refine ⟨x, .inl rfl, ?_, hbus⟩
    rw [hinbox]
    simp only [Moment.received?, hqueue]
    exact h.inbox.take (by simp [hemm]) hqueue hrunning
  · obtain ⟨rfl, hall⟩ := h.inbox.taken_of_over (by simp [hemm]) hover
    refine ⟨.stopped, .inr ⟨rfl, rfl⟩, .stopped hstopped ?_, hbus⟩
    simp only [Moment.received?]
    split
    · rename_i hqueue
      exact absurd hqueue (hover.queue_ne _ _)
    · simp [hall]

theorem carries_publish (h : s.Carries sent received published taken x .working)
    (hretry : (s.mme.timers.now.after? s.config.retryInterval).isSome)
    (hstep : s.step? .publish = some s') :
    ∃ n, Moment.published? ⟨s, .publish, s'⟩ = some n ∧
      s'.Carries sent received (published ++ [n]) taken x .working := by
  obtain ⟨ue, n, next, m, p, hemm, _, htimers, hresumed, hphase, hsend⟩ :=
    turn_of_accepted h.bus.live hstep
  rw [← htimers] at hretry
  have hrunning : s'.emm.IsRunning := by
    rw [hphase]
    exact isRunning_phaseAfter (hresumed.isSound hretry)
  have hinbox : s'.inbox = s.inbox := by
    obtain ⟨_, _, _, s₁, d, _, hoffer, rfl⟩ := publish?_eq_some hstep
    rw [inbox_resume hrunning]
    obtain ⟨bus, _, rfl, _⟩ | ⟨_, rfl, _⟩ := offer?_eq_some hoffer <;> rfl
  refine ⟨n, published?_of_sent hemm hsend, ?_, ?_⟩
  · rw [hinbox]
    exact h.inbox.mono (fun _ => hrunning) fun hstopped => by simp [hemm] at hstopped
  · rw [appRunning_of_step (a := .publish) (fun h => nomatch h) hstep]
    exact h.bus.push hsend

theorem carries_take (h : s.Carries sent received published taken x y)
    (hstep : s.step? .take = some s') :
    ∃ y', (y' = y ∨ y = .asked ∧ y' = .stopped) ∧
      s'.Carries sent received published (taken ++ (Moment.taken? ⟨s, .take, s'⟩).toList) x
        y' := by
  have hinbox := h.inbox
  obtain ⟨hemm, hsame, _⟩ := takeNotification?_eq_some hstep
  rw [← hemm, ← hsame] at hinbox
  cases uptake_of_step hstep with
  | still htake => exact absurd rfl htake
  | taken hrunning hqueue hbus happ =>
      refine ⟨y, .inl rfl, hinbox, ?_⟩
      rw [hbus]
      simp only [Moment.taken?, hqueue]
      exact h.bus.take (by simp [hrunning]) hqueue happ
  | stopped hrunning hover _ happ =>
      obtain ⟨rfl, hall⟩ := h.bus.taken_of_over (by simp [hrunning]) hover
      refine ⟨.stopped, .inr ⟨rfl, rfl⟩, hinbox, .stopped happ ?_⟩
      simp only [Moment.taken?]
      split
      · rename_i hqueue
        exact absurd hqueue (hover.queue_ne _ _)
      · simp [hall]

theorem carries_aside (h : s.Carries sent received published taken x y) (hok : a.SparesChannels)
    (hreceive : a ≠ .receive) (hpublish : a ≠ .publish) (htake : a ≠ .take)
    (hstep : s.step? a = some s') : s'.Carries sent received published taken x y := by
  obtain ⟨hemm, htraffic⟩ := traffic_of_step hreceive hpublish hstep
  have hinbox : s'.inbox = s.inbox := by
    cases htraffic with
    | still hinbox _ | fired hinbox _ => exact hinbox
    | delivered | dropped | sent | asked => exact hok.elim
  constructor
  · rw [hemm, hinbox]
    exact h.inbox
  · rw [bus_of_step hok hpublish htake hstep, appRunning_of_step htake hstep]
    exact h.bus

/-- A task stops only when it has been asked to, and until then what it takes and what is published
come on top of what was there. -/
theorem carries_step (h : s.Carries sent received published taken x y)
    (happ : x ≠ .stopped → y = .working) (hok : a.SparesChannels) (hfits : s.RetryFits a)
    (hstep : s.step? a = some s') :
    ∃ x' y', (x' = x ∨ x = .asked ∧ x' = .stopped) ∧ (y' = y ∨ y = .asked ∧ y' = .stopped) ∧
      s'.Carries sent (received ++ (Moment.received? ⟨s, a, s'⟩).toList)
        (published ++ (Moment.published? ⟨s, a, s'⟩).toList)
        (taken ++ (Moment.taken? ⟨s, a, s'⟩).toList) x' y' := by
  by_cases hreceive : a = .receive
  · subst hreceive
    obtain ⟨x', hx', hcarries⟩ := carries_receive h hstep
    refine ⟨x', y, hx', .inl rfl, ?_⟩
    simpa [published?_of_ne, taken?_of_ne] using hcarries
  by_cases hpublish : a = .publish
  · subst hpublish
    obtain ⟨_, _, _, _, _, hemm, _⟩ := publish?_eq_some hstep
    cases happ (h.not_stopped hemm)
    obtain ⟨n, hpublished, hcarries⟩ := carries_publish h hfits hstep
    refine ⟨x, .working, .inl rfl, .inl rfl, ?_⟩
    simpa [received?_of_ne, taken?_of_ne, hpublished] using hcarries
  rw [received?_of_ne hreceive, published?_of_ne hpublish]
  by_cases htake : a = .take
  · subst htake
    obtain ⟨y', hy', hcarries⟩ := carries_take h hstep
    refine ⟨x, y', .inl rfl, hy', ?_⟩
    simpa using hcarries
  · refine ⟨x, y, .inl rfl, .inl rfl, ?_⟩
    rw [taken?_of_ne htake]
    simpa using carries_aside h hok hreceive hpublish htake hstep

end System

namespace Shutdown

/-- What may happen next while the service shuts down. -/
inductive Turn
  | system (a : Move)
  | join (w : Waiter)
  | enter
  | proceed

def step? (d : Shutdown) : Turn → Option Shutdown
  | .system a => d.onSystem (·.step? a)
  | .join w => some (d.join w)
  | .enter => d.enter?
  | .proceed => d.proceed?

/-- Who has something for the EMM task has to wait in line, and nobody else asks a task to stop. -/
def Admits (d : Shutdown) : Turn → Prop
  | .system a => a.SparesChannels ∧ d.system.RetryFits a
  | .join (.message _) => True
  | .join .expiry => d.line.count .expiry < d.system.expiries.length
  | .join .shutdown => False
  | .enter | .proceed => True

/-- A turn and the states before and after it. -/
structure Event where
  before : Shutdown
  turn : Turn
  after : Shutdown

/-- The ways in which a shutdown may go on from `d₀`. -/
inductive Run (d₀ : Shutdown) : List Event → Shutdown → Prop
  | nil : Run d₀ [] d₀
  | snoc {es : List Event} {d d' : Shutdown} {t : Turn} (run : Run d₀ es d) (hok : d.Admits t)
      (hstep : d.step? t = some d') : Run d₀ (es ++ [⟨d, t, d'⟩]) d'

def Event.moment? (x : Event) : Option Moment :=
  match x.turn with
  | .system a => some ⟨x.before.system, a, x.after.system⟩
  | _ => none

/-- The message that gets into the inbox before the request to stop does. -/
def Event.entered? (x : Event) : Option Message :=
  match x.turn with
  | .enter =>
      if x.before.stage.precedesRequest then
        (x.after.system.inbox.queue.drop x.before.system.inbox.queue.length).head?.bind
          (·.payload?)
      else none
  | _ => none

/-- The moves of the system, the earliest first. -/
def movesIn (es : List Event) : List Moment := es.filterMap Event.moment?

/-- The messages that have got into the inbox before the request to stop, the earliest first. -/
def enteredIn (es : List Event) : List Message := es.filterMap Event.entered?

/-! ### Order -/

/-- Where the two tasks are at each stage. -/
inductive Stage.Places : Stage → Standing → Standing → Prop
  | signalled : Places .signalled .working .working
  | timersStopped : Places .timersStopped .working .working
  | askingEmm : Places .askingEmm .working .working
  | awaitingEmm {x : Standing} (hx : x ≠ .working) : Places .awaitingEmm x .working
  | askingApp : Places .askingApp .stopped .working
  | awaitingApp {y : Standing} (hy : y ≠ .working) : Places .awaitingApp .stopped y
  | ended : Places (.ended (.ok ())) .stopped .stopped

/-- How many requests to the EMM task wait in line. -/
def Stage.requests : Stage → Nat
  | askingEmm => 1
  | _ => 0

/-- A shutdown that began in `d₀` is in order: the tasks stop in turn and have taken what was sent
to them, every notification was accepted, and every message taken has been handled to the end but
the one at hand. -/
structure Orderly (inboxCapacity busCapacity : Nat) (d₀ : Shutdown) (es : List Event)
    (d : Shutdown) : Prop where
  served : d.system.Served inboxCapacity busCapacity
  requests : d.line.count .shutdown = d.stage.requests
  expiries : d.line.count .expiry ≤ d.system.expiries.length
  places : ∃ x y, d.stage.Places x y ∧
    d.system.Carries (d₀.system.inbox.queue.filterMap (·.payload?) ++ enteredIn es)
      (System.receivedIn (movesIn es))
      (d₀.system.bus.queue.filterMap (·.payload?) ++ System.publishedIn (movesIn es))
      (System.takenIn (movesIn es)) x y
  accepted : ∀ x ∈ movesIn es, x.move = .publish → ∃ n, x.published? = some n
  outcomes : (System.outcomesIn (movesIn es)).length + d.system.emm.handlers =
    (System.receivedIn (movesIn es)).length + d₀.system.emm.handlers

namespace Stage.Places

variable {stage : Stage} {x y : Standing}

theorem app_working (h : stage.Places x y) (hx : x ≠ .stopped) : y = .working := by
  cases h with
  | askingApp | awaitingApp | ended => exact absurd rfl hx
  | _ => rfl

theorem emm_stopped (h : stage.Places x y) (hy : y ≠ .working) : x = .stopped := by
  cases h with
  | awaitingApp | ended => rfl
  | _ => exact absurd rfl hy

theorem emm_working_iff (h : stage.Places x y) : x = .working ↔ stage.precedesRequest = true := by
  cases h with
  | awaitingEmm hx => simp [precedesRequest, hx]
  | _ => simp [precedesRequest]

theorem follow {x' y' : Standing} (h : stage.Places x y) (hx : x' = x ∨ x = .asked ∧ x' = .stopped)
    (hy : y' = y ∨ y = .asked ∧ y' = .stopped) : stage.Places x' y' := by
  obtain rfl | ⟨rfl, rfl⟩ := hx
  · obtain rfl | ⟨rfl, rfl⟩ := hy
    · exact h
    · cases h with
      | awaitingApp => exact .awaitingApp (by decide)
  · cases h with
    | awaitingEmm =>
        obtain rfl | ⟨hasked, _⟩ := hy
        · exact .awaitingEmm (by decide)
        · cases hasked

end Stage.Places

variable {d₀ d d' : Shutdown} {es : List Event} {s' : System} {a : Move} {t : Turn}
  {inboxCapacity busCapacity : Nat}

theorem movesIn_system (es : List Event) (d d' : Shutdown) (a : Move) :
    movesIn (es ++ [⟨d, .system a, d'⟩]) = movesIn es ++ [⟨d.system, a, d'.system⟩] :=
  filterMap_snoc _ es _

theorem enteredIn_system (es : List Event) (d d' : Shutdown) (a : Move) :
    enteredIn (es ++ [⟨d, .system a, d'⟩]) = enteredIn es :=
  (filterMap_snoc _ es _).trans (List.append_nil _)

theorem orderly_system (hs : Orderly inboxCapacity busCapacity d₀ es d)
    (hok : d.Admits (.system a)) (hstep : d.system.step? a = some s') :
    Orderly inboxCapacity busCapacity d₀ (es ++ [⟨d, .system a, { d with system := s' }⟩])
      { d with system := s' } := by
  obtain ⟨hspares, hfits⟩ := hok
  obtain ⟨x, y, hplaces, hcarries⟩ := hs.places
  constructor
  · exact System.served_step hstep hs.served
  · exact hs.requests
  · exact hs.expiries.trans (System.expiries_of_step hspares hstep)
  · obtain ⟨x', y', hx', hy', hcarries'⟩ :=
      System.carries_step hcarries hplaces.app_working hspares hfits hstep
    refine ⟨x', y', hplaces.follow hx' hy', ?_⟩
    rw [enteredIn_system, movesIn_system, System.receivedIn, System.publishedIn, filterMap_snoc,
      filterMap_snoc, System.takenIn_snoc, ← List.append_assoc]
    exact hcarries'
  · intro z hz hmove
    rw [movesIn_system, List.mem_append, List.mem_singleton] at hz
    rcases hz with hz | rfl
    · exact hs.accepted z hz hmove
    · cases hmove
      obtain ⟨_, _, _, _, _, hemm, _⟩ := System.publish?_eq_some hstep
      cases hplaces.app_working (hcarries.not_stopped hemm)
      obtain ⟨n, hpublished, _⟩ := System.carries_publish hcarries hfits hstep
      exact ⟨n, hpublished⟩
  · have hends := System.outcome_of_step hstep
    have hbefore := hs.outcomes
    rw [movesIn_system, System.outcomesIn_snoc, System.receivedIn, filterMap_snoc,
      List.length_append, List.length_append]
    rw [System.receivedIn] at hbefore
    change _ + s'.emm.handlers = _
    change _ + _ = (Moment.received? ⟨d.system, a, s'⟩).toList.length + _ at hends
    simp only at hends ⊢
    omega

theorem Orderly.past_tasks {x : Event} (hs : Orderly inboxCapacity busCapacity d₀ es d)
    (hnone : x.moment? = none) (hserved : d'.system.Served inboxCapacity busCapacity)
    (hrequests : d'.line.count .shutdown = d'.stage.requests)
    (hexpiries : d'.line.count .expiry ≤ d'.system.expiries.length)
    (hemm : d'.system.emm = d.system.emm)
    (hplaces : ∃ v w, d'.stage.Places v w ∧
      d'.system.Carries
        (d₀.system.inbox.queue.filterMap (·.payload?) ++ enteredIn es ++ x.entered?.toList)
        (System.receivedIn (movesIn es))
        (d₀.system.bus.queue.filterMap (·.payload?) ++ System.publishedIn (movesIn es))
        (System.takenIn (movesIn es)) v w) :
    Orderly inboxCapacity busCapacity d₀ (es ++ [x]) d' := by
  have hmoves : movesIn (es ++ [x]) = movesIn es := by
    rw [movesIn, filterMap_snoc, hnone]
    exact List.append_nil _
  refine ⟨hserved, hrequests, hexpiries, ?_, ?_, ?_⟩
  · rw [hmoves, enteredIn, filterMap_snoc, ← List.append_assoc]
    exact hplaces
  · rw [hmoves]
    exact hs.accepted
  · rw [hmoves, hemm]
    exact hs.outcomes

theorem orderly_join {w : Waiter} (hs : Orderly inboxCapacity busCapacity d₀ es d)
    (hok : d.Admits (.join w)) :
    Orderly inboxCapacity busCapacity d₀ (es ++ [⟨d, .join w, d.join w⟩]) (d.join w) := by
  have hrequests := hs.requests
  have hexpiries := hs.expiries
  have hplaces := hs.places
  rw [← List.append_nil (_ ++ enteredIn es)] at hplaces
  refine hs.past_tasks rfl hs.served ?_ ?_ rfl hplaces
  · cases w with
    | message msg | expiry => simpa [join] using hrequests
    | shutdown => exact hok.elim
  · cases w with
    | message msg => simpa [join] using hexpiries
    | expiry =>
        change d.line.count .expiry < d.system.expiries.length at hok
        simpa [join] using Nat.succ_le_of_lt hok
    | shutdown => exact hok.elim

/-- What becomes of the first in line. -/
inductive Enters (d : Shutdown) : Shutdown → Prop
  | entered {w : Waiter} {line : List Waiter} {msg : Message} {inbox : Channel Message}
      {expiries : List Expiry} (hline : d.line = w :: line) (hw : w ≠ .shutdown)
      (hexpiries : d.line.count .expiry + expiries.length =
        line.count .expiry + d.system.expiries.length)
      (hsend : d.system.inbox.send (.message msg) = .ok inbox) :
      Enters d { d with system := { d.system with inbox, expiries }, line }
  | asked {line : List Waiter} {inbox : Channel Message} (hline : d.line = .shutdown :: line)
      (hsend : d.system.inbox.send .shutdown = .ok inbox) :
      Enters d { system := { d.system with inbox }, line, stage := .awaitingEmm }
  | dropped {w : Waiter} {line : List Waiter} {msg : Message} {mme : Mme}
      {expiries : List Expiry} (hline : d.line = w :: line) (hw : w ≠ .shutdown)
      (hexpiries : d.line.count .expiry + expiries.length =
        line.count .expiry + d.system.expiries.length)
      (hclosed : d.system.inbox.send (.message msg) = .error .closed) :
      Enters d { d with system := { d.system with mme, expiries }, line }
  | refused {line : List Waiter} (hline : d.line = .shutdown :: line)
      (hclosed : d.system.inbox.send .shutdown = .error .closed) :
      Enters d { d with line, stage := .ended (.error (.channelClosed "EMM")) }

theorem enters_of_enter (h : d.enter? = some d') : Enters d d' := by
  unfold enter? at h
  split at h
  · cases h
  · rename_i msg line hline
    split at h
    · rename_i inbox hsend
      cases h
      exact .entered hline nofun (by simp [hline]) hsend
    · rename_i hclosed
      cases h
      exact .dropped hline nofun (by simp [hline]) hclosed
    · cases h
  · rename_i line hline
    obtain ⟨s', hdeliver, rfl⟩ := Option.map_eq_some_iff.1 h
    obtain ⟨e, rest, hexpiries, ⟨inbox, hsend, rfl⟩ | ⟨hclosed, rfl⟩⟩ :=
      System.deliverExpiry?_eq_some hdeliver
    · refine .entered hline nofun ?_ hsend
      simp [hline, hexpiries]
      omega
    · refine .dropped hline nofun ?_ hclosed
      simp [hline, hexpiries]
      omega
  · rename_i line hline
    split at h
    · rename_i inbox hsend
      cases h
      exact .asked hline hsend
    · rename_i hclosed
      cases h
      exact .refused hline hclosed
    · cases h

theorem emm_live (hs : Orderly inboxCapacity busCapacity d₀ es d)
    (hstage : d.stage.precedesRequest = true) : d.system.inbox.Live := by
  obtain ⟨x, y, hplaces, hcarries⟩ := hs.places
  cases hplaces.emm_working_iff.2 hstage
  exact hcarries.inbox.live

theorem entered?_of_sent {msg : Message} {inbox : Channel Message} {expiries : List Expiry}
    {line : List Waiter} (hsend : d.system.inbox.send (.message msg) = .ok inbox) :
    Event.entered? ⟨d, .enter, { d with system := { d.system with inbox, expiries }, line }⟩ =
      if d.stage.precedesRequest then some msg else none := by
  obtain ⟨_, _, _, rfl⟩ := Channel.send_eq_ok hsend
  simp [Event.entered?, Envelope.payload?]

theorem asking_of_request (hs : Orderly inboxCapacity busCapacity d₀ es d) {line : List Waiter}
    (hline : d.line = .shutdown :: line) : d.stage = .askingEmm := by
  have hrequests := hs.requests
  rw [hline, List.count_cons_self] at hrequests
  cases hstage : d.stage with
  | askingEmm => rfl
  | _ =>
      rw [hstage] at hrequests
      cases hrequests

theorem orderly_enter (hs : Orderly inboxCapacity busCapacity d₀ es d)
    (hstep : d.enter? = some d') :
    Orderly inboxCapacity busCapacity d₀ (es ++ [⟨d, .enter, d'⟩]) d' := by
  have hrequests := hs.requests
  have hexpected := hs.expiries
  obtain ⟨x, y, hplaces, hcarries⟩ := hs.places
  cases enters_of_enter hstep with
  | @entered w line msg inbox expiries hline hw hexpiries hsend =>
      obtain ⟨hopen, _, _, hinbox⟩ := Channel.send_eq_ok hsend
      refine hs.past_tasks rfl ⟨?_, hs.served.bus⟩ ?_ ?_ rfl
        ⟨x, y, hplaces, ?_, hcarries.bus⟩
      · rw [hinbox]
        exact hs.served.inbox.push hopen _
      · rw [← hrequests, hline, List.count_cons_of_ne hw]
      · change line.count .expiry ≤ expiries.length
        omega
      · rw [entered?_of_sent hsend]
        -- what gets in behind the request to stop is of no account
        by_cases hx : x = .working
        · rw [if_pos (hplaces.emm_working_iff.1 hx)]
          subst hx
          exact hcarries.inbox.push hsend
        · rw [if_neg fun h => hx (hplaces.emm_working_iff.2 h), Option.toList_none,
            List.append_nil]
          exact hcarries.inbox.push_behind hx hsend
  | @asked line inbox hline hsend =>
      have hstage := asking_of_request hs hline
      rw [hstage] at hplaces hrequests
      rw [hline] at hrequests hexpected
      cases hplaces
      obtain ⟨hopen, _, _, hinbox⟩ := Channel.send_eq_ok hsend
      refine hs.past_tasks rfl ⟨?_, hs.served.bus⟩ ?_ ?_ rfl
        ⟨.asked, .working, .awaitingEmm (by decide), ?_, hcarries.bus⟩
      · rw [hinbox]
        exact hs.served.inbox.push hopen _
      · simpa [Stage.requests] using hrequests
      · simpa using hexpected
      · have hnone : Event.entered?
            ⟨d, .enter, ⟨{ d.system with inbox }, line, .awaitingEmm⟩⟩ = none := by
          rw [hinbox]
          simp [Event.entered?, Envelope.payload?]
        rw [hnone, Option.toList_none, List.append_nil]
        exact hcarries.inbox.ask hsend
  | @dropped w line msg mme expiries hline hw hexpiries hclosed =>
      have hnone : Event.entered? ⟨d, .enter, { d with
          system := { d.system with mme, expiries }, line }⟩ = none := by
        simp [Event.entered?]
      refine hs.past_tasks rfl ⟨hs.served.inbox, hs.served.bus⟩ ?_ ?_ rfl
        ⟨x, y, hplaces, ?_, hcarries.bus⟩
      · rw [← hrequests, hline, List.count_cons_of_ne hw]
      · change line.count .expiry ≤ expiries.length
        omega
      · rw [hnone, Option.toList_none, List.append_nil]
        exact hcarries.inbox
  | @refused line hline hclosed =>
      have hstage : d.stage.precedesRequest = true := by
        rw [asking_of_request hs hline]
        rfl
      exact absurd hclosed (emm_live hs hstage).send_ne_closed

/-- The next step of the shutdown itself. -/
inductive Proceeds (d : Shutdown) : Shutdown → Prop
  | timersStopped (hstage : d.stage = .signalled) :
      Proceeds d { d with
        system := { d.system with
          mme := { d.system.mme with timers := d.system.mme.timers.stopAll } }
        stage := .timersStopped }
  | askingEmm (hstage : d.stage = .timersStopped) :
      Proceeds d { d.join .shutdown with stage := .askingEmm }
  | askingApp (hstage : d.stage = .awaitingEmm) (hstopped : d.system.emm = .stopped) :
      Proceeds d { d with stage := .askingApp }
  | emmFailed {crash : Mme.Crash} (hstage : d.stage = .awaitingEmm)
      (hcrashed : d.system.emm = .crashed crash) :
      Proceeds d { d with stage := .ended (.error (.failed "EMM" crash.message)) }
  | awaitingApp {bus : Channel Notification} (hstage : d.stage = .askingApp)
      (hsend : d.system.bus.send .shutdown = .ok bus) :
      Proceeds d { d with system := { d.system with bus }, stage := .awaitingApp }
  | appGone (hstage : d.stage = .askingApp)
      (hclosed : d.system.bus.send .shutdown = .error .closed) :
      Proceeds d { d with stage := .ended (.error (.channelClosed "MME_APP")) }
  | ended (hstage : d.stage = .awaitingApp) (hstopped : d.system.appRunning = false) :
      Proceeds d { d with stage := .ended (.ok ()) }

theorem proceeds_of_proceed (h : d.proceed? = some d') : Proceeds d d' := by
  unfold proceed? at h
  split at h
  · rename_i hstage
    cases h
    exact .timersStopped hstage
  · rename_i hstage
    cases h
    exact .askingEmm hstage
  · cases h
  · rename_i hstage
    split at h
    · rename_i hstopped
      cases h
      exact .askingApp hstage hstopped
    · rename_i crash hcrashed
      cases h
      exact .emmFailed hstage hcrashed
    · cases h
    · cases h
  · rename_i hstage
    split at h
    · rename_i bus hsend
      cases h
      exact .awaitingApp hstage hsend
    · rename_i hclosed
      cases h
      exact .appGone hstage hclosed
    · cases h
  · rename_i hstage
    split at h
    · cases h
    · rename_i hrunning
      cases h
      exact .ended hstage (Bool.eq_false_of_not_eq_true hrunning)
  · cases h

theorem orderly_proceed (hs : Orderly inboxCapacity busCapacity d₀ es d)
    (hstep : d.proceed? = some d') :
    Orderly inboxCapacity busCapacity d₀ (es ++ [⟨d, .proceed, d'⟩]) d' := by
  have hrequests := hs.requests
  have hexpiries := hs.expiries
  obtain ⟨x, y, hplaces, hcarries⟩ := hs.places
  rw [← List.append_nil (_ ++ enteredIn es)] at hcarries
  cases proceeds_of_proceed hstep with
  | timersStopped hstage =>
      rw [hstage] at hplaces hrequests
      cases hplaces
      exact hs.past_tasks rfl ⟨hs.served.inbox, hs.served.bus⟩ hrequests hexpiries rfl
        ⟨.working, .working, .timersStopped, hcarries.inbox, hcarries.bus⟩
  | askingEmm hstage =>
      rw [hstage] at hplaces hrequests
      cases hplaces
      refine hs.past_tasks rfl hs.served ?_ ?_ rfl ⟨.working, .working, .askingEmm, hcarries⟩
      · simpa [join, Stage.requests] using hrequests
      · simpa [join] using hexpiries
  | askingApp hstage hstopped =>
      rw [hstage] at hplaces hrequests
      cases (hcarries.inbox.all_taken (by simp [hstopped, EmmPhase.IsRunning])).1
      cases hplaces
      exact hs.past_tasks rfl hs.served hrequests hexpiries rfl
        ⟨.stopped, .working, .askingApp, hcarries⟩
  | emmFailed _ hcrashed =>
      have hnever : ¬d.system.emm.IsRunning ∧ d.system.emm ≠ .stopped := by
        simp [hcrashed, EmmPhase.IsRunning]
      cases hcarries.inbox with
      | working hrunning | asked hrunning => exact absurd hrunning hnever.1
      | stopped hstopped => exact absurd hstopped hnever.2
  | @awaitingApp bus hstage hsend =>
      rw [hstage] at hplaces hrequests
      cases hplaces
      obtain ⟨hopen, _, _, hbus⟩ := Channel.send_eq_ok hsend
      refine hs.past_tasks rfl ⟨hs.served.inbox, ?_⟩ hrequests hexpiries rfl
        ⟨.stopped, .asked, .awaitingApp (by decide), hcarries.inbox, hcarries.bus.ask hsend⟩
      rw [hbus]
      exact hs.served.bus.push hopen _
  | appGone hstage hclosed =>
      rw [hstage] at hplaces
      cases hplaces
      exact absurd hclosed hcarries.bus.live.send_ne_closed
  | ended hstage hstopped =>
      rw [hstage] at hplaces hrequests
      cases (hcarries.bus.all_taken (by simp [hstopped])).1
      cases hplaces
      exact hs.past_tasks rfl hs.served hrequests hexpiries rfl
        ⟨.stopped, .stopped, .ended, hcarries⟩

/-- Whatever happens in between, a shutdown stays in order. -/
theorem orderly_of_run (hs : Orderly inboxCapacity busCapacity d₀ [] d₀) (run : Run d₀ es d) :
    Orderly inboxCapacity busCapacity d₀ es d := by
  induction run with
  | nil => exact hs
  | @snoc es d d' t _ hok hstep ih =>
      cases t with
      | system a =>
          obtain ⟨s', hmove, rfl⟩ := Option.map_eq_some_iff.1 hstep
          exact orderly_system ih hok hmove
      | join w =>
          cases hstep
          exact orderly_join ih hok
      | enter => exact orderly_enter ih hstep
      | proceed => exact orderly_proceed ih hstep

end Shutdown

end Emm
