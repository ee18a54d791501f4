import Emm.Proofs.Postponement
import Emm.Proofs.Quiescence

/-!
Full channels change nothing. Messages are sent to the EMM task, somebody who leaves the shared
state alone receives its notifications whenever he likes, and no timer becomes due. Handlers wait in
the middle then, and time goes by while they wait; but all comes out as if each message had been
handled at one stroke, in the order in which they were sent.

Main statement: `backpressure_transparent`. A handler that waits is somewhere on the way of a direct
call (`Stage`), and the EMM task somewhere on the way of a sequence of such calls (`Position`).
-/

namespace Emm

namespace Mme

/-! ### Direct calls -/

/-- Handles messages one after the other, each to its end, over a bus that takes every notification
at once: the state after them, and all that was published. -/
def handleAll (config : NasConfig) : Mme → List Message → Mme × List Notification
  | m, [] => (m, [])
  | m, msg :: msgs =>
      let (m, ns, _) := m.handle config msg
      let (m, ns') := handleAll config m msgs
      (m, ns ++ ns')

/-- The state and the notifications after messages have been handled like that, with any time
between one and the next. -/
inductive Calls (config : NasConfig) (m₀ : Mme) : List Message → List Notification → Mme → Prop
  | nil : Calls config m₀ [] [] m₀
  | elapse {msgs : List Message} {ns : List Notification} {m : Mme} (d : Duration)
      (h : Calls config m₀ msgs ns m) : Calls config m₀ msgs ns (m.advance d)
  | call {msgs : List Message} {ns : List Notification} {m : Mme} (msg : Message)
      (h : Calls config m₀ msgs ns m) :
      Calls config m₀ (msgs ++ [msg]) (ns ++ (m.handle config msg).2.1) (m.handle config msg).1

variable {config : NasConfig} {m m' m₀ m₁ : Mme} {msg : Message} {ns : List Notification}
  {p : Progress}

theorem handleAll_snoc (m : Mme) (msgs : List Message) (msg : Message) :
    handleAll config m (msgs ++ [msg]) =
      (((handleAll config m msgs).1.handle config msg).1,
        (handleAll config m msgs).2 ++ ((handleAll config m msgs).1.handle config msg).2.1) := by
  induction msgs generalizing m with
  | nil => simp [handleAll]
  | cons first msgs ih => simp only [List.cons_append, handleAll, ih, List.append_assoc]

theorem now_carryOut (config : NasConfig) (m : Mme) (p : Progress) :
    (m.carryOut config p).1.timers.now = m.timers.now := by
  induction m, p using carryOut.induct config with
  | case1 m outcome => simp [carryOut]
  | case2 m n next m₁ r hrank m₂ ns outcome hrest ih =>
      rw [carryOut]
      exact ih.trans (Edits.entries (resume_edits m₁ config n next .accepted)).now

theorem now_handle (config : NasConfig) (m : Mme) (msg : Message) :
    (m.handle config msg).1.timers.now = m.timers.now :=
  (now_carryOut config _ _).trans (Edits.entries (m.begin_edits config msg)).now

theorem Calls.handleAll {msgs : List Message} (h : Calls config m₀ msgs ns m) :
    m₀.timers.now.millis ≤ m.timers.now.millis ∧
      (m.timers.now = m₀.timers.now → m₀.handleAll config msgs = (m, ns)) := by
  induction h with
  | nil => exact ⟨Nat.le_refl _, fun _ => rfl⟩
  | @elapse msgs ns m d h ih =>
      have hlater : (m.advance d).timers.now.millis = m.timers.now.millis + d.millis := rfl
      refine ⟨by omega, fun hnow => ?_⟩
      have hmillis := congrArg Instant.millis hnow
      have hnone : d = ⟨0⟩ := by
        obtain ⟨millis⟩ := d
        simp only at hlater
        have hzero : millis = 0 := by omega
        rw [hzero]
      subst hnone
      exact ih.2 hnow
  | @call msgs ns m msg h ih =>
      rw [now_handle]
      refine ⟨ih.1, fun hnow => ?_⟩
      rw [handleAll_snoc, ih.2 hnow]

/-- Where a direct call is between two of its notifications: what it has published, the state, and
how it goes on. -/
inductive Stage (config : NasConfig) (m : Mme) (msg : Message) :
    List Notification → Mme → Progress → Prop
  | begun : Stage config m msg [] (m.begin config msg).1 (m.begin config msg).2
  | resumed {ns : List Notification} {m₁ : Mme} {n : Notification} {next : Resumption}
      (h : Stage config m msg ns m₁ (.publish n next)) :
      Stage config m msg (ns ++ [n])
        ((m₁.emit (.exchanged .sent n.primitive n.ue)).resume config n next .accepted).1
        ((m₁.emit (.exchanged .sent n.primitive n.ue)).resume config n next .accepted).2

namespace Stage

theorem handle (h : Stage config m msg ns m₁ p) :
    m.handle config msg = ((m₁.carryOut config p).1, ns ++ (m₁.carryOut config p).2.1,
      (m₁.carryOut config p).2.2) := by
  induction h with
  | begun => rfl
  | resumed h ih =>
      rw [ih, carryOut]
      simp only [List.append_assoc, List.singleton_append]

theorem handle_done {outcome : Outcome} (h : Stage config m msg ns m₁ (.done outcome)) :
    m.handle config msg = (m₁, ns, outcome) := by
  rw [h.handle, carryOut, List.append_nil]

theorem eq_nil_of_startsTimer {n : Notification} {next : Resumption}
    (h : Stage config m msg ns m₁ (.publish n next)) (hnext : next.startsTimer = true) :
    ns = [] := by
  generalize hp : Progress.publish n next = p at h
  cases h with
  | begun => rfl
  | resumed h =>
      have hidle := startsTimer_of_resume _ hp.symm
      rw [hnext] at hidle
      cases hidle

/-- A call that has published nothing yet may as well have been begun later. -/
theorem postpone (h : Stage config m msg [] m₁ p) (d : Duration) :
    ∃ m₂, Stage config (m.advance d) msg [] m₂ p ∧ m₁.Later d m₂ := by
  generalize hns : ([] : List Notification) = ns at h
  cases h with
  | begun =>
      have hbegun := begin_later (m.later_advance d) config msg
      refine ⟨_, ?_, hbegun.later⟩
      rw [← hbegun.progress]
      exact .begun
  | resumed h => simp at hns

end Stage

end Mme

open Mme (Calls Stage)

/-- How far the EMM task has come with direct calls that began in `m₀`: it is between two of them,
or in one that has done its last turn some time ago. Given are the messages it has taken and the
notifications it has published. -/
inductive EmmPhase.Position (config : NasConfig) (m₀ : Mme) :
    EmmPhase → Mme → List Message → List Notification → Prop
  | between {m m' : Mme} {msgs : List Message} {ns : List Notification}
      (hcalls : Calls config m₀ msgs ns m) (hsame : m.SameButLog m') :
      Position config m₀ .receiving m' msgs ns
  | within {ue : UeId} {n : Notification} {next : Resumption} {m m₁ m' : Mme} {d : Duration}
      {msg : Message} {msgs : List Message} {ns published : List Notification}
      (hcalls : Calls config m₀ msgs ns m)
      (hstage : Stage config m msg published m₁ (.publish n next)) (hlater : m₁.Later d m')
      (hfirst : published = [] → d = ⟨0⟩) :
      Position config m₀ (.publishing ue n next) m' (msgs ++ [msg]) (ns ++ published)

namespace EmmPhase.Position

variable {config : NasConfig} {m₀ m' m'' : Mme} {phase : EmmPhase} {msgs : List Message}
  {ns : List Notification}

theorem log (h : phase.Position config m₀ m' msgs ns) (hsame : m'.SameButLog m'') :
    phase.Position config m₀ m'' msgs ns := by
  cases h with
  | between hcalls hm => exact .between hcalls (hm.trans hsame)
  | within hcalls hstage hlater hfirst =>
      refine .within hcalls hstage ?_ hfirst
      have hzero := hlater.trans (Mme.later_zero_iff.2 hsame)
      exact hzero

theorem turn {m m₁ : Mme} {d : Duration} {msg : Message} {published : List Notification}
    {p : Progress} (hcalls : Calls config m₀ msgs ns m)
    (hstage : Stage config m msg published m₁ p) (hlater : m₁.Later d m')
    (hfirst : published = [] → d = ⟨0⟩) (hsound : p.IsSound) (ue : UeId) :
    (System.phaseAfter ue p).Position config m₀ m' (msgs ++ [msg]) (ns ++ published) := by
  cases p with
  | publish n next => exact .within hcalls hstage hlater hfirst
  | done outcome =>
      have hphase : System.phaseAfter ue (.done outcome) = .receiving := by
        cases outcome with
        | crashed crash => exact absurd rfl (hsound crash)
        | _ => rfl
      have hhandled := hstage.handle_done
      have hcalled := (hcalls.call msg).elapse d
      rw [hhandled] at hcalled
      rw [hphase]
      exact .between hcalled ((m₁.later_advance d).of_same hlater)

theorem elapse (h : phase.Position config m₀ m' msgs ns) (d : Duration) :
    phase.Position config m₀ (m'.advance d) msgs ns := by
  cases h with
  | between hcalls hm =>
      refine .between (hcalls.elapse d) (Mme.later_zero_iff.1 ?_)
      exact (Mme.later_zero_iff.2 hm).advance d
  | @within ue n next m m₁ _ d₁ msg msgs ns published hcalls hstage hlater hfirst =>
      by_cases hnone : published = []
      · subst hnone
        cases hfirst rfl
        obtain ⟨m₂, hstage₂, hlater₂⟩ := hstage.postpone d
        refine .within (hcalls.elapse d) hstage₂ (Mme.later_zero_iff.2 ?_) fun _ => rfl
        have hboth := hlater.trans (m'.later_advance d)
        simp only [Nat.zero_add] at hboth
        exact hlater₂.of_same hboth
      · exact .within hcalls hstage (hlater.trans (m'.later_advance d)) fun h => absurd h hnone

theorem receive (h : EmmPhase.receiving.Position config m₀ m' msgs ns) {msg : Message}
    {e : Log.Event} (hsound : ((m'.emit e).begin config msg).2.IsSound) (ue : UeId) :
    (System.phaseAfter ue ((m'.emit e).begin config msg).2).Position config m₀
      ((m'.emit e).begin config msg).1 (msgs ++ [msg]) ns := by
  cases h with
  | @between m _ _ _ hcalls hm =>
      have hbegun := Mme.begin_later
        (Mme.later_zero_iff.2 (hm.trans (m'.sameButLog_emit e))) config msg
      have hstage : Stage config m msg [] (m.begin config msg).1
          ((m'.emit e).begin config msg).2 := by
        rw [hbegun.progress]
        exact .begun
      have hturn := turn hcalls hstage hbegun.later (fun _ => rfl) hsound ue
      rwa [List.append_nil] at hturn

theorem publish {ue : UeId} {n : Notification} {next : Resumption}
    (h : (EmmPhase.publishing ue n next).Position config m₀ m' msgs ns)
    (hsound : ((m'.emit (.exchanged .sent n.primitive n.ue)).resume config n next
      .accepted).2.IsSound) :
    (System.phaseAfter ue ((m'.emit (.exchanged .sent n.primitive n.ue)).resume config n next
      .accepted).2).Position config m₀
        ((m'.emit (.exchanged .sent n.primitive n.ue)).resume config n next .accepted).1 msgs
          (ns ++ [n]) := by
  cases h with
  | @within _ _ _ m m₁ _ d msg msgs ns published hcalls hstage hlater hfirst =>
      have hresumed := Mme.resume_later
        (hlater.emit (.exchanged .sent n.primitive n.ue) (.exchanged .sent n.primitive n.ue))
          config n (fun hnext => hfirst (hstage.eq_nil_of_startsTimer hnext))
      have hnext := hstage.resumed
      rw [← hresumed.progress] at hnext
      rw [List.append_assoc]
      exact turn hcalls hnext hresumed.later (by simp) hsound ue

end EmmPhase.Position

namespace Moment

def sent? (x : Moment) : Option Message :=
  match x.move with
  | .send msg => some msg
  | _ => none

/-- The notification that is taken, and let be, in the move. -/
def discarded? (x : Moment) : Option Notification :=
  match x.move, x.before.bus.queue with
  | .discard, .message n :: _ => some n
  | _, _ => none

end Moment

namespace System

/-- What has been sent to the EMM task, the earliest first. -/
def sentIn (ms : List Moment) : List Message := ms.filterMap Moment.sent?

/-- What the receiver has got, the earliest first. -/
def discardedIn (ms : List Moment) : List Notification := ms.filterMap Moment.discarded?

/-- Messages are sent, their notifications are taken by somebody who leaves the shared state alone,
and time goes on, but not up to the deadline of a timer. -/
def Relayed (s : System) : Move → Prop
  | .receive | .discard | .send _ | .fire _ | .deliver => True
  | .publish => (s.mme.timers.now.after? s.config.retryInterval).isSome
  | .advance d => ∀ t ∈ s.mme.timers.armed, (s.mme.timers.advance d).isDue t = false
  | .take | .askEmmToStop | .askAppToStop | .closeBus | .tearDown _ | .act _ => False

instance (s : System) : (a : Move) → Decidable (s.Relayed a)
  | .receive | .discard | .send _ | .fire _ | .deliver => .isTrue trivial
  | .publish => inferInstanceAs (Decidable (_ = true))
  | .advance _ => inferInstanceAs (Decidable (∀ _ ∈ _, _))
  | .take | .askEmmToStop | .askAppToStop | .closeBus | .tearDown _ | .act _ => .isFalse id

/-- Both channels work, timers are given some time, and none is due. -/
structure Calm (s : System) : Prop where
  inbox : s.inbox.Live
  inboxRoom : 0 < s.inbox.capacity
  bus : s.bus.Live
  busRoom : 0 < s.bus.capacity
  t3470 : 0 < s.config.t3470Interval.millis
  retry : 0 < s.config.retryInterval.millis
  expiries : s.expiries = []
  undue : ∀ t ∈ s.mme.timers.armed, s.mme.timers.isDue t = false

/-- Nothing is under way. -/
structure Poised (s : System) : Prop extends Calm s where
  emm : s.emm = .receiving
  inboxEmpty : s.inbox.queue = []
  busEmpty : s.bus.queue = []

variable {s s' : System} {a : Move} {ms : List Moment}

theorem sentIn_snoc (ms : List Moment) (x : Moment) :
    sentIn (ms ++ [x]) = sentIn ms ++ x.sent?.toList :=
  filterMap_snoc _ ms x

theorem discardedIn_snoc (ms : List Moment) (x : Moment) :
    discardedIn (ms ++ [x]) = discardedIn ms ++ x.discarded?.toList :=
  filterMap_snoc _ ms x

theorem Calm.of_still (hs : s.Calm) (hconfig : s'.config = s.config)
    (hstill : s.mme.timers.Still s'.mme.timers) (hinbox : s'.inbox.Live)
    (hinboxRoom : s'.inbox.capacity = s.inbox.capacity) (hbus : s'.bus.Live)
    (hbusRoom : s'.bus.capacity = s.bus.capacity) (hexpiries : s'.expiries = s.expiries) :
    s'.Calm where
  inbox := hinbox
  inboxRoom := by
    rw [hinboxRoom]
    exact hs.inboxRoom
  bus := hbus
  busRoom := by
    rw [hbusRoom]
    exact hs.busRoom
  t3470 := by
    rw [hconfig]
    exact hs.t3470
  retry := by
    rw [hconfig]
    exact hs.retry
  expiries := hexpiries.trans hs.expiries
  undue t ht := by
    rw [Bool.eq_false_iff]
    intro hdue
    have hbefore : s.mme.timers.isDue t = true := by
      simpa [Timers.isDue, hstill.now] using hdue
    rw [hs.undue t (hstill.due t ht hdue)] at hbefore
    cases hbefore

theorem Calm.follow (hs : s.Calm) (ue : UeId) {p : Progress} (hsound : p.IsSound) :
    (s.follow ue p).Calm := by
  have hinbox : (s.follow ue p).inbox = s.inbox := by
    refine inbox_follow_of_running ?_
    rw [emm_follow]
    exact isRunning_phaseAfter hsound
  refine hs.of_still (config_follow _ _ _) ?_ ?_ ?_ ?_ ?_ (expiries_follow _ _ _)
  · rw [timers_follow]
    exact .refl _
  · rw [hinbox]
    exact hs.inbox
  · rw [hinbox]
  · rw [bus_follow]
    exact hs.bus
  · rw [bus_follow]

/-! ### On the way of direct calls -/

/-- The run so far, from `s₀`, seen as direct calls: of what has been sent some messages wait and
the others have been taken; of what those have published some waits and the rest has been received.
-/
structure Relay (s₀ : System) (ms : List Moment) (s : System) : Prop where
  calm : s.Calm
  config : s.config = s₀.config
  position : ∃ taken waiting queued,
    sentIn ms = taken ++ waiting ∧ s.inbox.queue = waiting.map .message ∧
      s.bus.queue = queued.map .message ∧
      s.emm.Position s₀.config s₀.mme s.mme taken (discardedIn ms ++ queued)

variable {s₀ : System}

theorem relay_start (hs : s₀.Poised) : Relay s₀ [] s₀ where
  calm := hs.toCalm
  config := rfl
  position := by
    refine ⟨[], [], [], rfl, hs.inboxEmpty, hs.busEmpty, ?_⟩
    rw [hs.emm]
    exact .between .nil (.refl _)

theorem relay_receive (hs : Relay s₀ ms s) (hstep : s.step? .receive = some s') :
    Relay s₀ (ms ++ [⟨s, .receive, s'⟩]) s' := by
  obtain ⟨taken, waiting, queued, hsent, hinbox, hbus, hposition⟩ := hs.position
  obtain ⟨hemm, ⟨msg, rest, hqueue, hs'⟩ | ⟨hover, _⟩⟩ := receive?_eq_some hstep
  · obtain ⟨waiting, rfl, rfl⟩ : ∃ waiting', waiting = msg :: waiting' ∧
        rest = waiting'.map .message := by
      rw [hqueue] at hinbox
      cases waiting with
      | nil => cases hinbox
      | cons msg' waiting =>
          cases hinbox
          exact ⟨waiting, rfl, rfl⟩
    -- the first turn is that of a direct call, so the position moves on by `msg`
    generalize hturn : (s.mme.emit (.exchanged .received msg.primitive msg.ue)).begin s.config msg =
      turn
    have hsound : turn.2.IsSound := by
      rw [← hturn]
      exact (Mme.begin_begun _ s.config msg).isSound
    have hstill : s.mme.timers.Still turn.1.timers := by
      rw [← hturn]
      exact Mme.still_begin (s.mme.emit _) s.config msg
    have hnext : (phaseAfter msg.ue turn.2).Position s₀.config s₀.mme turn.1 (taken ++ [msg])
        (discardedIn ms ++ queued) := by
      rw [hemm] at hposition
      rw [hs.config] at hturn
      rw [← hturn] at hsound ⊢
      exact hposition.receive hsound msg.ue
    have hs' : s' = { s with
        mme := turn.1
        inbox := { s.inbox with queue := waiting.map .message }
        handled := s.handled + 1 }.follow msg.ue turn.2 := by
      rw [hs', beginMessage_eq, ← hturn]
    have hsent' : sentIn (ms ++ [⟨s, .receive, s'⟩]) = sentIn ms := by
      simp [sentIn_snoc, Moment.sent?]
    have hdiscarded : discardedIn (ms ++ [⟨s, .receive, s'⟩]) = discardedIn ms := by
      simp [discardedIn_snoc, Moment.discarded?]
    refine ⟨?_, ?_, taken ++ [msg], waiting, queued, ?_, ?_, ?_, ?_⟩
    · have hcalm : System.Calm { s with
          mme := turn.1
          inbox := { s.inbox with queue := waiting.map .message }
          handled := s.handled + 1 } :=
        hs.calm.of_still rfl hstill (hs.calm.inbox.rest hqueue) rfl hs.calm.bus rfl rfl
      rw [hs']
      exact hcalm.follow msg.ue hsound
    · rw [config_of_step hstep, hs.config]
    · rw [hsent', hsent, List.append_assoc]
      rfl
    · have hrunning : s'.emm.IsRunning := by
        rw [hs', emm_follow]
        exact isRunning_phaseAfter hsound
      rw [hs'] at hrunning ⊢
      rw [inbox_follow_of_running hrunning]
    · rw [hs', bus_follow]
      exact hbus
    · rw [hdiscarded, hs', emm_follow]
      refine hnext.log ?_
      exact sameButLog_follow _ _ _
  · exact absurd hover hs.calm.inbox.not_over

theorem relay_publish (hs : Relay s₀ ms s) (hok : s.Relayed .publish)
    (hstep : s.step? .publish = some s') : Relay s₀ (ms ++ [⟨s, .publish, s'⟩]) s' := by
  obtain ⟨taken, waiting, queued, hsent, hinbox, hbus, hposition⟩ := hs.position
  obtain ⟨ue, n, next, turn, hemm, hturn, _, hs'⟩ := publish?_of_live hs.calm.bus hstep
  have hsound : turn.2.IsSound := by
    have hresumed := Mme.resume_resumed (s.mme.emit (.exchanged .sent n.primitive n.ue)) s.config n
      next .accepted
    rw [hturn]
    exact hresumed.isSound hok
  have hstill : s.mme.timers.Still turn.1.timers := by
    rw [hturn]
    exact Mme.still_resume (s.mme.emit _) hs.calm.t3470 hs.calm.retry n next .accepted
  have hnext : (phaseAfter ue turn.2).Position s₀.config s₀.mme turn.1 taken
      (discardedIn ms ++ queued ++ [n]) := by
    rw [hemm] at hposition
    rw [hturn, hs.config] at hsound ⊢
    exact hposition.publish hsound
  have hsent' : sentIn (ms ++ [⟨s, .publish, s'⟩]) = sentIn ms := by
    simp [sentIn_snoc, Moment.sent?]
  have hdiscarded : discardedIn (ms ++ [⟨s, .publish, s'⟩]) = discardedIn ms := by
    simp [discardedIn_snoc, Moment.discarded?]
  refine ⟨?_, ?_, taken, waiting, queued ++ [n], hsent'.trans hsent, ?_, ?_, ?_⟩
  · have hcalm : System.Calm { s with
        mme := turn.1
        bus := { s.bus with queue := s.bus.queue ++ [Envelope.message n] } } :=
      hs.calm.of_still rfl hstill hs.calm.inbox rfl (hs.calm.bus.push n) rfl rfl
    rw [hs']
    exact hcalm.follow ue hsound
  · rw [config_of_step hstep, hs.config]
  · have hrunning : s'.emm.IsRunning := by
      rw [hs', emm_follow]
      exact isRunning_phaseAfter hsound
    rw [hs'] at hrunning ⊢
    rw [inbox_follow_of_running hrunning]
    exact hinbox
  · rw [hs', bus_follow, List.map_append, ← hbus]
    rfl
  · rw [hdiscarded, hs', emm_follow, ← List.append_assoc]
    refine hnext.log ?_
    exact sameButLog_follow _ _ _

theorem relay_discard (hs : Relay s₀ ms s) (hstep : s.step? .discard = some s') :
    Relay s₀ (ms ++ [⟨s, .discard, s'⟩]) s' := by
  obtain ⟨taken, waiting, queued, hsent, hinbox, hbus, hposition⟩ := hs.position
  simp only [step?] at hstep
  split at hstep
  · rename_i e bus hitem
    obtain ⟨rest, hqueue, rfl⟩ := Channel.receive_eq_item hitem
    cases hstep
    obtain ⟨n, queued, rfl, rfl, rfl⟩ : ∃ n queued', e = .message n ∧ queued = n :: queued' ∧
        rest = queued'.map .message := by
      rw [hqueue] at hbus
      cases queued with
      | nil => cases hbus
      | cons n queued =>
          cases hbus
          exact ⟨n, queued, rfl, rfl, rfl⟩
    refine ⟨?_, hs.config, taken, waiting, queued, ?_, hinbox, rfl, ?_⟩
    · exact hs.calm.of_still rfl (.refl _) hs.calm.inbox rfl (hs.calm.bus.rest hqueue) rfl rfl
    · simpa [sentIn_snoc, Moment.sent?] using hsent
    · simpa [discardedIn_snoc, Moment.discarded?, hqueue] using hposition
  · cases hstep
  · cases hstep

theorem relay_send (hs : Relay s₀ ms s) {msg : Message}
    (hstep : s.step? (.send msg) = some s') : Relay s₀ (ms ++ [⟨s, .send msg, s'⟩]) s' := by
  obtain ⟨taken, waiting, queued, hsent, hinbox, hbus, hposition⟩ := hs.position
  obtain ⟨inbox, hsend, rfl⟩ := Option.map_eq_some_iff.1 hstep
  obtain ⟨_, _, _, rfl⟩ := Channel.sent_eq_some hsend
  refine ⟨?_, hs.config, taken, waiting ++ [msg], queued, ?_, ?_, hbus, ?_⟩
  · exact hs.calm.of_still rfl (.refl _) (hs.calm.inbox.push msg) rfl hs.calm.bus rfl rfl
  · simp [sentIn_snoc, Moment.sent?, hsent]
  · simp [hinbox]
  · simpa [discardedIn_snoc, Moment.discarded?] using hposition

theorem relay_advance (hs : Relay s₀ ms s) {d : Duration} (hok : s.Relayed (.advance d))
    (hstep : s.step? (.advance d) = some s') : Relay s₀ (ms ++ [⟨s, .advance d, s'⟩]) s' := by
  obtain ⟨taken, waiting, queued, hsent, hinbox, hbus, hposition⟩ := hs.position
  cases hstep
  refine ⟨?_, hs.config, taken, waiting, queued, ?_, hinbox, hbus, ?_⟩
  · exact ⟨hs.calm.inbox, hs.calm.inboxRoom, hs.calm.bus, hs.calm.busRoom, hs.calm.t3470,
      hs.calm.retry, hs.calm.expiries, hok⟩
  · simpa [sentIn_snoc, Moment.sent?] using hsent
  · have hdiscarded : discardedIn (ms ++ [⟨s, .advance d, s.advance d⟩]) = discardedIn ms := by
      simp [discardedIn_snoc, Moment.discarded?]
    rw [hdiscarded]
    exact hposition.elapse d

theorem relay_step (hs : Relay s₀ ms s) (hok : s.Relayed a) (hstep : s.step? a = some s') :
    Relay s₀ (ms ++ [⟨s, a, s'⟩]) s' := by
  cases a with
  | receive => exact relay_receive hs hstep
  | publish => exact relay_publish hs hok hstep
  | discard => exact relay_discard hs hstep
  | send msg => exact relay_send hs hstep
  | advance d => exact relay_advance hs hok hstep
  | fire timer =>
      obtain ⟨t, ht, _, hdue, _⟩ := fireOne?_eq_some hstep
      cases (hs.calm.undue t ht).symm.trans hdue
  | deliver =>
      obtain ⟨e, rest, hexpiries, _⟩ := deliverExpiry?_eq_some hstep
      cases hs.calm.expiries.symm.trans hexpiries
  | _ => exact hok.elim

theorem relay_of_path (hs : s₀.Poised) (path : Path Relayed s₀ ms s) : Relay s₀ ms s := by
  induction path with
  | nil => exact relay_start hs
  | snoc path hok hstep ih => exact relay_step ih hok hstep

/-- The EMM task, or the receiver, can go on, until nothing is left. -/
theorem Relay.drained_or_step (hs : Relay s₀ ms s)
    (hretry : (s.mme.timers.now.after? s.config.retryInterval).isSome) :
    s.Drained ∨ ∃ a s', s.Relayed a ∧ s.step? a = some s' ∧ s'.workload < s.workload ∧
      s'.mme.timers.now = s.mme.timers.now ∧ Moment.sent? ⟨s, a, s'⟩ = none := by
  obtain ⟨taken, waiting, queued, hsent, hinbox, hbus, hposition⟩ := hs.position
  have task : ∀ a, a = .receive ∨ a = .publish → (s.step? a).isSome →
      ∃ a s', s.Relayed a ∧ s.step? a = some s' ∧ s'.workload < s.workload ∧
        s'.mme.timers.now = s.mme.timers.now ∧ Moment.sent? ⟨s, a, s'⟩ = none := by
    rintro a ha hstep
    obtain ⟨s', hstep⟩ := Option.isSome_iff_exists.1 hstep
    rcases ha with rfl | rfl
    · exact ⟨.receive, s', trivial, hstep, workload_step (by trivial) hstep,
        now_of_program (by trivial) hstep, rfl⟩
    · exact ⟨.publish, s', hretry, hstep, workload_step (by trivial) hstep,
        now_of_program (by trivial) hstep, rfl⟩
  cases queued with
  | cons n queued =>
      refine .inr ⟨.discard, { s with bus := { s.bus with queue := queued.map .message } }, trivial,
        ?_, ?_, rfl, rfl⟩
      · simp [step?, Channel.receive, hbus]
      · simp only [workload, backlog, hbus, List.map_cons, List.length_cons]
        omega
  | nil =>
      generalize hemm : s.emm = phase at hposition
      generalize discardedIn ms ++ [] = ns at hposition
      cases hposition with
      | @within ue n next =>
          refine .inr (task .publish (.inr rfl) ?_)
          have hroom : s.bus.queue.length < s.bus.capacity := by
            rw [hbus]
            exact hs.calm.busRoom
          simp only [step?, publish?, hemm, offer?, hs.calm.bus.send_eq_ok hroom]
          rfl
      | between hcalls hsame =>
          cases waiting with
          | nil => exact .inl ⟨hinbox, hbus, hs.calm.expiries, hs.calm.undue, .inl hemm⟩
          | cons msg waiting =>
              refine .inr (task .receive (.inl rfl) ?_)
              simp only [step?, receive?, hemm, Channel.receive, hinbox, List.map_cons]
              rfl

theorem Relay.drains (hs : Relay s₀ ms s)
    (hretry : (s.mme.timers.now.after? s.config.retryInterval).isSome) :
    ∃ ms' s', Path Relayed s ms' s' ∧ sentIn ms' = [] ∧ s'.Drained := by
  -- By induction on how much there is to be done.
  induction hwork : s.workload using Nat.strongRecOn generalizing s ms with
  | ind k ih =>
      obtain hdrained | ⟨a, s₁, hok, hstep, hless, hnow, hsent⟩ := hs.drained_or_step hretry
      · exact ⟨[], s, .nil, rfl, hdrained⟩
      · have hretry₁ : (s₁.mme.timers.now.after? s₁.config.retryInterval).isSome := by
          rw [hnow, config_of_step hstep]
          exact hretry
        rw [hwork] at hless
        obtain ⟨ms', s', path, hnone, hdrained⟩ :=
          ih _ hless (relay_step hs hok hstep) hretry₁ rfl
        refine ⟨_, s', .cons hok hstep path, ?_, hdrained⟩
        rw [sentIn, List.filterMap_cons, hsent]
        exact hnone

/-- When everything has been drained, whatever the capacity of the channels and whenever the
receiver has taken what: contexts, index, registry, timers and counters are as after direct calls in
the order of the messages, with some time between them, and the receiver has got what these publish,
in this order. If the clock has stood still, that is what one call after the other gives. And as
long as a retry can be scheduled, everything can be drained. -/
theorem backpressure_transparent (hs : s.Poised) (path : Path Relayed s ms s') :
    (s'.Drained →
      (∃ m, Calls s.config s.mme (sentIn ms) (discardedIn ms) m ∧ m.SameButLog s'.mme) ∧
      (s'.mme.timers.now = s.mme.timers.now →
        (s.mme.handleAll s.config (sentIn ms)).2 = discardedIn ms ∧
        (s.mme.handleAll s.config (sentIn ms)).1.SameButLog s'.mme)) ∧
    ((s'.mme.timers.now.after? s'.config.retryInterval).isSome →
      ∃ ms' s'', Path Relayed s' ms' s'' ∧ sentIn ms' = [] ∧ s''.Drained) := by
  have hrelay := relay_of_path hs path
  refine ⟨fun hdrained => ?_, hrelay.drains⟩
  obtain ⟨taken, waiting, queued, hsent, hinbox, hbus, hposition⟩ := hrelay.position
  obtain rfl : waiting = [] := List.map_eq_nil_iff.1 (hinbox.symm.trans hdrained.inbox)
  obtain rfl : queued = [] := List.map_eq_nil_iff.1 (hbus.symm.trans hdrained.bus)
  rw [List.append_nil] at hsent hposition
  rw [hsent]
  generalize hphase : s'.emm = phase at hposition
  generalize discardedIn ms = received at hposition ⊢
  cases hposition with
  | @between m _ _ _ hcalls hsame =>
      refine ⟨⟨m, hcalls, hsame⟩, fun hnow => ?_⟩
      have htimers : s'.mme.timers = m.timers := by rw [hsame]
      rw [htimers] at hnow
      rw [hcalls.handleAll.2 hnow]
      exact ⟨rfl, hsame⟩
  | within hcalls hstage hlater hfirst =>
      rcases hdrained.emm with hidle | hidle
      · cases hidle.symm.trans hphase
      · cases hidle.symm.trans hphase

/-- Channels for one item each: while the handler of the first message waits for room, the second
one is sent and two seconds go by. The timers of the two calls run out two seconds apart. -/
theorem backpressure_transparent_waiting :
    ∃ s s' : System, ∃ ms m, s.Poised ∧ Path Relayed s ms s' ∧
      s.mme.Calls s.config (sentIn ms) (discardedIn ms) m ∧ m.SameButLog s'.mme ∧
      s'.mme.timers.armed.map (·.deadline.millis) = [6000, 8000] := by
  let s := ((idle {} 1 1).walk? (fun _ _ => True)
    [.act (.insert { ue := ⟨1⟩, state := .deregistered }),
      .act (.insert { ue := ⟨2⟩, state := .registered })]).get (by decide +kernel)
  let s' := (s.walk? Relayed
    [.send (.start ⟨1⟩ .imsi none), .receive, .publish, .send (.start ⟨2⟩ .imsi none),
      .advance ⟨2000⟩, .discard, .publish, .receive, .discard, .publish, .discard, .publish,
      .discard]).get (by decide +kernel)
  obtain ⟨ms, path⟩ : ∃ ms, Path Relayed s ms s' := Path.of_walk? (Option.some_get _).symm
  have hs : s.Poised :=
    { inbox := by decide +kernel
      inboxRoom := by decide +kernel
      bus := by decide +kernel
      busRoom := by decide +kernel
      t3470 := by decide +kernel
      retry := by decide +kernel
      expiries := by decide +kernel
      undue := by decide +kernel
      emm := by decide +kernel
      inboxEmpty := by decide +kernel
      busEmpty := by decide +kernel }
  have hdrained : s'.Drained :=
    ⟨by decide +kernel, by decide +kernel, by decide +kernel, by decide +kernel,
      .inl (by decide +kernel)⟩
  obtain ⟨⟨m, hcalls, hsame⟩, _⟩ := (backpressure_transparent hs path).1 hdrained
  exact ⟨s, s', ms, m, hs, path, hcalls, hsame, by decide +kernel⟩

end System

end Emm
