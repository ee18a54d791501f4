import Emm.Service
import Emm.Proofs.Draining

/-!
How a shutdown comes to its end. Until it is over something can always be done that brings the end
nearer, and no more of that is needed than `Shutdown.cost` says, however it is mixed with everything
else.

Main statements: `shutdown_loses_nothing` and `stop_shuts_down`.
-/

namespace Emm

namespace Shutdown

variable {d₀ d d' : Shutdown} {es : List Event} {s s' : System} {a : Move} {t : Turn}
  {inboxCapacity busCapacity : Nat}

/-! ### Cost -/

theorem lineCost_append {w : Waiter} (hw : w ≠ .shutdown) (line : List Waiter) :
    lineCost (line ++ [w]) ≤ lineCost line + 6 := by
  induction line with
  | nil => cases w <;> simp [lineCost] at hw ⊢
  | cons v line ih =>
      cases v with
      | shutdown => simp [lineCost]
      | message msg | expiry =>
          simp only [List.cons_append, lineCost]
          omega

theorem lineCost_append_shutdown (line : List Waiter) :
    lineCost (line ++ [.shutdown]) ≤ lineCost line + 2 := by
  induction line with
  | nil => simp [lineCost]
  | cons v line ih =>
      cases v with
      | shutdown => simp [lineCost]
      | message msg | expiry =>
          simp only [List.cons_append, lineCost]
          omega

theorem lineCost_append_of_mem {line : List Waiter} (h : .shutdown ∈ line) (w : Waiter) :
    lineCost (line ++ [w]) = lineCost line := by
  induction line with
  | nil => cases h
  | cons v line ih =>
      cases v with
      | shutdown => rfl
      | message msg | expiry =>
          have hrest : .shutdown ∈ line := by simpa using h
          simp [lineCost, ih hrest]

theorem inboxCost_append (e : Envelope Message) (queue : List (Envelope Message)) :
    inboxCost (queue ++ [e]) ≤ inboxCost queue + inboxCost [e] := by
  induction queue with
  | nil => simp [inboxCost]
  | cons e' queue ih =>
      cases e' with
      | shutdown => simp [inboxCost]
      | message msg =>
          simp only [List.cons_append, inboxCost] at ih ⊢
          omega

theorem inboxCost_append_of_mem {queue : List (Envelope Message)} (h : .shutdown ∈ queue)
    (e : Envelope Message) : inboxCost (queue ++ [e]) = inboxCost queue := by
  induction queue with
  | nil => cases h
  | cons e' queue ih =>
      cases e' with
      | shutdown => rfl
      | message msg =>
          have hrest : .shutdown ∈ queue := by simpa using h
          simp [inboxCost, ih hrest]

theorem phaseCost_phaseAfter (ue : UeId) (p : Progress) :
    phaseCost (System.phaseAfter ue p) ≤ 2 * p.rank + 1 := by
  cases p with
  | publish n next => exact Nat.le_refl _
  | done outcome => cases outcome <;> simp [System.phaseAfter, phaseCost]

theorem rank_le (p : Progress) : p.rank ≤ 2 := by
  cases p with
  | done outcome => exact Nat.zero_le _
  | publish n next =>
      simp only [Progress.rank, Resumption.rank]
      split <;> decide

theorem systemCost_follow (s : System) (ue : UeId) (p : Progress) :
    systemCost (s.follow ue p) ≤
      inboxCost s.inbox.queue + (2 * p.rank + 1) + s.bus.queue.length + s.appRunning.toNat := by
  have hphase := phaseCost_phaseAfter ue p
  have hinbox : inboxCost (s.follow ue p).inbox.queue ≤ inboxCost s.inbox.queue := by
    rw [System.inbox_follow]
    split
    · exact Nat.zero_le _
    · exact Nat.le_refl _
  rw [systemCost, System.emm_follow, System.bus_follow, System.appRunning_follow]
  omega

theorem systemCost_receive (hstep : s.step? .receive = some s') :
    systemCost s' < systemCost s := by
  have happ := System.appRunning_of_step (a := .receive) (fun h => nomatch h) hstep
  obtain ⟨_, hbus, _⟩ := System.turn_of_receive hstep
  obtain ⟨hemm, ⟨msg, rest, hqueue, hs'⟩ | ⟨hover, _, hstopped, hempty, _⟩⟩ :=
    System.receive?_eq_some hstep
  · rw [hs', System.beginMessage_eq]
    refine Nat.lt_of_le_of_lt (systemCost_follow _ _ _) ?_
    -- A handler has two notifications at most to publish.
    have hrank := rank_le ((s.mme.emit (.exchanged .received msg.primitive msg.ue)).begin
      s.config msg).2
    simp only [systemCost, phaseCost, hemm, hqueue, inboxCost]
    omega
  · simp only [systemCost, hemm, hstopped, hempty, hbus, happ, phaseCost, inboxCost]
    omega

theorem systemCost_publish (hstep : s.step? .publish = some s') :
    systemCost s' < systemCost s := by
  obtain ⟨ue, n, next, s₁, d, hemm, hoffer, rfl⟩ := System.publish?_eq_some hstep
  have hoffered : s₁.inbox = s.inbox ∧ s₁.appRunning = s.appRunning ∧
      s₁.bus.queue.length ≤ s.bus.queue.length + 1 := by
    obtain ⟨bus, hsend, rfl, _⟩ | ⟨_, rfl, _⟩ := System.offer?_eq_some hoffer
    · obtain ⟨_, _, _, rfl⟩ := Channel.send_eq_ok hsend
      exact ⟨rfl, rfl, by simp [System.emit]⟩
    · exact ⟨rfl, rfl, Nat.le_succ _⟩
  obtain ⟨hinbox, happ, hbus⟩ := hoffered
  have hrank := s₁.mme.resume_rank_le s₁.config n next d
  rw [System.resume_eq]
  refine Nat.lt_of_le_of_lt (systemCost_follow _ _ _) ?_
  simp only [systemCost, phaseCost, hemm, hinbox, happ]
  omega

theorem systemCost_take (hstep : s.step? .take = some s') : systemCost s' < systemCost s := by
  obtain ⟨hemm, hinbox, _⟩ := System.takeNotification?_eq_some hstep
  cases System.uptake_of_step hstep with
  | still htake => exact absurd rfl htake
  | taken hrunning hqueue hbus happ =>
      simp only [systemCost, hemm, hinbox, hbus, happ, hrunning, hqueue, List.length_cons]
      omega
  | stopped hrunning _ hbus happ =>
      simp only [systemCost, hemm, hinbox, hbus, happ, hrunning, Channel.close, List.length_nil,
        Bool.toNat_true, Bool.toNat_false]
      omega

theorem systemCost_aside (hok : a.SparesChannels) (hreceive : a ≠ .receive)
    (hpublish : a ≠ .publish) (htake : a ≠ .take) (hstep : s.step? a = some s') :
    systemCost s' = systemCost s := by
  obtain ⟨hemm, htraffic⟩ := System.traffic_of_step hreceive hpublish hstep
  have hinbox : s'.inbox = s.inbox := by
    cases htraffic with
    | still hinbox _ | fired hinbox _ => exact hinbox
    | delivered | dropped | sent | asked => exact hok.elim
  simp only [systemCost, hinbox, hemm, System.bus_of_step hok hpublish htake hstep,
    System.appRunning_of_step htake hstep]

/-- The shutdown or a task goes on, or somebody gets in before the request to stop. -/
def advances (d : Shutdown) : Turn → Bool
  | .system .receive | .system .publish | .system .take | .proceed => true
  | .enter => d.stage.precedesRequest
  | .system _ | .join _ => false

/-- Somebody gets in line ahead of the request to stop. -/
def delays (d : Shutdown) : Turn → Bool
  | .join _ => d.stage.precedesRequest && d.stage.requests == 0
  | _ => false

def Event.advances (x : Event) : Bool := x.before.advances x.turn

def Event.delays (x : Event) : Bool := x.before.delays x.turn

theorem inboxCost_sent (hs : Orderly inboxCapacity busCapacity d₀ es d)
    (hstage : d.stage.precedesRequest = false) {e : Envelope Message} {inbox : Channel Message}
    (hsend : d.system.inbox.send e = .ok inbox) :
    inboxCost inbox.queue = inboxCost d.system.inbox.queue := by
  obtain ⟨hopen, _, _, rfl⟩ := Channel.send_eq_ok hsend
  obtain ⟨x, y, hplaces, hcarries⟩ := hs.places
  cases hcarries.inbox with
  | working =>
      rw [hplaces.emm_working_iff.1 rfl] at hstage
      cases hstage
  | asked _ _ _ hqueue _ => exact inboxCost_append_of_mem (by simp [hqueue]) e
  | stopped hstopped _ =>
      rcases hs.served.inbox.served with hrunning | hclosed
      · rw [hstopped] at hrunning
        exact hrunning.elim
      · rw [hopen] at hclosed
        cases hclosed

theorem lineCost_cons {w : Waiter} (hw : w ≠ .shutdown) (line : List Waiter) :
    lineCost (w :: line) = lineCost line + 6 := by
  cases w with
  | shutdown => exact absurd rfl hw
  | message msg | expiry => rfl

theorem cost_enter (hs : Orderly inboxCapacity busCapacity d₀ es d) (hstep : d.enter? = some d') :
    d'.cost + (d.advances .enter).toNat ≤ d.cost := by
  cases enters_of_enter hstep with
  | @entered w line msg inbox expiries hline hw hexpiries hsend =>
      simp only [cost, systemCost, advances]
      cases hstage : d.stage.precedesRequest with
      | true =>
          obtain ⟨_, _, _, rfl⟩ := Channel.send_eq_ok hsend
          have happended := inboxCost_append (.message msg) d.system.inbox.queue
          simp only [inboxCost] at happended
          simp only [hline, lineCost_cons hw, if_true, Bool.toNat_true]
          omega
      | false =>
          rw [inboxCost_sent hs hstage hsend]
          exact Nat.le_refl _
  | @asked line inbox hline hsend =>
      obtain ⟨_, _, _, rfl⟩ := Channel.send_eq_ok hsend
      have happended := inboxCost_append .shutdown d.system.inbox.queue
      simp only [inboxCost] at happended
      simp only [cost, systemCost, advances, asking_of_request hs hline, hline, lineCost,
        Stage.cost, Stage.precedesRequest, if_true, Bool.toNat_true, Bool.false_eq_true, if_false]
      omega
  | @dropped w line msg mme expiries hline hw hexpiries hclosed =>
      simp only [cost, systemCost, advances]
      cases hstage : d.stage.precedesRequest with
      | true => exact absurd hclosed (emm_live hs hstage).send_ne_closed
      | false => exact Nat.le_refl _
  | @refused line hline hclosed =>
      have hstage : d.stage.precedesRequest = true := by
        rw [asking_of_request hs hline]
        rfl
      exact absurd hclosed (emm_live hs hstage).send_ne_closed

theorem cost_proceed (hstep : d.proceed? = some d') : d'.cost < d.cost := by
  cases proceeds_of_proceed hstep with
  | timersStopped hstage =>
      simp only [cost, systemCost, hstage, Stage.cost, Stage.precedesRequest, if_true]
      omega
  | askingEmm hstage =>
      have happended := lineCost_append_shutdown d.line
      simp only [cost, join, hstage, Stage.cost, Stage.precedesRequest, if_true]
      omega
  | @awaitingApp bus hstage hsend =>
      obtain ⟨_, _, _, rfl⟩ := Channel.send_eq_ok hsend
      simp only [cost, systemCost, hstage, Stage.cost, Stage.precedesRequest, List.length_append,
        List.length_singleton, Bool.false_eq_true, if_false]
      omega
  | askingApp hstage | emmFailed hstage | appGone hstage | ended hstage =>
      simp only [cost, hstage, Stage.cost, Stage.precedesRequest, Bool.false_eq_true, if_false]
      omega

theorem cost_join (hs : Orderly inboxCapacity busCapacity d₀ es d) {w : Waiter}
    (hok : d.Admits (.join w)) :
    (d.join w).cost ≤ d.cost + 6 * (d.delays (.join w)).toNat := by
  have hw : w ≠ .shutdown := by
    rintro rfl
    exact hok
  have happended := lineCost_append hw d.line
  have hrequests := hs.requests
  cases hstage : d.stage with
  | signalled | timersStopped =>
      simp only [cost, join, delays, hstage, Stage.precedesRequest, Stage.requests, if_true,
        beq_self_eq_true, Bool.and_self, Bool.toNat_true]
      omega
  | askingEmm =>
      rw [hstage] at hrequests
      have hmem : .shutdown ∈ d.line := List.count_pos_iff.1 (by rw [hrequests]; decide)
      simp only [cost, join, hstage, lineCost_append_of_mem hmem]
      omega
  | awaitingEmm | askingApp | awaitingApp | ended _ =>
      simp only [cost, join, hstage, Stage.precedesRequest, Bool.false_eq_true, if_false]
      omega

theorem cost_step (hs : Orderly inboxCapacity busCapacity d₀ es d) (hok : d.Admits t)
    (hstep : d.step? t = some d') :
    d'.cost + (d.advances t).toNat ≤ d.cost + 6 * (d.delays t).toNat := by
  cases t with
  | system a =>
      obtain ⟨s', hmove, rfl⟩ := Option.map_eq_some_iff.1 hstep
      change _ + _ ≤ d.cost + 0
      simp only [cost]
      by_cases hreceive : a = .receive
      · subst hreceive
        have hless := systemCost_receive hmove
        simp only [advances, Bool.toNat_true]
        omega
      by_cases hpublish : a = .publish
      · subst hpublish
        have hless := systemCost_publish hmove
        simp only [advances, Bool.toNat_true]
        omega
      by_cases htake : a = .take
      · subst htake
        have hless := systemCost_take hmove
        simp only [advances, Bool.toNat_true]
        omega
      · have hsame := systemCost_aside hok.1 hreceive hpublish htake hmove
        have hnot : d.advances (.system a) = false := by
          cases a with
          | receive => exact absurd rfl hreceive
          | publish => exact absurd rfl hpublish
          | take => exact absurd rfl htake
          | _ => rfl
        rw [hnot, hsame]
        exact Nat.le_refl _
  | join w =>
      cases hstep
      exact cost_join hs hok
  | enter => exact cost_enter hs hstep
  | proceed => exact cost_proceed hstep

/-- However turns are mixed, those that bring the end nearer are no more than the cost, and six for
each that gets in line ahead of the request to stop. -/
theorem advances_le (hs : Orderly inboxCapacity busCapacity d₀ [] d₀) (run : Run d₀ es d) :
    es.countP Event.advances + d.cost ≤ d₀.cost + 6 * es.countP Event.delays := by
  induction run with
  | nil => simp
  | @snoc es d d' t run hok hstep ih =>
      have hcost := cost_step (orderly_of_run hs run) hok hstep
      rw [List.countP_append, List.countP_append, List.countP_singleton, List.countP_singleton]
      change d'.cost + (Event.advances ⟨d, t, d'⟩).toNat ≤
        d.cost + 6 * (Event.delays ⟨d, t, d'⟩).toNat at hcost
      cases hadvances : Event.advances ⟨d, t, d'⟩ <;>
        cases hdelays : Event.delays ⟨d, t, d'⟩ <;>
          simp only [hadvances, hdelays, Bool.toNat_true, Bool.toNat_false, if_true,
            Bool.false_eq_true, if_false] at hcost ⊢ <;>
          omega

/-! ### Something can always be done -/

theorem receive_of_queue (hemm : s.emm = .receiving) (hqueue : s.inbox.queue ≠ []) :
    (s.step? .receive).isSome := by
  cases hhead : s.inbox.queue with
  | nil => exact absurd hhead hqueue
  | cons e rest => cases e <;> simp [System.step?, System.receive?, hemm, Channel.receive, hhead]

theorem take_of_queue (hrunning : s.appRunning = true) (hqueue : s.bus.queue ≠ []) :
    (s.step? .take).isSome := by
  cases hhead : s.bus.queue with
  | nil => exact absurd hhead hqueue
  | cons e rest =>
      cases e <;> simp [System.step?, System.takeNotification?, hrunning, Channel.receive, hhead]

/-- Something can be done that brings the end nearer. -/
def Able (d : Shutdown) : Prop :=
  ∃ t, d.advances t = true ∧ (d.step? t).isSome ∧ (d.system.RetryFits .publish → d.Admits t)

theorem able_of_move (a : Move) (hadvances : d.advances (.system a) = true)
    (hspares : a.SparesChannels) (hable : (d.system.step? a).isSome) : d.Able := by
  refine ⟨.system a, hadvances, by simpa [step?, onSystem] using hable, fun hfits => ⟨hspares, ?_⟩⟩
  cases a with
  | publish => exact hfits
  | _ => trivial

theorem able_of_proceed (h : d.proceed?.isSome) : d.Able := ⟨.proceed, rfl, h, fun _ => trivial⟩

theorem able_of_running (hs : Orderly inboxCapacity busCapacity d₀ es d) (hbus : 0 < busCapacity)
    (hrunning : d.system.emm.IsRunning) (hqueue : d.system.inbox.queue ≠ []) : d.Able := by
  obtain ⟨x, y, hplaces, hcarries⟩ := hs.places
  cases hemm : d.system.emm with
  | receiving => exact able_of_move .receive rfl trivial (receive_of_queue hemm hqueue)
  | publishing subject n next =>
      cases hplaces.app_working (hcarries.not_stopped hemm)
      by_cases hroom : d.system.bus.queue.length < d.system.bus.capacity
      · refine able_of_move .publish rfl trivial ?_
        simp [System.step?, System.publish?, hemm, System.offer?,
          hcarries.bus.live.send_eq_ok hroom]
      · have hfull : d.system.bus.queue ≠ [] := by
          intro hempty
          rw [hempty, hs.served.bus.capacity] at hroom
          exact hroom hbus
        cases hcarries.bus with
        | working happ => exact able_of_move .take rfl trivial (take_of_queue happ hfull)
  | stopped | crashed crash =>
      rw [hemm] at hrunning
      exact hrunning.elim

theorem enter_of_room (hs : Orderly inboxCapacity busCapacity d₀ es d)
    (hstage : d.stage.precedesRequest = true) (hline : d.line ≠ [])
    (hroom : d.system.inbox.queue.length < d.system.inbox.capacity) : d.enter?.isSome := by
  have hsend : ∀ e, d.system.inbox.send e = .ok _ := fun e => (emm_live hs hstage).send_eq_ok hroom
  cases hhead : d.line with
  | nil => exact absurd hhead hline
  | cons w rest =>
      cases w with
      | message msg => simp [enter?, hhead, hsend]
      | shutdown => simp [enter?, hhead, hsend]
      | expiry =>
          have hexpiries := hs.expiries
          cases hxs : d.system.expiries with
          | nil => simp [hhead, hxs] at hexpiries
          | cons x xs => simp [enter?, hhead, System.deliverExpiry?, hxs, hsend]

/-- Until a shutdown is over something can be done about it. -/
theorem ended_or_able (hs : Orderly inboxCapacity busCapacity d₀ es d) (hinbox : 0 < inboxCapacity)
    (hbus : 0 < busCapacity) : d.stage = .ended (.ok ()) ∨ d.Able := by
  obtain ⟨x, y, hplaces, hcarries⟩ := hs.places
  cases hstage : d.stage with
  | signalled => exact .inr (able_of_proceed (by simp [proceed?, hstage]))
  | timersStopped => exact .inr (able_of_proceed (by simp [proceed?, hstage]))
  | askingEmm =>
      right
      have hprecedes : d.stage.precedesRequest = true := by
        rw [hstage]
        rfl
      have hline : d.line ≠ [] := by
        intro hempty
        have hrequests := hs.requests
        rw [hempty, hstage] at hrequests
        cases hrequests
      -- a full inbox has something for the EMM task to take
      by_cases hroom : d.system.inbox.queue.length < d.system.inbox.capacity
      · exact ⟨.enter, hprecedes, enter_of_room hs hprecedes hline hroom, fun _ => trivial⟩
      · cases hplaces.emm_working_iff.2 hprecedes
        cases hcarries.inbox with
        | working hrunning =>
            refine able_of_running hs hbus hrunning ?_
            intro hempty
            rw [hempty, hs.served.inbox.capacity] at hroom
            exact hroom hinbox
  | awaitingEmm =>
      right
      rw [hstage] at hplaces
      cases hplaces with
      | awaitingEmm hx =>
          cases hcarries.inbox with
          | working => exact absurd rfl hx
          | asked hrunning _ _ hqueue _ => exact able_of_running hs hbus hrunning (by simp [hqueue])
          | stopped hstopped _ => exact able_of_proceed (by simp [proceed?, hstage, hstopped])
  | askingApp =>
      right
      rw [hstage] at hplaces
      cases hplaces
      -- a full bus has something for the application task to take
      by_cases hroom : d.system.bus.queue.length < d.system.bus.capacity
      · exact able_of_proceed (by simp [proceed?, hstage, hcarries.bus.live.send_eq_ok hroom])
      · cases hcarries.bus with
        | working hrunning =>
            refine able_of_move .take rfl trivial (take_of_queue hrunning ?_)
            intro hempty
            rw [hempty, hs.served.bus.capacity] at hroom
            exact hroom hbus
  | awaitingApp =>
      right
      rw [hstage] at hplaces
      cases hplaces with
      | awaitingApp hy =>
          cases hcarries.bus with
          | working => exact absurd rfl hy
          | asked hrunning _ _ hqueue _ =>
              exact able_of_move .take rfl trivial (take_of_queue hrunning (by simp [hqueue]))
          | stopped hstopped _ => exact able_of_proceed (by simp [proceed?, hstage, hstopped])
  | ended result =>
      rw [hstage] at hplaces
      cases hplaces
      exact .inl rfl

end Shutdown

namespace System

variable {s s' : System} {a : Move}

/-- Nobody asks a task to stop, and retries can be scheduled. -/
def Unending (s : System) (a : Move) : Prop := a.shutsDown = false ∧ s.RetryFits a

instance (s : System) (a : Move) : Decidable (s.Unending a) := inferInstanceAs (Decidable (_ ∧ _))

/-- Both tasks work, and nobody has asked them to stop. -/
structure AtWork (s : System) : Prop where
  inbox : s.inbox.Live
  bus : s.bus.Live
  emm : s.emm.IsRunning
  app : s.appRunning = true

theorem atWork_step (hok : s.Unending a) (hstep : s.step? a = some s') (hs : s.AtWork) :
    s'.AtWork := by
  obtain ⟨hends, hfits⟩ := hok
  have hasked : a ≠ .askEmmToStop ∧ a ≠ .closeBus ∧ a ≠ .askAppToStop := by
    refine ⟨?_, ?_, ?_⟩ <;>
      · rintro rfl
        cases hends
  have hemm : s'.emm.IsRunning := by
    by_cases hreceive : a = .receive
    · subst hreceive
      obtain ⟨_, _, ⟨msg, _, e, p, _, hbegun, hphase⟩ | ⟨hover, _⟩⟩ := turn_of_receive hstep
      · rw [hphase]
        exact isRunning_phaseAfter hbegun.isSound
      · exact absurd hover hs.inbox.not_over
    by_cases hpublish : a = .publish
    · subst hpublish
      obtain ⟨ue, n, next, m, p, _, _, htimers, hresumed, hphase, _⟩ :=
        turn_of_accepted hs.bus hstep
      change (s.mme.timers.now.after? s.config.retryInterval).isSome at hfits
      rw [← htimers] at hfits
      rw [hphase]
      exact isRunning_phaseAfter (hresumed.isSound hfits)
    rw [(traffic_of_step hreceive hpublish hstep).1]
    exact hs.emm
  refine ⟨inbox_live_step hasked.1 hemm hstep hs.inbox,
    bus_live_step hasked.2.1 hasked.2.2 hstep hs.bus, hemm, ?_⟩
  cases uptake_of_step hstep with
  | still _ _ happ | published _ _ happ | discarded _ _ happ | asked _ _ _ happ | closed _ happ =>
      rw [happ]
      exact hs.app
  | taken _ _ _ happ => exact happ
  | stopped _ hover => exact absurd hover hs.bus.not_over

theorem atWork_of_path {config : NasConfig} {inboxCapacity busCapacity : Nat} {ms : List Moment}
    (path : Path Unending (idle config inboxCapacity busCapacity) ms s) : s.AtWork :=
  path.induct ⟨⟨rfl, rfl, by simp [idle]⟩, ⟨rfl, rfl, by simp [idle]⟩, trivial, rfl⟩
    fun _ _ _ hok hstep hs => atWork_step hok hstep hs

end System

namespace Shutdown

variable {d₀ d d' : Shutdown} {es : List Event} {s : System} {t : Turn} {config : NasConfig}
  {ms : List Moment} {line : List Waiter} {inboxCapacity busCapacity : Nat}

theorem orderly_begin (path : Path System.Unending
    (System.idle config inboxCapacity busCapacity) ms s) (hrequest : .shutdown ∉ line)
    (hexpiries : line.count .expiry ≤ s.expiries.length) :
    Orderly inboxCapacity busCapacity (begin s line) [] (begin s line) := by
  have hwork := System.atWork_of_path path
  have hserved := System.served_of_reachable ⟨ms, path⟩
  refine ⟨⟨hserved.inbox, hserved.bus⟩, List.count_eq_zero_of_not_mem hrequest, hexpiries, ?_,
    by simp [movesIn], rfl⟩
  refine ⟨.working, .working, .signalled, ?_, ?_⟩
  · rw [enteredIn, List.filterMap_nil, List.append_nil]
    exact .start hwork.inbox hwork.emm
  · rw [movesIn, List.filterMap_nil, System.publishedIn, List.filterMap_nil, List.append_nil]
    exact .start hwork.bus hwork.app

instance (d : Shutdown) : (t : Turn) → Decidable (d.Admits t)
  | .system a => inferInstanceAs (Decidable (a.SparesChannels ∧ d.system.RetryFits a))
  | .join (.message _) | .enter | .proceed => .isTrue trivial
  | .join .expiry => inferInstanceAs (Decidable (_ < _))
  | .join .shutdown => .isFalse id

instance : (stage : Stage) → Decidable (stage = .ended (.ok ()))
  | .ended (.ok ()) => .isTrue rfl
  | .ended (.error _) | .signalled | .timersStopped | .askingEmm | .awaitingEmm | .askingApp
  | .awaitingApp => .isFalse nofun

def walk? (d : Shutdown) : List Turn → Option Shutdown
  | [] => some d
  | t :: turns => if d.Admits t then (d.step? t).bind fun d' => d'.walk? turns else none

theorem run_of_walk? {turns : List Turn} (run : Run d₀ es d) (h : d.walk? turns = some d') :
    ∃ es', Run d₀ es' d' := by
  induction turns generalizing es d with
  | nil =>
      cases h
      exact ⟨es, run⟩
  | cons t turns ih =>
      simp only [walk?] at h
      split at h
      · rename_i hok
        obtain ⟨d₁, hstep, hrest⟩ := Option.bind_eq_some_iff.1 h
        exact ih (run.snoc hok hstep) hrest
      · cases h

/-- Where both tasks work and the retries that are scheduled can be, a shutdown succeeds, and is
over after no more turns that bring its end nearer than `cost` says and six for each that gets in
line ahead of the request to stop; until then there always is one. Every publication is accepted.
When the EMM task stops, it has taken whatever got into the inbox before the request, in this order
and nothing else, and has handled it to the end; when the application task stops, it has taken
whatever was published. -/
theorem shutdown_loses_nothing (hinbox : 0 < inboxCapacity) (hbus : 0 < busCapacity)
    (path : Path System.Unending (System.idle config inboxCapacity busCapacity) ms s)
    (hrequest : .shutdown ∉ line) (hexpiries : line.count .expiry ≤ s.expiries.length)
    (run : Run (begin s line) es d) :
    (∀ result, d.stage = .ended result → result = .ok () ∧ d.system.emm = .stopped ∧
      d.system.appRunning = false) ∧
    (d.stage = .ended (.ok ()) ∨ d.Able) ∧
    es.countP Event.advances + d.cost ≤ (begin s line).cost + 6 * es.countP Event.delays ∧
    (∀ x ∈ movesIn es, x.move = .publish → ∃ n, x.published? = some n) ∧
    (System.receivedIn (movesIn es) <+:
      s.inbox.queue.filterMap (·.payload?) ++ enteredIn es) ∧
    (d.system.emm = .stopped →
      System.receivedIn (movesIn es) = s.inbox.queue.filterMap (·.payload?) ++ enteredIn es ∧
      (System.outcomesIn (movesIn es)).length =
        (System.receivedIn (movesIn es)).length + s.emm.handlers) ∧
    (System.takenIn (movesIn es) <+:
      s.bus.queue.filterMap (·.payload?) ++ System.publishedIn (movesIn es)) ∧
    (d.system.appRunning = false → d.system.emm = .stopped ∧
      System.takenIn (movesIn es) =
        s.bus.queue.filterMap (·.payload?) ++ System.publishedIn (movesIn es)) := by
  have hbegin := orderly_begin path hrequest hexpiries
  have hs := orderly_of_run hbegin run
  obtain ⟨x, y, hplaces, hcarries⟩ := hs.places
  refine ⟨?_, ended_or_able hs hinbox hbus, advances_le hbegin run, hs.accepted,
    hcarries.inbox.initial, ?_, hcarries.bus.initial, ?_⟩
  · intro result hstage
    rw [hstage] at hplaces
    cases hplaces
    refine ⟨rfl, ?_, ?_⟩
    · cases hcarries.inbox
      assumption
    · cases hcarries.bus
      assumption
  · intro hstopped
    have houtcomes := hs.outcomes
    rw [hstopped] at houtcomes
    exact ⟨(hcarries.inbox.all_taken (by simp [hstopped, EmmPhase.IsRunning])).2, houtcomes⟩
  · intro happ
    obtain ⟨rfl, htaken⟩ := hcarries.bus.all_taken (by simp [happ])
    cases hplaces.emm_stopped (by decide)
    refine ⟨?_, htaken⟩
    cases hcarries.inbox
    assumption

/-- The EMM task is suspended on a full bus, its inbox is full, and one more message waits in line.
All three messages are handled before the tasks stop. -/
theorem shutdown_loses_nothing_under_pressure :
    ∃ s line es d, s.emm.handlers = 1 ∧ s.bus.queue.length = s.bus.capacity ∧
      s.inbox.queue.length = s.inbox.capacity ∧ line ≠ [] ∧ Run (begin s line) es d ∧
      d.stage = .ended (.ok ()) ∧
      System.receivedIn (movesIn es) =
        [.start ⟨2⟩ .imei none, .lowerLayerFailure ⟨1⟩] ++ enteredIn es ∧
      (System.outcomesIn (movesIn es)).length = (System.receivedIn (movesIn es)).length + 1 ∧
      System.takenIn (movesIn es) =
        s.bus.queue.filterMap (·.payload?) ++ System.publishedIn (movesIn es) := by
  let s := ((System.idle {} 2 1).walk? System.Unending
    [.act (.insert { ue := ⟨1⟩, state := .registered }),
      .act (.insert { ue := ⟨2⟩, state := .registered }), .send (.start ⟨1⟩ .imsi none), .receive,
      .publish, .send (.start ⟨2⟩ .imei none), .send (.lowerLayerFailure ⟨1⟩)]).get
    (by decide +kernel)
  let line : List Waiter := [.message (.complete ⟨2⟩ (.imei ⟨List.replicate 15 0, by decide⟩))]
  let d := ((begin s line).walk? [.proceed, .proceed, .system .take, .system .publish,
    .system .receive, .enter, .system .take, .system .publish, .system .take, .system .publish,
    .system .receive, .enter, .system .take, .system .publish, .system .receive, .system .take,
    .system .publish, .system .receive, .proceed, .system .take, .proceed, .system .take,
    .proceed]).get (by decide +kernel)
  obtain ⟨ms, path⟩ : ∃ ms, Path System.Unending (System.idle {} 2 1) ms s :=
    Path.of_walk? (Option.some_get _).symm
  obtain ⟨es, run⟩ : ∃ es, Run (begin s line) es d := run_of_walk? .nil (Option.some_get _).symm
  have hhandlers : s.emm.handlers = 1 := by decide +kernel
  have hended : d.stage = .ended (.ok ()) := by decide +kernel
  have hwaiting : s.inbox.queue.filterMap (·.payload?) =
      [.start ⟨2⟩ .imei none, .lowerLayerFailure ⟨1⟩] := by decide +kernel
  obtain ⟨hend, _, _, _, _, hreceived, _, htaken⟩ := shutdown_loses_nothing (by decide)
    (by decide) path (by decide) (by decide) run
  obtain ⟨_, hstopped, happ⟩ := hend (.ok ()) hended
  obtain ⟨hall, houtcomes⟩ := hreceived hstopped
  rw [hwaiting] at hall
  rw [hhandlers] at houtcomes
  exact ⟨s, line, es, d, hhandlers, by decide +kernel, by decide +kernel, by decide, run, hended,
    hall, houtcomes, (htaken happ).2⟩

theorem advance_of_able (hable : d.Able) :
    ∃ t d', d.advance? = some d' ∧ d.step? t = some d' ∧ d.advances t = true ∧
      (d.system.RetryFits .publish → d.Admits t) := by
  cases hproceed : d.proceed? with
  | some d' => exact ⟨.proceed, d', by simp [advance?, hproceed], hproceed, rfl, fun _ => trivial⟩
  | none =>
  cases hreceive : d.step? (.system .receive) with
  | some d' =>
      refine ⟨.system .receive, d', ?_, hreceive, rfl, fun _ => ⟨trivial, trivial⟩⟩
      simp only [step?, System.step?] at hreceive
      simp [advance?, hproceed, hreceive]
  | none =>
  cases hpublish : d.step? (.system .publish) with
  | some d' =>
      refine ⟨.system .publish, d', ?_, hpublish, rfl, fun hfits => ⟨trivial, hfits⟩⟩
      simp only [step?, System.step?] at hreceive hpublish
      simp [advance?, hproceed, hreceive, hpublish]
  | none =>
  cases htake : d.step? (.system .take) with
  | some d' =>
      refine ⟨.system .take, d', ?_, htake, rfl, fun _ => ⟨trivial, trivial⟩⟩
      simp only [step?, System.step?] at hreceive hpublish htake
      simp [advance?, hproceed, hreceive, hpublish, htake]
  | none =>
      obtain ⟨t, hadvances, hstep, hadmits⟩ := hable
      obtain ⟨d', hstep⟩ := Option.isSome_iff_exists.1 hstep
      refine ⟨t, d', ?_, hstep, hadvances, hadmits⟩
      cases t with
      | enter =>
          simp only [step?, System.step?] at hreceive hpublish htake hstep
          simp [advance?, hproceed, hreceive, hpublish, htake, hstep]
      | proceed => cases hproceed.symm.trans hstep
      | join w => cases hadvances
      | system a =>
          cases a with
          | receive => cases hreceive.symm.trans hstep
          | publish => cases hpublish.symm.trans hstep
          | take => cases htake.symm.trans hstep
          | _ => cases hadvances

theorem fits_of_advance (hs : Orderly inboxCapacity busCapacity d₀ es d)
    (hadvances : d.advances t = true) (hstep : d.step? t = some d')
    (hfits : d.system.RetryFits .publish) : d'.system.RetryFits .publish := by
  cases t with
  | system a =>
      obtain ⟨s', hmove, rfl⟩ := Option.map_eq_some_iff.1 hstep
      have hprogram : d.system.OfProgram a := by
        cases a with
        | receive | publish | take => trivial
        | _ => cases hadvances
      change (s'.mme.timers.now.after? s'.config.retryInterval).isSome
      rw [System.now_of_program hprogram hmove, System.config_of_step hmove]
      exact hfits
  | join w => cases hadvances
  | enter =>
      have hlive := emm_live hs hadvances
      cases enters_of_enter hstep with
      | entered | asked => exact hfits
      | dropped _ _ _ hclosed | refused _ hclosed => exact absurd hclosed hlive.send_ne_closed
  | proceed =>
      change d.proceed? = some d' at hstep
      unfold proceed? at hstep
      split at hstep
      · cases hstep
        exact hfits
      · cases hstep
        exact hfits
      · cases hstep
      · split at hstep <;> cases hstep <;> exact hfits
      · split at hstep <;> cases hstep <;> exact hfits
      · split at hstep <;> cases hstep
        exact hfits
      · cases hstep

theorem cost_of_advance (hs : Orderly inboxCapacity busCapacity d₀ es d) (hok : d.Admits t)
    (hadvances : d.advances t = true) (hstep : d.step? t = some d') : d'.cost < d.cost := by
  have hcost := cost_step hs hok hstep
  have hdelays : d.delays t = false := by
    cases t with
    | join w => cases hadvances
    | _ => rfl
  rw [hadvances, hdelays] at hcost
  exact hcost

theorem ended_eq_ok (hs : Orderly inboxCapacity busCapacity d₀ es d)
    {result : Except TaskError Unit} (hstage : d.stage = .ended result) : result = .ok () := by
  obtain ⟨x, y, hplaces, _⟩ := hs.places
  rw [hstage] at hplaces
  cases hplaces
  rfl

theorem carryOut_succ (hs : Orderly inboxCapacity busCapacity d₀ es d)
    (hended : d.stage ≠ .ended (.ok ())) (hadvance : d.advance? = some d') (steps : Nat) :
    d.carryOut (steps + 1) = d'.carryOut steps := by
  rw [carryOut, hadvance]
  split
  · rename_i result hstage
    rw [hstage, ended_eq_ok hs hstage] at hended
    exact absurd rfl hended
  · rename_i hsome _
    cases hsome
    rfl
  · rename_i hnone _
    cases hnone

theorem carryOut_ended (hinbox : 0 < inboxCapacity) (hbus : 0 < busCapacity)
    (hbegin : Orderly inboxCapacity busCapacity d₀ [] d₀) (steps : Nat) (run : Run d₀ es d)
    (hfits : d.system.RetryFits .publish) (hcost : d.cost ≤ steps) :
    ∃ es', Run d₀ es' (d.carryOut steps) ∧ (d.carryOut steps).stage = .ended (.ok ()) := by
  induction steps generalizing es d with
  | zero =>
      have hs := orderly_of_run hbegin run
      refine ⟨es, run, (ended_or_able hs hinbox hbus).resolve_right fun hable => ?_⟩
      obtain ⟨t, d', _, hstep, hadvances, hadmits⟩ := advance_of_able hable
      have hless := cost_of_advance hs (hadmits hfits) hadvances hstep
      omega
  | succ steps ih =>
      have hs := orderly_of_run hbegin run
      by_cases hended : d.stage = .ended (.ok ())
      · rw [carryOut, hended]
        exact ⟨es, run, hended⟩
      · obtain ⟨t, d', hadvance, hstep, hadvances, hadmits⟩ :=
          advance_of_able ((ended_or_able hs hinbox hbus).resolve_left hended)
        have hless := cost_of_advance hs (hadmits hfits) hadvances hstep
        rw [carryOut_succ hs hended hadvance]
        exact ih (run.snoc (hadmits hfits) hstep) (fits_of_advance hs hadvances hstep hfits)
          (by omega)

theorem stop_shuts_down (hinbox : 0 < inboxCapacity) (hbus : 0 < busCapacity)
    (path : Path System.Unending (System.idle config inboxCapacity busCapacity) ms s)
    (hfits : s.RetryFits .publish) :
    ∃ es d, Run (begin s []) es d ∧ d.stage = .ended (.ok ()) ∧
      Service.stop s = d.system.emit .exited := by
  have hbegin : Orderly inboxCapacity busCapacity (begin s []) [] (begin s []) :=
    orderly_begin path (by simp) (by simp)
  obtain ⟨es, run, hended⟩ := carryOut_ended hinbox hbus hbegin _ .nil hfits (Nat.le_refl _)
  exact ⟨es, _, run, hended, rfl⟩

end Shutdown

end Emm
