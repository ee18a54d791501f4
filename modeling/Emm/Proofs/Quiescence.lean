import Emm.Proofs.Workload

/-!
The end of all work. When nothing comes from outside and the clock stands, the program makes a
bounded number of moves, in whichever order it makes them, and it stops nowhere but where nothing is
left: the two tasks never wait for each other.

Main statement: `program_settles`.
-/

namespace Emm

def Envelope.load (limit : Nat) : Envelope Message → Nat
  | message msg => msg.load limit
  | shutdown => 1

namespace System

variable {s s' : System} {a : Move}

/-- The work that waits outside the shared state and the EMM task. -/
def backlog (limit : Nat) (s : System) : Nat :=
  (s.inbox.queue.map (·.load limit)).sum + s.bus.queue.length +
    (Expiry.load limit + 1) * s.expiries.length + s.appRunning.toNat

/-- No more moves than this can be made without anything from outside. -/
def workload (s : System) : Nat :=
  s.mme.load s.config.maxRetransmissions.toNat + s.emm.load s.config.maxRetransmissions.toNat +
    s.backlog s.config.maxRetransmissions.toNat

theorem load_follow (limit : Nat) (s : System) (ue : UeId) (p : Progress) :
    (s.follow ue p).mme.load limit = s.mme.load limit := by
  rcases mme_follow s ue p with h | ⟨e, h⟩
  · rw [h]
  · rw [h, Mme.load_emit]

theorem backlog_follow_le (limit : Nat) (s : System) (ue : UeId) (p : Progress) :
    (s.follow ue p).backlog limit ≤ s.backlog limit := by
  have hinbox : ((s.follow ue p).inbox.queue.map (·.load limit)).sum ≤
      (s.inbox.queue.map (·.load limit)).sum := by
    rw [inbox_follow]
    split
    · exact Nat.zero_le _
    · exact Nat.le_refl _
  simp only [backlog, bus_follow, expiries_follow, appRunning_follow]
  omega

theorem workload_follow_le (s : System) (ue : UeId) (p : Progress) :
    (s.follow ue p).workload ≤
      Mme.turnLoad s.config.maxRetransmissions.toNat (s.mme, p) +
        s.backlog s.config.maxRetransmissions.toNat := by
  have hbacklog := backlog_follow_le s.config.maxRetransmissions.toNat s ue p
  simp only [workload, config_follow, load_follow, emm_follow, EmmPhase.load_phaseAfter,
    Mme.turnLoad]
  omega

theorem workload_receive (h : s.receive? = some s') : s'.workload < s.workload := by
  unfold receive? at h
  split at h
  · rename_i hemm
    split at h
    · rename_i msg inbox hitem
      obtain ⟨rest, hqueue, rfl⟩ := Channel.receive_eq_item hitem
      cases h
      rw [beginMessage_eq]
      refine Nat.lt_of_le_of_lt (workload_follow_le _ _ _) ?_
      have hbegun := Mme.begin_load (s.mme.emit (.exchanged .received msg.primitive msg.ue))
        s.config msg
      simp only [workload, backlog, hemm, hqueue, List.map_cons, List.sum_cons, Envelope.load,
        EmmPhase.load, Mme.turnLoad, Mme.load_emit] at hbegun ⊢
      omega
    · rename_i inbox hitem
      obtain ⟨rest, hqueue, rfl⟩ := Channel.receive_eq_item hitem
      cases h
      simp only [workload, backlog, stopEmm, emit, Channel.close, hemm, hqueue, List.map_cons,
        List.map_nil, List.sum_cons, List.sum_nil, Envelope.load, EmmPhase.load, Mme.load_emit]
      omega
    · cases h
    · cases h
      simp only [workload, backlog, stopEmm, emit, Channel.close, hemm, List.map_nil, List.sum_nil,
        EmmPhase.load, Mme.load_emit]
      omega
  · cases h

theorem workload_publish (h : s.publish? = some s') : s'.workload < s.workload := by
  obtain ⟨ue, n, next, s₁, d, hemm, hoffer, rfl⟩ := publish?_eq_some h
  have hoffered : s₁.config = s.config ∧ ∀ limit, s₁.mme.load limit = s.mme.load limit ∧
      s₁.backlog limit ≤ s.backlog limit + 1 := by
    obtain ⟨bus, hsend, rfl, _⟩ | ⟨_, rfl, _⟩ := offer?_eq_some hoffer
    · obtain ⟨_, _, _, rfl⟩ := Channel.send_eq_ok hsend
      refine ⟨rfl, fun limit => ⟨rfl, ?_⟩⟩
      simp only [backlog, emit, List.length_append, List.length_singleton]
      omega
    · exact ⟨rfl, fun limit => ⟨rfl, Nat.le_succ _⟩⟩
  obtain ⟨hconfig, hloads⟩ := hoffered
  obtain ⟨hload, hbacklog⟩ := hloads s.config.maxRetransmissions.toNat
  have hresumed := s₁.mme.resume_load s.config.maxRetransmissions.toNat s₁.config n next d
  rw [resume_eq]
  refine Nat.lt_of_le_of_lt (workload_follow_le _ _ _) ?_
  simp only [workload, hemm, EmmPhase.load, hconfig, Mme.turnLoad] at hresumed ⊢
  simp only [backlog] at hbacklog ⊢
  omega

theorem workload_take (h : s.takeNotification? = some s') : s'.workload < s.workload := by
  unfold takeNotification? at h
  split at h
  · rename_i hrunning
    split at h
    · rename_i n bus hitem
      obtain ⟨rest, hqueue, rfl⟩ := Channel.receive_eq_item hitem
      cases h
      have happlied := s.mme.load_apply_le s.config.maxRetransmissions.toNat n
      unfold applyNotification
      split <;> simp only [workload, backlog, hqueue, List.length_cons] <;> omega
    · rename_i bus hitem
      obtain ⟨rest, hqueue, rfl⟩ := Channel.receive_eq_item hitem
      cases h
      simp only [workload, backlog, stopApp, emit, Channel.close, hqueue, hrunning,
        List.length_cons, List.length_nil, Mme.load_emit, Bool.toNat_true, Bool.toNat_false]
      omega
    · cases h
    · cases h
      simp only [workload, backlog, stopApp, emit, Channel.close, hrunning, List.length_nil,
        Mme.load_emit, Bool.toNat_true, Bool.toNat_false]
      omega
  · cases h

theorem workload_fire {timer : TimerId} (h : s.fireOne? timer = some s') :
    s'.workload < s.workload := by
  obtain ⟨b, hb, rfl, hdue, rfl⟩ := fireOne?_eq_some h
  generalize hlimit : s.config.maxRetransmissions.toNat = limit
  have hstopped : (s.mme.timers.stop b.id).armed.length + 1 ≤ s.mme.timers.armed.length :=
    List.length_filter_lt_length_iff_exists.2 ⟨b, hb, by simp⟩
  have hwork := Nat.mul_le_mul_left (Expiry.load limit + 2) hstopped
  rw [Nat.mul_succ] at hwork
  simp only [workload, backlog, hlimit, Mme.load, List.length_append, List.length_singleton,
    Nat.mul_succ]
  omega

theorem workload_deliver (h : s.deliverExpiry? = some s') : s'.workload < s.workload := by
  obtain ⟨e, rest, hexpiries, ⟨inbox, hsend, rfl⟩ | ⟨_, rfl⟩⟩ := deliverExpiry?_eq_some h
  · obtain ⟨_, _, _, rfl⟩ := Channel.send_eq_ok hsend
    simp only [workload, backlog, hexpiries, List.map_append, List.map_cons, List.map_nil,
      List.sum_append, List.sum_cons, List.sum_nil, List.length_cons, Envelope.load, Message.load,
      Nat.mul_succ]
    omega
  · simp only [workload, backlog, hexpiries, emit, List.length_cons, Nat.mul_succ, Mme.load_emit]
    omega

theorem workload_step (hok : s.OfProgram a) (hstep : s.step? a = some s') :
    s'.workload < s.workload := by
  cases a with
  | receive => exact workload_receive hstep
  | publish => exact workload_publish hstep
  | take => exact workload_take hstep
  | fire timer => exact workload_fire hstep
  | deliver => exact workload_deliver hstep
  | _ => exact hok.elim

theorem length_add_workload_le {ms : List Moment} (path : Path OfProgram s ms s') :
    ms.length + s'.workload ≤ s.workload := by
  induction path with
  | nil => simp
  | snoc _ hok hstep ih =>
      have hless := workload_step hok hstep
      simp only [List.length_append, List.length_singleton]
      omega

end System

/-- A channel of the given capacity to a task that holds it open as long as it runs. -/
structure Channel.Served {α : Type} (capacity : Nat) (running : Prop) (c : Channel α) : Prop where
  capacity : c.capacity = capacity
  hasSender : c.hasSender = true
  empty : c.isOpen = false → c.queue = []
  served : running ∨ c.isOpen = false

namespace Channel.Served

variable {α : Type} {capacity : Nat} {running running' : Prop} {c : Channel α}

theorem mono (h : c.Served capacity running) (hrunning : running → running') :
    c.Served capacity running' :=
  { h with served := h.served.imp_left hrunning }

theorem rest (h : c.Served capacity running) {e : Envelope α} {rest : List (Envelope α)}
    (hqueue : c.queue = e :: rest) : Channel.Served capacity running { c with queue := rest } :=
  { h with
    empty := fun hclosed => by
      rw [h.empty hclosed] at hqueue
      cases hqueue }

theorem push (h : c.Served capacity running) (hopen : c.isOpen = true) (e : Envelope α) :
    Channel.Served capacity running { c with queue := c.queue ++ [e] } :=
  { h with
    empty := fun hclosed => by
      rw [hopen] at hclosed
      cases hclosed }

theorem close (h : c.Served capacity running) : c.close.Served capacity running' :=
  ⟨h.capacity, h.hasSender, fun _ => rfl, .inr rfl⟩

theorem send_ne_full (h : c.Served capacity running) (hcapacity : 0 < capacity)
    (hempty : c.isOpen = true → c.queue = []) (e : Envelope α) : c.send e ≠ .error .full := by
  cases hopen : c.isOpen with
  | true => simp [send, hopen, h.hasSender, hempty hopen, h.capacity, hcapacity]
  | false => simp [send, hopen]

end Channel.Served

theorem EmmPhase.IsRunning.ne_crashed {phase : EmmPhase} (h : phase.IsRunning)
    (crash : Mme.Crash) : phase ≠ .crashed crash := by
  rintro rfl
  exact h

theorem Begun.isSound {m : Mme} {records : UeId → Option Identification} {msg : Message}
    {p : Progress} (h : Begun m records msg p) : p.IsSound := by
  cases h with
  | idle hsound | aborted hsound => exact Progress.isSound_done hsound
  | _ => exact Progress.isSound_publish _ _

/-- A handler goes on or comes to an end of its own, unless it has a parent to park and the clock
cannot tell until when. -/
theorem Resumed.isSound_or_stuck {config : NasConfig} {m : Mme}
    {records : UeId → Option Identification} {next : Resumption} {d : Delivery} {p : Progress}
    (h : Resumed config m records next d p) :
    p.IsSound ∨ (∃ claim holder, next = .displaced claim holder) ∧
      m.timers.now.after? config.retryInterval = none := by
  cases h with
  | settled hlast hsound => exact .inl (Progress.isSound_done hsound)
  | sent hprogress hrecords =>
      rcases hprogress with rfl | ⟨outcome, rfl, hsound⟩
      · exact .inl (Progress.isSound_publish _ _)
      · exact .inl (Progress.isSound_done hsound)
  | unsent hsound => exact .inl (Progress.isSound_done hsound)
  | stuck hoverflow hrecords => exact .inr ⟨⟨_, _, rfl⟩, hoverflow⟩
  | failed hsound => exact .inl (Progress.isSound_done hsound)
  | ended | exhausted => exact .inl (Progress.isSound_publish _ _)

theorem Resumed.isSound {config : NasConfig} {m : Mme} {records : UeId → Option Identification}
    {next : Resumption} {d : Delivery} {p : Progress} (h : Resumed config m records next d p)
    (hretry : (m.timers.now.after? config.retryInterval).isSome) : p.IsSound := by
  refine h.isSound_or_stuck.resolve_right ?_
  rintro ⟨_, hoverflow⟩
  rw [hoverflow] at hretry
  cases hretry

namespace Ledger

theorem Entries.now {occasion : Occasion} {l l' : Ledger} (h : Entries occasion l l') :
    l'.timers.now = l.timers.now := by
  induction h with
  | refl => rfl
  | tail _ hentry ih => cases hentry <;> exact ih

end Ledger

namespace System

variable {s s' : System} {a : Move}

/-- Both tasks hold their channels open as long as they run. -/
structure Served (inboxCapacity busCapacity : Nat) (s : System) : Prop where
  inbox : s.inbox.Served inboxCapacity s.emm.IsRunning
  bus : s.bus.Served busCapacity (s.appRunning = true)

variable {inboxCapacity busCapacity : Nat}

theorem served_idle (config : NasConfig) (inboxCapacity busCapacity : Nat) :
    (idle config inboxCapacity busCapacity).Served inboxCapacity busCapacity :=
  ⟨⟨rfl, rfl, nofun, .inl trivial⟩, ⟨rfl, rfl, nofun, .inl rfl⟩⟩

theorem served_follow (hs : s.inbox.Served inboxCapacity s.emm.IsRunning) (ue : UeId)
    (p : Progress) : (s.follow ue p).inbox.Served inboxCapacity (s.follow ue p).emm.IsRunning := by
  rw [inbox_follow, emm_follow]
  split
  · exact hs.close
  · rename_i hsound
    refine hs.mono fun _ => isRunning_phaseAfter ?_
    rintro crash rfl
    exact hsound crash rfl

theorem served_inbox_step (hstep : s.step? a = some s')
    (hs : s.inbox.Served inboxCapacity s.emm.IsRunning) :
    s'.inbox.Served inboxCapacity s'.emm.IsRunning := by
  by_cases hreceive : a = .receive
  · subst hreceive
    simp only [step?, receive?] at hstep
    split at hstep
    · split at hstep
      · rename_i msg inbox hitem
        obtain ⟨rest, hqueue, rfl⟩ := Channel.receive_eq_item hitem
        cases hstep
        rw [beginMessage_eq]
        refine served_follow ?_ _ _
        exact hs.rest hqueue
      · rename_i inbox hitem
        obtain ⟨rest, hqueue, rfl⟩ := Channel.receive_eq_item hitem
        cases hstep
        exact (hs.rest hqueue).close
      · cases hstep
      · cases hstep
        exact hs.close
    · cases hstep
  by_cases hpublish : a = .publish
  · subst hpublish
    obtain ⟨ue, n, next, s₁, d, _, hoffer, rfl⟩ := publish?_eq_some hstep
    rw [resume_eq]
    refine served_follow ?_ _ _
    obtain ⟨bus, _, rfl, _⟩ | ⟨_, rfl, _⟩ := offer?_eq_some hoffer
    · exact hs
    · exact hs
  obtain ⟨hemm, htraffic⟩ := traffic_of_step hreceive hpublish hstep
  rw [hemm]
  cases htraffic with
  | still hinbox | fired hinbox | dropped _ hinbox =>
      rw [hinbox]
      exact hs
  | delivered _ hsend =>
      obtain ⟨hopen, _, _, hinbox⟩ := Channel.send_eq_ok hsend
      rw [hinbox]
      exact hs.push hopen _
  | sent hinbox | asked hinbox =>
      obtain ⟨_, hsend, _⟩ := Option.map_eq_some_iff.1 hstep
      rw [hinbox]
      exact hs.push (Channel.sent_eq_some hsend).1 _

theorem served_bus_step (hstep : s.step? a = some s')
    (hs : s.bus.Served busCapacity (s.appRunning = true)) :
    s'.bus.Served busCapacity (s'.appRunning = true) := by
  cases uptake_of_step hstep with
  | still _ hbus happ =>
      rw [hbus, happ]
      exact hs
  | published _ hsend happ =>
      obtain ⟨hopen, _, _, hbus⟩ := Channel.send_eq_ok hsend
      rw [hbus, happ]
      exact hs.push hopen _
  | taken _ hqueue hbus happ =>
      rw [hbus]
      exact (hs.rest hqueue).mono fun _ => happ
  | discarded hqueue hbus happ =>
      rw [hbus, happ]
      exact hs.rest hqueue
  | asked hopen _ hbus happ =>
      rw [hbus, happ]
      exact hs.push hopen _
  | stopped _ _ hbus | closed hbus =>
      rw [hbus]
      exact hs.close

theorem served_step (hstep : s.step? a = some s') (hs : s.Served inboxCapacity busCapacity) :
    s'.Served inboxCapacity busCapacity :=
  ⟨served_inbox_step hstep hs.inbox, served_bus_step hstep hs.bus⟩

theorem now_of_program (hok : s.OfProgram a) (hstep : s.step? a = some s') :
    s'.mme.timers.now = s.mme.timers.now := by
  have hchange := step_change hstep
  generalize s'.mme = m' at hchange
  cases hchange with
  | edits ha h => exact h.entries.now
  | log log => rfl
  | apply h =>
      cases h with
      | log log => rfl
      | register hc hcarried => rfl
      | unregister ue log => rfl
      | tearDown ue e => exact (Mme.still_tearDown (s.mme.emit e) ue).now
  | fire ha hdue => rfl
  | advance d => exact hok.elim
  | tearDown ue => exact hok.elim
  | act action => exact hok.elim

theorem config_of_step (hstep : s.step? a = some s') : s'.config = s.config := by
  cases a with
  | receive =>
      simp only [step?, receive?] at hstep
      split at hstep
      · split at hstep <;> cases hstep
        · rw [beginMessage_eq, config_follow]
        · rfl
        · rfl
      · cases hstep
  | publish =>
      obtain ⟨ue, n, next, s₁, d, _, hoffer, rfl⟩ := publish?_eq_some hstep
      rw [resume_eq, config_follow]
      obtain ⟨bus, _, rfl, _⟩ | ⟨_, rfl, _⟩ := offer?_eq_some hoffer <;> rfl
  | take => exact (takeNotification?_eq_some hstep).2.2.2.1
  | discard =>
      simp only [step?] at hstep
      split at hstep <;> cases hstep
      rfl
  | fire timer =>
      obtain ⟨_, _, _, _, rfl⟩ := fireOne?_eq_some hstep
      rfl
  | deliver =>
      obtain ⟨e, rest, _, ⟨inbox, hsend, rfl⟩ | ⟨_, rfl⟩⟩ := deliverExpiry?_eq_some hstep <;> rfl
  | send msg =>
      obtain ⟨_, _, rfl⟩ := Option.map_eq_some_iff.1 hstep
      rfl
  | askEmmToStop =>
      obtain ⟨_, _, rfl⟩ := Option.map_eq_some_iff.1 hstep
      rfl
  | askAppToStop =>
      obtain ⟨_, _, rfl⟩ := Option.map_eq_some_iff.1 hstep
      rfl
  | _ =>
      cases hstep
      rfl

theorem config_of_path {ok : System → Move → Prop} {ms : List Moment} (path : Path ok s ms s') :
    s'.config = s.config := by
  induction path with
  | nil => rfl
  | snoc _ _ hstep ih => rw [config_of_step hstep, ih]

theorem uncrashed_step (hretry : (s.mme.timers.now.after? s.config.retryInterval).isSome)
    (hok : s.OfProgram a) (hstep : s.step? a = some s') (hs : ∀ crash, s.emm ≠ .crashed crash) :
    ∀ crash, s'.emm ≠ .crashed crash := by
  intro crash
  by_cases hreceive : a = .receive
  · subst hreceive
    obtain ⟨_, _, ⟨msg, _, e, p, _, hbegun, hphase⟩ | ⟨_, _, hstopped⟩⟩ := turn_of_receive hstep
    · rw [hphase]
      exact (isRunning_phaseAfter hbegun.isSound).ne_crashed crash
    · rw [hstopped]
      nofun
  by_cases hpublish : a = .publish
  · subst hpublish
    obtain ⟨ue, n, next, d, m, p, _, _, htimers, hresumed, hphase, _⟩ := turn_of_publish hstep
    rw [hphase]
    rw [← htimers] at hretry
    exact (isRunning_phaseAfter (hresumed.isSound hretry)).ne_crashed crash
  rw [(traffic_of_step hreceive hpublish hstep).1]
  exact hs crash

/-- Nothing is left for the program to do: no message, notification or expiry waits, no timer is
due, and no handler is suspended. -/
structure Drained (s : System) : Prop where
  inbox : s.inbox.queue = []
  bus : s.bus.queue = []
  expiries : s.expiries = []
  undue : ∀ t ∈ s.mme.timers.armed, s.mme.timers.isDue t = false
  emm : s.emm = .receiving ∨ s.emm = .stopped

theorem Drained.step?_eq_none (h : s.Drained) (hs : s.Served inboxCapacity busCapacity)
    (hok : s.OfProgram a) : s.step? a = none := by
  cases hstep : s.step? a with
  | none => rfl
  | some s' =>
      have hinbox : ¬s.inbox.Over := by
        rintro (⟨rest, hqueue⟩ | ⟨_, hsender⟩)
        · simp [h.inbox] at hqueue
        · simp [hs.inbox.hasSender] at hsender
      have hbus : ¬s.bus.Over := by
        rintro (⟨rest, hqueue⟩ | ⟨_, hsender⟩)
        · simp [h.bus] at hqueue
        · simp [hs.bus.hasSender] at hsender
      cases a with
      | receive =>
          obtain ⟨_, ⟨msg, rest, hqueue, _⟩ | ⟨hover, _⟩⟩ := receive?_eq_some hstep
          · cases h.inbox.symm.trans hqueue
          · exact absurd hover hinbox
      | publish =>
          obtain ⟨ue, n, next, _, _, hemm, _⟩ := publish?_eq_some hstep
          rcases h.emm with hidle | hidle
          · cases hidle.symm.trans hemm
          · cases hidle.symm.trans hemm
      | take =>
          obtain ⟨_, _, _, _, ⟨n, rest, hqueue, _⟩ | ⟨hover, _⟩⟩ := takeNotification?_eq_some hstep
          · cases h.bus.symm.trans hqueue
          · exact absurd hover hbus
      | fire timer =>
          obtain ⟨t, ht, _, hdue, _⟩ := fireOne?_eq_some hstep
          cases (h.undue t ht).symm.trans hdue
      | deliver =>
          obtain ⟨e, rest, hexpiries, _⟩ := deliverExpiry?_eq_some hstep
          cases h.expiries.symm.trans hexpiries
      | _ => exact hok.elim

/-- Where the program cannot go on, nothing waits. -/
theorem drained_of_stuck (hs : s.Served inboxCapacity busCapacity) (hinbox : 0 < inboxCapacity)
    (hbus : 0 < busCapacity) (hsound : ∀ crash, s.emm ≠ .crashed crash)
    (hstuck : ∀ a, s.OfProgram a → s.step? a = none) : s.Drained := by
  -- in this order: the EMM task waits for the bus only, and the inbox for the EMM task
  have hbusEmpty : s.bus.queue = [] := by
    have htake := hstuck .take trivial
    rcases hs.bus.served with happ | hclosed
    · cases hqueue : s.bus.queue with
      | nil => rfl
      | cons e rest =>
          cases e <;> simp [step?, takeNotification?, happ, Channel.receive, hqueue] at htake
    · exact hs.bus.empty hclosed
  have hemm : s.emm = .receiving ∨ s.emm = .stopped := by
    have hpublish := hstuck .publish trivial
    cases hphase : s.emm with
    | receiving => exact .inl rfl
    | publishing ue n next =>
        simp only [step?, publish?, hphase, Option.map_eq_none_iff, offer?] at hpublish
        split at hpublish
        · cases hpublish
        · cases hpublish
        · rename_i hfull
          exact absurd hfull (hs.bus.send_ne_full hbus (fun _ => hbusEmpty) _)
    | stopped => exact .inr rfl
    | crashed crash => exact absurd hphase (hsound crash)
  have hinboxEmpty : s.inbox.queue = [] := by
    have hreceive := hstuck .receive trivial
    rcases hemm with hphase | hphase
    · cases hqueue : s.inbox.queue with
      | nil => rfl
      | cons e rest =>
          cases e <;> simp [step?, receive?, hphase, Channel.receive, hqueue] at hreceive
    · have hclosed := hs.inbox.served
      rw [hphase] at hclosed
      exact hs.inbox.empty (hclosed.resolve_left id)
  refine ⟨hinboxEmpty, hbusEmpty, ?_, ?_, hemm⟩
  · have hdeliver := hstuck .deliver trivial
    simp only [step?, deliverExpiry?] at hdeliver
    split at hdeliver
    · assumption
    · split at hdeliver
      · cases hdeliver
      · cases hdeliver
      · rename_i hfull
        exact absurd hfull (hs.inbox.send_ne_full hinbox (fun _ => hinboxEmpty) _)
  · intro t ht
    rw [Bool.eq_false_iff]
    intro hdue
    have hfire := hstuck (.fire t.id) trivial
    simp only [step?, fireOne?, Option.map_eq_none_iff, List.find?_eq_none] at hfire
    exact hfire t ht (by simp [hdue])

theorem served_of_reachable {ok : System → Move → Prop} {config : NasConfig}
    (h : Reachable ok (idle config inboxCapacity busCapacity) s) :
    s.Served inboxCapacity busCapacity := by
  obtain ⟨ms, path⟩ := h
  exact path.induct (served_idle _ _ _) fun _ _ _ _ hstep hs => served_step hstep hs

/-- Wherever a run has led, as long as no task is gone: the program by itself makes a bounded number
of moves, and it can make no further one exactly where nothing is left to be done. Any interval of
the timers will do, and any limit of the retransmissions; only the time of a retry must be one that
the clock can express. -/
theorem program_settles {ok : System → Move → Prop} {config : NasConfig} {ms : List Moment}
    (hinbox : 0 < inboxCapacity) (hbus : 0 < busCapacity)
    (h : Reachable ok (idle config inboxCapacity busCapacity) s) (hemm : s.emm.IsRunning)
    (hretry : (s.mme.timers.now.after? s.config.retryInterval).isSome)
    (path : Path OfProgram s ms s') :
    ms.length ≤ s.workload ∧
      ((∀ a, s'.OfProgram a → s'.step? a = none) ↔ s'.Drained) := by
  obtain ⟨hserved, _, hsound⟩ : s'.Served inboxCapacity busCapacity ∧
      (s'.mme.timers.now.after? s'.config.retryInterval).isSome ∧
      ∀ crash, s'.emm ≠ .crashed crash := by
    refine path.induct (P := fun s => s.Served inboxCapacity busCapacity ∧
      (s.mme.timers.now.after? s.config.retryInterval).isSome ∧
      ∀ crash, s.emm ≠ .crashed crash) ⟨served_of_reachable h, hretry, hemm.ne_crashed⟩ ?_
    rintro s₁ s₂ a hok hstep ⟨hserved, hfits, hsound⟩
    refine ⟨served_step hstep hserved, ?_, uncrashed_step hfits hok hstep hsound⟩
    rw [now_of_program hok hstep, config_of_step hstep]
    exact hfits
  refine ⟨(Nat.le_add_right _ _).trans (length_add_workload_le path), ?_, ?_⟩
  · exact drained_of_stuck hserved hinbox hbus hsound
  · exact fun hdrained a hok => hdrained.step?_eq_none hserved hok

/-- Timers of no length: T3470 runs out as soon as it is started, twice in a row, and the UE is torn
down, all while the clock stands and both channels hold one item. -/
theorem program_settles_at_once :
    ∃ s s' : System, ∃ ms, Path OfProgram s ms s' ∧ ms.length ≤ s.workload ∧
      s.inbox.queue = [.message (.start ⟨1⟩ .imsi none)] ∧ s'.mme.context? ⟨1⟩ = none ∧
      ∀ a, s'.OfProgram a → s'.step? a = none := by
  let instant : NasConfig := { t3470Seconds := 0, maxRetransmissions := 2, retrySeconds := 0 }
  let s := ((idle instant 1 1).walk? (fun _ _ => True)
    [.act (.insert { ue := ⟨1⟩, state := .deregistered }), .send (.start ⟨1⟩ .imsi none)]).get
      (by decide +kernel)
  let s' := (s.walk? OfProgram
    [.receive, .publish, .fire ⟨1⟩, .take, .publish, .take, .deliver, .receive, .publish,
      .fire ⟨2⟩, .deliver, .take, .receive, .publish, .take, .publish, .take]).get
      (by decide +kernel)
  have hreached : Reachable (fun _ _ => True) (idle instant 1 1) s :=
    Path.of_walk? (Option.some_get _).symm
  obtain ⟨ms, path⟩ : ∃ ms, Path OfProgram s ms s' := Path.of_walk? (Option.some_get _).symm
  have hrunning : s.emm = .receiving := by decide +kernel
  have hdrained : s'.Drained :=
    ⟨by decide +kernel, by decide +kernel, by decide +kernel, by decide +kernel,
      .inl (by decide +kernel)⟩
  obtain ⟨hlength, hend⟩ := program_settles (by decide) (by decide) hreached
    (by rw [hrunning]; trivial) (by decide +kernel) path
  exact ⟨s, s', ms, path, hlength, by decide +kernel, by decide +kernel, hend.2 hdrained⟩

end System

end Emm
