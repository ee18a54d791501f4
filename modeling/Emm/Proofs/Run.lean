import Mathlib.Data.List.Induction
import Emm.Bench.Action
import Emm.System
import Emm.Proofs.Edit

/-!
Runs of a system. A `Move` is one step of a task, of a timer or of somebody outside; handlers are
interrupted between their notifications only, and between any two moves every other may come. Which
moves may come when is the parameter of `Path` and `Reachable`.

Main statement: `step_change`. What a move does to the shared state is a sequence of a handler's
edits, or one of a few things that others do.
-/

namespace Emm

/-- What may happen next to a system. -/
inductive Move
  /-- The EMM task takes what is next in its inbox and handles it up to its first notification. -/
  | receive
  /-- The EMM task hands its notification over and goes on up to the next. -/
  | publish
  /-- The application task takes the next notification and does what it asks for. -/
  | take
  /-- Somebody else takes the next notification and lets it be. -/
  | discard
  /-- A timer that is due fires. -/
  | fire (timer : TimerId)
  /-- The oldest expiry enters the inbox. -/
  | deliver
  | advance (d : Duration)
  /-- Somebody sends a message to the EMM task. -/
  | send (msg : Message)
  | askEmmToStop
  | askAppToStop
  /-- Nobody receives notifications any more. -/
  | closeBus
  /-- The application layer tears a UE down of its own accord. -/
  | tearDown (ue : UeId)
  /-- Somebody acts on the shared state. -/
  | act (action : Bench.Action)

namespace System

def step? (s : System) : Move → Option System
  | .receive => s.receive?
  | .publish => s.publish?
  | .take => s.takeNotification?
  | .discard =>
      match s.bus.receive with
      | .item _ bus => some { s with bus }
      | .empty | .finished => none
  | .fire timer => s.fireOne? timer
  | .deliver => s.deliverExpiry?
  | .advance d => some (s.advance d)
  | .send msg => (s.inbox.send (.message msg)).toOption.map fun inbox => { s with inbox }
  | .askEmmToStop => (s.inbox.send .shutdown).toOption.map fun inbox => { s with inbox }
  | .askAppToStop => (s.bus.send .shutdown).toOption.map fun bus => { s with bus }
  | .closeBus => some { s with bus := s.bus.close }
  | .tearDown ue => some { s with mme := s.mme.tearDown ue }
  | .act action => some { s with mme := (action.run s.mme).1 }

end System

/-- A move and the states before and after it. -/
structure Moment where
  before : System
  move : Move
  after : System

theorem filterMap_snoc {α β : Type} (f : α → Option β) (xs : List α) (x : α) :
    (xs ++ [x]).filterMap f = xs.filterMap f ++ (f x).toList := by
  rw [List.filterMap_append]
  cases h : f x <;> simp [h]

/-- The runs from `s₀` in which every move is one that `ok` admits where it is made. -/
inductive Path (ok : System → Move → Prop) (s₀ : System) : List Moment → System → Prop
  | nil : Path ok s₀ [] s₀
  | snoc {ms : List Moment} {s s' : System} {a : Move} (path : Path ok s₀ ms s) (hok : ok s a)
      (hstep : s.step? a = some s') : Path ok s₀ (ms ++ [⟨s, a, s'⟩]) s'

/-- The states to which runs from `s₀` lead. -/
def Reachable (ok : System → Move → Prop) (s₀ s : System) : Prop := ∃ ms, Path ok s₀ ms s

namespace Path

variable {ok : System → Move → Prop} {s₀ s s' : System} {ms : List Moment}

/-- What holds at the start and is kept by every move that is admitted holds throughout. -/
theorem induct {P : System → Prop} (path : Path ok s₀ ms s) (hstart : P s₀)
    (hstep : ∀ s s' a, ok s a → s.step? a = some s' → P s → P s') : P s := by
  induction path with
  | nil => exact hstart
  | snoc _ hok hs ih => exact hstep _ _ _ hok hs ih

theorem append {ms' : List Moment} (path : Path ok s₀ ms s) (path' : Path ok s ms' s') :
    Path ok s₀ (ms ++ ms') s' := by
  induction path' with
  | nil => simpa using path
  | snoc _ hok hstep ih =>
      rw [← List.append_assoc]
      exact ih.snoc hok hstep

theorem split {pre post : List Moment} {x : Moment} (path : Path ok s₀ (pre ++ x :: post) s) :
    Path ok s₀ pre x.before ∧ ok x.before x.move ∧
      x.before.step? x.move = some x.after ∧ Path ok x.after post s := by
  induction post using List.reverseRecOn generalizing s with
  | nil =>
      generalize hms : pre ++ [x] = ms at path
      cases path with
      | nil => simp at hms
      | snoc path hok hstep =>
          obtain ⟨rfl, hx⟩ := List.append_inj' hms rfl
          cases hx
          exact ⟨path, hok, hstep, .nil⟩
  | append_singleton post y ih =>
      generalize hms : pre ++ x :: (post ++ [y]) = ms at path
      cases path with
      | nil => simp at hms
      | snoc path hok hstep =>
          rw [← List.cons_append, ← List.append_assoc] at hms
          obtain ⟨rfl, hy⟩ := List.append_inj' hms rfl
          cases hy
          obtain ⟨hpre, hokx, hstepx, hpost⟩ := ih path
          exact ⟨hpre, hokx, hstepx, hpost.snoc hok hstep⟩

theorem mono {ok' : System → Move → Prop} (path : Path ok s₀ ms s)
    (h : ∀ s a, ok s a → ok' s a) : Path ok' s₀ ms s := by
  induction path with
  | nil => exact .nil
  | snoc _ hok hstep ih => exact ih.snoc (h _ _ hok) hstep

theorem cons {a : Move} {s₁ : System} (hok : ok s₀ a) (hstep : s₀.step? a = some s₁)
    (path : Path ok s₁ ms s) : Path ok s₀ (⟨s₀, a, s₁⟩ :: ms) s :=
  (Path.nil.snoc hok hstep).append path

end Path

/-- The state after the given moves, if all of them can be made and are admitted. -/
def System.walk? (ok : System → Move → Prop) [∀ s a, Decidable (ok s a)] (s : System) :
    List Move → Option System
  | [] => some s
  | a :: moves => if ok s a then (s.step? a).bind fun s' => s'.walk? ok moves else none

theorem Path.of_walk? {ok : System → Move → Prop} [∀ s a, Decidable (ok s a)] {s s' : System}
    {moves : List Move} (h : s.walk? ok moves = some s') : ∃ ms, Path ok s ms s' := by
  induction moves generalizing s with
  | nil =>
      cases h
      exact ⟨[], .nil⟩
  | cons a moves ih =>
      simp only [System.walk?] at h
      split at h
      · rename_i hok
        obtain ⟨s₁, hstep, hwalk⟩ := Option.bind_eq_some_iff.1 h
        obtain ⟨ms, path⟩ := ih hwalk
        exact ⟨_, .cons hok hstep path⟩
      · cases h

namespace Channel

variable {α : Type} {c c' : Channel α} {e : Envelope α}

theorem send_eq_ok (h : c.send e = .ok c') :
    c.isOpen = true ∧ c.hasSender = true ∧ c.queue.length < c.capacity ∧
      c' = { c with queue := c.queue ++ [e] } := by
  unfold send at h
  split at h
  · cases h
  · rename_i hopen
    split at h
    · rename_i hroom
      cases h
      exact ⟨by simpa using fun hc => hopen (.inl hc), by simpa using fun hc => hopen (.inr hc),
        hroom, rfl⟩
    · cases h

theorem sent_eq_some (h : (c.send e).toOption = some c') :
    c.isOpen = true ∧ c.hasSender = true ∧ c.queue.length < c.capacity ∧
      c' = { c with queue := c.queue ++ [e] } := by
  cases hsend : c.send e with
  | ok c₁ =>
      rw [hsend] at h
      cases h
      exact send_eq_ok hsend
  | error e =>
      rw [hsend] at h
      cases h

theorem send_ne_closed (hopen : c.isOpen = true) (hsender : c.hasSender = true) :
    c.send e ≠ .error .closed := by
  unfold send
  simp only [hopen, hsender, not_true_eq_false, or_self, if_false]
  split <;> simp

theorem receive_eq_item (h : c.receive = .item e c') :
    ∃ rest, c.queue = e :: rest ∧ c' = { c with queue := rest } := by
  unfold receive at h
  split at h
  · rename_i rest hqueue
    cases h
    exact ⟨rest, hqueue, rfl⟩
  · split at h <;> cases h

theorem receive_eq_finished (h : c.receive = .finished) :
    c.queue = [] ∧ c.hasSender = false := by
  unfold receive at h
  split at h
  · cases h
  · rename_i hqueue
    split at h
    · cases h
    · rename_i hsender
      exact ⟨hqueue, by simpa using hsender⟩

/-- The receiver learns that it is to stop: it is asked to, or there is nobody left to send. -/
def Over (c : Channel α) : Prop :=
  (∃ rest, c.queue = .shutdown :: rest) ∨ c.queue = [] ∧ c.hasSender = false

theorem Over.queue_ne (h : c.Over) (x : α) (rest : List (Envelope α)) :
    c.queue ≠ .message x :: rest := by
  rcases h with ⟨rest', hqueue⟩ | ⟨hqueue, _⟩
  · simp [hqueue]
  · simp [hqueue]

end Channel

namespace System

variable {s s' : System}

/-- What the EMM task does once a handler has stopped somewhere. -/
def phaseAfter (ue : UeId) : Progress → EmmPhase
  | .publish n next => .publishing ue n next
  | .done (.crashed crash) => .crashed crash
  | .done _ => .receiving

section Follow

variable (s) (ue : UeId) (p : Progress)

theorem exists_follow_eq :
    ∃ m, (m = s.mme ∨ ∃ e, m = s.mme.emit e) ∧
      s.follow ue p =
        { s with
          mme := m
          inbox := match p with
            | .done (.crashed _) => s.inbox.close
            | _ => s.inbox
          emm := phaseAfter ue p } := by
  unfold follow
  split
  · -- an outcome is logged by one event at most
    unfold conclude
    split <;> first | exact ⟨_, .inl rfl, rfl⟩ | exact ⟨_, .inr ⟨_, rfl⟩, rfl⟩
  · exact ⟨_, .inl rfl, rfl⟩

theorem mme_follow : (s.follow ue p).mme = s.mme ∨ ∃ e, (s.follow ue p).mme = s.mme.emit e := by
  obtain ⟨m, hm, h⟩ := exists_follow_eq s ue p
  rw [h]
  exact hm

theorem edits_follow (occasion : Occasion) : Edits occasion s.mme (s.follow ue p).mme := by
  rcases mme_follow s ue p with h | ⟨e, h⟩
  · rw [h]
  · rw [h]
    exact Mme.edits_emit _ _

@[simp]
theorem store_follow : (s.follow ue p).mme.store = s.mme.store := by
  rcases mme_follow s ue p with h | ⟨e, h⟩ <;> simp [h]

@[simp]
theorem timers_follow : (s.follow ue p).mme.timers = s.mme.timers := by
  rcases mme_follow s ue p with h | ⟨e, h⟩ <;> simp [h]

@[simp]
theorem context?_follow (u : UeId) :
    (s.follow ue p).mme.context? u = s.mme.context? u := by
  simp [Mme.context?]

@[simp]
theorem bus_follow : (s.follow ue p).bus = s.bus := by
  obtain ⟨m, -, h⟩ := exists_follow_eq s ue p
  rw [h]

@[simp]
theorem appRunning_follow : (s.follow ue p).appRunning = s.appRunning := by
  obtain ⟨m, -, h⟩ := exists_follow_eq s ue p
  rw [h]

@[simp]
theorem expiries_follow : (s.follow ue p).expiries = s.expiries := by
  obtain ⟨m, -, h⟩ := exists_follow_eq s ue p
  rw [h]

@[simp]
theorem config_follow : (s.follow ue p).config = s.config := by
  obtain ⟨m, -, h⟩ := exists_follow_eq s ue p
  rw [h]

@[simp]
theorem emm_follow : (s.follow ue p).emm = phaseAfter ue p := by
  obtain ⟨m, -, h⟩ := exists_follow_eq s ue p
  rw [h]

theorem inbox_follow :
    (s.follow ue p).inbox =
      match p with
      | .done (.crashed _) => s.inbox.close
      | _ => s.inbox := by
  obtain ⟨m, -, h⟩ := exists_follow_eq s ue p
  rw [h]

end Follow

theorem beginMessage_eq (s : System) (msg : Message) :
    s.beginMessage msg =
      { s with
        mme := ((s.mme.emit (.exchanged .received msg.primitive msg.ue)).begin s.config msg).1
        handled := s.handled + 1 }.follow msg.ue
          ((s.mme.emit (.exchanged .received msg.primitive msg.ue)).begin s.config msg).2 :=
  rfl

theorem resume_eq (s : System) (ue : UeId) (n : Notification) (next : Resumption)
    (d : Delivery) :
    s.resume ue n next d =
      { s with mme := (s.mme.resume s.config n next d).1 }.follow ue
        (s.mme.resume s.config n next d).2 :=
  rfl

/-! ### What the moves of the tasks are -/

theorem receive?_eq_some (h : s.receive? = some s') :
    s.emm = .receiving ∧
      ((∃ msg rest, s.inbox.queue = .message msg :: rest ∧
          s' = { s with inbox := { s.inbox with queue := rest } }.beginMessage msg) ∨
        s.inbox.Over ∧ (∃ log, s'.mme = { s.mme with log }) ∧ s'.emm = .stopped ∧
          s'.inbox.queue = [] ∧ s'.bus = s.bus ∧ s'.expiries = s.expiries) := by
  unfold receive? at h
  split at h
  · rename_i hemm
    refine ⟨hemm, ?_⟩
    split at h
    · rename_i msg inbox hitem
      obtain ⟨rest, hqueue, rfl⟩ := Channel.receive_eq_item hitem
      cases h
      exact .inl ⟨msg, rest, hqueue, rfl⟩
    · rename_i inbox hitem
      obtain ⟨rest, hqueue, rfl⟩ := Channel.receive_eq_item hitem
      cases h
      exact .inr ⟨.inl ⟨rest, hqueue⟩, ⟨_, rfl⟩, rfl, rfl, rfl, rfl⟩
    · cases h
    · rename_i hfinished
      cases h
      exact .inr ⟨.inr (Channel.receive_eq_finished hfinished), ⟨_, rfl⟩, rfl, rfl, rfl, rfl⟩
  · cases h

theorem offer?_eq_some {n : Notification} {s₁ : System} {d : Delivery}
    (h : s.offer? n = some (s₁, d)) :
    (∃ bus, s.bus.send (.message n) = .ok bus ∧
        s₁ = { s with bus }.emit (.exchanged .sent n.primitive n.ue) ∧ d = .accepted) ∨
      s.bus.send (.message n) = .error .closed ∧ s₁ = s ∧ d = .refused .closed := by
  unfold offer? at h
  split at h
  · rename_i bus hsend
    cases h
    exact .inl ⟨bus, hsend, rfl, rfl⟩
  · rename_i hsend
    cases h
    exact .inr ⟨hsend, rfl, rfl⟩
  · cases h

theorem publish?_eq_some (h : s.publish? = some s') :
    ∃ ue n next s₁ d, s.emm = .publishing ue n next ∧ s.offer? n = some (s₁, d) ∧
      s' = s₁.resume ue n next d := by
  unfold publish? at h
  split at h
  · rename_i ue n next hemm
    obtain ⟨⟨s₁, d⟩, hoffer, rfl⟩ := Option.map_eq_some_iff.1 h
    exact ⟨ue, n, next, s₁, d, hemm, hoffer, rfl⟩
  · cases h

theorem takeNotification?_eq_some (h : s.takeNotification? = some s') :
    s'.emm = s.emm ∧ s'.inbox = s.inbox ∧ s'.expiries = s.expiries ∧ s'.config = s.config ∧
      ((∃ n rest, s.bus.queue = .message n :: rest ∧ s'.mme = s.mme.apply n ∧
          s'.bus = { s.bus with queue := rest }) ∨
        s.bus.Over ∧ ∃ log, s'.mme = { s.mme with log }) := by
  unfold takeNotification? at h
  split at h
  · split at h
    · rename_i n bus hitem
      obtain ⟨rest, hqueue, rfl⟩ := Channel.receive_eq_item hitem
      cases h
      unfold applyNotification
      split <;> exact ⟨rfl, rfl, rfl, rfl, .inl ⟨_, rest, hqueue, rfl, rfl⟩⟩
    · rename_i bus hitem
      obtain ⟨rest, hqueue, rfl⟩ := Channel.receive_eq_item hitem
      cases h
      exact ⟨rfl, rfl, rfl, rfl, .inr ⟨.inl ⟨rest, hqueue⟩, ⟨_, rfl⟩⟩⟩
    · cases h
    · rename_i hfinished
      cases h
      exact ⟨rfl, rfl, rfl, rfl, .inr ⟨.inr (Channel.receive_eq_finished hfinished), ⟨_, rfl⟩⟩⟩
  · cases h

theorem fireOne?_eq_some {timer : TimerId} (h : s.fireOne? timer = some s') :
    ∃ a ∈ s.mme.timers.armed, a.id = timer ∧ s.mme.timers.isDue a = true ∧
      s' = { s with
        mme := { s.mme with timers := s.mme.timers.stop timer }
        expiries := s.expiries ++ [a.expiry] } := by
  obtain ⟨a, hfind, rfl⟩ := Option.map_eq_some_iff.1 h
  have hdue := List.find?_some hfind
  simp only [decide_eq_true_eq] at hdue
  exact ⟨a, List.mem_of_find?_eq_some hfind, hdue.1, hdue.2, rfl⟩

theorem deliverExpiry?_eq_some (h : s.deliverExpiry? = some s') :
    ∃ e rest, s.expiries = e :: rest ∧
      ((∃ inbox, s.inbox.send (.message (.expired e)) = .ok inbox ∧
          s' = { s with inbox, expiries := rest }) ∨
        s.inbox.send (.message (.expired e)) = .error .closed ∧
          s' = { s with expiries := rest }.emit (.expiryDropped e)) := by
  unfold deliverExpiry? at h
  split at h
  · cases h
  · rename_i e rest hexpiries
    refine ⟨e, rest, hexpiries, ?_⟩
    split at h
    · rename_i inbox hsend
      cases h
      exact .inl ⟨inbox, hsend, rfl⟩
    · rename_i hsend
      cases h
      exact .inr ⟨hsend, rfl⟩
    · cases h

/-- What becomes of the inbox, and of the expiries on their way to it, in a move that is not one of
the EMM task. -/
inductive Traffic (s s' : System) : Move → Prop
  | still {a : Move} (hinbox : s'.inbox = s.inbox) (hexpiries : s'.expiries = s.expiries) :
      Traffic s s' a
  | fired {id : TimerId} {e : Expiry} (hinbox : s'.inbox = s.inbox)
      (hexpiries : s'.expiries = s.expiries ++ [e]) : Traffic s s' (.fire id)
  | delivered {e : Expiry} (hexpiries : s.expiries = e :: s'.expiries)
      (hsend : s.inbox.send (.message (.expired e)) = .ok s'.inbox) : Traffic s s' .deliver
  | dropped {e : Expiry} (hexpiries : s.expiries = e :: s'.expiries)
      (hinbox : s'.inbox = s.inbox)
      (hclosed : s.inbox.send (.message (.expired e)) = .error .closed) : Traffic s s' .deliver
  | sent {msg : Message}
      (hinbox : s'.inbox = { s.inbox with queue := s.inbox.queue ++ [.message msg] })
      (hexpiries : s'.expiries = s.expiries) : Traffic s s' (.send msg)
  | asked (hinbox : s'.inbox = { s.inbox with queue := s.inbox.queue ++ [.shutdown] })
      (hexpiries : s'.expiries = s.expiries) : Traffic s s' .askEmmToStop

theorem traffic_of_step {a : Move} (hreceive : a ≠ .receive) (hpublish : a ≠ .publish)
    (hstep : s.step? a = some s') : s'.emm = s.emm ∧ Traffic s s' a := by
  cases a with
  | receive => exact absurd rfl hreceive
  | publish => exact absurd rfl hpublish
  | take =>
      obtain ⟨hemm, hinbox, hexpiries, _⟩ := takeNotification?_eq_some hstep
      exact ⟨hemm, .still hinbox hexpiries⟩
  | discard =>
      simp only [step?] at hstep
      split at hstep <;> cases hstep
      exact ⟨rfl, .still rfl rfl⟩
  | fire id =>
      obtain ⟨b, _, _, _, rfl⟩ := fireOne?_eq_some hstep
      exact ⟨rfl, .fired rfl rfl⟩
  | deliver =>
      obtain ⟨e, rest, hexpiries, ⟨inbox, hsend, rfl⟩ | ⟨hclosed, rfl⟩⟩ :=
        deliverExpiry?_eq_some hstep
      · exact ⟨rfl, .delivered hexpiries hsend⟩
      · exact ⟨rfl, .dropped hexpiries rfl hclosed⟩
  | advance d =>
      cases hstep
      exact ⟨rfl, .still rfl rfl⟩
  | send msg =>
      obtain ⟨inbox, hsend, rfl⟩ := Option.map_eq_some_iff.1 hstep
      exact ⟨rfl, .sent (Channel.sent_eq_some hsend).2.2.2 rfl⟩
  | askEmmToStop =>
      obtain ⟨inbox, hsend, rfl⟩ := Option.map_eq_some_iff.1 hstep
      exact ⟨rfl, .asked (Channel.sent_eq_some hsend).2.2.2 rfl⟩
  | askAppToStop =>
      obtain ⟨bus, _, rfl⟩ := Option.map_eq_some_iff.1 hstep
      exact ⟨rfl, .still rfl rfl⟩
  | closeBus =>
      cases hstep
      exact ⟨rfl, .still rfl rfl⟩
  | tearDown ue =>
      cases hstep
      exact ⟨rfl, .still rfl rfl⟩
  | act action =>
      cases hstep
      exact ⟨rfl, .still rfl rfl⟩

/-- What becomes of the bus, and of the application task that takes from it. -/
inductive Uptake (s s' : System) : Move → Prop
  | still {a : Move} (htake : a ≠ .take) (hbus : s'.bus = s.bus)
      (happ : s'.appRunning = s.appRunning) : Uptake s s' a
  | published {ue : UeId} {n : Notification} {next : Resumption}
      (hemm : s.emm = .publishing ue n next) (hsend : s.bus.send (.message n) = .ok s'.bus)
      (happ : s'.appRunning = s.appRunning) : Uptake s s' .publish
  | taken {n : Notification} {rest : List (Envelope Notification)} (hrunning : s.appRunning = true)
      (hqueue : s.bus.queue = .message n :: rest) (hbus : s'.bus = { s.bus with queue := rest })
      (happ : s'.appRunning = true) : Uptake s s' .take
  | stopped (hrunning : s.appRunning = true) (hover : s.bus.Over) (hbus : s'.bus = s.bus.close)
      (happ : s'.appRunning = false) : Uptake s s' .take
  | discarded {e : Envelope Notification} {rest : List (Envelope Notification)}
      (hqueue : s.bus.queue = e :: rest) (hbus : s'.bus = { s.bus with queue := rest })
      (happ : s'.appRunning = s.appRunning) : Uptake s s' .discard
  | asked (hopen : s.bus.isOpen = true) (hsender : s.bus.hasSender = true)
      (hbus : s'.bus = { s.bus with queue := s.bus.queue ++ [.shutdown] })
      (happ : s'.appRunning = s.appRunning) : Uptake s s' .askAppToStop
  | closed (hbus : s'.bus = s.bus.close) (happ : s'.appRunning = s.appRunning) :
      Uptake s s' .closeBus

theorem uptake_of_step {a : Move} (hstep : s.step? a = some s') : Uptake s s' a := by
  cases a with
  | receive =>
      change s.receive? = some s' at hstep
      unfold receive? at hstep
      split at hstep
      · split at hstep <;> cases hstep
        · refine .still nofun ?_ ?_
          · rw [beginMessage_eq, bus_follow]
          · rw [beginMessage_eq, appRunning_follow]
        · exact .still nofun rfl rfl
        · exact .still nofun rfl rfl
      · cases hstep
  | publish =>
      obtain ⟨ue, n, next, s₁, d, hemm, hoffer, rfl⟩ := publish?_eq_some hstep
      obtain ⟨bus, hsend, rfl, _⟩ | ⟨_, rfl, _⟩ := offer?_eq_some hoffer
      · refine .published hemm ?_ ?_
        · rw [resume_eq, bus_follow]
          exact hsend
        · rw [resume_eq, appRunning_follow]
          rfl
      · refine .still nofun ?_ ?_
        · rw [resume_eq, bus_follow]
        · rw [resume_eq, appRunning_follow]
  | take =>
      change s.takeNotification? = some s' at hstep
      unfold takeNotification? at hstep
      split at hstep
      · rename_i hrunning
        split at hstep
        · rename_i n bus hitem
          obtain ⟨rest, hqueue, rfl⟩ := Channel.receive_eq_item hitem
          cases hstep
          unfold applyNotification
          split <;> exact .taken hrunning hqueue rfl hrunning
        · rename_i bus hitem
          obtain ⟨rest, hqueue, rfl⟩ := Channel.receive_eq_item hitem
          cases hstep
          exact .stopped hrunning (.inl ⟨rest, hqueue⟩) rfl rfl
        · cases hstep
        · rename_i hfinished
          cases hstep
          exact .stopped hrunning (.inr (Channel.receive_eq_finished hfinished)) rfl rfl
      · cases hstep
  | discard =>
      simp only [step?] at hstep
      split at hstep <;> cases hstep
      rename_i hitem
      obtain ⟨rest, hqueue, rfl⟩ := Channel.receive_eq_item hitem
      exact .discarded hqueue rfl rfl
  | fire id =>
      obtain ⟨_, _, _, _, rfl⟩ := fireOne?_eq_some hstep
      exact .still nofun rfl rfl
  | deliver =>
      obtain ⟨_, _, _, ⟨_, _, rfl⟩ | ⟨_, rfl⟩⟩ := deliverExpiry?_eq_some hstep
      · exact .still nofun rfl rfl
      · exact .still nofun rfl rfl
  | send msg | askEmmToStop =>
      obtain ⟨_, _, rfl⟩ := Option.map_eq_some_iff.1 hstep
      exact .still nofun rfl rfl
  | askAppToStop =>
      obtain ⟨bus, hsend, rfl⟩ := Option.map_eq_some_iff.1 hstep
      obtain ⟨hopen, hsender, _, hbus⟩ := Channel.sent_eq_some hsend
      exact .asked hopen hsender hbus rfl
  | closeBus =>
      cases hstep
      exact .closed rfl rfl
  | advance d | tearDown ue | act action =>
      cases hstep
      exact .still nofun rfl rfl

/-! ### What a move does to the shared state -/

/-- The expiry that the EMM task handles in a move. -/
def expiryAtHand (s : System) : Move → Option Expiry
  | .receive =>
      match s.inbox.queue with
      | .message msg :: _ => msg.expiry?
      | _ => none
  | _ => none

def occasion (s : System) (a : Move) : Occasion := ⟨s.expiryAtHand a, s.mme.timers.nextId⟩

end System

/-- What the application layer does to the shared state when it takes a notification. -/
inductive Application (m : Mme) : Mme → Prop
  | log (log : List Log.Event) : Application m { m with log }
  | register {ue : UeId} {c : Context} {imsi : Imsi} (hc : m.context? ue = some c)
      (hcarried : c.imsi = some imsi) :
      Application m { m with registry := m.registry.register imsi ue }
  | unregister (ue : UeId) (log : List Log.Event) : Application m { m.unregister ue with log }
  | tearDown (ue : UeId) (e : Log.Event) : Application m ((m.emit e).tearDown ue)

theorem Mme.application (m : Mme) (n : Notification) : Application m (m.apply n) := by
  cases n with
  | sendIdentityRequest ue requested security => exact .log _
  | procedureStarted ue => exact .log _
  | procedureConfirmed ue ending =>
      simp only [Mme.apply, registerImsi]
      split
      · split
        · rename_i imsi hcarried
          obtain ⟨c, hc, himsi⟩ := Option.bind_eq_some_iff.1 hcarried
          exact .register hc himsi
        · exact .log m.log
      · exact .log m.log
  | procedureAborted ue ending cause => exact .log _
  | teardownSession ue cause => exact .tearDown ue _
  | applicationTeardown ue =>
      simp only [Mme.apply]
      split
      · exact .unregister ue _
      · exact .log m.log
  | specificProcedureRetry ue procedure old =>
      simp only [Mme.apply, reportOld]
      split
      · exact .log _
      · exact .log _

/-- What a move may do to the shared state: the edits of a handler, a note in the log, or what the
application layer, the timers and the owner of the contexts do. -/
inductive Change (occasion : Occasion) (m : Mme) : Move → Mme → Prop
  | edits {a : Move} {m' : Mme} (ha : a = .receive ∨ a = .publish) (h : Edits occasion m m') :
      Change occasion m a m'
  | log {a : Move} (log : List Log.Event) : Change occasion m a { m with log }
  | apply {m' : Mme} (h : Application m m') : Change occasion m .take m'
  | fire {a : ArmedTimer} (ha : a ∈ m.timers.armed) (hdue : m.timers.isDue a = true) :
      Change occasion m (.fire a.id) { m with timers := m.timers.stop a.id }
  | advance (d : Duration) :
      Change occasion m (.advance d) { m with timers := m.timers.advance d }
  | tearDown (ue : UeId) : Change occasion m (.tearDown ue) (m.tearDown ue)
  | act (action : Bench.Action) : Change occasion m (.act action) (action.run m).1

namespace System

variable {s s' : System}

theorem change_of_receive (h : s.receive? = some s') :
    Change (s.occasion .receive) s.mme .receive s'.mme := by
  obtain ⟨_, ⟨msg, rest, hqueue, rfl⟩ | ⟨_, ⟨log, hlog⟩, _⟩⟩ := receive?_eq_some h
  · have hoccasion : s.occasion .receive = ⟨msg.expiry?, s.mme.timers.nextId⟩ := by
      simp [occasion, expiryAtHand, hqueue]
    rw [hoccasion, beginMessage_eq]
    refine .edits (.inl rfl) (Relation.ReflTransGen.trans ?_ (edits_follow _ _ _ _))
    have hbegin := Mme.begin_edits (s.mme.emit (.exchanged .received msg.primitive msg.ue))
      s.config msg
    exact (Mme.edits_emit s.mme _).trans hbegin
  · rw [hlog]
    exact .log log

theorem change_of_publish (h : s.publish? = some s') :
    Change (s.occasion .publish) s.mme .publish s'.mme := by
  obtain ⟨ue, n, next, s₁, d, _, hoffer, rfl⟩ := publish?_eq_some h
  have htaken : Edits (s.occasion .publish) s.mme s₁.mme ∧ s₁.mme.timers = s.mme.timers := by
    obtain ⟨bus, _, rfl, _⟩ | ⟨_, rfl, _⟩ := offer?_eq_some hoffer
    · exact ⟨Mme.edits_emit s.mme _, rfl⟩
    · exact ⟨.refl, rfl⟩
  rw [resume_eq]
  refine .edits (.inr rfl) (Relation.ReflTransGen.trans ?_ (edits_follow _ _ _ _))
  have hresume := Mme.resume_edits s₁.mme s₁.config n next d
  rw [htaken.2] at hresume
  exact htaken.1.trans hresume

/-- Every move changes the shared state in one of a few ways. -/
theorem step_change {a : Move} (h : s.step? a = some s') :
    Change (s.occasion a) s.mme a s'.mme := by
  cases a with
  | receive => exact change_of_receive h
  | publish => exact change_of_publish h
  | take =>
      obtain ⟨_, _, _, _, ⟨n, rest, _, hmme, _⟩ | ⟨_, ⟨log, hlog⟩⟩⟩ := takeNotification?_eq_some h
      · rw [hmme]
        exact .apply (s.mme.application n)
      · rw [hlog]
        exact .log log
  | discard =>
      simp only [step?] at h
      split at h <;> cases h
      exact .log s.mme.log
  | fire timer =>
      obtain ⟨a, ha, rfl, hdue, rfl⟩ := fireOne?_eq_some h
      exact .fire ha hdue
  | deliver =>
      obtain ⟨e, rest, _, ⟨inbox, _, rfl⟩ | ⟨_, rfl⟩⟩ := deliverExpiry?_eq_some h
      · exact .log s.mme.log
      · exact .log _
  | advance d =>
      cases h
      exact .advance d
  | send msg =>
      obtain ⟨inbox, _, rfl⟩ := Option.map_eq_some_iff.1 h
      exact .log s.mme.log
  | askEmmToStop =>
      obtain ⟨inbox, _, rfl⟩ := Option.map_eq_some_iff.1 h
      exact .log s.mme.log
  | askAppToStop =>
      obtain ⟨bus, _, rfl⟩ := Option.map_eq_some_iff.1 h
      exact .log s.mme.log
  | closeBus =>
      cases h
      exact .log s.mme.log
  | tearDown ue =>
      cases h
      exact .tearDown ue
  | act action =>
      cases h
      exact .act action

end System

end Emm
