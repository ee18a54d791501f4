import Mathlib.Data.List.Nodup
import Mathlib.Data.List.Perm.Basic
import Emm.Proofs.Run

/-!
The timer service by itself, between its callers and the inbox to which expiries go. A `TimerRun`
is any sequence of calls, of time going by, of timers firing and of traffic in the inbox.

Main statement: `timers_reliable`, which says of every run that a timer fires when it is over and
has not been stopped, at no other time, and that it is heard of once. What `TimerReliable` lists
rests on `TimerAccounts`, which every move keeps.
-/

namespace Emm

inductive TimerCall
  | start (ue : UeId) (kind : TimerKind) (interval : Duration)
  | stop (timer : TimerId)
  | stopAll

def TimerCall.action : TimerCall → Bench.Action
  | start ue kind interval => .startTimer ue kind interval
  | stop timer => .stopTimer timer
  | stopAll => .stopAllTimers

/-- What may happen next to the timer service, or between it and the receiver of the expiries. -/
inductive TimerMove
  | call (c : TimerCall)
  | advance (d : Duration)
  /-- All waits that are over end: the timers that are due fire. -/
  | fire
  /-- The oldest expiry enters the inbox. -/
  | deliver
  /-- The receiver takes what is next in its inbox. -/
  | take
  /-- Somebody else sends something to the receiver. -/
  | send (e : Envelope Message)

namespace System

/-- The state after a move and the reply to it. -/
def timerStep? (s : System) : TimerMove → Option (System × Bench.ActionReply)
  | .call c =>
      let (mme, reply) := c.action.run s.mme
      some ({ s with mme }, reply)
  | .advance d => some (s.advance d, .done)
  | .fire => some (s.fire, .done)
  | .deliver => s.deliverExpiry?.map fun s => (s, .done)
  | .take =>
      match s.inbox.receive with
      | .item _ inbox => some ({ s with inbox }, .done)
      | .empty | .finished => none
  | .send e => (s.inbox.send e).toOption.map fun inbox => ({ s with inbox }, .done)

/-- A timer is started for a time that the clock can express. -/
def Timely (s : System) : TimerMove → Prop
  | .call (.start _ _ interval) => (s.mme.timers.now.after? interval).isSome
  | _ => True

instance (s : System) : (a : TimerMove) → Decidable (s.Timely a)
  | .call (.start _ _ interval) =>
      inferInstanceAs (Decidable ((s.mme.timers.now.after? interval).isSome))
  | .call (.stop _) | .call .stopAll | .advance _ | .fire | .deliver | .take | .send _ =>
      .isTrue trivial

end System

/-- A move, the states before and after it, and the reply to it. -/
structure TimerMoment where
  before : System
  move : TimerMove
  reply : Bench.ActionReply
  after : System

inductive TimerRun : System → List TimerMoment → System → Prop
  | nil (s : System) : TimerRun s [] s
  | cons {ms : List TimerMoment} {s s₁ s' : System} {a : TimerMove} {reply : Bench.ActionReply}
      (htimely : s.Timely a) (hstep : s.timerStep? a = some (s₁, reply)) (run : TimerRun s₁ ms s') :
      TimerRun s (⟨s, a, reply, s₁⟩ :: ms) s'

namespace TimerMoment

/-- The timer that has been started, under the identifier that was returned. -/
def started? (x : TimerMoment) : Option ArmedTimer :=
  match x.move, x.reply with
  | .call (.start ue kind interval), .timer id =>
      some ⟨⟨id, ue, kind⟩, ⟨x.before.mme.timers.now.millis + interval.millis⟩⟩
  | _, _ => none

/-- The timers that have been stopped: the one of which the reply says so, or all. -/
def stopped (x : TimerMoment) : List TimerId :=
  match x.move, x.reply with
  | .call (.stop id), .flag true => [id]
  | .call .stopAll, _ => x.before.mme.timers.armed.map (·.id)
  | _, _ => []

/-- What the timers that have fired leave to be delivered. -/
def fired (x : TimerMoment) : List Expiry :=
  match x.move with
  | .fire => x.before.mme.timers.due
  | _ => []

def delivered? (x : TimerMoment) : Option Expiry :=
  match x.move with
  | .deliver => x.before.expiries.head?
  | _ => none

theorem mem_fired_iff (x : TimerMoment) (e : Expiry) :
    e ∈ x.fired ↔ x.move = .fire ∧ ∃ t ∈ x.before.mme.timers.armed,
      t.expiry = e ∧ t.deadline.millis ≤ x.before.mme.timers.now.millis := by
  unfold fired
  split
  · rename_i hfire
    simp [hfire, Timers.due, Timers.isDue, and_right_comm, and_assoc]
  · rename_i hother
    simp only [List.not_mem_nil, false_iff, not_and]
    exact fun hfire => (hother hfire).elim

/-- Somebody wants the timer to be stopped. -/
def AsksToStop (x : TimerMoment) (id : TimerId) : Prop :=
  x.move = .call (.stop id) ∨ x.move = .call .stopAll

end TimerMoment

section

variable (ms : List TimerMoment)

def startedIn : List ArmedTimer := ms.filterMap TimerMoment.started?

def stoppedIn : List TimerId := ms.flatMap TimerMoment.stopped

def firedIn : List Expiry := ms.flatMap TimerMoment.fired

def deliveredIn : List Expiry := ms.filterMap TimerMoment.delivered?

variable (x : TimerMoment)

theorem startedIn_snoc : startedIn (ms ++ [x]) = startedIn ms ++ x.started?.toList :=
  filterMap_snoc _ ms x

theorem stoppedIn_snoc : stoppedIn (ms ++ [x]) = stoppedIn ms ++ x.stopped := by
  simp [stoppedIn]

theorem firedIn_snoc : firedIn (ms ++ [x]) = firedIn ms ++ x.fired := by
  simp [firedIn]

theorem deliveredIn_snoc : deliveredIn (ms ++ [x]) = deliveredIn ms ++ x.delivered?.toList :=
  filterMap_snoc _ ms x

end

/-- What has become of a timer that was started. -/
inductive TimerState
  | armed
  | stopped
  | fired

def TimerState.Of (ms : List TimerMoment) (s : System) (id : TimerId) : TimerState → Prop
  | armed => s.mme.timers.isArmed id = true
  | stopped => id ∈ stoppedIn ms
  | fired => id ∈ (firedIn ms).map (·.timer)

/-! ### What a move does -/

/-- What a move does to the timers, to the expiries on their way and to the inbox, if there is a
receiver. -/
inductive TimerEffect (s : System) : TimerMove → Bench.ActionReply → System → Prop
  | start {s' : System} (ue : UeId) (kind : TimerKind) (interval : Duration)
      (htimers : s'.mme.timers =
        { now := s.mme.timers.now
          nextId := s.mme.timers.nextId.next
          armed := s.mme.timers.armed ++
            [⟨⟨s.mme.timers.nextId, ue, kind⟩, ⟨s.mme.timers.now.millis + interval.millis⟩⟩] })
      (hexpiries : s'.expiries = s.expiries) (hinbox : s'.inbox = s.inbox) :
      TimerEffect s (.call (.start ue kind interval)) (.timer s.mme.timers.nextId) s'
  | stop {s' : System} (id : TimerId) (htimers : s'.mme.timers = s.mme.timers.stop id)
      (hexpiries : s'.expiries = s.expiries) (hinbox : s'.inbox = s.inbox)
      (hidle : s.mme.timers.isArmed id = false → s' = s) :
      TimerEffect s (.call (.stop id)) (.flag (s.mme.timers.isArmed id)) s'
  | stopAll :
      TimerEffect s (.call .stopAll) .done
        { s with mme := { s.mme with timers := s.mme.timers.stopAll } }
  | advance (d : Duration) : TimerEffect s (.advance d) .done (s.advance d)
  | fire : TimerEffect s .fire .done s.fire
  | deliver (e : Expiry) (rest : List Expiry) (hexpiries : s.expiries = e :: rest)
      (hroom : s.inbox.queue.length < s.inbox.capacity) :
      TimerEffect s .deliver .done
        { s with
          inbox := { s.inbox with queue := s.inbox.queue ++ [.message (.expired e)] }
          expiries := rest }
  | take (rest : List (Envelope Message)) :
      TimerEffect s .take .done { s with inbox := { s.inbox with queue := rest } }
  | send (e : Envelope Message) :
      TimerEffect s (.send e) .done
        { s with inbox := { s.inbox with queue := s.inbox.queue ++ [e] } }

namespace System

variable {s s' : System} {a : TimerMove} {reply : Bench.ActionReply}

/-- There is a receiver, and somebody who may send to it. -/
def Heard (s : System) : Prop := s.inbox.isOpen = true ∧ s.inbox.hasSender = true

theorem deliverExpiry?_of_heard (hheard : s.Heard) {e : Expiry} {rest : List Expiry}
    (hexpiries : s.expiries = e :: rest) (hroom : s.inbox.queue.length < s.inbox.capacity) :
    s.deliverExpiry? = some
      { s with
        inbox := { s.inbox with queue := s.inbox.queue ++ [.message (.expired e)] }
        expiries := rest } := by
  simp [deliverExpiry?, hexpiries, Channel.send, hheard.1, hheard.2, hroom]

theorem effect_of_timerStep (hheard : s.Heard) (htimely : s.Timely a)
    (hstep : s.timerStep? a = some (s', reply)) : TimerEffect s a reply s' := by
  cases a with
  | call c =>
      cases c with
      | start ue kind interval =>
          cases hstep
          refine .start ue kind interval ?_ rfl rfl
          obtain ⟨deadline, hdeadline⟩ := Option.isSome_iff_exists.1 htimely
          have heq : deadline = ⟨s.mme.timers.now.millis + interval.millis⟩ := by
            unfold Instant.after? at hdeadline
            split at hdeadline
            · exact (Option.some.inj hdeadline).symm
            · cases hdeadline
          refine (Mme.timers_startTimer s.mme ue kind interval).trans ?_
          simp only [Timers.start, Timers.deadline, hdeadline, Option.getD_some, heq]
      | stop id =>
          cases hstep
          refine .stop id (Mme.timers_stopTimer _ id) rfl rfl fun hidle => ?_
          simp [Mme.stopTimer, hidle]
      | stopAll =>
          cases hstep
          exact .stopAll
  | advance d =>
      cases hstep
      exact .advance d
  | fire =>
      cases hstep
      exact .fire
  | deliver =>
      simp only [timerStep?, Option.map_eq_some_iff] at hstep
      obtain ⟨s₁, hdeliver, hs₁⟩ := hstep
      cases hs₁
      cases hexpiries : s.expiries with
      | nil => simp [deliverExpiry?, hexpiries] at hdeliver
      | cons e rest =>
          by_cases hroom : s.inbox.queue.length < s.inbox.capacity
          · rw [deliverExpiry?_of_heard hheard hexpiries hroom] at hdeliver
            cases hdeliver
            exact .deliver e rest hexpiries hroom
          · simp [deliverExpiry?, hexpiries, Channel.send, hheard.1, hheard.2, hroom] at hdeliver
  | take =>
      simp only [timerStep?] at hstep
      split at hstep
      · rename_i e inbox hreceive
        obtain ⟨rest, _, rfl⟩ := Channel.receive_eq_item hreceive
        cases hstep
        exact .take rest
      · cases hstep
      · cases hstep
  | send e =>
      simp only [timerStep?, Option.map_eq_some_iff] at hstep
      obtain ⟨inbox, hsend, hs'⟩ := hstep
      obtain ⟨_, _, _, rfl⟩ := Channel.sent_eq_some hsend
      cases hs'
      exact .send e

end System

namespace TimerEffect

variable {s s' : System} {a : TimerMove} {reply : Bench.ActionReply}

theorem heard (h : TimerEffect s a reply s') (hheard : s.Heard) : s'.Heard := by
  cases h with
  | start ue kind interval htimers hexpiries hinbox =>
      rw [System.Heard, hinbox]
      exact hheard
  | stop id htimers hexpiries hinbox hidle =>
      rw [System.Heard, hinbox]
      exact hheard
  | _ => exact hheard

theorem nextId (h : TimerEffect s a reply s') :
    let x : TimerMoment := ⟨s, a, reply, s'⟩
    (x.started? = none ∧ s'.mme.timers.nextId = s.mme.timers.nextId) ∨
      ∃ t, x.started? = some t ∧ t.id = s.mme.timers.nextId ∧
        s'.mme.timers.nextId = s.mme.timers.nextId.next := by
  cases h with
  | start ue kind interval htimers hexpiries hinbox =>
      exact .inr ⟨_, rfl, rfl, by rw [htimers]⟩
  | stop id htimers hexpiries hinbox hidle => exact .inl ⟨rfl, by rw [htimers]; rfl⟩
  | _ => exact .inl ⟨rfl, rfl⟩

theorem mem_armed_iff (h : TimerEffect s a reply s') (t : ArmedTimer) :
    let x : TimerMoment := ⟨s, a, reply, s'⟩
    t ∈ s'.mme.timers.armed ↔
      x.started? = some t ∨
        t ∈ s.mme.timers.armed ∧ ¬x.AsksToStop t.id ∧
          (x.move = .fire → s.mme.timers.now.millis < t.deadline.millis) := by
  cases h with
  | start ue kind interval htimers hexpiries hinbox =>
      rw [htimers, List.mem_append, List.mem_singleton, or_comm]
      refine or_congr ?_ ?_
      · exact eq_comm.trans Option.some_inj.symm
      · simp [TimerMoment.AsksToStop]
  | stop id htimers hexpiries hinbox hidle =>
      simp [htimers, Timers.stop, TimerMoment.started?, TimerMoment.AsksToStop, @eq_comm _ id]
  | stopAll => simp [Timers.stopAll, TimerMoment.started?, TimerMoment.AsksToStop]
  | fire =>
      simp [System.fire, Timers.fire, Timers.isDue, TimerMoment.started?, TimerMoment.AsksToStop]
  | _ => simp [System.advance, Timers.advance, TimerMoment.started?, TimerMoment.AsksToStop]

theorem armed_perm (h : TimerEffect s a reply s') (hnodup : (s.mme.timers.armed.map (·.id)).Nodup) :
    let x : TimerMoment := ⟨s, a, reply, s'⟩
    (s.mme.timers.armed.map (·.id) ++ x.started?.toList.map (·.id)).Perm
      (s'.mme.timers.armed.map (·.id) ++ (x.stopped ++ x.fired.map (·.timer))) := by
  cases h with
  | start ue kind interval htimers hexpiries hinbox =>
      simp [htimers, TimerMoment.started?, TimerMoment.stopped, TimerMoment.fired]
  | stop id htimers hexpiries hinbox hidle =>
      -- an identifier is armed at most once, so stopping it erases a single entry
      have hleft : (s.mme.timers.stop id).armed.map (·.id) =
          (s.mme.timers.armed.map (·.id)).erase id := by
        rw [hnodup.erase_eq_filter, List.filter_map]
        simp only [Timers.stop, decide_not]
        rfl
      cases harmed : s.mme.timers.isArmed id with
      | true =>
          have hmem : id ∈ s.mme.timers.armed.map (·.id) := by
            simpa [Timers.isArmed] using harmed
          simp only [TimerMoment.started?, TimerMoment.stopped, TimerMoment.fired, htimers, hleft,
            Option.toList_none, List.map_nil, List.append_nil]
          exact (List.perm_cons_erase hmem).trans (List.perm_append_singleton id _).symm
      | false =>
          rw [hidle harmed]
          simp [TimerMoment.started?, TimerMoment.stopped, TimerMoment.fired]
  | stopAll =>
      simp [Timers.stopAll, TimerMoment.started?, TimerMoment.stopped, TimerMoment.fired]
  | fire =>
      have hsplit := (List.filter_append_perm s.mme.timers.isDue s.mme.timers.armed).symm.map
        ArmedTimer.id
      rw [List.map_append] at hsplit
      simp only [System.fire, Timers.fire, Timers.due, TimerMoment.started?, TimerMoment.stopped,
        TimerMoment.fired, Option.toList_none, List.map_nil, List.append_nil, List.nil_append,
        List.map_map]
      exact hsplit.trans List.perm_append_comm
  | _ =>
      simp [System.advance, Timers.advance, TimerMoment.started?, TimerMoment.stopped,
        TimerMoment.fired]

theorem expiries (h : TimerEffect s a reply s') :
    let x : TimerMoment := ⟨s, a, reply, s'⟩
    s.expiries ++ x.fired = x.delivered?.toList ++ s'.expiries := by
  cases h with
  | start ue kind interval htimers hexpiries hinbox =>
      simp [hexpiries, TimerMoment.fired, TimerMoment.delivered?]
  | stop id htimers hexpiries hinbox hidle =>
      simp [hexpiries, TimerMoment.fired, TimerMoment.delivered?]
  | fire => rfl
  | deliver e rest hexpiries hroom =>
      simp [hexpiries, TimerMoment.fired, TimerMoment.delivered?]
  | _ => exact List.append_nil _

theorem of_stop (h : TimerEffect s a reply s') {id : TimerId} (ha : a = .call (.stop id)) :
    reply = .flag (s.mme.timers.isArmed id) ∧ (s.mme.timers.isArmed id = false → s' = s) := by
  subst ha
  cases h with
  | stop _ htimers hexpiries hinbox hidle => exact ⟨rfl, hidle⟩

theorem enters (h : TimerEffect s a reply s') {e : Expiry}
    (hdelivered : (⟨s, a, reply, s'⟩ : TimerMoment).delivered? = some e) :
    s'.inbox.queue = s.inbox.queue ++ [.message (.expired e)] := by
  cases h with
  | deliver e' rest hexpiries hroom =>
      obtain rfl : e' = e := by
        simpa [TimerMoment.delivered?, hexpiries] using hdelivered
      rfl
  | _ => cases hdelivered

end TimerEffect

/-! ### What holds after a run -/

/-- The identifiers that the first `n` starts return. -/
def firstIds (n : Nat) : List TimerId := (List.range n).map fun k => ⟨UInt64.ofNat (k + 1)⟩

theorem firstIds_succ (n : Nat) : firstIds (n + 1) = firstIds n ++ [⟨UInt64.ofNat (n + 1)⟩] := by
  simp [firstIds, List.range_succ]

theorem next_ofNat (n : Nat) :
    TimerId.next ⟨UInt64.ofNat n⟩ = ⟨UInt64.ofNat (n + 1)⟩ := by
  simp [TimerId.next, UInt64.ofNat_add]

theorem nodup_firstIds {n : Nat} (hn : n ≤ UInt64.size) : (firstIds n).Nodup := by
  refine List.Nodup.map_on ?_ List.nodup_range
  intro k hk l hl heq
  have hmod : (k + 1) % UInt64.size = (l + 1) % UInt64.size := by
    simpa using congrArg (fun id : TimerId => id.val.toNat) heq
  simp only [List.mem_range] at hk hl
  have hsize : UInt64.size = 18446744073709551616 := rfl
  rw [hsize] at hmod hn
  omega

/-- Where the timers that have been started in `ms` are. -/
structure TimerAccounts (ms : List TimerMoment) (s : System) : Prop where
  heard : s.Heard
  nextId : s.mme.timers.nextId = ⟨UInt64.ofNat ((startedIn ms).length + 1)⟩
  ids : (startedIn ms).map (·.id) = firstIds (startedIn ms).length
  perm : ((startedIn ms).map (·.id)).Perm
    (s.mme.timers.armed.map (·.id) ++ (stoppedIn ms ++ (firedIn ms).map (·.timer)))
  armed : ∀ t ∈ s.mme.timers.armed, t ∈ startedIn ms
  fired : ∀ e ∈ firedIn ms, ∃ t ∈ startedIn ms, t.expiry = e
  queue : firedIn ms = deliveredIn ms ++ s.expiries

namespace TimerAccounts

variable {ms : List TimerMoment} {s s' : System} {a : TimerMove} {reply : Bench.ActionReply}

theorem idle (config : NasConfig) (inboxCapacity busCapacity : Nat) :
    TimerAccounts [] (System.idle config inboxCapacity busCapacity) where
  heard := ⟨rfl, rfl⟩
  nextId := rfl
  ids := rfl
  perm := .nil
  armed := nofun
  fired := nofun
  queue := rfl

theorem nodup (h : TimerAccounts ms s) (hcount : (startedIn ms).length ≤ UInt64.size) :
    ((startedIn ms).map (·.id)).Nodup := by
  rw [h.ids]
  exact nodup_firstIds hcount

theorem step (h : TimerAccounts ms s) (heffect : TimerEffect s a reply s')
    (hcount : (startedIn ms).length ≤ UInt64.size) :
    TimerAccounts (ms ++ [⟨s, a, reply, s'⟩]) s' := by
  have hnodup := (h.perm.nodup_iff.1 (h.nodup hcount))
  constructor
  · exact heffect.heard h.heard
  · rw [startedIn_snoc]
    obtain ⟨hnone, hsame⟩ | ⟨t, hsome, _, hnext⟩ := heffect.nextId
    · rw [hnone, hsame, h.nextId]
      simp
    · rw [hsome, hnext, h.nextId, next_ofNat]
      simp
  · rw [startedIn_snoc]
    obtain ⟨hnone, _⟩ | ⟨t, hsome, hid, _⟩ := heffect.nextId
    · simpa [hnone] using h.ids
    · simp [hsome, hid, h.ids, h.nextId, firstIds_succ]
  · refine List.perm_iff_count.2 fun id => ?_
    have hbefore := h.perm.count_eq id
    have hmove := (heffect.armed_perm (List.nodup_append.1 hnodup).1).count_eq id
    rw [startedIn_snoc, stoppedIn_snoc, firedIn_snoc]
    simp only [List.map_append, List.count_append] at hbefore hmove ⊢
    omega
  · intro t ht
    rw [startedIn_snoc, List.mem_append]
    obtain hstarted | ⟨hold, _⟩ := (heffect.mem_armed_iff t).1 ht
    · exact .inr (by simp [hstarted])
    · exact .inl (h.armed t hold)
  · intro e he
    rw [startedIn_snoc]
    rw [firedIn_snoc, List.mem_append, TimerMoment.mem_fired_iff] at he
    obtain hbefore | ⟨_, t, ht, rfl, _⟩ := he
    · obtain ⟨t, ht, rfl⟩ := h.fired e hbefore
      exact ⟨t, List.mem_append_left _ ht, rfl⟩
    · exact ⟨t, List.mem_append_left _ (h.armed t ht), rfl⟩
  · rw [firedIn_snoc, deliveredIn_snoc, h.queue, List.append_assoc, heffect.expiries,
      List.append_assoc]

theorem run {past : List TimerMoment} (h : TimerAccounts past s) (run : TimerRun s ms s')
    (hcount : (startedIn (past ++ ms)).length ≤ UInt64.size) : TimerAccounts (past ++ ms) s' := by
  induction run generalizing past with
  | nil s => simpa using h
  | @cons ms s s₁ s' a reply htimely hstep run ih =>
      have heffect := System.effect_of_timerStep h.heard htimely hstep
      have happend : past ++ ⟨s, a, reply, s₁⟩ :: ms = (past ++ [⟨s, a, reply, s₁⟩]) ++ ms := by
        simp
      rw [happend] at hcount ⊢
      refine ih (h.step heffect ?_) hcount
      simp only [startedIn, List.filterMap_append, List.length_append] at hcount ⊢
      omega

theorem disjoint (h : TimerAccounts ms s) (hcount : (startedIn ms).length ≤ UInt64.size) :
    (∀ id, s.mme.timers.isArmed id = true →
      id ∉ stoppedIn ms ∧ id ∉ (firedIn ms).map (·.timer)) ∧
    (∀ id ∈ stoppedIn ms, id ∉ (firedIn ms).map (·.timer)) ∧
    ((firedIn ms).map (·.timer)).Nodup := by
  obtain ⟨_, hrest, hdisjoint⟩ := List.nodup_append'.1 (h.perm.nodup_iff.1 (h.nodup hcount))
  obtain ⟨_, hfired, hdisjoint'⟩ := List.nodup_append'.1 hrest
  refine ⟨fun id harmed => ?_, fun id hid hfired => hdisjoint' hid hfired, hfired⟩
  have hmem : id ∈ s.mme.timers.armed.map (·.id) := by
    simpa [Timers.isArmed] using harmed
  exact ⟨fun hid => hdisjoint hmem (List.mem_append_left _ hid),
    fun hid => hdisjoint hmem (List.mem_append_right _ hid)⟩

theorem state_unique (h : TimerAccounts ms s) (hcount : (startedIn ms).length ≤ UInt64.size)
    {id : TimerId} (hid : id ∈ (startedIn ms).map (·.id)) :
    ∃! state, TimerState.Of ms s id state := by
  obtain ⟨harmed, hstopped, _⟩ := h.disjoint hcount
  have hmem := h.perm.mem_iff.1 hid
  rw [List.mem_append, List.mem_append] at hmem
  obtain hin | hin | hin := hmem
  · have hin : s.mme.timers.isArmed id = true := by
      simpa [Timers.isArmed] using hin
    refine ⟨.armed, hin, ?_⟩
    rintro (_ | _ | _) hstate
    · rfl
    · exact absurd hstate (harmed id hin).1
    · exact absurd hstate (harmed id hin).2
  · refine ⟨.stopped, hin, ?_⟩
    rintro (_ | _ | _) hstate
    · exact absurd hin (harmed id hstate).1
    · rfl
    · exact absurd hstate (hstopped id hin)
  · refine ⟨.fired, hin, ?_⟩
    rintro (_ | _ | _) hstate
    · exact absurd hin (harmed id hstate).2
    · exact absurd hin (hstopped id hstate)
    · rfl

end TimerAccounts

namespace TimerRun

variable {s s' : System} {ms pre post : List TimerMoment} {x : TimerMoment}

theorem split (run : TimerRun s (pre ++ x :: post) s') :
    TimerRun s pre x.before ∧ x.before.Timely x.move ∧
      x.before.timerStep? x.move = some (x.after, x.reply) ∧ TimerRun x.after post s' := by
  induction pre generalizing s with
  | nil =>
      cases run with
      | cons htimely hstep run => exact ⟨.nil _, htimely, hstep, run⟩
  | cons y pre ih =>
      cases run with
      | cons htimely hstep run =>
          obtain ⟨hpre, hx⟩ := ih run
          exact ⟨.cons htimely hstep hpre, hx⟩

/-- From its start on, a timer is armed as long as nobody asks for it to be stopped and no timers
fire after its time. -/
theorem still_armed_iff (run : TimerRun s ms s') (hheard : s.Heard) {t : ArmedTimer}
    (hfresh : t ∉ startedIn ms) :
    t ∈ s'.mme.timers.armed ↔ t ∈ s.mme.timers.armed ∧ ∀ y ∈ ms, ¬y.AsksToStop t.id ∧
      (y.move = .fire → y.before.mme.timers.now.millis < t.deadline.millis) := by
  induction run with
  | nil s => simp
  | @cons ms s s₁ s' a reply htimely hstep run ih =>
      have heffect := System.effect_of_timerStep hheard htimely hstep
      have hother : (⟨s, a, reply, s₁⟩ : TimerMoment).started? ≠ some t := by
        intro hstarted
        simp [startedIn, hstarted] at hfresh
      have hmem := (heffect.mem_armed_iff t).trans (or_iff_right hother)
      have hrest := ih (heffect.heard hheard) fun ht => hfresh (by
        rw [startedIn, List.filterMap_cons]
        split
        · exact ht
        · exact List.mem_cons_of_mem _ ht)
      rw [hrest, hmem, List.forall_mem_cons, and_assoc]

theorem effect (run : TimerRun s ms s') (hheard : s.Heard) :
    ∀ x ∈ ms, TimerEffect x.before x.move x.reply x.after := by
  induction run with
  | nil s => simp
  | cons htimely hstep run ih =>
      have heffect := System.effect_of_timerStep hheard htimely hstep
      rintro x (_ | ⟨_, hx⟩)
      · exact heffect
      · exact ih (heffect.heard hheard) x hx

end TimerRun

theorem System.delivers (n : Nat) {s : System} (hheard : s.Heard) (hn : n ≤ s.expiries.length)
    (hroom : s.inbox.queue.length + n ≤ s.inbox.capacity) :
    ∃ ms s', TimerRun s ms s' ∧ (∀ x ∈ ms, x.move = .deliver) ∧
      deliveredIn ms = s.expiries.take n ∧ s'.expiries = s.expiries.drop n ∧
      s'.inbox.queue = s.inbox.queue ++ (s.expiries.take n).map fun e => .message (.expired e) := by
  induction n generalizing s with
  | zero => exact ⟨[], s, .nil s, by simp, by simp [deliveredIn], by simp, by simp⟩
  | succ n ih =>
      obtain ⟨e, rest, hexpiries⟩ :=
        List.exists_cons_of_length_pos (Nat.lt_of_lt_of_le n.succ_pos hn)
      obtain ⟨s₁, hdeliver, hrest, hinbox⟩ : ∃ s₁, s.deliverExpiry? = some s₁ ∧
          s₁.expiries = rest ∧
          s₁.inbox = { s.inbox with queue := s.inbox.queue ++ [.message (.expired e)] } :=
        ⟨_, deliverExpiry?_of_heard hheard hexpiries (by omega), rfl, rfl⟩
      have hheard₁ : s₁.Heard := by
        rw [Heard, hinbox]
        exact hheard
      rw [hexpiries, List.length_cons] at hn
      have hroom₁ : s₁.inbox.queue.length + n ≤ s₁.inbox.capacity := by
        rw [hinbox]
        simp only [List.length_append, List.length_singleton]
        omega
      obtain ⟨ms, s', run, hmoves, htake, hdrop, hqueue⟩ :=
        ih hheard₁ (by rw [hrest]; omega) hroom₁
      refine ⟨⟨s, .deliver, .done, s₁⟩ :: ms, s', .cons trivial ?_ run, ?_, ?_, ?_, ?_⟩
      · simp only [timerStep?, hdeliver, Option.map_some]
      · rintro x (_ | ⟨_, hx⟩)
        · rfl
        · exact hmoves x hx
      · rw [hexpiries, List.take_succ_cons, ← hrest, ← htake]
        simp [deliveredIn, TimerMoment.delivered?, hexpiries]
      · rw [hdrop, hrest, hexpiries, List.drop_succ_cons]
      · rw [hqueue, hinbox, hrest, hexpiries, List.take_succ_cons, List.map_cons,
          List.append_assoc, List.singleton_append]

namespace TimerAccounts

variable {s₀ s : System} {ms pre post : List TimerMoment} {x w : TimerMoment} {t : ArmedTimer}

theorem before (h₀ : TimerAccounts [] s₀) (run : TimerRun s₀ (pre ++ x :: post) s)
    (hcount : (startedIn (pre ++ x :: post)).length ≤ UInt64.size) :
    TimerAccounts pre x.before := by
  refine h₀.run run.split.1 (Nat.le_trans ?_ hcount)
  simp [startedIn]

theorem active (h : TimerAccounts ms s) (hcount : (startedIn ms).length ≤ UInt64.size) :
    s.mme.timers.armed.length =
      (((startedIn ms).map (·.id)).filter s.mme.timers.isArmed).length := by
  have hunique := h.nodup hcount
  have harmed := (List.nodup_append.1 (h.perm.nodup_iff.1 hunique)).1
  have hperm : (s.mme.timers.armed.map (·.id)).Perm
      (((startedIn ms).map (·.id)).filter s.mme.timers.isArmed) := by
    refine (List.perm_ext_iff_of_nodup harmed (hunique.filter _)).2 fun id => ?_
    have hmem : s.mme.timers.isArmed id = true ↔ id ∈ s.mme.timers.armed.map (·.id) := by
      simp [Timers.isArmed]
    rw [List.mem_filter, hmem, and_iff_right_of_imp]
    rw [h.perm.mem_iff]
    exact List.mem_append_left _
  rw [← hperm.length_eq, List.length_map]

theorem startedIn_of_started (hstarted : w.started? = some t) :
    startedIn (pre ++ w :: post) = startedIn pre ++ t :: startedIn post := by
  simp [startedIn, hstarted]

theorem started_once (hunique : ((startedIn (pre ++ w :: post)).map (·.id)).Nodup)
    (hstarted : w.started? = some t) :
    t.id ∉ (startedIn pre).map (·.id) ∧ t.id ∉ (startedIn post).map (·.id) := by
  rw [startedIn_of_started hstarted, List.map_append, List.map_cons] at hunique
  obtain ⟨_, hpost, hdisjoint⟩ := List.nodup_append'.1 hunique
  refine ⟨fun hpre => ?_, (List.nodup_cons.1 hpost).1⟩
  exact List.disjoint_left.1 hdisjoint hpre List.mem_cons_self

variable (h₀ : TimerAccounts [] s₀) (run : TimerRun s₀ ms s)
  (hcount : (startedIn ms).length ≤ UInt64.size)

include h₀ run hcount

theorem not_fired_before (hms : ms = pre ++ w :: post) (hstarted : w.started? = some t) :
    ∀ x ∈ pre ++ [w], ∀ e ∈ x.fired, e.timer ≠ t.id := by
  subst hms
  have hfresh := (started_once ((h₀.run run hcount).nodup hcount) hstarted).1
  intro x hx e he hid
  rcases List.mem_append.1 hx with hpre | hw
  · obtain ⟨t', ht', rfl⟩ :=
      (h₀.before run hcount).fired e (List.mem_flatMap.2 ⟨x, hpre, he⟩)
    exact hfresh (List.mem_map.2 ⟨t', ht', hid⟩)
  · cases List.mem_singleton.1 hw
    have hfire := ((w.mem_fired_iff e).1 he).1
    simp [TimerMoment.started?, hfire] at hstarted

theorem fires_iff {mid later : List TimerMoment} (hms : ms = pre ++ w :: (mid ++ x :: later))
    (hstarted : w.started? = some t) :
    t.expiry ∈ x.fired ↔
      x.move = .fire ∧ t.deadline.millis ≤ x.before.mme.timers.now.millis ∧
        ∀ y ∈ mid, ¬y.AsksToStop t.id ∧
          (y.move = .fire → y.before.mme.timers.now.millis < t.deadline.millis) := by
  subst hms
  have hunique : ((startedIn (pre ++ w :: (mid ++ x :: later))).map (·.id)).Nodup :=
    (h₀.run run hcount).nodup hcount
  obtain ⟨hpre, hother⟩ := started_once hunique hstarted
  obtain ⟨_, _, _, hlater⟩ := run.split
  have heffect := run.effect h₀.heard w (by simp)
  have harmed : t ∈ w.after.mme.timers.armed := (heffect.mem_armed_iff t).2 (.inl hstarted)
  have hfresh : t ∉ startedIn mid := by
    intro hmid
    refine hother (List.mem_map.2 ⟨t, ?_, rfl⟩)
    simp only [startedIn, List.filterMap_append, List.mem_append]
    exact .inl hmid
  have hheard : w.after.Heard := heffect.heard (h₀.before run hcount).heard
  have hstill := hlater.split.1.still_armed_iff hheard hfresh
  -- No other timer has the same identifier.
  have hsame : ∀ t' ∈ x.before.mme.timers.armed, t'.expiry = t.expiry → t' = t := by
    intro t' ht' hexpiry
    have happend : pre ++ w :: (mid ++ x :: later) = (pre ++ w :: mid) ++ x :: later := by simp
    rw [happend] at run hcount hunique
    have hstarted' : t' ∈ startedIn (pre ++ w :: mid) := (h₀.before run hcount).armed t' ht'
    refine List.inj_on_of_nodup_map hunique ?_ ?_ (congrArg Expiry.timer hexpiry)
    · rw [startedIn, List.filterMap_append]
      exact List.mem_append_left _ hstarted'
    · rw [startedIn, List.mem_filterMap]
      exact ⟨w, by simp, hstarted⟩
  rw [TimerMoment.mem_fired_iff]
  constructor
  · rintro ⟨hfire, t', ht', hexpiry, hdue⟩
    obtain rfl := hsame t' ht' hexpiry
    exact ⟨hfire, hdue, (hstill.1 ht').2⟩
  · rintro ⟨hfire, hdue, hquiet⟩
    exact ⟨hfire, t, hstill.2 ⟨harmed, hquiet⟩, rfl, hdue⟩

theorem stop_replies {id : TimerId} (hms : ms = pre ++ x :: post)
    (hstop : x.move = .call (.stop id)) :
    x.reply = .flag (x.before.mme.timers.isArmed id) ∧
    (x.before.mme.timers.isArmed id = true → ∀ e ∈ firedIn ms, e.timer ≠ id) ∧
    (x.before.mme.timers.isArmed id = false → x.after = x.before) ∧
    (id ∈ (firedIn pre).map (·.timer) → x.before.mme.timers.isArmed id = false) := by
  subst hms
  obtain ⟨hreply, hidle⟩ := (run.effect h₀.heard x (by simp)).of_stop hstop
  refine ⟨hreply, fun harmed e he hid => ?_, hidle, fun hfired => ?_⟩
  · have h : TimerAccounts (pre ++ x :: post) s := h₀.run run hcount
    have hstopped : id ∈ stoppedIn (pre ++ x :: post) :=
      List.mem_flatMap.2 ⟨x, by simp, by simp [TimerMoment.stopped, hstop, hreply, harmed]⟩
    exact (h.disjoint hcount).2.1 id hstopped (List.mem_map.2 ⟨e, he, hid⟩)
  · by_contra harmed
    have hcount' : (startedIn pre).length ≤ UInt64.size := by
      refine Nat.le_trans ?_ hcount
      simp [startedIn]
    have hbefore := (h₀.before run hcount).disjoint hcount'
    exact (hbefore.1 id (by simpa using harmed)).2 hfired

end TimerAccounts

def System.timerWalk? (s : System) : List TimerMove → Option (List TimerMoment × System)
  | [] => some ([], s)
  | a :: moves =>
      if s.Timely a then
        (s.timerStep? a).bind fun (s₁, reply) =>
          (s₁.timerWalk? moves).map fun (ms, s') => (⟨s, a, reply, s₁⟩ :: ms, s')
      else none

theorem TimerRun.of_timerWalk? {moves : List TimerMove} {s s' : System} {ms : List TimerMoment}
    (h : s.timerWalk? moves = some (ms, s')) : TimerRun s ms s' := by
  induction moves generalizing s ms with
  | nil =>
      cases h
      exact .nil _
  | cons a moves ih =>
      simp only [System.timerWalk?] at h
      split at h
      · rename_i htimely
        obtain ⟨⟨s₁, reply⟩, hstep, hrest⟩ := Option.bind_eq_some_iff.1 h
        obtain ⟨⟨ms₁, s₂⟩, hwalk, heq⟩ := Option.map_eq_some_iff.1 hrest
        cases heq
        exact .cons htimely hstep (ih hwalk)
      · cases h

/-- What callers and receiver may rely on in a run that has led to `s`. -/
structure TimerReliable (ms : List TimerMoment) (s : System) : Prop where
  /-- No identifier is returned twice. -/
  unique : ((startedIn ms).map (·.id)).Nodup
  /-- Every timer that was started is armed, stopped or fired, and one of it only. -/
  states : ∀ id ∈ (startedIn ms).map (·.id), ∃! state, TimerState.Of ms s id state
  /-- No other timers are reported to be armed, and none of these is counted twice. -/
  active : (∀ id, s.mme.timers.isArmed id = true → id ∈ (startedIn ms).map (·.id)) ∧
    s.mme.timers.armed.length =
      (((startedIn ms).map (·.id)).filter s.mme.timers.isArmed).length
  /-- A timer fires once it is over, unless it has been stopped before: not before it was started,
  and then the first time at which its deadline has come. -/
  fires : ∀ pre w post t, ms = pre ++ w :: post → w.started? = some t →
    (∀ x ∈ pre ++ [w], ∀ e ∈ x.fired, e.timer ≠ t.id) ∧
    ∀ mid x later, post = mid ++ x :: later →
      (t.expiry ∈ x.fired ↔
        x.move = .fire ∧ t.deadline.millis ≤ x.before.mme.timers.now.millis ∧
          ∀ y ∈ mid, ¬y.AsksToStop t.id ∧
            (y.move = .fire → y.before.mme.timers.now.millis < t.deadline.millis))
  /-- A call of stop says whether the timer was armed. If so, nothing is ever heard of it, and if
  not, as when it has fired, nothing changes. -/
  stops : ∀ pre x post id, ms = pre ++ x :: post → x.move = .call (.stop id) →
    x.reply = .flag (x.before.mme.timers.isArmed id) ∧
    (x.before.mme.timers.isArmed id = true → ∀ e ∈ firedIn ms, e.timer ≠ id) ∧
    (x.before.mme.timers.isArmed id = false → x.after = x.before) ∧
    (id ∈ (firedIn pre).map (·.timer) → x.before.mme.timers.isArmed id = false)
  /-- What has fired has been delivered, in turn, or waits. -/
  delivered : firedIn ms = deliveredIn ms ++ s.expiries
  once : ((firedIn ms).map (·.timer)).Nodup
  /-- The expiry of a timer names it, its UE and its kind. -/
  named : ∀ e ∈ firedIn ms, ∃ t ∈ startedIn ms, t.expiry = e
  /-- What is delivered is put into the inbox. -/
  enters : ∀ x ∈ ms, ∀ e, x.delivered? = some e →
    x.after.inbox.queue = x.before.inbox.queue ++ [.message (.expired e)]
  /-- As many of those that wait can be delivered as there is room for. -/
  room : ∀ n ≤ s.expiries.length, s.inbox.queue.length + n ≤ s.inbox.capacity →
    ∃ ms' s', TimerRun s ms' s' ∧ (∀ x ∈ ms', x.move = .deliver) ∧
      deliveredIn ms' = s.expiries.take n ∧ s'.expiries = s.expiries.drop n ∧
      s'.inbox.queue = s.inbox.queue ++ (s.expiries.take n).map fun e => .message (.expired e)

/-- Every run of the timer service, as long as its 64-bit counter can tell the timers apart. -/
theorem timers_reliable {config : NasConfig} {inboxCapacity busCapacity : Nat}
    {ms : List TimerMoment} {s : System}
    (run : TimerRun (System.idle config inboxCapacity busCapacity) ms s)
    (hcount : (startedIn ms).length ≤ UInt64.size) : TimerReliable ms s := by
  have hstart := TimerAccounts.idle config inboxCapacity busCapacity
  have h : TimerAccounts ms s := hstart.run run hcount
  constructor
  · exact h.nodup hcount
  · exact fun id hid => h.state_unique hcount hid
  · refine ⟨fun id hid => ?_, h.active hcount⟩
    obtain ⟨t, ht, htid⟩ := List.any_eq_true.1 hid
    exact List.mem_map.2 ⟨t, h.armed t ht, of_decide_eq_true htid⟩
  · intro pre w post t hms hstarted
    refine ⟨hstart.not_fired_before run hcount hms hstarted, ?_⟩
    rintro mid x later rfl
    exact hstart.fires_iff run hcount hms hstarted
  · exact fun pre x post id hms hstop => hstart.stop_replies run hcount hms hstop
  · exact h.queue
  · exact (h.disjoint hcount).2.2
  · exact h.fired
  · exact fun x hx e hdelivered => (run.effect hstart.heard x hx).enters hdelivered
  · exact fun n hn hroom => System.delivers n h.heard hn hroom

/-- Two timers are over at once, of two more one is stopped, and the inbox has room for one expiry.
To stop a timer that has fired is too late, even while its expiry waits. -/
theorem timers_reliable_of_full_inbox :
    ∃ (ms : List TimerMoment) (s : System),
      TimerRun (System.idle {} 1 1) ms s ∧ (startedIn ms).length ≤ UInt64.size ∧
      TimerReliable ms s ∧ stoppedIn ms = [⟨3⟩] ∧
      firedIn ms = [⟨⟨1⟩, ⟨1⟩, .t3470⟩, ⟨⟨2⟩, ⟨2⟩, .t3470⟩, ⟨⟨4⟩, ⟨3⟩, .specificRetry⟩] ∧
      deliveredIn ms = [⟨⟨1⟩, ⟨1⟩, .t3470⟩] := by
  let moves : List TimerMove :=
    [.call (.start ⟨1⟩ .t3470 ⟨0⟩), .call (.start ⟨2⟩ .t3470 ⟨0⟩),
      .call (.start ⟨1⟩ .specificRetry ⟨5000⟩), .call (.start ⟨3⟩ .specificRetry ⟨5000⟩), .fire,
      .call (.stop ⟨1⟩), .send (.message (.nonDelivery ⟨1⟩)), .take, .deliver, .call (.stop ⟨3⟩),
      .advance ⟨5000⟩, .fire, .call (.stop ⟨4⟩)]
  let r := ((System.idle {} 1 1).timerWalk? moves).get (by decide +kernel)
  have hwalk : (System.idle {} 1 1).timerWalk? moves = some (r.1, r.2) := by
    simp only [r, Prod.eta, Option.some_get]
  have run := TimerRun.of_timerWalk? hwalk
  have hcount : (startedIn r.1).length ≤ UInt64.size := by decide +kernel
  exact ⟨r.1, r.2, run, hcount, timers_reliable run hcount, by decide +kernel, by decide +kernel,
    by decide +kernel⟩

end Emm
