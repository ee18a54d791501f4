import Emm.Bench.Basic

/-!
The steps of a script for a bench, and what each of them is answered.
-/

namespace Emm.Bench

inductive Command
  /-- Names an identity with the wrong digits, so that nothing is done. -/
  | malformed (error : IdentityError)
  /-- A message to the EMM layer. -/
  | message (message : Message)
  /-- Moves the clock. Unless they are kept back, all expiries then go to the EMM layer. -/
  | advance (time : Duration) (hold : Bool)
  /-- Hands the first `count` expiries to the EMM layer. -/
  | deliver (count : Nat)
  | act (action : Action)
  /-- Settles who owns an IMSI, outside of any identification. -/
  | resolve (ue : UeId) (imsi : Imsi) (parent : Option ProcedureId)
  /-- Puts a notification into the channel that no handler has published. -/
  | notify (notification : Notification)
  | takeNotification
  | closeBus
  | shutdownEmm
  | shutdownApp
  /-- The last sender of messages goes away. -/
  | abandonEmm
  | channels

/-- What became of a message or an expiry. -/
inductive Handed
  | sent
  | unsent (error : SendError)
  | handled (outcome : Outcome)

inductive Reply
  | done
  | malformed (error : IdentityError)
  | handed (handed : Handed)
  | expiries (handed : List (Expiry × Handed))
  | held (expiries : List Expiry)
  | act (reply : ActionReply)
  | resolved (result : Except IdentificationError Resolution)
  | crashed (crash : Mme.Crash)
  | sent
  | unsent (error : SendError)
  | taken (item : Envelope Notification)
  /-- There is no notification to take. -/
  | nothing
  /-- Who would take notifications is gone. -/
  | noReceiver
  /-- Whether each channel is closed; nothing where the bench has no end of it. -/
  | channels (emm : Option Bool) (app : Bool)
  /-- The task to be shut down is gone already. -/
  | gone

/-- A step, with the interference that lasts as long as it does. -/
structure Step where
  command : Command
  refused : List String := []
  hooks : List Hook := []

/-- What can be seen of a step from outside, apart from the state that it leaves. -/
structure Observation where
  reply : Reply
  published : List Notification
  log : List Log.Event

/-- Calls the handlers for a message. There is room for every notification, so handling comes to
its end. -/
def call (b : Bench) (msg : Message) : Bench × Handed :=
  let (mme, p) := b.system.mme.begin b.system.config msg
  match { b with system := { b.system with mme } }.carry true p with
  | (b, .done outcome) => (b.takeNotifications, .handled outcome)
  | (b, .publish ..) => (b, .unsent .full)

/-- Hands a message to the EMM layer and waits until nothing moves. -/
def hand (b : Bench) (msg : Message) : Bench × Handed :=
  match b.wiring with
  | .direct => b.call msg
  | .emmTask | .both =>
      match b.system.inbox.send (.message msg) with
      | .ok inbox => ({ b with system := { b.system with inbox } }.settle, .sent)
      | .error e => (b, .unsent e)

def handExpiries (b : Bench) : List Expiry → Bench × List (Expiry × Handed)
  | [] => (b, [])
  | e :: rest =>
      let (b, h) := b.hand (.expired e)
      let (b, hs) := b.handExpiries rest
      (b, (e, h) :: hs)

/-- Hands the first `count` expiries over; the others stay. -/
def deliver (b : Bench) (count : Nat) : Bench × List (Expiry × Handed) :=
  let due := b.system.expiries.take count
  { b with system := { b.system with expiries := b.system.expiries.drop count } }.handExpiries due

def fire (b : Bench) : Bench := { b with system := b.system.fire }

def resolve (b : Bench) (ue : UeId) (imsi : Imsi) (parent : Option ProcedureId) : Bench × Reply :=
  let s := b.system
  let (mme, holder) := s.mme.findHolder ue imsi
  let b := { b with system := { s with mme } }
  match holder with
  | none =>
      match mme.assign ue imsi with
      | .ok mme => ({ b with system := { s with mme } }, .resolved (.ok .claimed))
      | .error e => (b, .resolved (.error e))
  | some holder =>
      match b.publish? true holder.teardown with
      | some (b, .accepted) =>
          let (mme, crash) := b.system.mme.displace s.config.retryInterval ue parent holder
          let b := { b with system := { b.system with mme } }
          match crash with
          | none => (b, .resolved (.ok holder.resolution))
          | some crash => (b, .crashed crash)
      | some (b, .refused e) => (b, .resolved (.error (.dispatch e)))
      | none => (b, .unsent .full)

/-- Puts an item into the notification channel. -/
def sendToApp (b : Bench) (item : Envelope Notification) : Except SendError Bench :=
  (b.system.bus.send item).map fun bus => { b with system := { b.system with bus } }

def takeNotification (b : Bench) : Bench × Reply :=
  if b.wiring = .both ∨ ¬ b.system.bus.isOpen then (b, .noReceiver)
  else
    match b.system.bus.receive with
    | .item e bus => ({ b with system := { b.system with bus } }, .taken e)
    | .empty | .finished => (b, .nothing)

def runCommand (b : Bench) : Command → Bench × Reply
  | .malformed e => (b, .malformed e)
  | .message msg =>
      let (b, h) := b.hand msg
      (b, .handed h)
  | .advance time hold =>
      let b := { b with system := b.system.advance time }.fire
      if hold then (b, .held b.system.expiries)
      else
        let (b, hs) := b.deliver b.system.expiries.length
        (b, .expiries hs)
  | .deliver count =>
      let (b, hs) := b.deliver count
      (b, .expiries hs)
  | .act action =>
      let (mme, r) := action.run b.system.mme
      ({ b with system := { b.system with mme } }, .act r)
  | .resolve ue imsi parent => b.resolve ue imsi parent
  | .notify n =>
      match b.sendToApp (.message n) with
      | .ok b => (b, .sent)
      | .error e => (b, .unsent e)
  | .takeNotification => b.takeNotification
  | .closeBus => ({ b with system := { b.system with bus := b.system.bus.close } }, .done)
  | .shutdownEmm =>
      match b.system.inbox.send .shutdown with
      | .ok inbox => ({ b with system := { b.system with inbox } }, .sent)
      | .error .closed => (b, .gone)
      | .error .full => (b, .unsent .full)
  | .shutdownApp =>
      match b.sendToApp .shutdown with
      | .ok b => (b, .sent)
      | .error .closed => (b, .gone)
      | .error .full => (b, .unsent .full)
  | .abandonEmm =>
      ({ b with system := { b.system with inbox := b.system.inbox.abandon } }, .done)
  | .channels =>
      let emm :=
        if b.wiring = .direct ∨ ¬ b.system.inbox.hasSender then none
        else some (!b.system.inbox.isOpen)
      (b, .channels emm (!b.system.bus.isOpen))

/-- Takes one step. Timers with no interval fire in the step that starts them. -/
def step (b : Bench) (s : Step) : Bench × Observation :=
  let (b, reply) := { b with refused := s.refused, hooks := s.hooks }.runCommand s.command
  let b := b.settle.fire
  let observation :=
    { reply, published := b.published.reverse, log := b.system.mme.log.reverse }
  ({ b with
      refused := [], hooks := [], published := []
      system := { b.system with mme := { b.system.mme with log := [] } } }, observation)

end Emm.Bench
