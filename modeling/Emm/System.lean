import Emm.Application
import Emm.Channel
import Emm.Handler

/-!
The MME as a whole: the EMM task, which handles messages one at a time, the application task, which
takes the notifications, the channels between them, and the expiries on their way to the EMM task.

Each function here is one step that a scheduler may take, and gives nothing where the step cannot
be taken. The EMM task stops in the middle of a message when the notification channel is full; what
it has left to do is then part of the state.
-/

namespace Emm

/-- What the EMM task is doing. -/
inductive EmmPhase
  | receiving
  /-- It waits to publish `notification`, in handling a message about `subject`. -/
  | publishing (subject : UeId) (notification : Notification) (next : Resumption)
  | stopped
  | crashed (crash : Mme.Crash)

structure System where
  config : NasConfig
  mme : Mme := {}
  inbox : Channel Message
  bus : Channel Notification
  emm : EmmPhase := .receiving
  /-- How many messages the EMM task has taken. -/
  handled : Nat := 0
  appRunning : Bool := true
  /-- How many Identity Requests the application task has taken. -/
  requests : Nat := 0
  /-- The expiries of timers that have fired, on their way to the EMM task. -/
  expiries : List Expiry := []

namespace System

def emit (s : System) (e : Log.Event) : System := { s with mme := s.mme.emit e }

/-- A system with nothing in it, whose tasks are ready to run. -/
def idle (config : NasConfig) (inboxCapacity busCapacity : Nat) : System :=
  { config, inbox := { capacity := inboxCapacity }, bus := { capacity := busCapacity } }

/-- A system with both tasks started and nothing in it. -/
def start (config : NasConfig) (capacity : Nat) : System :=
  ((idle config capacity capacity).emit .emmStarted).emit .appStarted

/-! ### The EMM task -/

def stopEmm (s : System) : System :=
  { s with emm := .stopped, inbox := s.inbox.close }.emit (.emmStopped s.handled)

/-- What the EMM task makes of the end of a message about `ue`. -/
def conclude (s : System) (ue : UeId) : Outcome → System
  | .started (.error e) => { s with emm := .receiving }.emit (.startFailed ue e)
  | .started (.ok ()) => { s with emm := .receiving }
  | .completed (.ok .ignored) => { s with emm := .receiving }.emit (.responseIgnored ue)
  | .completed (.ok .confirmed) => { s with emm := .receiving }
  | .completed (.ok (.deferred old)) => { s with emm := .receiving }.emit (.identityDeferred ue old)
  | .completed (.error e) => { s with emm := .receiving }.emit (.identificationFailed ue e)
  | .handled => { s with emm := .receiving }
  | .aborted true => { s with emm := .receiving }
  | .aborted false => { s with emm := .receiving }.emit (.abortWithoutProcedure ue)
  | .crashed crash => { s with emm := .crashed crash, inbox := s.inbox.close }

def follow (s : System) (ue : UeId) : Progress → System
  | .done outcome => s.conclude ue outcome
  | .publish n next => { s with emm := .publishing ue n next }

/-- Takes a message off the inbox and handles it up to its first notification. -/
def beginMessage (s : System) (msg : Message) : System :=
  let mme := s.mme.emit (.exchanged .received msg.primitive msg.ue)
  let (mme, p) := mme.begin s.config msg
  { s with mme, handled := s.handled + 1 }.follow msg.ue p

/-- The EMM task takes what is next in its inbox. -/
def receive? (s : System) : Option System :=
  match s.emm with
  | .receiving =>
      match s.inbox.receive with
      | .item (.message msg) inbox => some ({ s with inbox }.beginMessage msg)
      | .item .shutdown inbox => some { s with inbox }.stopEmm
      | .empty => none
      | .finished => some (s.emit .emmChannelClosed).stopEmm
  | _ => none

/-- Offers a notification to the channel, which may have no room for it. -/
def offer? (s : System) (n : Notification) : Option (System × Delivery) :=
  match s.bus.send (.message n) with
  | .ok bus => some ({ s with bus }.emit (.exchanged .sent n.primitive n.ue), .accepted)
  | .error .closed => some (s, .refused .closed)
  | .error .full => none

/-- Goes on with the message at hand after `n` has been taken or refused. -/
def resume (s : System) (ue : UeId) (n : Notification) (next : Resumption) (d : Delivery) :
    System :=
  let (mme, p) := s.mme.resume s.config n next d
  { s with mme }.follow ue p

/-- The EMM task publishes what it waits to publish. -/
def publish? (s : System) : Option System :=
  match s.emm with
  | .publishing ue n next => (s.offer? n).map fun (s, d) => s.resume ue n next d
  | _ => none

/-! ### The application task -/

def stopApp (s : System) : System :=
  { s with appRunning := false, bus := s.bus.close }.emit (.appStopped s.requests)

def applyNotification (s : System) (n : Notification) : System :=
  match n with
  | .sendIdentityRequest .. => { s with mme := s.mme.apply n, requests := s.requests + 1 }
  | n => { s with mme := s.mme.apply n }

/-- The application task takes the next notification. -/
def takeNotification? (s : System) : Option System :=
  if s.appRunning then
    match s.bus.receive with
    | .item (.message n) bus => some ({ s with bus }.applyNotification n)
    | .item .shutdown bus => some { s with bus }.stopApp
    | .empty => none
    | .finished => some s.stopApp
  else none

/-! ### Timers -/

/-- Time goes on. -/
def advance (s : System) (d : Duration) : System :=
  { s with mme := { s.mme with timers := s.mme.timers.advance d } }

/-- All timers that are due fire. -/
def fire (s : System) : System :=
  { s with
    mme := { s.mme with timers := s.mme.timers.fire }
    expiries := s.expiries ++ s.mme.timers.due }

/-- A single timer that is due fires. -/
def fireOne? (s : System) (id : TimerId) : Option System :=
  (s.mme.timers.armed.find? fun a => a.id = id ∧ s.mme.timers.isDue a).map fun a =>
    { s with
      mme := { s.mme with timers := s.mme.timers.stop id }
      expiries := s.expiries ++ [a.expiry] }

/-- The oldest expiry enters the inbox, or is dropped because the EMM task is gone. -/
def deliverExpiry? (s : System) : Option System :=
  match s.expiries with
  | [] => none
  | e :: rest =>
      match s.inbox.send (.message (.expired e)) with
      | .ok inbox => some { s with inbox, expiries := rest }
      | .error .closed => some ({ s with expiries := rest }.emit (.expiryDropped e))
      | .error .full => none

end System

end Emm
