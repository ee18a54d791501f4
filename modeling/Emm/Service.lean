import Emm.Config
import Emm.Log.Filter
import Emm.System

/-!
The service from its start to its end. To shut it down, all timers are stopped; the EMM task is
asked to stop, and the application task once the EMM task has. Both go on with their work until they
are asked, and whoever has something for the EMM task while its inbox is full waits in line, the
request to stop like everyone else.
-/

namespace Emm

/-- Someone who waits to send to the EMM task. -/
inductive Waiter
  | message (msg : Message)
  /-- The timer whose expiry is the oldest on its way. -/
  | expiry
  /-- The request that the task stop. -/
  | shutdown
deriving DecidableEq

/-- How far a shutdown has come. -/
inductive Shutdown.Stage
  | signalled
  | timersStopped
  /-- The request to the EMM task waits in line. -/
  | askingEmm
  /-- The EMM task has been asked and has yet to stop. -/
  | awaitingEmm
  | askingApp
  | awaitingApp
  | ended (result : Except TaskError Unit)

structure Shutdown where
  system : System
  /-- Those who wait for room in the inbox of the EMM task, the first in front. -/
  line : List Waiter := []
  stage : Shutdown.Stage := .signalled

namespace Shutdown

/-- The request has not been handed to the EMM task yet. -/
def Stage.precedesRequest : Stage → Bool
  | signalled | timersStopped | askingEmm => true
  | awaitingEmm | askingApp | awaitingApp | ended _ => false

/-- The shutdown of a system, with those who wait for its EMM task. -/
def begin (s : System) (line : List Waiter) : Shutdown :=
  { system := s.emit .shuttingDown, line }

/-- Somebody else has something for the EMM task. -/
def join (d : Shutdown) (w : Waiter) : Shutdown := { d with line := d.line ++ [w] }

/-- The first in line sends what it has, as soon as there is room. -/
def enter? (d : Shutdown) : Option Shutdown :=
  match d.line with
  | [] => none
  | .message msg :: line =>
      match d.system.inbox.send (.message msg) with
      | .ok inbox => some { d with system := { d.system with inbox }, line }
      | .error .closed => some { d with line }
      | .error .full => none
  | .expiry :: line => d.system.deliverExpiry?.map fun system => { d with system, line }
  | .shutdown :: line =>
      match d.system.inbox.send .shutdown with
      | .ok inbox =>
          some { system := { d.system with inbox }, line, stage := .awaitingEmm }
      | .error .closed => some { d with line, stage := .ended (.error (.channelClosed "EMM")) }
      | .error .full => none

/-- The next step of the shutdown itself, unless it has to wait. -/
def proceed? (d : Shutdown) : Option Shutdown :=
  match d.stage with
  | .signalled =>
      let timers := d.system.mme.timers.stopAll
      some { d with
        system := { d.system with mme := { d.system.mme with timers } }
        stage := .timersStopped }
  | .timersStopped => some { d.join .shutdown with stage := .askingEmm }
  | .askingEmm => none
  | .awaitingEmm =>
      match d.system.emm with
      | .stopped => some { d with stage := .askingApp }
      | .crashed crash => some { d with stage := .ended (.error (.failed "EMM" crash.message)) }
      | .receiving | .publishing .. => none
  | .askingApp =>
      match d.system.bus.send .shutdown with
      | .ok bus => some { d with system := { d.system with bus }, stage := .awaitingApp }
      | .error .closed => some { d with stage := .ended (.error (.channelClosed "MME_APP")) }
      | .error .full => none
  | .awaitingApp => if d.system.appRunning then none else some { d with stage := .ended (.ok ()) }
  | .ended _ => none

def onSystem (d : Shutdown) (f : System → Option System) : Option Shutdown :=
  (f d.system).map fun system => { d with system }

/-- A step of the shutdown, else of a task, else of whoever is first in line. -/
def advance? (d : Shutdown) : Option Shutdown :=
  d.proceed? <|> d.onSystem System.receive? <|> d.onSystem System.publish? <|>
    d.onSystem System.takeNotification? <|> d.enter?

/-- A message gets in, is received, and has two notifications at most published and taken. What
stands behind the request to stop does not count. -/
def lineCost : List Waiter → Nat
  | [] => 0
  | .shutdown :: _ => 2
  | .message _ :: rest | .expiry :: rest => lineCost rest + 6

def inboxCost : List (Envelope Message) → Nat
  | [] => 0
  | .shutdown :: _ => 1
  | .message _ :: rest => inboxCost rest + 5

def phaseCost : EmmPhase → Nat
  | .receiving => 1
  | .publishing _ _ next => 2 * (next.rank + 1) + 1
  | .stopped | .crashed _ => 0

def Stage.cost : Stage → Nat
  | signalled => 8
  | timersStopped => 7
  | askingEmm | awaitingEmm => 4
  | askingApp => 3
  | awaitingApp => 1
  | ended _ => 0

/-- What is left to the tasks. -/
def systemCost (s : System) : Nat :=
  inboxCost s.inbox.queue + phaseCost s.emm + s.bus.queue.length + s.appRunning.toNat

/-- No more steps than this lead to the end. -/
def cost (d : Shutdown) : Nat :=
  d.stage.cost + (if d.stage.precedesRequest then lineCost d.line else 0) + systemCost d.system

def carryOut : Nat → Shutdown → Shutdown
  | 0, d => d
  | steps + 1, d =>
      match d.stage, d.advance? with
      | .ended _, _ => d
      | _, some d => carryOut steps d
      | _, none => d

/-- Shuts a system down with nobody else at work on it. -/
def finish (s : System) : Shutdown :=
  let d := begin s []
  d.carryOut d.cost

end Shutdown

namespace Service

/-- Starts both tasks with nothing to do. -/
def start (c : Config) : System :=
  (System.start c.nas c.channelCapacity.toNat).emit
    (.serviceStarted c.nas.t3470Seconds c.nas.maxRetransmissions)

/-- Shuts both tasks down. -/
def stop (s : System) : System := (Shutdown.finish s).system.emit .exited

/-- What a filter lets through of a log, in the order of the events. -/
def logLines (f : Log.Filter) (log : List Log.Event) : List String :=
  ((log.map Log.Event.entry).filter f.admits).map Log.Entry.line

end Service

end Emm
