import Emm.Bench.Action
import Emm.System

/-!
A bench on which an MME runs one step at a time. Besides sending messages and letting time pass it
can interfere: refuse notifications, act on the shared state in the moment in which a notification
is taken, keep expiries back, and leave notifications in their channel.

After each step the tasks run until they can do no more: the EMM task as far as it gets, then
whoever takes the notifications, and again the EMM task if it was waiting for room.
-/

namespace Emm

namespace Bench

/-- How much of the MME is wired up. -/
inductive Wiring
  /-- The bench calls the handlers itself. -/
  | direct
  /-- The EMM task runs, and the bench takes its notifications. -/
  | emmTask
  | both
deriving DecidableEq

/-- Acts when the first notification of the primitive has been taken. -/
structure Hook where
  primitive : String
  actions : List Action

end Bench

open Bench in
structure Bench where
  wiring : Wiring
  /-- Are notifications left in the channel until they are asked for? -/
  manual : Bool := false
  system : System
  refused : List String := []
  hooks : List Hook := []
  /-- The notifications taken in the present step, the latest first. -/
  published : List Notification := []

namespace Bench

/-- A bench with the tasks of its wiring started. Calls by hand never meet a full channel. -/
def start (wiring : Wiring) (config : NasConfig) (capacity : Nat) (manual : Bool) : Bench :=
  match wiring with
  | .direct =>
      { wiring, manual
        system := { System.idle config capacity UInt64.size with
          emm := .stopped, appRunning := false } }
  | .emmTask =>
      { wiring, manual
        system := { (System.idle config capacity capacity).emit .emmStarted with
          appRunning := false } }
  | .both => { wiring, manual, system := .start config capacity }

def runActions (b : Bench) (actions : List Action) : Bench :=
  { b with system := { b.system with
      mme := actions.foldl (fun m a => (a.run m).1) b.system.mme } }

/-- Runs the first hook on the primitive, which is then used up. -/
def runHook (b : Bench) (primitive : String) : Bench :=
  match b.hooks.find? fun h => h.primitive = primitive with
  | some h =>
      { b with hooks := b.hooks.eraseP fun h => h.primitive = primitive }.runActions h.actions
  | none => b

/-- Tries to publish. Refusals apply when a handler arrives at the notification, not while it waits
for room: `arrives` tells which. -/
def publish? (b : Bench) (arrives : Bool) (n : Notification) : Option (Bench × Delivery) :=
  if arrives && b.refused.contains n.primitive then some (b, .refused .closed)
  else
    match b.system.offer? n with
    | some (system, .accepted) =>
        some ({ b with system, published := n :: b.published }.runHook n.primitive, .accepted)
    | some (system, .refused e) => some ({ b with system }, .refused e)
    | none => none

/-- Carries handling on until it is over or has to wait for room. -/
def carry (b : Bench) (arrives : Bool) : Progress → Bench × Progress
  | .done outcome => (b, .done outcome)
  | .publish n next =>
      match b.publish? arrives n with
      | none => (b, .publish n next)
      | some (b, d) =>
          let r := b.system.mme.resume b.system.config n next d
          have : r.2.rank ≤ next.rank := Mme.resume_rank_le _ _ _ _ _
          { b with system := { b.system with mme := r.1 } }.carry true r.2
termination_by p => p.rank
decreasing_by exact Nat.lt_succ_of_le this

/-- Lets the EMM task run through at most `n` messages. -/
def runEmm (b : Bench) : Nat → Bench
  | 0 => b
  | n + 1 =>
      match b.system.emm with
      | .publishing ue note next =>
          match b.carry false (.publish note next) with
          | (b, .done outcome) => { b with system := b.system.conclude ue outcome }.runEmm n
          | (b, .publish note next) =>
              { b with system := { b.system with emm := .publishing ue note next } }
      | .receiving =>
          match b.system.receive? with
          | none => b
          | some system =>
              match system.emm with
              | .publishing ue note next =>
                  match { b with system }.carry true (.publish note next) with
                  | (b, .done outcome) =>
                      { b with system := b.system.conclude ue outcome }.runEmm n
                  | (b, .publish note next) =>
                      { b with system := { b.system with emm := .publishing ue note next } }
              | _ => { b with system }.runEmm n
      | _ => b

/-- Lets the application task take at most `n` notifications. -/
def runApp (s : System) : Nat → System
  | 0 => s
  | n + 1 =>
      match s.takeNotification? with
      | some s => runApp s n
      | none => s

/-- Empties the notification channel, if it is not left to the script. -/
def takeNotifications (b : Bench) : Bench :=
  match b.wiring with
  | .both => { b with system := runApp b.system (b.system.bus.queue.length + 1) }
  | .direct | .emmTask =>
      if b.manual then b else { b with system := { b.system with bus := b.system.bus.clear } }

/-- At most `n` times: the EMM task runs, then its notifications are taken. -/
def runTasks (b : Bench) : Nat → Bench
  | 0 => b
  | n + 1 =>
      let b := (b.runEmm (b.system.inbox.queue.length + 2)).takeNotifications
      match b.system.emm with
      | .publishing .. =>
          if b.system.bus.queue.length < b.system.bus.capacity ∨ ¬ b.system.bus.isOpen then
            b.runTasks n
          else b
      | _ => b

/-- Lets the tasks run until they can do no more. No message publishes more than two
notifications, which bounds how often the EMM task may have to wait. -/
def settle (b : Bench) : Bench := b.runTasks (2 * b.system.inbox.queue.length + 4)

end Bench

end Emm
