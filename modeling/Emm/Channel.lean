/-!
Bounded first-in first-out channels between tasks. Items are taken in the order in which they were
sent; a full channel takes nothing more, and one whose receiver is gone takes nothing at all.
-/

namespace Emm

/-- A message to a task, or the request that it stop. -/
inductive Envelope (α : Type u)
  | message (payload : α)
  | shutdown
deriving DecidableEq

namespace Envelope

def isShutdown : Envelope α → Bool
  | message _ => false
  | shutdown => true

def payload? : Envelope α → Option α
  | message a => some a
  | shutdown => none

end Envelope

inductive SendError
  | full
  | closed
deriving DecidableEq

structure Channel (α : Type u) where
  capacity : Nat
  queue : List (Envelope α) := []
  /-- Is there still someone to receive? -/
  isOpen : Bool := true
  /-- Is there still someone to send? -/
  hasSender : Bool := true
deriving DecidableEq

namespace Channel

variable {α : Type u}

def send (c : Channel α) (e : Envelope α) : Except SendError (Channel α) :=
  if ¬ c.isOpen ∨ ¬ c.hasSender then .error .closed
  else if c.queue.length < c.capacity then .ok { c with queue := c.queue ++ [e] }
  else .error .full

inductive Receipt (α : Type u)
  | item (e : Envelope α) (rest : Channel α)
  | empty
  /-- Nothing is left and no sender remains. -/
  | finished

def receive (c : Channel α) : Receipt α :=
  match c.queue with
  | e :: rest => .item e { c with queue := rest }
  | [] => if c.hasSender then .empty else .finished

/-- The receiver goes away, and what it has not taken with it. -/
def close (c : Channel α) : Channel α := { c with queue := [], isOpen := false }

/-- The last sender goes away. -/
def abandon (c : Channel α) : Channel α := { c with hasSender := false }

def clear (c : Channel α) : Channel α := { c with queue := [] }

/-- Asks the task behind one channel and then the one behind another to stop. A task that is gone
needs not be asked; a full channel holds the requests up, and the result tells whether one did. -/
def stopInTurn {β : Type v} (first : Channel α) (second : Channel β) :
    Channel α × Channel β × Bool :=
  match first.send .shutdown with
  | .error .full => (first, second, true)
  | r =>
      let first := r.toOption.getD first
      match second.send .shutdown with
      | .ok second => (first, second, false)
      | .error .closed => (first, second, false)
      | .error .full => (first, second, true)

end Channel

end Emm
