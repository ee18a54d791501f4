import Emm.Identity
import Emm.Time

/-!
Single-shot timers. A timer that is started is armed until it is stopped or fires; firing turns it
into an expiry for the EMM layer. Identifiers count upwards from one, in 64-bit arithmetic.
-/

namespace Emm

structure TimerId where
  val : UInt64
deriving DecidableEq

namespace TimerId

def next (i : TimerId) : TimerId := ⟨i.val + 1⟩

def text (i : TimerId) : String := "0x" ++ Text.hex i.val.toNat

def labelled (i : TimerId) : String := "TimerId(" ++ toString i.val.toNat ++ ")"

end TimerId

inductive TimerKind
  /-- Guards an Identity Request. -/
  | t3470
  /-- Resumes an attach or tracking area update that waits for an old context to go. -/
  | specificRetry
deriving DecidableEq

namespace TimerKind

/-- The number that 3GPP TS 24.301 gives the timer. -/
def code : TimerKind → Option Nat
  | t3470 => some 3470
  | specificRetry => none

def text : TimerKind → String
  | t3470 => "T3470"
  | specificRetry => "T-RETRY-SPECIFIC"

end TimerKind

/-- Notice that a timer has run out. -/
structure Expiry where
  timer : TimerId
  ue : UeId
  kind : TimerKind
deriving DecidableEq

structure ArmedTimer where
  expiry : Expiry
  deadline : Instant
deriving DecidableEq

def ArmedTimer.id (t : ArmedTimer) : TimerId := t.expiry.timer

/-- All armed timers, in the order in which they were started, under one clock. -/
structure Timers where
  now : Instant := ⟨0⟩
  nextId : TimerId := ⟨1⟩
  armed : List ArmedTimer := []
deriving DecidableEq

namespace Timers

/-- A wait longer than the clock can express lasts thirty years. -/
def deadline (now : Instant) (interval : Duration) : Instant :=
  (now.after? interval).getD ⟨now.millis + 30 * 365 * 86400 * 1000⟩

/-- The identifier of the timer that `start` arms is `nextId`. -/
def start (t : Timers) (ue : UeId) (kind : TimerKind) (interval : Duration) : Timers where
  now := t.now
  nextId := t.nextId.next
  armed := t.armed ++ [⟨⟨t.nextId, ue, kind⟩, deadline t.now interval⟩]

def isArmed (t : Timers) (id : TimerId) : Bool := t.armed.any fun a => a.id = id

def stop (t : Timers) (id : TimerId) : Timers :=
  { t with armed := t.armed.filter fun a => a.id ≠ id }

def stopAll (t : Timers) : Timers := { t with armed := [] }

def advance (t : Timers) (d : Duration) : Timers := { t with now := ⟨t.now.millis + d.millis⟩ }

def isDue (t : Timers) (a : ArmedTimer) : Bool := a.deadline.millis ≤ t.now.millis

/-- The expiries of the timers that are due, in the order in which these were started. -/
def due (t : Timers) : List Expiry := (t.armed.filter t.isDue).map (·.expiry)

/-- Disarms the timers that are due. -/
def fire (t : Timers) : Timers := { t with armed := t.armed.filter fun a => !t.isDue a }

end Timers

end Emm
