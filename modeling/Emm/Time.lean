/-!
Spans and points of time, counted in milliseconds.
-/

namespace Emm

structure Duration where
  millis : Nat
deriving DecidableEq

namespace Duration

def ofSeconds (s : UInt64) : Duration := ⟨s.toNat * 1000⟩

/-- The whole seconds of the span. -/
def seconds (d : Duration) : Nat := d.millis / 1000

/-- Thousandths after the point, without the zeros at the end. -/
private def fraction (thousandths : Nat) : String :=
  if thousandths % 1000 = 0 then ""
  else if thousandths % 100 = 0 then "." ++ toString (thousandths / 100)
  else
    let digits := Nat.toDigits 10 (1000 + thousandths)
    let shown := if thousandths % 10 = 0 then (digits.drop 1).take 2 else digits.drop 1
    "." ++ String.ofList shown

/-- The span in the largest unit of which it holds at least one. -/
def text (d : Duration) : String :=
  if d.millis = 0 then "0ns"
  else if d.millis < 1000 then toString d.millis ++ "ms"
  else toString (d.millis / 1000) ++ fraction (d.millis % 1000) ++ "s"

end Duration

/-- A reading of the clock, counted from its start. -/
structure Instant where
  millis : Nat
deriving DecidableEq

namespace Instant

/-- The clock counts seconds in a signed 64-bit number. -/
def limit : Nat := UInt64.size / 2 * 1000

/-- The instant `d` later, if the clock can express it. -/
def after? (t : Instant) (d : Duration) : Option Instant :=
  if t.millis + d.millis < limit then some ⟨t.millis + d.millis⟩ else none

/-- Why `after?` has no result, in words. -/
def overflowMessage : String := "overflow when adding duration to instant"

/-- The time from `earlier` to `t`, nothing if `t` comes first. -/
def since (t earlier : Instant) : Duration := ⟨t.millis - earlier.millis⟩

end Instant

end Emm
