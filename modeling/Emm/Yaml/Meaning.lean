import Emm.Yaml.Character

/-!
What plain scalars mean. A text that would be taken for null, a boolean or a number is a text only
in quotes.
-/

namespace Emm.Yaml

def isNull (s : List Char) : Bool := ["null", "Null", "NULL", "~"].any fun t => s = t.toList

def isBoolean (s : List Char) : Bool :=
  ["true", "True", "TRUE", "false", "False", "FALSE"].any fun t => s = t.toList

/-- The value of digits in a base up to sixteen, of which there must be one. -/
def digitsValue? (base : Nat) (s : List Char) : Option Nat :=
  if s = [] then none
  else s.foldlM (fun n c => ((hexDigit? c).filter (· < base)).map (n * base + ·)) 0

/-- The value of digits behind a mark of their base. -/
def basedValue? : List Char → Option Nat
  | '0' :: 'x' :: r => digitsValue? 16 r
  | '0' :: 'o' :: r => digitsValue? 8 r
  | '0' :: 'b' :: r => digitsValue? 2 r
  | _ => none

/-- Several digits of which the first is zero, perhaps behind a sign. They are no number. -/
def isPadded (s : List Char) : Bool :=
  let digits := match s with
    | '+' :: r | '-' :: r => r
    | s => s
  1 < digits.length && digits.head? = some '0' && digits.all Char.isDigit

/-- The number that the text is, if it is one below `bound`. -/
def natural? (bound : Nat) (s : List Char) : Option Nat :=
  let body := match s with
    | '+' :: r => r
    | s => s
  ((basedValue? body).filter (· < bound)).or
    (if isPadded s then none else (digitsValue? 10 body).filter (· < bound))

/-- The text is a negative number, or zero with a sign, down to `-bound`. -/
def isNegative (bound : Nat) : List Char → Bool
  | '-' :: body =>
      ((basedValue? body).filter (· ≤ bound)).isSome ||
        (!isPadded body && ((digitsValue? 10 body).filter (· ≤ bound)).isSome)
  | _ => false

/-- The text is a whole number of at most 128 bits. -/
def isWhole (s : List Char) : Bool :=
  let bound := UInt64.size * UInt64.size
  (natural? bound s).isSome || isNegative (bound / 2) s

/-- A decimal number `mantissa * 10 ^ exponent`, its sign aside. -/
structure Decimal where
  mantissa : Nat
  exponent : Int

namespace Decimal

/-- An exponent with its mark, or nothing. -/
def exponent? : List Char → Option Int
  | [] => some 0
  | c :: r =>
      if c = 'e' ∨ c = 'E' then
        match r with
        | '-' :: r => (digitsValue? 10 r).map fun n => -(n : Int)
        | '+' :: r => (digitsValue? 10 r).map fun n => (n : Int)
        | r => (digitsValue? 10 r).map fun n => (n : Int)
      else none

/-- Digits with at most one point among them, and an exponent. -/
def parse? (s : List Char) : Option Decimal :=
  let whole := s.takeWhile Char.isDigit
  let (fraction, rest) := match s.drop whole.length with
    | '.' :: r => (r.takeWhile Char.isDigit, r.dropWhile Char.isDigit)
    | r => ([], r)
  match digitsValue? 10 (whole ++ fraction), exponent? rest with
  | some mantissa, some e => some { mantissa, exponent := e - fraction.length }
  | _, _ => none

/-- From here on a number is too large for 64 bits: halfway between the largest number of that
format and the next power of two. -/
def limit : Nat := Nat.pow 2 1024 - Nat.pow 2 970

/-- Does the number have a value among the finite ones of 64 bits? Its order of magnitude mostly
decides. -/
def isFinite (d : Decimal) : Bool :=
  if d.mantissa = 0 then true
  else
    let magnitude := ((Nat.toDigits 10 d.mantissa).length : Int) + d.exponent
    if magnitude < 300 then true
    else if 320 < magnitude then false
    else if 0 ≤ d.exponent then d.mantissa * Nat.pow 10 d.exponent.toNat < limit
    else d.mantissa < limit * Nat.pow 10 (-d.exponent).toNat

end Decimal

/-- The text is an infinity, not a number, or a finite number written in decimal digits. -/
def isDecimal (s : List Char) : Bool :=
  let (unsigned, body) := match s with
    | '+' :: r => (r, r)
    | '-' :: r => (s, r)
    | s => (s, s)
  [".inf", ".Inf", ".INF"].any (fun t => unsigned = t.toList)
    || ["-.inf", "-.Inf", "-.INF", ".nan", ".NaN", ".NAN"].any (fun t => s = t.toList)
    || ((Decimal.parse? body).map Decimal.isFinite).getD false

/-- Would the text be read as itself if it stood without quotes? -/
def meansItself (s : List Char) : Bool :=
  !(s.isEmpty || isNull s || isBoolean s || isWhole s || isPadded s || isDecimal s)

end Emm.Yaml
