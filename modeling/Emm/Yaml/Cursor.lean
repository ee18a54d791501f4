import Emm.Yaml.Character

/-!
Positions in a text, which decide what indentation means.
-/

namespace Emm.Yaml

structure Position where
  line : Nat := 0
  column : Nat := 0
deriving DecidableEq

/-- The position behind a character. -/
def Position.next (p : Position) (c : Char) : Position :=
  if isBreak c then { line := p.line + 1 } else { p with column := p.column + 1 }

/-- What is left of a stream, and where that begins. -/
structure Cursor where
  position : Position
  rest : List Char

namespace Cursor

/-- Passes over `n` characters. -/
def drop (c : Cursor) (n : Nat) : Cursor :=
  { position := (c.rest.take n).foldl Position.next c.position, rest := c.rest.drop n }

/-- The characters up to the first that is not in the class, and the cursor behind them. -/
def span (c : Cursor) (p : Char → Bool) : List Char × Cursor :=
  let word := c.rest.takeWhile p
  (word, c.drop word.length)

def column (c : Cursor) : Nat := c.position.column

/-- Passes over blanks and a comment to the next line, unless something else stands before it. -/
def endLine? (c : Cursor) : Option Cursor :=
  let (_, c) := c.span isBlank
  let c := match c.rest with
    | '#' :: _ => (c.span (!isBreak ·)).2
    | _ => c
  match c.rest with
  | [] => some c
  | x :: _ => if isBreak x then some (c.drop 1) else none

end Cursor

end Emm.Yaml
