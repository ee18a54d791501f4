import Emm.Yaml.Cursor

/-!
The white space between two words of a flow scalar. Within a line it is kept. Where it goes over
lines, a single line feed stands for a blank and of several the first is left out.
-/

namespace Emm.Yaml

structure Gap where
  /-- Was the line break at its beginning escaped? -/
  escaped : Bool := false
  white : List Char := []

namespace Gap

def push (g : Gap) (c : Char) : Gap := { g with white := g.white ++ [c] }

def breaks (g : Gap) : List Char := g.white.filter isBreak

/-- What the gap means. -/
def text (g : Gap) : List Char :=
  if g.escaped then g.breaks
  else
    match g.breaks with
    | [] => g.white
    | ['\n'] => [' ']
    | '\n' :: more => more
    | separators => separators

/-- The columns of tabs in the lines that the gap begins. -/
def leadingTabs : List Char → List Nat :=
  go none
where
  go : Option Nat → List Char → List Nat
    | _, [] => []
    | column, c :: r =>
        if isBreak c then go (some 0) r
        else
          match column with
          | none => go none r
          | some k => if c = '\t' then k :: go (some (k + 1)) r else go (some (k + 1)) r

end Gap

end Emm.Yaml
