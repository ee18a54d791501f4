import Emm.Yaml.Error
import Emm.Yaml.Gap

/-!
Block scalars: the lines below a header that are indented more than what surrounds them, either as
they are (literal) or with line feeds between words turned into blanks (folded).
-/

namespace Emm.Yaml.Block

/-- What becomes of the line breaks at the end. -/
inductive Chomp
  | strip
  | clip
  | keep
deriving DecidableEq

def Chomp.ofIndicator? : Char → Option Chomp
  | '-' => some strip
  | '+' => some keep
  | _ => none

def Chomp.indicator : Chomp → List Char
  | strip => ['-']
  | clip => []
  | keep => ['+']

structure Header where
  chomp : Chomp := .clip
  /-- By how much the lines are indented more than what surrounds them, if this is stated. -/
  indentation : Option Nat := none

/-- A line; one without text is an empty line. -/
structure Line where
  text : List Char
  ending : Option Char

/-- A digit other than zero. -/
def indentationDigit? (c : Char) : Option Nat :=
  if c.isDigit && c ≠ '0' then some (c.toNat - '0'.toNat) else none

/-- The header at the beginning of the text, and its length. A zero that stands where the
indentation may be stated is left, and then found not to end the line. -/
def header : List Char → Header × Nat
  | c :: d :: _ =>
      match Chomp.ofIndicator? c, indentationDigit? c with
      | some chomp, _ =>
          match indentationDigit? d with
          | some n => ({ chomp, indentation := some n }, 2)
          | none => ({ chomp }, 1)
      | none, some n =>
          match Chomp.ofIndicator? d with
          | some chomp => ({ chomp, indentation := some n }, 2)
          | none => ({ indentation := some n }, 1)
      | none, none => ({}, 0)
  | [c] =>
      match Chomp.ofIndicator? c, indentationDigit? c with
      | some chomp, _ => ({ chomp }, 1)
      | none, some n => ({ indentation := some n }, 1)
      | none, none => ({}, 0)
  | [] => ({}, 0)

/-- The width of the widest of some lines of blanks, of which the first begins in `column`. -/
def widest (column : Nat) : List Char → Nat
  | [] => column
  | c :: r => if isBreak c then max column (widest 0 r) else widest (column + 1) r

/-- How far lines are indented where this is not stated: as the first line with text, or as a wider
empty line before it, and at least by `least`. -/
def findIndentation (least : Nat) (text : List Char) : Except Error Nat :=
  let margin := text.takeWhile fun c => c = ' ' || isBreak c
  match text.drop margin.length with
  | '\t' :: _ => throw .tabInIndentation
  | _ => .ok (max (widest 0 margin) (max least 1))

/-- Adds to the first line. -/
def extendFirst (c : Char) : List Line → List Line
  | l :: ls => { l with text := c :: l.text } :: ls
  | [] => []

/-- The lines indented by `indent`, up to one that is indented less. `inText` tells whether the
margin of the present line is passed. -/
def lines (indent : Nat) : Bool → Position → List Char → Except Error (List Line × Cursor)
  | inText, p, [] =>
      .ok (if inText then [{ text := [], ending := none }] else [], ⟨p, []⟩)
  | inText, p, c :: r =>
      if isBreak c then
        (lines indent false (p.next c) r).map
          (Prod.map ({ text := [], ending := some c } :: ·) id)
      else if inText || p.column = indent then
        (lines indent true (p.next c) r).map (Prod.map (extendFirst c) id)
      else if c = ' ' then lines indent false (p.next c) r
      else if c = '\t' then throw .tabInIndentation
      else .ok ([], ⟨p, c :: r⟩)

def Line.startsBlank (l : Line) : Bool := (l.text.head?.map isBlank).getD false

/-- What stands for the line break of `before` and the empty lines behind it, whose line breaks are
`breaks`. -/
def joint (folded : Bool) (before : Line) (breaks : List Char) (after : Line) : List Char :=
  if folded && before.ending = some '\n' && !before.startsBlank && !after.startsBlank then
    if breaks = [] then [' '] else breaks
  else before.ending.toList ++ breaks

/-- The text of the lines that follow `before`, with the line breaks of empty lines pending. -/
def assemble (folded : Bool) (chomp : Chomp) :
    Option Line → List Char → List Line → List Char
  | before, breaks, [] =>
      let last := (before.bind Line.ending).toList
      match chomp with
      | .strip => []
      | .clip => last
      | .keep => last ++ breaks
  | before, breaks, l :: ls =>
      if l.text = [] then assemble folded chomp before (breaks ++ l.ending.toList) ls
      else
        (match before with
          | none => breaks
          | some b => joint folded b breaks l)
          ++ l.text ++ assemble folded chomp (some l) [] ls

/-- Takes a scalar behind its indicator. What surrounds it is indented by `outer`, if at all. -/
def read (folded : Bool) (outer : Option Nat) (c : Cursor) : Except Error (List Char × Cursor) := do
  let (head, length) := header c.rest
  let some c := (c.drop length).endLine? | throw .badBlockHeader
  let indent ← match head.indentation with
    | some n => pure (outer.getD 0 + n)
    | none => findIndentation ((outer.map (· + 1)).getD 0) c.rest
  let (ls, c) ← lines indent false c.position c.rest
  return (assemble folded head.chomp none [] ls, c)

/-- Blanks at the end and before a line break would be lost. -/
def isWritable : List Char → Bool
  | c :: d :: r => isPrintable c && !(c = ' ' && isBreak d) && isWritable (d :: r)
  | [c] => isPrintable c && c ≠ ' '
  | [] => true

/-- The chomping under which the text keeps its end. -/
def chompOf (text : List Char) : Chomp :=
  match text.reverse with
  | [] => .strip
  | [c] => if isBreak c then .keep else .strip
  | c :: d :: _ => if !isBreak c then .strip else if isBreak d then .keep else .clip

/-- The indentation has to be stated if the first line does not show it. -/
def statesIndentation : List Char → Bool
  | c :: _ => c = ' ' || isBreak c
  | [] => false

/-- Writes a text with lines indented by `indent` and `step` more than what surrounds them. -/
def write (indent step : Nat) (text : List Char) : List Char :=
  ['|'] ++ (if statesIndentation text then Nat.toDigits 10 step else [])
    ++ (chompOf text).indicator ++ '\n' :: go true text
where
  go (atMargin : Bool) : List Char → List Char
    | [] => if atMargin then [] else ['\n']
    | c :: r =>
        if isBreak c then c :: go true r
        else (if atMargin then List.replicate indent ' ' else []) ++ c :: go false r

end Emm.Yaml.Block
