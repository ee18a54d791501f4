import Emm.Yaml.Error
import Emm.Yaml.Gap

/-!
Scalars in single quotes. A quote in the text is written twice, and nothing else is escaped.
-/

namespace Emm.Yaml.SingleQuoted

/-- Takes the rest of a scalar behind its opening quote; `gap` is pending. -/
def read : List Char → Position → List Char → Except Error (List Char × Cursor)
  | _, _, [] => throw .unclosedQuote
  | gap, p, '\'' :: '\'' :: r =>
      (read [] ((p.next '\'').next '\'') r).map
        (Prod.map (Gap.text { white := gap } ++ ['\''] ++ ·) id)
  | gap, p, c :: r =>
      if isWhite c then read (gap ++ [c]) (p.next c) r
      else if p.column = 0 && isDocumentMark (c :: r) then throw .documentMarkInQuotes
      else if c = '\'' then .ok (Gap.text { white := gap }, ⟨p.next c, r⟩)
      else (read [] (p.next c) r).map (Prod.map (Gap.text { white := gap } ++ [c] ++ ·) id)

/-- A blank next to a line break would be lost. -/
def isWritable : List Char → Bool
  | c :: d :: r =>
      isPrintable c && !(isBreak c && d = ' ') && !(c = ' ' && isBreak d) && isWritable (d :: r)
  | [c] => isPrintable c
  | [] => true

/-- Writes a text with lines indented by `indent`. The first line feed of a row is written twice,
since a single one would be read as a blank. -/
def write (indent : Nat) (text : List Char) : List Char :=
  '\'' :: go false text
where
  go (broke : Bool) : List Char → List Char
    | [] => margin broke ++ ['\'']
    | c :: r =>
        if isBreak c then
          if c = '\n' && !broke then '\n' :: '\n' :: go true r else c :: go true r
        else if c = '\'' then margin broke ++ '\'' :: '\'' :: go false r
        else margin broke ++ c :: go false r
  margin (broke : Bool) : List Char := if broke then List.replicate indent ' ' else []

end Emm.Yaml.SingleQuoted
