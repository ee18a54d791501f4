import Emm.Yaml.Error
import Emm.Yaml.Gap

/-!
Plain scalars, which stand without quotes. `read` takes the longest text that may be one;
`isWritable` tells which texts can be written so in a block.
-/

namespace Emm.Yaml.Plain

structure Scalar where
  text : List Char
  /-- Was a line break passed behind the last word? -/
  brokeLine : Bool
  cursor : Cursor

def Scalar.prepend (t : List Char) (s : Scalar) : Scalar := { s with text := t ++ s.text }

/-- A scalar ends before `text`, which `gap` parts from its last word. -/
def endsBefore (inFlow : Bool) (indent : Nat) (gap : List Char) (p : Position) :
    List Char → Bool
  | [] => true
  | c :: r =>
      (!gap.isEmpty &&
        (c = '#' || (p.column = 0 && isDocumentMark (c :: r)) || (!inFlow && p.column < indent)))
        || (c = ':' && endsWord r) || (inFlow && flowIndicators.contains c)

/-- Takes the rest of a scalar, of which `gap` is pending. Lines of it are indented by at least
`indent` outside of flow collections. -/
def read (inFlow : Bool) (indent : Nat) :
    List Char → Position → List Char → Except Error Scalar
  | gap, p, [] => close gap p []
  | gap, p, c :: r =>
      if isWhite c then read inFlow indent (gap ++ [c]) (p.next c) r
      else if endsBefore inFlow indent gap p (c :: r) then close gap p (c :: r)
      else if inFlow && c = ':' && (r.head?.map ('?' :: flowIndicators).contains).getD false then
        throw .colonInFlow
      else if (Gap.leadingTabs gap).any (· < indent) then throw .tabInIndentation
      else (read inFlow indent [] (p.next c) r).map
        (Scalar.prepend ((Gap.text { white := gap }) ++ [c]))
where
  close (gap : List Char) (p : Position) (rest : List Char) : Except Error Scalar :=
    if (Gap.leadingTabs gap).any (· < indent) then throw .tabInIndentation
    else .ok { text := [], brokeLine := gap.any isBreak, cursor := ⟨p, rest⟩ }

/-- The first character gives the text another meaning than that of a plain scalar. -/
def startsAsIndicator : List Char → Bool
  | [] => false
  | c :: r => indicators.contains c || (['-', '?', ':'].contains c && endsWord r)

/-- Within the text a colon ends a key or a number sign begins a comment. -/
def holdsIndicator : List Char → Bool
  | c :: d :: r =>
      (d = ':' && endsWord r) || (d = '#' && isWhite c) || holdsIndicator (d :: r)
  | _ => false

/-- Can the text be written as it is, outside of flow collections? -/
def isWritable (text : List Char) : Bool :=
  text.all (fun c => isPrintable c && !isBreak c) && text.head? ≠ some ' '
    && text.getLast? ≠ some ' ' && !"---".toList.isPrefixOf text && !"...".toList.isPrefixOf text
    && !startsAsIndicator text && !holdsIndicator text

end Emm.Yaml.Plain
