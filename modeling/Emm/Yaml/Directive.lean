import Emm.Yaml.Tag
import Emm.Yaml.Token

/-!
Directives: lines before a document that state the version of YAML or define a tag handle.
-/

namespace Emm.Yaml.Directive

/-- A number of one to nine digits. -/
def readNumber (c : Cursor) : Except Error (Nat × Cursor) :=
  let (digits, c) := c.span Char.isDigit
  if digits = [] ∨ 9 < digits.length then throw .badDirective
  else .ok (digits.foldl (fun n d => n * 10 + (d.toNat - '0'.toNat)) 0, c)

def readVersion (c : Cursor) : Except Error (Token × Cursor) := do
  let (major, c) ← readNumber c
  match c.rest with
  | '.' :: _ =>
      let (minor, c) ← readNumber (c.drop 1)
      return (.version major minor, c)
  | _ => throw .badDirective

def readTagHandle (c : Cursor) : Except Error (Token × Cursor) := do
  match c.rest with
  | '!' :: _ =>
      let (handle, c) := Tag.readHandle c
      if handle ≠ ['!'] ∧ (handle.length < 2 ∨ handle.getLast? ≠ some '!') then
        throw .badDirective
      let (blanks, c) := c.span isBlank
      if blanks = [] then throw .badDirective
      let (meaning, c) ← Tag.readPart true c
      if meaning = [] ∨ ¬ endsWord c.rest then throw .badDirective
      return (.tagHandle handle meaning, c)
  | _ => throw .badDirective

/-- Takes a directive behind its percent sign, and the rest of its line. -/
def read (c : Cursor) : Except Error (Token × Cursor) := do
  let (name, c) := c.span isNameChar
  if ¬ endsWord c.rest then throw .badDirective
  let (_, c) := c.span isBlank
  let (t, c) ←
    if name = "YAML".toList then readVersion c
    else if name = "TAG".toList then readTagHandle c
    else throw .badDirective
  match c.endLine? with
  | some c => return (t, c)
  | none => throw .badDirective

end Emm.Yaml.Directive
