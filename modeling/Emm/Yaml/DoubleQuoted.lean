import Emm.Yaml.Error
import Emm.Yaml.Gap

/-!
Scalars in double quotes, in which a backslash introduces an escape. Every text can be written so.
-/

namespace Emm.Yaml.DoubleQuoted

/-- Escapes of a single character: the letter and what it stands for. Those that are written are
the first in the list for their character. -/
def shortEscapes : List (Char × Char) :=
  [('0', '\u0000'), ('a', '\u0007'), ('b', '\u0008'), ('t', '\t'), ('n', '\n'), ('v', '\u000b'),
    ('f', '\u000c'), ('r', '\r'), ('e', '\u001b'), ('"', '"'), ('\\', '\\'), ('N', '\u0085'),
    ('_', '\u00a0'), ('L', '\u2028'), ('P', '\u2029'), (' ', ' '), ('/', '/'), ('\t', '\t')]

/-- How many hexadecimal digits follow the letter of an escape. -/
def codeLengths : List (Char × Nat) := [('x', 2), ('u', 4), ('U', 8)]

inductive Phase
  /-- Among the words, with white space pending. -/
  | words (gap : Gap)
  /-- Behind a backslash. -/
  | escape
  /-- In the number of a character, with so many more digits to come. -/
  | code (left value : Nat)

/-- Takes the rest of a scalar behind its opening quote. -/
def read : Phase → Position → List Char → Except Error (List Char × Cursor)
  | _, _, [] => throw .unclosedQuote
  | .words gap, p, c :: r =>
      if isWhite c then read (.words (gap.push c)) (p.next c) r
      else if p.column = 0 && isDocumentMark (c :: r) then throw .documentMarkInQuotes
      else if c = '"' then .ok (gap.text, ⟨p.next c, r⟩)
      else if c = '\\' then (read .escape (p.next c) r).map (Prod.map (gap.text ++ ·) id)
      else (read (.words {}) (p.next c) r).map (Prod.map (gap.text ++ [c] ++ ·) id)
  | .escape, p, c :: r =>
      if isBreak c then read (.words { escaped := true }) (p.next c) r
      else
        match codeLengths.lookup c, shortEscapes.lookup c with
        | some n, _ => read (.code n 0) (p.next c) r
        | none, some d => (read (.words {}) (p.next c) r).map (Prod.map (d :: ·) id)
        | none, none => throw .badEscape
  | .code left value, p, c :: r =>
      match hexDigit? c with
      | none => throw .badEscape
      | some d =>
          let value := value * 16 + d
          if left ≤ 1 then
            if value.isValidChar then
              (read (.words {}) (p.next c) r).map (Prod.map (Char.ofNat value :: ·) id)
            else throw .badEscape
          else read (.code (left - 1) value) (p.next c) r

/-- The upper-case digits of `n` in base sixteen, at least `width` of them. -/
def codeDigits (width n : Nat) : List Char :=
  let digits := (Nat.toDigits 16 n).map Char.toUpper
  List.replicate (width - digits.length) '0' ++ digits

def escaped (c : Char) : List Char :=
  match shortEscapes.find? fun e => e.2 = c with
  | some (letter, _) => ['\\', letter]
  | none =>
      let n := c.toNat
      if n ≤ 0xff then '\\' :: 'x' :: codeDigits 2 n
      else if n ≤ 0xffff then '\\' :: 'u' :: codeDigits 4 n
      else '\\' :: 'U' :: codeDigits 8 n

def needsEscape (c : Char) : Bool := !isPrintable c || isBreak c || c = '"' || c = '\\'

def write (text : List Char) : List Char :=
  '"' :: (text.flatMap fun c => if needsEscape c then escaped c else [c]) ++ ['"']

end Emm.Yaml.DoubleQuoted
