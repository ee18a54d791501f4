/-!
The classes of characters that YAML tells apart.

A carriage return, alone or before a line feed, and a next-line character count as line feeds.
`unifyBreaks` writes them so, and everything after it knows three line breaks only: the line feed,
the line separator and the paragraph separator.
-/

namespace Emm.Yaml

/-- The characters that a stream may hold. -/
def isAllowed (c : Char) : Bool :=
  let n := c.toNat
  n = 0x9 || n = 0xa || n = 0xd || (0x20 ≤ n && n ≤ 0x7e) || n = 0x85 || (0xa0 ≤ n && n ≤ 0xfffd)
    || 0x10000 ≤ n

/-- The characters that may be written as they are. -/
def isPrintable (c : Char) : Bool :=
  let n := c.toNat
  n = 0xa || (0x20 ≤ n && n ≤ 0x7e) || (0xa0 ≤ n && n ≤ 0xfffd && n ≠ 0xfeff) || 0x10000 ≤ n

def byteOrderMark : Char := '\ufeff'

def isBreak (c : Char) : Bool := c = '\n' || c = '\u2028' || c = '\u2029'

def isBlank (c : Char) : Bool := c = ' ' || c = '\t'

def isWhite (c : Char) : Bool := isBlank c || isBreak c

/-- The characters of names: of anchors, directives and tag handles. -/
def isNameChar (c : Char) : Bool := c.isAlphanum || c = '_' || c = '-'

/-- The characters that delimit flow collections and their entries. -/
def flowIndicators : List Char := [',', '[', ']', '{', '}']

/-- The characters that no plain scalar begins with. -/
def indicators : List Char :=
  flowIndicators ++ ['#', '&', '*', '!', '|', '>', '\'', '"', '%', '@', '\x60']

/-- The text begins with white space or is over. -/
def endsWord : List Char → Bool
  | [] => true
  | c :: _ => isWhite c

/-- The text begins with a mark between documents, given that it begins a line. -/
def isDocumentMark : List Char → Bool
  | '-' :: '-' :: '-' :: r => endsWord r
  | '.' :: '.' :: '.' :: r => endsWord r
  | _ => false

/-- Writes all line breaks but the two separators as line feeds. -/
def unifyBreaks : List Char → List Char
  | [] => []
  | '\r' :: '\n' :: r => '\n' :: unifyBreaks r
  | c :: r => (if c = '\r' ∨ c = '\u0085' then '\n' else c) :: unifyBreaks r

def hexDigit? (c : Char) : Option Nat :=
  if c.isDigit then some (c.toNat - '0'.toNat)
  else if 'a' ≤ c ∧ c ≤ 'f' then some (c.toNat - 'a'.toNat + 10)
  else if 'A' ≤ c ∧ c ≤ 'F' then some (c.toNat - 'A'.toNat + 10)
  else none

end Emm.Yaml
