import Emm.Yaml.Directive
import Emm.Yaml.Block
import Emm.Yaml.DoubleQuoted
import Emm.Yaml.Plain
import Emm.Yaml.SingleQuoted

/-!
From a text to its tokens.

That a node is a key shows only when a colon follows it. Wherever a key may begin, the lexer keeps
a slot: the lexeme that the key would begin with. A colon on the same line, not too far on, turns
that lexeme into one that opens a key, and opens a mapping before it if the key is indented more
than the collections around it.
-/

namespace Emm.Yaml

/-- What a lexeme turned out to open. -/
inductive Opening
  | nothing
  | key
  /-- A key, the first of a block mapping. -/
  | mapping
deriving DecidableEq

structure Lexeme where
  token : Token
  opening : Opening := .nothing

def Lexeme.tokens (l : Lexeme) : List Token :=
  match l.opening with
  | .nothing => [l.token]
  | .key => [.key, l.token]
  | .mapping => [.blockMapping, .key, l.token]

/-- A place where a key may have begun. -/
structure Slot where
  /-- The number of the lexeme with which it begins. -/
  index : Nat
  position : Position
  /-- Can the text be nothing but a key? -/
  required : Bool

structure Lexer where
  cursor : Cursor
  lexemes : Array Lexeme := #[]
  /-- The columns of the open block collections, the innermost first. -/
  columns : List Nat := []
  /-- May a key begin here? -/
  keyAllowed : Bool := true
  slot : Option Slot := none
  /-- The slots outside of the open flow collections, the innermost first. -/
  outer : List (Option Slot) := []

namespace Lexer

def inFlow (s : Lexer) : Bool := !s.outer.isEmpty

/-- The least column that belongs to the innermost block collection and no collection around it,
its own column apart. -/
def least (s : Lexer) : Nat := (s.columns.head?.map (· + 1)).getD 0

def emit (s : Lexer) (t : Token) : Lexer := { s with lexemes := s.lexemes.push { token := t } }

/-- Emits a token that is written with `n` characters. -/
def take (s : Lexer) (n : Nat) (t : Token) : Lexer := { s.emit t with cursor := s.cursor.drop n }

/-! ### Slots -/

def dropSlot (s : Lexer) : Except Error Lexer :=
  match s.slot with
  | some { required := true, .. } => throw .keyWithoutColon
  | _ => .ok { s with slot := none }

/-- A key stands on one line and takes up at most 1024 characters. -/
def Slot.isStale (p : Position) (k : Slot) : Bool :=
  k.position.line < p.line || k.position.column + 1024 < p.column

def expireSlot (p : Position) : Option Slot → Except Error (Option Slot)
  | none => .ok none
  | some k =>
      if Slot.isStale p k then if k.required then throw .keyWithoutColon else .ok none
      else .ok (some k)

def expireSlots (s : Lexer) : Except Error Lexer := do
  let outer ← s.outer.mapM (expireSlot s.cursor.position)
  let slot ← expireSlot s.cursor.position s.slot
  return { s with slot, outer }

/-- Keeps in mind that a key may begin with the next lexeme. -/
def saveSlot (s : Lexer) : Except Error Lexer :=
  if s.keyAllowed then do
    let s ← s.dropSlot
    return { s with slot := some {
      index := s.lexemes.size
      position := s.cursor.position
      required := !s.inFlow && s.columns.head? = some s.cursor.column } }
  else .ok s

/-- Closes the block collections that do not reach as far to the left as `column`. -/
def closeBlocks (s : Lexer) (column : Nat) : Lexer :=
  if s.inFlow then s
  else
    let closed := s.columns.takeWhile (column < ·)
    { s with
      columns := s.columns.drop closed.length
      lexemes := closed.foldl (fun ls _ => ls.push { token := .blockEnd }) s.lexemes }

def closeAllBlocks (s : Lexer) : Lexer :=
  if s.inFlow then s
  else
    { s with
      columns := []
      lexemes := s.columns.foldl (fun ls _ => ls.push { token := .blockEnd }) s.lexemes }

/-- Opens a block collection in the present column, unless one is open there. -/
def openBlock (s : Lexer) (t : Token) : Lexer :=
  if !s.inFlow && s.least ≤ s.cursor.column then
    { s.emit t with columns := s.cursor.column :: s.columns }
  else s

/-! ### Tokens by their first character -/

def fetchDirective (s : Lexer) : Except Error Lexer := do
  let s ← s.closeAllBlocks.dropSlot
  let (t, cursor) ← Directive.read (s.cursor.drop 1)
  return { s.emit t with cursor, keyAllowed := false }

def fetchDocumentMark (s : Lexer) (t : Token) : Except Error Lexer := do
  let s ← s.closeAllBlocks.dropSlot
  return { s.take 3 t with keyAllowed := false }

def fetchFlowStart (s : Lexer) (t : Token) : Except Error Lexer := do
  let s ← s.saveSlot
  return { s.take 1 t with outer := s.slot :: s.outer, slot := none, keyAllowed := true }

def fetchFlowEnd (s : Lexer) (t : Token) : Except Error Lexer := do
  let s ← s.dropSlot
  let s := { s.take 1 t with keyAllowed := false }
  match s.outer with
  | [] => return s
  | slot :: outer => return { s with slot, outer }

def fetchSeparator (s : Lexer) : Except Error Lexer := do
  let s ← s.dropSlot
  return { s.take 1 .separator with keyAllowed := true }

def fetchEntry (s : Lexer) : Except Error Lexer := do
  if !s.inFlow && !s.keyAllowed then throw .misplacedEntry
  let s ← (s.openBlock .blockSequence).dropSlot
  return { s.take 1 .entry with keyAllowed := true }

def fetchKey (s : Lexer) : Except Error Lexer := do
  if !s.inFlow && !s.keyAllowed then throw .misplacedKey
  let s ← (s.openBlock .blockMapping).dropSlot
  return { s.take 1 .key with keyAllowed := !s.inFlow }

/-- Turns the lexeme of a slot into one that opens a key. -/
def openKey (s : Lexer) (k : Slot) : Lexer :=
  if !s.inFlow && s.least ≤ k.position.column then
    { s with
      lexemes := s.lexemes.modify k.index fun l => { l with opening := .mapping }
      columns := k.position.column :: s.columns }
  else
    { s with lexemes := s.lexemes.modify k.index fun l => { l with opening := .key } }

def fetchValue (s : Lexer) : Except Error Lexer :=
  match s.slot with
  | some k => .ok { (s.openKey k).take 1 .value with slot := none, keyAllowed := false }
  | none =>
      if !s.inFlow && !s.keyAllowed then throw .misplacedValue
      else .ok { (s.openBlock .blockMapping).take 1 .value with keyAllowed := !s.inFlow }

def fetchName (s : Lexer) (t : List Char → Token) : Except Error Lexer := do
  let s ← s.saveSlot
  let (name, cursor) := (s.cursor.drop 1).span isNameChar
  let ends : Bool := match cursor.rest with
    | [] => true
    | c :: _ => isWhite c || ['?', ':', ',', ']', '}', '%', '@', '\x60'].contains c
  if name.isEmpty || !ends then throw .badAnchor
  return { s.emit (t name) with cursor, keyAllowed := false }

def fetchTag (s : Lexer) : Except Error Lexer := do
  let s ← s.saveSlot
  let ((handle, suffix), cursor) ← Tag.read s.inFlow s.cursor
  return { s.emit (.tag handle suffix) with cursor, keyAllowed := false }

def fetchBlockScalar (s : Lexer) (style : Style) : Except Error Lexer := do
  let s ← s.dropSlot
  let (text, cursor) ← Block.read (style = .folded) s.columns.head? (s.cursor.drop 1)
  return { s.emit (.scalar style text) with cursor, keyAllowed := true }

def fetchSingleQuoted (s : Lexer) : Except Error Lexer := do
  let s ← s.saveSlot
  let c := s.cursor.drop 1
  let (text, cursor) ← SingleQuoted.read [] c.position c.rest
  return { s.emit (.scalar .singleQuoted text) with cursor, keyAllowed := false }

def fetchDoubleQuoted (s : Lexer) : Except Error Lexer := do
  let s ← s.saveSlot
  let c := s.cursor.drop 1
  let (text, cursor) ← DoubleQuoted.read (.words {}) c.position c.rest
  return { s.emit (.scalar .doubleQuoted text) with cursor, keyAllowed := false }

def fetchPlain (s : Lexer) : Except Error Lexer := do
  let s ← s.saveSlot
  let p ← Plain.read s.inFlow s.least [] s.cursor.position s.cursor.rest
  return { s.emit (.scalar .plain p.text) with cursor := p.cursor, keyAllowed := p.brokeLine }

/-- Takes the token that begins with `c`, which `r` follows. -/
def fetch (s : Lexer) (c : Char) (r : List Char) : Except Error Lexer :=
  if s.cursor.column = 0 && c = '%' then s.fetchDirective
  else if s.cursor.column = 0 && isDocumentMark (c :: r) then
    s.fetchDocumentMark (if c = '-' then .documentStart else .documentEnd)
  else
    match c with
    | '[' => s.fetchFlowStart .flowSequence
    | '{' => s.fetchFlowStart .flowMapping
    | ']' => s.fetchFlowEnd .flowSequenceEnd
    | '}' => s.fetchFlowEnd .flowMappingEnd
    | ',' => s.fetchSeparator
    | '*' => s.fetchName .aliasOf
    | '&' => s.fetchName .anchor
    | '!' => s.fetchTag
    | '\'' => s.fetchSingleQuoted
    | '"' => s.fetchDoubleQuoted
    | '|' => if s.inFlow then throw (.noToken c) else s.fetchBlockScalar .literal
    | '>' => if s.inFlow then throw (.noToken c) else s.fetchBlockScalar .folded
    | '-' => if endsWord r then s.fetchEntry else s.fetchPlain
    | '?' => if s.inFlow || endsWord r then s.fetchKey else s.fetchPlain
    | ':' => if s.inFlow || endsWord r then s.fetchValue else s.fetchPlain
    | c => if isWhite c || indicators.contains c then throw (.noToken c) else s.fetchPlain

/-! ### The whole text -/

/-- Passes over blanks, comments and line breaks. Tabs count as blanks only where they cannot be
taken for indentation. -/
def passSpace (inFlow : Bool) : Bool → Bool → Position → List Char → Bool × Cursor
  | keyAllowed, _, p, [] => (keyAllowed, ⟨p, []⟩)
  | keyAllowed, inComment, p, c :: r =>
      if isBreak c then passSpace inFlow (keyAllowed || !inFlow) false (p.next c) r
      else if inComment || c = '#' then passSpace inFlow keyAllowed true (p.next c) r
      else if c = ' ' || (c = '\t' && (inFlow || !keyAllowed)) then
        passSpace inFlow keyAllowed false (p.next c) r
      else (keyAllowed, ⟨p, c :: r⟩)

def finish (s : Lexer) : Except Error (List Token) := do
  let s ← s.closeAllBlocks.dropSlot
  return s.lexemes.toList.flatMap Lexeme.tokens

/-- Takes at most `n` lexemes and then finishes. -/
def run : Nat → Lexer → Except Error (List Token)
  | 0, s => s.finish
  | n + 1, s => do
      let (keyAllowed, cursor) :=
        passSpace s.inFlow s.keyAllowed false s.cursor.position s.cursor.rest
      let s ← { s with keyAllowed, cursor }.expireSlots
      let s := s.closeBlocks s.cursor.column
      match s.cursor.rest with
      | [] => s.finish
      | c :: r => run n (← s.fetch c r)

end Lexer

/-- The tokens of a text. A byte order mark at its beginning takes up a column and means nothing. -/
def Token.scan (text : List Char) : Except Error (List Token) :=
  match text.find? fun c => !isAllowed c with
  | some c => throw (.forbiddenCharacter c)
  | none =>
      let text := unifyBreaks text
      let cursor : Cursor :=
        if text.head? = some byteOrderMark then ⟨{ column := 1 }, text.drop 1⟩ else ⟨{}, text⟩
      Lexer.run (text.length + 1) { cursor }

end Emm.Yaml
