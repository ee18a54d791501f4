/-!
The tokens of a YAML stream. What indentation says is among them: a block collection is opened and
closed by tokens of their own, and every key is announced.
-/

namespace Emm.Yaml

inductive Style
  | plain
  | singleQuoted
  | doubleQuoted
  | literal
  | folded
deriving DecidableEq

inductive Token
  | version (major minor : Nat)
  /-- From here on in the document, `handle` stands for `meaning`. -/
  | tagHandle (handle meaning : List Char)
  | documentStart
  | documentEnd
  | blockSequence
  | blockMapping
  | blockEnd
  | flowSequence
  | flowSequenceEnd
  | flowMapping
  | flowMappingEnd
  /-- The hyphen before an entry of a block sequence. -/
  | entry
  /-- The comma between entries of a flow collection. -/
  | separator
  | key
  | value
  | aliasOf (name : List Char)
  | anchor (name : List Char)
  | tag (handle suffix : List Char)
  | scalar (style : Style) (text : List Char)
deriving DecidableEq

end Emm.Yaml
