/-!
Why a text is refused as YAML, or as a value of the kind that is wanted.
-/

namespace Emm.Yaml

inductive Error
  | forbiddenCharacter (found : Char)
  | noToken (found : Char)
  /-- A text that has to be a key is not followed by a colon. -/
  | keyWithoutColon
  | misplacedEntry
  | misplacedKey
  | misplacedValue
  | badDirective
  | badAnchor
  | badTag
  | badBlockHeader
  | tabInIndentation
  | unclosedQuote
  | documentMarkInQuotes
  | badEscape
  | colonInFlow
  | repeatedDirective
  | unknownVersion
  | documentStartExpected
  | nodeExpected
  | entryExpected
  | keyExpected
  | separatorExpected
  | unknownTagHandle
  | unknownAnchor (name : List Char)
  | secondDocument
  | noDocument
  | mappingExpected
  | textExpected
  | nullExpected
  | numberExpected
  | numberTooLarge
  | repeatedField (name : String)
  /-- The value is well-formed, but its type does not admit it. -/
  | refused (reason : String)
deriving DecidableEq

def Error.message : Error → String
  | forbiddenCharacter _ => "the stream holds a character that is not allowed"
  | noToken c => "no token starts with " ++ c.toString
  | keyWithoutColon => "a key needs a colon after it"
  | misplacedEntry => "a sequence entry is not allowed here"
  | misplacedKey => "a key is not allowed here"
  | misplacedValue => "a value is not allowed here"
  | badDirective => "malformed directive"
  | badAnchor => "malformed anchor or alias"
  | badTag => "malformed tag"
  | badBlockHeader => "malformed header of a block scalar"
  | tabInIndentation => "a tab stands where the line has to be indented"
  | unclosedQuote => "a quoted scalar is not closed"
  | documentMarkInQuotes => "a document ends within a quoted scalar"
  | badEscape => "unknown escape"
  | colonInFlow => "unexpected colon"
  | repeatedDirective => "the directive stands twice"
  | unknownVersion => "the version is not supported"
  | documentStartExpected => "a document has to start here"
  | nodeExpected => "a node has to stand here"
  | entryExpected => "a sequence entry has to stand here"
  | keyExpected => "a key has to stand here"
  | separatorExpected => "a comma or a closing bracket has to stand here"
  | unknownTagHandle => "the tag handle is not defined"
  | unknownAnchor name => "there is no anchor " ++ String.ofList name
  | secondDocument => "there is more than one document"
  | noDocument => "there is no document"
  | mappingExpected => "a mapping has to stand here"
  | textExpected => "a text has to stand here"
  | nullExpected => "null has to stand here"
  | numberExpected => "a whole number has to stand here"
  | numberTooLarge => "the number is too large"
  | repeatedField name => "the field " ++ name ++ " stands twice"
  | refused reason => reason

end Emm.Yaml
