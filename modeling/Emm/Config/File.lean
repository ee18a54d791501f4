import Emm.Config.Yaml

/-!
The configuration in a file.
-/

namespace Emm

/-- Why a file cannot be read as text. -/
inductive FileError
  | notFound
  | notADirectory
  | isADirectory
  | nameTooLong
  /-- The file is not encoded in UTF-8. -/
  | notText
  | other (message : String)
deriving DecidableEq

def FileError.message : FileError → String
  | notFound => "No such file or directory (os error 2)"
  | notADirectory => "Not a directory (os error 20)"
  | isADirectory => "Is a directory (os error 21)"
  | nameTooLong => "File name too long (os error 36)"
  | notText => "stream did not contain valid UTF-8"
  | other message => message

/-- Why a configuration cannot be had from a file. -/
inductive ConfigFileError
  | unreadable (error : FileError)
  | unusable (error : ConfigError)
deriving DecidableEq

namespace ConfigFileError

def message : ConfigFileError → String
  | unreadable e => "I/O error: " ++ e.message
  | unusable e => e.message

/-- The message, followed by that of its cause where this is an error of its own. -/
def chain : ConfigFileError → String
  | unreadable e => (unreadable e).message ++ ": " ++ e.message
  | unusable (.malformed e) => (ConfigError.malformed e).message ++ ": " ++ e.message
  | unusable (.invalid s) => (ConfigError.invalid s).message

end ConfigFileError

/-- Reads the configuration from the contents of a file. -/
def Config.ofFile (contents : Except FileError ByteArray) : Except ConfigFileError Config := do
  let bytes ← contents.mapError .unreadable
  match String.fromUTF8? bytes with
  | none => throw (.unreadable .notText)
  | some text => (Config.ofYaml text).mapError .unusable

end Emm
