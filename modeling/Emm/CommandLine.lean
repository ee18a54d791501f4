import Emm.Config.File
import Emm.Log.Filter

/-!
The command line of the service: which options it has, what is wrong with arguments that it refuses,
and what it does before the tasks start.

Arguments are taken in order. The value of an option is looked at when the next option begins or the
arguments are over, so a misplaced argument is reported before a bad value in front of it.
-/

namespace Emm.CommandLine

/-- An option with a value. -/
inductive Setting
  | config
  | logLevel
deriving DecidableEq

namespace Setting

def letter : Setting → Char
  | config => 'c'
  | logLevel => 'l'

def name : Setting → String
  | config => "config"
  | logLevel => "log-level"

def valueName : Setting → String
  | config => "FILE"
  | logLevel => "LEVEL"

/-- The option as messages show it. -/
def text (s : Setting) : String := "--" ++ s.name ++ " <" ++ s.valueName ++ ">"

def all : List Setting := [config, logLevel]

end Setting

/-- An option without a value. It ends the program before anything else is done. -/
inductive Info
  | help
  | version
deriving DecidableEq

namespace Info

def letter : Info → Char
  | help => 'h'
  | version => 'V'

def name : Info → String
  | help => "help"
  | version => "version"

def all : List Info := [help, version]

end Info

inductive UsageError
  | unexpectedArgument (argument : String)
  | unexpectedValue (value : String) (info : Info)
  | missingValue (setting : Setting)
  | repeated (setting : Setting)
  | unknownLevel (error : Log.Level.Unknown)
  | missingConfig
deriving DecidableEq

def UsageError.message : UsageError → String
  | unexpectedArgument argument => "unexpected argument '" ++ argument ++ "' found"
  | unexpectedValue value info =>
      "unexpected value '" ++ value ++ "' for '--" ++ info.name ++
        "' found; no more were expected"
  | missingValue s => "a value is required for '" ++ s.text ++ "' but none was supplied"
  | repeated s => "the argument '" ++ s.text ++ "' cannot be used multiple times"
  | unknownLevel e =>
      "invalid value '" ++ e.text ++ "' for '" ++ Setting.logLevel.text ++ "': " ++ e.message
  | missingConfig =>
      "the following required arguments were not provided:\n  " ++ Setting.config.text

/-- What the arguments ask for. -/
inductive Request
  | info (info : Info)
  | serve (configFile : String) (level : Option Log.Level)
deriving DecidableEq

/-- The options taken so far. -/
structure Taken where
  configFile : Option String := none
  level : Option Log.Level := none
  /-- An option that is not looked at yet, with its value if that has come. -/
  pending : Option (Setting × Option String) := none

namespace Taken

def has (t : Taken) : Setting → Bool
  | .config => t.configFile.isSome
  | .logLevel => t.level.isSome

def set (t : Taken) (s : Setting) (value : String) : Except UsageError Taken :=
  if t.has s then throw (.repeated s)
  else
    match s with
    | .config => .ok { t with configFile := some value }
    | .logLevel =>
        match Log.Level.parse value with
        | .ok level => .ok { t with level := some level }
        | .error e => throw (.unknownLevel e)

/-- Looks at the pending option. -/
def settle (t : Taken) : Except UsageError Taken :=
  match t.pending with
  | none => .ok t
  | some (s, none) => throw (.missingValue s)
  | some (s, some value) => { t with pending := none }.set s value

def finish (t : Taken) : Except UsageError Request := do
  let t ← t.settle
  match t.configFile with
  | some file => return .serve file t.level
  | none => throw .missingConfig

/-- Takes an option, whose value may be attached to it. -/
def option (t : Taken) (s : Setting) (attached : Option String) : Except UsageError Taken := do
  let t ← t.settle
  match attached with
  | some value => t.set s value
  | none => return { t with pending := some (s, none) }

end Taken

/-- How an argument looks. -/
inductive Shape
  /-- Two hyphens alone, behind which there are no options. -/
  | escape
  | long (name : String) (attached : Option String)
  | short (letter : Char) (attached : Option String)
  | value

/-- A hyphen alone is a value. -/
def shape (argument : String) : Shape :=
  match argument.toList with
  | ['-', '-'] => .escape
  | '-' :: '-' :: r =>
      .long (String.ofList (r.takeWhile (· ≠ '=')))
        (match r.dropWhile (· ≠ '=') with
          | [] => none
          | _ :: value => some (String.ofList value))
  | '-' :: c :: r =>
      .short c
        (match r with
          | [] => none
          | '=' :: value => some (String.ofList value)
          | value => some (String.ofList value))
  | _ => .value

def parseFrom (t : Taken) : List String → Except UsageError Request
  | [] => t.finish
  | argument :: rest =>
      match shape argument with
      | .escape =>
          match rest with
          | [] => t.finish
          | next :: _ => throw (.unexpectedArgument next)
      | .long name attached =>
          match Setting.all.find? fun s => s.name = name with
          | some s => do parseFrom (← t.option s attached) rest
          | none =>
              match Info.all.find? fun i => i.name = name with
              | some i =>
                  match attached with
                  | some value => throw (.unexpectedValue value i)
                  | none => do
                      let _ ← t.settle
                      return .info i
              | none => throw (.unexpectedArgument ("--" ++ name))
      | .short letter attached =>
          match Setting.all.find? fun s => s.letter = letter with
          | some s => do parseFrom (← t.option s attached) rest
          | none =>
              match Info.all.find? fun i => i.letter = letter with
              | some i => do
                  let _ ← t.settle
                  return .info i
              | none => throw (.unexpectedArgument (String.ofList ['-', letter]))
      | .value =>
          match t.pending with
          | some (s, none) => parseFrom { t with pending := some (s, some argument) } rest
          | _ => throw (.unexpectedArgument argument)

def parse (arguments : List String) : Except UsageError Request := parseFrom {} arguments

/-- An end of the program, with what it writes. -/
structure Exit where
  code : UInt32
  output : String := ""
  errors : String := ""
deriving DecidableEq

inductive Outcome
  | exit (exit : Exit)
  | serve (config : Config) (filter : Log.Filter)

def program : String := "nr-mme"

def versionText : String := program ++ " 0.1.0\n"

def usage : String := "Usage: " ++ program ++ " [OPTIONS] " ++ Setting.config.text ++ "\n"

def helpText : String :=
  "nextgsim MME - EMM identification service\n\n" ++ usage ++ "\nOptions:\n" ++
    "  -c, --config <FILE>      Path to the MME configuration file (YAML)\n" ++
    "  -l, --log-level <LEVEL>  Log level (trace, debug, info, warn, error); " ++
    "overrides \x60log_filter\x60\n" ++
    "  -h, --help               Print help\n" ++
    "  -V, --version            Print version\n"

/-- The level on the command line wins over the filter in the configuration. -/
def filterOf (level : Option Log.Level) (config : Config) : Log.Filter :=
  match level, config.logFilter with
  | some level, _ => .parse level.text
  | none, some filter => .parse filter
  | none, none => .parse (default : Log.Level).text

/-- Does what the arguments ask for, up to the start of the tasks. -/
def start (readFile : String → Except FileError ByteArray) (arguments : List String) : Outcome :=
  match parse arguments with
  | .error e =>
      .exit {
        code := 2
        errors := "error: " ++ e.message ++ "\n\n" ++ usage ++
          "\nFor more information, try '--help'.\n" }
  | .ok (.info .help) => .exit { code := 0, output := helpText }
  | .ok (.info .version) => .exit { code := 0, output := versionText }
  | .ok (.serve file level) =>
      match Config.ofFile (readFile file) with
      | .ok config => .serve config (filterOf level config)
      | .error e =>
          .exit {
            code := 1
            errors := program ++ ": Failed to load configuration file: " ++ file ++ ": " ++
              e.chain ++ "\n" }

end Emm.CommandLine
