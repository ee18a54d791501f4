/-!
Log levels, from the most to the least talkative.
-/

namespace Emm.Log

inductive Level
  | trace
  | debug
  | info
  | warn
  | error
deriving DecidableEq

namespace Level

/-- The level used where none is given. -/
instance : Inhabited Level := ⟨info⟩

def text : Level → String
  | trace => "trace"
  | debug => "debug"
  | info => "info"
  | warn => "warn"
  | error => "error"

/-- The level as log lines show it. -/
def name : Level → String
  | trace => "TRACE"
  | debug => "DEBUG"
  | info => "INFO"
  | warn => "WARN"
  | error => "ERROR"

/-- How much the level weighs: an error the most. -/
def rank : Level → Nat
  | trace => 0
  | debug => 1
  | info => 2
  | warn => 3
  | error => 4

structure Unknown where
  text : String
deriving DecidableEq

def Unknown.message (e : Unknown) : String := "unknown log level: " ++ e.text

/-- Capital letters count as small ones. No letter outside ASCII has one of these words' letters as
its small form, so folding the ASCII ones is enough. -/
def parse (s : String) : Except Unknown Level :=
  match String.ofList (s.toList.map Char.toLower) with
  | "trace" => .ok trace
  | "debug" => .ok debug
  | "info" => .ok info
  | "warn" => .ok warn
  | "warning" => .ok warn
  | "error" => .ok error
  | _ => .error ⟨s⟩

end Level

end Emm.Log
