import Emm.CommandLine
import Emm.Service

/-!
The program: it reads its arguments and the configuration file, starts the service, and stops it
when the standard input ends.
-/

open Emm

def readFile (path : String) : IO (Except FileError ByteArray) := do
  try
    return .ok (← IO.FS.readBinFile path)
  catch
    | .noFileOrDirectory .. => return .error .notFound
    | .inappropriateType .. => return .error .isADirectory
    | e => return .error (.other (toString e))

partial def awaitEnd (input : IO.FS.Stream) : IO Unit := do
  if !(← input.getLine).isEmpty then awaitEnd input

/-- Writes what has been logged since there were `known` events in the log. -/
def writeLog (filter : Log.Filter) (known : Nat) (s : System) : IO Unit :=
  (Service.logLines filter (s.mme.log.reverse.drop known)).forM (IO.println ·)

def serve (config : Config) (filter : Log.Filter) : IO Unit := do
  let started := Service.start config
  writeLog filter 0 started
  awaitEnd (← IO.getStdin)
  writeLog filter started.mme.log.length (Service.stop started)

def main (arguments : List String) : IO UInt32 := do
  let contents ← match CommandLine.parse arguments with
    | .ok (.serve file _) => readFile file
    | _ => pure (.error .notFound)
  match CommandLine.start (fun _ => contents) arguments with
  | .exit e =>
      IO.print e.output
      IO.eprint e.errors
      return e.code
  | .serve config filter =>
      serve config filter
      return 0
