import Emm.Config.File

/-!
A directory that holds at most one file, as the surroundings of a command line.
-/

namespace Emm.Bench

structure Directory where
  fileName : String
  contents : Option ByteArray

namespace Directory

/-- The names in a path. Repeated slashes count as one, and a dot as staying where one is. -/
def components (path : String) : List String :=
  (path.split (· = '/')).toList.map (·.toString) |>.filter fun s => s ≠ "" ∧ s ≠ "."

/-- Reads the file at a path relative to the directory. -/
def read (d : Directory) (path : String) : Except FileError ByteArray :=
  if path = "" then throw .notFound
  else
    match components path, d.contents with
    | [], _ | [".."], _ => throw .isADirectory
    | [name], some bytes =>
        if name = d.fileName then
          if path.endsWith "/" || path.endsWith "/." then throw .notADirectory else .ok bytes
        else throw .notFound
    | name :: _, some _ => if name = d.fileName then throw .notADirectory else throw .notFound
    | _, none => throw .notFound

end Directory

end Emm.Bench
