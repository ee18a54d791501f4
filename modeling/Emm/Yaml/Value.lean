import Emm.Yaml.Meaning
import Emm.Yaml.Block
import Emm.Yaml.DoubleQuoted
import Emm.Yaml.Plain
import Emm.Yaml.SingleQuoted

/-!
Writing values as YAML. A text is written without quotes where it then reads as itself, over several
lines if it has line feeds, and otherwise in the plainest quotes that can hold it.
-/

namespace Emm.Yaml

inductive Value
  | null
  | natural (n : Nat)
  | text (s : List Char)
  | mapping (fields : List (String × Value))

/-- How much deeper the lines of a value are indented than what it belongs to. -/
def indentation : Nat := 2

/-- Writes a text in lines indented by `indent`. The last of them is ended. -/
def writeText (indent : Nat) (s : List Char) : List Char :=
  if s.contains '\n' then
    if Block.isWritable s then Block.write indent indentation s else DoubleQuoted.write s ++ ['\n']
  else if meansItself s && Plain.isWritable s then s ++ ['\n']
  else if SingleQuoted.isWritable s then SingleQuoted.write indent s ++ ['\n']
  else DoubleQuoted.write s ++ ['\n']

namespace Value

mutual

/-- Writes a value behind what it belongs to, which stands in column `column`. -/
def write (column : Nat) : Value → List Char
  | null => "null\n".toList
  | natural n => Nat.toDigits 10 n ++ ['\n']
  | text s => writeText (column + indentation) s
  | mapping [] => ['\x7b', '\x7d', '\n']
  | mapping fields => writeFields column fields

/-- Writes each field on a line of its own. The fields of a nested mapping begin on the line below
its name. -/
def writeFields (column : Nat) : List (String × Value) → List Char
  | [] => []
  | (name, value) :: rest =>
      List.replicate column ' ' ++ name.toList ++ ':' ::
        (match value with
          | mapping fields@(_ :: _) => '\n' :: writeFields (column + indentation) fields
          | value => ' ' :: value.write column) ++ writeFields column rest

end

/-- The document that holds the value alone. -/
def render (v : Value) : String := String.ofList (v.write 0)

end Value

end Emm.Yaml
