import Emm.Yaml.Meaning
import Emm.Yaml.Node.Reader
import Emm.Yaml.Token.Lexer

/-!
Reading values out of a document. What is wanted decides how a node is understood: `5` is a text
where a text is wanted, and a number where a number is.
-/

namespace Emm.Yaml

/-- A document, within which aliases are understood. -/
structure Document where
  root : Node

namespace Document

/-- The node that an alias refers to; any other node is itself. -/
def resolve (d : Document) : Node → Node
  | .aliasOf place => (d.root.anchored? place).getD .empty
  | n => n

def text (d : Document) (n : Node) : Except Error (List Char) :=
  match d.resolve n with
  | .scalar _ _ text => .ok text
  | _ => throw .textExpected

/-- A text, or nothing where null is written or nothing at all. The null tag demands null; with any
other tag a text is meant. -/
def text? (d : Document) (n : Node) : Except Error (Option (List Char)) :=
  match d.resolve n with
  | .scalar p .plain text =>
      match p.tag with
      | none => .ok (if text = [] ∨ isNull text then none else some text)
      | some tag =>
          if tag = Tag.null then if isNull text then .ok none else throw .nullExpected
          else .ok (some text)
  | n => some <$> d.text n

/-- A whole number below `bound`, without quotes. -/
def natural (d : Document) (bound : Nat) (n : Node) : Except Error Nat :=
  match d.resolve n with
  | .scalar _ .plain text =>
      match natural? UInt64.size text with
      | none => throw .numberExpected
      | some k => if k < bound then .ok k else throw .numberTooLarge
  | _ => throw .numberExpected

/-- The fields of a mapping that have one of the names, each of which may stand once. Nothing
written is a mapping without fields. -/
def fields (d : Document) (names : List String) (n : Node) : Except Error (List (String × Node)) :=
  match d.resolve n with
  | .mapping _ entries =>
      entries.foldlM (fun found (k, v) => do
        let name := String.ofList (← d.text k)
        if !names.contains name then return found
        if (found.lookup name).isSome then throw (.repeatedField name)
        return found ++ [(name, v)]) []
  | .scalar _ .plain [] => .ok []
  | _ => throw .mappingExpected

end Document

/-- The value of a field, or the default if there is none. -/
def field (fields : List (String × Node)) (name : String) (default : α)
    (read : Node → Except Error α) : Except Error α :=
  match fields.lookup name with
  | some n => read n
  | none => .ok default

/-- The document that the text holds; nothing, if it is blank. -/
def load? (text : String) : Except Error (Option Document) := do
  let root ← Node.ofTokens? (← Token.scan text.toList)
  return root.map fun root => { root }

/-- Reads a value of a kind that has to be written. -/
def load (read : Document → Node → Except Error α) (text : String) : Except Error α := do
  match ← load? text with
  | some d => read d d.root
  | none => throw .noDocument

end Emm.Yaml
