import Emm.Identity
import Emm.Yaml.Document
import Emm.Yaml.Value

/-!
Identities as YAML: the digits as a text, the local identifier of a UE as a number.
-/

namespace Emm

namespace Identifier

def toYaml (i : Identifier kind) : Yaml.Value := .text i.text.toList

def ofYaml (kind : IdentifierKind) (text : String) : Except Yaml.Error (Identifier kind) :=
  Yaml.load (fun d n => do
    let digits ← d.text n
    (parse kind (String.ofList digits)).mapError fun e => .refused e.message) text

end Identifier

namespace UeId

def toYaml (u : UeId) : Yaml.Value := .natural u.val.toNat

def ofYaml (text : String) : Except Yaml.Error UeId :=
  Yaml.load (fun d n => do return ⟨UInt32.ofNat (← d.natural UInt32.size n)⟩) text

end UeId

end Emm
