import Emm.Identity

/-!
What the network asks a UE for, and what a UE may answer (3GPP TS 24.008, 10.5.5.9 and 10.5.1.4).
-/

namespace Emm

/-- A number on the wire for which a table has no entry. -/
structure UnknownCode where
  table : String
  code : UInt8
deriving DecidableEq

def UnknownCode.message (e : UnknownCode) : String :=
  "No discriminant in enum `" ++ e.table ++ "` matches the value `" ++ toString e.code.toNat ++ "`"

inductive IdentityType
  | noIdentity
  | imsi
  | imei
  | imeisv
  | tmsi
deriving DecidableEq, Inhabited

namespace IdentityType

def code : IdentityType → UInt8
  | noIdentity => 0
  | imsi => 1
  | imei => 2
  | imeisv => 3
  | tmsi => 4

def ofCode (c : UInt8) : Except UnknownCode IdentityType :=
  match [noIdentity, imsi, imei, imeisv, tmsi].find? fun t => t.code = c with
  | some t => .ok t
  | none => .error ⟨"IdentityType", c⟩

/-- The network allocated the TMSI itself and has no need to ask for it. -/
def isRequestable (t : IdentityType) : Bool := t ≠ tmsi

def text : IdentityType → String
  | noIdentity => "NO-IDENTITY"
  | imsi => "IMSI"
  | imei => "IMEI"
  | imeisv => "IMEISV"
  | tmsi => "TMSI"

end IdentityType

/-- The identity in a UE's response. -/
inductive MobileIdentity
  | imsi (imsi : Imsi)
  | imei (imei : Imei)
  | imeisv (imeisv : Imeisv)
  | tmsi (tmsi : UInt32)
deriving DecidableEq

namespace MobileIdentity

def type : MobileIdentity → IdentityType
  | imsi _ => .imsi
  | imei _ => .imei
  | imeisv _ => .imeisv
  | tmsi _ => .tmsi

def text : MobileIdentity → String
  | imsi i => "imsi-" ++ i.text
  | imei i => "imei-" ++ i.text
  | imeisv i => "imeisv-" ++ i.text
  | tmsi t => "tmsi-0x" ++ Text.paddedHex 8 t.toNat

end MobileIdentity

end Emm
