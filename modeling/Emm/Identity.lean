import Emm.Text

/-!
The identities that consist of digits (IMSI, IMEI, IMEISV) and the local identifier of a UE.
An `Identifier` holds a list of digits whose length its kind admits, so whatever has one may rely
on its form.
-/

namespace Emm

abbrev Digit := Fin 10

namespace Digit

/-- Only the ten ASCII digits count: those of other scripts are no part of an identity. -/
def ofChar? (c : Char) : Option Digit :=
  if h : 48 ≤ c.toNat ∧ c.toNat < 58 then some ⟨c.toNat - 48, by omega⟩ else none

def toChar (d : Digit) : Char := Char.ofNat (48 + d.val)

end Digit

inductive IdentifierKind
  | imsi
  | imei
  | imeisv
deriving DecidableEq

namespace IdentifierKind

def name : IdentifierKind → String
  | imsi => "IMSI"
  | imei => "IMEI"
  | imeisv => "IMEISV"

def minDigits : IdentifierKind → Nat
  | imsi => 6
  | imei => 15
  | imeisv => 16

def maxDigits : IdentifierKind → Nat
  | imsi => 15
  | imei => 15
  | imeisv => 16

/-- The lengths of the kind, in words. -/
def lengthText (k : IdentifierKind) : String :=
  if k.minDigits = k.maxDigits then toString k.maxDigits
  else toString k.minDigits ++ " to " ++ toString k.maxDigits

/-- The label under which a value of the kind is shown to developers. -/
def label : IdentifierKind → String
  | imsi => "Imsi"
  | imei => "Imei"
  | imeisv => "ImeiSv"

end IdentifierKind

inductive IdentityError
  | nonDigit (kind : IdentifierKind) (found : Char)
  | invalidLength (kind : IdentifierKind) (actual : Nat)
deriving DecidableEq

def IdentityError.message : IdentityError → String
  | nonDigit kind found => kind.name ++ " contains non-digit character " ++ Text.quoted found
  | invalidLength kind actual =>
      kind.name ++ " must have " ++ kind.lengthText ++ " digits, got " ++ toString actual

/-- An identity made of digits, as many as its kind admits. -/
structure Identifier (kind : IdentifierKind) where
  digits : List Digit
  length_mem : kind.minDigits ≤ digits.length ∧ digits.length ≤ kind.maxDigits
deriving DecidableEq

abbrev Imsi := Identifier .imsi

abbrev Imei := Identifier .imei

abbrev Imeisv := Identifier .imeisv

namespace Identifier

variable {kind : IdentifierKind}

/-- A character that is no digit is reported before a wrong length, and the first one at that. -/
def parse (kind : IdentifierKind) (s : String) : Except IdentityError (Identifier kind) :=
  match s.toList.find? fun c => (Digit.ofChar? c).isNone with
  | some c => .error (.nonDigit kind c)
  | none =>
      let digits := s.toList.filterMap Digit.ofChar?
      if h : kind.minDigits ≤ digits.length ∧ digits.length ≤ kind.maxDigits then
        .ok ⟨digits, h⟩
      else
        .error (.invalidLength kind digits.length)

def text (i : Identifier kind) : String := String.ofList (i.digits.map Digit.toChar)

def labelled (i : Identifier kind) : String := kind.label ++ "(" ++ i.text ++ ")"

/-- The digits read as a decimal number, in 64-bit arithmetic. -/
def toUInt64 (i : Identifier kind) : UInt64 :=
  i.digits.foldl (fun n d => n * 10 + UInt64.ofNat d.val) 0

end Identifier

/-- The software version number: what follows the first fourteen digits. -/
def Imeisv.softwareVersion (i : Imeisv) : String :=
  String.ofList ((i.digits.drop 14).map Digit.toChar)

/-- The identifier that an MME gives to a UE; it keys everything that is stored about the UE. -/
structure UeId where
  val : UInt32
deriving DecidableEq

namespace UeId

def text (u : UeId) : String := "0x" ++ Text.paddedHex 8 u.val.toNat

def labelled (u : UeId) : String := "MmeUeS1apId(0x" ++ Text.hex u.val.toNat ++ ")"

end UeId

end Emm
