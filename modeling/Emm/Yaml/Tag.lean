import Emm.Yaml.Error
import Emm.Yaml.Cursor

/-!
Tags and the handles that abbreviate them. A tag is written in full between angle brackets, or as a
handle and a suffix; percent signs in it introduce escaped octets.
-/

namespace Emm.Yaml.Tag

def null : List Char := "tag:yaml.org,2002:null".toList

/-- What the handles stand for that need no directive. -/
def defaultHandles : List (List Char × List Char) :=
  [(['!'], ['!']), (['!', '!'], "tag:yaml.org,2002:".toList)]

def isTagChar (bracketed : Bool) (c : Char) : Bool :=
  isNameChar c || ";/?:@&=+$.%!~*'()".toList.contains c ||
    (bracketed && [',', '[', ']'].contains c)

/-- Puts escaped octets together; `left` octets of a character with the bits `code` are to come. -/
def decode? (left code : Nat) : List Char → Option (List Char)
  | '%' :: a :: b :: r => do
      let octet := (← hexDigit? a) * 16 + (← hexDigit? b)
      if left = 0 then
        if octet < 0x80 then (Char.ofNat octet :: ·) <$> decode? 0 0 r
        else if 0xc0 ≤ octet && octet < 0xe0 then decode? 1 (octet % 0x20) r
        else if 0xe0 ≤ octet && octet < 0xf0 then decode? 2 (octet % 0x10) r
        else if 0xf0 ≤ octet && octet < 0xf8 then decode? 3 (octet % 0x8) r
        else none
      else if octet / 0x40 = 2 then
        let code := code * 0x40 + octet % 0x40
        if left = 1 then (Char.ofNat code :: ·) <$> decode? 0 0 r else decode? (left - 1) code r
      else none
  | c :: r => if left = 0 ∧ c ≠ '%' then (c :: ·) <$> decode? 0 0 r else none
  | [] => if left = 0 then some [] else none

/-- The characters of a tag or of a part of it. -/
def readPart (bracketed : Bool) (c : Cursor) : Except Error (List Char × Cursor) :=
  let (raw, c) := c.span (isTagChar bracketed)
  match decode? 0 0 raw with
  | some part => .ok (part, c)
  | none => throw .badTag

/-- A handle, or what could be one: an exclamation mark, a name, and perhaps another mark. -/
def readHandle (c : Cursor) : List Char × Cursor :=
  let (name, c) := (c.drop 1).span isNameChar
  match c.rest with
  | '!' :: _ => ('!' :: name ++ ['!'], c.drop 1)
  | _ => ('!' :: name, c)

/-- Takes a tag, as a handle and a suffix. The handle is empty if the suffix is the whole tag. -/
def read (inFlow : Bool) (c : Cursor) : Except Error ((List Char × List Char) × Cursor) := do
  let (tag, c) ← parts c
  match c.rest with
  | [] => return (tag, c)
  | x :: _ => if isWhite x || (inFlow && x = ',') then return (tag, c) else throw .badTag
where
  parts (c : Cursor) : Except Error ((List Char × List Char) × Cursor) := do
    match c.rest with
    | '!' :: '<' :: _ =>
        let (tag, c) ← readPart true (c.drop 2)
        match tag, c.rest with
        | _ :: _, '>' :: _ => return (([], tag), c.drop 1)
        | _, _ => throw .badTag
    | _ =>
        let (handle, c) := readHandle c
        let (part, c) ← readPart false c
        if handle.length ≥ 2 && handle.getLast? = some '!' then
          if part = [] then throw .badTag else return ((handle, part), c)
        else
          match handle.drop 1 ++ part with
          | [] => return (([], ['!']), c)
          | suffix => return ((['!'], suffix), c)

end Emm.Yaml.Tag
