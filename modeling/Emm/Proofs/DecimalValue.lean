import Mathlib.Data.Nat.Digits.Defs
import Mathlib.Data.String.Basic
import Emm.Proofs.DigitString

/-!
An identity as a number. Its digits are few enough for 64 bits: read octet by octet, its text never
takes the number out of range, and the number is the one that the text denotes in decimal notation.
Among IMSIs of one length the number tells them apart and keeps the order of their texts.

Main statement: `toUInt64_decimal`.
-/

namespace Emm

namespace Digit

/-- The number that is written with some digits, the last of which counts the ones. -/
def value (ds : List Digit) : ℕ := Nat.ofDigits 10 (ds.reverse.map Fin.val)

theorem value_cons (d : Digit) (ds : List Digit) :
    value (d :: ds) = d.val * 10 ^ ds.length + value ds := by
  rw [value, List.map_reverse, List.map_cons, Nat.ofDigits_reverse_cons, List.length_map,
    ← List.map_reverse, Nat.mul_comm, Nat.add_comm, value]

theorem lt_ten_of_mem (ds : List Digit) : ∀ n ∈ ds.reverse.map Fin.val, n < 10 := by
  intro n hn
  obtain ⟨d, _, rfl⟩ := List.mem_map.1 hn
  exact d.isLt

theorem value_lt (ds : List Digit) : value ds < 10 ^ ds.length := by
  have hbound := Nat.ofDigits_lt_base_pow_length (by decide : 1 < 10) (lt_ten_of_mem ds)
  rwa [List.length_map, List.length_reverse] at hbound

theorem value_inj {ds es : List Digit} (hlength : ds.length = es.length) :
    value ds = value es ↔ ds = es := by
  constructor
  · intro h
    have hlengths : (ds.reverse.map Fin.val).length = (es.reverse.map Fin.val).length := by
      simpa using hlength
    have hvalues := Nat.ofDigits_inj_of_len_eq (by decide : 1 < 10) hlengths
      (lt_ten_of_mem ds) (lt_ten_of_mem es) h
    exact List.reverse_injective (List.map_injective_iff.2 (fun _ _ => Fin.ext) hvalues)
  · rintro rfl
    rfl

theorem leading_lt_iff {d e p v w : ℕ} (hv : v < p) (hw : w < p) :
    d * p + v < e * p + w ↔ d < e ∨ d = e ∧ v < w := by
  rcases Nat.lt_trichotomy d e with hlt | rfl | hgt
  · have hstep : (d + 1) * p ≤ e * p := Nat.mul_le_mul_right p hlt
    rw [Nat.succ_mul] at hstep
    omega
  · omega
  · have hstep : (e + 1) * p ≤ d * p := Nat.mul_le_mul_right p hgt
    rw [Nat.succ_mul] at hstep
    omega

theorem toChar_lt_iff (d e : Digit) : d.toChar < e.toChar ↔ d < e := by
  revert d e
  decide

theorem toChar_inj (d e : Digit) : d.toChar = e.toChar ↔ d = e := by
  revert d e
  decide

theorem value_lt_iff {ds es : List Digit} (hlength : ds.length = es.length) :
    value ds < value es ↔ ds.map toChar < es.map toChar := by
  induction ds generalizing es with
  | nil =>
      obtain rfl := List.eq_nil_of_length_eq_zero hlength.symm
      simp
  | cons d ds ih =>
      cases es with
      | nil => cases hlength
      | cons e es =>
          have htail : ds.length = es.length := Nat.succ.inj hlength
          have hvalue : value es < 10 ^ ds.length := htail ▸ value_lt es
          rw [value_cons, value_cons, ← htail, leading_lt_iff (value_lt ds) hvalue, List.map_cons,
            List.map_cons, List.cons_lt_cons_iff, toChar_lt_iff, toChar_inj, ← ih htail,
            Fin.lt_def, Fin.ext_iff]

def octet (d : Digit) : UInt8 := UInt8.ofNat (48 + d.val)

theorem toNat_octet (d : Digit) : d.octet.toNat = 48 + d.val := by
  revert d
  decide

theorem utf8EncodeChar_toChar (d : Digit) : String.utf8EncodeChar d.toChar = [d.octet] := by
  revert d
  decide

theorem toUTF8_map_toChar (ds : List Digit) :
    (String.ofList (ds.map toChar)).toUTF8.data.toList = ds.map octet := by
  rw [String.toUTF8, String.toByteArray_ofList, List.utf8Encode, List.data_toByteArray,
    List.toList_toArray, List.flatMap_map, List.map_eq_flatMap]
  simp only [utf8EncodeChar_toChar]

def appendTo (n : UInt64) (d : Digit) : UInt64 := n * 10 + UInt64.ofNat d.val

/-- An octet is read behind a number. Its distance from the octet of the digit zero is added to ten
times the number; there is no result if it comes before that octet, or if the sum (or the product
before it) is too great for 64 bits. -/
def readOctet? (n : UInt64) (b : UInt8) : Option UInt64 :=
  if 48 ≤ b.toNat ∧ n.toNat * 10 + (b.toNat - 48) < UInt64.size then
    some (n * 10 + (b - 48).toUInt64)
  else none

theorem toNat_appendTo {n : UInt64} {d : Digit} (h : n.toNat * 10 + d.val < UInt64.size) :
    (appendTo n d).toNat = n.toNat * 10 + d.val := by
  have hten : (10 : UInt64).toNat = 10 := rfl
  rw [UInt64.size] at h
  rw [appendTo, UInt64.toNat_add, UInt64.toNat_mul, UInt64.toNat_ofNat', hten]
  omega

theorem readOctet?_octet {n : UInt64} {d : Digit} (h : n.toNat * 10 + d.val < UInt64.size) :
    readOctet? n d.octet = some (appendTo n d) := by
  have hdistance : (d.octet - 48).toUInt64 = UInt64.ofNat d.val := by
    clear h
    revert d
    decide
  rw [readOctet?, if_pos, hdistance, appendTo]
  rw [toNat_octet]
  omega

/-- Nineteen digits fit into 64 bits, so no step on the way to them goes out of range. -/
theorem foldlM_readOctet? {ds : List Digit} {n : UInt64} {k : ℕ} (hn : n.toNat < 10 ^ k)
    (hk : k + ds.length ≤ 19) :
    (ds.map octet).foldlM readOctet? n = some (ds.foldl appendTo n) ∧
      (ds.foldl appendTo n).toNat = n.toNat * 10 ^ ds.length + value ds := by
  induction ds generalizing n k with
  | nil => simp [value]
  | cons d ds ih =>
      rw [List.length_cons] at hk
      have hdigit : d.val < 10 := d.isLt
      -- the number read so far has no more digits than have been read
      have hnext : n.toNat * 10 + d.val < 10 ^ (k + 1) := by
        rw [Nat.pow_succ]
        omega
      have hroom : n.toNat * 10 + d.val < UInt64.size := by
        have hpow : 10 ^ (k + 1) ≤ 10 ^ 19 := Nat.pow_le_pow_right (by decide) (by omega)
        have hsize : 10 ^ 19 ≤ UInt64.size := by decide
        omega
      have hvalue := toNat_appendTo hroom
      rw [← hvalue] at hnext
      obtain ⟨hread, hfold⟩ := ih hnext (by omega)
      constructor
      · rw [List.map_cons, List.foldlM_cons, readOctet?_octet hroom]
        exact hread
      · rw [List.foldl_cons, hfold, hvalue, value_cons, List.length_cons, Nat.pow_succ]
        ring

end Digit

namespace Identifier

open Digit

variable {kind : IdentifierKind}

theorem length_digits_le_nineteen (i : Identifier kind) : i.digits.length ≤ 19 := by
  have hmax := i.length_mem.2
  have hkind : kind.maxDigits ≤ 16 := by cases kind <;> decide
  omega

theorem toUInt64_eq (i : Identifier kind) : i.toUInt64 = i.digits.foldl appendTo 0 := rfl

theorem read_digits (i : Identifier kind) :
    (i.digits.map octet).foldlM readOctet? 0 = some i.toUInt64 ∧
      i.toUInt64.toNat = value i.digits := by
  have hlength : 0 + i.digits.length ≤ 19 := by
    rw [Nat.zero_add]
    exact i.length_digits_le_nineteen
  obtain ⟨hread, hvalue⟩ := foldlM_readOctet? (n := 0) (k := 0) (by decide) hlength
  rw [UInt64.toNat_zero, Nat.zero_mul, Nat.zero_add] at hvalue
  rw [toUInt64_eq]
  exact ⟨hread, hvalue⟩

theorem foldlM_text (i : Identifier kind) :
    i.text.toUTF8.data.foldlM readOctet? 0 = some i.toUInt64 := by
  rw [← Array.foldlM_toList, text, toUTF8_map_toChar]
  exact i.read_digits.1

theorem toNat_toUInt64 (i : Identifier kind) : i.toUInt64.toNat = value i.digits :=
  i.read_digits.2

theorem value_digits (i : Identifier kind) :
    value i.digits = Nat.ofDigits 10 (i.text.toList.reverse.map fun c => c.toNat - '0'.toNat) := by
  have hchar (d : Digit) : d.toChar.toNat - '0'.toNat = d.val := by
    revert d
    decide
  rw [text, String.toList_ofList, ← List.map_reverse, List.map_map, value]
  congr
  funext d
  exact (hchar d).symm

/-- The number of an IMSI is read off the octets of its text without a difference, a product or a
sum out of range. It is what the text denotes in decimal notation, and less than `10 ^ 15`. Two
IMSIs with the same number of digits have the same number only if they are the same, and the one
whose text comes first in lexicographic order has the smaller number. -/
theorem toUInt64_decimal (i : Imsi) :
    i.text.toUTF8.data.foldlM readOctet? 0 = some i.toUInt64 ∧
      i.toUInt64.toNat =
        Nat.ofDigits 10 (i.text.toList.reverse.map fun c => c.toNat - '0'.toNat) ∧
      i.toUInt64.toNat < 10 ^ 15 ∧
      ∀ j : Imsi, i.digits.length = j.digits.length →
        (i.toUInt64 = j.toUInt64 ↔ i = j) ∧ (i.toUInt64 < j.toUInt64 ↔ i.text < j.text) := by
  refine ⟨i.foldlM_text, ?_, ?_, fun j hlength => ⟨?_, ?_⟩⟩
  · rw [toNat_toUInt64, value_digits]
  · rw [toNat_toUInt64]
    calc
      value i.digits < 10 ^ i.digits.length := value_lt i.digits
      _ ≤ 10 ^ 15 := Nat.pow_le_pow_right (by decide) i.length_mem.2
  · rw [← UInt64.toNat_inj, toNat_toUInt64, toNat_toUInt64, value_inj hlength,
      Identifier.mk.injEq]
  · rw [UInt64.lt_iff_toNat_lt, toNat_toUInt64, toNat_toUInt64, value_lt_iff hlength,
      String.lt_iff_toList_lt, text, text, String.toList_ofList, String.toList_ofList]

/-- An IMSI with leading zeros comes before the greatest one, as a number and as a text. -/
theorem toUInt64_decimal_leading_zeros :
    let i : Imsi := ⟨[0, 0, 1, 0, 1, 0, 0, 0, 0, 0, 0, 0, 0, 0, 9], by decide⟩
    let j : Imsi := ⟨List.replicate 15 9, by decide⟩
    i.digits.length = j.digits.length ∧ i.toUInt64.toNat = 1010000000009 ∧
      j.toUInt64.toNat < 10 ^ 15 ∧ i.toUInt64 ≠ j.toUInt64 ∧ i.toUInt64 < j.toUInt64 ∧
      i.text < j.text := by
  intro i j
  obtain ⟨_, hvalue, _, hsame⟩ := toUInt64_decimal i
  obtain ⟨_, _, hbound, _⟩ := toUInt64_decimal j
  obtain ⟨hequal, horder⟩ := hsame j rfl
  have hless : i.toUInt64 < j.toUInt64 := by decide
  refine ⟨rfl, hvalue.trans (by decide), hbound, ?_, hless, horder.1 hless⟩
  rw [ne_eq, hequal]
  decide

/-- One more zero in front makes another IMSI of the same number: the lengths have to agree. -/
example : (⟨[0, 0, 0, 1, 0, 1, 0], by decide⟩ : Imsi).toUInt64 =
    (⟨[0, 0, 1, 0, 1, 0], by decide⟩ : Imsi).toUInt64 := by
  decide

end Identifier

end Emm
