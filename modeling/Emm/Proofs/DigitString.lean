import Mathlib.Data.List.Basic
import Emm.Identity

/-!
Which texts are identities: ASCII digits and nothing else, as many of them as the kind admits. Every
other text is refused, and the refusal names the first character that is no digit, or the number of
digits if there is no such character.

Main statement: `parse_grammar`.
-/

namespace Emm

/-- One of the ten ASCII digits. Those of other scripts lie outside. -/
def IsAsciiDigit (c : Char) : Prop := '0' ≤ c ∧ c ≤ '9'

theorem isAsciiDigit_iff (c : Char) : IsAsciiDigit c ↔ 48 ≤ c.toNat ∧ c.toNat < 58 := by
  change (48 ≤ c.toNat ∧ c.toNat ≤ 57) ↔ _
  omega

instance (c : Char) : Decidable (IsAsciiDigit c) :=
  decidable_of_iff _ (isAsciiDigit_iff c).symm

/-- The lengths that an identity of the kind may have (3GPP TS 23.003). -/
def IdentifierKind.Admits : IdentifierKind → Nat → Prop
  | imsi, n => 6 ≤ n ∧ n ≤ 15
  | imei, n => n = 15
  | imeisv, n => n = 16

theorem IdentifierKind.admits_iff (kind : IdentifierKind) (n : Nat) :
    kind.Admits n ↔ kind.minDigits ≤ n ∧ n ≤ kind.maxDigits := by
  cases kind with
  | imsi => rfl
  | imei =>
      simp only [Admits, minDigits, maxDigits]
      omega
  | imeisv =>
      simp only [Admits, minDigits, maxDigits]
      omega

namespace Digit

theorem ofChar?_eq_none_iff (c : Char) : ofChar? c = none ↔ ¬IsAsciiDigit c := by
  rw [isAsciiDigit_iff, ofChar?]
  split
  · rename_i hdigit
    simp [hdigit]
  · rename_i hother
    simp only [hother, not_false_eq_true]

@[simp]
theorem ofChar?_toChar (d : Digit) : ofChar? d.toChar = some d := by
  revert d
  decide

theorem toChar_of_ofChar? {c : Char} {d : Digit} (h : ofChar? c = some d) : d.toChar = c := by
  unfold ofChar? at h
  split at h
  · rename_i hdigit
    cases h
    have hvalue : 48 + (c.toNat - 48) = c.toNat := by omega
    rw [toChar]
    exact (congrArg Char.ofNat hvalue).trans (Char.ofNat_toNat c)
  · cases h

theorem isAsciiDigit_toChar (d : Digit) : IsAsciiDigit d.toChar := by
  revert d
  decide

theorem exists_eq_map_toChar {cs : List Char} (h : ∀ c ∈ cs, IsAsciiDigit c) :
    ∃ ds : List Digit, cs = ds.map toChar := by
  induction cs with
  | nil => exact ⟨[], rfl⟩
  | cons c cs ih =>
      obtain ⟨ds, hds⟩ := ih fun d hd => h d (List.mem_cons_of_mem _ hd)
      cases hc : ofChar? c with
      | none => exact absurd (h c (List.mem_cons_self ..)) ((ofChar?_eq_none_iff c).1 hc)
      | some d => exact ⟨d :: ds, by rw [List.map_cons, toChar_of_ofChar? hc, hds]⟩

theorem filterMap_ofChar?_map_toChar (ds : List Digit) :
    (ds.map toChar).filterMap ofChar? = ds := by
  induction ds with
  | nil => rfl
  | cons d ds ih => simp [ih]

theorem isAsciiDigit_of_mem (ds : List Digit) : ∀ c ∈ ds.map toChar, IsAsciiDigit c := by
  intro c hc
  obtain ⟨d, _, rfl⟩ := List.mem_map.1 hc
  exact isAsciiDigit_toChar d

theorem utf8ByteSize_map_toChar (ds : List Digit) :
    (String.ofList (ds.map toChar)).utf8ByteSize = ds.length := by
  induction ds with
  | nil => rfl
  | cons d ds ih =>
      have hsize : d.toChar.utf8Size = 1 := by
        revert d
        decide
      have hcons : String.ofList ((d :: ds).map toChar) =
          String.singleton d.toChar ++ String.ofList (ds.map toChar) := by
        apply String.ext
        simp
      rw [hcons, String.utf8ByteSize_append, String.utf8ByteSize_singleton, ih, hsize,
        List.length_cons, Nat.add_comm]

end Digit

namespace Identifier

open Digit

variable {kind : IdentifierKind} {s : String}

theorem digits_or_nonDigit (cs : List Char) :
    (∃ ds : List Digit, cs = ds.map toChar) ∨
      ∃ pre c post, cs = pre ++ c :: post ∧ (∀ d ∈ pre, IsAsciiDigit d) ∧ ¬IsAsciiDigit c := by
  by_cases hall : ∀ c ∈ cs, IsAsciiDigit c
  · exact .inl (exists_eq_map_toChar hall)
  · right
    cases hfind : cs.find? fun c => !decide (IsAsciiDigit c) with
    | none =>
        rw [List.find?_eq_none] at hfind
        refine absurd ?_ hall
        simpa using hfind
    | some c =>
        obtain ⟨hc, pre, post, rfl, hpre⟩ := List.find?_eq_some_iff_append.1 hfind
        exact ⟨pre, c, post, rfl, by simpa using hpre, by simpa using hc⟩

theorem parse_of_nonDigit {pre post : List Char} {c : Char} (hs : s.toList = pre ++ c :: post)
    (hpre : ∀ d ∈ pre, IsAsciiDigit d) (hc : ¬IsAsciiDigit c) :
    parse kind s = .error (.nonDigit kind c) := by
  have hfind : (s.toList.find? fun c => (ofChar? c).isNone) = some c := by
    rw [List.find?_eq_some_iff_append]
    refine ⟨?_, pre, post, hs, ?_⟩
    · rw [Option.isNone_iff_eq_none]
      exact (ofChar?_eq_none_iff c).2 hc
    · intro d hd
      rw [Bool.not_eq_true', Option.isNone_eq_false_iff, Option.isSome_iff_ne_none]
      intro hnone
      exact (ofChar?_eq_none_iff d).1 hnone (hpre d hd)
  rw [parse, hfind]

theorem parse_of_digits {ds : List Digit} (hs : s.toList = ds.map toChar) :
    parse kind s =
      if h : kind.minDigits ≤ ds.length ∧ ds.length ≤ kind.maxDigits then .ok ⟨ds, h⟩
      else .error (.invalidLength kind ds.length) := by
  have hfind : ((ds.map toChar).find? fun c => (ofChar? c).isNone) = none := by
    rw [List.find?_eq_none]
    intro c hc
    obtain ⟨d, _, rfl⟩ := List.mem_map.1 hc
    simp
  simp only [parse, hs, hfind, filterMap_ofChar?_map_toChar]

theorem length_of_digits {ds : List Digit} (hs : s.toList = ds.map toChar) :
    s.length = ds.length ∧ s.utf8ByteSize = ds.length := by
  constructor
  · rw [← String.length_toList, hs, List.length_map]
  · rw [← utf8ByteSize_map_toChar ds, ← hs, String.ofList_toList]

theorem toList_of_parse {i : Identifier kind} (h : parse kind s = .ok i) :
    s.toList = i.digits.map toChar := by
  obtain ⟨ds, hs⟩ | ⟨pre, c, post, hs, hpre, hc⟩ := digits_or_nonDigit s.toList
  · rw [parse_of_digits hs] at h
    split at h
    · cases h
      exact hs
    · cases h
  · rw [parse_of_nonDigit hs hpre hc] at h
    cases h

theorem exists_parse_iff :
    (∃ i, parse kind s = .ok i) ↔ (∀ c ∈ s.toList, IsAsciiDigit c) ∧ kind.Admits s.length := by
  constructor
  · rintro ⟨i, hi⟩
    have hs := toList_of_parse hi
    refine ⟨?_, ?_⟩
    · rw [hs]
      exact isAsciiDigit_of_mem i.digits
    · rw [kind.admits_iff, (length_of_digits hs).1]
      exact i.length_mem
  · rintro ⟨hdigits, hlength⟩
    obtain ⟨ds, hs⟩ := exists_eq_map_toChar hdigits
    rw [kind.admits_iff, (length_of_digits hs).1] at hlength
    exact ⟨⟨ds, hlength⟩, by rw [parse_of_digits hs, dif_pos hlength]⟩

/-- The first character that is no digit comes before a wrong number of digits. -/
theorem parse_eq_error_iff {e : IdentityError} :
    parse kind s = .error e ↔
      (∃ pre c post, s.toList = pre ++ c :: post ∧ (∀ d ∈ pre, IsAsciiDigit d) ∧
        ¬IsAsciiDigit c ∧ e = .nonDigit kind c) ∨
      (∀ c ∈ s.toList, IsAsciiDigit c) ∧ ¬kind.Admits s.length ∧
        e = .invalidLength kind s.length := by
  constructor
  · intro h
    obtain ⟨ds, hs⟩ | ⟨pre, c, post, hs, hpre, hc⟩ := digits_or_nonDigit s.toList
    · right
      rw [kind.admits_iff, (length_of_digits hs).1]
      rw [parse_of_digits hs] at h
      split at h
      · cases h
      · rename_i hlength
        cases h
        refine ⟨?_, hlength, rfl⟩
        rw [hs]
        exact isAsciiDigit_of_mem ds
    · rw [parse_of_nonDigit hs hpre hc] at h
      cases h
      exact .inl ⟨pre, c, post, hs, hpre, hc, rfl⟩
  · rintro (⟨pre, c, post, hs, hpre, hc, rfl⟩ | ⟨hdigits, hlength, rfl⟩)
    · exact parse_of_nonDigit hs hpre hc
    · obtain ⟨ds, hs⟩ := exists_eq_map_toChar hdigits
      rw [kind.admits_iff, (length_of_digits hs).1] at hlength
      rw [parse_of_digits hs, dif_neg hlength, (length_of_digits hs).1]

theorem softwareVersion_of_parse {i : Imeisv} (h : parse .imeisv s = .ok i) :
    ∃ front : String, s = front ++ Imeisv.softwareVersion i ∧ front.utf8ByteSize = 14 ∧
      (Imeisv.softwareVersion i).length = 2 ∧ ∀ c ∈ (Imeisv.softwareVersion i).toList,
        IsAsciiDigit c := by
  have hs := toList_of_parse h
  have hlength : i.digits.length = 16 := by
    obtain ⟨hmin, hmax⟩ := i.length_mem
    exact Nat.le_antisymm hmax hmin
  refine ⟨String.ofList ((i.digits.take 14).map toChar), ?_, ?_, ?_, ?_⟩
  · apply String.ext
    rw [String.toList_append, Imeisv.softwareVersion, String.toList_ofList, String.toList_ofList,
      ← List.map_append, List.take_append_drop, hs]
  · rw [utf8ByteSize_map_toChar, List.length_take, hlength]
    rfl
  · rw [Imeisv.softwareVersion, String.length_ofList, List.length_map, List.length_drop, hlength]
  · rw [Imeisv.softwareVersion, String.toList_ofList]
    exact isAsciiDigit_of_mem _

/-- A text is read as an identity exactly if it is made of ASCII digits, as many as the kind admits,
and then the identity is written as that text. Any other text is refused: for the first character
that is no digit if there is one, whatever the length, and else for the number of digits, each of
which is one octet. An IMEISV ends in its software version, two digits that begin at the fourteenth
octet. -/
theorem parse_grammar (kind : IdentifierKind) (s : String) :
    ((∃ i, parse kind s = .ok i) ↔
        (∀ c ∈ s.toList, IsAsciiDigit c) ∧ kind.Admits s.length) ∧
      (∀ i, parse kind s = .ok i → i.text = s) ∧
      (∀ e, parse kind s = .error e ↔
        (∃ pre c post, s.toList = pre ++ c :: post ∧ (∀ d ∈ pre, IsAsciiDigit d) ∧
          ¬IsAsciiDigit c ∧ e = .nonDigit kind c) ∨
        (∀ c ∈ s.toList, IsAsciiDigit c) ∧ ¬kind.Admits s.length ∧
          e = .invalidLength kind s.length) ∧
      ((∀ c ∈ s.toList, IsAsciiDigit c) → s.utf8ByteSize = s.length) ∧
      ∀ i, parse .imeisv s = .ok i →
        ∃ front : String, s = front ++ Imeisv.softwareVersion i ∧ front.utf8ByteSize = 14 ∧
          (Imeisv.softwareVersion i).length = 2 ∧
          ∀ c ∈ (Imeisv.softwareVersion i).toList, IsAsciiDigit c := by
  refine ⟨exists_parse_iff, ?_, fun e => parse_eq_error_iff, ?_, fun i h =>
    softwareVersion_of_parse h⟩
  · intro i h
    rw [text, ← toList_of_parse h, String.ofList_toList]
  · intro hdigits
    obtain ⟨ds, hs⟩ := exists_eq_map_toChar hdigits
    obtain ⟨hlength, hsize⟩ := length_of_digits hs
    exact hsize.trans hlength.symm

/-- An IMEISV of sixteen digits is read and ends in its software version; a text with a digit of
another script is refused for it although it is also too short. -/
theorem parse_grammar_imeisv :
    (∃ i : Imeisv, parse .imeisv "4901542032375101" = .ok i ∧ i.text = "4901542032375101" ∧
        Imeisv.softwareVersion i = "01") ∧
      parse .imsi "12\u0663" = .error (.nonDigit .imsi '\u0663') := by
  obtain ⟨hread, htext, _⟩ := parse_grammar .imeisv "4901542032375101"
  obtain ⟨_, _, herror, _⟩ := parse_grammar .imsi "12\u0663"
  constructor
  · have hdigits : ("4901542032375101".toList.all fun c => IsAsciiDigit c) = true := by decide
    obtain ⟨i, hi⟩ := hread.2 ⟨by simpa using hdigits, rfl⟩
    refine ⟨i, hi, htext i hi, ?_⟩
    rw [Imeisv.softwareVersion, List.map_drop, ← toList_of_parse hi]
    rfl
  · apply (herror _).2
    left
    exact ⟨['1', '2'], '\u0663', [], rfl, by simp [isAsciiDigit_iff], by decide, rfl⟩

end Identifier

end Emm
