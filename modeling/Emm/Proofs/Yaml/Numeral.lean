import Emm.Yaml.Meaning
import Emm.Yaml.Plain

/-!
Numbers as they are written. The digits of a number have it as their value, in decimal notation
and, written in capitals, as the number of a character; and the decimal digits are a plain scalar
that means this number.

Main statement: `natural?_toDigits`.
-/

namespace Emm.Yaml

/-- The value of some digits to which one more is added. -/
def appendDigit (base value : Nat) (c : Char) : Option Nat :=
  ((hexDigit? c).filter (· < base)).map (value * base + ·)

theorem digitsValue?_of_ne_nil (base : Nat) {s : List Char} (h : s ≠ []) :
    digitsValue? base s = s.foldlM (appendDigit base) 0 :=
  if_neg h

theorem hexDigit?_digitChar {d : Nat} (h : d < 16) : hexDigit? d.digitChar = some d := by
  have hall : ∀ d : Fin 16, hexDigit? d.val.digitChar = some d.val := by decide
  exact hall ⟨d, h⟩

theorem hexDigit?_toUpper {d : Nat} (h : d < 16) : hexDigit? d.digitChar.toUpper = some d := by
  have hall : ∀ d : Fin 16, hexDigit? d.val.digitChar.toUpper = some d.val := by decide
  exact hall ⟨d, h⟩

/-- However the digits are spelled, their value is the number that they are the digits of. -/
theorem foldlM_appendDigit {base : Nat} (hbase : 1 < base) (spell : Char → Char)
    (hspell : ∀ d < base, hexDigit? (spell d.digitChar) = some d) (n : Nat) :
    ((Nat.toDigits base n).map spell).foldlM (appendDigit base) 0 = some n := by
  have hlast (value : Nat) {d : Nat} (hd : d < base) :
      appendDigit base value (spell d.digitChar) = some (value * base + d) := by
    simp [appendDigit, hspell d hd, Option.filter, hd]
  induction n using Nat.strongRecOn with
  | ind n ih =>
      rcases Nat.lt_or_ge n base with hn | hn
      · rw [Nat.toDigits_of_lt_base hn]
        simp [hlast 0 hn]
      · rw [Nat.toDigits_of_base_le hbase hn, List.map_append, List.foldlM_append,
          ih (n / base) (Nat.div_lt_self (by omega) hbase)]
        have hmod : n % base < base := Nat.mod_lt _ (by omega)
        simp [hlast _ hmod, Nat.div_add_mod']

theorem exists_digitChar_of_mem {base n : Nat} (hbase : 1 < base) {c : Char}
    (hc : c ∈ Nat.toDigits base n) : ∃ d < base, c = d.digitChar := by
  induction n using Nat.strongRecOn with
  | ind n ih =>
      rcases Nat.lt_or_ge n base with hn | hn
      · rw [Nat.toDigits_of_lt_base hn, List.mem_singleton] at hc
        exact ⟨n, hn, hc⟩
      · rw [Nat.toDigits_of_base_le hbase hn] at hc
        rcases List.mem_append.1 hc with hc | hc
        · exact ih (n / base) (Nat.div_lt_self (by omega) hbase) hc
        · exact ⟨n % base, Nat.mod_lt _ (by omega), List.mem_singleton.1 hc⟩

variable {s : List Char}

theorem head?_toDigits_ne_zero {n : Nat} (hn : 0 < n) : (Nat.toDigits 10 n).head? ≠ some '0' := by
  induction n using Nat.strongRecOn with
  | ind n ih =>
      rcases Nat.lt_or_ge n 10 with hsmall | hlarge
      · rw [Nat.toDigits_of_lt_base hsmall]
        simp
        omega
      · rw [Nat.toDigits_of_base_le (by decide) hlarge,
          List.head?_append, List.head?_eq_some_head Nat.toDigits_ne_nil, Option.some_or,
          ← List.head?_eq_some_head]
        exact ih (n / 10) (by omega) (by omega)

theorem isDigit_of_mem_toDigits {n : Nat} : ∀ c ∈ Nat.toDigits 10 n, c.isDigit :=
  fun _ hc => Nat.isDigit_of_mem_toDigits (by decide) (by decide) hc

theorem isPadded_toDigits (n : Nat) : isPadded (Nat.toDigits 10 n) = false := by
  rcases Nat.eq_zero_or_pos n with rfl | hn
  · decide
  · have hhead := head?_toDigits_ne_zero hn
    have hdigits := isDigit_of_mem_toDigits (n := n)
    unfold isPadded
    split
    · rename_i heq
      rw [heq] at hdigits
      exact absurd (hdigits '+' (List.mem_cons_self ..)) (by decide)
    · rename_i heq
      rw [heq] at hdigits
      exact absurd (hdigits '-' (List.mem_cons_self ..)) (by decide)
    · simp [hhead]

theorem basedValue?_of_isDigit (h : ∀ c ∈ s, c.isDigit) : basedValue? s = none := by
  unfold basedValue?
  split
  · exact absurd (h 'x' (by simp)) (by decide)
  · exact absurd (h 'o' (by simp)) (by decide)
  · exact absurd (h 'b' (by simp)) (by decide)
  · rfl

theorem natural?_of_isDigit (bound : Nat) (h : ∀ c ∈ s, c.isDigit) :
    natural? bound s =
      if isPadded s then none else (digitsValue? 10 s).filter (· < bound) := by
  unfold natural?
  split
  · exact absurd (h '+' (List.mem_cons_self ..)) (by decide)
  · simp only [basedValue?_of_isDigit h, Option.filter_none, Option.none_or]

theorem natural?_toDigits {bound n : Nat} (h : n < bound) :
    natural? bound (Nat.toDigits 10 n) = some n := by
  have hvalue : digitsValue? 10 (Nat.toDigits 10 n) = some n := by
    have hfold := foldlM_appendDigit (by decide : 1 < 10) id
      (fun d hd => hexDigit?_digitChar (Nat.lt_trans hd (by decide))) n
    rwa [List.map_id, ← digitsValue?_of_ne_nil 10 Nat.toDigits_ne_nil] at hfold
  rw [natural?_of_isDigit bound isDigit_of_mem_toDigits, isPadded_toDigits, hvalue]
  simp [Option.filter, h]

end Emm.Yaml
