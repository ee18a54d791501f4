import Emm.Proofs.Yaml.Literal
import Emm.Yaml.Value

/-!
Whatever a text holds, only characters are written of it that may stand in a stream as they are. A
stream of these is not changed before it is scanned.

Main statements: `allPrintable_writeText`, `unifyBreaks_eq_self`.
-/

namespace Emm.Yaml

theorem isAllowed_of_isPrintable {c : Char} (h : isPrintable c) : isAllowed c := by
  simp only [isPrintable, Bool.or_eq_true, Bool.and_eq_true, decide_eq_true_eq] at h
  simp only [isAllowed, Bool.or_eq_true, Bool.and_eq_true, decide_eq_true_eq]
  omega

theorem unifyBreaks_eq_self {s : List Char} (h : AllPrintable s) : unifyBreaks s = s := by
  fun_induction unifyBreaks s with
  | case1 => rfl
  | case2 r ih => exact absurd (h '\r' (List.mem_cons_self ..)) (by decide)
  | case3 c r hr ih =>
      have hc : ¬(c = '\r' ∨ c = '\u0085') := by
        rintro (rfl | rfl)
        · exact absurd (h _ (List.mem_cons_self ..)) (by decide)
        · exact absurd (h _ (List.mem_cons_self ..)) (by decide)
      rw [if_neg hc, ih fun d hd => h d (List.mem_cons_of_mem _ hd)]

namespace DoubleQuoted

theorem allPrintable_codeDigits (width n : Nat) : AllPrintable (codeDigits width n) := by
  apply AllPrintable.append
  · intro c hc
    rw [List.eq_of_mem_replicate hc]
    decide
  · intro c hc
    obtain ⟨d, hd, rfl⟩ := List.mem_map.1 hc
    obtain ⟨k, hk, rfl⟩ := exists_digitChar_of_mem (by decide) hd
    have hall : ∀ k : Fin 16, isPrintable k.val.digitChar.toUpper := by decide
    exact hall ⟨k, hk⟩

/-- The letters that are written in escapes. The tab is in the list of letters, but there is one
before it that stands for the same. -/
theorem isPrintable_letter {l c d : Char}
    (h : shortEscapes.find? (fun e => e.2 = c) = some (l, d)) : isPrintable l := by
  have hletters : shortEscapes.all (fun e => isPrintable e.1 || e.2 = '\t') = true := by decide
  have hl := List.all_eq_true.1 hletters _ (List.mem_of_find?_eq_some h)
  rcases Bool.or_eq_true_iff.1 hl with hl | hl
  · exact hl
  · obtain rfl : d = '\t' := of_decide_eq_true hl
    obtain rfl : '\t' = c := by simpa using List.find?_some h
    obtain rfl : 't' = l := congrArg Prod.fst (Option.some.inj h)
    decide

theorem allPrintable_escaped (c : Char) : AllPrintable (escaped c) := by
  have hnumber {l : Char} (hl : isPrintable l) (width : Nat) :
      AllPrintable ('\\' :: l :: codeDigits width c.toNat) :=
    .cons (by decide) (.cons hl (allPrintable_codeDigits width c.toNat))
  unfold escaped
  split
  · rename_i l d hfind
    exact .cons (by decide) (.cons (isPrintable_letter hfind) .nil)
  · simp only
    split
    · exact hnumber (by decide) 2
    · split
      · exact hnumber (by decide) 4
      · exact hnumber (by decide) 8

theorem allPrintable_write (s : List Char) : AllPrintable (write s) := by
  have hbody : AllPrintable (s.flatMap fun c => if needsEscape c then escaped c else [c]) := by
    intro c hc
    obtain ⟨d, -, hd⟩ := List.mem_flatMap.1 hc
    split at hd
    · exact allPrintable_escaped d c hd
    · rename_i hplain
      rw [List.mem_singleton.1 hd]
      simp only [needsEscape, Bool.or_eq_true, not_or, Bool.not_eq_true', Bool.not_eq_false]
        at hplain
      exact hplain.1.1.1
  exact (hbody.cons (by decide)).append (.cons (by decide) .nil)

end DoubleQuoted

namespace SingleQuoted

theorem allPrintable_of_isWritable {s : List Char} (h : isWritable s) : AllPrintable s := by
  fun_induction isWritable s with
  | case1 c d r ih =>
      simp only [Bool.and_eq_true] at h
      exact .cons h.1.1.1 (ih h.2)
  | case2 c => exact .cons h .nil
  | case3 => exact .nil

theorem mem_go {s : List Char} {indent : Nat} {broke : Bool} {c : Char}
    (hc : c ∈ write.go indent broke s) : c ∈ s ∨ c = ' ' ∨ c = '\'' := by
  have hmargin : ∀ d ∈ write.margin indent broke, d = ' ' := by
    intro d hd
    unfold write.margin at hd
    split at hd
    · exact List.eq_of_mem_replicate hd
    · exact absurd hd List.not_mem_nil
  induction s generalizing broke with
  | nil => grind [write.go]
  | cons d r ih => grind [write.go, write.margin]

theorem allPrintable_write {s : List Char} (h : isWritable s) (indent : Nat) :
    AllPrintable (write indent s) := by
  apply AllPrintable.cons
  · decide
  · intro c hc
    rcases mem_go hc with hc | rfl | rfl
    · exact allPrintable_of_isWritable h c hc
    · decide
    · decide

end SingleQuoted

namespace Block

theorem mem_go {s : List Char} {indent : Nat} {atMargin : Bool} {c : Char}
    (hc : c ∈ write.go indent atMargin s) : c ∈ s ∨ c = ' ' ∨ c = '\n' := by
  induction s generalizing atMargin with
  | nil => grind [write.go]
  | cons d r ih => grind [write.go]

theorem allPrintable_write {s : List Char} (h : isWritable s) (indent step : Nat) :
    AllPrintable (write indent step s) := by
  have hdigits : AllPrintable (if statesIndentation s then Nat.toDigits 10 step else []) := by
    split
    · exact .of_isDigit isDigit_of_mem_toDigits
    · exact .nil
  have hchomp : AllPrintable (chompOf s).indicator := by
    cases chompOf s with
    | strip => exact .cons (by decide) .nil
    | clip => exact .nil
    | keep => exact .cons (by decide) .nil
  have hlines : AllPrintable (write.go indent true s) := by
    intro c hc
    rcases mem_go hc with hc | rfl | rfl
    · exact allPrintable_of_isWritable h c hc
    · decide
    · decide
  exact ((hdigits.cons (by decide)).append hchomp).append (hlines.cons (by decide))

end Block

theorem allPrintable_writeText (indent : Nat) (s : List Char) :
    AllPrintable (writeText indent s) := by
  rw [writeText]
  split
  · split
    · rename_i hblock
      exact Block.allPrintable_write hblock indent indentation
    · exact (DoubleQuoted.allPrintable_write s).line
  · split
    · rename_i hplain
      obtain ⟨-, hwrite⟩ := Bool.and_eq_true_iff.1 hplain
      exact (Plain.isLine_of_isWritable hwrite).1.allPrintable.line
    · split
      · rename_i hquoted
        exact (SingleQuoted.allPrintable_write hquoted indent).line
      · exact (DoubleQuoted.allPrintable_write s).line

end Emm.Yaml
