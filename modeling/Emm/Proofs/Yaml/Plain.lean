import Mathlib.Data.List.Basic
import Emm.Proofs.Yaml.Numeral
import Emm.Yaml.Plain

/-!
A plain scalar is read back up to the colon behind a key or the line break behind a value. The
reader keeps the white space since the last word; within a text that may be written plain these are
blanks, so that nothing of it is lost and nothing in it ends the scalar.

Main statements: `read_key`, `read_line`.
-/

namespace Emm.Yaml

variable {c : Char} {p : Position}

theorem eq_blank_of_isWhite (hprint : isPrintable c) (hbreak : isBreak c = false)
    (hwhite : isWhite c) : c = ' ' := by
  simp only [isWhite, hbreak, Bool.or_false, isBlank, Bool.or_eq_true, decide_eq_true_eq] at hwhite
  rcases hwhite with rfl | rfl
  · rfl
  · exact absurd hprint (by decide)

theorem isPrintable_of_isDigit (h : c.isDigit) : isPrintable c := by
  simp only [Char.isDigit, Bool.and_eq_true, decide_eq_true_eq, ge_iff_le, UInt32.le_iff_toNat_le]
    at h
  have hlow : 48 ≤ c.toNat := h.1
  have hhigh : c.toNat ≤ 57 := h.2
  simp only [isPrintable, Bool.or_eq_true, Bool.and_eq_true, decide_eq_true_eq]
  omega

/-- The text is of characters that may be written as they are. -/
def AllPrintable (s : List Char) : Prop := ∀ c ∈ s, isPrintable c

namespace AllPrintable

variable {s t : List Char}

theorem nil : AllPrintable [] := List.forall_mem_nil _

theorem cons (hc : isPrintable c) (hs : AllPrintable s) : AllPrintable (c :: s) :=
  List.forall_mem_cons.2 ⟨hc, hs⟩

theorem append (hs : AllPrintable s) (ht : AllPrintable t) : AllPrintable (s ++ t) :=
  List.forall_mem_append.2 ⟨hs, ht⟩

theorem of_isDigit (h : ∀ c ∈ s, c.isDigit) : AllPrintable s :=
  fun c hc => isPrintable_of_isDigit (h c hc)

theorem margin (n : Nat) : AllPrintable (List.replicate n ' ') := by
  intro c hc
  rw [List.eq_of_mem_replicate hc]
  decide

theorem line (hs : AllPrintable s) : AllPrintable (s ++ ['\n']) :=
  hs.append (.cons (by decide) .nil)

end AllPrintable

@[simp]
theorem Position.next_of_not_isBreak (h : isBreak c = false) :
    p.next c = { p with column := p.column + 1 } := by
  simp [next, h]

@[simp]
theorem Position.next_of_isBreak (h : isBreak c) : p.next c = { line := p.line + 1 } := by
  simp [next, h]

theorem Position.column_next_pos (h : isBreak c = false) : 0 < (p.next c).column := by
  rw [next_of_not_isBreak h]
  exact Nat.succ_pos _

theorem Gap.leadingTabs_go_eq_nil {gap : List Char} (h : '\t' ∉ gap) (column : Option Nat) :
    Gap.leadingTabs.go column gap = [] := by
  induction gap generalizing column with
  | nil => rfl
  | cons c gap ih =>
      have hc : c ≠ '\t' := fun heq => h (heq ▸ List.mem_cons_self ..)
      have hrest : '\t' ∉ gap := fun hmem => h (List.mem_cons_of_mem _ hmem)
      cases column with
      | none => simp [Gap.leadingTabs.go, ih hrest]
      | some k => simp [Gap.leadingTabs.go, ih hrest, hc]

theorem Gap.text_of_blanks {gap : List Char} (h : ∀ c ∈ gap, c = ' ') :
    Gap.text { white := gap } = gap := by
  have hbreaks : gap.filter isBreak = [] := by
    rw [List.filter_eq_nil_iff]
    intro c hc
    rw [h c hc]
    decide
  simp [Gap.text, Gap.breaks, hbreaks]

theorem Gap.blanks_push {gap : List Char} (h : ∀ c ∈ gap, c = ' ') :
    ∀ c ∈ gap ++ [' '], c = ' ' := by
  intro c hc
  rcases List.mem_append.1 hc with hc | hc
  · exact h c hc
  · exact List.mem_singleton.1 hc

/-- The text goes on with `r` in a line that is indented by `j`, which is at most `k`; or it is
over. -/
structure Resumes (k j : Nat) (r : List Char) : Prop where
  margin_le : j ≤ k
  word : ∀ c ∈ r.head?, isWhite c = false ∧ c ≠ '#'

theorem Resumes.mono {k k' j : Nat} {r : List Char} (h : Resumes k j r) (hk : k ≤ k') :
    Resumes k' j r :=
  ⟨Nat.le_trans h.margin_le hk, h.word⟩

namespace Plain

variable {text tail gap : List Char} {indent : Nat}

@[simp]
theorem prepend_prepend (s : Scalar) (t u : List Char) :
    (s.prepend t).prepend u = s.prepend (u ++ t) := by
  simp [Scalar.prepend]

/-- The text is of characters that may stand in a plain scalar. -/
def IsLine (text : List Char) : Prop := ∀ c ∈ text, isPrintable c ∧ isBreak c = false

theorem IsLine.allPrintable (h : IsLine text) : AllPrintable text := fun c hc => (h c hc).1

theorem endsWord_append {r : List Char} (h : endsWord r = false) :
    endsWord (r ++ tail) = false := by
  cases r with
  | nil => exact absurd h (by decide)
  | cons d r => exact h

theorem startsAsIndicator_append (h : startsAsIndicator (c :: text) = false) :
    startsAsIndicator (c :: (text ++ tail)) = false := by
  simp only [startsAsIndicator, Bool.or_eq_false_iff, Bool.and_eq_false_iff] at h ⊢
  exact ⟨h.1, h.2.imp_right endsWord_append⟩

theorem ne_sharp (h : startsAsIndicator (c :: text) = false) : c ≠ '#' := by
  rintro rfl
  simp [startsAsIndicator, indicators] at h

/-- Where a text may stand in a plain scalar, it does not end the scalar. The character `x` comes
before it, and it is white if white space is pending. -/
theorem endsBefore_eq_false {x : Char} {r : List Char}
    (hhold : holdsIndicator (x :: c :: r) = false)
    (hgap : gap ≠ [] → isWhite x ∧ indent ≤ p.column ∧ 0 < p.column) :
    endsBefore false indent gap p (c :: (r ++ tail)) = false := by
  simp only [holdsIndicator, Bool.or_eq_false_iff, Bool.and_eq_false_iff, decide_eq_false_iff_not]
    at hhold
  obtain ⟨⟨hcolon, hsharp⟩, -⟩ := hhold
  have hcolon' : (decide (c = ':') && endsWord (r ++ tail)) = false := by
    rw [Bool.and_eq_false_iff, decide_eq_false_iff_not]
    exact hcolon.imp_right endsWord_append
  rw [endsBefore, hcolon', Bool.false_and, Bool.or_false, Bool.or_false, Bool.and_eq_false_iff]
  rcases eq_or_ne gap [] with rfl | hne
  · left
    rfl
  · right
    obtain ⟨hwhite, hindent, hpos⟩ := hgap hne
    have hc : c ≠ '#' := by
      rcases hsharp with hc | hx
      · exact hc
      · exact absurd hwhite (by simp [hx])
    simp [hc, Nat.pos_iff_ne_zero.1 hpos, hindent]

theorem read_append {x : Char} {s : Scalar} (htext : IsLine text)
    (hhold : holdsIndicator (x :: text) = false) (hlast : text.getLast? ≠ some ' ')
    (hblanks : ∀ c ∈ gap, c = ' ') (hne : gap ≠ [] → text ≠ [])
    (hgap : gap ≠ [] → isWhite x ∧ indent ≤ p.column ∧ 0 < p.column)
    (hindent : indent ≤ p.column + 1)
    (hread : read false indent [] { p with column := p.column + text.length } tail = .ok s) :
    read false indent gap p (text ++ tail) = .ok (s.prepend (gap ++ text)) := by
  -- `gap` is the white space since the last word; it counts once another word follows
  induction text generalizing x gap p with
  | nil =>
      obtain rfl : gap = [] := by
        by_contra hgap'
        exact hne hgap' rfl
      exact hread
  | cons c r ih =>
      obtain ⟨hprint, hbreak⟩ := htext c (List.mem_cons_self ..)
      have hrest : IsLine r := fun d hd => htext d (List.mem_cons_of_mem _ hd)
      have hhold' : holdsIndicator (c :: r) = false := by
        cases r with
        | nil => rfl
        | cons d r => exact (Bool.or_eq_false_iff.1 hhold).2
      have hlast' : r.getLast? ≠ some ' ' := by
        cases r with
        | nil => simp
        | cons d r => rwa [List.getLast?_cons_cons] at hlast
      have hread' : read false indent [] { p with column := p.column + 1 + r.length } tail =
          .ok s := by
        rw [← hread, List.length_cons, Nat.add_right_comm, Nat.add_assoc]
      rw [List.cons_append, read, Position.next_of_not_isBreak hbreak]
      rcases Bool.eq_false_or_eq_true (isWhite c) with hwhite | hword
      · obtain rfl := eq_blank_of_isWhite hprint hbreak hwhite
        have hr : r ≠ [] := by
          rintro rfl
          exact hlast rfl
        have hcolumn : gap ++ [' '] ≠ [] → isWhite ' ' ∧ indent ≤ p.column + 1 ∧ 0 < p.column + 1 :=
          fun _ => ⟨rfl, hindent, Nat.succ_pos _⟩
        rw [if_pos hwhite, ih hrest hhold' hlast' (Gap.blanks_push hblanks) (fun _ => hr) hcolumn
          (Nat.le_succ_of_le hindent) hread']
        simp
      · have htabs : Gap.leadingTabs gap = [] := by
          apply Gap.leadingTabs_go_eq_nil
          intro htab
          exact absurd (hblanks _ htab) (by decide)
        rw [if_neg (by simp [hword]), endsBefore_eq_false hhold hgap, htabs,
          ih hrest hhold' hlast' (by simp) (by simp) (by simp) (Nat.le_succ_of_le hindent) hread',
          Gap.text_of_blanks hblanks]
        simp [Except.map]

theorem isLine_of_isWritable (h : isWritable text) :
    IsLine text ∧ text.getLast? ≠ some ' ' ∧ startsAsIndicator text = false ∧
      holdsIndicator ('x' :: text) = false := by
  simp only [isWritable, Bool.and_eq_true, Bool.not_eq_true', decide_eq_true_eq, List.all_eq_true]
    at h
  obtain ⟨⟨⟨⟨⟨⟨htext, -⟩, hlast⟩, -⟩, -⟩, hstart⟩, hhold⟩ := h
  refine ⟨htext, hlast, hstart, ?_⟩
  cases text with
  | nil => rfl
  | cons c r =>
      have hcolon : c = ':' → endsWord r = false := by
        rintro rfl
        simpa [startsAsIndicator, indicators, flowIndicators] using hstart
      have hx : isWhite 'x' = false := by decide
      simpa [holdsIndicator, hhold, hx] using hcolon

theorem isWhite_head (h : isWritable (c :: text)) : isWhite c = false := by
  obtain ⟨hprint, hbreak⟩ := (isLine_of_isWritable h).1 c (List.mem_cons_self ..)
  rw [← Bool.not_eq_true]
  intro hwhite
  obtain rfl := eq_blank_of_isWhite hprint hbreak hwhite
  simp [isWritable] at h

theorem holdsIndicator_eq_false (hcolon : ':' ∉ text) (hsharp : '#' ∉ text) :
    holdsIndicator text = false := by
  fun_induction holdsIndicator text with
  | case1 c d r ih =>
      have hd : d ≠ ':' ∧ d ≠ '#' := by
        constructor
        · rintro rfl
          exact hcolon (by simp)
        · rintro rfl
          exact hsharp (by simp)
      have hrest := ih (fun h => hcolon (List.mem_cons_of_mem _ h))
        (fun h => hsharp (List.mem_cons_of_mem _ h))
      simp [hd, hrest]
  | case2 => rfl

theorem isWritable_of_isDigit (hne : text ≠ []) (h : ∀ c ∈ text, c.isDigit) : isWritable text := by
  obtain ⟨c, r, rfl⟩ := List.exists_cons_of_ne_nil hne
  have hother (d : Char) (hd : d.isDigit = false) : d ∉ c :: r := by
    intro hmem
    exact absurd (h d hmem) (by simp [hd])
  have hfirst (d : Char) (hd : d.isDigit = false) : c ≠ d := by
    rintro rfl
    exact hother c hd (List.mem_cons_self ..)
  have hline : ∀ d ∈ c :: r, isPrintable d ∧ isBreak d = false := by
    intro d hd
    have hbreak : isBreak d = false := by
      rw [← Bool.not_eq_true]
      intro hbreak
      simp only [isBreak, Bool.or_eq_true, decide_eq_true_eq] at hbreak
      rcases hbreak with (rfl | rfl) | rfl <;> exact absurd (h _ hd) (by decide)
    exact ⟨isPrintable_of_isDigit (h d hd), hbreak⟩
  have hlast : (c :: r).getLast? ≠ some ' ' :=
    fun hlast => hother ' ' (by decide) (List.mem_of_getLast? hlast)
  have hnone {l : List Char} (hl : l.all (!·.isDigit)) : l.contains c = false := by
    rw [← Bool.not_eq_true, List.contains_iff_mem]
    intro hmem
    simpa [h c (List.mem_cons_self ..)] using List.all_eq_true.1 hl c hmem
  have hstart : startsAsIndicator (c :: r) = false := by
    rw [startsAsIndicator, hnone (by decide), hnone (by decide)]
    rfl
  have hdash : "---".toList.isPrefixOf (c :: r) = false := by
    simp [List.isPrefixOf, (hfirst '-' (by decide)).symm]
  have hdot : "...".toList.isPrefixOf (c :: r) = false := by
    simp [List.isPrefixOf, (hfirst '.' (by decide)).symm]
  have hhold := holdsIndicator_eq_false (hother ':' (by decide)) (hother '#' (by decide))
  simp only [isWritable, hdash, hdot, hstart, hhold, Bool.not_false, Bool.and_true,
    Bool.and_eq_true, List.all_eq_true, Bool.not_eq_true', decide_eq_true_eq]
  exact ⟨⟨hline, by simp [hfirst ' ' (by decide)]⟩, hlast⟩

theorem read_key {r : List Char} (h : isWritable text) (hindent : indent ≤ p.column + 1)
    (hr : endsWord r) :
    read false indent [] p (text ++ ':' :: r) =
      .ok { text, brokeLine := false,
            cursor := ⟨{ p with column := p.column + text.length }, ':' :: r⟩ } := by
  obtain ⟨htext, hlast, -, hhold⟩ := isLine_of_isWritable h
  have hcolon (q : Position) : read false indent [] q (':' :: r) =
      .ok { text := [], brokeLine := false, cursor := ⟨q, ':' :: r⟩ } := by
    have hword : isWhite ':' = false := by decide
    have hends : endsBefore false indent [] q (':' :: r) = true := by simp [endsBefore, hr]
    rw [read, if_neg (by simp [hword]), if_pos hends]
    rfl
  rw [read_append htext hhold hlast (by simp) (by simp) (by simp) hindent (hcolon _)]
  simp [Scalar.prepend]

theorem read_blanks (j : Nat) (r : List Char) :
    read false indent gap p (List.replicate j ' ' ++ r) =
      read false indent (gap ++ List.replicate j ' ') { p with column := p.column + j } r := by
  induction j generalizing gap p with
  | zero => simp
  | succ j ih =>
      have hwhite : isWhite ' ' = true := by decide
      have hbreak : isBreak ' ' = false := by decide
      rw [List.replicate_succ, List.cons_append, read, if_pos hwhite,
        Position.next_of_not_isBreak hbreak, ih, List.append_assoc, Nat.add_right_comm]
      rfl

/-- Behind a line break, a scalar ends where the text resumes. -/
theorem read_resumes {k j n : Nat} {r : List Char} (hr : Resumes k j r) (hbreak : gap.any isBreak)
    (htab : '\t' ∉ gap) :
    read false (k + 1) gap ⟨n, j⟩ r =
      .ok { text := [], brokeLine := true, cursor := ⟨⟨n, j⟩, r⟩ } := by
  have hclose (rest : List Char) : read.close (k + 1) gap ⟨n, j⟩ rest =
      .ok { text := [], brokeLine := true, cursor := ⟨⟨n, j⟩, rest⟩ } := by
    rw [read.close, Gap.leadingTabs, Gap.leadingTabs_go_eq_nil htab, hbreak]
    rfl
  cases r with
  | nil => rw [read, hclose]
  | cons c r =>
      have hword := (hr.word c rfl).1
      have hgap : gap.isEmpty = false := by
        cases gap with
        | nil => exact absurd hbreak (by decide)
        | cons d gap => rfl
      have hends : endsBefore false (k + 1) gap ⟨n, j⟩ (c :: r) = true := by
        have hless : j < k + 1 := Nat.lt_succ_of_le hr.margin_le
        simp [endsBefore, hgap, hless]
      rw [read, if_neg (by simp [hword]), if_pos hends, hclose]

theorem read_line (h : isWritable text) {k j : Nat} {r : List Char} (hindent : k ≤ p.column)
    (hr : Resumes k j r) :
    read false (k + 1) [] p (text ++ '\n' :: (List.replicate j ' ' ++ r)) =
      .ok { text, brokeLine := true, cursor := ⟨⟨p.line + 1, j⟩, r⟩ } := by
  obtain ⟨htext, hlast, -, hhold⟩ := isLine_of_isWritable h
  have hline (q : Position) :
      read false (k + 1) [] q ('\n' :: (List.replicate j ' ' ++ r)) =
        .ok { text := [], brokeLine := true, cursor := ⟨⟨q.line + 1, j⟩, r⟩ } := by
    have hwhite : isWhite '\n' = true := by decide
    have hbreak : isBreak '\n' = true := by decide
    rw [read, if_pos hwhite, Position.next_of_isBreak hbreak, read_blanks, Nat.zero_add]
    exact read_resumes hr (by simp [hbreak]) (by simp)
  rw [read_append htext hhold hlast (by simp) (by simp) (by simp) (Nat.succ_le_succ hindent)
    (hline _)]
  simp [Scalar.prepend]

end Plain

end Emm.Yaml
