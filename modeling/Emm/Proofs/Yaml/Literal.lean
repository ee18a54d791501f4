import Emm.Proofs.Yaml.Plain
import Emm.Yaml.Block
import Emm.Yaml.Value

/-!
Literal scalars are read back. What is written are the lines of the text behind their margin, which
the reader takes apart into the same lines; and put together under the stated chomping these are the
text again.

Main statement: `read_write`.
-/

namespace Emm.Yaml.Block

variable {c d : Char} {text t r : List Char} {m : Bool} {ls : List Line} {l : Line} {k j : Nat}
  {p : Position}

/-- The lines that a text is written in. If its first line has begun before it, that line is among
them even when it is empty. -/
def split (atMargin : Bool) : List Char → List Line
  | [] => if atMargin then [] else [{ text := [], ending := some '\n' }]
  | c :: r =>
      if isBreak c then { text := [], ending := some c } :: split true r
      else extendFirst c (split false r)

/-- The lines as they stand one behind the other. -/
def flat (ls : List Line) : List Char := ls.flatMap fun l => l.text ++ l.ending.toList

@[simp]
theorem flat_cons : flat (l :: ls) = l.text ++ l.ending.toList ++ flat ls := List.flatMap_cons

theorem flat_extendFirst (hne : ls ≠ []) : flat (extendFirst c ls) = c :: flat ls := by
  obtain ⟨l, ls, rfl⟩ := List.exists_cons_of_ne_nil hne
  simp [extendFirst]

theorem extendFirst_ne_nil (hne : ls ≠ []) : extendFirst c ls ≠ [] := by
  obtain ⟨l, ls, rfl⟩ := List.exists_cons_of_ne_nil hne
  simp [extendFirst]

theorem split_false_ne_nil (text : List Char) : split false text ≠ [] := by
  induction text with
  | nil => simp [split]
  | cons c r ih =>
      rw [split]
      split
      · simp
      · exact extendFirst_ne_nil ih

theorem flat_split (hc : isBreak c) (t : List Char) (m : Bool) :
    flat (split m (t ++ [c])) = t ++ [c] := by
  induction t generalizing m with
  | nil => simp [split, hc, flat]
  | cons a t ih =>
      rw [List.cons_append, split]
      split
      · simp [ih]
      · rw [flat_extendFirst (split_false_ne_nil _), ih]

theorem split_word (hd : isBreak d = false) (hend : r = [] ∨ ∃ c, isBreak c ∧ r = [c])
    (t : List Char) (m : Bool) :
    ∃ ls l, split m (t ++ d :: r) = ls ++ [l] ∧ l.text ≠ [] ∧
      l.ending = some (r.head?.getD '\n') ∧ flat ls ++ l.text = t ++ [d] := by
  induction t generalizing m with
  | nil =>
      refine ⟨[], { text := [d], ending := some (r.head?.getD '\n') }, ?_, by simp, rfl, rfl⟩
      rcases hend with rfl | ⟨c, hc, rfl⟩
      · simp [split, hd, extendFirst]
      · simp [split, hd, hc, extendFirst]
  | cons a t ih =>
      rw [List.cons_append, split]
      split
      · obtain ⟨ls, l, hsplit, hne, hending, hflat⟩ := ih true
        refine ⟨{ text := [], ending := some a } :: ls, l, by rw [hsplit]; rfl, hne, hending, ?_⟩
        simp [hflat]
      · obtain ⟨ls, l, hsplit, hne, hending, hflat⟩ := ih false
        rw [hsplit]
        cases ls with
        | nil =>
            refine ⟨[], { l with text := a :: l.text }, rfl, by simp, hending, ?_⟩
            simpa [flat] using hflat
        | cons l' ls =>
            refine ⟨{ l' with text := a :: l'.text } :: ls, l, rfl, hne, hending, ?_⟩
            simpa using hflat

variable {before : Option Line} {breaks : List Char} {chomp : Chomp}

/-- The line breaks behind the last line with text. -/
def pending (before : Option Line) (breaks : List Char) : List Char :=
  (before.bind Line.ending).toList ++ breaks

theorem assemble_empty (hl : l.text = []) :
    assemble false chomp before breaks (l :: ls) =
      assemble false chomp before (breaks ++ l.ending.toList) ls := by
  cases before with
  | none => rw [assemble, if_pos hl]
  | some b => rw [assemble, if_pos hl]

theorem assemble_line (hl : l.text ≠ []) :
    assemble false chomp before breaks (l :: ls) =
      pending before breaks ++ l.text ++ assemble false chomp (some l) [] ls := by
  cases before with
  | none =>
      rw [assemble, if_neg hl]
      rfl
  | some b =>
      rw [assemble, if_neg hl]
      rfl

theorem assemble_keep (ls : List Line) (before : Option Line) (breaks : List Char) :
    assemble false .keep before breaks ls = pending before breaks ++ flat ls := by
  induction ls generalizing before breaks with
  | nil => simp [assemble, pending, flat]
  | cons l ls ih =>
      rcases eq_or_ne l.text [] with hl | hl
      · rw [assemble_empty hl, ih]
        simp [pending, hl]
      · rw [assemble_line hl, ih]
        simp [pending]

theorem assemble_concat (hl : l.text ≠ []) (ls : List Line) (before : Option Line)
    (breaks : List Char) : assemble false chomp before breaks (ls ++ [l]) =
      pending before breaks ++ flat ls ++ l.text ++ assemble false chomp (some l) [] [] := by
  induction ls generalizing before breaks with
  | nil => simp [assemble_line hl, flat]
  | cons l' ls ih =>
      rw [List.cons_append]
      rcases eq_or_ne l'.text [] with hl' | hl'
      · rw [assemble_empty hl', ih]
        simp [pending, hl']
      · rw [assemble_line hl', ih]
        simp [pending]

theorem chompOf_cases (hne : text ≠ []) :
    (chompOf text = .keep ∧ ∃ t c, isBreak c ∧ text = t ++ [c]) ∨
      (chompOf text = .strip ∧ ∃ t d, isBreak d = false ∧ text = t ++ [d]) ∨
      (chompOf text = .clip ∧ ∃ t d c, isBreak d = false ∧ isBreak c ∧ text = t ++ [d, c]) := by
  obtain ⟨back, rfl⟩ : ∃ back : List Char, text = back.reverse := ⟨text.reverse, by simp⟩
  rw [chompOf, List.reverse_reverse]
  match back, hne with
  | [c], _ =>
      rcases Bool.eq_false_or_eq_true (isBreak c) with hc | hc
      · exact .inl ⟨by simp [hc], [], c, hc, rfl⟩
      · exact .inr (.inl ⟨by simp [hc], [], c, hc, rfl⟩)
  | c :: d :: t, _ =>
      rcases Bool.eq_false_or_eq_true (isBreak c) with hc | hc
      · rcases Bool.eq_false_or_eq_true (isBreak d) with hd | hd
        · exact .inl ⟨by simp [hc, hd], (d :: t).reverse, c, hc, by simp⟩
        · exact .inr (.inr ⟨by simp [hc, hd], t.reverse, d, c, hd, hc, by simp⟩)
      · exact .inr (.inl ⟨by simp [hc], (d :: t).reverse, c, hc, by simp⟩)

theorem assemble_split (hne : text ≠ []) :
    assemble false (chompOf text) none [] (split true text) = text := by
  obtain ⟨hchomp, t, c, hc, rfl⟩ | ⟨hchomp, t, d, hd, rfl⟩ | ⟨hchomp, t, d, c, hd, hc, rfl⟩ :=
    chompOf_cases hne
  · rw [hchomp, assemble_keep, flat_split hc]
    rfl
  · obtain ⟨ls, l, hsplit, hl, -, hflat⟩ := split_word hd (.inl rfl) t true
    rw [hchomp, hsplit, assemble_concat hl]
    simp [pending, assemble, hflat]
  · obtain ⟨ls, l, hsplit, hl, hending, hflat⟩ := split_word hd (.inr ⟨c, hc, rfl⟩) t true
    rw [hchomp, hsplit, assemble_concat hl]
    simp [pending, assemble, hending, hflat]

theorem lines_margin {indent n : Nat} (h : p.column + n ≤ indent) (r : List Char) :
    lines indent false p (List.replicate n ' ' ++ r) =
      lines indent false { p with column := p.column + n } r := by
  induction n generalizing p with
  | zero => rfl
  | succ n ih =>
      have hbreak : isBreak ' ' = false := by decide
      have hcolumn : p.column ≠ indent := by omega
      have hrest : (p.next ' ').column + n ≤ indent := by
        rw [Position.next_of_not_isBreak hbreak]
        show p.column + 1 + n ≤ indent
        omega
      rw [List.replicate_succ, List.cons_append, lines, if_neg (by simp [hbreak]),
        if_neg (by simp [hcolumn]), if_pos rfl, ih hrest, Position.next_of_not_isBreak hbreak,
        Nat.add_right_comm]
      rfl

theorem lines_break {indent : Nat} {cursor : Cursor} (hc : isBreak c)
    (h : lines indent false (p.next c) r = .ok (ls, cursor)) (inText : Bool) :
    lines indent inText p (c :: r) = .ok ({ text := [], ending := some c } :: ls, cursor) := by
  rw [lines, if_pos hc, h]
  rfl

theorem lines_char {indent : Nat} {cursor : Cursor} {inText : Bool} (hc : isBreak c = false)
    (hp : inText ∨ p.column = indent) (h : lines indent true (p.next c) r = .ok (ls, cursor)) :
    lines indent inText p (c :: r) = .ok (extendFirst c ls, cursor) := by
  rw [lines, if_neg (by simp [hc]), if_pos (by simpa using hp), h]
  rfl

theorem lines_resumes {n : Nat} (hr : Resumes k j r) :
    lines (k + 2) false ⟨n, 0⟩ (List.replicate j ' ' ++ r) = .ok ([], ⟨⟨n, j⟩, r⟩) := by
  have hj := hr.margin_le
  have hmargin : 0 + j ≤ k + 2 := by omega
  rw [lines_margin hmargin, Nat.zero_add]
  cases r with
  | nil => rfl
  | cons c r =>
      have hword := (hr.word c rfl).1
      have hcolumn : j ≠ k + 2 := by omega
      simp only [isWhite, isBlank, Bool.or_eq_false_iff, decide_eq_false_iff_not] at hword
      obtain ⟨⟨hspace, htab⟩, hbreak⟩ := hword
      rw [lines, if_neg (by simp [hbreak]), if_neg (by simp [hcolumn]), if_neg hspace, if_neg htab]

/-- What is written of a text is taken apart into the lines of the text. -/
theorem lines_go (hr : Resumes k j r) (text : List Char) (m : Bool) (p : Position)
    (hp : m → p.column = 0) :
    ∃ n, lines (k + 2) (!m) p (write.go (k + 2) m text ++ (List.replicate j ' ' ++ r)) =
      .ok (split m text, ⟨⟨n, j⟩, r⟩) := by
  -- `m` says whether the margin of the present line is still to come
  induction text generalizing m p with
  | nil =>
      cases m with
      | true =>
          obtain ⟨line, column⟩ := p
          obtain rfl : column = 0 := hp rfl
          exact ⟨line, lines_resumes hr⟩
      | false =>
          have hbreak : isBreak '\n' = true := by decide
          refine ⟨p.line + 1, ?_⟩
          rw [write.go, if_neg (by simp), List.singleton_append, lines_break hbreak]
          · rfl
          · rw [Position.next_of_isBreak hbreak]
            exact lines_resumes hr
  | cons c text ih =>
      rw [write.go, split]
      rcases Bool.eq_false_or_eq_true (isBreak c) with hbreak | hbreak
      · obtain ⟨n, hn⟩ := ih true (p.next c) (by simp [Position.next_of_isBreak hbreak])
        refine ⟨n, ?_⟩
        rw [if_pos hbreak, if_pos hbreak, List.cons_append]
        exact lines_break hbreak hn _
      · simp only [hbreak, Bool.false_eq_true, if_false]
        cases m with
        | true =>
            obtain ⟨line, column⟩ := p
            obtain rfl : column = 0 := hp rfl
            have hmargin : 0 + (k + 2) ≤ k + 2 := by omega
            obtain ⟨n, hn⟩ := ih false (Position.next ⟨line, 0 + (k + 2)⟩ c) (by simp)
            refine ⟨n, ?_⟩
            rw [if_pos rfl, List.append_assoc, Bool.not_true, lines_margin hmargin]
            exact lines_char hbreak (.inr (Nat.zero_add _)) hn
        | false =>
            obtain ⟨n, hn⟩ := ih false (p.next c) (by simp)
            exact ⟨n, lines_char hbreak (.inl rfl) hn⟩

theorem header_append (states : Bool) (chomp : Chomp) (r : List Char) :
    header ((if states then ['2'] else []) ++ chomp.indicator ++ '\n' :: r) =
      ({ chomp, indentation := if states then some 2 else none },
        (if states then 1 else 0) + chomp.indicator.length) := by
  cases states <;> cases chomp <;> cases r <;> rfl

theorem endLine?_header (states : Bool) (chomp : Chomp) (p : Position) (r : List Char) :
    ∃ n, ((⟨p, (if states then ['2'] else []) ++ chomp.indicator ++ '\n' :: r⟩ : Cursor).drop
        ((if states then 1 else 0) + chomp.indicator.length)).endLine? = some ⟨⟨n, 0⟩, r⟩ := by
  refine ⟨p.line + 1, ?_⟩
  cases states <;> cases chomp <;> rfl

theorem widest_replicate (n column : Nat) : widest column (List.replicate n ' ') = column + n := by
  induction n generalizing column with
  | zero => rfl
  | succ n ih =>
      have hbreak : isBreak ' ' = false := by decide
      rw [List.replicate_succ, widest, if_neg (by simp [hbreak]), ih]
      omega

theorem findIndentation_margin (hc : isBreak c = false) (hblank : c ≠ ' ') (htab : c ≠ '\t')
    (r : List Char) :
    findIndentation (k + 1) (List.replicate (k + 2) ' ' ++ c :: r) = .ok (k + 2) := by
  have hmargin : (List.replicate (k + 2) ' ' ++ c :: r).takeWhile
      (fun c => decide (c = ' ') || isBreak c) = List.replicate (k + 2) ' ' := by
    rw [List.takeWhile_append_of_pos (by simp), List.takeWhile_cons_of_neg (by simp [hc, hblank]),
      List.append_nil]
  have hwidth : max (widest 0 (List.replicate (k + 2) ' ')) (max (k + 1) 1) = k + 2 := by
    rw [widest_replicate]
    omega
  unfold findIndentation
  simp only [hmargin, List.drop_left, hwidth]
  split
  · rename_i heq
    exact absurd (List.cons.inj heq).1 htab
  · rfl

theorem allPrintable_of_isWritable (h : isWritable text) : AllPrintable text := by
  fun_induction isWritable text with
  | case1 c d r ih =>
      simp only [Bool.and_eq_true] at h
      exact .cons h.1.1 (ih h.2)
  | case2 c => exact .cons (Bool.and_eq_true_iff.1 h).1 .nil
  | case3 => exact .nil

theorem findIndentation_go (hstates : statesIndentation text = false) (hwrite : isWritable text)
    (hne : text ≠ []) (r : List Char) :
    findIndentation (k + 1) (write.go (k + 2) true text ++ r) = .ok (k + 2) := by
  obtain ⟨c, text, rfl⟩ := List.exists_cons_of_ne_nil hne
  simp only [statesIndentation, Bool.or_eq_false_iff, decide_eq_false_iff_not] at hstates
  obtain ⟨hblank, hbreak⟩ := hstates
  have htab : c ≠ '\t' := by
    rintro rfl
    exact absurd (allPrintable_of_isWritable hwrite '\t' (List.mem_cons_self ..)) (by decide)
  rw [write.go, if_neg (by simp [hbreak]), if_pos rfl, List.append_assoc, List.cons_append]
  exact findIndentation_margin hbreak hblank htab _

theorem read_write (hr : Resumes k j r) (hwrite : isWritable text) (hne : text ≠ [])
    (p : Position) :
    ∃ n, read false (some k)
        ⟨p, (write (k + 2) indentation text).tail ++ (List.replicate j ' ' ++ r)⟩ =
      .ok (text, ⟨⟨n, j⟩, r⟩) := by
  have hdigits : Nat.toDigits 10 indentation = ['2'] := by decide
  have htail : (write (k + 2) indentation text).tail ++ (List.replicate j ' ' ++ r) =
      (if statesIndentation text then ['2'] else []) ++ (chompOf text).indicator ++
        '\n' :: (write.go (k + 2) true text ++ (List.replicate j ' ' ++ r)) := by
    simp [write, hdigits]
  obtain ⟨n, hn⟩ := endLine?_header (statesIndentation text) (chompOf text) p
    (write.go (k + 2) true text ++ (List.replicate j ' ' ++ r))
  obtain ⟨n', hlines⟩ := lines_go hr text true ⟨n, 0⟩ (fun _ => rfl)
  refine ⟨n', ?_⟩
  have hread : (lines (k + 2) false ⟨n, 0⟩
      (write.go (k + 2) true text ++ (List.replicate j ' ' ++ r)) >>= fun x =>
        .ok (assemble false (chompOf text) none [] x.1, x.2)) = .ok (text, ⟨⟨n', j⟩, r⟩) := by
    rw [Bool.not_true] at hlines
    rw [hlines]
    show Except.ok (assemble false (chompOf text) none [] (split true text), _) = _
    rw [assemble_split hne]
  rw [htail, read, header_append]
  simp only [hn]
  cases hstates : statesIndentation text with
  | true => exact hread
  | false =>
      simp only [Bool.false_eq_true, if_false, Option.map_some, Option.getD_some,
        findIndentation_go hstates hwrite hne]
      exact hread

end Emm.Yaml.Block
