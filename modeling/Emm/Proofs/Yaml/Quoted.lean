import Emm.Proofs.Yaml.Plain
import Emm.Yaml.DoubleQuoted
import Emm.Yaml.SingleQuoted

/-!
Scalars in quotes are read back. Between single quotes a line separator is followed by the margin of
the next line, which the reader takes off again; between double quotes every break is escaped, so
that the text stays on one line.

Main statements: `SingleQuoted.read_write`, `DoubleQuoted.reads_write`.
-/

namespace Emm.Yaml

variable {c x : Char} {p : Position} {text tail gap r : List Char}

/-- A line break that is not read as a blank. -/
def IsSeparator (c : Char) : Prop := isBreak c ∧ c ≠ '\n'

theorem Gap.text_of_separators {seps : List Char} (hne : seps ≠ [])
    (h : ∀ c ∈ seps, IsSeparator c) (n : Nat) :
    Gap.text { white := seps ++ List.replicate n ' ' } = seps := by
  have hseps : seps.filter isBreak = seps := List.filter_eq_self.2 fun c hc => (h c hc).1
  have hmargin : (List.replicate n ' ').filter isBreak = [] := by
    rw [List.filter_eq_nil_iff]
    intro c hc
    rw [List.eq_of_mem_replicate hc]
    decide
  have hbreaks : Gap.breaks { white := seps ++ List.replicate n ' ' } = seps := by
    rw [Gap.breaks, List.filter_append, hseps, hmargin, List.append_nil]
  obtain ⟨c, r, rfl⟩ := List.exists_cons_of_ne_nil hne
  have hc : c ≠ '\n' := (h c (List.mem_cons_self ..)).2
  simp only [Gap.text, hbreaks, Bool.false_eq_true, if_false]
  split
  · rename_i heq
    exact absurd heq (by simp)
  · rename_i heq
    exact absurd (List.cons.inj heq).1 hc
  · rename_i heq
    exact absurd (List.cons.inj heq).1 hc
  · rfl

namespace SingleQuoted

theorem read_white (h : isWhite c) : read gap p (c :: r) = read (gap ++ [c]) (p.next c) r := by
  rw [read, if_pos h]
  rintro _ rfl
  exact absurd h (by decide)

theorem read_word (h : isWhite c = false) (hquote : c ≠ '\'') (hp : 0 < p.column) :
    read gap p (c :: r) =
      (read [] (p.next c) r).map (Prod.map (Gap.text { white := gap } ++ [c] ++ ·) id) := by
  rw [read, if_neg (by simp [h]), if_neg (by simp [Nat.pos_iff_ne_zero.1 hp]), if_neg hquote]
  intro _ heq
  exact absurd heq hquote

theorem read_close (htail : tail.head? ≠ some '\'') (hp : 0 < p.column) :
    read gap p ('\'' :: tail) = .ok (Gap.text { white := gap }, ⟨p.next '\'', tail⟩) := by
  have hword : isWhite '\'' = false := by decide
  rw [read, if_neg (by simp [hword]), if_neg (by simp [Nat.pos_iff_ne_zero.1 hp]), if_pos rfl]
  rintro _ - rfl
  exact htail rfl

theorem read_blanks (n : Nat) :
    read gap p (List.replicate n ' ' ++ r) =
      read (gap ++ List.replicate n ' ') { p with column := p.column + n } r := by
  induction n generalizing gap p with
  | zero => simp
  | succ n ih =>
      have hbreak : isBreak ' ' = false := by decide
      rw [List.replicate_succ, List.cons_append, read_white (by decide),
        Position.next_of_not_isBreak hbreak, ih, List.append_assoc, Nat.add_right_comm]
      rfl

/-- The white space that is pending behind the character `x` while a text is read back: blanks
within a line, or separators with the margin still to come. -/
inductive Pending (x : Char) (p : Position) (gap : List Char) : Bool → Prop
  | word (hblanks : ∀ c ∈ gap, c = ' ') (hlast : gap ≠ [] → x = ' ') (hx : isBreak x = false)
      (hp : 0 < p.column) : Pending x p gap false
  | line (hne : gap ≠ []) (hseps : ∀ c ∈ gap, IsSeparator c) (hx : isBreak x) :
      Pending x p gap true

theorem Pending.behind_word (hbreak : isBreak c = false) :
    Pending c (p.next c) [] false := by
  exact .word (by simp) (by simp) hbreak (Position.column_next_pos hbreak)

theorem Pending.read_margin {broke : Bool} {indent : Nat} (h : Pending x p gap broke)
    (hindent : 0 < indent) :
    ∃ (gap' : List Char) (q : Position), 0 < q.column ∧ Gap.text { white := gap' } = gap ∧
      ∀ r, read gap p (write.margin indent broke ++ r) = read gap' q r := by
  cases h with
  | word hblanks hlast hx hp =>
      exact ⟨gap, p, hp, Gap.text_of_blanks hblanks, fun r => rfl⟩
  | line hne hseps hx =>
      refine ⟨gap ++ List.replicate indent ' ', { p with column := p.column + indent },
        Nat.add_pos_right _ hindent, Gap.text_of_separators hne hseps indent, fun r => ?_⟩
      exact read_blanks indent

/-- A separator is kept, since no blank can be pending before it. -/
theorem Pending.push_separator {broke : Bool} (h : Pending x p gap broke) (hc : IsSeparator c)
    (hx : x ≠ ' ') : Pending c (p.next c) (gap ++ [c]) true := by
  refine .line (by simp) (fun d hd => ?_) hc.1
  rcases List.mem_append.1 hd with hd | hd
  · cases h with
    | word _ hlast _ _ => exact absurd (hlast (List.ne_nil_of_mem hd)) hx
    | line _ hseps _ => exact hseps d hd
  · rw [List.mem_singleton.1 hd]
    exact hc

theorem Pending.push_blank (h : Pending x p gap false) :
    Pending ' ' (p.next ' ') (gap ++ [' ']) false := by
  have hbreak : isBreak ' ' = false := by decide
  cases h with
  | word hblanks _ _ hp =>
      refine .word (Gap.blanks_push hblanks) (fun _ => rfl) hbreak ?_
      exact Position.column_next_pos hbreak

theorem Pending.broke_eq {broke : Bool} (h : Pending x p gap broke) : broke = isBreak x := by
  cases h with
  | word _ _ hx _ => exact hx.symm
  | line _ _ hx => exact hx.symm

theorem isWritable_cons_cons : isWritable (x :: c :: r) ↔
    isPrintable x ∧ (isBreak x = false ∨ c ≠ ' ') ∧ (x ≠ ' ' ∨ isBreak c = false) ∧
      isWritable (c :: r) := by
  simp [isWritable, and_assoc]

theorem isPrintable_head (h : isWritable (c :: r)) : isPrintable c := by
  cases r with
  | nil => exact h
  | cons d r => exact (isWritable_cons_cons.1 h).1

theorem read_go {broke : Bool} {indent : Nat} (hpending : Pending x p gap broke)
    (hindent : 0 < indent) (hwrite : isWritable (x :: text)) (hline : '\n' ∉ text)
    (htail : tail.head? ≠ some '\'') :
    ∃ q, read gap p (write.go indent broke text ++ tail) = .ok (gap ++ text, ⟨q, tail⟩) := by
  induction text generalizing x p gap broke with
  | nil =>
      obtain ⟨gap', q, hq, hgap, hmargin⟩ := hpending.read_margin hindent
      refine ⟨q.next '\'', ?_⟩
      rw [write.go, List.append_assoc, List.singleton_append, hmargin, read_close htail hq, hgap,
        List.append_nil]
  | cons c r ih =>
      obtain ⟨-, hblank, hbreaks, hrest⟩ := isWritable_cons_cons.1 hwrite
      have hline' : '\n' ∉ r := fun hmem => hline (List.mem_cons_of_mem _ hmem)
      rw [write.go]
      rcases Bool.eq_false_or_eq_true (isBreak c) with hbreak | hbreak
      · have hsep : IsSeparator c := ⟨hbreak, fun heq => hline (heq ▸ List.mem_cons_self ..)⟩
        have hx : x ≠ ' ' := hbreaks.resolve_right (by simp [hbreak])
        have hwhite : isWhite c := by simp [isWhite, hbreak]
        obtain ⟨q, hq⟩ := ih (hpending.push_separator hsep hx) hrest hline'
        refine ⟨q, ?_⟩
        rw [if_pos hbreak, if_neg (by simp [hsep.2]), List.cons_append, read_white hwhite, hq]
        simp
      · rw [if_neg (by simp [hbreak])]
        rcases eq_or_ne c '\'' with rfl | hquote
        · obtain ⟨gap', q, hq, hgap, hmargin⟩ := hpending.read_margin hindent
          obtain ⟨q', hread⟩ := ih (.behind_word (p := q.next '\'') hbreak) hrest hline'
          refine ⟨q', ?_⟩
          rw [if_pos rfl, List.append_assoc, hmargin, List.cons_append, List.cons_append, read,
            hread, hgap]
          simp [Except.map]
        rw [if_neg hquote]
        rcases Bool.eq_false_or_eq_true (isWhite c) with hwhite | hword
        · obtain rfl := eq_blank_of_isWhite (isPrintable_head hrest) hbreak hwhite
          have hx : isBreak x = false := hblank.resolve_right (by simp)
          obtain rfl : broke = false := hpending.broke_eq.trans hx
          obtain ⟨q, hread⟩ := ih hpending.push_blank hrest hline'
          refine ⟨q, ?_⟩
          rw [write.margin, if_neg (by simp), List.nil_append, List.cons_append, read_white hwhite,
            hread]
          simp
        · obtain ⟨gap', q, hq, hgap, hmargin⟩ := hpending.read_margin hindent
          obtain ⟨q', hread⟩ := ih (.behind_word (p := q) hbreak) hrest hline'
          refine ⟨q', ?_⟩
          rw [List.append_assoc, hmargin, List.cons_append, read_word hword hquote hq, hread, hgap]
          simp [Except.map]

theorem read_write {indent : Nat} (hindent : 0 < indent) (hwrite : isWritable text)
    (hline : '\n' ∉ text) (hp : 0 < p.column) (htail : tail.head? ≠ some '\'') :
    ∃ q, read [] p (write.go indent false text ++ tail) = .ok (text, ⟨q, tail⟩) := by
  have hbreak : isBreak 'x' = false := by decide
  have hpending : Pending 'x' p [] false := .word (by simp) (by simp) hbreak hp
  have hwrite' : isWritable ('x' :: text) := by
    cases text with
    | nil => decide
    | cons c r =>
        exact isWritable_cons_cons.2 ⟨by decide, .inl hbreak, .inl (by decide), hwrite⟩
  exact read_go hpending hindent hwrite' hline htail

end SingleQuoted

namespace DoubleQuoted

variable {t : List Char} {phase : Phase} {g : Gap}

/-- In this phase and anywhere but at the beginning of a line, the text `r` is taken up to `tail`
and stands for `t`. -/
def Reads (phase : Phase) (r t tail : List Char) : Prop :=
  ∀ p : Position, 0 < p.column → ∃ q, read phase p r = .ok (t, ⟨q, tail⟩)

theorem Reads.blank (h : Reads (.words (g.push ' ')) r t tail) :
    Reads (.words g) (' ' :: r) t tail := by
  intro p hp
  obtain ⟨q, hq⟩ := h (p.next ' ') (Position.column_next_pos (by decide))
  refine ⟨q, ?_⟩
  rw [read, if_pos (by decide), hq]

theorem Reads.word (hword : isWhite c = false) (hquote : c ≠ '"') (hescape : c ≠ '\\')
    (h : Reads (.words {}) r t tail) : Reads (.words g) (c :: r) (g.text ++ c :: t) tail := by
  intro p hp
  have hbreak : isBreak c = false := (Bool.or_eq_false_iff.1 hword).2
  obtain ⟨q, hq⟩ := h (p.next c) (Position.column_next_pos hbreak)
  refine ⟨q, ?_⟩
  rw [read, if_neg (by simp [hword]), if_neg (by simp [Nat.pos_iff_ne_zero.1 hp]), if_neg hquote,
    if_neg hescape, hq]
  simp [Except.map]

theorem Reads.close : Reads (.words g) ('"' :: tail) g.text tail := by
  intro p hp
  have hword : isWhite '"' = false := by decide
  refine ⟨p.next '"', ?_⟩
  rw [read, if_neg (by simp [hword]), if_neg (by simp [Nat.pos_iff_ne_zero.1 hp]), if_pos rfl]

theorem Reads.escape (h : Reads .escape r t tail) :
    Reads (.words g) ('\\' :: r) (g.text ++ t) tail := by
  intro p hp
  have hword : isWhite '\\' = false := by decide
  obtain ⟨q, hq⟩ := h (p.next '\\') (Position.column_next_pos (by decide))
  refine ⟨q, ?_⟩
  rw [read, if_neg (by simp [hword]), if_neg (by simp [Nat.pos_iff_ne_zero.1 hp]),
    if_neg (by decide), if_pos rfl, hq]
  rfl

theorem letters_apart : shortEscapes.all (fun e =>
    !isBreak e.1 && codeLengths.lookup e.1 = none && shortEscapes.lookup e.1 = some e.2) =
      true := by
  decide

theorem Reads.letter {l : Char} (hl : (l, c) ∈ shortEscapes) (h : Reads (.words {}) r t tail) :
    Reads .escape (l :: r) (c :: t) tail := by
  intro p hp
  have hfacts := List.all_eq_true.1 letters_apart _ hl
  simp only [Bool.and_eq_true, Bool.not_eq_true', decide_eq_true_eq] at hfacts
  obtain ⟨⟨hbreak, hcode⟩, hletter⟩ := hfacts
  obtain ⟨q, hq⟩ := h (p.next l) (Position.column_next_pos hbreak)
  refine ⟨q, ?_⟩
  rw [read, if_neg (by simp [hbreak]), hcode, hletter]
  simp only [hq]
  rfl

theorem isBreak_of_hexDigit? {n : Nat} (h : hexDigit? c = some n) : isBreak c = false := by
  rw [← Bool.not_eq_true]
  intro hbreak
  have hnone : hexDigit? c = none := by
    simp only [isBreak, Bool.or_eq_true, decide_eq_true_eq] at hbreak
    rcases hbreak with (rfl | rfl) | rfl <;> decide
  simp [hnone] at h

theorem appendDigit_eq_some {value n : Nat} (h : appendDigit 16 value c = some n) :
    ∃ d, hexDigit? c = some d ∧ n = value * 16 + d := by
  simp only [appendDigit, Option.map_eq_some_iff, Option.filter_eq_some_iff] at h
  obtain ⟨d, ⟨hd, -⟩, rfl⟩ := h
  exact ⟨d, hd, rfl⟩

theorem Reads.code {ds : List Char} {value n : Nat} (hne : ds ≠ [])
    (hvalue : ds.foldlM (appendDigit 16) value = some n) (hvalid : n.isValidChar)
    (h : Reads (.words {}) r t tail) :
    Reads (.code ds.length value) (ds ++ r) (Char.ofNat n :: t) tail := by
  induction ds generalizing value with
  | nil => exact absurd rfl hne
  | cons c ds ih =>
      intro p hp
      rw [List.foldlM_cons] at hvalue
      obtain ⟨value', hstep, hrest⟩ := Option.bind_eq_some_iff.1 hvalue
      obtain ⟨d, hd, rfl⟩ := appendDigit_eq_some hstep
      have hnext := Position.column_next_pos (p := p) (isBreak_of_hexDigit? hd)
      rw [List.cons_append, read, hd]
      rcases eq_or_ne ds [] with rfl | hmore
      · obtain rfl : value * 16 + d = n := Option.some.inj hrest
        obtain ⟨q, hq⟩ := h (p.next c) hnext
        refine ⟨q, ?_⟩
        simp [hvalid, hq, Except.map]
      · obtain ⟨q, hq⟩ := ih hmore hrest (p.next c) hnext
        refine ⟨q, ?_⟩
        have hlength : ¬(c :: ds).length ≤ 1 := by
          simpa using hmore
        simp only [hlength, if_false]
        exact hq

theorem length_codeDigits {width n : Nat} (hwidth : 0 < width) (h : n < Nat.pow 16 width) :
    (codeDigits width n).length = width := by
  have hdigits := (Nat.length_toDigits_le_iff (by decide) hwidth).2 h
  simp only [codeDigits, List.length_append, List.length_replicate, List.length_map]
  omega

theorem foldlM_codeDigits (width n : Nat) :
    (codeDigits width n).foldlM (appendDigit 16) 0 = some n := by
  have hzeros (k : Nat) : (List.replicate k '0').foldlM (appendDigit 16) 0 = some 0 := by
    induction k with
    | zero => rfl
    | succ k ih =>
        have hzero : appendDigit 16 0 '0' = some 0 := by decide
        rw [List.replicate_succ, List.foldlM_cons, hzero]
        exact ih
  rw [codeDigits, List.foldlM_append, hzeros]
  exact foldlM_appendDigit (by decide) Char.toUpper (fun d hd => hexDigit?_toUpper hd) n

theorem Reads.number {l : Char} {width : Nat} (hl : isBreak l = false)
    (hcode : codeLengths.lookup l = some width) (hwidth : 0 < width)
    (hc : c.toNat < Nat.pow 16 width) (h : Reads (.words {}) r t tail) :
    Reads .escape (l :: (codeDigits width c.toNat ++ r)) (c :: t) tail := by
  intro p hp
  have hlength := length_codeDigits hwidth hc
  have hne : codeDigits width c.toNat ≠ [] := List.ne_nil_of_length_pos (hlength.symm ▸ hwidth)
  have hdigits := h.code hne (foldlM_codeDigits width c.toNat) c.valid
  rw [Char.ofNat_toNat, hlength] at hdigits
  obtain ⟨q, hq⟩ := hdigits (p.next l) (Position.column_next_pos hl)
  refine ⟨q, ?_⟩
  rw [read, if_neg (by simp [hl]), hcode]
  exact hq

theorem toNat_lt (c : Char) : c.toNat < Nat.pow 16 8 := by
  have hpow : Nat.pow 16 8 = 0x100000000 := rfl
  have hvalid : c.toNat < 0xd800 ∨ 0xdfff < c.toNat ∧ c.toNat < 0x110000 := c.valid
  omega

theorem Reads.escaped (c : Char) (h : Reads (.words {}) r t tail) :
    Reads (.words g) (escaped c ++ r) (g.text ++ c :: t) tail := by
  unfold DoubleQuoted.escaped
  split
  · rename_i l d hfind
    obtain rfl : d = c := by simpa using List.find?_some hfind
    exact (h.letter (List.mem_of_find?_eq_some hfind)).escape
  · simp only
    split
    · rename_i hsmall
      have hcode : c.toNat < Nat.pow 16 2 := Nat.lt_of_le_of_lt hsmall (by decide)
      exact (h.number (l := 'x') (by decide) rfl (by decide) hcode).escape
    · split
      · rename_i hmedium
        have hcode : c.toNat < Nat.pow 16 4 := Nat.lt_of_le_of_lt hmedium (by decide)
        exact (h.number (l := 'u') (by decide) rfl (by decide) hcode).escape
      · exact (h.number (l := 'U') (by decide) rfl (by decide) (toNat_lt c)).escape

theorem reads_body (text tail : List Char) {w : List Char} (hblanks : ∀ c ∈ w, c = ' ') :
    Reads (.words { white := w })
      ((text.flatMap fun c => if needsEscape c then escaped c else [c]) ++ '"' :: tail)
      (w ++ text) tail := by
  have hw := Gap.text_of_blanks hblanks
  induction text generalizing w with
  | nil =>
      have hclose : Reads (.words { white := w }) ('"' :: tail) (Gap.text { white := w }) tail :=
        Reads.close
      rw [hw] at hclose
      simpa using hclose
  | cons c text ih =>
      have hnext := ih (w := []) (by simp) rfl
      rw [List.flatMap_cons, List.append_assoc]
      rcases Bool.eq_false_or_eq_true (needsEscape c) with hescape | hplain
      · have hread := hnext.escaped (g := { white := w }) c
        rw [hw] at hread
        rw [if_pos hescape]
        exact hread
      · rw [if_neg (by simp [hplain])]
        simp only [needsEscape, Bool.or_eq_false_iff, Bool.not_eq_false', decide_eq_false_iff_not]
          at hplain
        obtain ⟨⟨⟨hprint, hbreak⟩, hquote⟩, hslash⟩ := hplain
        rcases Bool.eq_false_or_eq_true (isWhite c) with hwhite | hword
        · obtain rfl := eq_blank_of_isWhite hprint hbreak hwhite
          have hblanks' := Gap.blanks_push hblanks
          have hread := ih hblanks' (Gap.text_of_blanks hblanks')
          rw [List.append_assoc] at hread
          exact Reads.blank hread
        · have hread := hnext.word (g := { white := w }) hword hquote hslash
          rw [hw] at hread
          exact hread

theorem reads_write (text tail : List Char) :
    Reads (.words {}) ((write text).tail ++ tail) text tail := by
  have hbody := reads_body text tail (w := []) (by simp)
  simpa [write] using hbody

end DoubleQuoted

end Emm.Yaml
