import Emm.Proofs.Yaml.Literal
import Emm.Proofs.Yaml.Quoted
import Emm.Yaml.Token.Lexer

/-!
The pieces of a written value are taken apart into tokens. Each piece leads the lexer from one line
to the next, with the tokens of the piece emitted and the block collections open that were open
before: the name of a field up to its colon, and behind it a scalar of each style.

Main statements: `Leads.key`, `lexes_plain`, `lexes_singleQuoted`, `lexes_doubleQuoted`,
`lexes_literal`.
-/

namespace Emm.Yaml

namespace Lexer

variable {s s' s₁ s₂ s₃ : Lexer} {p q : Position} {c : Char} {r u text : List Char}
  {ls ls' : Array Lexeme} {cols : List Nat} {a a' : Bool} {n k j l : Nat}

/-- The lexer gets from one state to the other, with no more lexemes than it passes over
characters. -/
def Leads (s s' : Lexer) : Prop :=
  ∃ d, d + s'.cursor.rest.length ≤ s.cursor.rest.length ∧ ∀ n, run (n + d) s = run n s'

theorem Leads.trans (h₁ : Leads s₁ s₂) (h₂ : Leads s₂ s₃) : Leads s₁ s₃ := by
  obtain ⟨d₁, hlen₁, hrun₁⟩ := h₁
  obtain ⟨d₂, hlen₂, hrun₂⟩ := h₂
  refine ⟨d₂ + d₁, by omega, fun n => ?_⟩
  rw [← Nat.add_assoc, hrun₁, hrun₂]

theorem Leads.of_run (hrun : ∀ n, run n s = run n s')
    (hlen : s'.cursor.rest.length ≤ s.cursor.rest.length) : Leads s s' :=
  ⟨0, by omega, hrun⟩

theorem run_succ (hpass : passSpace s.inFlow s.keyAllowed false s.cursor.position s.cursor.rest =
      (a, ⟨q, c :: r⟩))
    (hslots : ({ s with keyAllowed := a, cursor := ⟨q, c :: r⟩ } : Lexer).expireSlots = .ok s₁)
    (hrest : s₁.cursor.rest = c :: r)
    (hfetch : (s₁.closeBlocks s₁.cursor.column).fetch c r = .ok s₂) (n : Nat) :
    run (n + 1) s = run n s₂ := by
  have hclosed : (s₁.closeBlocks s₁.cursor.column).cursor.rest = c :: r := by
    rw [← hrest, closeBlocks]
    split
    · rfl
    · rfl
  rw [run]
  simp only [hpass, hslots, bind, Except.bind]
  rw [hclosed]
  simp only [hfetch]

/-- A lexer outside of flow collections, with no key pending. -/
def between (p : Position) (text : List Char) (ls : Array Lexeme) (cols : List Nat) (a : Bool) :
    Lexer :=
  { cursor := ⟨p, text⟩, lexemes := ls, columns := cols, keyAllowed := a }

/-- A lexer at the beginning of line `l`. -/
abbrev lineStart (l : Nat) (text : List Char) (ls : Array Lexeme) (cols : List Nat) : Lexer :=
  between ⟨l, 0⟩ text ls cols true

theorem closeBlocks_eq_self (h : ∀ k ∈ s.columns.head?, k ≤ n) : s.closeBlocks n = s := by
  have hnone : s.columns.takeWhile (n < ·) = [] := by
    cases hcols : s.columns with
    | nil => rfl
    | cons k cols => simp [h k (by rw [hcols]; rfl)]
  rw [closeBlocks]
  split
  · rfl
  · simp only [hnone]
    rfl

theorem closeBlocks_cons (h : n < k) :
    (between p text ls (k :: cols) a).closeBlocks n =
      (between p text (ls.push { token := .blockEnd }) cols a).closeBlocks n := by
  simp [closeBlocks, between, inFlow, h]

theorem finish_between : (between p text ls cols a).finish =
    .ok (ls.toList.flatMap Lexeme.tokens ++ List.replicate cols.length .blockEnd) := by
  have hends (cols : List Nat) (ls : Array Lexeme) :
      (cols.foldl (fun ls _ => ls.push { token := .blockEnd }) ls).toList.flatMap Lexeme.tokens =
        ls.toList.flatMap Lexeme.tokens ++ List.replicate cols.length .blockEnd := by
    induction cols generalizing ls with
    | nil => simp
    | cons k cols ih =>
        rw [List.foldl_cons, ih, Array.toList_push, List.flatMap_append]
        simp [Lexeme.tokens, List.replicate_succ]
  rw [← hends]
  rfl

def afterSpace (n : Nat) (s : Lexer) : Except Error (List Token) :=
  match s.cursor.rest with
  | [] => s.finish
  | c :: r => do run n (← s.fetch c r)

theorem run_between (hpass : passSpace false a false p text = (a', ⟨q, r⟩)) (n : Nat) :
    run (n + 1) (between p text ls cols a) =
      afterSpace n ((between q r ls cols a').closeBlocks q.column) := by
  rw [run]
  simp only [between, inFlow, List.isEmpty_nil, Bool.not_true, hpass]
  rfl

theorem run_fetch (hpass : passSpace false a false p text = (a', ⟨q, c :: r⟩))
    (hcols : ∀ k ∈ cols.head?, k ≤ q.column)
    (hfetch : (between q (c :: r) ls cols a').fetch c r = .ok s') (n : Nat) :
    run (n + 1) (between p text ls cols a) = run n s' := by
  rw [run_between hpass, closeBlocks_eq_self hcols]
  show (between q (c :: r) ls cols a').fetch c r >>= run n = _
  rw [hfetch]
  rfl

theorem run_end (hcols : ∀ k ∈ cols.head?, k ≤ 0) (n : Nat) :
    run n (lineStart l [] ls cols) =
      .ok (ls.toList.flatMap Lexeme.tokens ++ List.replicate cols.length .blockEnd) := by
  cases n with
  | zero => exact finish_between
  | succ n =>
      rw [run_between rfl, closeBlocks_eq_self hcols]
      exact finish_between

theorem Leads.finish (h : Leads s (lineStart l [] ls cols)) (hcols : ∀ k ∈ cols.head?, k ≤ 0) :
    run (s.cursor.rest.length + 1) s =
      .ok (ls.toList.flatMap Lexeme.tokens ++ List.replicate cols.length .blockEnd) := by
  obtain ⟨d, hlen, hrun⟩ := h
  have hfuel : s.cursor.rest.length + 1 = s.cursor.rest.length + 1 - d + d := by omega
  rw [hfuel, hrun, run_end hcols]

theorem run_congr (hpass : passSpace false a false p text = passSpace false a' false q u)
    (n : Nat) : run n (between p text ls cols a) = run n (between q u ls cols a') := by
  cases n with
  | zero => rfl
  | succ n => rw [run_between hpass, run_between rfl]

theorem passSpace_blanks (f : Bool) (n : Nat) :
    passSpace f a false p (List.replicate n ' ' ++ r) =
      passSpace f a false { p with column := p.column + n } r := by
  induction n generalizing p with
  | zero => rfl
  | succ n ih =>
      have hbreak : isBreak ' ' = false := by decide
      rw [List.replicate_succ, List.cons_append, passSpace, if_neg (by simp [hbreak]),
        if_neg (by decide), if_pos (by simp), ih, Position.next_of_not_isBreak hbreak,
        Nat.add_right_comm]
      rfl

theorem passSpace_break (f : Bool) :
    passSpace f a false p ('\n' :: r) = passSpace f (a || !f) false ⟨p.line + 1, 0⟩ r := by
  have hbreak : isBreak '\n' = true := by decide
  rw [passSpace, if_pos hbreak, Position.next_of_isBreak hbreak]

theorem passSpace_word (f : Bool) (h : ∀ c ∈ r.head?, isWhite c = false ∧ c ≠ '#') :
    passSpace f a false p r = (a, ⟨p, r⟩) := by
  cases r with
  | nil => rfl
  | cons c r =>
      obtain ⟨hword, hsharp⟩ := h c rfl
      simp only [isWhite, isBlank, Bool.or_eq_false_iff, decide_eq_false_iff_not] at hword
      obtain ⟨⟨hspace, htab⟩, hbreak⟩ := hword
      simp [passSpace, hbreak, hsharp, hspace, htab]

theorem passSpace_blank (f : Bool) (hc : isWhite c = false ∧ c ≠ '#') :
    passSpace f a false p (' ' :: c :: r) =
      (a, ⟨{ p with column := p.column + 1 }, c :: r⟩) := by
  have hword : ∀ d ∈ (c :: r).head?, isWhite d = false ∧ d ≠ '#' := by
    rintro d ⟨rfl⟩
    exact hc
  exact (passSpace_blanks f 1).trans (passSpace_word f hword)

theorem passSpace_margin (hr : Resumes k j r) :
    passSpace false a false ⟨l, 0⟩ (List.replicate j ' ' ++ r) = (a, ⟨⟨l, j⟩, r⟩) := by
  rw [passSpace_blanks, passSpace_word false hr.word, Nat.zero_add]

theorem run_closeBlocks {m : Nat} (hr : Resumes m j r) (hk : m < k) (n : Nat) :
    run n (lineStart l (List.replicate j ' ' ++ r) ls (k :: cols)) =
      run n (lineStart l (List.replicate j ' ' ++ r) (ls.push { token := .blockEnd }) cols) := by
  cases n with
  | zero => rfl
  | succ n =>
      rw [run_between (passSpace_margin hr), run_between (passSpace_margin hr),
        closeBlocks_cons (Nat.lt_of_le_of_lt hr.margin_le hk)]

/-- A name that may stand as a key without quotes. -/
structure IsKey (name : List Char) : Prop where
  writable : Plain.isWritable name
  letter : ∃ c r, name = c :: r ∧ c.isAlpha
  short : name.length ≤ 1024

theorem IsKey.of_name {name : List Char} (h : (Plain.isWritable name &&
    (name.head?.map Char.isAlpha).getD false && decide (name.length ≤ 1024)) = true) :
    IsKey name := by
  simp only [Bool.and_eq_true, decide_eq_true_eq] at h
  obtain ⟨⟨hwrite, hletter⟩, hshort⟩ := h
  cases name with
  | nil => exact absurd hletter (by decide)
  | cons c r => exact ⟨hwrite, ⟨c, r, rfl, hletter⟩, hshort⟩

/-- The columns of the open collections when a mapping in column `k` is open. -/
def opened (k : Nat) (cols : List Nat) : List Nat :=
  if cols.head? = some k then cols else k :: cols

/-- The token that opens the mapping if it is not open yet. -/
def opening (k : Nat) (cols : List Nat) : List Token :=
  if cols.head? = some k then [] else [.blockMapping]

theorem opened_eq_cons (k : Nat) (cols : List Nat) : ∃ cols', opened k cols = k :: cols' := by
  unfold opened
  split
  · rename_i hopen
    exact List.head?_eq_some_iff.1 hopen
  · exact ⟨cols, rfl⟩

theorem opened_opened (k : Nat) (cols : List Nat) : opened k (opened k cols) = opened k cols := by
  obtain ⟨cols', hopened⟩ := opened_eq_cons k cols
  rw [hopened]
  exact if_pos rfl

theorem opening_opened (k : Nat) (cols : List Nat) : opening k (opened k cols) = [] := by
  obtain ⟨cols', hopened⟩ := opened_eq_cons k cols
  rw [hopened]
  exact if_pos rfl

theorem modify_push (ls : Array Lexeme) (x : Lexeme) (f : Lexeme → Lexeme) :
    (ls.push x).modify ls.size f = ls.push (f x) := by
  apply Array.toList_inj.1
  have hsize : ls.size = ls.toList.length + 0 := by simp
  rw [Array.toList_modify, Array.toList_push, Array.toList_push, hsize, List.modify,
    List.modifyTailIdx_add]
  rfl

theorem fetch_plain (hword : isWhite c = false) (hstart : Plain.startsAsIndicator (c :: r) = false)
    (hmark : s.cursor.column = 0 → isDocumentMark (c :: r) = false) (hflow : s.inFlow = false) :
    s.fetch c r = s.fetchPlain := by
  simp only [Plain.startsAsIndicator, Bool.or_eq_false_iff] at hstart
  obtain ⟨hindicator, hends⟩ := hstart
  have hpercent : c ≠ '%' := by
    rintro rfl
    exact absurd hindicator (by decide)
  have hmark' : (decide (s.cursor.column = 0) && isDocumentMark (c :: r)) = false := by
    simpa using hmark
  have hplain : (if isWhite c || indicators.contains c then throw (Error.noToken c)
      else s.fetchPlain) = s.fetchPlain := by
    rw [hword, hindicator]
    rfl
  cases hmem : ['-', '?', ':'].contains c with
  | false =>
      rw [fetch, if_neg (by simp [hpercent]), if_neg (by simp [hmark']), hplain]
      -- the characters to which `fetch` gives a meaning are indicators or may begin a word
      all_goals
        rintro rfl
        first
          | exact absurd hindicator (by decide)
          | exact absurd hmem (by decide)
  | true =>
      have hr : endsWord r = false := by
        rw [hmem] at hends
        exact hends
      simp only [List.contains_cons, List.contains_nil, Bool.or_false, Bool.or_eq_true,
        beq_iff_eq] at hmem
      rcases hmem with rfl | rfl | rfl
      · rw [fetch, if_neg (by simp [hpercent]), if_neg (by simp [hmark']), hr]
        rfl
      · rw [fetch, if_neg (by simp [hpercent]), if_neg (by simp [hmark']), hr, hflow]
        rfl
      · rw [fetch, if_neg (by simp [hpercent]), if_neg (by simp [hmark']), hr, hflow]
        rfl

/-- A lexer behind a text that may turn out to be a key. -/
def behindKey (p : Position) (name r : List Char) (ls : Array Lexeme) (cols : List Nat) : Lexer :=
  { cursor := ⟨{ p with column := p.column + name.length }, ':' :: r⟩
    lexemes := ls.push { token := .scalar .plain name }
    columns := cols
    keyAllowed := false
    slot := some { index := ls.size, position := p, required := cols.head? = some p.column } }

theorem fetchPlain_key {name : List Char} (hname : Plain.isWritable name) (hr : endsWord r)
    (hcols : ∀ j ∈ cols.head?, j ≤ p.column) :
    (between p (name ++ ':' :: r) ls cols true).fetchPlain = .ok (behindKey p name r ls cols) := by
  have hleast : ((cols.head?.map (· + 1)).getD 0) ≤ p.column + 1 := by
    cases cols with
    | nil => exact Nat.zero_le _
    | cons j cols => exact Nat.succ_le_succ (hcols j rfl)
  have hread := Plain.read_key (p := p) hname hleast hr
  simp only [fetchPlain, saveSlot, dropSlot, between, inFlow, least, if_true, bind, Except.bind,
    pure, Except.pure, List.isEmpty_nil, Bool.not_true, hread]
  rfl

theorem expireSlots_behindKey {name : List Char} (h : name.length ≤ 1024) :
    (behindKey p name r ls cols).expireSlots = .ok (behindKey p name r ls cols) := by
  have hfresh : Slot.isStale (behindKey p name r ls cols).cursor.position
      ⟨ls.size, p, cols.head? = some p.column⟩ = false := by
    simp [Slot.isStale, behindKey, h]
  have hslot : expireSlot (behindKey p name r ls cols).cursor.position
      (behindKey p name r ls cols).slot = .ok (behindKey p name r ls cols).slot :=
    if_neg (by simp [hfresh])
  rw [expireSlots, hslot]
  rfl

theorem fetchValue_key (name r : List Char) (ls : Array Lexeme)
    (hcols : ∀ j ∈ cols.head?, j ≤ p.column) :
    ∃ ls', (behindKey p name r ls cols).fetchValue =
      .ok (between { p with column := p.column + name.length + 1 } r ls' (opened p.column cols)
        false) ∧
      ls'.toList.flatMap Lexeme.tokens = ls.toList.flatMap Lexeme.tokens ++
        (opening p.column cols ++ [.key, .scalar .plain name, .value]) := by
  have hbreak : isBreak ':' = false := by decide
  have hleast : (behindKey p name r ls cols).least ≤ p.column ↔ cols.head? ≠ some p.column := by
    cases cols with
    | nil => simp [least, behindKey]
    | cons j cols =>
        have hj : j ≤ p.column := hcols j rfl
        simp [least, behindKey]
        omega
  rcases eq_or_ne cols.head? (some p.column) with hopen | hopen
  · refine ⟨(ls.push ⟨.scalar .plain name, .key⟩).push { token := .value }, ?_, ?_⟩
    · rw [fetchValue, behindKey]
      simp only
      rw [← behindKey, openKey, if_neg (by simp [hleast, hopen])]
      simp [behindKey, modify_push, take, emit, Cursor.drop, between, opened, hopen,
        Position.next_of_not_isBreak hbreak]
    · simp [opening, hopen, Lexeme.tokens]
  · refine ⟨(ls.push ⟨.scalar .plain name, .mapping⟩).push { token := .value }, ?_, ?_⟩
    · have hflow : (behindKey p name r ls cols).inFlow = false := rfl
      rw [fetchValue, behindKey]
      simp only
      rw [← behindKey, openKey, if_pos (by simp [hleast, hopen, hflow])]
      simp [behindKey, modify_push, take, emit, Cursor.drop, between, opened, hopen,
        Position.next_of_not_isBreak hbreak]
    · simp [opening, hopen, Lexeme.tokens]

theorem fetch_colon (hr : endsWord r) : s.fetch ':' r = s.fetchValue := by
  have hmark : isDocumentMark (':' :: r) = false := rfl
  rw [fetch, if_neg (by simp), if_neg (by simp [hmark]), if_pos (by simp [hr])]

theorem IsKey.head {name : List Char} (h : IsKey name) (r : List Char) : ∃ c t, name = c :: t ∧
    isWhite c = false ∧ c ≠ '#' ∧ Plain.startsAsIndicator (c :: (t ++ r)) = false ∧
      isDocumentMark (c :: (t ++ r)) = false := by
  obtain ⟨c, t, rfl, hletter⟩ := h.letter
  obtain ⟨-, -, hstart, -⟩ := Plain.isLine_of_isWritable h.writable
  refine ⟨c, t, rfl, Plain.isWhite_head h.writable, ?_, Plain.startsAsIndicator_append hstart, ?_⟩
  · rintro rfl
    exact absurd hletter (by decide)
  · unfold isDocumentMark
    split
    · rename_i heq
      rw [(List.cons.inj heq).1] at hletter
      exact absurd hletter (by decide)
    · rename_i heq
      rw [(List.cons.inj heq).1] at hletter
      exact absurd hletter (by decide)
    · rfl

theorem Leads.key {name : List Char} (l : Nat) (ls : Array Lexeme) (hname : IsKey name)
    (hr : endsWord r) (hcols : ∀ j ∈ cols.head?, j ≤ k) :
    ∃ ls', Leads (lineStart l (List.replicate k ' ' ++ (name ++ ':' :: r)) ls cols)
        (between ⟨l, k + name.length + 1⟩ r ls' (opened k cols) false) ∧
      ls'.toList.flatMap Lexeme.tokens = ls.toList.flatMap Lexeme.tokens ++
        (opening k cols ++ [.key, .scalar .plain name, .value]) := by
  obtain ⟨ls', hvalue, htokens⟩ := fetchValue_key (p := ⟨l, k⟩) name r ls hcols
  obtain ⟨c, t, rfl, hword, hsharp, hstart, hmark⟩ := hname.head (':' :: r)
  have hresumes : Resumes k k (c :: t ++ ':' :: r) := by
    refine ⟨Nat.le_refl k, ?_⟩
    rintro d ⟨rfl⟩
    exact ⟨hword, hsharp⟩
  have hfetch : (between ⟨l, k⟩ (c :: t ++ ':' :: r) ls cols true).fetch c (t ++ ':' :: r) =
      .ok (behindKey ⟨l, k⟩ (c :: t) r ls cols) := by
    rw [fetch_plain hword hstart (fun _ => hmark) rfl]
    exact fetchPlain_key hname.writable hr hcols
  have hcolon : ∀ d ∈ (':' :: r).head?, isWhite d = false ∧ d ≠ '#' := by
    rintro d ⟨rfl⟩
    decide
  refine ⟨ls', ⟨2, ?_, fun n => ?_⟩, htokens⟩
  · simp [between]
    omega
  · have hkey : run (n + 2) (lineStart l (List.replicate k ' ' ++ (c :: t ++ ':' :: r)) ls cols) =
        run (n + 1) (behindKey ⟨l, k⟩ (c :: t) r ls cols) := by
      exact run_fetch (passSpace_margin hresumes) hcols hfetch (n + 1)
    have hcolon' : run (n + 1) (behindKey ⟨l, k⟩ (c :: t) r ls cols) =
        run n (between ⟨l, k + (c :: t).length + 1⟩ r ls' (opened k cols) false) := by
      apply run_succ (s := behindKey ⟨l, k⟩ (c :: t) r ls cols) (passSpace_word false hcolon)
        (expireSlots_behindKey hname.short) rfl
      rw [closeBlocks_eq_self, fetch_colon hr]
      · exact hvalue
      · exact fun j hj => Nat.le_trans (hcols j hj) (Nat.le_add_right ..)
    exact hkey.trans hcolon'

/-- Behind a name in a mapping in column `k`, the text is a value that has these tokens. -/
def Lexes (k : Nat) (text : List Char) (ts : List Token) : Prop :=
  ∀ ⦃p ls cols j r⦄, k < p.column → Resumes k j r →
    ∃ l ls', Leads (between p (text ++ (List.replicate j ' ' ++ r)) ls (k :: cols) false)
        (lineStart l (List.replicate j ' ' ++ r) ls' (k :: cols)) ∧
      ls'.toList.flatMap Lexeme.tokens = ls.toList.flatMap Lexeme.tokens ++ ts

/-- A scalar is a single lexeme, behind which the text resumes. -/
theorem Lexes.scalar {t : Token} (hc : isWhite c = false ∧ c ≠ '#')
    (hfetch : ∀ p ls cols j r, k < p.column → Resumes k j r → ∃ q u a l,
      (between p (c :: (text ++ (List.replicate j ' ' ++ r))) ls (k :: cols) false).fetch c
          (text ++ (List.replicate j ' ' ++ r)) =
        .ok (between q u (ls.push { token := t }) (k :: cols) a) ∧
      passSpace false a false q u =
        passSpace false true false ⟨l, 0⟩ (List.replicate j ' ' ++ r)) :
    Lexes k (' ' :: c :: text) [t] := by
  intro p ls cols j r hp hr
  obtain ⟨q, u, a, l, hfetch, hpass⟩ := hfetch { p with column := p.column + 1 } ls cols j r
    (Nat.lt_succ_of_lt hp) hr
  have hcols : ∀ m ∈ (k :: cols).head?, m ≤ p.column + 1 := by
    rintro m ⟨rfl⟩
    omega
  refine ⟨l, ls.push { token := t }, ⟨1, ?_, fun n => ?_⟩, by simp [Lexeme.tokens]⟩
  · simp [between]
    omega
  · exact (run_fetch (passSpace_blank false hc) hcols hfetch n).trans (run_congr hpass n)

theorem lexes_plain (h : Plain.isWritable text) (hne : text ≠ []) (k : Nat) :
    Lexes k (' ' :: (text ++ ['\n'])) [.scalar .plain text] := by
  obtain ⟨c, t, rfl⟩ := List.exists_cons_of_ne_nil hne
  obtain ⟨-, -, hstart, -⟩ := Plain.isLine_of_isWritable h
  have hword := Plain.isWhite_head h
  rw [List.cons_append]
  refine Lexes.scalar ⟨hword, Plain.ne_sharp hstart⟩ fun p ls cols j r hp hr => ?_
  refine ⟨⟨p.line + 1, j⟩, r, true, p.line + 1, ?_, ?_⟩
  · have hread := Plain.read_line h (Nat.le_of_lt hp) hr
    rw [List.append_assoc, List.singleton_append, fetch_plain hword
      (Plain.startsAsIndicator_append hstart)
      (fun hzero => absurd hzero (Nat.ne_of_gt (Nat.zero_lt_of_lt hp))) rfl]
    simp only [fetchPlain, saveSlot, between, inFlow, least, Bool.false_eq_true, if_false, bind,
      Except.bind, pure, Except.pure, List.isEmpty_nil, Bool.not_true, List.head?_cons,
      Option.map_some, Option.getD_some]
    rw [← List.cons_append, hread]
    rfl
  · rw [passSpace_margin hr, passSpace_word false hr.word]

theorem lexes_singleQuoted (h : SingleQuoted.isWritable text) (hline : '\n' ∉ text) (k : Nat) :
    Lexes k (' ' :: (SingleQuoted.write (k + indentation) text ++ ['\n']))
      [.scalar .singleQuoted text] := by
  rw [SingleQuoted.write, List.cons_append]
  refine Lexes.scalar ⟨by decide, by decide⟩ fun p ls cols j r hp hr => ?_
  obtain ⟨q, hread⟩ := SingleQuoted.read_write (Nat.succ_pos (k + 1)) h hline
    (Position.column_next_pos (p := p) (by decide : isBreak '\'' = false))
    (by simp : ('\n' :: (List.replicate j ' ' ++ r)).head? ≠ some '\'')
  refine ⟨q, '\n' :: (List.replicate j ' ' ++ r), false, q.line + 1, ?_, passSpace_break false⟩
  rw [List.append_assoc, List.singleton_append, fetch, if_neg (by simp),
    if_neg (by simp [isDocumentMark])]
  show SingleQuoted.read [] (p.next '\'')
    (SingleQuoted.write.go (k + 1).succ false text ++ '\n' :: (List.replicate j ' ' ++ r)) >>=
      _ = _
  rw [hread]
  rfl

theorem lexes_doubleQuoted (text : List Char) (k : Nat) :
    Lexes k (' ' :: (DoubleQuoted.write text ++ ['\n'])) [.scalar .doubleQuoted text] := by
  have hwrite : DoubleQuoted.write text = '"' :: (DoubleQuoted.write text).tail := rfl
  rw [hwrite, List.cons_append]
  refine Lexes.scalar ⟨by decide, by decide⟩ fun p ls cols j r hp hr => ?_
  obtain ⟨q, hread⟩ := DoubleQuoted.reads_write text ('\n' :: (List.replicate j ' ' ++ r))
    (p.next '"') (Position.column_next_pos (by decide))
  refine ⟨q, '\n' :: (List.replicate j ' ' ++ r), false, q.line + 1, ?_, passSpace_break false⟩
  rw [List.append_assoc, List.singleton_append, fetch, if_neg (by simp),
    if_neg (by simp [isDocumentMark])]
  show DoubleQuoted.read (.words {}) (p.next '"')
    ((DoubleQuoted.write text).tail ++ '\n' :: (List.replicate j ' ' ++ r)) >>= _ = _
  rw [hread]
  rfl

theorem lexes_literal (h : Block.isWritable text) (hne : text ≠ []) (k : Nat) :
    Lexes k (' ' :: Block.write (k + indentation) indentation text) [.scalar .literal text] := by
  have hwrite : Block.write (k + indentation) indentation text =
      '|' :: (Block.write (k + indentation) indentation text).tail := rfl
  rw [hwrite]
  refine Lexes.scalar ⟨by decide, by decide⟩ fun p ls cols j r hp hr => ?_
  obtain ⟨n, hread⟩ := Block.read_write hr h hne (p.next '|')
  refine ⟨⟨n, j⟩, r, true, n, ?_, ?_⟩
  · rw [fetch, if_neg (by simp), if_neg (by simp [isDocumentMark])]
    show Block.read false (some k) ⟨p.next '|',
      (Block.write (k + 2) indentation text).tail ++ (List.replicate j ' ' ++ r)⟩ >>= _ = _
    rw [hread]
    rfl
  · rw [passSpace_margin hr, passSpace_word false hr.word]

end Lexer

end Emm.Yaml
