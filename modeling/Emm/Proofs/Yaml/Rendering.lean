import Emm.Proofs.Yaml.Lexing
import Emm.Proofs.Yaml.Printable
import Emm.Yaml.Value

/-!
What is written of a value is scanned into the tokens of the value, as long as the names in it may
stand as keys: the fields of a mapping follow one another, and where they are nested, the lines that
are indented less close the block.

Main statement: `Token.scan_render`.
-/

namespace Emm.Yaml

open Lexer

def textStyle (s : List Char) : Style :=
  if s.contains '\n' then if Block.isWritable s then .literal else .doubleQuoted
  else if meansItself s && Plain.isWritable s then .plain
  else if SingleQuoted.isWritable s then .singleQuoted
  else .doubleQuoted

theorem ne_nil_of_meansItself {s : List Char} (h : meansItself s) : s ≠ [] := by
  rintro rfl
  exact absurd h (by decide)

theorem isNull_of_meansItself {s : List Char} (h : meansItself s) : isNull s = false := by
  simp only [meansItself, Bool.not_eq_true', Bool.or_eq_false_iff] at h
  exact h.1.1.1.1.2

theorem meansItself_of_textStyle {s : List Char} (h : textStyle s = .plain) : meansItself s := by
  unfold textStyle at h
  split at h
  · split at h
    · cases h
    · cases h
  · split at h
    · rename_i hplain
      exact (Bool.and_eq_true_iff.1 hplain).1
    · split at h
      · cases h
      · cases h

theorem lexes_text (s : List Char) (k : Nat) :
    Lexes k (' ' :: writeText (k + indentation) s) [.scalar (textStyle s) s] := by
  rw [writeText, textStyle]
  split
  · rename_i hline
    split
    · rename_i hblock
      refine lexes_literal hblock ?_ k
      rintro rfl
      exact absurd hline (by decide)
    · exact lexes_doubleQuoted s k
  · rename_i hline
    split
    · rename_i hplain
      obtain ⟨hmeans, hwrite⟩ := Bool.and_eq_true_iff.1 hplain
      exact lexes_plain hwrite (ne_nil_of_meansItself hmeans) k
    · split
      · rename_i hquoted
        exact lexes_singleQuoted hquoted (by simpa using hline) k
      · exact lexes_doubleQuoted s k

namespace Value

mutual

/-- The tokens that a value stands for. -/
def tokens : Value → List Token
  | null => [.scalar .plain "null".toList]
  | natural n => [.scalar .plain (Nat.toDigits 10 n)]
  | text s => [.scalar (textStyle s) s]
  | mapping [] => [.flowMapping, .flowMappingEnd]
  | mapping fields => .blockMapping :: (fieldTokens fields ++ [.blockEnd])

def fieldTokens : List (String × Value) → List Token
  | [] => []
  | (name, value) :: rest =>
      .key :: .scalar .plain name.toList :: .value :: (value.tokens ++ fieldTokens rest)

end

mutual

/-- The names in the value may stand as keys. -/
def HasKeys : Value → Prop
  | mapping fields => FieldsHaveKeys fields
  | _ => True

def FieldsHaveKeys : List (String × Value) → Prop
  | [] => True
  | (name, value) :: rest => IsKey name.toList ∧ value.HasKeys ∧ FieldsHaveKeys rest

end

def writeBehind (column : Nat) : Value → List Char
  | mapping (field :: fields) => '\n' :: writeFields (column + indentation) (field :: fields)
  | value => ' ' :: value.write column

theorem writeFields_cons (k : Nat) (name : String) (value : Value) (rest : List (String × Value)) :
    writeFields k ((name, value) :: rest) =
      List.replicate k ' ' ++
        (name.toList ++ ':' :: (value.writeBehind k ++ writeFields k rest)) := by
  cases value with
  | mapping fields =>
      cases fields with
      | nil => simp [writeFields, writeBehind]
      | cons field fields => simp [writeFields, writeBehind]
  | null => simp [writeFields, writeBehind]
  | natural n => simp [writeFields, writeBehind]
  | text s => simp [writeFields, writeBehind]

theorem endsWord_writeBehind (k : Nat) (value : Value) (r : List Char) :
    endsWord (value.writeBehind k ++ r) := by
  unfold writeBehind
  split
  · rfl
  · rfl

end Value

namespace Lexer

variable {text : List Char} {ts : List Token} {k : Nat}

/-- From the beginning of a line, the text is fields of a mapping in column `k` that have these
tokens. -/
def LexesFields (k : Nat) (text : List Char) (ts : List Token) : Prop :=
  ∀ (l : Nat) (ls : Array Lexeme) ⦃cols j r⦄, (∀ m ∈ cols.head?, m ≤ k) → Resumes k j r →
    ∃ l' ls', Leads (lineStart l (text ++ (List.replicate j ' ' ++ r)) ls cols)
        (lineStart l' (List.replicate j ' ' ++ r) ls' (opened k cols)) ∧
      ls'.toList.flatMap Lexeme.tokens =
        ls.toList.flatMap Lexeme.tokens ++ (opening k cols ++ ts)

theorem Lexes.field {name : List Char} (hname : IsKey name) (hvalue : Lexes k text ts)
    (htext : ∀ r, endsWord (text ++ r)) :
    LexesFields k (List.replicate k ' ' ++ (name ++ ':' :: text))
      (.key :: .scalar .plain name :: .value :: ts) := by
  intro l ls cols j r hcols hr
  obtain ⟨ls₁, hkey, htokens₁⟩ := Leads.key l ls hname
    (htext (List.replicate j ' ' ++ r)) hcols
  obtain ⟨cols', hopened⟩ := opened_eq_cons k cols
  have hcolumn : k < k + name.length + 1 := by omega
  rw [hopened] at hkey ⊢
  obtain ⟨l', ls', hlead, htokens⟩ := hvalue (p := ⟨l, k + name.length + 1⟩) hcolumn hr
  refine ⟨l', ls', ?_, ?_⟩
  · rw [List.append_assoc, List.append_assoc]
    exact hkey.trans hlead
  · rw [htokens, htokens₁]
    simp

theorem LexesFields.append {text' : List Char} {ts' : List Token} (h : LexesFields k text ts)
    (h' : LexesFields k text' ts')
    (hnext : ∀ tail, ∃ r, text' ++ tail = List.replicate k ' ' ++ r ∧ Resumes k k r) :
    LexesFields k (text ++ text') (ts ++ ts') := by
  intro l ls cols j r hcols hr
  obtain ⟨r', hr', hresumes⟩ := hnext (List.replicate j ' ' ++ r)
  obtain ⟨l₁, ls₁, hlead₁, htokens₁⟩ := h l ls hcols hresumes
  have hcols₁ : ∀ m ∈ (opened k cols).head?, m ≤ k := by
    obtain ⟨cols', hopened⟩ := opened_eq_cons k cols
    rw [hopened]
    rintro m ⟨rfl⟩
    exact Nat.le_refl _
  obtain ⟨l₂, ls₂, hlead₂, htokens₂⟩ := h' l₁ ls₁ hcols₁ hr
  rw [opened_opened] at hlead₂
  rw [opening_opened] at htokens₂
  refine ⟨l₂, ls₂, ?_, ?_⟩
  · rw [List.append_assoc]
    rw [← hr'] at hlead₁
    exact hlead₁.trans hlead₂
  · rw [htokens₂, htokens₁]
    simp

theorem LexesFields.mapping (h : LexesFields (k + indentation) text ts) :
    Lexes k ('\n' :: text) (.blockMapping :: (ts ++ [.blockEnd])) := by
  intro p ls cols j r hp hr
  have hdeeper : k < k + indentation := Nat.lt_add_of_pos_right (by decide)
  have hcols : ∀ m ∈ (k :: cols).head?, m ≤ k + indentation := by
    rintro m ⟨rfl⟩
    exact Nat.le_of_lt hdeeper
  have hopen : (k :: cols).head? ≠ some (k + indentation) := by
    intro heq
    have hsame : k = k + indentation := Option.some.inj heq
    omega
  obtain ⟨l, ls', hlead, htokens⟩ := h (p.line + 1) ls hcols
    (hr.mono (Nat.le_of_lt hdeeper))
  rw [opened, if_neg hopen] at hlead
  rw [opening, if_neg hopen] at htokens
  refine ⟨l, ls'.push { token := .blockEnd }, ?_, ?_⟩
  · have hline : Leads
        (between p ('\n' :: text ++ (List.replicate j ' ' ++ r)) ls (k :: cols) false)
        (lineStart (p.line + 1) (text ++ (List.replicate j ' ' ++ r)) ls (k :: cols)) :=
      .of_run (run_congr (passSpace_break false)) (Nat.le_succ _)
    exact (hline.trans hlead).trans (.of_run (run_closeBlocks hr hdeeper) (Nat.le_refl _))
  · simp [htokens, Lexeme.tokens]

theorem IsKey.resumes {name : List Char} (h : IsKey name) (k : Nat) (r : List Char) :
    Resumes k k (name ++ ':' :: r) := by
  obtain ⟨c, t, rfl, hword, hsharp, -, -⟩ := h.head (':' :: r)
  refine ⟨Nat.le_refl k, ?_⟩
  rintro d ⟨rfl⟩
  exact ⟨hword, hsharp⟩

/-- A lexer within the braces of an empty mapping. -/
def inBraces (p : Position) (r : List Char) (ls : Array Lexeme) (cols : List Nat) : Lexer :=
  { between p ('\x7d' :: r) (ls.push { token := .flowMapping }) cols true with outer := [none] }

theorem fetch_brace (p : Position) (r : List Char) (ls : Array Lexeme) (cols : List Nat) :
    (between p ('\x7b' :: '\x7d' :: r) ls cols false).fetch '\x7b' ('\x7d' :: r) =
    .ok (inBraces { p with column := p.column + 1 } r ls cols) := by
  have hbreak : isBreak '\x7b' = false := by decide
  rw [fetch, if_neg (by simp), if_neg (by simp [isDocumentMark])]
  show Except.ok (inBraces (p.next '\x7b') r ls cols) = _
  rw [Position.next_of_not_isBreak hbreak]

theorem run_inBraces (p : Position) (r : List Char) (ls : Array Lexeme) (cols : List Nat)
    (n : Nat) :
    run (n + 1) (inBraces p r ls cols) =
      run n (between { p with column := p.column + 1 } r
        ((ls.push { token := .flowMapping }).push { token := .flowMappingEnd }) cols false) := by
  have hbreak : isBreak '\x7d' = false := by decide
  have hword : ∀ d ∈ ('\x7d' :: r).head?, isWhite d = false ∧ d ≠ '#' := by
    rintro d ⟨rfl⟩
    decide
  apply run_succ (s := inBraces p r ls cols) (passSpace_word true hword) rfl rfl
  show (inBraces p r ls cols).fetch _ _ = _
  rw [fetch, if_neg (by simp), if_neg (by simp [isDocumentMark]),
    ← Position.next_of_not_isBreak hbreak]
  rfl

theorem lexes_empty (k : Nat) :
    Lexes k [' ', '\x7b', '\x7d', '\n'] [.flowMapping, .flowMappingEnd] := by
  intro p ls cols j r hp hr
  have hcols : ∀ m ∈ (k :: cols).head?, m ≤ p.column + 1 := by
    rintro m ⟨rfl⟩
    omega
  refine ⟨p.line + 1, (ls.push { token := .flowMapping }).push { token := .flowMappingEnd },
    ⟨2, ?_, fun n => ?_⟩, ?_⟩
  · simp [between]
    omega
  · have hopen := run_fetch (passSpace_blank (p := p) false (by decide)) hcols
      (fetch_brace _ ('\n' :: (List.replicate j ' ' ++ r)) ls _) (n + 1)
    have hclose := run_inBraces ⟨p.line, p.column + 1 + 1⟩ ('\n' :: (List.replicate j ' ' ++ r)) ls
      (k :: cols) n
    exact (hopen.trans hclose).trans (run_congr (passSpace_break false) n)
  · simp [Lexeme.tokens]

mutual

theorem lexes_value : ∀ (value : Value), value.HasKeys → ∀ k,
    Lexes k (value.writeBehind k) value.tokens
  | .null, _, k => by
      rw [Value.writeBehind, Value.write, Value.tokens]
      · have hnull : Plain.isWritable "null".toList := by decide
        exact lexes_plain hnull (by decide) k
      · simp
  | .natural n, _, k => by
      rw [Value.writeBehind, Value.write, Value.tokens]
      · exact lexes_plain
          (Plain.isWritable_of_isDigit Nat.toDigits_ne_nil isDigit_of_mem_toDigits)
          Nat.toDigits_ne_nil k
      · simp
  | .text s, _, k => by
      rw [Value.writeBehind, Value.write, Value.tokens]
      · exact lexes_text s k
      · simp
  | .mapping [], _, k => by
      rw [Value.writeBehind, Value.write, Value.tokens]
      · exact lexes_empty k
      · simp
  | .mapping (field :: fields), h, k => by
      rw [Value.HasKeys] at h
      rw [Value.writeBehind, Value.tokens]
      · exact (lexesFields (field :: fields) (by simp) h (k + indentation)).mapping
      · simp

theorem lexesFields : ∀ (fields : List (String × Value)), fields ≠ [] →
    Value.FieldsHaveKeys fields → ∀ k,
    LexesFields k (Value.writeFields k fields) (Value.fieldTokens fields)
  | [], hne, _ => absurd rfl hne
  | (name, value) :: rest, _, h => by
      rw [Value.FieldsHaveKeys] at h
      obtain ⟨hname, hkeys, hrest⟩ := h
      intro k
      have hvalue := lexes_value value hkeys k
      have hfield := hvalue.field hname (Value.endsWord_writeBehind k value)
      have htext : Value.writeFields k ((name, value) :: rest) =
          List.replicate k ' ' ++ (name.toList ++ ':' :: value.writeBehind k) ++
            Value.writeFields k rest := by
        simp [Value.writeFields_cons]
      rw [htext, Value.fieldTokens]
      cases rest with
      | nil =>
          rw [Value.writeFields, Value.fieldTokens, List.append_nil, List.append_nil]
          exact hfield
      | cons field rest =>
          have hnext (tail : List Char) : ∃ r,
              Value.writeFields k (field :: rest) ++ tail = List.replicate k ' ' ++ r ∧
                Resumes k k r := by
            obtain ⟨name, value⟩ := field
            rw [Value.FieldsHaveKeys] at hrest
            rw [Value.writeFields_cons, List.append_assoc, List.append_assoc, List.cons_append]
            exact ⟨_, rfl, hrest.1.resumes k _⟩
          exact hfield.append (lexesFields (field :: rest) (by simp) hrest k) hnext

end

end Lexer

theorem Token.scan_of_allPrintable {s : List Char} (h : AllPrintable s) :
    Token.scan s = Lexer.run (s.length + 1) (lineStart 0 s #[] []) := by
  have hfind : s.find? (fun c => !isAllowed c) = none := by
    rw [List.find?_eq_none]
    intro c hc
    simp [isAllowed_of_isPrintable (h c hc)]
  have hmark : s.head? ≠ some byteOrderMark := by
    intro hhead
    exact absurd (h _ (List.mem_of_mem_head? hhead)) (by decide)
  unfold Token.scan
  simp only [hfind, unifyBreaks_eq_self h, if_neg hmark]
  rfl

mutual

theorem Value.allPrintable_writeBehind : ∀ (value : Value), value.HasKeys → ∀ k,
    AllPrintable (value.writeBehind k)
  | .null, _, k => by
      rw [writeBehind, write]
      · have hall : (' ' :: "null\n".toList).all isPrintable = true := by decide
        exact List.all_eq_true.1 hall
      · simp
  | .natural n, _, k => by
      rw [writeBehind, write]
      · have hdigits : AllPrintable (Nat.toDigits 10 n) := .of_isDigit isDigit_of_mem_toDigits
        exact hdigits.line.cons (by decide)
      · simp
  | .text s, _, k => by
      rw [writeBehind, write]
      · exact (allPrintable_writeText (k + indentation) s).cons (by decide)
      · simp
  | .mapping [], _, k => by
      rw [writeBehind, write]
      · have hall : [' ', '\x7b', '\x7d', '\n'].all isPrintable = true := by decide
        exact List.all_eq_true.1 hall
      · simp
  | .mapping (field :: fields), h, k => by
      rw [HasKeys] at h
      rw [writeBehind]
      exact (allPrintable_writeFields (field :: fields) h (k + indentation)).cons (by decide)

theorem Value.allPrintable_writeFields : ∀ (fields : List (String × Value)),
    Value.FieldsHaveKeys fields → ∀ k, AllPrintable (writeFields k fields)
  | [], _, k => by
      rw [writeFields]
      exact .nil
  | (name, value) :: rest, h, k => by
      rw [FieldsHaveKeys] at h
      obtain ⟨hname, hkeys, hrest⟩ := h
      have hkey := (Plain.isLine_of_isWritable hname.writable).1.allPrintable
      have hvalue := allPrintable_writeBehind value hkeys k
      have hfields := allPrintable_writeFields rest hrest k
      rw [writeFields_cons]
      exact (AllPrintable.margin k).append
        (hkey.append ((hvalue.append hfields).cons (by decide)))

end

/-- The text that is written of a mapping is scanned into its tokens. -/
theorem Token.scan_render {fields : List (String × Value)} (hne : fields ≠ [])
    (hkeys : (Value.mapping fields).HasKeys) :
    Token.scan (Value.mapping fields).render.toList = .ok (Value.mapping fields).tokens := by
  rw [Value.HasKeys] at hkeys
  have hresumes : Resumes 0 0 [] := ⟨Nat.le_refl 0, by simp⟩
  have hwrite : (Value.mapping fields).write 0 = Value.writeFields 0 fields := by
    rw [Value.write]
    exact hne
  have hcols : ∀ m ∈ ([] : List Nat).head?, m ≤ 0 := by simp
  obtain ⟨l, ls, hlead, htokens⟩ := lexesFields fields hne hkeys 0 0 #[] hcols hresumes
  rw [List.replicate_zero, List.nil_append, List.append_nil] at hlead
  have hscan := hlead.finish (by simp [opened])
  rw [Value.render, String.toList_ofList, hwrite,
    Token.scan_of_allPrintable (Value.allPrintable_writeFields fields hkeys 0)]
  refine hscan.trans ?_
  rw [htokens, Value.tokens]
  · rfl
  · exact hne

end Emm.Yaml
