import Emm.Proofs.Yaml.Rendering
import Emm.Yaml.Document

/-!
The tokens of a value are read as its tree of nodes, so that what is written of a value is a
document that holds the value.

Main statements: `load?_render`, `Document.fields_node`, `Document.text?_node`.
-/

namespace Emm.Yaml

namespace Value

mutual

def node : Value → Node
  | null => .scalar {} .plain "null".toList
  | natural n => .scalar {} .plain (Nat.toDigits 10 n)
  | text s => .scalar {} (textStyle s) s
  | mapping fields => .mapping {} (fieldNodes fields)

def fieldNodes : List (String × Value) → List (Node × Node)
  | [] => []
  | (name, value) :: rest =>
      (.scalar {} .plain name.toList, value.node) :: fieldNodes rest

end

end Value

namespace Reading

variable {n : Nat} {place : Place} {s : Reader} {rest : List Token} {text : List Char}
  {style : Style} {t : Token}

theorem run_bind {α β : Type} {m : Reading α} {f : α → Reading β} {a : α} {s s' : Reader}
    (h : m.run s = .ok (a, s')) : (m >>= f).run s = (f a).run s' := by
  rw [StateT.run_bind, h]
  rfl

theorem node_scalar :
    (node (n + 1) place).run { s with tokens := .scalar style text :: rest } =
      .ok (.scalar {} style text, { s with tokens := rest }) := by
  cases place <;> rfl

theorem node_blockMapping {entries : List (Node × Node)} {s' : Reader} (hplace : place ≠ .flow)
    (h : (blockEntries n).run { s with tokens := rest } = .ok (entries, s')) :
    (node (n + 1) place).run { s with tokens := .blockMapping :: rest } =
      .ok (.mapping {} entries, s') := by
  have hread : (do
      return .mapping {} (← blockEntries n) : Reading Node).run { s with tokens := rest } =
        .ok (.mapping {} entries, s') := by
    rw [run_bind h]
    rfl
  cases place with
  | block => exact hread
  | blockPart => exact hread
  | flow => exact absurd rfl hplace

theorem node_empty (n : Nat) :
    (node (n + 2) place).run { s with tokens := .flowMapping :: .flowMappingEnd :: rest } =
      .ok (.mapping {} [], { s with tokens := rest }) := by
  cases place <;> rfl

theorem orEmpty_cons {ends : List Token} (ht : ends.contains t = false) (read : Reading Node)
    (s : Reader) (rest : List Token) :
    (orEmpty ends read).run { s with tokens := t :: rest } =
      read.run { s with tokens := t :: rest } := by
  show (if ends.contains t then (return .empty : Reading Node) else read).run _ = _
  rw [ht]
  rfl

theorem blockEntries_end (n : Nat) :
    (blockEntries (n + 1)).run { s with tokens := .blockEnd :: rest } =
      .ok ([], { s with tokens := rest }) :=
  rfl

theorem blockEntries_key {key value : Node} {entries : List (Node × Node)} {rest' : List Token}
    {s₁ s₂ : Reader} {t' : Token}
    (ht : [Token.key, .value, .blockEnd].contains t = false)
    (hkey : (node n .blockPart).run { s with tokens := t :: rest } =
      .ok (key, { s with tokens := .value :: t' :: rest' }))
    (ht' : [Token.key, .value, .blockEnd].contains t' = false)
    (hvalue : (node n .blockPart).run { s with tokens := t' :: rest' } = .ok (value, s₁))
    (hrest : (blockEntries n).run s₁ = .ok (entries, s₂)) :
    (blockEntries (n + 1)).run { s with tokens := .key :: t :: rest } =
      .ok ((key, value) :: entries, s₂) := by
  have hkey' := (orEmpty_cons ht (node n .blockPart) s rest).trans hkey
  have hvalue' := (orEmpty_cons ht' (node n .blockPart) s rest').trans hvalue
  have hskip : (skipIf .key).run { s with tokens := .key :: t :: rest } =
      .ok (true, { s with tokens := t :: rest }) := rfl
  have hskip' : (skipIf .value).run { s with tokens := .value :: t' :: rest' } =
      .ok (true, { s with tokens := t' :: rest' }) := rfl
  rw [blockEntries, run_bind hskip, if_pos rfl, run_bind hkey', run_bind hskip', if_pos rfl,
    run_bind hvalue', run_bind hrest]
  rfl

theorem exists_tokens_eq_cons (value : Value) : ∃ t ts, value.tokens = t :: ts ∧
    [Token.key, .value, .blockEnd].contains t = false := by
  unfold Value.tokens
  split
  · exact ⟨_, _, rfl, rfl⟩
  · exact ⟨_, _, rfl, rfl⟩
  · exact ⟨_, _, rfl, rfl⟩
  · exact ⟨_, _, rfl, rfl⟩
  · exact ⟨_, _, rfl, rfl⟩

mutual

/-- The tokens of a value are read as its node, within as many steps as there are tokens. -/
theorem node_tokens : ∀ (value : Value) {n : Nat} (place : Place), place ≠ .flow →
    value.tokens.length ≤ n → ∀ (s : Reader) (rest : List Token),
    (node n place).run { s with tokens := value.tokens ++ rest } =
      .ok (value.node, { s with tokens := rest })
  | .null, n + 1, place, hplace, hn, s, rest => by
      rw [Value.tokens, Value.node]
      exact node_scalar
  | .natural k, n + 1, place, hplace, hn, s, rest => by
      rw [Value.tokens, Value.node]
      exact node_scalar
  | .text t, n + 1, place, hplace, hn, s, rest => by
      rw [Value.tokens, Value.node]
      exact node_scalar
  | .mapping [], n + 2, place, hplace, hn, s, rest => by
      rw [Value.tokens, Value.node, Value.fieldNodes]
      exact node_empty n
  | .mapping (field :: fields), n + 1, place, hplace, hn, s, rest => by
      rw [Value.tokens] at hn ⊢
      · rw [Value.node, List.cons_append, List.append_assoc]
        apply node_blockMapping hplace
        apply blockEntries_tokens
        simp at hn
        omega
      · simp
      · simp

theorem blockEntries_tokens : ∀ (fields : List (String × Value)) {n : Nat},
    (Value.fieldTokens fields).length < n → ∀ (s : Reader) (rest : List Token),
    (blockEntries n).run { s with tokens := Value.fieldTokens fields ++ .blockEnd :: rest } =
      .ok (Value.fieldNodes fields, { s with tokens := rest })
  | [], n + 1, hn, s, rest => by
      rw [Value.fieldTokens, Value.fieldNodes]
      exact blockEntries_end n
  | (name, value) :: fields, n + 2, hn, s, rest => by
      obtain ⟨t, ts, hvalue, ht⟩ := exists_tokens_eq_cons value
      rw [Value.fieldTokens] at hn ⊢
      simp only [List.length_cons, List.length_append] at hn
      have hnode := node_tokens value (n := n + 1) .blockPart (by decide) (by omega) s
        (Value.fieldTokens fields ++ .blockEnd :: rest)
      have hentries := blockEntries_tokens fields (n := n + 1) (by omega) s rest
      rw [Value.fieldNodes]
      simp only [List.cons_append, List.append_assoc]
      rw [hvalue, List.cons_append] at hnode ⊢
      exact blockEntries_key rfl node_scalar ht hnode hentries

end

end Reading

theorem Node.ofTokens?_tokens {fields : List (String × Value)} (hne : fields ≠ []) :
    Node.ofTokens? (Value.mapping fields).tokens = .ok (some (Value.mapping fields).node) := by
  obtain ⟨ts, hts⟩ : ∃ ts, (Value.mapping fields).tokens = .blockMapping :: ts := by
    rw [Value.tokens]
    · exact ⟨_, rfl⟩
    · exact hne
  have hroot (n : Nat) (hn : (Value.mapping fields).tokens.length ≤ n) :
      (Reading.node n .block).run { tokens := .blockMapping :: ts } =
        .ok ((Value.mapping fields).node, { tokens := [] }) := by
    have hnode := Reading.node_tokens (Value.mapping fields) .block (by decide) hn
      { tokens := [] } []
    rwa [List.append_nil, hts] at hnode
  have hpeek : Reading.peek.run { tokens := .blockMapping :: ts } =
      .ok (some .blockMapping, { tokens := .blockMapping :: ts }) := rfl
  have hdocument (n : Nat) (hn : (Value.mapping fields).tokens.length ≤ n) :
      (Reading.document? n).run { tokens := .blockMapping :: ts } =
        .ok (some (Value.mapping fields).node, { tokens := [] }) := by
    rw [Reading.document?, Reading.run_bind hpeek]
    exact (Reading.run_bind (hroot n hn)).trans rfl
  rw [Node.ofTokens?, hts, hdocument _ (by rw [hts]; omega)]
  rfl

theorem load?_render {fields : List (String × Value)} (hne : fields ≠ [])
    (hkeys : (Value.mapping fields).HasKeys) :
    load? (Value.mapping fields).render = .ok (some { root := (Value.mapping fields).node }) := by
  rw [load?, Token.scan_render hne hkeys]
  show Node.ofTokens? _ >>= _ = _
  rw [Node.ofTokens?_tokens hne]
  rfl

namespace Document

variable {d : Document} {names : List String} {found : List (String × Node)}
  {fields : List (String × Value)}

theorem natural_node {n bound : Nat} (hbound : n < bound) (hsize : n < UInt64.size) :
    d.natural bound (Value.natural n).node = .ok n := by
  rw [Value.node]
  simp [natural, resolve, natural?_toDigits hsize, hbound]

theorem text?_null : d.text? Value.null.node = .ok none := by
  rw [Value.node]
  rfl

theorem text?_node (s : List Char) : d.text? (Value.text s).node = .ok (some s) := by
  rw [Value.node]
  cases hstyle : textStyle s with
  | plain =>
      have hmeans := meansItself_of_textStyle hstyle
      simp [text?, resolve, ne_nil_of_meansItself hmeans, isNull_of_meansItself hmeans]
  | singleQuoted => rfl
  | doubleQuoted => rfl
  | literal => rfl
  | folded => rfl

/-- An entry is added to the fields that are found, if its name is wanted. -/
def addEntry (d : Document) (names : List String) (found : List (String × Node)) :
    Node × Node → Except Error (List (String × Node))
  | (k, v) => do
      let name := String.ofList (← d.text k)
      if !names.contains name then return found
      if (found.lookup name).isSome then throw (.repeatedField name)
      return found ++ [(name, v)]

theorem fields_mapping (p : Properties) (entries : List (Node × Node)) :
    d.fields names (.mapping p entries) = entries.foldlM (d.addEntry names) [] :=
  rfl

theorem addEntry_new {name : String} (hname : name ∈ names) (hnew : found.lookup name = none)
    (v : Node) :
    d.addEntry names found (.scalar {} .plain name.toList, v) = .ok (found ++ [(name, v)]) := by
  show (if !names.contains (String.ofList name.toList) then _ else _) = _
  rw [String.ofList_toList, if_neg (by simp [hname]), hnew]
  rfl

theorem foldlM_addEntry (hnames : ∀ f ∈ fields, f.1 ∈ names)
    (hdistinct : (fields.map Prod.fst).Nodup) (hnew : ∀ f ∈ fields, found.lookup f.1 = none) :
    (Value.fieldNodes fields).foldlM (d.addEntry names) found =
      .ok (found ++ fields.map fun f => (f.1, f.2.node)) := by
  induction fields generalizing found with
  | nil =>
      rw [Value.fieldNodes, List.map_nil, List.append_nil]
      rfl
  | cons f fields ih =>
      obtain ⟨name, value⟩ := f
      rw [List.map_cons, List.nodup_cons] at hdistinct
      have hnext : ∀ f ∈ fields, (found ++ [(name, value.node)]).lookup f.1 = none := by
        intro f hf
        have hother : f.1 ≠ name := by
          intro heq
          exact hdistinct.1 (List.mem_map.2 ⟨f, hf, heq⟩)
        have hold := hnew f (List.mem_cons_of_mem _ hf)
        have hsingle : List.lookup f.1 [(name, value.node)] = none := by
          rw [List.lookup_cons, beq_eq_false_iff_ne.2 hother]
          rfl
        rw [List.lookup_append, hold, hsingle]
        rfl
      rw [Value.fieldNodes, List.foldlM_cons,
        addEntry_new (hnames _ (List.mem_cons_self ..)) (hnew _ (List.mem_cons_self ..))]
      show (Value.fieldNodes fields).foldlM (d.addEntry names) (found ++ [(name, value.node)]) = _
      rw [ih (fun f hf => hnames f (List.mem_cons_of_mem _ hf)) hdistinct.2 hnext]
      simp

theorem fields_node (hnames : ∀ f ∈ fields, f.1 ∈ names)
    (hdistinct : (fields.map Prod.fst).Nodup) :
    d.fields names (Value.mapping fields).node = .ok (fields.map fun f => (f.1, f.2.node)) := by
  rw [Value.node, fields_mapping, foldlM_addEntry hnames hdistinct fun _ _ => rfl]
  rfl

end Document

end Emm.Yaml
