import Emm.Yaml.Error
import Emm.Yaml.Node
import Emm.Yaml.Tag

/-!
From tokens to nodes. Where nothing is written of a node that has to be there, it is the empty one.
-/

namespace Emm.Yaml

/-- What is left of the tokens, and what the names in a document stand for. -/
structure Reader where
  tokens : List Token
  places : List (List Char × Nat) := []
  handles : List (List Char × List Char) := Tag.defaultHandles

abbrev Reading := StateT Reader (Except Error)

namespace Reading

def peek : Reading (Option Token) := return (← get).tokens.head?

def skip : Reading Unit := modify fun s => { s with tokens := s.tokens.drop 1 }

/-- Passes over the token if it comes next. -/
def skipIf (t : Token) : Reading Bool := do
  if (← peek) = some t then
    skip
    return true
  return false

def anchorPlace (name : List Char) : Reading Nat := do
  let s ← get
  let place := s.places.length
  let places :=
    if (s.places.lookup name).isSome then
      s.places.map fun (other, k) => if other = name then (name, place) else (other, k)
    else s.places ++ [(name, place)]
  set { s with places }
  return place

def aliasPlace (name : List Char) : Reading Nat := do
  match (← get).places.lookup name with
  | some place => return place
  | none => throw (.unknownAnchor name)

def resolveTag (handle suffix : List Char) : Reading (List Char) := do
  if handle = [] then return suffix
  match (← get).handles.lookup handle with
  | some meaning => return meaning ++ suffix
  | none => throw .unknownTagHandle

/-- The anchor and the tag of a node, in either order. -/
def readProperties : Reading Properties := do
  match ← peek with
  | some (.anchor name) =>
      skip
      match ← peek with
      | some (.tag handle suffix) =>
          skip
          let tag ← resolveTag handle suffix
          return { place := some (← anchorPlace name), tag := some tag }
      | _ => return { place := some (← anchorPlace name) }
  | some (.tag handle suffix) =>
      skip
      let name ← match ← peek with
        | some (.anchor name) =>
            skip
            pure (some name)
        | _ => pure none
      let tag ← resolveTag handle suffix
      return { place := ← name.mapM anchorPlace, tag := some tag }
  | _ => return {}

/-- Where a node stands. -/
inductive Place
  | block
  /-- The key or the value of a block mapping, where the entries of a sequence need not be
  indented. -/
  | blockPart
  | flow
deriving DecidableEq

/-- Reads a node, unless one of the tokens `ends` comes next or there is none: then nothing is
written of it. -/
def orEmpty (ends : List Token) (read : Reading Node) : Reading Node := do
  match ← peek with
  | some t => if ends.contains t then return .empty else read
  | none => read

mutual

/-- Reads a node. The number bounds how deep nodes and entries lie. -/
def node : Nat → Place → Reading Node
  | 0, _ => throw .nodeExpected
  | n + 1, place => do
      match ← peek with
      | some (.aliasOf name) =>
          skip
          return .aliasOf (← aliasPlace name)
      | _ =>
          let p ← readProperties
          match ← peek, place with
          | some .entry, .blockPart => return .sequence p (← looseItems n)
          | some (.scalar style text), _ =>
              skip
              let tag := if p.tag = some ['!'] then none else p.tag
              return .scalar { p with tag } style text
          | some .flowSequence, _ =>
              skip
              return .sequence p (← flowItems n true)
          | some .flowMapping, _ =>
              skip
              return .mapping p (← flowEntries n true)
          | some .blockSequence, .block | some .blockSequence, .blockPart =>
              skip
              return .sequence p (← blockItems n)
          | some .blockMapping, .block | some .blockMapping, .blockPart =>
              skip
              return .mapping p (← blockEntries n)
          | _, _ =>
              if p.place.isSome || p.tag.isSome then return .empty p else throw .nodeExpected

/-- The entries of a block sequence, up to its end. -/
def blockItems : Nat → Reading (List Node)
  | 0 => throw .entryExpected
  | n + 1 => do
      if ← skipIf .entry then
        let item ← orEmpty [.entry, .blockEnd] (node n .block)
        return item :: (← blockItems n)
      else if ← skipIf .blockEnd then return []
      else throw .entryExpected

/-- The entries of a block sequence that is not indented. -/
def looseItems : Nat → Reading (List Node)
  | 0 => throw .entryExpected
  | n + 1 => do
      if ← skipIf .entry then
        let item ← orEmpty [.entry, .key, .value, .blockEnd] (node n .block)
        return item :: (← looseItems n)
      else return []

/-- The entries of a block mapping, up to its end. -/
def blockEntries : Nat → Reading (List (Node × Node))
  | 0 => throw .keyExpected
  | n + 1 => do
      if ← skipIf .key then
        let key ← orEmpty [.key, .value, .blockEnd] (node n .blockPart)
        let value ←
          if ← skipIf .value then orEmpty [.key, .value, .blockEnd] (node n .blockPart)
          else pure .empty
        return (key, value) :: (← blockEntries n)
      else if ← skipIf .blockEnd then return []
      else throw .keyExpected

/-- The entries of a flow sequence, up to its end. A key among them begins a mapping of a single
entry. -/
def flowItems : Nat → Bool → Reading (List Node)
  | 0, _ => throw .separatorExpected
  | n + 1, first => do
      if ← skipIf .flowSequenceEnd then return []
      if !first then
        if !(← skipIf .separator) then throw .separatorExpected
        if ← skipIf .flowSequenceEnd then return []
      if ← skipIf .key then
        let entry ← singleEntry n
        return .mapping {} [entry] :: (← flowItems n false)
      else
        let item ← node n .flow
        return item :: (← flowItems n false)

/-- The entry of a mapping within a flow sequence. A token that comes in place of the key is passed
over with it. -/
def singleEntry : Nat → Reading (Node × Node)
  | 0 => throw .keyExpected
  | n + 1 => do
      let ends := [.value, .separator, .flowSequenceEnd]
      let key ←
        match ← peek with
        | some t =>
            if ends.contains t then
              skip
              pure .empty
            else node n .flow
        | none => node n .flow
      let value ←
        if ← skipIf .value then orEmpty [.separator, .flowSequenceEnd] (node n .flow)
        else pure .empty
      return (key, value)

/-- The entries of a flow mapping, up to its end. -/
def flowEntries : Nat → Bool → Reading (List (Node × Node))
  | 0, _ => throw .separatorExpected
  | n + 1, first => do
      if ← skipIf .flowMappingEnd then return []
      if !first then
        if !(← skipIf .separator) then throw .separatorExpected
        if ← skipIf .flowMappingEnd then return []
      if ← skipIf .key then
        let key ← orEmpty [.value, .separator, .flowMappingEnd] (node n .flow)
        let value ←
          if ← skipIf .value then orEmpty [.separator, .flowMappingEnd] (node n .flow)
          else pure .empty
        return (key, value) :: (← flowEntries n false)
      else
        let key ← node n .flow
        return (key, .empty) :: (← flowEntries n false)

end

/-- The directives before a document, of which one may already have stated the version. -/
def directives : Bool → List Token → Reading Unit
  | versioned, .version major minor :: rest => do
      if versioned then throw .repeatedDirective
      if major ≠ 1 ∨ (minor ≠ 1 ∧ minor ≠ 2) then throw .unknownVersion
      skip
      directives true rest
  | versioned, .tagHandle handle meaning :: rest => do
      skip
      modify fun s => { s with handles := s.handles ++ [(handle, meaning)] }
      directives versioned rest
  | _, _ => return ()

/-- Handles that a document defines come before the default ones, and each may be defined once. -/
def defineHandles : Reading Unit := do
  modify fun s => { s with handles := [] }
  directives false (← get).tokens
  let defined := (← get).handles
  if (defined.map Prod.fst).eraseDups.length < defined.length then throw .repeatedDirective
  modify fun s => { s with handles := defined ++ Tag.defaultHandles }

/-- The only document of a stream; nothing, if the stream is empty. -/
def document? (depth : Nat) : Reading (Option Node) := do
  match ← peek with
  | none => return none
  | some t =>
      let root ←
        match t with
        | .version .. | .tagHandle .. | .documentStart => do
            defineHandles
            if !(← skipIf .documentStart) then throw .documentStartExpected
            match ← peek with
            | none | some (.version ..) | some (.tagHandle ..) | some .documentStart
            | some .documentEnd => pure .empty
            | some _ => node depth .block
        | _ => node depth .block
      if (← get).tokens.all (· = .documentEnd) then return some root else throw .secondDocument

end Reading

/-- The only document of a stream; nothing, if the stream is empty. -/
def Node.ofTokens? (tokens : List Token) : Except Error (Option Node) :=
  ((Reading.document? (2 * tokens.length + 2)).run { tokens }).map Prod.fst

end Emm.Yaml
