import Emm.Yaml.Token

/-!
Documents as trees of nodes.

An anchor occupies a place, and an alias refers to the place that its name last stood for. A new
anchor takes the place numbered by how many different names there are before it, so that a name
which is used again can come to share a place; what is found at a place is the last node there.
-/

namespace Emm.Yaml

structure Properties where
  place : Option Nat := none
  tag : Option (List Char) := none

inductive Node
  | scalar (properties : Properties) (style : Style) (text : List Char)
  | sequence (properties : Properties) (items : List Node)
  | mapping (properties : Properties) (entries : List (Node × Node))
  | aliasOf (place : Nat)

namespace Node

/-- A node of which nothing is written. -/
def empty (properties : Properties := {}) : Node := .scalar properties .plain []

def properties : Node → Properties
  | scalar p .. | sequence p _ | mapping p _ => p
  | aliasOf _ => {}

mutual

/-- The last node with an anchor at the place, in the order of the text. -/
def anchored? (place : Nat) (n : Node) : Option Node :=
  (match n with
    | scalar .. | aliasOf _ => none
    | sequence _ items => anchoredInItems? place items
    | mapping _ entries => anchoredInPairs? place entries).or
    (if n.properties.place = some place then some n else none)

def anchoredInItems? (place : Nat) : List Node → Option Node
  | [] => none
  | n :: rest => (anchoredInItems? place rest).or (n.anchored? place)

def anchoredInPairs? (place : Nat) : List (Node × Node) → Option Node
  | [] => none
  | (k, v) :: rest =>
      (anchoredInPairs? place rest).or ((v.anchored? place).or (k.anchored? place))

end

end Node

end Emm.Yaml
