import ApiModel.Fields
import ApiModel.Yaml.Token

/-! # YAML nodes

A YAML document as a tree. Anchored nodes are numbered, and an alias holds the number of the node
it stands for.
-/

namespace ApiModel.Yaml

structure Properties where
  anchor : Option Nat := none
  tag : Option String := none
  deriving DecidableEq, Repr

inductive Node where
  | alias (target : Nat)
  | scalar (properties : Properties) (style : ScalarStyle) (text : String)
  | sequence (properties : Properties) (items : List Node)
  | mapping (properties : Properties) (members : List (Node × Node))

namespace Node

instance : Inhabited Node := ⟨.alias 0⟩

def empty : Node := .scalar {} .plain ""

def named (p : Properties) (node : Node) : List (Nat × Node) :=
  match p.anchor with
  | none => []
  | some id => [(id, node)]

mutual

def anchored : Node → List (Nat × Node)
  | .alias _ => []
  | .scalar p style text => named p (.scalar p style text)
  | .sequence p items => named p (.sequence p items) ++ anchoredItems items
  | .mapping p members => named p (.mapping p members) ++ anchoredMembers members

def anchoredItems : List Node → List (Nat × Node)
  | [] => []
  | item :: rest => anchored item ++ anchoredItems rest

def anchoredMembers : List (Node × Node) → List (Nat × Node)
  | [] => []
  | (key, value) :: rest => anchored key ++ (anchored value ++ anchoredMembers rest)

/-- The number of places where a node of the tree begins or ends. -/
def weight : Node → Nat
  | .alias _ => 1
  | .scalar _ _ _ => 1
  | .sequence _ items => 2 + weightItems items
  | .mapping _ members => 2 + weightMembers members

def weightItems : List Node → Nat
  | [] => 0
  | item :: rest => weight item + weightItems rest

def weightMembers : List (Node × Node) → Nat
  | [] => 0
  | (key, value) :: rest => weight key + (weight value + weightMembers rest)

end

end Node

end ApiModel.Yaml
