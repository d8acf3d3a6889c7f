import ApiModel.Yaml.Parser

/-! # YAML values

A document without aliases: each alias is replaced by a copy of its node. Values nest at most
128 deep, and the number of copies is limited too, so that short documents do not become long
values.
-/

namespace ApiModel.Yaml

structure Scalar where
  tag : Option String := none
  style : ScalarStyle := .plain
  text : String := ""
  deriving DecidableEq, Repr

inductive Value where
  | scalar (value : Scalar)
  | sequence (tag : Option String) (items : List Value)
  | mapping (tag : Option String) (members : List (Value × Value))

namespace Value

def depthLimit : Nat := 128

/-- The anchored nodes, and the number of copies that may still be made. -/
structure Copies where
  nodes : List (Nat × Node)
  left : Nat

abbrev Expansion := StateT Copies Option

def target (node : Node) : Expansion Node := do
  match node with
  | .alias id =>
    let copies ← get
    match copies.nodes.findRev? (·.1 = id) with
    | some (_, node) =>
      if copies.left = 0 then failure
      else
        set { copies with left := copies.left - 1 }
        return node
    | none => failure
  | node => return node

/-- The value of a node that may nest `depth` deep. -/
def ofNode (depth : Nat) (node : Node) : Expansion Value := do
  match ← target node, depth with
  | .scalar p style text, _ => return .scalar ⟨p.tag, style, text⟩
  | .sequence p items, depth + 1 => return .sequence p.tag (← items.mapM (ofNode depth))
  | .mapping p members, depth + 1 =>
    return .mapping p.tag (← members.mapM fun m => do
      let key ← ofNode depth m.1
      return (key, ← ofNode depth m.2))
  | _, _ => failure

def parse? (text : String) : Option Value :=
  (tokens? text).bind fun tokens =>
    (Node.ofTokens? tokens).bind fun node =>
      (ofNode depthLimit node).run' ⟨node.anchored, 100 * node.weight⟩

end Value

end ApiModel.Yaml
