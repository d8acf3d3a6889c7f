/-! # YAML tokens

The words of a YAML text. Indentation shows as opened and closed blocks, and the key of a plain
`key: value` line is announced before its first token.
-/

namespace ApiModel.Yaml

inductive ScalarStyle where
  | plain
  | quoted
  | literal
  | folded
  deriving DecidableEq, Repr

inductive Token where
  | version (major minor : Nat)
  /-- A shorthand for the beginning of tags. -/
  | tagDirective (handle expansion : String)
  | documentStart
  | documentEnd
  | openBlockSequence
  | openBlockMapping
  | closeBlock
  | openSequence
  | closeSequence
  | openMapping
  | closeMapping
  /-- The dash before an item of a block sequence. -/
  | dash
  | comma
  | key
  | value
  | alias (name : String)
  | anchor (name : String)
  | tag (handle suffix : String)
  | scalar (style : ScalarStyle) (text : String)
  deriving DecidableEq, Repr

end ApiModel.Yaml
