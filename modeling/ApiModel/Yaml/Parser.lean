import ApiModel.Yaml.Lexer
import ApiModel.Yaml.Node

/-! # Reading YAML nodes

Tokens become a tree by recursive descent. A text holds one document, which may have directives
and marks for its beginning and end. The number of a new anchor is the number of anchor names
known before it.
-/

namespace ApiModel.Yaml

structure Parser where
  rest : List Token
  /-- The number that each anchor name has now. -/
  anchors : List (String × Nat) := []
  /-- What the handles of tags stand for; the first entry of a handle counts. -/
  handles : List (String × String) := []

abbrev Parse := StateT Parser Option

namespace Parse

def peek : Parse (Option Token) := return (← get).rest.head?

def advance : Parse Unit := modify fun p => { p with rest := p.rest.drop 1 }

def accept (t : Token) : Parse Bool := do
  if (← peek) = some t then
    advance
    return true
  else return false

def expect (t : Token) : Parse Unit := do
  if !(← accept t) then failure

/-- The node that comes next, or an empty one before any of the given tokens. -/
def unlessBefore (stops : List Token) (node : Parse Node) : Parse Node := do
  match ← peek with
  | some t => if stops.contains t then return .empty else node
  | none => node

def anchor? : Parse (Option Nat) := do
  match ← peek with
  | some (.anchor name) =>
    advance
    let id := (← get).anchors.length
    modify fun p => { p with anchors := Fields.set p.anchors name id }
    return some id
  | _ => return none

def tag? : Parse (Option String) := do
  match ← peek with
  | some (.tag handle suffix) =>
    advance
    if handle.isEmpty then return some suffix
    else
      match Fields.get? (← get).handles handle with
      | some expansion => return some (expansion ++ suffix)
      | none => failure
  | _ => return none

def properties : Parse Properties := do
  match ← anchor? with
  | some id => return { anchor := some id, tag := ← tag? }
  | none =>
    let tag ← tag?
    return { anchor := ← anchor?, tag }

/-- A scalar; a lone exclamation mark before it is no tag. -/
def scalar (p : Properties) (style : ScalarStyle) (text : String) : Node :=
  .scalar (if p.tag = some "!" then { p with tag := none } else p) style text

mutual

/-- A node. Blocks can begin only where `block` is set, and a sequence at the indentation of its
mapping only where `sameIndent` is set. -/
def node (fuel : Nat) (block sameIndent : Bool) : Parse Node :=
  match fuel with
  | 0 => failure
  | fuel + 1 => do
    match ← peek with
    | some (.alias name) =>
      advance
      match Fields.get? (← get).anchors name with
      | some id => return .alias id
      | none => failure
    | _ =>
      let p ← properties
      match ← peek, block, sameIndent with
      | some .dash, _, true => return .sequence p (← itemsAtSameIndent fuel)
      | some (.scalar style text), _, _ =>
        advance
        return scalar p style text
      | some .openSequence, _, _ =>
        advance
        return .sequence p (← items fuel true)
      | some .openMapping, _, _ =>
        advance
        return .mapping p (← members fuel true)
      | some .openBlockSequence, true, _ =>
        advance
        return .sequence p (← blockItems fuel)
      | some .openBlockMapping, true, _ =>
        advance
        return .mapping p (← blockMembers fuel)
      | _, _, _ => if p = {} then failure else return scalar p .plain ""

def blockItems (fuel : Nat) : Parse (List Node) :=
  match fuel with
  | 0 => failure
  | fuel + 1 => do
    if ← accept .dash then
      let item ← unlessBefore [.dash, .closeBlock] (node fuel true false)
      return item :: (← blockItems fuel)
    else
      expect .closeBlock
      return []

def itemsAtSameIndent (fuel : Nat) : Parse (List Node) :=
  match fuel with
  | 0 => failure
  | fuel + 1 => do
    if ← accept .dash then
      let item ← unlessBefore [.dash, .key, .value, .closeBlock] (node fuel true false)
      return item :: (← itemsAtSameIndent fuel)
    else return []

def blockMembers (fuel : Nat) : Parse (List (Node × Node)) :=
  match fuel with
  | 0 => failure
  | fuel + 1 => do
    if ← accept .key then
      let key ← unlessBefore [.key, .value, .closeBlock] (node fuel true true)
      let value ← if ← accept .value then
          unlessBefore [.key, .value, .closeBlock] (node fuel true true)
        else pure .empty
      return (key, value) :: (← blockMembers fuel)
    else
      expect .closeBlock
      return []

def items (fuel : Nat) (first : Bool) : Parse (List Node) :=
  match fuel with
  | 0 => failure
  | fuel + 1 => do
    if ← accept .closeSequence then return []
    else
      if !first then expect .comma
      if ← accept .closeSequence then return []
      else
        let item ← if ← accept .key then pair fuel else node fuel false false
        return item :: (← items fuel false)

/-- An item that is a mapping of one member. A token that stands in place of its key is lost. -/
def pair (fuel : Nat) : Parse Node :=
  match fuel with
  | 0 => failure
  | fuel + 1 => do
    let stops : List Token := [.value, .comma, .closeSequence]
    let keyMissing := (← peek).any stops.contains
    let key ← if keyMissing then do advance; pure .empty else node fuel false false
    let value ← if ← accept .value then
        unlessBefore [.comma, .closeSequence] (node fuel false false)
      else pure .empty
    return .mapping {} [(key, value)]

def members (fuel : Nat) (first : Bool) : Parse (List (Node × Node)) :=
  match fuel with
  | 0 => failure
  | fuel + 1 => do
    if ← accept .closeMapping then return []
    else
      if !first then expect .comma
      if ← accept .closeMapping then return []
      else if ← accept .key then
        let key ← unlessBefore [.value, .comma, .closeMapping] (node fuel false false)
        let value ← if ← accept .value then
            unlessBefore [.comma, .closeMapping] (node fuel false false)
          else pure .empty
        return (key, value) :: (← members fuel false)
      else
        let key ← node fuel false false
        return (key, .empty) :: (← members fuel false)

end

def isDirective : Token → Bool
  | .version _ _ => true
  | .tagDirective _ _ => true
  | _ => false

/-- The handles that directives declare. The version occurs at most once, and so does a handle. -/
def declared? : List Token → Option (List (String × String))
  | [] => some []
  | .version major minor :: rest =>
    let repeated := rest.any fun t => match t with
      | .version _ _ => true
      | _ => false
    if major = 1 && (minor = 1 || minor = 2) && !repeated then declared? rest else none
  | .tagDirective handle expansion :: rest =>
    (declared? rest).bind fun handles =>
      if (Fields.keys handles).contains handle then none else some ((handle, expansion) :: handles)
  | _ :: _ => none

def defaultHandles : List (String × String) :=
  [("!", "!"), ("!!", "tag:yaml.org,2002:")]

def content (fuel : Nat) : Parse Node := do
  match ← peek with
  | none => return .empty
  | some t =>
    if t = .documentStart || t = .documentEnd || isDirective t then return .empty
    else node fuel true false

def document (fuel : Nat) : Parse Node := do
  let directives := (← get).rest.takeWhile isDirective
  match declared? directives with
  | none => failure
  | some handles =>
    modify fun p =>
      { p with rest := p.rest.drop directives.length, handles := handles ++ defaultHandles }
    if ← accept .documentStart then content fuel
    else if !directives.isEmpty then failure
    else if (← peek).isNone then return .empty
    else node fuel true false

end Parse

/-- The only document among the tokens; it is empty when there are none. -/
def Node.ofTokens? (tokens : List Token) : Option Node :=
  ((Parse.document (2 * tokens.length + 2)).run { rest := tokens }).bind fun (node, p) =>
    if p.rest.all (· = .documentEnd) then some node else none

end ApiModel.Yaml
