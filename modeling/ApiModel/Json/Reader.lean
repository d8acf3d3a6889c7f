import ApiModel.Json.Token

/-! # Reading JSON

A text is read by a pushdown automaton over its tokens. A repeated member keeps its first place
and takes its last value. Arrays and objects nest at most 127 deep.
-/

namespace ApiModel.Json

/-- An array or object that is still open; an open object waits for the value of `key`. -/
inductive Open where
  | arr (items : List Json)
  | obj (members : List (String × Json)) (key : String)

/-- What may come next. A closing bracket is welcome right after the opening one. -/
inductive Expected where
  | value
  | valueOrClose
  | key (members : List (String × Json))
  | keyOrClose
  | colon (members : List (String × Json)) (key : String)
  | separator (last : Json)

structure Builder where
  stack : List Open
  expected : Expected

namespace Builder

def depthLimit : Nat := 127

def close (stack : List Open) (value : Json) : Builder := ⟨stack, .separator value⟩

def enter? (stack : List Open) (expected : Expected) : Option Builder :=
  if stack.length ≤ depthLimit then some ⟨stack, expected⟩ else none

def startValue? (stack : List Open) : Token → Option Builder
  | .openArray => enter? (.arr [] :: stack) .valueOrClose
  | .openObject => enter? (.obj [] "" :: stack) .keyOrClose
  | .text s => some (close stack (.str s))
  | .scalar v => some (close stack v)
  | _ => none

def step? (b : Builder) (t : Token) : Option Builder :=
  match b.expected, b.stack, t with
  | .valueOrClose, .arr _ :: stack, .closeArray => some (close stack (.arr []))
  | .value, stack, t | .valueOrClose, stack, t => startValue? stack t
  | .keyOrClose, .obj _ _ :: stack, .closeObject => some (close stack (.obj []))
  | .keyOrClose, _ :: stack, .text key => some ⟨stack, .colon [] key⟩
  | .key members, stack, .text key => some ⟨stack, .colon members key⟩
  | .colon members key, stack, .colon => some ⟨.obj members key :: stack, .value⟩
  | .separator last, .arr items :: stack, .comma => some ⟨.arr (last :: items) :: stack, .value⟩
  | .separator last, .arr items :: stack, .closeArray =>
    some (close stack (.arr (last :: items).reverse))
  | .separator last, .obj members key :: stack, .comma =>
    some ⟨stack, .key (Fields.set members key last)⟩
  | .separator last, .obj members key :: stack, .closeObject =>
    some (close stack (.obj (Fields.set members key last)))
  | _, _, _ => none

end Builder

def ofTokens? (tokens : List Token) : Option Json :=
  (tokens.foldlM Builder.step? ⟨[], .value⟩).bind fun b =>
    match b.expected, b.stack with
    | .separator value, [] => some value
    | _, _ => none

def parse? (text : String) : Option Json :=
  (tokens? text.toList).bind ofTokens?

end ApiModel.Json
