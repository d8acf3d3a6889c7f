import ApiModel.Document.Mismatch

/-! # API documents

A Swagger 2.0 document as written: its definitions, shared parameters and paths, with schemas as
trees. An absent keyword is told apart from a present one; nothing is interpreted yet.
-/

namespace ApiModel

structure Facets where
  minimum : Option Double := none
  maximum : Option Double := none
  exclusiveMinimum : Option Bool := none
  exclusiveMaximum : Option Bool := none
  minLength : Option Nat := none
  maxLength : Option Nat := none
  pattern : Option String := none
  minItems : Option Nat := none
  maxItems : Option Nat := none
  uniqueItems : Option Bool := none
  multipleOf : Option Double := none
  deriving DecidableEq, Repr

/-- The value of `additionalProperties`: a flag, a schema, or something that is neither. -/
inductive Additional (σ : Type) where
  | flag (allowed : Bool)
  | schema (value : σ)
  | malformed (value : Json)
  deriving Repr

/-- The keywords of a schema that hold no schema. -/
structure Keywords where
  reference : Option String := none
  typeName : Option String := none
  format : Option String := none
  title : Option String := none
  description : Option String := none
  enumeration : Option (List Json) := none
  required : List String := []
  discriminator : Option String := none
  readOnly : Option Bool := none
  defaultValue : Option Json := none
  exampleValue : Option Json := none
  facets : Facets := {}
  /-- Members whose names start with `x-`. -/
  extensions : List (String × Json) := []
  deriving Repr

structure Schema extends Keywords where
  items : Option Schema := none
  additional : Option (Additional Schema) := none
  properties : List (String × Schema) := []
  allOf : List Schema := []

instance : Inhabited Schema := ⟨{}⟩

namespace Schema

def referenceTo (definition : String) : Schema :=
  { reference := some ("#/definitions/" ++ definition) }

def typed (typeName : String) (format : Option String) : Schema :=
  { typeName := some typeName, format := format }

/-- Whether the schema declares members, parts or a discriminator of its own. -/
def hasObjectStructure (s : Schema) : Bool :=
  !s.properties.isEmpty || !s.allOf.isEmpty || s.discriminator.isSome

def extension? (s : Schema) (name : String) : Option Json :=
  Fields.get? s.extensions name

mutual

/-- The number of schemas in a schema, itself included. -/
def size : Schema → Nat
  | ⟨_, items, additional, properties, allOf⟩ =>
    1 + optionSize items + additionalSize additional + propertySize properties + listSize allOf

def optionSize : Option Schema → Nat
  | none => 0
  | some s => size s

def additionalSize : Option (Additional Schema) → Nat
  | some (.schema s) => size s
  | _ => 0

def propertySize : List (String × Schema) → Nat
  | [] => 0
  | (_, s) :: rest => size s + propertySize rest

def listSize : List Schema → Nat
  | [] => 0
  | s :: rest => size s + listSize rest

end

end Schema

/-- A parameter of an operation, or a reference to a shared one. -/
structure ParameterNode where
  reference : Option String := none
  name : Option String := none
  location : Option String := none
  description : Option String := none
  required : Bool := false
  schema : Option Schema := none
  typeName : Option String := none
  format : Option String := none
  items : Option Schema := none
  collectionFormat : Option String := none
  enumeration : Option (List Json) := none
  defaultValue : Option Json := none
  facets : Facets := {}
  extensions : List (String × Json) := []

/-- A parameter outside the body, seen as the schema of its values. -/
def ParameterNode.asSchema (p : ParameterNode) : Schema :=
  { typeName := p.typeName, format := p.format, description := p.description,
    enumeration := p.enumeration, items := p.items, defaultValue := p.defaultValue,
    facets := p.facets, extensions := p.extensions }

structure ResponseNode where
  description : String := ""
  schema : Option Schema := none

structure OperationNode where
  operationId : Option String := none
  summary : Option String := none
  description : Option String := none
  tags : List String := []
  consumes : Option (List String) := none
  produces : Option (List String) := none
  parameters : List ParameterNode := []
  responses : List (String × ResponseNode) := []
  deprecated : Bool := false
  extensions : List (String × Json) := []

inductive HttpMethod where
  | get | put | post | delete | options | head | patch
  deriving DecidableEq, Repr

namespace HttpMethod

/-- The methods in the order in which a path lists its operations. -/
def all : List HttpMethod := [get, put, post, delete, options, head, patch]

def name : HttpMethod → String
  | get => "get"
  | put => "put"
  | post => "post"
  | delete => "delete"
  | options => "options"
  | head => "head"
  | patch => "patch"

theorem mem_all (m : HttpMethod) : m ∈ all := by cases m <;> decide

end HttpMethod

structure PathItem where
  operation? : HttpMethod → Option OperationNode := fun _ => none
  parameters : List ParameterNode := []

def PathItem.operations (item : PathItem) : List (HttpMethod × OperationNode) :=
  HttpMethod.all.filterMap fun m => (item.operation? m).map fun op => (m, op)

structure ApiInfo where
  title : String := ""
  version : String := ""
  description : Option String := none

structure Document where
  /-- The version marker. -/
  swagger : String := ""
  info : ApiInfo := {}
  host : Option String := none
  basePath : Option String := none
  schemes : List String := []
  consumes : List String := []
  produces : List String := []
  paths : List (String × PathItem) := []
  definitions : List (String × Schema) := []
  /-- Definitions that are no schemas, with the reason. -/
  malformed : List (String × Mismatch) := []
  parameters : List (String × ParameterNode) := []
  extensions : List (String × Json) := []

instance : Inhabited Document := ⟨{}⟩

end ApiModel
