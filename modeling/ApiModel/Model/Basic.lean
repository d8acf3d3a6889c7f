import ApiModel.Model.Scalar
import ApiModel.Document.Basic

/-! # Model types

Resolved types. Enums and composites live in a catalog and are referred to by their index in it,
so two references to one definition are equal and cyclic types need no special care.
-/

namespace ApiModel

structure CompositeId where
  index : Nat
  deriving DecidableEq, Repr

structure EnumId where
  index : Nat
  deriving DecidableEq, Repr

inductive ModelType where
  | scalar (kind : Scalar)
  | enum (id : EnumId)
  | sequence (element : ModelType)
  /-- Keys are strings. -/
  | dictionary (value : ModelType)
  | composite (id : CompositeId)
  deriving DecidableEq, Repr

namespace ModelType

def element? : ModelType → Option ModelType
  | sequence element => some element
  | _ => none

def value? : ModelType → Option ModelType
  | dictionary value => some value
  | _ => none

def composite? : ModelType → Option CompositeId
  | composite id => some id
  | _ => none

def enum? : ModelType → Option EnumId
  | enum id => some id
  | _ => none

end ModelType

/-- A member of an enum: its symbol and its value on the wire. -/
structure EnumValue where
  symbol : String
  wire : String
  deriving DecidableEq, Repr

structure EnumType where
  name : Option String
  values : List EnumValue
  /-- An expandable enum accepts further values; a closed one refuses them. -/
  expandable : Bool
  /-- Where the enum is declared. -/
  origin : String
  deriving DecidableEq, Repr

def EnumType.closed (e : EnumType) : Bool := !e.expandable

/-- Facets of a property or parameter, absent flags read as false. -/
structure Constraints where
  minimum : Option Double := none
  maximum : Option Double := none
  exclusiveMinimum : Bool := false
  exclusiveMaximum : Bool := false
  minLength : Option Nat := none
  maxLength : Option Nat := none
  pattern : Option String := none
  minItems : Option Nat := none
  maxItems : Option Nat := none
  uniqueItems : Bool := false
  multipleOf : Option Double := none
  deriving DecidableEq, Repr

namespace Constraints

def ofFacets (f : Facets) : Constraints :=
  { minimum := f.minimum, maximum := f.maximum,
    exclusiveMinimum := f.exclusiveMinimum.getD false,
    exclusiveMaximum := f.exclusiveMaximum.getD false,
    minLength := f.minLength, maxLength := f.maxLength, pattern := f.pattern,
    minItems := f.minItems, maxItems := f.maxItems,
    uniqueItems := f.uniqueItems.getD false, multipleOf := f.multipleOf }

def isEmpty (c : Constraints) : Bool := c == {}

end Constraints

structure Property where
  /-- Name on the wire. -/
  name : String
  type : ModelType
  required : Bool
  readOnly : Bool
  /-- Required, with a single allowed value. -/
  constant : Bool
  description : Option String
  defaultValue : Option Json
  constraints : Constraints

/-- How far a composite has been resolved. -/
inductive Progress where
  /-- Registered, its members not resolved yet. -/
  | stub
  | propertiesResolved
  | hierarchyResolved
  deriving DecidableEq, Repr

structure Composite where
  name : String
  /-- Where the composite is declared. -/
  origin : String
  description : Option String
  properties : List Property
  base : Option CompositeId
  /-- The property that tells the types of a hierarchy apart. -/
  discriminator : Option String
  /-- What the discriminator holds for this type. -/
  discriminatorValue : String
  /-- Every type below this one, by ascending index. -/
  derived : List CompositeId
  progress : Progress

namespace Composite

def stub (name origin : String) : Composite :=
  { name, origin, description := none, properties := [], base := none, discriminator := none,
    discriminatorValue := name, derived := [], progress := .stub }

/-- A property of the composite itself, not an inherited one. -/
def property? (c : Composite) (name : String) : Option Property :=
  c.properties.find? (·.name == name)

end Composite

end ApiModel
