import ApiModel.Pointer
import ApiModel.Document.Basic

/-! # Routes

A schema is resolved in one of seven ways. A reference comes before everything else, then a string
enumeration, then a malformed `additionalProperties`, then an array, a dictionary and an object
type; what is left is a scalar.
-/

namespace ApiModel

/-- A schema and its place: the name an anonymous type there takes, the pointer to it, and what
defects there are reported against. -/
structure Site where
  schema : Schema
  name : String
  pointer : Pointer
  owner : String

inductive Route where
  | reference (text : String)
  | enumeration (values : List Json)
  | malformed (additional : Json)
  /-- With whether `additionalProperties` are declared too. -/
  | array (clash : Bool)
  /-- With the schema of the values, if there is one. -/
  | dictionary (value : Option Schema)
  | composite
  | scalar

namespace Schema

/-- The values of an enumeration of strings. Other types may list values too. -/
def stringEnum? (s : Schema) : Option (List Json) :=
  match s.typeName with
  | none | some "string" => s.enumeration
  | some _ => none

def isArray (s : Schema) : Bool :=
  s.typeName == some "array" || s.items.isSome

def dictionary? (s : Schema) : Option (Option Schema) :=
  match s.additional with
  | some (.flag true) => some none
  | some (.schema value) => some (some value)
  | _ => none

def route (s : Schema) : Route :=
  match s.reference, s.stringEnum?, s.additional with
  | some reference, _, _ => .reference reference
  | none, some values, _ => .enumeration values
  | none, none, some (.malformed value) => .malformed value
  | none, none, _ =>
    if s.isArray then .array s.dictionary?.isSome
    else match s.dictionary? with
      | some value => .dictionary value
      | none => if s.hasObjectStructure then .composite else .scalar

def marksDictionary (s : Schema) : Bool :=
  match s.additional with
  | none | some (.flag false) => false
  | some _ => true

/-- Whether a schema declares an object type of its own. -/
def isComposite (s : Schema) : Bool :=
  s.reference.isNone && s.stringEnum?.isNone && !s.isArray && !s.marksDictionary &&
    s.hasObjectStructure

end Schema

end ApiModel
