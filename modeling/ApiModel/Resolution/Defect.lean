import ApiModel.Pointer
import ApiModel.Model.Basic

/-! # Defects

Everything that can be wrong with a document. A defect names the definition, operation or enum it
is about and holds its cause; the wording is made from the cause.
-/

namespace ApiModel

inductive DefectKind where
  | schema | enumConflict | cycle | discriminator | propertyConflict
  deriving DecidableEq, Repr

namespace DefectKind

def all : List DefectKind := [schema, enumConflict, cycle, discriminator, propertyConflict]

def name : DefectKind → String
  | schema => "SchemaError"
  | enumConflict => "EnumConflictError"
  | cycle => "CycleError"
  | discriminator => "DiscriminatorError"
  | propertyConflict => "PropertyConflictError"

end DefectKind

inductive SchemaFault where
  | malformedDefinition (reason : Mismatch)
  | malformedAdditional (pointer : Pointer) (value : Json)
  | arrayWithAdditional (pointer : Pointer)
  | arrayWithoutItems (pointer : Pointer)
  | unsupportedReference (reference : String) (pointer : Pointer)
  | undefinedDefinition (name : String) (pointer : Pointer)
  | caseClash (name first : String)
  | selfReference (name : String)
  | nameClash (name origin existingOrigin : String)
  | enumValueNotText (value : Json) (pointer : Pointer)
  | enumValueRepeated (value : String) (pointer : Pointer)
  | enumWithoutName (extension : String) (pointer : Pointer)
  | unknownScalar (reason : Scalar.Unknown) (pointer : Pointer)
  | invalidPattern (pattern : String) (pointer : Pointer)
  | secondBase (reference : String) (pointer : Pointer)
  | emptyBase (reference : String) (pointer : Pointer)
  | baseNotObject (reference : String) (pointer : Pointer)
  | discriminatorValueNotText (extension : String) (value : Json)
  | noOperationId (pointer : Pointer)
  | sharedParameterIsReference (name : String)
  | undefinedParameter (reference : String) (pointer : Pointer)
  | unsupportedParameterReference (reference : String) (pointer : Pointer)
  | parameterWithoutName (pointer : Pointer)
  | unsupportedLocation (parameter : String) (location : Option String)
  | bodyWithoutSchema (parameter : String)
  | parameterWithoutType (parameter location : String)
  | unsupportedCollectionFormat (parameter format : String)
  | invalidBaseUrl (url reason : String)
  | dependsOnFailure

inductive DiscriminatorFault where
  | undeclared (property type : String)
  | notText (property type : String)
  | repeatedValue (value first second : String)

inductive PropertyFault where
  /-- Declared twice in one type. -/
  | redeclared (property first second : String)
  /-- Declared again below an ancestor that declares it. -/
  | overridden (property type ancestor inherited inheritedType : String)

inductive Defect where
  | schema (definition : String) (fault : SchemaFault)
  | enumConflict (name first second : String)
  | cycle (definition : String) (chain : List String)
  | discriminator (definition : String) (fault : DiscriminatorFault)
  | propertyConflict (definition : String) (fault : PropertyFault)

namespace SchemaFault

def message : SchemaFault → String
  | malformedDefinition reason => s!"definition is malformed: {reason.message}"
  | malformedAdditional p value =>
    s!"additionalProperties at '{p}' must be a boolean or a schema, got {value.text}"
  | arrayWithAdditional p =>
    s!"'{p}' declares both array items and additionalProperties; treating it as an array"
  | arrayWithoutItems p => s!"array at '{p}' has no items schema"
  | unsupportedReference r p =>
    s!"unsupported reference '{r}' at '{p}'; only '#/definitions/' references are allowed here"
  | undefinedDefinition name p => s!"reference at '{p}' names undefined definition '{name}'"
  | caseClash name first =>
    s!"definition '{name}' differs from '{first}' only in case; " ++
      "type names are case-insensitive"
  | selfReference name =>
    s!"definition '{name}' refers to itself without an object type in between"
  | nameClash name origin existing =>
    s!"type name '{name}' for '{origin}' collides with the type declared at '{existing}'"
  | enumValueNotText value p => s!"enum value {value.text} at '{p}' is not a string"
  | enumValueRepeated value p => s!"enum at '{p}' lists the value '{value}' more than once"
  | enumWithoutName extension p =>
    s!"{extension} extension at '{p}' needs to specify an enum name"
  | unknownScalar reason p => s!"{reason.message} at '{p}'"
  | invalidPattern pattern p =>
    s!"pattern '{pattern}' is not a valid regular expression: <regex> at '{p}'"
  | secondBase r p =>
    s!"'{r}' at '{p}' declares a second base type; only single inheritance is supported"
  | emptyBase r p =>
    s!"base type '{r}' at '{p}' declares no properties, allOf or discriminator, " ++
      "so it is not an object type"
  | baseNotObject r p => s!"base type '{r}' at '{p}' is not an object type"
  | discriminatorValueNotText extension value =>
    s!"{extension} must be a string, got {value.text}"
  | noOperationId p => s!"operation at '{p}' has no operationId"
  | sharedParameterIsReference name =>
    s!"shared parameter '{name}' must not itself be a reference"
  | undefinedParameter r p => s!"parameter reference '{r}' at '{p}' names no shared parameter"
  | unsupportedParameterReference r p => s!"unsupported parameter reference '{r}' at '{p}'"
  | parameterWithoutName p => s!"parameter at '{p}' has no name"
  | unsupportedLocation parameter location =>
    let found := location.getD "<none>"
    s!"parameter '{parameter}' has unsupported location '{found}'"
  | bodyWithoutSchema parameter => s!"body parameter '{parameter}' has no schema"
  | parameterWithoutType parameter location =>
    s!"{location} parameter '{parameter}' declares no type"
  | unsupportedCollectionFormat parameter given =>
    s!"parameter '{parameter}' has unsupported collectionFormat '{given}'"
  | invalidBaseUrl url reason => s!"base URL '{url}' is invalid: {reason}"
  | dependsOnFailure => "schema depends on a definition that failed to resolve"

end SchemaFault

def DiscriminatorFault.message : DiscriminatorFault → String
  | undeclared property type =>
    s!"discriminator property '{property}' is not declared on '{type}' or its ancestors"
  | notText property type =>
    s!"discriminator property '{property}' must be a string, found {type}"
  | repeatedValue value first second =>
    s!"discriminator value '{value}' is used by both '{first}' and '{second}'"

def PropertyFault.message : PropertyFault → String
  | redeclared property first second =>
    s!"property '{property}' is declared twice with different types ({first} and {second})"
  | overridden property type ancestor inherited inheritedType =>
    s!"property '{property}' of type {type} overrides '{ancestor}.{inherited}' " ++
      s!"of incompatible type {inheritedType}"

namespace Defect

def kind : Defect → DefectKind
  | schema .. => .schema
  | enumConflict .. => .enumConflict
  | cycle .. => .cycle
  | discriminator .. => .discriminator
  | propertyConflict .. => .propertyConflict

/-- What a defect is about: a definition, an operation, or the name of an enum. -/
def definition : Defect → String
  | schema definition _ => definition
  | enumConflict name _ _ => name
  | cycle definition _ => definition
  | discriminator definition _ => definition
  | propertyConflict definition _ => definition

def message : Defect → String
  | schema definition fault => s!"SchemaError in '{definition}': {fault.message}"
  | enumConflict name first second =>
    s!"EnumConflictError for enum '{name}': values declared at '{first}' " ++
      s!"differ from '{second}'"
  | cycle definition chain =>
    s!"CycleError in '{definition}': inheritance chain " ++ String.intercalate " -> " chain
  | discriminator definition fault =>
    s!"DiscriminatorError in '{definition}': {fault.message}"
  | propertyConflict definition fault =>
    s!"PropertyConflictError in '{definition}': {fault.message}"

def heading (defects : List Defect) : String :=
  s!"resolution failed with {defects.length} error(s)"

def report (defects : List Defect) : String :=
  String.join (heading defects :: defects.map fun d => "\n  - " ++ d.message)

end Defect

end ApiModel
