/-! # Scalar kinds

The kinds of values without parts, and the table that assigns a kind to a schema's type and
format. A type has a kind of its own that stands in where the format is absent.
-/

namespace ApiModel

inductive Scalar where
  | boolean | int | long | float | double | decimal | string | char | byteArray | base64Url
  | date | dateTime | dateTimeRfc1123 | timeSpan | uuid | unixTime | stream | object
  deriving DecidableEq, Repr

namespace Scalar

def name : Scalar → String
  | boolean => "boolean"
  | int => "int"
  | long => "long"
  | float => "float"
  | double => "double"
  | decimal => "decimal"
  | string => "string"
  | char => "char"
  | byteArray => "byteArray"
  | base64Url => "base64Url"
  | date => "date"
  | dateTime => "dateTime"
  | dateTimeRfc1123 => "dateTimeRfc1123"
  | timeSpan => "timeSpan"
  | uuid => "uuid"
  | unixTime => "unixTime"
  | stream => "stream"
  | object => "object"

/-- Whether values of the kind are JSON strings that a discriminator may hold. -/
def isTextual (s : Scalar) : Bool := s = string || s = char

def ofType? : String → Option Scalar
  | "boolean" => some boolean
  | "integer" => some int
  | "number" => some double
  | "string" => some string
  | "file" => some stream
  | "object" => some object
  | _ => none

def ofFormat? : String → String → Option Scalar
  | "integer", "int32" => some int
  | "integer", "int64" => some long
  | "integer", "unixtime" => some unixTime
  | "number", "double" => some double
  | "number", "float" => some float
  | "number", "decimal" => some decimal
  | "string", "password" => some string
  | "string", "char" => some char
  | "string", "byte" => some byteArray
  | "string", "base64url" => some base64Url
  | "string", "binary" => some stream
  | "string", "date" => some date
  | "string", "date-time" => some dateTime
  | "string", "date-time-rfc1123" => some dateTimeRfc1123
  | "string", "duration" => some timeSpan
  | "string", "uuid" => some uuid
  | _, _ => none

inductive Unknown where
  | type (name : String)
  | format (typeName format : String) (fallback : Scalar)
  deriving DecidableEq, Repr

def Unknown.message : Unknown → String
  | .type name => s!"unsupported type '{name}'"
  | .format typeName given _ => s!"unsupported format '{given}' for type '{typeName}'"

/-- The kind of a schema without parts. Without type and format it is an opaque object. -/
def find (typeName format : Option String) : Except Unknown Scalar :=
  match typeName, format with
  | none, none => .ok object
  | none, some format => .error (.type s!"<none> with format '{format}'")
  | some typeName, format =>
    match ofType? typeName with
    | none => .error (.type typeName)
    | some fallback =>
      match format with
      | none => .ok fallback
      | some format =>
        match ofFormat? typeName format with
        | some kind => .ok kind
        | none => .error (.format typeName format fallback)

end Scalar

end ApiModel
