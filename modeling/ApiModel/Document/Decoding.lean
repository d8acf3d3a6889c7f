import ApiModel.Json.Reader
import ApiModel.Yaml.CoreSchema

/-! # Decoding documents

Documents are written in JSON or YAML. The ending of a name tells which; under any other name a
text is tried as JSON first and then as YAML.
-/

namespace ApiModel

inductive Notation where
  | json
  | yaml
  deriving DecidableEq, Repr

namespace Notation

def ofName? (name : String) : Option Notation :=
  if name.endsWith ".json" then some .json
  else if name.endsWith ".yaml" || name.endsWith ".yml" then some .yaml
  else none

def decode? : Notation → String → Option Json
  | json, text => Json.parse? text
  | yaml, text => (Yaml.Value.parse? text).bind Yaml.Value.json?

end Notation

/-- Why a text could not be decoded: it is not of the announced notation, or of neither one. -/
inductive DecodingFault where
  | wrong (announced : Notation)
  | neither
  deriving DecidableEq, Repr

def decode (name text : String) : Except DecodingFault Json :=
  match Notation.ofName? name with
  | some announced =>
    match announced.decode? text with
    | some value => .ok value
    | none => .error (.wrong announced)
  | none =>
    match Notation.json.decode? text with
    | some value => .ok value
    | none =>
      match Notation.yaml.decode? text with
      | some value => .ok value
      | none => .error .neither

end ApiModel
