import ApiModel.Json.Printer
import ApiModel.Text.Quoted

/-! # Mismatches

Why a JSON value could not be read as a part of a document: it is of the wrong kind, a negative
number where a count belongs, or a list of the wrong length where a record is written as a list.
-/

namespace ApiModel

/-- What a place in a document asks for. -/
inductive Expected where
  | text
  | boolean
  | list
  | record
  | count
  | double
  /-- A part of the document with named members. -/
  | part (name : String)
  deriving DecidableEq, Repr

def Expected.message : Expected → String
  | .text => "a string"
  | .boolean => "a boolean"
  | .list => "a sequence"
  | .record => "a map"
  | .count => "u64"
  | .double => "f64"
  | .part name => "struct " ++ name

inductive Mismatch where
  | kind (found : Json) (expected : Expected)
  | negative (found : Int)
  | tooFew (count : Nat) (part : String) (size : Nat)
  | tooMany (count : Nat)
  deriving Repr

namespace Mismatch

def describe : Json → String
  | .null => "null"
  | .bool b => "boolean \x60" ++ (if b then "true" else "false") ++ "\x60"
  | .num (.int n) => "integer \x60" ++ toString n ++ "\x60"
  | .num (.double d) => "floating point \x60" ++ d.text ++ "\x60"
  | .str s => "string " ++ Text.quoted s
  | .arr _ => "sequence"
  | .obj _ => "map"

def message : Mismatch → String
  | .kind found expected => "invalid type: " ++ describe found ++ ", expected " ++ expected.message
  | .negative n => "invalid value: integer \x60" ++ toString n ++ "\x60, expected u64"
  | .tooFew count part size =>
    "invalid length " ++ toString count ++ ", expected struct " ++ part ++ " with " ++
      toString size ++ " elements"
  | .tooMany count =>
    "invalid length " ++ toString count ++ ", expected fewer elements in array"

end Mismatch

end ApiModel
