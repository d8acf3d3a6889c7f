import ApiModel.Json.Basic
import ApiModel.Number.Decimal
import ApiModel.Yaml.Value

/-! # The core schema of YAML

What untagged plain scalars mean: null, flags, integers and decimals by their spelling, and texts
otherwise. Quoted and block scalars are texts. A value that uses only these kinds is a JSON value;
infinities and NaN become null.
-/

namespace ApiModel.Yaml

def isNull (text : String) : Bool := ["null", "Null", "NULL", "~"].contains text

def flag? (text : String) : Option Bool :=
  if ["true", "True", "TRUE"].contains text then some true
  else if ["false", "False", "FALSE"].contains text then some false
  else none

/-- Digits after a needless zero; such a run is no number. -/
def isPadded (cs : List Char) : Bool :=
  match (Decimal.splitSign cs).2 with
  | '0' :: rest => !rest.isEmpty && rest.all Char.isDigit
  | _ => false

private def digitValue? (base : Nat) (c : Char) : Option Nat :=
  let n := if c.isDigit then c.toNat - '0'.toNat
    else if c.isAlpha then c.toLower.toNat - 'a'.toNat + 10 else base
  if n < base then some n else none

def digits? (base : Nat) (cs : List Char) : Option Nat :=
  if cs.isEmpty then none
  else cs.foldlM (fun n c => (digitValue? base c).map (n * base + ·)) 0

def marked? : List Char → Option (Nat × List Char)
  | '0' :: 'x' :: rest => some (16, rest)
  | '0' :: 'o' :: rest => some (8, rest)
  | '0' :: 'b' :: rest => some (2, rest)
  | _ => none

/-- An integer of at most 128 bits. -/
def integer? (cs : List Char) : Option Int :=
  let (negative, magnitude) := Decimal.splitSign cs
  let n? := match marked? magnitude with
    | some (base, digits) => digits? base digits
    | none => if isPadded cs then none else digits? 10 magnitude
  n?.bind fun n =>
    if negative then if n ≤ Nat.pow 2 127 then some (-n) else none
    else if n < Nat.pow 2 128 then some n else none

def isStorable (n : Int) : Bool :=
  if n < 0 then n.natAbs ≤ Nat.pow 2 63 else n.natAbs < Nat.pow 2 64

def isNotFinite (text : String) : Bool :=
  [".inf", ".Inf", ".INF", "+.inf", "+.Inf", "+.INF", "-.inf", "-.Inf", "-.INF",
    ".nan", ".NaN", ".NAN"].contains text

def double? (text : String) : Option Double :=
  (Decimal.ofChars? text.toList).bind Decimal.toDouble?

/-- A decimal, or null for what no finite double is. -/
def decimal? (text : String) : Option Json :=
  if isNotFinite text then some .null else (double? text).map .ofDouble

/-- The value of an untagged plain scalar. An integer beyond 64 bits that fits 128 is refused. -/
def plainValue? (text : String) : Option Json :=
  if text.isEmpty || isNull text then some .null
  else
    match flag? text, integer? text.toList with
    | some b, _ => some (.bool b)
    | none, some n => if isStorable n then some (.num (.int n)) else none
    | none, none =>
      if isPadded text.toList then some (.str text) else some ((decimal? text).getD (.str text))

def coreTag (name : String) : String := "tag:yaml.org,2002:" ++ name

/-- Whether a tag is one of the document's own rather than a global one. -/
def isLocalTag (tag : Option String) : Bool :=
  tag.any fun t => t.toList.head? = some '!'

/-- The value of a scalar; its tag decides before its spelling does. -/
def Scalar.json? (s : Scalar) : Option Json :=
  match s.tag with
  | none => if s.style = .plain then plainValue? s.text else some (.str s.text)
  | some tag =>
    if isLocalTag s.tag then none
    else if tag = coreTag "bool" then (flag? s.text).map .bool
    else if tag = coreTag "int" then
      (integer? s.text.toList).bind fun n => if isStorable n then some (.num (.int n)) else none
    else if tag = coreTag "float" then decimal? s.text
    else if tag = coreTag "null" then if isNull s.text then some .null else none
    else some (.str s.text)

/-- The text of a scalar that stands for a name, whatever it would mean as a value. -/
def Value.text? : Value → Option String
  | .scalar s => some s.text
  | _ => none

namespace Value

mutual

def json? : Value → Option Json
  | .scalar s => s.json?
  | .sequence tag items => if isLocalTag tag then none else (jsonItems? items).map .arr
  | .mapping tag members => if isLocalTag tag then none else (jsonMembers? [] members).map .obj

def jsonItems? : List Value → Option (List Json)
  | [] => some []
  | item :: rest => (json? item).bind fun item => (jsonItems? rest).map (item :: ·)

def jsonMembers? (done : List (String × Json)) :
    List (Value × Value) → Option (List (String × Json))
  | [] => some done
  | (key, value) :: rest =>
    key.text?.bind fun key =>
      (json? value).bind fun value => jsonMembers? (Fields.set done key value) rest

end

end Value

end ApiModel.Yaml
