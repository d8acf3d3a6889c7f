import ApiModel.Fields
import ApiModel.Number.Double

/-! # JSON values

Objects keep the order of their members. A number is an integer of at most 64 bits or a double;
the two are told apart even where they are equal.
-/

namespace ApiModel

inductive Number where
  | int (value : Int)
  | double (value : Double)
  deriving DecidableEq, Repr

def Number.toDouble : Number → Double
  | .int n => (Double.ofInt? n).getD .zero
  | .double d => d

inductive Json where
  | null
  | bool (value : Bool)
  | num (value : Number)
  | str (value : String)
  | arr (items : List Json)
  | obj (members : List (String × Json))
  deriving Repr

namespace Json

instance : Inhabited Json := ⟨.null⟩

def ofNat (n : Nat) : Json := .num (.int n)

def ofDouble (d : Double) : Json := .num (.double d)

def get? (key : String) : Json → Option Json
  | .obj members => Fields.get? members key
  | _ => none

def str? : Json → Option String
  | .str s => some s
  | _ => none

def ofOption {α : Type} (f : α → Json) : Option α → Json
  | none => .null
  | some a => f a

def strings (texts : List String) : Json := .arr (texts.map .str)

end Json

end ApiModel
