/-! # Settings

What a run can be told: which extensions name enums and discriminator values, whether unknown
formats are tolerated, and which operations belong to the model.
-/

namespace ApiModel

structure Settings where
  /-- Stands in for the name made from the document's title. -/
  clientName : Option String := none
  /-- The extension that turns a string enumeration into a named, closed enum. -/
  enumExtension : String := "x-ms-enum"
  /-- The extension that holds the discriminator value of a derived type. -/
  discriminatorValueExtension : String := "x-ms-discriminator-value"
  allowUnknownFormats : Bool := false
  /-- The operations to model; all of them when empty. -/
  includeOperations : List String := []
  excludeOperations : List String := []
  deriving DecidableEq, Repr

namespace Settings

def includes (s : Settings) (operationId : String) : Bool :=
  (s.includeOperations.isEmpty || s.includeOperations.contains operationId) &&
    !s.excludeOperations.contains operationId

structure BadExtension where
  setting : String
  value : String
  deriving DecidableEq, Repr

def BadExtension.message (b : BadExtension) : String :=
  b.setting ++ " must name a vendor extension starting with 'x-', got '" ++ b.value ++ "'"

/-- Both extension names have to start with `x-`. -/
def check (s : Settings) : Except BadExtension Settings :=
  let wrong := [("enum_extension", s.enumExtension),
    ("discriminator_value_extension", s.discriminatorValueExtension)].find?
      fun setting => setting.2.toList.take 2 ≠ ['x', '-']
  match wrong with
  | some (setting, value) => .error ⟨setting, value⟩
  | none => .ok s

end Settings

end ApiModel
