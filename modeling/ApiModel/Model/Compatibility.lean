import ApiModel.Model.Catalog

/-! # Compatibility

Two declarations of one property have to agree. Scalars and composites agree when they are equal,
enums when they declare the same values, and containers when their contents do.
-/

namespace ApiModel.Catalog

def sameValues (c : Catalog) (a b : EnumId) : Bool :=
  a == b || match c.enum? a, c.enum? b with
    | some x, some y => x.values == y.values
    | _, _ => false

/-- Whether a property of the one type may be declared again with the other. -/
def compatible (c : Catalog) : ModelType → ModelType → Bool
  | .scalar a, .scalar b => a == b
  | .enum a, .enum b => c.sameValues a b
  | .composite a, .composite b => a == b
  | .sequence a, .sequence b => compatible c a b
  | .dictionary a, .dictionary b => compatible c a b
  | _, _ => false

def describe (c : Catalog) : ModelType → String
  | .scalar kind => kind.name
  | .enum id =>
    match (c.enum? id).bind (·.name) with
    | some name => "enum " ++ name
    | none => "anonymous enum"
  | .sequence element => "array<" ++ describe c element ++ ">"
  | .dictionary value => "map<" ++ describe c value ++ ">"
  | .composite id => c.nameOf id

end ApiModel.Catalog
