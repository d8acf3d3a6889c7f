import ApiModel.Model.Client

/-! # Summaries

How many types and methods a model has, and which of its types root a hierarchy.
-/

namespace ApiModel

structure Summary where
  clientName : String
  compositeTypes : Nat
  enumTypes : Nat
  methods : Nat
  polymorphicRoots : List String
  deriving DecidableEq, Repr

namespace Summary

def ofModel (m : ClientModel) : Summary where
  clientName := m.name
  compositeTypes := m.catalog.composites.length
  enumTypes := m.catalog.enums.length
  methods := m.methods.length
  polymorphicRoots := (m.catalog.composites.filter (·.discriminator.isSome)).map (·.name)

def text (s : Summary) : String :=
  s!"{s.clientName}: {s.compositeTypes} composite types, {s.enumTypes} enums, " ++
    s!"{s.methods} methods" ++
    (if s.polymorphicRoots.isEmpty then ""
     else ", polymorphic roots: " ++ String.intercalate ", " s.polymorphicRoots)

def toJson (s : Summary) : Json :=
  .obj [("clientName", .str s.clientName), ("compositeTypes", .ofNat s.compositeTypes),
    ("enumTypes", .ofNat s.enumTypes), ("methods", .ofNat s.methods),
    ("polymorphicRoots", .strings s.polymorphicRoots)]

end Summary

end ApiModel
