import ApiModel.Model.Basic
import ApiModel.Text.CaseKey

/-! # Catalogs

A catalog owns the enums and composites of a model, in the order of their registration. Names are
compared by their case keys: a name that is taken yields the entry that took it. Enums without a
name are stored but never found.
-/

namespace ApiModel

structure Catalog where
  composites : List Composite := []
  enums : List EnumType := []
  /-- Case keys of the composites, with what they stand for. -/
  compositeKeys : List (String × CompositeId) := []
  /-- Case keys of the interned enums. -/
  enumKeys : List (String × EnumId) := []

structure Interned (α : Type) where
  id : α
  created : Bool
  deriving DecidableEq, Repr

structure EnumConflict where
  name : String
  existingOrigin : String
  conflictingOrigin : String
  deriving DecidableEq, Repr

namespace Catalog

open Text (caseKey)

def findComposite? (c : Catalog) (name : String) : Option CompositeId :=
  Fields.get? c.compositeKeys (caseKey name)

def findEnum? (c : Catalog) (name : String) : Option EnumId :=
  Fields.get? c.enumKeys (caseKey name)

def composite? (c : Catalog) (id : CompositeId) : Option Composite := c.composites[id.index]?

def enum? (c : Catalog) (id : EnumId) : Option EnumType := c.enums[id.index]?

/-- The composite registered under a name, made by `make` when the name is new. -/
def internComposite (c : Catalog) (name : String) (make : Unit → Composite) :
    Interned CompositeId × Catalog :=
  match c.findComposite? name with
  | some id => (⟨id, false⟩, c)
  | none =>
    let id : CompositeId := ⟨c.composites.length⟩
    (⟨id, true⟩,
      { c with
        composites := c.composites ++ [make ()]
        compositeKeys := c.compositeKeys ++ [(caseKey name, id)] })

def addAnonymousEnum (c : Catalog) (e : EnumType) : EnumId × Catalog :=
  (⟨c.enums.length⟩, { c with enums := c.enums ++ [e] })

/-- Registers an enum under its name. The first registration of a name wins; later ones must
declare the same values in the same order. -/
def internEnum (c : Catalog) (e : EnumType) : Except EnumConflict (Interned EnumId × Catalog) :=
  match e.name with
  | none =>
    let (id, c) := c.addAnonymousEnum e
    .ok (⟨id, true⟩, c)
  | some name =>
    match c.findEnum? name with
    | none =>
      let (id, c) := c.addAnonymousEnum e
      .ok (⟨id, true⟩, { c with enumKeys := c.enumKeys ++ [(caseKey name, id)] })
    | some id =>
      match c.enum? id with
      | none => .ok (⟨id, false⟩, c)
      | some existing =>
        if existing.values = e.values then .ok (⟨id, false⟩, c)
        else .error ⟨existing.name.getD name, existing.origin, e.origin⟩

def modifyComposite (c : Catalog) (id : CompositeId) (f : Composite → Composite) : Catalog :=
  { c with composites := c.composites.modify id.index f }

def compositeIds (c : Catalog) : List CompositeId :=
  (List.range c.composites.length).map CompositeId.mk

/-- The name of a composite; empty for an index that is not in use. -/
def nameOf (c : Catalog) (id : CompositeId) : String :=
  (c.composite? id).elim "" (·.name)

def baseOf? (c : Catalog) (id : CompositeId) : Option CompositeId :=
  (c.composite? id).bind (·.base)

end Catalog

end ApiModel
