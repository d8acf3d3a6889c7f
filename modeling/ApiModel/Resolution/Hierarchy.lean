import ApiModel.Model.Compatibility
import ApiModel.Resolution.Defect

/-! # Hierarchies

Once every composite has its properties, the base links are followed. A chain of bases either ends
or runs into a cycle; each cycle is one defect. Composites whose chain ends learn their
descendants, and their discriminators and redeclared properties are checked.
-/

namespace ApiModel.Hierarchy

variable (c : Catalog)

/-- The ancestors of a composite, nearest first, if its chain ends within `n` links. -/
def chain? : Nat → CompositeId → Option (List CompositeId)
  | n, id =>
    match c.baseOf? id with
    | none => some []
    | some base =>
      match n with
      | 0 => none
      | n + 1 => (chain? n base).map (base :: ·)

def ancestors? (id : CompositeId) : Option (List CompositeId) :=
  chain? c c.composites.length id

/-- What a walk along the bases of a composite has shown: its chain ends, or it runs into a
cycle. -/
inductive Walk where
  | pending
  | acyclic
  | broken
  deriving DecidableEq, Repr

/-- What some walks have shown: how each composite fares, and the cycles they came upon, each in
base order from where a walk met it. -/
structure Survey where
  status : List Walk
  cycles : List (List CompositeId)

namespace Survey

variable (s : Survey)

def outcome (id : CompositeId) : Walk := s.status.getD id.index .pending

def mark (path : List CompositeId) (outcome : Walk) : Survey :=
  { s with status := path.foldl (fun status id => status.set id.index outcome) s.status }

/-- The walk stands at `id`; `path` holds what it has passed, last first. It stops where the chain
ends, where an earlier walk has been, and where it has been itself. -/
def walkFrom : Nat → List CompositeId → CompositeId → Survey
  | 0, _, _ => s
  | n + 1, path, id =>
    match c.baseOf? id with
    | none => s.mark (id :: path) .acyclic
    | some base =>
      match s.outcome base with
      | .acyclic => s.mark (id :: path) .acyclic
      | .broken => s.mark (id :: path) .broken
      | .pending =>
        if base ∈ id :: path then
          let s := s.mark (id :: path) .broken
          { s with cycles := s.cycles ++ [(id :: path).reverse.dropWhile (· != base)] }
        else walkFrom n (id :: path) base

def walk (id : CompositeId) : Survey :=
  match s.outcome id with
  | .pending => s.walkFrom c (c.composites.length + 1) [] id
  | _ => s

end Survey

def survey : Survey :=
  c.compositeIds.foldl (Survey.walk c) ⟨List.replicate c.composites.length .pending, []⟩

/-- Every cycle once, as the first composite meets it whose chain runs into it. -/
def cycles : List (List CompositeId) := (survey c).cycles

def cycleDefect (cycle : List CompositeId) : Defect :=
  let entry := (cycle.head?.map c.nameOf).getD ""
  .cycle entry (cycle.map c.nameOf ++ [entry])

def chains : List (CompositeId × List CompositeId) :=
  let survey := survey c
  (c.compositeIds.filter fun id => survey.outcome id == .acyclic).filterMap fun id =>
    (ancestors? c id).map fun ancestors => (id, ancestors)

def descendants (chains : List (CompositeId × List CompositeId)) (id : CompositeId) :
    List CompositeId :=
  (chains.filter fun chain => chain.2.contains id).map Prod.fst

def nearest? (name : String) : List CompositeId → Option (CompositeId × Property)
  | [] => none
  | id :: rest =>
    match (c.composite? id).bind (·.property? name) with
    | some p => some (id, p)
    | none => nearest? name rest

/-- A property that redeclares an inherited one with an incompatible type. -/
def overrideDefect? (owner : String) (ancestors : List CompositeId) (p : Property) :
    Option Defect :=
  match nearest? c p.name ancestors with
  | none => none
  | some (ancestor, inherited) =>
    if c.compatible inherited.type p.type then none
    else some (.propertyConflict owner (.overridden p.name (c.describe p.type)
      (c.nameOf ancestor) inherited.name (c.describe inherited.type)))

def overrideDefects : List Defect :=
  (chains c).flatMap fun (id, ancestors) =>
    match c.composite? id with
    | none => []
    | some composite =>
      composite.properties.filterMap (overrideDefect? c composite.name ancestors)

def isTextual : ModelType → Bool
  | .scalar kind => kind.isTextual
  | .enum _ => true
  | _ => false

def valueOf (id : CompositeId) : String := (c.composite? id).elim "" (·.discriminatorValue)

/-- One defect for each member whose value an earlier one has. `seen` comes latest first. -/
def repeatedValues (root : String) (seen : List CompositeId) : List CompositeId → List Defect
  | [] => []
  | id :: rest =>
    let here := match seen.find? fun other => valueOf c other == valueOf c id with
      | none => []
      | some other => [Defect.discriminator root
          (.repeatedValue (valueOf c id) (c.nameOf other) (c.nameOf id))]
    here ++ repeatedValues root (id :: seen) rest

def discriminatorDefectsOf (chains : List (CompositeId × List CompositeId)) (id : CompositeId)
    (ancestors : List CompositeId) : List Defect :=
  match c.composite? id with
  | none => []
  | some root =>
    match root.discriminator with
    | none => []
    | some property =>
      match nearest? c property (id :: ancestors) with
      | none => [.discriminator root.name (.undeclared property root.name)]
      | some (_, p) =>
        if isTextual p.type then repeatedValues c root.name [] (id :: descendants chains id)
        else [.discriminator root.name (.notText property (c.describe p.type))]

def discriminatorDefects : List Defect :=
  let chains := chains c
  chains.flatMap fun chain => discriminatorDefectsOf c chains chain.1 chain.2

def settle (chains : List (CompositeId × List CompositeId)) (id : CompositeId)
    (composite : Composite) : Composite :=
  { composite with
    derived := descendants chains id
    progress := if chains.any (·.1 == id) then .hierarchyResolved else composite.progress }

def settled : Catalog :=
  let chains := chains c
  { c with composites := c.composites.mapIdx fun i composite => settle chains ⟨i⟩ composite }

def defects : List Defect :=
  (cycles c).map (cycleDefect c) ++ overrideDefects c ++ discriminatorDefects c

end ApiModel.Hierarchy
