import ApiModel.Reference
import ApiModel.Model.Compatibility
import ApiModel.Text.Naming
import ApiModel.Resolution.Constraint
import ApiModel.Resolution.Route

/-! # Composites

What an object schema declares, and how a registered stub is filled in with it: properties of its
own and of the inline parts of its `allOf`, and one base type, the first part that is a reference.
-/

namespace ApiModel

/-- A property as declared, before it is resolved. -/
structure Member where
  name : String
  schema : Schema
  pointer : Pointer

/-- A part of an `allOf` that refers to another type. -/
structure BasePart where
  reference : String
  schema : Schema
  pointer : Pointer

namespace Schema

def members (s : Schema) (pointer : Pointer) : List Member :=
  s.properties.map fun p => ⟨p.1, p.2, (pointer.child "properties").child p.1⟩

def parts (s : Schema) (pointer : Pointer) : List (Schema × Pointer) :=
  s.allOf.zipIdx.map fun p => (p.1, (pointer.child "allOf").item p.2)

/-- The parts that declare something themselves. -/
def inlineParts (s : Schema) (pointer : Pointer) : List (Schema × Pointer) :=
  (s.parts pointer).filter fun p => p.1.reference.isNone

def baseParts (s : Schema) (pointer : Pointer) : List BasePart :=
  (s.parts pointer).filterMap fun p => p.1.reference.map fun r => ⟨r, p.1, p.2⟩

def declaredMembers (s : Schema) (pointer : Pointer) : List Member :=
  s.members pointer ++ (s.inlineParts pointer).flatMap fun p => p.1.members p.2

def declaredRequired (s : Schema) (pointer : Pointer) : List String :=
  s.required ++ (s.inlineParts pointer).flatMap fun p => p.1.required

/-- The first discriminator that the schema or one of its inline parts declares. -/
def declaredDiscriminator (s : Schema) (pointer : Pointer) : Option String :=
  s.discriminator.or ((s.inlineParts pointer).findSome? fun p => p.1.discriminator)

def listsOneValue (s : Schema) : Bool :=
  s.enumeration.any (·.length == 1)

end Schema

namespace Resolution

/-- Whether a schema, or the definition it refers to by its exact name, lists exactly one value. -/
def allowsOneValue (document : Document) (s : Schema) : Bool :=
  s.listsOneValue ||
    match s.reference.bind Reference.parse? with
    | some ⟨.definitions, name⟩ =>
      (Fields.get? document.definitions name).any Schema.listsOneValue
    | _ => false

/-- The base a resolved reference stands for; a type that is no composite is a defect. -/
def baseOf (name : String) (part : BasePart) : Option ModelType → Step (Option CompositeId)
  | some (.composite id) => return some id
  | some (.scalar .object) => fail (.schema name (.emptyBase part.reference part.pointer))
  | some _ => fail (.schema name (.baseNotObject part.reference part.pointer))
  | none => return none

def reportSecondBases (name : String) (parts : List BasePart) : Step Unit :=
  parts.forM fun part => report (.schema name (.secondBase part.reference part.pointer))

/-- The first base part becomes the base, any other is a defect. -/
def resolveBase (resolve : Site → Run (Option ModelType)) (name : String) :
    List BasePart → Run (Option CompositeId)
  | [] => return none
  | part :: others => do
    let type ← resolve ⟨part.schema, name, part.pointer, name⟩
    let base ← baseOf name part type
    reportSecondBases name others
    return base

/-- A member with its type and constraints, or nothing where either has a defect. -/
def resolveMember (context : Context) (resolve : Site → Run (Option ModelType)) (owner : String)
    (required : List String) (m : Member) : Run (Option Property) := do
  match ← resolve ⟨m.schema, Naming.nested owner m.name, m.pointer, owner⟩ with
  | none => return none
  | some type =>
    match ← constraints context.grammars m.schema.facets m.pointer owner with
    | none => return none
    | some constraints =>
      let isRequired := required.contains m.name
      return some
        { name := m.name, type, required := isRequired
          readOnly := m.schema.readOnly.getD false
          constant := isRequired && allowsOneValue context.document m.schema
          description := m.schema.description
          defaultValue := m.schema.defaultValue
          constraints }

/-- Adds a property. One that is declared already is dropped; it is a defect if its type differs. -/
def addProperty (owner : String) (properties : List Property) (p : Property) :
    Step (List Property) := do
  match properties.find? (·.name == p.name) with
  | none => return properties ++ [p]
  | some existing =>
    let catalog := (← get).catalog
    if !catalog.compatible existing.type p.type then
      report (.propertyConflict owner
        (.redeclared p.name (catalog.describe existing.type) (catalog.describe p.type)))
    return properties

def resolveMembers (context : Context) (resolve : Site → Run (Option ModelType)) (owner : String)
    (required : List String) (members : List Member) : Run (List Property) :=
  members.foldlM (fun properties m => do
    match ← resolveMember context resolve owner required m with
    | none => return properties
    | some p => addProperty owner properties p) []

/-- Required names without a member are only worth a warning. -/
def warnUndeclared (owner : String) (members : List Member) (required : List String) : Step Unit :=
  (required.filter fun name => !members.any (·.name == name)).forM fun name =>
    warn s!"Required property '{name}' of '{owner}' is not declared; ignoring it"

/-- The value of the discriminator extension, or the name of the type. -/
def discriminatorValue (settings : Settings) (owner : String) (s : Schema) : Step String := do
  let extension := settings.discriminatorValueExtension
  match s.extension? extension with
  | none => return owner
  | some (.str value) => return value
  | some other =>
    report (.schema owner (.discriminatorValueNotText extension other))
    return owner

/-- Fills in the stub `id` with what `s` declares. -/
def populate (context : Context) (resolve : Site → Run (Option ModelType)) (id : CompositeId)
    (s : Schema) (pointer : Pointer) : Run Unit := do
  push .composite
  let name := (← get).catalog.nameOf id
  let members := s.declaredMembers pointer
  let required := s.declaredRequired pointer
  let base ← resolveBase resolve name (s.baseParts pointer)
  let properties ← resolveMembers context resolve name required members
  warnUndeclared name members required
  let value ← discriminatorValue context.settings name s
  modify fun st => { st with
    catalog := st.catalog.modifyComposite id fun c => { c with
      description := s.description
      properties
      base
      discriminator := s.declaredDiscriminator pointer
      discriminatorValue := value
      progress := .propertiesResolved } }
  pop

end Resolution

end ApiModel
