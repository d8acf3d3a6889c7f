import ApiModel.Resolution.Composite

/-! # Definitions

A definition is resolved once; later references get the remembered type. An object type is
remembered as a stub before its members are resolved, so its members may refer back to it. Any
other definition may come round to itself only through an object type.
-/

namespace ApiModel

open Text (caseKey)

namespace Document

/-- The definition of exactly this name, else the first whose name differs in case only. -/
def definition? (d : Document) (name : String) : Option (String × Schema) :=
  match Fields.get? d.definitions name with
  | some s => some (name, s)
  | none => d.definitions.find? fun p => caseKey p.1 == caseKey name

def isMalformed (d : Document) (name : String) : Bool :=
  d.malformed.any fun p => caseKey p.1 == caseKey name

end Document

namespace Resolution

/-- A composite stub under a name. A name that another node has taken is a defect. -/
def registerComposite (name : String) (pointer : Pointer) :
    Step (Option (Interned CompositeId)) := do
  let origin := pointer.text
  let interned ← modifyGet fun s =>
    let (interned, catalog) := s.catalog.internComposite name fun _ => .stub name origin
    (interned, { s with catalog := catalog })
  if interned.created then return some interned
  else
    let existing := ((← get).catalog.composite? interned.id).elim "" (·.origin)
    if existing = origin then return some interned
    else fail (.schema name (.nameClash name origin existing))

def buildInline (context : Context) (resolve : Site → Run (Option ModelType)) (site : Site) :
    Run (Option ModelType) := do
  match ← registerComposite site.name site.pointer with
  | none => return none
  | some interned =>
    if interned.created then populate context resolve interned.id site.schema site.pointer
    return some (.composite interned.id)

/-- Whether a definition comes round to itself without a composite in between. -/
def comesRound (frames : List Frame) (key : String) : Bool :=
  frames.contains (.definition key) &&
    !(frames.takeWhile (· != .definition key)).contains .composite

def buildDefined (context : Context) (resolve : Site → Run (Option ModelType)) (name : String)
    (s : Schema) : Run (Option ModelType) := do
  let key := caseKey name
  let pointer := Pointer.definition name
  match ← registerComposite name pointer with
  | none =>
    markFailed key
    return none
  | some interned =>
    let type := ModelType.composite interned.id
    remember key type
    if interned.created then populate context resolve interned.id s pointer
    return some type

def buildAliased (resolve : Site → Run (Option ModelType)) (name : String) (s : Schema) :
    Run (Option ModelType) := do
  let key := caseKey name
  if comesRound (← get).frames key then
    markFailed key
    fail (.schema name (.selfReference name))
  else
    push (.definition key)
    let type ← resolve ⟨s, name, Pointer.definition name, name⟩
    pop
    match type with
    | some type => remember key type
    | none => markFailed key
    return type

/-- Whether the case key of a definition is free or its own; it is claimed then. -/
def claimKey (name : String) : Step Bool := do
  let key := caseKey name
  match Fields.get? (← get).claimed key with
  | some first =>
    if first = name then return true
    else
      report (.schema name (.caseClash name first))
      return false
  | none =>
    claim key name
    return true

def resolveClaimed (context : Context) (resolve : Site → Run (Option ModelType)) (name : String)
    (s : Schema) : Run (Option ModelType) := do
  let state ← get
  let key := caseKey name
  match Fields.get? state.resolved key with
  | some type => return some type
  | none =>
    if state.failed.contains key then return none
    else if s.isComposite then buildDefined context resolve name s
    else buildAliased resolve name s

/-- The type of a definition, referred to at `pointer` by `owner`. A malformed definition has no
type, and its defect is recorded elsewhere. -/
def resolveDefinition (context : Context) (resolve : Site → Run (Option ModelType))
    (name : String) (pointer : Pointer) (owner : String) : Run (Option ModelType) := do
  match context.document.definition? name with
  | none =>
    if context.document.isMalformed name then return none
    else fail (.schema owner (.undefinedDefinition name pointer))
  | some (canonical, s) =>
    if !(← claimKey canonical) then return none
    else resolveClaimed context resolve canonical s

end Resolution

end ApiModel
