import ApiModel.Resolution.Definition
import ApiModel.Resolution.Enumeration

/-! # Resolving schemas

The type of a schema at its site. One step looks at the schema alone and leaves schemas below it
and references to a resolver; the resolver iterates the step as often as its fuel allows.
-/

namespace ApiModel.Resolution

def resolveReference (context : Context) (resolve : Site → Run (Option ModelType))
    (reference : String) (site : Site) : Run (Option ModelType) :=
  match Reference.parse? reference with
  | some ⟨.definitions, name⟩ => resolveDefinition context resolve name site.pointer site.owner
  | _ => fail (.schema site.owner (.unsupportedReference reference site.pointer))

def buildSequence (resolve : Site → Run (Option ModelType)) (site : Site) :
    Run (Option ModelType) :=
  match site.schema.items with
  | none => fail (.schema site.owner (.arrayWithoutItems site.pointer))
  | some items => do
    let element ← resolve
      ⟨items, Naming.nested site.name "Item", site.pointer.child "items", site.owner⟩
    return element.map .sequence

def buildDictionary (resolve : Site → Run (Option ModelType)) (site : Site) :
    Option Schema → Run (Option ModelType)
  | none => return some (.dictionary (.scalar .object))
  | some schema => do
    let value ← resolve
      ⟨schema, Naming.nested site.name "Value", site.pointer.child "additionalProperties",
        site.owner⟩
    return value.map .dictionary

/-- An unknown format is a defect, or worth a warning where the settings allow it. -/
def buildScalar (settings : Settings) (site : Site) : Step (Option ModelType) :=
  match Scalar.find site.schema.typeName site.schema.format with
  | .ok kind => return some (.scalar kind)
  | .error (.format typeName format fallback) =>
    if settings.allowUnknownFormats then do
      warn (s!"Ignoring unsupported format '{format}' for type '{typeName}' " ++
        s!"at '{site.pointer}', using {fallback.name}")
      return some (.scalar fallback)
    else fail (.schema site.owner (.unknownScalar (.format typeName format fallback) site.pointer))
  | .error reason => fail (.schema site.owner (.unknownScalar reason site.pointer))

/-- One step: the type of a schema, given the types of the schemas below it. -/
def resolveStep (context : Context) (resolve : Site → Run (Option ModelType)) (site : Site) :
    Run (Option ModelType) :=
  match site.schema.route with
  | .reference reference => resolveReference context resolve reference site
  | .enumeration listed => buildEnum context.settings site listed
  | .malformed value => fail (.schema site.owner (.malformedAdditional site.pointer value))
  | .array clash => do
    if clash then report (.schema site.owner (.arrayWithAdditional site.pointer))
    buildSequence resolve site
  | .dictionary value => buildDictionary resolve site value
  | .composite => buildInline context resolve site
  | .scalar => buildScalar context.settings site

/-- The type of a schema, nested at most `fuel` schemas deep. -/
def resolve (context : Context) : Nat → Site → Run (Option ModelType)
  | 0, _ => fun _ => none
  | fuel + 1, site => resolveStep context (resolve context fuel) site

/-- A bound for how deep the schemas of a document and one more can nest in a resolution. Each
object type is entered once, and between two of them each definition at most once. -/
def fuelFor (document : Document) (s : Schema) : Nat :=
  Nat.pow (Schema.propertySize document.definitions + s.size + 2) 3

def resolveSite (context : Context) (site : Site) : Run (Option ModelType) :=
  resolve context (fuelFor context.document site.schema) site

def resolveTop (context : Context) (resolve : Site → Run (Option ModelType)) (name : String) :
    Run (Option ModelType) :=
  resolveDefinition context resolve name (Pointer.definition name) name

def resolveDefinitions (context : Context) (resolve : Site → Run (Option ModelType))
    (names : List String) : Run Unit :=
  names.forM fun name => do
    let _ ← resolveTop context resolve name

/-- The type of a schema outside of any definition, or the defects found on the way. They are
taken out of the state, which can serve further schemas. -/
def resolveSchema (context : Context) (s : Schema) (name : String) :
    Run (Except (List Defect) ModelType) := do
  let type ← resolveSite context ⟨s, name, ⟨[name]⟩, name⟩
  let defects ← modifyGet fun st => (st.defects, { st with defects := [] })
  match type, defects with
  | some type, [] => return .ok type
  | none, [] => return .error [.schema name .dependsOnFailure]
  | _, defects => return .error defects

end ApiModel.Resolution
