import ApiModel.Resolution.Hierarchy
import ApiModel.Resolution.Operation

/-! # Building a model

A whole run over a document: its definitions, then its operations, then the hierarchies, then the
base URL. The model is complete, or there is none and every defect is reported.
-/

namespace ApiModel

open Resolution

namespace Build

/-- Why there is no model: defects of the document, or a run that did not finish. -/
inductive Failure where
  | defects (found : List Defect)
  | unfinished

structure Outcome where
  result : Except Failure ClientModel
  log : List LogEntry

def clientName (context : Context) : String :=
  match context.settings.clientName with
  | some name => name
  | none =>
    let name := Naming.properCase context.document.info.title
    if name.isEmpty then "Client" else name

/-- Scheme, host and base path; the first declared scheme is preferred. -/
def baseUrlText (document : Document) (host : String) : String :=
  document.schemes.headD "https" ++ "://" ++ host ++ document.basePath.getD ""

def baseUrl (context : Context) : Except Defect (Option String) :=
  match context.document.host with
  | none => .ok none
  | some host =>
    let url := baseUrlText context.document host
    match context.grammars.urlFault? url with
    | none => .ok (some url)
    | some reason => .error (.schema "host" (.invalidBaseUrl url reason))

def malformedDefects (document : Document) : List Defect :=
  document.malformed.map fun m => .schema m.1 (.malformedDefinition m.2)

def reportMalformed (document : Document) : Step Unit :=
  (malformedDefects document).forM fun d => report d

def resolveAll (context : Context) (resolve : Site → Run (Option ModelType)) :
    Run (List Method) := do
  reportMalformed context.document
  resolveDefinitions context resolve (context.document.definitions.map Prod.fst)
  buildMethods context resolve (operationsOf context.document)

def conclude (context : Context) (methods : List Method) (state : State) : Outcome :=
  let found := state.defects ++ Hierarchy.defects state.catalog
  let url := baseUrl context
  let found := match url with
    | .ok _ => found
    | .error d => found ++ [d]
  let name := clientName context
  if found.isEmpty then
    let catalog := Hierarchy.settled state.catalog
    { result := .ok
        { name, catalog, methods
          apiVersion := context.document.info.version
          baseUrl := (url.toOption).join
          description := context.document.info.description }
      log := state.log ++ [⟨.info, s!"Resolved '{name}': {catalog.composites.length} " ++
        s!"composite types, {catalog.enums.length} enums, {methods.length} methods"⟩] }
  else
    { result := .error (.defects found)
      log := state.log ++
        [⟨.warning, s!"Resolution of '{name}' failed with {found.length} error(s)"⟩] }

def run (context : Context) : Outcome :=
  match (resolveAll context (resolveSite context)).run {} with
  | some (methods, state) => conclude context methods state
  | none => ⟨.error .unfinished, []⟩

end Build

end ApiModel
