import ApiModel.Model.Client
import ApiModel.Resolution.Resolver

/-! # Operations

Operations become methods. The parameters of a path and of its operation are merged by name and
location, shared ones dereferenced; bodies and responses are resolved like any schema.
-/

namespace ApiModel.Resolution

/-- The halves of an operation id around its first underscore, if neither is empty. -/
def splitOperationId (id : String) : Option String × String :=
  let group := id.toList.takeWhile (· ≠ '_')
  match group, id.toList.dropWhile (· ≠ '_') with
  | _ :: _, _ :: c :: rest => (some (String.ofList group), String.ofList (c :: rest))
  | _, _ => (none, id)

structure Declared where
  node : ParameterNode
  pointer : Pointer

def listedAt (pointer : Pointer) (nodes : List ParameterNode) : List Declared :=
  nodes.zipIdx.map fun p => ⟨p.1, (pointer.child "parameters").item p.2⟩

def dereference (document : Document) (d : Declared) : Except SchemaFault Declared :=
  match d.node.reference with
  | none => .ok d
  | some reference =>
    match Reference.parse? reference with
    | some ⟨.parameters, name⟩ =>
      match Fields.get? document.parameters name with
      | some shared =>
        if shared.reference.isNone then .ok ⟨shared, d.pointer⟩
        else .error (.sharedParameterIsReference name)
      | none => .error (.undefinedParameter reference d.pointer)
    | _ => .error (.unsupportedParameterReference reference d.pointer)

def Declared.key (d : Declared) : Option String × Option String := (d.node.name, d.node.location)

def putParameter : List Declared → Declared → List Declared
  | [], d => [d]
  | e :: rest, d => if e.key = d.key then d :: rest else e :: putParameter rest d

/-- The dereferenced parameters, merged. A reference to nothing is a defect and left out. -/
def mergeParameters (document : Document) (owner : String) (declared : List Declared) :
    Step (List Declared) :=
  declared.foldlM (fun merged d =>
    match dereference document d with
    | .ok d => return putParameter merged d
    | .error fault => do
      report (.schema owner fault)
      return merged) []

def valueSchema (d : Declared) (name : String) (location : Location) :
    Except SchemaFault (Schema × Pointer) :=
  if location = .body then
    match d.node.schema with
    | some schema => .ok (schema, d.pointer.child "schema")
    | none => .error (.bodyWithoutSchema name)
  else if d.node.typeName.isSome then .ok (d.node.asSchema, d.pointer)
  else .error (.parameterWithoutType name location.name)

def collectionFormatOf (d : Declared) (name : String) (location : Location) :
    Except SchemaFault (Option CollectionFormat) :=
  if location = .body then .ok none else
  match d.node.collectionFormat with
  | none => .ok none
  | some format =>
    match CollectionFormat.ofName? format with
    | some f => .ok (some f)
    | none => .error (.unsupportedCollectionFormat name format)

def buildParameter (context : Context) (resolve : Site → Run (Option ModelType))
    (owner typePrefix : String) (d : Declared) : Run (Option Parameter) := do
  match d.node.name with
  | none => fail (.schema owner (.parameterWithoutName d.pointer))
  | some name =>
    match d.node.location.bind Location.ofName? with
    | none => fail (.schema owner (.unsupportedLocation name d.node.location))
    | some location =>
      match valueSchema d name location with
      | .error fault => fail (.schema owner fault)
      | .ok (schema, pointer) =>
        match ← resolve ⟨schema, Naming.nested typePrefix name, pointer, owner⟩ with
        | none => return none
        | some type =>
          match ← constraints context.grammars schema.facets pointer owner with
          | none => return none
          | some constraints =>
            match collectionFormatOf d name location with
            | .error fault => fail (.schema owner fault)
            | .ok collectionFormat =>
              return some
                { name, location, type, constraints, collectionFormat
                  required := d.node.required || location = .path
                  description := d.node.description
                  defaultValue := d.node.defaultValue }

def buildParameters (context : Context) (resolve : Site → Run (Option ModelType))
    (owner typePrefix : String) (merged : List Declared) : Run (List Parameter) :=
  merged.foldlM (fun parameters d => do
    let parameter ← buildParameter context resolve owner typePrefix d
    return parameters ++ parameter.toList) []

/-- The responses built so far, and how many inline bodies they have. -/
structure Responses where
  byStatus : List (String × Response) := []
  otherwise : Option Response := none
  inlineBodies : Nat := 0

/-- The name of the type of a response body. Only the first inline body goes without its status. -/
def bodyName (typePrefix status : String) (schema : Schema) (inlineBodies : Nat) : String :=
  if schema.reference.isSome || inlineBodies = 0 then Naming.nested typePrefix "Response"
  else Naming.nested typePrefix ("Response_" ++ status)

def Responses.add (r : Responses) (status : String) (response : Response) : Responses :=
  if status = "default" then { r with otherwise := some response }
  else { r with byStatus := Fields.set r.byStatus status response }

/-- Adds a response. One whose body cannot be resolved is left out. -/
def addResponse (resolve : Site → Run (Option ModelType)) (owner typePrefix : String)
    (pointer : Pointer) (r : Responses) (status : String) (node : ResponseNode) :
    Run Responses := do
  match node.schema with
  | none => return r.add status ⟨node.description, none⟩
  | some schema =>
    let name := bodyName typePrefix status schema r.inlineBodies
    let r := if schema.reference.isNone then { r with inlineBodies := r.inlineBodies + 1 } else r
    let pointer := ((pointer.child "responses").child status).child "schema"
    match ← resolve ⟨schema, name, pointer, owner⟩ with
    | none => return r
    | some body => return r.add status ⟨node.description, some body⟩

def buildResponses (resolve : Site → Run (Option ModelType)) (owner typePrefix : String)
    (pointer : Pointer) (nodes : List (String × ResponseNode)) : Run Responses :=
  nodes.foldlM (fun r n => addResponse resolve owner typePrefix pointer r n.1 n.2) {}

structure Operation where
  path : String
  item : PathItem
  method : HttpMethod
  node : OperationNode

namespace Operation

def pointer (o : Operation) : Pointer := (Pointer.path o.path).child o.method.name

def declared (o : Operation) : List Declared :=
  listedAt (Pointer.path o.path) o.item.parameters ++ listedAt o.pointer o.node.parameters

end Operation

def buildSelected (context : Context) (resolve : Site → Run (Option ModelType)) (o : Operation)
    (id : String) : Run Method := do
  let (group, name) := splitOperationId id
  let typePrefix := Naming.properCase id
  let merged ← mergeParameters context.document id o.declared
  let parameters ← buildParameters context resolve id typePrefix merged
  let responses ← buildResponses resolve id typePrefix o.pointer o.node.responses
  return {
    operationId := id, group, name, httpMethod := o.method, url := o.path
    summary := o.node.summary
    description := o.node.description
    deprecated := o.node.deprecated
    consumes := o.node.consumes.getD context.document.consumes
    produces := o.node.produces.getD context.document.produces
    parameters
    responses := responses.byStatus
    defaultResponse := responses.otherwise }

def buildMethod (context : Context) (resolve : Site → Run (Option ModelType)) (o : Operation) :
    Run (Option Method) := do
  match o.node.operationId with
  | none =>
    fail (.schema (o.method.name.toUpper ++ " " ++ o.path) (.noOperationId o.pointer))
  | some id =>
    if context.settings.includes id then return some (← buildSelected context resolve o id)
    else return none

def operationsOf (document : Document) : List Operation :=
  document.paths.flatMap fun p => p.2.operations.map fun o => ⟨p.1, p.2, o.1, o.2⟩

def buildMethods (context : Context) (resolve : Site → Run (Option ModelType))
    (operations : List Operation) : Run (List Method) :=
  operations.foldlM (fun methods o => do
    let method ← buildMethod context resolve o
    return methods ++ method.toList) []

end ApiModel.Resolution
