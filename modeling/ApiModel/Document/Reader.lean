import ApiModel.Document.Basic
import ApiModel.Log

/-! # Reading documents

Members are read in the order in which they are written, and the first that does not fit decides
the mismatch. `null` stands for an absent optional keyword and fits no other. Members that are
neither keywords nor extensions are left out.
-/

namespace ApiModel

namespace Json

def readText : Json → Except Mismatch String
  | .str s => .ok s
  | found => .error (.kind found .text)

def readBool : Json → Except Mismatch Bool
  | .bool b => .ok b
  | found => .error (.kind found .boolean)

def readCount : Json → Except Mismatch Nat
  | .num (.int n) => if 0 ≤ n then .ok n.toNat else .error (.negative n)
  | found => .error (.kind found .count)

def readDouble : Json → Except Mismatch Double
  | .num n => .ok n.toDouble
  | found => .error (.kind found .double)

def readList {α : Type} (read : Json → Except Mismatch α) : Json → Except Mismatch (List α)
  | .arr items => items.mapM read
  | found => .error (.kind found .list)

def readRecord {α : Type} (read : Json → Except Mismatch α) :
    Json → Except Mismatch (List (String × α))
  | .obj members => members.mapM fun m => (read m.2).map fun value => (m.1, value)
  | found => .error (.kind found .record)

def readOptional {α : Type} (read : Json → Except Mismatch α) :
    Json → Except Mismatch (Option α)
  | .null => .ok none
  | value => (read value).map some

end Json

open Json

def isExtensionName (key : String) : Bool := key.toList.take 2 == ['x', '-']

def Facets.readMember (f : Facets) (key : String) (value : Json) : Except Mismatch Facets :=
  match key with
  | "minimum" => (readOptional readDouble value).map fun v => { f with minimum := v }
  | "maximum" => (readOptional readDouble value).map fun v => { f with maximum := v }
  | "exclusiveMinimum" =>
    (readOptional readBool value).map fun v => { f with exclusiveMinimum := v }
  | "exclusiveMaximum" =>
    (readOptional readBool value).map fun v => { f with exclusiveMaximum := v }
  | "minLength" => (readOptional readCount value).map fun v => { f with minLength := v }
  | "maxLength" => (readOptional readCount value).map fun v => { f with maxLength := v }
  | "pattern" => (readOptional readText value).map fun v => { f with pattern := v }
  | "minItems" => (readOptional readCount value).map fun v => { f with minItems := v }
  | "maxItems" => (readOptional readCount value).map fun v => { f with maxItems := v }
  | "uniqueItems" => (readOptional readBool value).map fun v => { f with uniqueItems := v }
  | "multipleOf" => (readOptional readDouble value).map fun v => { f with multipleOf := v }
  | _ => .ok f

def Keywords.readMember (k : Keywords) (key : String) (value : Json) :
    Except Mismatch Keywords :=
  match key with
  | "$ref" => (readOptional readText value).map fun v => { k with reference := v }
  | "type" => (readOptional readText value).map fun v => { k with typeName := v }
  | "format" => (readOptional readText value).map fun v => { k with format := v }
  | "title" => (readOptional readText value).map fun v => { k with title := v }
  | "description" => (readOptional readText value).map fun v => { k with description := v }
  | "enum" => (readOptional (readList .ok) value).map fun v => { k with enumeration := v }
  | "required" => (readList readText value).map fun v => { k with required := v }
  | "discriminator" =>
    (readOptional readText value).map fun v => { k with discriminator := v }
  | "readOnly" => (readOptional readBool value).map fun v => { k with readOnly := v }
  | "default" => (readOptional .ok value).map fun v => { k with defaultValue := v }
  | "example" => (readOptional .ok value).map fun v => { k with exampleValue := v }
  | key =>
    if isExtensionName key then .ok { k with extensions := k.extensions ++ [(key, value)] }
    else (k.facets.readMember key value).map fun v => { k with facets := v }

namespace Schema

mutual

def read : Json → Except Mismatch Schema
  | .obj members => readMembers {} members
  | found => .error (.kind found (.part "SchemaNode"))

def readMembers (s : Schema) : List (String × Json) → Except Mismatch Schema
  | [] => .ok s
  | (key, value) :: rest =>
    match readMember s key value with
    | .ok s => readMembers s rest
    | .error e => .error e

def readMember (s : Schema) (key : String) : Json → Except Mismatch Schema
  | value =>
    match key with
    | "items" => (readItems value).map fun v => { s with items := v }
    | "additionalProperties" => .ok { s with additional := readAdditional value }
    | "properties" => (readProperties value).map fun v => { s with properties := v }
    | "allOf" => (readParts value).map fun v => { s with allOf := v }
    | key => (s.toKeywords.readMember key value).map fun k => { s with toKeywords := k }

def readItems : Json → Except Mismatch (Option Schema)
  | .null => .ok none
  | value => (read value).map some

/-- What cannot be read as a flag or a schema is kept as it is. -/
def readAdditional : Json → Option (Additional Schema)
  | .null => none
  | .bool b => some (.flag b)
  | value =>
    match read value with
    | .ok s => some (.schema s)
    | .error _ => some (.malformed value)

def readProperties : Json → Except Mismatch (List (String × Schema))
  | .obj members => readNamed members
  | found => .error (.kind found .record)

def readNamed : List (String × Json) → Except Mismatch (List (String × Schema))
  | [] => .ok []
  | (name, value) :: rest =>
    match read value with
    | .ok s => (readNamed rest).map fun named => (name, s) :: named
    | .error e => .error e

def readParts : Json → Except Mismatch (List Schema)
  | .arr items => readAll items
  | found => .error (.kind found .list)

def readAll : List Json → Except Mismatch (List Schema)
  | [] => .ok []
  | value :: rest =>
    match read value with
    | .ok s => (readAll rest).map fun all => s :: all
    | .error e => .error e

end

end Schema

/-- Reads the members of a part one by one into a value that starts out empty. -/
def readPart {α : Type} (name : String) (readMember : α → String → Json → Except Mismatch α)
    (empty : α) : Json → Except Mismatch α
  | .obj members => members.foldlM (fun part m => readMember part m.1 m.2) empty
  | found => .error (.kind found (.part name))

namespace ParameterNode

def readMember (p : ParameterNode) (key : String) (value : Json) :
    Except Mismatch ParameterNode :=
  match key with
  | "$ref" => (readOptional readText value).map fun v => { p with reference := v }
  | "name" => (readOptional readText value).map fun v => { p with name := v }
  | "in" => (readOptional readText value).map fun v => { p with location := v }
  | "description" => (readOptional readText value).map fun v => { p with description := v }
  | "required" => (readBool value).map fun v => { p with required := v }
  | "schema" => (readOptional Schema.read value).map fun v => { p with schema := v }
  | "type" => (readOptional readText value).map fun v => { p with typeName := v }
  | "format" => (readOptional readText value).map fun v => { p with format := v }
  | "items" => (readOptional Schema.read value).map fun v => { p with items := v }
  | "collectionFormat" =>
    (readOptional readText value).map fun v => { p with collectionFormat := v }
  | "enum" => (readOptional (readList .ok) value).map fun v => { p with enumeration := v }
  | "default" => (readOptional .ok value).map fun v => { p with defaultValue := v }
  | key =>
    if isExtensionName key then .ok { p with extensions := p.extensions ++ [(key, value)] }
    else (p.facets.readMember key value).map fun v => { p with facets := v }

def read : Json → Except Mismatch ParameterNode := readPart "ParameterNode" readMember {}

end ParameterNode

namespace ResponseNode

def readMember (r : ResponseNode) (key : String) (value : Json) : Except Mismatch ResponseNode :=
  match key with
  | "description" => (readText value).map fun v => { r with description := v }
  | "schema" => (readOptional Schema.read value).map fun v => { r with schema := v }
  | _ => .ok r

/-- A response may also be written as the list of its description and its schema. -/
def read : Json → Except Mismatch ResponseNode
  | .arr items => do
    let description ← (items[0]?).elim (.ok "") readText
    let schema ← (items[1]?).elim (.error (.tooFew 1 "ResponseNode" 2))
      (readOptional Schema.read)
    if items.length ≤ 2 then .ok ⟨description, schema⟩ else .error (.tooMany items.length)
  | value => readPart "ResponseNode" readMember {} value

end ResponseNode

namespace OperationNode

def readMember (o : OperationNode) (key : String) (value : Json) :
    Except Mismatch OperationNode :=
  match key with
  | "operationId" => (readOptional readText value).map fun v => { o with operationId := v }
  | "summary" => (readOptional readText value).map fun v => { o with summary := v }
  | "description" => (readOptional readText value).map fun v => { o with description := v }
  | "tags" => (readList readText value).map fun v => { o with tags := v }
  | "consumes" => (readOptional (readList readText) value).map fun v => { o with consumes := v }
  | "produces" => (readOptional (readList readText) value).map fun v => { o with produces := v }
  | "parameters" => (readList ParameterNode.read value).map fun v => { o with parameters := v }
  | "responses" => (readRecord ResponseNode.read value).map fun v => { o with responses := v }
  | "deprecated" => (readBool value).map fun v => { o with deprecated := v }
  | key =>
    if isExtensionName key then .ok { o with extensions := o.extensions ++ [(key, value)] }
    else .ok o

def read : Json → Except Mismatch OperationNode := readPart "OperationNode" readMember {}

end OperationNode

namespace PathItem

def setOperation (item : PathItem) (method : HttpMethod) (operation : Option OperationNode) :
    PathItem :=
  { item with operation? := fun m => if m = method then operation else item.operation? m }

def readMember (item : PathItem) (key : String) (value : Json) : Except Mismatch PathItem :=
  match HttpMethod.all.find? (·.name == key) with
  | some method =>
    (readOptional OperationNode.read value).map fun v => item.setOperation method v
  | none =>
    if key = "parameters" then
      (readList ParameterNode.read value).map fun v => { item with parameters := v }
    else .ok item

/-- A path item may also be written as the list of its operations and then its parameters. -/
def read : Json → Except Mismatch PathItem
  | .arr items => do
    let numbered := HttpMethod.all.zipIdx
    let item ← numbered.foldlM (fun (item : PathItem) (m : HttpMethod × Nat) => do
      match items[m.2]? with
      | some value => (readOptional OperationNode.read value).map (item.setOperation m.1)
      | none => .error (.tooFew m.2 "PathItem" 8)) {}
    let parameters ← (items[7]?).elim (.ok []) (readList ParameterNode.read)
    if items.length ≤ 8 then .ok { item with parameters := parameters }
    else .error (.tooMany items.length)
  | value => readPart "PathItem" readMember {} value

end PathItem

namespace ApiInfo

def readMember (i : ApiInfo) (key : String) (value : Json) : Except Mismatch ApiInfo :=
  match key with
  | "title" => (readText value).map fun v => { i with title := v }
  | "version" => (readText value).map fun v => { i with version := v }
  | "description" => (readOptional readText value).map fun v => { i with description := v }
  | _ => .ok i

/-- The information may also be written as the list of its title, version and description. -/
def read : Json → Except Mismatch ApiInfo
  | .arr items => do
    let title ← (items[0]?).elim (.ok "") readText
    let version ← (items[1]?).elim (.ok "") readText
    let description ← (items[2]?).elim (.error (.tooFew 2 "ApiInfo" 3)) (readOptional readText)
    if items.length ≤ 3 then .ok ⟨title, version, description⟩
    else .error (.tooMany items.length)
  | value => readPart "ApiInfo" readMember {} value

end ApiInfo

namespace Document

def readMember (d : Document) (key : String) (value : Json) : Except Mismatch Document :=
  match key with
  | "swagger" => (readText value).map fun v => { d with swagger := v }
  | "info" => (ApiInfo.read value).map fun v => { d with info := v }
  | "host" => (readOptional readText value).map fun v => { d with host := v }
  | "basePath" => (readOptional readText value).map fun v => { d with basePath := v }
  | "schemes" => (readList readText value).map fun v => { d with schemes := v }
  | "consumes" => (readList readText value).map fun v => { d with consumes := v }
  | "produces" => (readList readText value).map fun v => { d with produces := v }
  | "paths" => (readRecord PathItem.read value).map fun v => { d with paths := v }
  | "parameters" =>
    (readRecord ParameterNode.read value).map fun v => { d with parameters := v }
  | key =>
    if isExtensionName key then .ok { d with extensions := d.extensions ++ [(key, value)] }
    else .ok d

/-- Definitions are read one by one, so a malformed one does not hide the others. -/
def addDefinition (d : Document) (name : String) (value : Json) : Document :=
  match Schema.read value with
  | .ok s => { d with definitions := d.definitions ++ [(name, s)] }
  | .error e => { d with malformed := d.malformed ++ [(name, e)] }

inductive Fault where
  | openApi (version : String)
  | noVersion
  | unsupportedVersion (version : String)
  | definitionsNotObject
  | mismatch (reason : Mismatch)
  deriving Repr

def Fault.message : Fault → String
  | openApi version =>
    s!"OpenAPI {version} documents are not supported; expected a Swagger 2.0 document"
  | noVersion => "Missing 'swagger' version marker"
  | unsupportedVersion version => s!"Unsupported Swagger version '{version}', expected '2.0'"
  | definitionsNotObject => "'definitions' must be an object"
  | mismatch reason => reason.message

/-- The version marker, which may also be written as a number. -/
def versionOf (value : Json) : Except Fault String :=
  match value.get? "openapi" with
  | some (.str version) => .error (.openApi version)
  | _ =>
    match value.get? "swagger" with
    | some (.str version) => check version
    | some (.num version) => check version.text
    | _ => .error .noVersion
where
  check (version : String) : Except Fault String :=
    if version = "2.0" then .ok version else .error (.unsupportedVersion version)

/-- The members of a document apart from its definitions, whose place the last member takes. -/
def frame (version : String) (members : List (String × Json)) : List (String × Json) :=
  Fields.eraseSwap (Fields.set members "swagger" (.str version)) "definitions"

/-- The definitions of a document; they are looked at after everything else. -/
def definitionsOf : Option Json → Except Fault (List (String × Json))
  | none => .ok []
  | some .null => .ok []
  | some (.obj definitions) => .ok definitions
  | some _ => .error .definitionsNotObject

def read (value : Json) : Except Fault Document := do
  let version ← versionOf value
  let members := match value with
    | .obj members => members
    | _ => []
  let document ← ((frame version members).foldlM (fun d m => readMember d m.1 m.2) {}).mapError
    Fault.mismatch
  let definitions ← definitionsOf (Fields.get? members "definitions")
  return definitions.foldl (fun d m => d.addDefinition m.1 m.2) document

def log (d : Document) : List LogEntry :=
  d.malformed.map fun m => ⟨.warning, s!"Definition '{m.1}' is malformed: {m.2.message}"⟩

end Document

end ApiModel
