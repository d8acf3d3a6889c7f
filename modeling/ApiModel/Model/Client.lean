import ApiModel.Model.Catalog

/-! # Client models

The finished model of an API: its types, its methods, and what can be asked of them.
-/

namespace ApiModel

inductive Location where
  | path | query | header | body | formData
  deriving DecidableEq, Repr

namespace Location

def all : List Location := [path, query, header, body, formData]

def name : Location → String
  | path => "path"
  | query => "query"
  | header => "header"
  | body => "body"
  | formData => "formData"

def ofName? (s : String) : Option Location := all.find? (·.name == s)

end Location

inductive CollectionFormat where
  | csv | ssv | tsv | pipes | multi
  deriving DecidableEq, Repr

namespace CollectionFormat

def all : List CollectionFormat := [csv, ssv, tsv, pipes, multi]

def name : CollectionFormat → String
  | csv => "csv"
  | ssv => "ssv"
  | tsv => "tsv"
  | pipes => "pipes"
  | multi => "multi"

def ofName? (s : String) : Option CollectionFormat := all.find? (·.name == s)

end CollectionFormat

structure Parameter where
  name : String
  location : Location
  required : Bool
  type : ModelType
  collectionFormat : Option CollectionFormat
  description : Option String
  defaultValue : Option Json
  constraints : Constraints

structure Response where
  description : String
  /-- Nothing for an empty response. -/
  body : Option ModelType

structure Method where
  operationId : String
  /-- The first half of an operation id with two. -/
  group : Option String
  name : String
  httpMethod : HttpMethod
  url : String
  summary : Option String
  description : Option String
  deprecated : Bool
  consumes : List String
  produces : List String
  parameters : List Parameter
  /-- Responses by status code. -/
  responses : List (String × Response)
  /-- The response to any other status. -/
  defaultResponse : Option Response

def Method.parameter? (m : Method) (name : String) : Option Parameter :=
  m.parameters.find? (·.name == name)

structure ClientModel where
  name : String
  apiVersion : String
  baseUrl : Option String
  description : Option String
  catalog : Catalog
  methods : List Method

namespace ClientModel

def method? (m : ClientModel) (operationId : String) : Option Method :=
  m.methods.find? (·.operationId == operationId)

def methodsInGroup (m : ClientModel) (group : String) : List Method :=
  m.methods.filter (·.group == some group)

def basesUpTo (m : ClientModel) : Nat → CompositeId → List CompositeId
  | 0, _ => []
  | limit + 1, id =>
    match m.catalog.baseOf? id with
    | none => []
    | some base => base :: basesUpTo m limit base

/-- The base chain of a composite, nearest ancestor first. The limit matters to cyclic chains
only, which finished models do not have. -/
def ancestors (m : ClientModel) (id : CompositeId) : List CompositeId :=
  basesUpTo m (m.catalog.composites.length + 1) id

/-- Puts a property in the place of one of the same name, or at the end. -/
def putProperty (properties : List Property) (p : Property) : List Property :=
  match properties with
  | [] => [p]
  | q :: rest => if q.name = p.name then p :: rest else q :: putProperty rest p

/-- Own and inherited properties, those of the topmost ancestor first. -/
def allProperties (m : ClientModel) (id : CompositeId) : List Property :=
  let lineage := (m.ancestors id).reverse ++ [id]
  let declared := lineage.flatMap fun member =>
    ((m.catalog.composite? member).map (·.properties)).getD []
  declared.foldl putProperty []

def discriminatorOf? (m : ClientModel) (id : CompositeId) : Option String :=
  (m.catalog.composite? id).bind (·.discriminator)

def polymorphicRoot? (m : ClientModel) (id : CompositeId) : Option CompositeId :=
  (id :: m.ancestors id).find? fun member => (m.discriminatorOf? member).isSome

/-- What a payload holds under the discriminator of a hierarchy. -/
def discriminatorIn? (m : ClientModel) (id : CompositeId) (payload : Json) : Option String :=
  (m.polymorphicRoot? id).bind fun root =>
    (m.discriminatorOf? root).bind fun property => (payload.get? property).bind Json.str?

/-- The concrete type of a payload: the type at or below the static one that carries the payload's
discriminator value, and the static type if there is none. -/
def dispatch (m : ClientModel) (id : CompositeId) (payload : Json) : CompositeId :=
  match m.discriminatorIn? id payload, m.catalog.composite? id with
  | some value, some declared =>
    let carries := fun (member : CompositeId) =>
      ((m.catalog.composite? member).map (·.discriminatorValue)) == some value
    ((id :: declared.derived).find? carries).getD id
  | _, _ => id

end ClientModel

end ApiModel
