import ApiModel.Model.Client

/-! # Writing models

The JSON form of a client model. Optional parts that are absent, flags of constraints that are not
set and empty constraints are left out.
-/

namespace ApiModel

open Json (ofOption ofNat ofDouble strings)

def optionalMember {α : Type} (name : String) (f : α → Json) (value : Option α) :
    List (String × Json) :=
  (value.map fun a => (name, f a)).toList

def flagMember (name : String) (value : Bool) : List (String × Json) :=
  if value then [(name, .bool true)] else []

def CompositeId.toJson (id : CompositeId) : Json := .ofNat id.index

def EnumId.toJson (id : EnumId) : Json := .ofNat id.index

def ModelType.toJson : ModelType → Json
  | .scalar kind => .obj [("primary", .str kind.name)]
  | .enum id => .obj [("enum", id.toJson)]
  | .sequence element => .obj [("sequence", toJson element)]
  | .dictionary value => .obj [("dictionary", toJson value)]
  | .composite id => .obj [("composite", id.toJson)]

def EnumValue.toJson (v : EnumValue) : Json :=
  .obj [("name", .str v.symbol), ("serializedName", .str v.wire)]

def EnumType.toJson (e : EnumType) : Json :=
  .obj [("name", ofOption .str e.name), ("values", .arr (e.values.map EnumValue.toJson)),
    ("expandable", .bool e.expandable), ("origin", .str e.origin)]

def Constraints.toJson (c : Constraints) : Json :=
  .obj (optionalMember "minimum" ofDouble c.minimum ++
    optionalMember "maximum" ofDouble c.maximum ++
    flagMember "exclusiveMinimum" c.exclusiveMinimum ++
    flagMember "exclusiveMaximum" c.exclusiveMaximum ++
    optionalMember "minLength" ofNat c.minLength ++
    optionalMember "maxLength" ofNat c.maxLength ++
    optionalMember "pattern" .str c.pattern ++
    optionalMember "minItems" ofNat c.minItems ++
    optionalMember "maxItems" ofNat c.maxItems ++
    flagMember "uniqueItems" c.uniqueItems ++
    optionalMember "multipleOf" ofDouble c.multipleOf)

/-- Constraints, default value and description come last in a property and a parameter. -/
def declarationMembers (description : Option String) (defaultValue : Option Json)
    (c : Constraints) : List (String × Json) :=
  optionalMember "description" .str description ++
    optionalMember "defaultValue" id defaultValue ++
    (if c.isEmpty then [] else [("constraints", c.toJson)])

def Property.toJson (p : Property) : Json :=
  .obj ([("name", .str p.name), ("modelType", p.type.toJson), ("required", .bool p.required),
    ("readOnly", .bool p.readOnly), ("isConstant", .bool p.constant)] ++
    declarationMembers p.description p.defaultValue p.constraints)

def Progress.name : Progress → String
  | .stub => "stub"
  | .propertiesResolved => "propertiesResolved"
  | .hierarchyResolved => "hierarchyResolved"

def Composite.toJson (c : Composite) : Json :=
  .obj ([("name", .str c.name), ("origin", .str c.origin)] ++
    optionalMember "description" .str c.description ++
    [("properties", .arr (c.properties.map Property.toJson))] ++
    optionalMember "base" CompositeId.toJson c.base ++
    optionalMember "polymorphicDiscriminator" .str c.discriminator ++
    [("discriminatorValue", .str c.discriminatorValue),
     ("derived", .arr (c.derived.map CompositeId.toJson)),
     ("state", .str c.progress.name)])

def Catalog.toJson (c : Catalog) : Json :=
  .obj [("composites", .arr (c.composites.map Composite.toJson)),
    ("enums", .arr (c.enums.map EnumType.toJson))]

def Parameter.toJson (p : Parameter) : Json :=
  .obj ([("name", .str p.name), ("location", .str p.location.name),
    ("required", .bool p.required), ("modelType", p.type.toJson)] ++
    optionalMember "collectionFormat" (fun f => .str f.name) p.collectionFormat ++
    declarationMembers p.description p.defaultValue p.constraints)

def Response.toJson (r : Response) : Json :=
  .obj ([("description", .str r.description)] ++ optionalMember "body" ModelType.toJson r.body)

def Method.toJson (m : Method) : Json :=
  .obj ([("operationId", .str m.operationId)] ++
    optionalMember "group" .str m.group ++
    [("name", .str m.name), ("httpMethod", .str m.httpMethod.name), ("url", .str m.url)] ++
    optionalMember "summary" .str m.summary ++
    optionalMember "description" .str m.description ++
    [("deprecated", .bool m.deprecated), ("consumes", strings m.consumes),
     ("produces", strings m.produces), ("parameters", .arr (m.parameters.map Parameter.toJson)),
     ("responses", .obj (m.responses.map fun r => (r.1, r.2.toJson)))] ++
    optionalMember "defaultResponse" Response.toJson m.defaultResponse)

def ClientModel.toJson (m : ClientModel) : Json :=
  .obj ([("name", .str m.name), ("apiVersion", .str m.apiVersion)] ++
    optionalMember "baseUrl" .str m.baseUrl ++
    optionalMember "description" .str m.description ++
    [("registry", m.catalog.toJson), ("methods", .arr (m.methods.map Method.toJson))])

def ClientModel.fileText (m : ClientModel) : String := m.toJson.indented ++ "\n"

end ApiModel
