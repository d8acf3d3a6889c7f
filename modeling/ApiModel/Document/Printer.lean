import ApiModel.Document.Basic

/-! # Writing documents

The JSON form of a document. Every keyword is written, absent optional ones as `null`, and the
extensions of a part follow its keywords.
-/

namespace ApiModel

open Json (ofOption ofNat ofDouble strings)

def Facets.members (f : Facets) : List (String × Json) :=
  [("minimum", ofOption ofDouble f.minimum),
   ("maximum", ofOption ofDouble f.maximum),
   ("exclusiveMinimum", ofOption .bool f.exclusiveMinimum),
   ("exclusiveMaximum", ofOption .bool f.exclusiveMaximum),
   ("minLength", ofOption ofNat f.minLength),
   ("maxLength", ofOption ofNat f.maxLength),
   ("pattern", ofOption .str f.pattern),
   ("minItems", ofOption ofNat f.minItems),
   ("maxItems", ofOption ofNat f.maxItems),
   ("uniqueItems", ofOption .bool f.uniqueItems),
   ("multipleOf", ofOption ofDouble f.multipleOf)]

def Keywords.members (k : Keywords) : List (String × Json) :=
  [("$ref", ofOption .str k.reference),
   ("type", ofOption .str k.typeName),
   ("format", ofOption .str k.format),
   ("title", ofOption .str k.title),
   ("description", ofOption .str k.description),
   ("enum", ofOption .arr k.enumeration),
   ("required", strings k.required),
   ("discriminator", ofOption .str k.discriminator),
   ("readOnly", ofOption .bool k.readOnly),
   ("default", ofOption id k.defaultValue),
   ("example", ofOption id k.exampleValue)] ++ k.facets.members

namespace Schema

mutual

def toJson : Schema → Json
  | ⟨keywords, items, additional, properties, allOf⟩ =>
    .obj (keywords.members ++
      [("items", itemsJson items),
       ("additionalProperties", additionalJson additional),
       ("properties", .obj (namedJson properties)),
       ("allOf", .arr (allJson allOf))] ++ keywords.extensions)

def itemsJson : Option Schema → Json
  | none => .null
  | some s => toJson s

def additionalJson : Option (Additional Schema) → Json
  | none => .null
  | some (.flag b) => .bool b
  | some (.schema s) => toJson s
  | some (.malformed value) => value

def namedJson : List (String × Schema) → List (String × Json)
  | [] => []
  | (name, s) :: rest => (name, toJson s) :: namedJson rest

def allJson : List Schema → List Json
  | [] => []
  | s :: rest => toJson s :: allJson rest

end

end Schema

def ParameterNode.toJson (p : ParameterNode) : Json :=
  .obj ([("$ref", ofOption .str p.reference),
    ("name", ofOption .str p.name),
    ("in", ofOption .str p.location),
    ("description", ofOption .str p.description),
    ("required", .bool p.required),
    ("schema", Schema.itemsJson p.schema),
    ("type", ofOption .str p.typeName),
    ("format", ofOption .str p.format),
    ("items", Schema.itemsJson p.items),
    ("collectionFormat", ofOption .str p.collectionFormat),
    ("enum", ofOption .arr p.enumeration),
    ("default", ofOption id p.defaultValue)] ++ p.facets.members ++ p.extensions)

def ResponseNode.toJson (r : ResponseNode) : Json :=
  .obj [("description", .str r.description), ("schema", Schema.itemsJson r.schema)]

def OperationNode.toJson (o : OperationNode) : Json :=
  .obj ([("operationId", ofOption .str o.operationId),
    ("summary", ofOption .str o.summary),
    ("description", ofOption .str o.description),
    ("tags", strings o.tags),
    ("consumes", ofOption strings o.consumes),
    ("produces", ofOption strings o.produces),
    ("parameters", .arr (o.parameters.map ParameterNode.toJson)),
    ("responses", .obj (o.responses.map fun r => (r.1, r.2.toJson))),
    ("deprecated", .bool o.deprecated)] ++ o.extensions)

def PathItem.toJson (item : PathItem) : Json :=
  .obj (HttpMethod.all.map (fun m => (m.name, ofOption OperationNode.toJson (item.operation? m))) ++
    [("parameters", .arr (item.parameters.map ParameterNode.toJson))])

def ApiInfo.toJson (i : ApiInfo) : Json :=
  .obj [("title", .str i.title), ("version", .str i.version),
    ("description", ofOption .str i.description)]

def Document.heading (d : Document) : List (String × Json) :=
  [("swagger", .str d.swagger),
   ("info", d.info.toJson),
   ("host", ofOption .str d.host),
   ("basePath", ofOption .str d.basePath),
   ("schemes", strings d.schemes),
   ("consumes", strings d.consumes),
   ("produces", strings d.produces),
   ("paths", .obj (d.paths.map fun p => (p.1, p.2.toJson)))]

def Document.toJson (d : Document) : Json :=
  .obj (d.heading ++
    [("definitions", .obj (Schema.namedJson d.definitions)),
     ("parameters", .obj (d.parameters.map fun p => (p.1, p.2.toJson)))] ++ d.extensions)

end ApiModel
