import ApiModel.Grammars
import ApiModel.Proofs.Hierarchy
import ApiModel.Proofs.Sources

/-! # Origins

The origin of a type is a pointer to the node that declares it. There is one exception: what a
shared parameter declares gets the pointer of the place that refers to the parameter, so its origin
has to be followed through that reference.
-/

namespace ApiModel

open Json Resolution

/-- A pointer leads to the node that it points at or, where it goes through a parameter that is
given by reference, to the node that is as far below the shared parameter. -/
inductive Json.LeadsTo (root : Json) : Pointer → Json → Prop where
  | itself {p : Pointer} {node : Json} (h : root.pointee? p.text = some node) : LeadsTo root p node
  | shared {place : Pointer} {rest : List String} {parameter node : Json} {text name : String}
      (hp : root.pointee? place.text = some parameter)
      (ht : parameter.child? "$ref" = some (.str text))
      (hr : Reference.parse? text = some ⟨.parameters, name⟩)
      (hn : root.pointee? (Pointer.text ⟨"parameters" :: name :: rest⟩) = some node) :
      LeadsTo root ⟨place.segments ++ rest⟩ node

theorem Json.LeadsTo.below {root node part : Json} {p : Pointer} {path : List String}
    (h : root.LeadsTo p node) (hp : node.at? path = some part) :
    root.LeadsTo ⟨p.segments ++ path⟩ part := by
  cases h with
  | itself h =>
    rw [pointee?_text] at h
    exact .itself (by rw [pointee?_text, at?_append h, hp])
  | @shared place rest _ _ _ _ hplace ht hr hn =>
    rw [pointee?_text] at hn
    rw [List.append_assoc]
    refine .shared hplace ht hr ?_
    rw [pointee?_text, ← List.cons_append, ← List.cons_append, at?_append hn, hp]

/-- Path items and responses are records. They may also be written as the lists of their parts,
which pointers do not lead into. -/
structure Json.InRecords (root : Json) : Prop where
  items : ∀ {path node}, root.at? ["paths", path] = some node → ∃ members, node = .obj members
  responses : ∀ {path method status node},
    root.at? ["paths", path, method, "responses", status] = some node →
      ∃ members, node = .obj members

/-- A node is read as a schema, or as a parameter whose values the schema describes. -/
inductive Schema.WrittenAs (node : Json) : Schema → Prop where
  | schema {s : Schema} (h : Schema.read node = .ok s) : WrittenAs node s
  | parameter {p : ParameterNode} (h : ParameterNode.read node = .ok p) : WrittenAs node p.asSchema

namespace Schema.WrittenAs

variable {node : Json} {s t : Schema}

theorem readAt_items (h : WrittenAs node s) (hv : node.NamesOnce) (hs : s.items = some t) :
    node.ReadAt ["items"] Schema.read t := by
  cases h with
  | schema h => exact Schema.readAt_items hv h hs
  | parameter h => exact ParameterNode.readAt_items hv h hs

theorem readAt_value (h : WrittenAs node s) (hv : node.NamesOnce)
    (hs : s.dictionary? = some (some t)) :
    node.ReadAt ["additionalProperties"] Schema.read t := by
  cases h with
  | schema h =>
    refine Schema.readAt_additional hv h ?_
    unfold Schema.dictionary? at hs
    split at hs
    · cases hs
    · cases hs
      assumption
    · cases hs
  | parameter => cases hs

theorem readAt_property (h : WrittenAs node s) (hv : node.NamesOnce) {name : String}
    (hs : (name, t) ∈ s.properties) : node.ReadAt ["properties", name] Schema.read t := by
  cases h with
  | schema h => exact Schema.readAt_properties hv h hs
  | parameter => cases hs

theorem readAt_part (h : WrittenAs node s) (hv : node.NamesOnce) {i : Nat}
    (hs : (t, i) ∈ s.allOf.zipIdx) : node.ReadAt ["allOf", toString i] Schema.read t := by
  cases h with
  | schema h => exact Schema.readAt_allOf hv h hs
  | parameter => cases hs

theorem enum_eq (h : WrittenAs node s) (hv : node.NamesOnce) {listed : List Json}
    (hs : s.enumeration = some listed) : node.child? "enum" = some (.arr listed) := by
  cases h with
  | schema h => exact Schema.enum_of_read hv h hs
  | parameter h => exact ParameterNode.enum_of_read hv h hs

theorem read_of_isComposite (h : WrittenAs node s) (hs : s.isComposite = true) :
    Schema.read node = .ok s := by
  cases h with
  | schema h => exact h
  | parameter =>
    simp [Schema.isComposite, Schema.hasObjectStructure, ParameterNode.asSchema] at hs

end Schema.WrittenAs

def Json.Locates (root : Json) (p : Pointer) (s : Schema) : Prop :=
  ∃ node, root.LeadsTo p node ∧ node.NamesOnce ∧ s.WrittenAs node

theorem Json.LeadsTo.locates {root node : Json} {p q : Pointer} {path : List String} {s : Schema}
    (h : root.LeadsTo p node) (hs : node.ReadAt path Schema.read s)
    (hq : q.segments = p.segments ++ path) : root.Locates q s := by
  obtain ⟨part, hp, hn, hr⟩ := hs
  obtain ⟨segments⟩ := q
  cases hq
  exact ⟨part, h.below hp, hn, .schema hr⟩

namespace Document.ReadFrom

variable {root : Json} {d : Document} {o : Operation}

theorem readAt_item (h : d.ReadFrom root) (hl : root.InRecords) (ho : o ∈ operationsOf d) :
    ∃ members, root.at? ["paths", o.path] = some (.obj members) ∧ (Json.obj members).NamesOnce ∧
      PathItem.read (.obj members) = .ok o.item := by
  obtain ⟨node, hnode, hn, hr⟩ := h.paths (mem_operationsOf ho).1
  obtain ⟨members, rfl⟩ := hl.items hnode
  exact ⟨members, hnode, hn, hr⟩

theorem readAt_operation (h : d.ReadFrom root) (hl : root.InRecords) (ho : o ∈ operationsOf d) :
    root.ReadAt ["paths", o.path, o.method.name] OperationNode.read o.node := by
  obtain ⟨members, hm, hn, hr⟩ := h.readAt_item hl ho
  obtain ⟨node, hnode, hread⟩ := PathItem.readAt_operation hn hr
    (operation?_of_mem (mem_operationsOf ho).2)
  exact ⟨node, (at?_append hm).trans hnode, hread⟩

/-- Each parameter that is declared for an operation is read from where it is declared. -/
theorem readAt_declared (h : d.ReadFrom root) (hl : root.InRecords) (ho : o ∈ operationsOf d)
    {e : Declared} (he : e ∈ o.declared) :
    root.ReadAt e.pointer.segments ParameterNode.read e.node := by
  rcases List.mem_append.mp he with he | he
  · obtain ⟨⟨p, i⟩, hp, rfl⟩ := List.mem_map.mp he
    obtain ⟨members, hm, hn, hr⟩ := h.readAt_item hl ho
    obtain ⟨node, hnode, hread⟩ := PathItem.readAt_parameters hn hr hp
    exact ⟨node, (at?_append hm).trans hnode, hread⟩
  · obtain ⟨⟨p, i⟩, hp, rfl⟩ := List.mem_map.mp he
    obtain ⟨operation, hm, hn, hr⟩ := h.readAt_operation hl ho
    obtain ⟨node, hnode, hread⟩ := OperationNode.readAt_parameters hn hr hp
    exact ⟨node, (at?_append hm).trans hnode, hread⟩

/-- The pointer of a declared parameter leads to the parameter itself, or to the shared one. -/
theorem leadsTo_parameter (h : d.ReadFrom root) (hl : root.InRecords) (ho : o ∈ operationsOf d)
    {e f : Declared} (he : e ∈ o.declared) (hf : dereference d e = .ok f) :
    ∃ node, root.LeadsTo f.pointer node ∧ node.NamesOnce ∧
      ParameterNode.read node = .ok f.node := by
  obtain ⟨place, hplace, hn, hr⟩ := h.readAt_declared hl ho he
  have hpointed : root.pointee? e.pointer.text = some place := by rw [pointee?_text, hplace]
  unfold dereference at hf
  cases hreference : e.node.reference with
  | none =>
    rw [hreference] at hf
    cases hf
    exact ⟨place, .itself hpointed, hn, hr⟩
  | some text =>
    rw [hreference] at hf
    dsimp only at hf
    split at hf
    · rename_i name hname
      split at hf
      · rename_i shared hshared
        split at hf
        · cases hf
          obtain ⟨node, hnode, hn', hr'⟩ := h.parameters (Fields.mem_of_get? hshared)
          have htext := ParameterNode.reference_of_read hn hr hreference
          refine ⟨node, ?_, hn', hr'⟩
          have hleads : root.LeadsTo ⟨e.pointer.segments ++ []⟩ node :=
            .shared hpointed htext hname (by rw [pointee?_text, hnode])
          rwa [List.append_nil] at hleads
        · cases hf
      · cases hf
    · cases hf

theorem locates_root (h : d.ReadFrom root) (hl : root.InRecords) {pointer : Pointer} {s : Schema}
    (hs : operationRoots d pointer s) : root.Locates pointer s := by
  obtain ⟨o, ho, ⟨e, he, f, hf, hv⟩ | ⟨status, response, hm, hs, rfl⟩⟩ := hs
  · obtain ⟨node, hleads, hn, hr⟩ := h.leadsTo_parameter hl ho he hf
    rcases hv.cases with ⟨hschema, rfl⟩ | ⟨rfl, rfl⟩
    · exact hleads.locates (ParameterNode.readAt_schema hn hr hschema) rfl
    · exact ⟨node, hleads, hn, .parameter hr⟩
  · obtain ⟨operation, hoperation, hn, hr⟩ := h.readAt_operation hl ho
    obtain ⟨node, hnode, hn', hr'⟩ := OperationNode.readAt_responses hn hr hm
    have hplace := (at?_append hoperation).trans hnode
    obtain ⟨members, rfl⟩ := hl.responses hplace
    have hleads : root.LeadsTo ⟨["paths", o.path, o.method.name, "responses", status]⟩
        (.obj members) := .itself (by rw [pointee?_text]; exact hplace)
    exact hleads.locates (ResponseNode.readAt_schema hn' hr' hs) rfl

/-- The pointer of a schema that stands in a document leads to the node that it is read from. -/
theorem locates (h : d.ReadFrom root) (hl : root.InRecords) {pointer : Pointer} {s : Schema}
    (hs : d.Stands pointer s) : root.Locates pointer s := by
  induction hs with
  | root hr => exact h.locates_root hl hr
  | definition hd =>
    obtain ⟨node, hnode, hn, hr⟩ := h.definitions (Fields.mem_of_get? hd)
    exact ⟨node, .itself (by rw [pointee?_text]; exact hnode), hn, .schema hr⟩
  | items _ hi ih =>
    obtain ⟨node, hleads, hn, hw⟩ := ih
    exact hleads.locates (hw.readAt_items hn hi) rfl
  | value _ hv ih =>
    obtain ⟨node, hleads, hn, hw⟩ := ih
    exact hleads.locates (hw.readAt_value hn hv) rfl
  | property _ hm ih =>
    obtain ⟨node, hleads, hn, hw⟩ := ih
    exact hleads.locates (hw.readAt_property hn hm) (by simp)
  | part _ hp ih =>
    obtain ⟨node, hleads, hn, hw⟩ := ih
    exact hleads.locates (hw.readAt_part hn hp) (by simp [Pointer.item])

end Document.ReadFrom

structure Composite.StructuredAs (composite : Composite) (document : Document) (s : Schema)
    (pointer : Pointer) : Prop where
  shape : s.isComposite = true
  description : composite.description = s.description
  discriminator : composite.discriminator = s.declaredDiscriminator pointer
  base : composite.base.isSome = !(s.baseParts pointer).isEmpty
  once : (composite.properties.map (·.name)).Nodup
  complete : ∀ m ∈ s.declaredMembers pointer, ∃ p ∈ composite.properties, p.name = m.name
  declared : ∀ p ∈ composite.properties, ∃ m ∈ s.declaredMembers pointer,
    p = memberProperty document (s.declaredRequired pointer) m p.type p.constraints

theorem structuredAs_of_described {context : Context} {c : Catalog}
    {types : String → Option ModelType} {lossy : Prop} {s : Schema} {pointer : Pointer}
    {composite : Composite} (hs : s.isComposite = true) (hl : ¬lossy)
    (h : Described context c types lossy s pointer composite) :
    composite.StructuredAs context.document s pointer where
  shape := hs
  description := h.description
  discriminator := h.discriminator
  base := by
    have hlength := h.base.2 hl
    cases hb : composite.base with
    | none =>
      rw [hb] at hlength
      rw [List.eq_nil_of_length_eq_zero hlength]
      rfl
    | some id =>
      obtain ⟨part, others, hp, -⟩ := h.base.1 id hb
      rw [hp]
      rfl
  once := h.nodup_names
  complete m hm := h.properties.exists_property Becomes.name_eq hl hm
  declared p hp := by
    obtain ⟨m, hm, type, constraints, -, -, rfl⟩ := h.properties.exists_member hp
    exact ⟨m, hm, rfl⟩

/-- The origin of every composite leads to a schema with its structure, and that of every enum to a
node that lists its values. -/
theorem origins_lead_to_declarations [Grammars] {root : Json} {d : Document}
    {settings : Settings} {m : ClientModel} (hv : root.NamesOnce) (hl : root.InRecords)
    (hd : Document.read root = .ok d) (hm : (Build.run ⟨d, settings⟩).result = .ok m) :
    (∀ c ∈ m.catalog.composites, ∃ p node s, c.origin = p.text ∧ root.LeadsTo p node ∧
      Schema.read node = .ok s ∧ c.StructuredAs d s p) ∧
    ∀ e ∈ m.catalog.enums, ∃ p node, e.origin = p.text ∧ root.LeadsTo p node ∧
      node.child? "enum" = some (.arr (e.values.map fun v => .str v.wire)) := by
  have hfrom := Document.readFrom_of_read hv d hd
  obtain ⟨t, -, hf, hclean, -, hcatalog⟩ := Scene.finished_of_run hm
  rw [hcatalog]
  refine ⟨fun c hc => ?_, fun e he => ?_⟩
  · obtain ⟨id, old, hold, rfl⟩ := Hierarchy.exists_of_mem_settled hc
    obtain ⟨s, p, hstands, hshape, horigin, hdescribed⟩ := hf.inv.described hold
      (by rw [hf.filled hold]; decide)
    obtain ⟨node, hleads, -, hw⟩ := hfrom.locates hl hstands
    have hlossless : ¬(Scene.ofBuild ⟨d, settings⟩).Marked t := by
      rintro (hdrained | hdefects)
      · exact hdrained
      · exact hdefects hclean
    exact ⟨p, node, s, horigin, hleads, hw.read_of_isComposite hshape,
      { structuredAs_of_described hshape hlossless hdescribed with }⟩
  · obtain ⟨i, hi⟩ := List.mem_iff_getElem?.mp he
    obtain ⟨s, p, hlists⟩ := hf.inv.listed (show t.catalog.enum? ⟨i⟩ = some e from hi)
    obtain ⟨node, hleads, hn, hw⟩ := hfrom.locates hl hlists.stands
    obtain ⟨listed, hs, hvalues⟩ := hlists.values
    refine ⟨p, node, hlists.origin, hleads, ?_⟩
    rw [wires_of_valuesFrom hvalues]
    exact hw.enum_eq hn (Schema.stringEnum?_eq_some_iff.mp hs).1

def shelter : Json := .obj [
  ("swagger", .str "2.0"),
  ("info", .obj [("title", .str "Shelter"), ("version", .str "1")]),
  ("paths", .obj [("/pets", .obj [("get", .obj [
    ("operationId", .str "pets_list"),
    ("parameters", .arr [
      .obj [("$ref", .str "#/parameters/Sort")],
      .obj [("name", .str "size"), ("in", .str "query"), ("type", .str "string"),
        ("enum", .arr [.str "small", .str "large"])]]),
    ("responses", .obj [])])])]),
  ("parameters", .obj [("Sort", .obj [
    ("name", .str "sort"), ("in", .str "query"), ("type", .str "string"),
    ("enum", .arr [.str "asc", .str "desc"])])]),
  ("definitions", .obj [("Pet", .obj [
    ("properties", .obj [("name", .obj [("type", .str "string")])])])])]

def shelterDocument : Document where
  swagger := "2.0"
  info := { title := "Shelter", version := "1" }
  paths := [("/pets", ({} : PathItem).setOperation .get (some {
    operationId := some "pets_list"
    parameters := [
      { reference := some "#/parameters/Sort" },
      { name := some "size", location := some "query", typeName := some "string"
        enumeration := some [.str "small", .str "large"] }] }))]
  parameters := [("Sort", {
    name := some "sort", location := some "query", typeName := some "string"
    enumeration := some [.str "asc", .str "desc"] })]
  definitions := [("Pet", { properties := [("name", { typeName := some "string" })] })]

theorem read_shelter : Document.read shelter = .ok shelterDocument := by
  let pet : Json := .obj [("properties", .obj [("name", .obj [("type", .str "string")])])]
  have hpet : Schema.read pet =
      .ok { properties := [("name", { typeName := some "string" })] } := by
    simp [pet, Schema.read, Schema.readMembers, Schema.readMember, Schema.readProperties,
      Schema.readNamed, Keywords.readMember, readOptional, readText, Except.map]
  have hframe : Document.read shelter =
      .ok (Document.addDefinition { shelterDocument with definitions := [] } "Pet" pet) := rfl
  rw [hframe, Document.addDefinition, hpet]
  rfl

theorem namesOnce_shelter : shelter.NamesOnce := by
  simp [shelter, namesOnce_obj_iff, namesOnce_arr_iff, NamesOnce.str, Fields.keys]

theorem inRecords_shelter : shelter.InRecords where
  items {path node} h := by
    by_cases hp : "/pets" = path <;> simp [shelter, child?, Fields.get?, hp] at h
    exact ⟨_, h.symm⟩
  responses {path method status node} h := by
    by_cases hp : "/pets" = path <;> by_cases hm : "get" = method <;>
      simp [shelter, child?, Fields.get?, hp, hm] at h

def originsOf (d : Document) : Option (List String × List String) :=
  (Build.run ⟨d, {}⟩).result.toOption.map fun m =>
    (m.catalog.composites.map (·.origin), m.catalog.enums.map (·.origin))

theorem originsOf_shelter : originsOf shelterDocument = some (["#/definitions/Pet"],
    ["#/paths/~1pets/get/parameters/0", "#/paths/~1pets/get/parameters/1"]) := by
  decide +kernel

theorem origins_lead_to_declarations_shelter :
    ∃ m, (Build.run ⟨shelterDocument, {}⟩).result = .ok m ∧
      (m.catalog.composites.map (·.origin), m.catalog.enums.map (·.origin)) =
        (["#/definitions/Pet"],
          ["#/paths/~1pets/get/parameters/0", "#/paths/~1pets/get/parameters/1"]) ∧
      (∀ c ∈ m.catalog.composites, ∃ p node s, c.origin = p.text ∧ shelter.LeadsTo p node ∧
        Schema.read node = .ok s ∧ c.StructuredAs shelterDocument s p) ∧
      ∀ e ∈ m.catalog.enums, ∃ p node, e.origin = p.text ∧ shelter.LeadsTo p node ∧
        node.child? "enum" = some (.arr (e.values.map fun v => .str v.wire)) := by
  have horigins := originsOf_shelter
  unfold originsOf at horigins
  cases hm : (Build.run ⟨shelterDocument, {}⟩).result with
  | error failure =>
    rw [hm] at horigins
    cases horigins
  | ok m =>
    rw [hm] at horigins
    exact ⟨m, rfl, Option.some.inj horigins, origins_lead_to_declarations namesOnce_shelter
      inRecords_shelter read_shelter hm⟩

/-- The origin of an enum that a shared parameter declares points at the reference to it, which
lists nothing. -/
theorem origin_of_shared_parameter :
    Document.read shelter = .ok shelterDocument ∧
      (originsOf shelterDocument).map (·.2.head?) =
        some (some "#/paths/~1pets/get/parameters/0") ∧
      shelter.pointee? "#/paths/~1pets/get/parameters/0" =
        some (.obj [("$ref", .str "#/parameters/Sort")]) ∧
      (shelter.pointee? "#/parameters/Sort").bind (·.child? "enum") =
        some (.arr [.str "asc", .str "desc"]) :=
  ⟨read_shelter, by rw [originsOf_shelter]; rfl, rfl, rfl⟩

end ApiModel
