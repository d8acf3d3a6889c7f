import ApiModel.Proofs.Invariant
import Mathlib.Data.List.Nodup

/-! # Spelling of references

A reference may spell the name of a definition in another case. Documents that differ in this way
only have the same definitions, members and routes, and their references lead to the same
definitions if no two of these have names that differ in case only.
-/

namespace ApiModel

open Text (caseKey)

theorem Fields.get?_map {α β : Type} (f : α → β) (fields : List (String × α)) (key : String) :
    get? (fields.map fun p => (p.1, f p.2)) key = (get? fields key).map f := by
  induction fields with
  | nil => rfl
  | cons p rest ih =>
    obtain ⟨k, v⟩ := p
    rw [List.map_cons, get?_cons, get?_cons, ih]
    split <;> rfl

namespace Document

variable {d : Document} {name name' a b : String}

def CaseDistinct (d : Document) : Prop := ((Fields.keys d.definitions).map caseKey).Nodup

instance : Decidable d.CaseDistinct := inferInstanceAs (Decidable (List.Nodup _))

theorem CaseDistinct.name_eq (h : d.CaseDistinct) {x y : Schema}
    (ha : Fields.get? d.definitions a = some x) (hb : Fields.get? d.definitions b = some y)
    (hk : caseKey a = caseKey b) : a = b :=
  List.inj_on_of_nodup_map h (Fields.get?_isSome_iff.mp (by rw [ha]; rfl))
    (Fields.get?_isSome_iff.mp (by rw [hb]; rfl)) hk

theorem CaseDistinct.definition?_iff (h : d.CaseDistinct) {schema : Schema} :
    d.definition? name = some (a, schema) ↔
      Fields.get? d.definitions a = some schema ∧ caseKey a = caseKey name := by
  refine ⟨fun hd => ⟨Resolution.Scene.get?_of_definition? hd,
    Resolution.Scene.caseKey_of_definition? hd⟩, ?_⟩
  rintro ⟨ha, hk⟩
  cases hd : d.definition? name with
  | some found =>
    obtain ⟨canonical, schema'⟩ := found
    have hc := Resolution.Scene.get?_of_definition? hd
    obtain rfl := h.name_eq ha hc (hk.trans (Resolution.Scene.caseKey_of_definition? hd).symm)
    cases ha.symm.trans hc
    rfl
  | none =>
    unfold definition? at hd
    split at hd
    · cases hd
    · have hnone := List.find?_eq_none.mp hd (a, schema) (Fields.mem_of_get? ha)
      exact absurd (beq_iff_eq.mpr hk) hnone

theorem CaseDistinct.definition?_congr (h : d.CaseDistinct) (hk : caseKey name = caseKey name') :
    d.definition? name = d.definition? name' := by
  refine Option.ext fun ⟨a, schema⟩ => ?_
  rw [h.definition?_iff, h.definition?_iff, hk]

theorem isMalformed_congr (hk : caseKey name = caseKey name') :
    d.isMalformed name = d.isMalformed name' := by
  simp only [isMalformed, hk]

end Document

/-- Two texts are the same reference, or refer to definitions by names that differ in case only. -/
def Reference.SameUpToCase (text text' : String) : Prop :=
  text = text' ∨ ∃ name name', parse? text = some ⟨.definitions, name⟩ ∧
    parse? text' = some ⟨.definitions, name'⟩ ∧ caseKey name = caseKey name'

def Additional.map {α β : Type} (f : α → β) : Additional α → Additional β
  | .flag allowed => .flag allowed
  | .schema value => .schema (f value)
  | .malformed value => .malformed value

namespace Schema

mutual

def respell (f : String → String) : Schema → Schema
  | ⟨keywords, items, additional, properties, allOf⟩ =>
    ⟨{ keywords with reference := keywords.reference.map f }, respellOption f items,
      respellAdditional f additional, respellProperties f properties, respellList f allOf⟩

def respellOption (f : String → String) : Option Schema → Option Schema
  | none => none
  | some s => some (respell f s)

def respellAdditional (f : String → String) :
    Option (Additional Schema) → Option (Additional Schema)
  | some (.schema s) => some (.schema (respell f s))
  | additional => additional

def respellProperties (f : String → String) : List (String × Schema) → List (String × Schema)
  | [] => []
  | (name, s) :: rest => (name, respell f s) :: respellProperties f rest

def respellList (f : String → String) : List Schema → List Schema
  | [] => []
  | s :: rest => respell f s :: respellList f rest

end

section

variable (f : String → String)

theorem respellOption_eq (items : Option Schema) :
    respellOption f items = items.map (respell f) := by
  cases items <;> rfl

theorem respellAdditional_eq (additional : Option (Additional Schema)) :
    respellAdditional f additional = additional.map (Additional.map (respell f)) := by
  cases additional with
  | none => rfl
  | some additional => cases additional <;> rfl

theorem respellProperties_eq (properties : List (String × Schema)) :
    respellProperties f properties = properties.map fun p => (p.1, respell f p.2) := by
  induction properties with
  | nil => rfl
  | cons p rest ih => rw [respellProperties, ih, List.map_cons]

theorem respellList_eq (schemas : List Schema) :
    respellList f schemas = schemas.map (respell f) := by
  induction schemas with
  | nil => rfl
  | cons s rest ih => rw [respellList, ih, List.map_cons]

variable (s : Schema)

@[simp] theorem toKeywords_respell :
    (s.respell f).toKeywords = { s.toKeywords with reference := s.reference.map f } := by
  cases s
  rfl

@[simp] theorem items_respell : (s.respell f).items = s.items.map (respell f) := by
  cases s
  exact respellOption_eq ..

@[simp] theorem additional_respell :
    (s.respell f).additional = s.additional.map (Additional.map (respell f)) := by
  cases s
  exact respellAdditional_eq ..

@[simp] theorem properties_respell :
    (s.respell f).properties = s.properties.map fun p => (p.1, respell f p.2) := by
  cases s
  exact respellProperties_eq ..

@[simp] theorem allOf_respell : (s.respell f).allOf = s.allOf.map (respell f) := by
  cases s
  exact respellList_eq ..

end

mutual

theorem size_respell (f : String → String) (s : Schema) : (s.respell f).size = s.size := by
  cases s
  simp only [respell, size, optionSize_respell, additionalSize_respell, propertySize_respell,
    listSize_respell]

theorem optionSize_respell (f : String → String) (items : Option Schema) :
    optionSize (respellOption f items) = optionSize items := by
  cases items with
  | none => rfl
  | some s => exact size_respell f s

theorem additionalSize_respell (f : String → String) (additional : Option (Additional Schema)) :
    additionalSize (respellAdditional f additional) = additionalSize additional := by
  cases additional with
  | none => rfl
  | some additional =>
    cases additional with
    | schema s => exact size_respell f s
    | _ => rfl

theorem propertySize_respell (f : String → String) (properties : List (String × Schema)) :
    propertySize (respellProperties f properties) = propertySize properties := by
  cases properties with
  | nil => rfl
  | cons p rest =>
    obtain ⟨name, s⟩ := p
    simp only [respellProperties, propertySize, size_respell f s, propertySize_respell f rest]

theorem listSize_respell (f : String → String) (schemas : List Schema) :
    listSize (respellList f schemas) = listSize schemas := by
  cases schemas with
  | nil => rfl
  | cons s rest => simp only [respellList, listSize, size_respell f s, listSize_respell f rest]

end

end Schema

def Route.respell (f : String → String) : Route → Route
  | .reference text => .reference (f text)
  | .dictionary value => .dictionary (value.map (Schema.respell f))
  | route => route

def Site.respell (f : String → String) (site : Site) : Site :=
  { site with schema := site.schema.respell f }

def Member.respell (f : String → String) (m : Member) : Member :=
  { m with schema := m.schema.respell f }

def BasePart.respell (f : String → String) (part : BasePart) : BasePart :=
  { part with reference := f part.reference, schema := part.schema.respell f }

def ParameterNode.respell (f : String → String) (p : ParameterNode) : ParameterNode :=
  { p with schema := p.schema.map (Schema.respell f), items := p.items.map (Schema.respell f) }

def ResponseNode.respell (f : String → String) (r : ResponseNode) : ResponseNode :=
  { r with schema := r.schema.map (Schema.respell f) }

def OperationNode.respell (f : String → String) (o : OperationNode) : OperationNode :=
  { o with
    parameters := o.parameters.map (ParameterNode.respell f)
    responses := o.responses.map fun r => (r.1, r.2.respell f) }

def PathItem.respell (f : String → String) (item : PathItem) : PathItem where
  operation? m := (item.operation? m).map (OperationNode.respell f)
  parameters := item.parameters.map (ParameterNode.respell f)

def Document.respell (f : String → String) (d : Document) : Document :=
  { d with
    paths := d.paths.map fun p => (p.1, p.2.respell f)
    definitions := d.definitions.map fun p => (p.1, p.2.respell f)
    parameters := d.parameters.map fun p => (p.1, p.2.respell f) }

/-- The documents are the same but for references that are related: who takes such references for
the same cannot tell the documents apart. -/
def Document.Respelled (R : String → String → Prop) (d e : Document) : Prop :=
  ∀ f : String → String, (∀ text text', R text text' → f text = f text') → d.respell f = e.respell f

namespace Schema

variable (f : String → String) (s : Schema) (pointer : Pointer)

@[simp] theorem extension?_respell (name : String) :
    (s.respell f).extension? name = s.extension? name := by
  simp [extension?]

@[simp] theorem stringEnum?_respell : (s.respell f).stringEnum? = s.stringEnum? := by
  simp [stringEnum?]

@[simp] theorem isArray_respell : (s.respell f).isArray = s.isArray := by
  simp [isArray]

@[simp] theorem dictionary?_respell :
    (s.respell f).dictionary? = s.dictionary?.map (Option.map (respell f)) := by
  unfold dictionary?
  rw [additional_respell]
  cases s.additional with
  | none => rfl
  | some additional =>
    cases additional with
    | flag allowed => cases allowed <;> rfl
    | _ => rfl

@[simp] theorem hasObjectStructure_respell :
    (s.respell f).hasObjectStructure = s.hasObjectStructure := by
  simp [hasObjectStructure, List.isEmpty_map]

@[simp] theorem marksDictionary_respell :
    (s.respell f).marksDictionary = s.marksDictionary := by
  unfold marksDictionary
  rw [additional_respell]
  cases s.additional with
  | none => rfl
  | some additional =>
    cases additional with
    | flag allowed => cases allowed <;> rfl
    | _ => rfl

@[simp] theorem isComposite_respell : (s.respell f).isComposite = s.isComposite := by
  simp [isComposite]

@[simp] theorem listsOneValue_respell : (s.respell f).listsOneValue = s.listsOneValue := by
  simp [listsOneValue]

theorem route_respell : (s.respell f).route = s.route.respell f := by
  unfold route
  simp only [toKeywords_respell, stringEnum?_respell, additional_respell, isArray_respell,
    dictionary?_respell, hasObjectStructure_respell]
  cases s.reference with
  | some text => rfl
  | none =>
    cases s.stringEnum? with
    | some values => rfl
    | none =>
      cases s.additional with
      | none => cases s.isArray <;> cases s.dictionary? <;> cases s.hasObjectStructure <;> rfl
      | some additional =>
        cases additional with
        | malformed value => rfl
        | _ => cases s.isArray <;> cases s.dictionary? <;> cases s.hasObjectStructure <;> rfl

theorem members_respell : (s.respell f).members pointer =
    (s.members pointer).map (Member.respell f) := by
  simp [members, Member.respell, Function.comp_def]

theorem parts_respell : (s.respell f).parts pointer =
    (s.parts pointer).map fun p => (p.1.respell f, p.2) := by
  simp [parts, List.zipIdx_map, Function.comp_def]

theorem inlineParts_respell : (s.respell f).inlineParts pointer =
    (s.inlineParts pointer).map fun p => (p.1.respell f, p.2) := by
  simp [inlineParts, parts_respell, List.filter_map, Function.comp_def]

theorem baseParts_respell : (s.respell f).baseParts pointer =
    (s.baseParts pointer).map (BasePart.respell f) := by
  simp [baseParts, parts_respell, List.filterMap_map, List.map_filterMap, Function.comp_def,
    BasePart.respell]

theorem declaredMembers_respell : (s.respell f).declaredMembers pointer =
    (s.declaredMembers pointer).map (Member.respell f) := by
  simp [declaredMembers, members_respell, inlineParts_respell, List.flatMap_map, List.map_flatMap]

theorem declaredRequired_respell : (s.respell f).declaredRequired pointer =
    s.declaredRequired pointer := by
  simp [declaredRequired, inlineParts_respell, List.flatMap_map]

theorem declaredDiscriminator_respell : (s.respell f).declaredDiscriminator pointer =
    s.declaredDiscriminator pointer := by
  simp [declaredDiscriminator, inlineParts_respell, List.findSome?_map, Function.comp_def]

end Schema

section

variable (f : String → String)

@[simp] theorem ParameterNode.asSchema_respell (p : ParameterNode) :
    (p.respell f).asSchema = p.asSchema.respell f := by
  simp only [asSchema, ParameterNode.respell, Schema.respell, Schema.respellOption_eq,
    Schema.respellAdditional_eq, Schema.respellProperties_eq, Schema.respellList_eq]
  rfl

theorem PathItem.operations_respell (item : PathItem) : (item.respell f).operations =
    item.operations.map fun o => (o.1, o.2.respell f) := by
  simp only [operations, PathItem.respell, List.map_filterMap, Option.map_map, Function.comp_def]

namespace Document

variable (d : Document)

theorem keys_definitions_respell :
    Fields.keys (d.respell f).definitions = Fields.keys d.definitions := by
  simp only [Fields.keys, Document.respell, List.map_map, Function.comp_def]

variable {f d} in
theorem caseDistinct_respell : (d.respell f).CaseDistinct ↔ d.CaseDistinct := by
  rw [CaseDistinct, CaseDistinct, keys_definitions_respell]

theorem get?_definitions_respell (name : String) :
    Fields.get? (d.respell f).definitions name =
      (Fields.get? d.definitions name).map (Schema.respell f) :=
  Fields.get?_map ..

theorem definition?_respell (name : String) : (d.respell f).definition? name =
    (d.definition? name).map fun p => (p.1, p.2.respell f) := by
  unfold definition?
  rw [get?_definitions_respell]
  cases Fields.get? d.definitions name with
  | some s => rfl
  | none => exact List.find?_map ..

theorem propertySize_definitions_respell :
    Schema.propertySize (d.respell f).definitions = Schema.propertySize d.definitions := by
  rw [← Schema.propertySize_respell f d.definitions, Schema.respellProperties_eq]
  rfl

end Document

end

end ApiModel
