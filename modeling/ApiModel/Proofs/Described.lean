import ApiModel.Proofs.Typing
import ApiModel.Proofs.Nesting

/-! # What composites say

A composite that has been filled in says what its schema declares: a property for each name among
the members, the first member of a name deciding, and the base that the schema refers to. Members
and bases are missing only where something may have been lost.
-/

namespace ApiModel

def Member.site (m : Member) (owner : String) : Site :=
  ⟨m.schema, Naming.nested owner m.name, m.pointer, owner⟩

def BasePart.site (part : BasePart) (owner : String) : Site :=
  ⟨part.schema, owner, part.pointer, owner⟩

namespace Resolution

def memberProperty (document : Document) (required : List String) (m : Member) (type : ModelType)
    (constraints : Constraints) : Property :=
  { name := m.name, type, required := required.contains m.name
    readOnly := m.schema.readOnly.getD false
    constant := required.contains m.name && allowsOneValue document m.schema
    description := m.schema.description
    defaultValue := m.schema.defaultValue
    constraints }

variable {context : Context} {c d : Catalog} {types types' : String → Option ModelType}
  {owner : String} {required : List String} {lossy lossy' : Prop}

/-- A property says what a member declares. -/
def Becomes (context : Context) (c : Catalog) (types : String → Option ModelType)
    (owner : String) (required : List String) (m : Member) (p : Property) : Prop :=
  ∃ type constraints, HasType context c types (m.site owner) type ∧
    constraintsOf context.grammars m.schema.facets m.pointer = .ok constraints ∧
    p = memberProperty context.document required m type constraints

theorem Becomes.name_eq {m : Member} {p : Property}
    (h : Becomes context c types owner required m p) : p.name = m.name := by
  obtain ⟨_, _, -, -, rfl⟩ := h; rfl

theorem Becomes.mono (hc : c.Grows d) (ht : ∀ {name type}, types name = some type →
    types' name = some type) {m : Member} {p : Property}
    (h : Becomes context c types owner required m p) :
    Becomes context d types' owner required m p := by
  obtain ⟨type, constraints, h, he, rfl⟩ := h
  exact ⟨type, constraints, h.mono hc ht, he, rfl⟩

/-- The properties of some members: one for each name, by the first member of the name. -/
inductive Gathers (becomes : Member → Property → Prop) (lossy : Prop) :
    List Member → List Property → Prop where
  | nil : Gathers becomes lossy [] []
  | new {members : List Member} {properties : List Property} {m : Member} {p : Property}
      (h : Gathers becomes lossy members properties) (hn : ∀ q ∈ properties, q.name ≠ m.name)
      (hp : becomes m p) : Gathers becomes lossy (members ++ [m]) (properties ++ [p])
  | again {members : List Member} {properties : List Property} {m : Member} {p : Property}
      (h : Gathers becomes lossy members properties) (hn : ∃ q ∈ properties, q.name = m.name)
      (hp : becomes m p) : Gathers becomes lossy (members ++ [m]) properties
  | lost {members : List Member} {properties : List Property} {m : Member}
      (h : Gathers becomes lossy members properties) (hl : lossy) :
      Gathers becomes lossy (members ++ [m]) properties

namespace Gathers

variable {becomes becomes' : Member → Property → Prop} {members : List Member}
  {properties : List Property}

theorem mono (hb : ∀ {m p}, becomes m p → becomes' m p) (hl : lossy → lossy')
    (h : Gathers becomes lossy members properties) :
    Gathers becomes' lossy' members properties := by
  induction h with
  | nil => exact .nil
  | new _ hn hp ih => exact .new ih hn (hb hp)
  | again _ hn hp ih => exact .again ih hn (hb hp)
  | lost _ hl' ih => exact .lost ih (hl hl')

theorem exists_member (h : Gathers becomes lossy members properties) {p : Property}
    (hp : p ∈ properties) : ∃ m ∈ members, becomes m p := by
  induction h with
  | nil => cases hp
  | new _ _ hb ih =>
    rcases List.mem_append.mp hp with hp | hp
    · obtain ⟨m, hm, hmp⟩ := ih hp
      exact ⟨m, List.mem_append_left _ hm, hmp⟩
    · obtain rfl := List.mem_singleton.mp hp
      exact ⟨_, List.mem_append_right _ (List.mem_singleton_self _), hb⟩
  | again _ _ _ ih | lost _ _ ih =>
    obtain ⟨m, hm, hmp⟩ := ih hp
    exact ⟨m, List.mem_append_left _ hm, hmp⟩

theorem exists_property (hb : ∀ {m p}, becomes m p → p.name = m.name) (hl : ¬lossy)
    (h : Gathers becomes lossy members properties) {m : Member} (hm : m ∈ members) :
    ∃ p ∈ properties, p.name = m.name := by
  induction h with
  | nil => cases hm
  | new _ _ hp ih =>
    rcases List.mem_append.mp hm with hm | hm
    · obtain ⟨p, hp, hn⟩ := ih hm
      exact ⟨p, List.mem_append_left _ hp, hn⟩
    · obtain rfl := List.mem_singleton.mp hm
      exact ⟨_, List.mem_append_right _ (List.mem_singleton_self _), hb hp⟩
  | again _ hn _ ih =>
    rcases List.mem_append.mp hm with hm | hm
    · exact ih hm
    · exact List.mem_singleton.mp hm ▸ hn
  | lost _ hl' => exact absurd hl' hl

theorem nodup_names (hb : ∀ {m p}, becomes m p → p.name = m.name)
    (h : Gathers becomes lossy members properties) : (properties.map (·.name)).Nodup := by
  induction h with
  | nil => exact List.nodup_nil
  | new _ hn hp ih =>
    rw [List.map_append, List.nodup_append]
    refine ⟨ih, by simp, fun a ha b hb' => ?_⟩
    obtain ⟨q, hq, rfl⟩ := List.mem_map.mp ha
    obtain rfl : b = _ := List.mem_singleton.mp hb'
    show q.name ≠ Property.name _
    exact (hb hp).symm ▸ hn q hq
  | again _ _ _ ih | lost _ _ ih => exact ih

end Gathers

def HasBase (context : Context) (c : Catalog) (types : String → Option ModelType) (lossy : Prop)
    (owner : String) (parts : List BasePart) (base : Option CompositeId) : Prop :=
  (∀ id, base = some id → ∃ part others, parts = part :: others ∧
    HasType context c types (part.site owner) (.composite id)) ∧
  (¬lossy → parts.length = base.toList.length)

theorem HasBase.mono (hc : c.Grows d) (ht : ∀ {name type}, types name = some type →
    types' name = some type) (hl : lossy → lossy') {parts : List BasePart}
    {base : Option CompositeId} (h : HasBase context c types lossy owner parts base) :
    HasBase context d types' lossy' owner parts base := by
  refine ⟨fun id hid => ?_, fun hn => h.2 fun h' => hn (hl h')⟩
  obtain ⟨part, others, hp, htyped⟩ := h.1 id hid
  exact ⟨part, others, hp, htyped.mono hc ht⟩

/-- A composite says what the schema at a pointer declares. -/
structure Described (context : Context) (c : Catalog) (types : String → Option ModelType)
    (lossy : Prop) (s : Schema) (pointer : Pointer) (composite : Composite) : Prop where
  description : composite.description = s.description
  discriminator : composite.discriminator = s.declaredDiscriminator pointer
  value : composite.discriminatorValue = declaredValue context.settings composite.name s
  properties : Gathers (Becomes context c types composite.name (s.declaredRequired pointer)) lossy
    (s.declaredMembers pointer) composite.properties
  base : HasBase context c types lossy composite.name (s.baseParts pointer) composite.base

theorem Described.mono (hc : c.Grows d) (ht : ∀ {name type}, types name = some type →
    types' name = some type) (hl : lossy → lossy') {s : Schema} {pointer : Pointer}
    {composite : Composite} (h : Described context c types lossy s pointer composite) :
    Described context d types' lossy' s pointer composite :=
  { h with
    properties := h.properties.mono (fun hb => hb.mono hc ht) hl
    base := h.base.mono hc ht hl }

theorem Described.nodup_names {s : Schema} {pointer : Pointer} {composite : Composite}
    (h : Described context c types lossy s pointer composite) :
    (composite.properties.map (·.name)).Nodup :=
  h.properties.nodup_names Becomes.name_eq

/-- Where nothing was lost each member's name occurs exactly once. -/
theorem Described.count_eq_one {s : Schema} {pointer : Pointer} {composite : Composite}
    (h : Described context c types lossy s pointer composite) (hl : ¬lossy) {m : Member}
    (hm : m ∈ s.declaredMembers pointer) :
    (composite.properties.map (·.name)).count m.name = 1 := by
  obtain ⟨p, hp, hn⟩ := h.properties.exists_property Becomes.name_eq hl hm
  rw [h.nodup_names.count, if_pos (hn ▸ List.mem_map_of_mem hp)]

end Resolution

end ApiModel
