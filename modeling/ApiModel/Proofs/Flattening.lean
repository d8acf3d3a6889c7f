import ApiModel.Grammars
import ApiModel.Proofs.Soundness

/-! # Parts of object types

The composite of an object type has the members of the schema and those of the inline parts of its
`allOf` for properties, and the part that is a reference for its base. All of that is there if there
is a model; but an inline part is not searched for parts of its own.
-/

namespace ApiModel

open Resolution

namespace Schema

variable {s t : Schema} {pointer q : Pointer}

/-- The schema and the inline parts of its `allOf`, and of theirs in turn. -/
inductive Comprises (s : Schema) (pointer : Pointer) : Schema → Pointer → Prop where
  | itself : Comprises s pointer s pointer
  | part {t : Schema} {q : Pointer} {part : Schema × Pointer} (h : Comprises s pointer t q)
      (hp : part ∈ t.inlineParts q) : Comprises s pointer part.1 part.2

def isFlat (s : Schema) : Bool :=
  s.allOf.all fun part => part.reference.isSome || part.allOf.isEmpty

theorem parts_eq_nil (h : s.allOf = []) : s.parts pointer = [] := by
  simp [parts, h]

theorem allOf_eq_nil_of_isFlat (hf : s.isFlat = true) {part : Schema × Pointer}
    (hp : part ∈ s.inlineParts pointer) : part.1.allOf = [] := by
  obtain ⟨hp, hr⟩ := List.mem_filter.mp hp
  obtain ⟨⟨schema, i⟩, hm, rfl⟩ := List.mem_map.mp hp
  have hflat := List.all_eq_true.mp hf schema (List.fst_mem_of_mem_zipIdx hm)
  simp_all

theorem Comprises.of_isFlat (hf : s.isFlat = true) (h : s.Comprises pointer t q) :
    (t = s ∧ q = pointer) ∨ (t, q) ∈ s.inlineParts pointer ∧ t.allOf = [] := by
  induction h with
  | itself => exact .inl ⟨rfl, rfl⟩
  | part _ hp ih =>
    obtain ⟨rfl, rfl⟩ | ⟨-, hnil⟩ := ih
    · exact .inr ⟨hp, allOf_eq_nil_of_isFlat hf hp⟩
    · rw [inlineParts, parts_eq_nil hnil] at hp
      cases hp

theorem Comprises.members_subset (hf : s.isFlat = true) (h : s.Comprises pointer t q) :
    t.members q ⊆ s.declaredMembers pointer := by
  obtain ⟨rfl, rfl⟩ | ⟨hp, -⟩ := h.of_isFlat hf
  · exact List.subset_append_left ..
  · exact fun m hm => List.mem_append_right _ (List.mem_flatMap.mpr ⟨_, hp, hm⟩)

theorem Comprises.baseParts_subset (hf : s.isFlat = true) (h : s.Comprises pointer t q) :
    t.baseParts q ⊆ s.baseParts pointer := by
  obtain ⟨rfl, rfl⟩ | ⟨-, hnil⟩ := h.of_isFlat hf
  · exact List.Subset.refl _
  · simp [baseParts, parts_eq_nil hnil]

end Schema

/-- A composite has what a schema and the inline parts of its `allOf` declare, and no more. -/
structure ClientModel.Flattens (m : ClientModel) (context : Context)
    (types : String → Option ModelType) (composite : Composite) (s : Schema) (pointer : Pointer) :
    Prop where
  nodup : (composite.properties.map (·.name)).Nodup
  declared : ∀ p ∈ composite.properties, ∃ member ∈ s.declaredMembers pointer,
    Becomes context m.catalog types composite.name (s.declaredRequired pointer) member p
  complete : ∀ member ∈ s.declaredMembers pointer, ∃ p ∈ composite.properties,
    p.name = member.name
  base : ∀ part ∈ s.baseParts pointer, ∃ id, composite.base = some id ∧
    HasType context m.catalog types (part.site composite.name) (.composite id)
  root : s.baseParts pointer = [] → composite.base = none
  deep : s.isFlat = true → ∀ {t q}, s.Comprises pointer t q →
    (∀ member ∈ t.members q, ∃ p ∈ composite.properties, p.name = member.name) ∧
    ∀ part ∈ t.baseParts q, ∃ id, composite.base = some id ∧
      HasType context m.catalog types (part.site composite.name) (.composite id)

namespace Resolution

variable {context : Context} {c : Catalog} {types : String → Option ModelType} {owner : String}

theorem HasBase.eq_some {parts : List BasePart} {base : Option CompositeId}
    (h : HasBase context c types False owner parts base) {part : BasePart} (hp : part ∈ parts) :
    ∃ id, base = some id ∧ HasType context c types (part.site owner) (.composite id) := by
  have hlength := h.2 not_false
  cases base with
  | none =>
    rw [List.length_eq_zero_iff.mp hlength] at hp
    cases hp
  | some id =>
    obtain ⟨first, others, rfl, ht⟩ := h.1 id rfl
    obtain rfl : others = [] := List.length_eq_zero_iff.mp (Nat.succ.inj hlength)
    obtain rfl := List.mem_singleton.mp hp
    exact ⟨id, rfl, ht⟩

theorem Described.flattens {m : ClientModel} {s : Schema} {pointer : Pointer}
    {composite : Composite} (h : Described context m.catalog types False s pointer composite) :
    m.Flattens context types composite s pointer where
  nodup := h.nodup_names
  declared _ hp := h.properties.exists_member hp
  complete _ hm := h.properties.exists_property Becomes.name_eq not_false hm
  base _ hp := h.base.eq_some hp
  root hnil := by
    cases hb : composite.base with
    | none => rfl
    | some id =>
      obtain ⟨part, others, hparts, -⟩ := h.base.1 id hb
      cases hnil.symm.trans hparts
  deep hf _ _ ht :=
    ⟨fun _ hm =>
      h.properties.exists_property Becomes.name_eq not_false (ht.members_subset hf hm),
      fun _ hp => h.base.eq_some (ht.baseParts_subset hf hp)⟩

end Resolution

/-- There are types for the definitions of a model such that each composite has exactly what its
schema and the inline parts of its `allOf` declare, and every part that is a reference there has the
base for its type. The same holds of parts at any depth unless inline parts have parts of their
own. -/
theorem parts_flattened {context : Context} {m : ClientModel} (hn : context.document.NamesOnce)
    (h : (Build.run context).result = .ok m) : ∃ types : String → Option ModelType,
      (∀ {name schema}, (name, schema) ∈ context.document.definitions → ∃ type,
        types name = some type ∧
          HasType context m.catalog types (definitionSite name schema) type) ∧
      ∀ {id composite schema pointer}, m.catalog.composite? id = some composite →
        context.document.Stands pointer schema → composite.origin = pointer.text →
          m.Flattens context types composite schema pointer := by
  obtain ⟨t, -, hf, hd, -, hm⟩ := Scene.finished_of_run h
  refine ⟨t.typeOf?, ?_, ?_⟩
  · intro name schema hmem
    obtain ⟨type, htype, ht⟩ := hf.typed_definition hd hn hmem
    exact ⟨type, htype, hm ▸ ht.mono (Hierarchy.grows_settled t.catalog) fun ht => ht⟩
  · intro id composite schema pointer hc hs ho
    rw [hm] at hc
    have hdescribed := hf.described_of_origin hd hn hs hc ho
    rw [← hm] at hdescribed
    exact hdescribed.flattens

theorem parts_flattened_kennel : kennel.NamesOnce ∧ ∃ m types composite dog,
    (Build.run ⟨kennel, {}⟩).result = .ok m ∧ m.catalog.composite? ⟨1⟩ = some composite ∧
      kennel.Stands (Pointer.definition "Dog") dog ∧
      composite.origin = (Pointer.definition "Dog").text ∧
      m.Flattens ⟨kennel, {}⟩ types composite dog (Pointer.definition "Dog") := by
  have horigin : ((Build.run ⟨kennel, {}⟩).result.toOption.bind fun m =>
      (m.catalog.composite? ⟨1⟩).map (·.origin)) = some (Pointer.definition "Dog").text := by
    decide +kernel
  have hn : Document.NamesOnce (Context.document ⟨kennel, {}⟩) := by decide +kernel
  cases hm : (Build.run ⟨kennel, {}⟩).result with
  | error failure =>
    rw [hm] at horigin
    cases horigin
  | ok m =>
    rw [hm] at horigin
    obtain ⟨composite, hc, ho⟩ := Option.map_eq_some_iff.mp horigin
    obtain ⟨types, -, hflattens⟩ := parts_flattened hn hm
    have hdog : kennel.Stands (Pointer.definition "Dog") _ := .definition rfl
    exact ⟨hn, m, types, composite, _, rfl, hc, hdog, ho, hflattens hc hdog ho⟩

def foal : Schema :=
  { allOf := [{
      properties := [("age", .typed "integer" none)]
      allOf := [.referenceTo "Horse", { properties := [("name", .typed "string" none)] }] }] }

def nursery : Document where
  definitions := [
    ("Foal", foal),
    ("Horse", { properties := [("height", .typed "integer" none)] })]

/-- What is declared by a part of a part is missing, and so is the base that it refers to. -/
theorem nested_parts_lost :
    (∃ part q, foal.Comprises (Pointer.definition "Foal") part q ∧
      (part.members q).map (·.name) = ["name"]) ∧
    (∃ part q, foal.Comprises (Pointer.definition "Foal") part q ∧
      (part.baseParts q).map (·.reference) = ["#/definitions/Horse"]) ∧
    (Build.run ⟨nursery, {}⟩).result.toOption.map (fun m =>
        m.catalog.composites.map fun c => (c.name, c.base, c.properties.map (·.name))) =
      some [("Foal", none, ["age"]), ("Horse", none, ["height"])] := by
  have hpart : foal.Comprises (Pointer.definition "Foal") _ _ :=
    .part .itself (List.mem_singleton_self _)
  exact ⟨⟨_, _, .part hpart (List.mem_singleton_self _), rfl⟩, ⟨_, _, hpart, rfl⟩,
    by decide +kernel⟩

end ApiModel
