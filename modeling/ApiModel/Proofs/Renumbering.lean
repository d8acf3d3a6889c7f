import ApiModel.Model.Client
import ApiModel.Proofs.Overrides
import Mathlib.Data.Fintype.Card
import Mathlib.Logic.Equiv.Basic
import Mathlib.Logic.Equiv.Fin.Basic

/-! # Renumbered models

Two models say the same of an API if the one is the other with its composites and enums in another
order. A renumbering tells which index an entry of the first has in the second; types, properties
and methods are carried over by it.
-/

namespace ApiModel

open Text (caseKey)

/-- New indices for the composites and the enums of a model. -/
structure Renumbering where
  composites : Equiv.Perm Nat
  enums : Equiv.Perm Nat

namespace Renumbering

variable (ρ : Renumbering)

def composite (id : CompositeId) : CompositeId := ⟨ρ.composites id.index⟩

def enum (id : EnumId) : EnumId := ⟨ρ.enums id.index⟩

def type : ModelType → ModelType
  | .scalar kind => .scalar kind
  | .enum id => .enum (ρ.enum id)
  | .sequence element => .sequence (type element)
  | .dictionary value => .dictionary (type value)
  | .composite id => .composite (ρ.composite id)

def property (p : Property) : Property := { p with type := ρ.type p.type }

def parameter (p : Parameter) : Parameter := { p with type := ρ.type p.type }

def response (r : Response) : Response := { r with body := r.body.map ρ.type }

def method (m : Method) : Method :=
  { m with
    parameters := m.parameters.map ρ.parameter
    responses := m.responses.map fun r => (r.1, ρ.response r.2)
    defaultResponse := m.defaultResponse.map ρ.response }

variable {ρ}

@[simp] theorem composite_inj {a b : CompositeId} : ρ.composite a = ρ.composite b ↔ a = b := by
  obtain ⟨i⟩ := a
  obtain ⟨j⟩ := b
  simp [composite]

@[simp] theorem enum_inj {a b : EnumId} : ρ.enum a = ρ.enum b ↔ a = b := by
  obtain ⟨i⟩ := a
  obtain ⟨j⟩ := b
  simp [enum]

theorem composite_surjective : Function.Surjective ρ.composite := fun id =>
  ⟨⟨ρ.composites.symm id.index⟩, by simp [composite]⟩

theorem enum_surjective : Function.Surjective ρ.enum := fun id =>
  ⟨⟨ρ.enums.symm id.index⟩, by simp [enum]⟩

@[simp] theorem property_name (p : Property) : (ρ.property p).name = p.name := rfl

@[simp] theorem property_type (p : Property) : (ρ.property p).type = ρ.type p.type := rfl

end Renumbering

/-- The same composite with the indices of another model. -/
structure Composite.Renumbered (ρ : Renumbering) (a b : Composite) : Prop where
  name : b.name = a.name
  origin : b.origin = a.origin
  description : b.description = a.description
  properties : b.properties = a.properties.map ρ.property
  base : b.base = a.base.map ρ.composite
  discriminator : b.discriminator = a.discriminator
  discriminatorValue : b.discriminatorValue = a.discriminatorValue
  derived : b.derived.Perm (a.derived.map ρ.composite)
  progress : b.progress = a.progress

/-- The same enum. One that has a name may be spelled as another occurrence of the name, and have
the origin of that. -/
structure EnumType.Renumbered (a b : EnumType) : Prop where
  values : b.values = a.values
  expandable : b.expandable = a.expandable
  name : b.name.map caseKey = a.name.map caseKey
  origin : a.name = none → b.origin = a.origin

structure Catalog.Renumbered (ρ : Renumbering) (c d : Catalog) : Prop where
  composites : ∀ id, Option.Rel (Composite.Renumbered ρ) (c.composite? id)
    (d.composite? (ρ.composite id))
  enums : ∀ id, Option.Rel EnumType.Renumbered (c.enum? id) (d.enum? (ρ.enum id))
  findComposite : ∀ name, d.findComposite? name = (c.findComposite? name).map ρ.composite
  findEnum : ∀ name, d.findEnum? name = (c.findEnum? name).map ρ.enum
  compositeCount : d.composites.length = c.composites.length
  enumCount : d.enums.length = c.enums.length

/-- The same model with other indices. The methods come in the same order. -/
structure ClientModel.Renumbered (ρ : Renumbering) (m n : ClientModel) : Prop where
  name : n.name = m.name
  apiVersion : n.apiVersion = m.apiVersion
  baseUrl : n.baseUrl = m.baseUrl
  description : n.description = m.description
  catalog : m.catalog.Renumbered ρ n.catalog
  methods : n.methods = m.methods.map ρ.method

namespace Catalog.Renumbered

variable {ρ : Renumbering} {c d : Catalog} {id : CompositeId} {composite : Composite}

theorem exists_composite (h : c.Renumbered ρ d) (hc : c.composite? id = some composite) :
    ∃ other, d.composite? (ρ.composite id) = some other ∧
      Composite.Renumbered ρ composite other := by
  have hrel := h.composites id
  rw [hc] at hrel
  generalize hd : d.composite? (ρ.composite id) = found at hrel
  cases hrel with
  | some hrel => exact ⟨_, rfl, hrel⟩

theorem composite?_eq_none (h : c.Renumbered ρ d) (hc : c.composite? id = none) :
    d.composite? (ρ.composite id) = none := by
  have hrel := h.composites id
  rw [hc] at hrel
  generalize hd : d.composite? (ρ.composite id) = found at hrel
  cases hrel
  rfl

theorem exists_enum (h : c.Renumbered ρ d) {id : EnumId} {e : EnumType}
    (he : c.enum? id = some e) : ∃ other, d.enum? (ρ.enum id) = some other ∧
      EnumType.Renumbered e other := by
  have hrel := h.enums id
  rw [he] at hrel
  generalize hd : d.enum? (ρ.enum id) = found at hrel
  cases hrel with
  | some hrel => exact ⟨_, rfl, hrel⟩

theorem enum?_eq_none (h : c.Renumbered ρ d) {id : EnumId} (he : c.enum? id = none) :
    d.enum? (ρ.enum id) = none := by
  have hrel := h.enums id
  rw [he] at hrel
  generalize hd : d.enum? (ρ.enum id) = found at hrel
  cases hrel
  rfl

theorem nameOf (h : c.Renumbered ρ d) (id : CompositeId) :
    d.nameOf (ρ.composite id) = c.nameOf id := by
  unfold Catalog.nameOf
  cases hc : c.composite? id with
  | none => rw [h.composite?_eq_none hc]
  | some composite =>
    obtain ⟨other, hd, hr⟩ := h.exists_composite hc
    rw [hd]
    exact hr.name

theorem baseOf? (h : c.Renumbered ρ d) (id : CompositeId) :
    d.baseOf? (ρ.composite id) = (c.baseOf? id).map ρ.composite := by
  unfold Catalog.baseOf?
  cases hc : c.composite? id with
  | none =>
    rw [h.composite?_eq_none hc]
    rfl
  | some composite =>
    obtain ⟨other, hd, hr⟩ := h.exists_composite hc
    rw [hd]
    exact hr.base

theorem compatible (h : c.Renumbered ρ d) (x y : ModelType) :
    d.compatible (ρ.type x) (ρ.type y) = c.compatible x y := by
  induction x generalizing y with
  | scalar kind => cases y <;> rfl
  | enum i =>
    cases y with
    | enum j =>
      show d.sameValues (ρ.enum i) (ρ.enum j) = c.sameValues i j
      have hsame : (ρ.enum i == ρ.enum j) = (i == j) := by
        rw [Bool.eq_iff_iff, beq_iff_eq, beq_iff_eq, Renumbering.enum_inj]
      unfold sameValues
      rw [hsame]
      cases hi : c.enum? i with
      | none => rw [h.enum?_eq_none hi]
      | some e =>
        obtain ⟨e', he', hre⟩ := h.exists_enum hi
        rw [he']
        cases hj : c.enum? j with
        | none => rw [h.enum?_eq_none hj]
        | some f =>
          obtain ⟨f', hf', hrf⟩ := h.exists_enum hj
          rw [hf']
          simp only [hre.values, hrf.values]
    | _ => rfl
  | sequence element ih =>
    cases y with
    | sequence element' => exact ih element'
    | _ => rfl
  | dictionary value ih =>
    cases y with
    | dictionary value' => exact ih value'
    | _ => rfl
  | composite i =>
    cases y with
    | composite j =>
      show (ρ.composite i == ρ.composite j) = (i == j)
      rw [Bool.eq_iff_iff, beq_iff_eq, beq_iff_eq, Renumbering.composite_inj]
    | _ => rfl

end Catalog.Renumbered

namespace Catalog

variable {ρ : Renumbering} {c d : Catalog}

theorem Keyed.findComposite?_eq (hk : c.Keyed) (hk' : d.Keyed)
    (h : ∀ id, Option.Rel (Composite.Renumbered ρ) (c.composite? id)
      (d.composite? (ρ.composite id))) (name : String) :
    d.findComposite? name = (c.findComposite? name).map ρ.composite := by
  have hiff : ∀ id, d.findComposite? name = some (ρ.composite id) ↔
      c.findComposite? name = some id := by
    intro id
    rw [hk' name, hk name]
    have hrel := h id
    generalize c.composite? id = a at hrel
    generalize d.composite? (ρ.composite id) = b at hrel
    cases hrel with
    | none => simp
    | some hrel => simp [hrel.name]
  cases hc : c.findComposite? name with
  | some id => exact (hiff id).mpr hc
  | none =>
    rw [Option.map_none, Option.eq_none_iff_forall_ne_some]
    intro other hother
    obtain ⟨id, rfl⟩ := ρ.composite_surjective other
    exact nomatch hc.symm.trans ((hiff id).mp hother)

theorem EnumsKeyed.findEnum?_eq (hk : c.EnumsKeyed) (hk' : d.EnumsKeyed)
    (h : ∀ id, Option.Rel EnumType.Renumbered (c.enum? id) (d.enum? (ρ.enum id)))
    (name : String) : d.findEnum? name = (c.findEnum? name).map ρ.enum := by
  have hiff : ∀ id, d.findEnum? name = some (ρ.enum id) ↔ c.findEnum? name = some id := by
    intro id
    rw [hk'.find name, hk.find name]
    have hrel := h id
    generalize c.enum? id = a at hrel
    generalize d.enum? (ρ.enum id) = b at hrel
    cases hrel with
    | none => simp
    | @some e e' hrel =>
      have hname := hrel.name
      cases hn : e.name <;> cases hn' : e'.name <;> simp_all
  cases hc : c.findEnum? name with
  | some id => exact (hiff id).mpr hc
  | none =>
    rw [Option.map_none, Option.eq_none_iff_forall_ne_some]
    intro other hother
    obtain ⟨id, rfl⟩ := ρ.enum_surjective other
    exact nomatch hc.symm.trans ((hiff id).mp hother)

end Catalog

theorem exists_perm_of_correspondence {n m : Nat} {R : Nat → Nat → Prop}
    (hleft : ∀ i < n, ∃ j < m, R i j) (hright : ∀ j < m, ∃ i < n, R i j)
    (hfun : ∀ {i j j'}, R i j → R i j' → j = j') (hinj : ∀ {i i' j}, R i j → R i' j → i = i') :
    m = n ∧ ∃ π : Equiv.Perm Nat, (∀ i < n, R i (π i)) ∧ ∀ i, n ≤ i → π i = i := by
  choose f hf using fun i : Fin n => hleft i i.isLt
  let g : Fin n → Fin m := fun i => ⟨f i, (hf i).1⟩
  have hbij : Function.Bijective g := by
    constructor
    · intro i i' h
      have heq : f i = f i' := congrArg Fin.val h
      exact Fin.ext (hinj (hf i).2 (heq ▸ (hf i').2))
    · intro j
      obtain ⟨i, hi, hr⟩ := hright j j.isLt
      exact ⟨⟨i, hi⟩, Fin.ext (hfun (hf ⟨i, hi⟩).2 hr)⟩
  obtain rfl : n = m := by
    simpa using Fintype.card_of_bijective hbij
  let e : Equiv.Perm (Fin n) := Equiv.ofBijective g hbij
  refine ⟨rfl, e.extendDomain Fin.equivSubtype, fun i hi => ?_, fun i hi => ?_⟩
  · rw [Equiv.Perm.extendDomain_apply_subtype e Fin.equivSubtype hi]
    exact (hf ⟨i, hi⟩).2
  · exact Equiv.Perm.extendDomain_apply_not_subtype e Fin.equivSubtype (Nat.not_lt.mpr hi)

end ApiModel
