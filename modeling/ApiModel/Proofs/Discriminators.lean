import ApiModel.Grammars
import ApiModel.Proofs.Lineage
import ApiModel.Proofs.Overrides

/-! # Discriminators

The declaration of a discriminator is looked for above the root of a hierarchy only, though a type
below it may declare the property again. What is declared again is compatible, and what is
compatible with a text is a text, so every type of the hierarchy sees its discriminator as one.
-/

namespace ApiModel

variable {c : Catalog} {id r a b : CompositeId} {chain : List CompositeId} {name : String}
  {p q : Property} {root : Composite}

/-- Types whose values are JSON strings. -/
inductive ModelType.Textual : ModelType → Prop where
  | string : Textual (.scalar .string)
  | char : Textual (.scalar .char)
  | enum (id : EnumId) : Textual (.enum id)

theorem Hierarchy.isTextual_iff {t : ModelType} : isTextual t = true ↔ t.Textual := by
  constructor
  · intro h
    cases t with
    | scalar kind =>
      simp only [isTextual, Scalar.isTextual, Bool.or_eq_true, decide_eq_true_eq] at h
      rcases h with rfl | rfl
      · exact .string
      · exact .char
    | enum id => exact .enum id
    | _ => cases h
  · rintro ⟨⟩ <;> rfl

namespace Catalog

theorem Compatible.textual {s t : ModelType} (h : c.Compatible s t) (hs : s.Textual) :
    t.Textual := by
  cases h with
  | scalar kind => exact hs
  | enum hx hy hv => exact .enum _
  | composite id => exact hs
  | sequence h => cases hs
  | dictionary h => cases hs

/-- The nearest of a composite and its ancestors with a property. -/
inductive Nearest (c : Catalog) (P : CompositeId → Prop) : CompositeId → CompositeId → Prop where
  | here {id : CompositeId} (h : P id) : Nearest c P id id
  | above {id base a : CompositeId} (hn : ¬P id) (hb : c.HasBase id base)
      (h : Nearest c P base a) : Nearest c P id a

namespace Nearest

variable {P : CompositeId → Prop}

theorem holds (h : c.Nearest P id a) : P a := by
  induction h with
  | here h => exact h
  | above _ _ _ ih => exact ih

theorem link (h : c.Nearest P id a) : Relation.ReflTransGen c.HasBase id a := by
  induction h with
  | here => exact .refl
  | above _ hb _ ih => exact ih.head hb

end Nearest

theorem exists_nearest {P : CompositeId → Prop} (hl : Relation.ReflTransGen c.HasBase id a)
    (h : P a) : ∃ b, c.Nearest P id b := by
  induction hl using Relation.ReflTransGen.head_induction_on with
  | refl => exact ⟨a, .here h⟩
  | @head id base hb _ ih =>
    obtain ⟨b, hn⟩ := ih
    by_cases hp : P id
    · exact ⟨id, .here hp⟩
    · exact ⟨b, .above hp hb hn⟩

theorem BaseChain.mem_cons_iff (h : c.BaseChain id chain) :
    a ∈ id :: chain ↔ Relation.ReflTransGen c.HasBase id a := by
  rw [List.mem_cons, h.mem_iff, Relation.reflTransGen_iff_eq_or_transGen]

def Declares (c : Catalog) (name : String) (id : CompositeId) (p : Property) : Prop :=
  ∃ composite, c.composite? id = some composite ∧ p ∈ composite.properties ∧ p.name = name

/-- What a composite sees under a name is the nearest declaration among its own and those of its
ancestors. -/
def Sees (c : Catalog) (name : String) (id : CompositeId) (p : Property) : Prop :=
  ∃ a, c.Nearest (fun b => ∃ q, c.Declares name b q) id a ∧ c.Declares name a p

theorem Agree.compatible (h : c.Agree a b) (hp : c.Declares name a p) (hq : c.Declares name b q) :
    c.Compatible p.type q.type := by
  obtain ⟨x, hx, hp, rfl⟩ := hp
  obtain ⟨y, hy, hq, hn⟩ := hq
  exact h hx hy p hp q hq hn.symm

end Catalog

namespace Hierarchy

theorem declares_settled : (settled c).Declares name id p ↔ c.Declares name id p := by
  constructor
  · rintro ⟨x, hx, hp, hn⟩
    obtain ⟨old, ho, rfl⟩ := exists_of_composite?_settled hx
    exact ⟨old, ho, hp, hn⟩
  · rintro ⟨x, hx, hp, hn⟩
    exact ⟨settle (chains c) id x, by rw [composite?_settled, hx]; rfl, hp, hn⟩

theorem nearest_settled {P : CompositeId → Prop} :
    (settled c).Nearest P id a ↔ c.Nearest P id a := by
  constructor
  · intro h
    induction h with
    | here h => exact .here h
    | above hn hb _ ih => exact .above hn (hasBase_settled c ▸ hb) ih
  · intro h
    induction h with
    | here h => exact .here h
    | above hn hb _ ih => exact .above hn (hasBase_settled c ▸ hb) ih

theorem sees_settled : (settled c).Sees name id p ↔ c.Sees name id p := by
  simp only [Catalog.Sees, nearest_settled, declares_settled]

theorem valueOf_settled (c : Catalog) : valueOf (settled c) = valueOf c := by
  funext id
  unfold valueOf
  rw [composite?_settled]
  cases c.composite? id <;> rfl

theorem defects_eq_nil_iff : defects c = [] ↔
    cycles c = [] ∧ overrideDefects c = [] ∧ discriminatorDefects c = [] := by
  simp [defects]

theorem mem_members_iff (hb : c.BasesWithin) (hc : cycles c = [])
    (hr : r.index < c.composites.length) : id ∈ r :: descendants (chains c) r ↔
      id.index < c.composites.length ∧ Relation.ReflTransGen c.HasBase id r := by
  rw [List.mem_cons, mem_descendants, Relation.reflTransGen_iff_eq_or_transGen]
  constructor
  · rintro (rfl | ⟨chain, hid, hchain, hmem⟩)
    · exact ⟨hr, .inl rfl⟩
    · exact ⟨hid, .inr ((baseChain_of_chain? hchain).mem_iff.mp hmem)⟩
  · rintro ⟨hid, rfl | hlink⟩
    · exact .inl rfl
    · obtain ⟨chain, hchain⟩ := exists_ancestors? hb hc hid
      exact .inr ⟨chain, hid, hchain, (baseChain_of_chain? hchain).mem_iff.mpr hlink⟩

/-- What the test of a hierarchy has found where it reports nothing: above the root a text is
declared, and the values of the members all differ. -/
theorem discriminated (hv : c.Valid) (h : defects c = []) (hr : c.composite? r = some root)
    (hd : root.discriminator = some name) :
    (∃ a p, Relation.ReflTransGen c.HasBase r a ∧ c.Declares name a p ∧ p.type.Textual) ∧
      ((r :: descendants (chains c) r).map (valueOf c)).Nodup := by
  obtain ⟨hcycles, -, hdiscriminators⟩ := defects_eq_nil_iff.mp h
  obtain ⟨chain, hchain⟩ := exists_ancestors? hv.bases hcycles (Catalog.index_lt hr)
  have hnone := List.flatMap_eq_nil_iff.mp hdiscriminators (r, chain)
    (mem_chains.mpr ⟨Catalog.index_lt hr, hchain⟩)
  obtain ⟨⟨a, p, hnear, htext⟩, hvalues⟩ :=
    discriminatorDefectsOf_eq_nil_iff.mp hnone root hr name hd
  obtain ⟨before, after, x, hl, hx, hp, -⟩ := nearest?_eq_some hnear
  obtain ⟨hp, hn⟩ := property?_eq_some hp
  have ha : a ∈ r :: chain := by
    rw [hl]
    exact List.mem_append_right _ (List.mem_cons_self ..)
  exact ⟨⟨a, p, (baseChain_of_chain? hchain).mem_cons_iff.mp ha, ⟨x, hx, hp, hn⟩,
    isTextual_iff.mp htext⟩, hvalues⟩

/-- A member of a hierarchy sees the discriminator as a text. The declaration above the root is on
the chain of the member, and all declarations on one chain are compatible. -/
theorem sees_discriminator (hv : c.Valid) (h : defects c = []) (hr : c.composite? r = some root)
    (hd : root.discriminator = some name) (hid : id ∈ r :: descendants (chains c) r) :
    (∃ p, c.Sees name id p) ∧ ∀ p, c.Sees name id p → p.type.Textual := by
  obtain ⟨⟨a, q, hra, hq, htext⟩, -⟩ := discriminated hv h hr hd
  obtain ⟨hcycles, hoverrides, -⟩ := defects_eq_nil_iff.mp h
  obtain ⟨hlt, hlink⟩ := (mem_members_iff hv.bases hcycles (Catalog.index_lt hr)).mp hid
  obtain ⟨chain, hchain⟩ := exists_ancestors? hv.bases hcycles hlt
  have hchain := baseChain_of_chain? hchain
  have ha : a ∈ id :: chain := hchain.mem_cons_iff.mpr (hlink.trans hra)
  constructor
  · obtain ⟨b, hb⟩ := Catalog.exists_nearest (P := fun b => ∃ q, c.Declares name b q)
      (hlink.trans hra) ⟨q, hq⟩
    obtain ⟨p, hp⟩ := hb.holds
    exact ⟨p, b, hb, hp⟩
  · rintro p ⟨b, hb, hp⟩
    have hb : b ∈ id :: chain := hchain.mem_cons_iff.mpr hb.link
    have hagree := agree_of_mem hv (harmonious_of_overrideDefects hv hoverrides) hchain a ha b hb
    exact (hagree.compatible hq hp).textual htext

end Hierarchy

open Resolution Hierarchy

/-- A model has the settled form of a valid catalog without defects. -/
theorem Resolution.exists_catalog_of_run {context : Context} {m : ClientModel}
    (h : (Build.run context).result = .ok m) :
    ∃ c : Catalog, c.Valid ∧ defects c = [] ∧ m.catalog = settled c := by
  obtain ⟨t, -, hf, -, hh, hcatalog⟩ := Scene.finished_of_run h
  exact ⟨t.catalog, hf.valid, hh, hcatalog⟩

theorem Resolution.exists_baseChain_of_run {context : Context} {m : ClientModel} {x : Composite}
    (h : (Build.run context).result = .ok m) (hx : m.catalog.composite? id = some x) :
    m.catalog.BasesWithin ∧ ∃ chain, m.catalog.BaseChain id chain := by
  obtain ⟨c, hv, hdefects, hcatalog⟩ := exists_catalog_of_run h
  rw [hcatalog] at hx ⊢
  obtain ⟨old, ho, rfl⟩ := exists_of_composite?_settled hx
  obtain ⟨hcycles, -, -⟩ := defects_eq_nil_iff.mp hdefects
  obtain ⟨chain, hchain⟩ := exists_ancestors? hv.bases hcycles (Catalog.index_lt ho)
  exact ⟨(valid_settled hv).bases, chain, baseChain_settled.mpr (baseChain_of_chain? hchain)⟩

/-- In a model that is handed out, all types of a hierarchy with a discriminator see it as a text,
and no two of them have one value for it. -/
theorem discriminators_hold {context : Context} {m : ClientModel} {r : CompositeId}
    {root : Composite} {name : String} (h : (Build.run context).result = .ok m)
    (hr : m.catalog.composite? r = some root) (hd : root.discriminator = some name) :
    (∀ id ∈ r :: root.derived, (∃ p, m.catalog.Sees name id p) ∧
      ∀ p, m.catalog.Sees name id p → p.type.Textual) ∧
    ((r :: root.derived).map (valueOf m.catalog)).Nodup := by
  obtain ⟨c, hv, hdefects, hcatalog⟩ := exists_catalog_of_run h
  rw [hcatalog] at hr ⊢
  obtain ⟨old, ho, rfl⟩ := exists_of_composite?_settled hr
  constructor
  · intro id hid
    obtain ⟨⟨p, hp⟩, htext⟩ := sees_discriminator hv hdefects ho hd hid
    exact ⟨⟨p, sees_settled.mpr hp⟩, fun q hq => htext q (sees_settled.mp hq)⟩
  · rw [valueOf_settled]
    exact (discriminated hv hdefects ho hd).2

def pedigree : Document where
  info := { title := "Pedigree", version := "1" }
  definitions := [
    ("Pet", {
      discriminator := some "kind"
      properties := [("kind", { typeName := some "string" })] }),
    ("Dog", {
      allOf := [.referenceTo "Pet"]
      extensions := [("x-ms-discriminator-value", .str "dog")] }),
    ("Puppy", {
      allOf := [.referenceTo "Dog"]
      properties := [("kind", { typeName := some "string" })] })]

theorem discriminators_hold_pedigree : ∃ m root, (Build.run ⟨pedigree, {}⟩).result = .ok m ∧
    m.catalog.composite? ⟨0⟩ = some root ∧ root.derived = [⟨1⟩, ⟨2⟩] ∧
    (∃ p, m.catalog.Sees "kind" ⟨2⟩ p ∧ p.type.Textual) ∧
    valueOf m.catalog ⟨1⟩ ≠ valueOf m.catalog ⟨2⟩ := by
  have hok : ((Build.run ⟨pedigree, {}⟩).result.toOption.bind fun m =>
      (m.catalog.composite? ⟨0⟩).map fun root => (root.discriminator, root.derived)) =
        some (some "kind", [⟨1⟩, ⟨2⟩]) := by decide +kernel
  cases h : (Build.run ⟨pedigree, {}⟩).result with
  | error failure =>
    rw [h] at hok
    cases hok
  | ok m =>
    rw [h] at hok
    obtain ⟨root, hr, hroot⟩ := Option.map_eq_some_iff.mp hok
    obtain ⟨hd, hderived⟩ := Prod.mk.inj hroot
    obtain ⟨hsees, hvalues⟩ := discriminators_hold h hr hd
    rw [hderived] at hsees hvalues
    obtain ⟨⟨p, hp⟩, htext⟩ := hsees ⟨2⟩ (by simp)
    refine ⟨m, root, rfl, hr, hderived, ⟨p, hp, htext p hp⟩, ?_⟩
    obtain ⟨-, hbelow⟩ := List.nodup_cons.mp hvalues
    obtain ⟨hne, -⟩ := List.nodup_cons.mp hbelow
    intro heq
    apply hne
    simp [heq]

end ApiModel
