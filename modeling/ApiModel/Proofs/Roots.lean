import ApiModel.Grammars
import ApiModel.Model.Summary
import ApiModel.Proofs.Dispatch
import ApiModel.Proofs.Soundness

/-! # Roots

A composite has a discriminator exactly where its schema declares one, whatever lies above it. So
hierarchies may be nested; then a type belongs to the innermost hierarchy around it. Two hierarchies
are nested or have no type in common, since the bases of a type form a chain.
-/

namespace ApiModel

variable {c : Catalog} {id r q a b : CompositeId} {chain : List CompositeId} {name : String}
  {m : ClientModel}

namespace Catalog

theorem Nearest.reaches {P : CompositeId → Prop} (h : c.Nearest P id r)
    (hl : Relation.ReflTransGen c.HasBase id a) (ha : P a) :
    Relation.ReflTransGen c.HasBase r a := by
  induction h with
  | here => exact hl
  | above hn hb _ ih =>
    rcases Relation.ReflTransGen.cases_head hl with rfl | ⟨base, hb', hl⟩
    · exact absurd ha hn
    · obtain rfl := rightUnique_hasBase hb hb'
      exact ih hl

theorem BaseChain.eq_of_links (h : c.BaseChain a chain)
    (hab : Relation.ReflTransGen c.HasBase a b) (hba : Relation.ReflTransGen c.HasBase b a) :
    a = b := by
  rcases Relation.reflTransGen_iff_eq_or_transGen.mp hab with rfl | hab
  · rfl
  · exact absurd (h.mem_iff.mpr (hab.trans_left hba)) h.not_mem

theorem Nearest.eq {P : CompositeId → Prop} (h : c.Nearest P id r) (h' : c.Nearest P id q)
    (hc : c.BaseChain r chain) : r = q :=
  hc.eq_of_links (h.reaches h'.link h'.holds)
    (h'.reaches h.link h.holds)

end Catalog

namespace ClientModel

/-- The types of the hierarchy below a composite, which is itself one of them. -/
def members (m : ClientModel) (id : CompositeId) : List CompositeId :=
  id :: ((m.catalog.composite? id).map (·.derived)).getD []

theorem members_eq {x : Composite} (hx : m.catalog.composite? id = some x) :
    m.members id = id :: x.derived := by
  simp [members, hx]

def IsRoot (m : ClientModel) (id : CompositeId) : Prop := ∃ name, m.catalog.Discriminates id name

theorem IsRoot.exists_composite (h : m.IsRoot id) : ∃ x, m.catalog.composite? id = some x := by
  obtain ⟨_, x, hx, -⟩ := h
  exact ⟨x, hx⟩

theorem mem_polymorphicRoots : name ∈ (Summary.ofModel m).polymorphicRoots ↔
    ∃ r x, m.catalog.composite? r = some x ∧ m.IsRoot r ∧ x.name = name := by
  simp only [Summary.ofModel, List.mem_map, List.mem_filter, Option.isSome_iff_exists]
  constructor
  · rintro ⟨x, ⟨hx, hd⟩, hn⟩
    obtain ⟨i, hi⟩ := List.mem_iff_getElem?.mp hx
    obtain ⟨d, hd⟩ := hd
    exact ⟨⟨i⟩, x, hi, ⟨d, x, hi, hd⟩, hn⟩
  · rintro ⟨r, x, hx, ⟨d, y, hy, hd⟩, hn⟩
    obtain rfl := Option.some.inj (hx.symm.trans hy)
    exact ⟨x, ⟨List.mem_of_getElem? hx, d, hd⟩, hn⟩

/-- A graph of types whose base links form trees, with the members of each hierarchy known. -/
structure IsForest (m : ClientModel) : Prop where
  bases : m.catalog.BasesWithin
  chains : ∀ {id x}, m.catalog.composite? id = some x → ∃ chain, m.catalog.BaseChain id chain
  mem_members : ∀ {r x id}, m.catalog.composite? r = some x → (id ∈ m.members r ↔
    id.index < m.catalog.composites.length ∧ Relation.ReflTransGen m.catalog.HasBase id r)

namespace IsForest

theorem exists_composite (h : m.IsForest) {x : Composite} (hx : m.catalog.composite? r = some x)
    (hid : id ∈ m.members r) : ∃ y, m.catalog.composite? id = some y :=
  ⟨_, List.getElem?_eq_getElem ((h.mem_members hx).mp hid).1⟩

theorem root_iff (h : m.IsForest) {x : Composite} (hx : m.catalog.composite? id = some x) :
    m.polymorphicRoot? id = some r ↔ m.catalog.Nearest m.IsRoot id r := by
  obtain ⟨chain, hchain⟩ := h.chains hx
  unfold polymorphicRoot?
  rw [ancestors_eq h.bases (Catalog.index_lt hx) hchain]
  refine (hchain.nearest_iff fun a => ?_).symm
  simp only [IsRoot, Option.isSome_iff_exists, discriminatorOf?_eq_some]

theorem exists_root (h : m.IsForest) (hr : m.IsRoot r) (hid : id ∈ m.members r) :
    ∃ q, m.polymorphicRoot? id = some q ∧ m.IsRoot q ∧ id ∈ m.members q ∧ q ∈ m.members r := by
  obtain ⟨x, hx⟩ := hr.exists_composite
  obtain ⟨y, hy⟩ := h.exists_composite hx hid
  obtain ⟨hlt, hl⟩ := (h.mem_members hx).mp hid
  obtain ⟨q, hq⟩ := Catalog.exists_nearest hl hr
  obtain ⟨z, hz⟩ := hq.holds.exists_composite
  exact ⟨q, (h.root_iff hy).mpr hq, hq.holds, (h.mem_members hz).mpr ⟨hlt, hq.link⟩,
    (h.mem_members hx).mpr ⟨Catalog.index_lt hz, hq.reaches hl hr⟩⟩

/-- Hierarchies with a type in common are nested. -/
theorem nested (h : m.IsForest) (hr : m.IsRoot r) (hq : m.IsRoot q) (hidr : id ∈ m.members r)
    (hidq : id ∈ m.members q) : q ∈ m.members r ∨ r ∈ m.members q := by
  obtain ⟨x, hx⟩ := hr.exists_composite
  obtain ⟨y, hy⟩ := hq.exists_composite
  obtain ⟨-, hlr⟩ := (h.mem_members hx).mp hidr
  obtain ⟨-, hlq⟩ := (h.mem_members hy).mp hidq
  rcases hlr.total_of_right_unique Catalog.rightUnique_hasBase hlq with hl | hl
  · exact .inr ((h.mem_members hy).mpr ⟨Catalog.index_lt hx, hl⟩)
  · exact .inl ((h.mem_members hx).mpr ⟨Catalog.index_lt hy, hl⟩)

theorem root_eq_iff (h : m.IsForest) (hr : m.IsRoot r) :
    (∀ id ∈ m.members r, m.polymorphicRoot? id = some r) ↔
      ∀ id ∈ m.members r, m.IsRoot id → id = r := by
  obtain ⟨x, hx⟩ := hr.exists_composite
  constructor
  · intro hall id hid hroot
    obtain ⟨y, hy⟩ := hroot.exists_composite
    have hhere : m.polymorphicRoot? id = some id := (h.root_iff hy).mpr (.here hroot)
    exact Option.some.inj (hhere.symm.trans (hall id hid))
  · intro hnone id hid
    obtain ⟨q, hroot, hq, -, hmem⟩ := h.exists_root hr hid
    exact hnone q hmem hq ▸ hroot

theorem disjoint_iff (h : m.IsForest) :
    (∀ r q, m.IsRoot r → m.IsRoot q → r ≠ q → (m.members r).Disjoint (m.members q)) ↔
      ∀ r, m.IsRoot r → ∀ id ∈ m.members r, m.IsRoot id → id = r := by
  constructor
  · intro hdisjoint r hr id hid hroot
    by_contra hne
    exact hdisjoint r id hr hroot (Ne.symm hne) hid (List.mem_cons_self ..)
  · intro hnone r q hr hq hne id hidr hidq
    rcases h.nested hr hq hidr hidq with hmem | hmem
    · exact hne (hnone r hr q hmem hq).symm
    · exact hne (hnone q hq r hmem hr)

end IsForest

end ClientModel

open Resolution Hierarchy

namespace Resolution

variable {context : Context}

theorem isForest_of_run (h : (Build.run context).result = .ok m) : m.IsForest where
  bases := by
    obtain ⟨c, hv, -, hcatalog⟩ := exists_catalog_of_run h
    exact hcatalog ▸ (valid_settled hv).bases
  chains hx := (exists_baseChain_of_run h hx).2
  mem_members := by
    intro r x id hx
    obtain ⟨c, hv, hdefects, hcatalog⟩ := exists_catalog_of_run h
    rw [ClientModel.members_eq hx]
    rw [hcatalog] at hx ⊢
    obtain ⟨old, ho, rfl⟩ := exists_of_composite?_settled hx
    rw [length_settled, hasBase_settled]
    exact mem_members_iff hv.bases (defects_eq_nil_iff.mp hdefects).1 (Catalog.index_lt ho)

theorem exists_declared_of_run (h : (Build.run context).result = .ok m) {x : Composite}
    (hx : m.catalog.composite? id = some x) : ∃ schema pointer,
      context.document.Stands pointer schema ∧ x.origin = pointer.text ∧
        x.discriminator = schema.declaredDiscriminator pointer := by
  obtain ⟨t, -, hf, -, -, hcatalog⟩ := Scene.finished_of_run h
  rw [hcatalog] at hx
  obtain ⟨old, ho, rfl⟩ := exists_of_composite?_settled hx
  obtain ⟨schema, pointer, hs, -, horigin, hdescribed⟩ := hf.described ho
  exact ⟨schema, pointer, hs, horigin, hdescribed.discriminator⟩

end Resolution

/-- In a model that is handed out, the types with a discriminator are those whose schemas declare
one; the summary lists them all. A type belongs to the innermost hierarchy around it, and two
hierarchies are nested or have nothing in common. Only where no root lies below another do all
members of a hierarchy have its root, and do no two hierarchies share a type. -/
theorem roots_of_hierarchies {context : Context} (h : (Build.run context).result = .ok m) :
    (∀ id x, m.catalog.composite? id = some x → ∃ schema pointer,
      context.document.Stands pointer schema ∧ x.origin = pointer.text ∧
        x.discriminator = schema.declaredDiscriminator pointer) ∧
    (∀ name, name ∈ (Summary.ofModel m).polymorphicRoots ↔
      ∃ r x, m.catalog.composite? r = some x ∧ m.IsRoot r ∧ x.name = name) ∧
    (∀ r id, m.IsRoot r → id ∈ m.members r → ∃ q, m.polymorphicRoot? id = some q ∧
      m.IsRoot q ∧ id ∈ m.members q ∧ q ∈ m.members r) ∧
    (∀ r q, m.IsRoot r → m.IsRoot q →
      (m.members r).Disjoint (m.members q) ∨ q ∈ m.members r ∨ r ∈ m.members q) ∧
    (∀ r, m.IsRoot r → ((∀ id ∈ m.members r, m.polymorphicRoot? id = some r) ↔
      ∀ id ∈ m.members r, m.IsRoot id → id = r)) ∧
    ((∀ r q, m.IsRoot r → m.IsRoot q → r ≠ q → (m.members r).Disjoint (m.members q)) ↔
      ∀ r, m.IsRoot r → ∀ id ∈ m.members r, m.IsRoot id → id = r) := by
  have hf := isForest_of_run h
  refine ⟨fun id x hx => exists_declared_of_run h hx,
    fun name => ClientModel.mem_polymorphicRoots, fun r id hr hid => hf.exists_root hr hid,
    fun r q hr hq => ?_, fun r hr => hf.root_eq_iff hr, hf.disjoint_iff⟩
  by_cases hd : (m.members r).Disjoint (m.members q)
  · exact .inl hd
  · simp only [List.Disjoint, not_forall] at hd
    obtain ⟨id, hidr, hidq, -⟩ := hd
    exact .inr (hf.nested hr hq hidr hidq)

def aquarium : Document where
  info := { title := "Aquarium", version := "1" }
  definitions := [
    ("Animal", {
      discriminator := some "kind"
      properties := [("kind", { typeName := some "string" })] }),
    ("Fish", {
      allOf := [.referenceTo "Animal"]
      discriminator := some "species"
      properties := [("species", { typeName := some "string" })] }),
    ("Salmon", { allOf := [.referenceTo "Fish"] })]

theorem roots_of_hierarchies_aquarium : ∃ m, (Build.run ⟨aquarium, {}⟩).result = .ok m ∧
    m.polymorphicRoot? ⟨2⟩ = some ⟨1⟩ ∧ ⟨2⟩ ∈ m.members ⟨1⟩ ∧ ⟨1⟩ ∈ m.members ⟨0⟩ := by
  have hok : ((Build.run ⟨aquarium, {}⟩).result.toOption.map fun m =>
      (m.discriminatorOf? ⟨0⟩, m.members ⟨0⟩, m.polymorphicRoot? ⟨2⟩)) =
        some (some "kind", [⟨0⟩, ⟨1⟩, ⟨2⟩], some ⟨1⟩) := by decide +kernel
  obtain ⟨m, hm, hok⟩ := Option.map_eq_some_iff.mp hok
  have h := eq_ok_of_toOption hm
  obtain ⟨hroot, hmembers, hpolymorphic⟩ : m.discriminatorOf? ⟨0⟩ = some "kind" ∧
      m.members ⟨0⟩ = [⟨0⟩, ⟨1⟩, ⟨2⟩] ∧ m.polymorphicRoot? ⟨2⟩ = some ⟨1⟩ := by
    simpa using hok
  have hr : m.IsRoot ⟨0⟩ := ⟨"kind", ClientModel.discriminatorOf?_eq_some.mp hroot⟩
  obtain ⟨q, hq, -, hmem, hbelow⟩ :=
    (roots_of_hierarchies h).2.2.1 ⟨0⟩ ⟨2⟩ hr (by simp [hmembers])
  obtain rfl := Option.some.inj (hq.symm.trans hpolymorphic)
  exact ⟨m, h, hq, hmem, hbelow⟩

/-- A type may have a discriminator though an ancestor has one. Those below both types belong to the
hierarchy of the lower, so the members of the upper one have different roots. -/
theorem discriminator_below_root : ∃ m, (Build.run ⟨aquarium, {}⟩).result = .ok m ∧
    m.IsRoot ⟨0⟩ ∧ m.IsRoot ⟨1⟩ ∧ ⟨0⟩ ∈ m.ancestors ⟨1⟩ ∧
    m.polymorphicRoot? ⟨0⟩ = some ⟨0⟩ ∧ m.polymorphicRoot? ⟨2⟩ = some ⟨1⟩ ∧
    (m.catalog.composite? ⟨0⟩).map (·.derived) = some [⟨1⟩, ⟨2⟩] ∧
    (m.catalog.composite? ⟨1⟩).map (·.derived) = some [⟨2⟩] ∧
    (Summary.ofModel m).polymorphicRoots = ["Animal", "Fish"] := by
  have hok : ((Build.run ⟨aquarium, {}⟩).result.toOption.map fun m =>
      [m.discriminatorOf? ⟨0⟩, m.discriminatorOf? ⟨1⟩]) = some [some "kind", some "species"] ∧
      ((Build.run ⟨aquarium, {}⟩).result.toOption.map fun m =>
      (m.ancestors ⟨1⟩, m.polymorphicRoot? ⟨0⟩, m.polymorphicRoot? ⟨2⟩)) =
        some ([⟨0⟩], some ⟨0⟩, some ⟨1⟩) ∧
      ((Build.run ⟨aquarium, {}⟩).result.toOption.map fun m =>
      ((m.catalog.composite? ⟨0⟩).map (·.derived), (m.catalog.composite? ⟨1⟩).map (·.derived),
        (Summary.ofModel m).polymorphicRoots)) =
        some (some [⟨1⟩, ⟨2⟩], some [⟨2⟩], ["Animal", "Fish"]) := by decide +kernel
  obtain ⟨m, hm, -⟩ := Option.map_eq_some_iff.mp hok.1
  rw [hm] at hok
  simp only [Option.map_some, Option.some.injEq, Prod.mk.injEq, List.cons.injEq] at hok
  obtain ⟨⟨hanimal, hfish, -⟩, ⟨hancestors, hfirst, hlast⟩, hrest⟩ := hok
  exact ⟨m, eq_ok_of_toOption hm, ⟨"kind", ClientModel.discriminatorOf?_eq_some.mp hanimal⟩,
    ⟨"species", ClientModel.discriminatorOf?_eq_some.mp hfish⟩, by simp [hancestors], hfirst,
    hlast, hrest⟩

end ApiModel
