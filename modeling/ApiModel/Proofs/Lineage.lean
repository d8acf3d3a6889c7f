import ApiModel.Proofs.Renumbering

/-! # Hierarchies of renumbered catalogs

Hierarchies follow base links and compare names, types and values, so they do not depend on the
indices of the composites. What depends on the order of the composites is which of several defects
is reported and how it is worded, but not whether there is one.
-/

namespace ApiModel

variable {ρ : Renumbering} {c d : Catalog} {id a : CompositeId} {chain : List CompositeId}

namespace Catalog.Renumbered

theorem index_lt_iff (h : c.Renumbered ρ d) :
    (ρ.composite id).index < d.composites.length ↔ id.index < c.composites.length := by
  constructor
  · intro hlt
    by_contra hn
    have hnone : c.composite? id = none := List.getElem?_eq_none (Nat.not_lt.mp hn)
    exact absurd hlt (Nat.not_lt.mpr (List.getElem?_eq_none_iff.mp (h.composite?_eq_none hnone)))
  · intro hlt
    obtain ⟨composite, hc⟩ := composite?_of_index_lt hlt
    obtain ⟨other, hd, -⟩ := h.exists_composite hc
    exact Catalog.index_lt hd

end Catalog.Renumbered

namespace Hierarchy

open Catalog (Renumbered)

theorem chain?_renumbered (h : c.Renumbered ρ d) (n : Nat) (id : CompositeId) :
    chain? d n (ρ.composite id) = (chain? c n id).map (List.map ρ.composite) := by
  induction n generalizing id with
  | zero =>
    unfold chain?
    rw [h.baseOf?]
    cases c.baseOf? id <;> rfl
  | succ n ih =>
    unfold chain?
    rw [h.baseOf?]
    cases c.baseOf? id with
    | none => rfl
    | some base =>
      simp only [Option.map_some, ih, Option.map_map]
      rfl

theorem ancestors?_renumbered (h : c.Renumbered ρ d) (id : CompositeId) :
    ancestors? d (ρ.composite id) = (ancestors? c id).map (List.map ρ.composite) := by
  unfold ancestors?
  rw [h.compositeCount, chain?_renumbered h]

theorem mem_chains_renumbered (h : c.Renumbered ρ d) :
    (ρ.composite id, chain.map ρ.composite) ∈ chains d ↔ (id, chain) ∈ chains c := by
  have hinj : Function.Injective (List.map ρ.composite) :=
    List.map_injective_iff.mpr fun _ _ => Renumbering.composite_inj.mp
  rw [mem_chains, mem_chains, h.index_lt_iff, ancestors?_renumbered h]
  refine and_congr_right fun _ => ?_
  cases ancestors? c id with
  | none => simp
  | some other => simp [hinj.eq_iff]

theorem exists_of_mem_chains (h : c.Renumbered ρ d) {other : CompositeId}
    {links : List CompositeId} (hm : (other, links) ∈ chains d) :
    ∃ id chain, (id, chain) ∈ chains c ∧ ρ.composite id = other ∧
      chain.map ρ.composite = links := by
  obtain ⟨id, rfl⟩ := ρ.composite_surjective other
  obtain ⟨hlt, ha⟩ := mem_chains.mp hm
  rw [ancestors?_renumbered h] at ha
  obtain ⟨chain, hchain, rfl⟩ := Option.map_eq_some_iff.mp ha
  exact ⟨id, chain, mem_chains.mpr ⟨h.index_lt_iff.mp hlt, hchain⟩, rfl, rfl⟩

theorem exists_baseChain_renumbered (h : c.Renumbered ρ d) :
    (∃ links, d.BaseChain (ρ.composite id) links) ↔ ∃ chain, c.BaseChain id chain := by
  constructor
  · rintro ⟨links, hlinks⟩
    have hchain := chain?_renumbered h links.length id
    rw [hlinks.chain?_eq_some (Nat.le_refl _)] at hchain
    obtain ⟨chain, hchain, -⟩ := Option.map_eq_some_iff.mp hchain.symm
    exact ⟨chain, baseChain_of_chain? hchain⟩
  · rintro ⟨chain, hchain⟩
    have hlinks := chain?_renumbered h chain.length id
    rw [hchain.chain?_eq_some (Nat.le_refl _)] at hlinks
    exact ⟨_, baseChain_of_chain? hlinks⟩

theorem cycles_renumbered (h : c.Renumbered ρ d) : cycles d = [] ↔ cycles c = [] := by
  rw [cycles_eq_nil_iff, cycles_eq_nil_iff, ρ.composite_surjective.forall]
  refine forall_congr' fun id => ?_
  rw [h.index_lt_iff, exists_baseChain_renumbered h]

theorem property?_renumbered {x y : Composite} (h : Composite.Renumbered ρ x y) (name : String) :
    y.property? name = (x.property? name).map ρ.property := by
  unfold Composite.property?
  rw [h.properties, List.find?_map]
  rfl

theorem nearest?_renumbered (h : c.Renumbered ρ d) (name : String) (ids : List CompositeId) :
    nearest? d name (ids.map ρ.composite) =
      (nearest? c name ids).map fun found => (ρ.composite found.1, ρ.property found.2) := by
  induction ids with
  | nil => rfl
  | cons id rest ih =>
    have hprop : (d.composite? (ρ.composite id)).bind (·.property? name) =
        ((c.composite? id).bind (·.property? name)).map ρ.property := by
      cases hc : c.composite? id with
      | none =>
        rw [h.composite?_eq_none hc]
        rfl
      | some x =>
        obtain ⟨y, hd, hr⟩ := h.exists_composite hc
        rw [hd]
        exact property?_renumbered hr name
    unfold nearest?
    rw [List.map_cons]
    dsimp only
    rw [hprop]
    cases (c.composite? id).bind (·.property? name) with
    | none => exact ih
    | some p => rfl

theorem overrideDefect?_renumbered (h : c.Renumbered ρ d) {owner owner' : String}
    {p : Property} : overrideDefect? d owner' (chain.map ρ.composite) (ρ.property p) = none ↔
      overrideDefect? c owner chain p = none := by
  rw [overrideDefect?_eq_none_iff, overrideDefect?_eq_none_iff, Renumbering.property_name,
    nearest?_renumbered h]
  cases nearest? c p.name chain with
  | none => simp
  | some found =>
    obtain ⟨b, q⟩ := found
    simp [h.compatible]

theorem overrideDefects_renumbered (h : c.Renumbered ρ d) :
    overrideDefects d = [] ↔ overrideDefects c = [] := by
  rw [overrideDefects_eq_nil_iff, overrideDefects_eq_nil_iff]
  constructor
  · intro hd id chain hm x hx p hp
    obtain ⟨y, hy, hr⟩ := h.exists_composite hx
    refine (overrideDefect?_renumbered h).mp (hd _ _ ((mem_chains_renumbered h).mpr hm) y hy
      (ρ.property p) ?_)
    rw [hr.properties]
    exact List.mem_map_of_mem hp
  · intro hc other links hm y hy q hq
    obtain ⟨id, chain, hold, rfl, rfl⟩ := exists_of_mem_chains h hm
    obtain ⟨x, hx⟩ := Catalog.composite?_of_index_lt (mem_chains.mp hold).1
    obtain ⟨z, hz, hr⟩ := h.exists_composite hx
    cases hy.symm.trans hz
    rw [hr.properties] at hq
    obtain ⟨p, hp, rfl⟩ := List.mem_map.mp hq
    exact (overrideDefect?_renumbered h).mpr (hc id chain hold x hx p hp)

theorem isTextual_renumbered (x : ModelType) : isTextual (ρ.type x) = isTextual x := by
  cases x <;> rfl

theorem valueOf_renumbered (h : c.Renumbered ρ d) (id : CompositeId) :
    valueOf d (ρ.composite id) = valueOf c id := by
  unfold valueOf
  cases hc : c.composite? id with
  | none => rw [h.composite?_eq_none hc]
  | some x =>
    obtain ⟨y, hd, hr⟩ := h.exists_composite hc
    rw [hd]
    exact hr.discriminatorValue

theorem repeatedValues_eq_nil_iff {root : String} {seen ids : List CompositeId} :
    repeatedValues c root seen ids = [] ↔ (ids.map (valueOf c)).Nodup ∧
      ∀ id ∈ ids, ∀ other ∈ seen, valueOf c other ≠ valueOf c id := by
  induction ids generalizing seen with
  | nil => simp [repeatedValues]
  | cons id rest ih =>
    unfold repeatedValues
    cases hf : seen.find? fun other => valueOf c other == valueOf c id with
    | some other =>
      refine iff_of_false (by simp) fun h => ?_
      exact h.2 id (List.mem_cons_self ..) other (List.mem_of_find?_eq_some hf)
        (by simpa using List.find?_some hf)
    | none =>
      have hseen : ∀ other ∈ seen, valueOf c other ≠ valueOf c id := by simpa using hf
      dsimp only
      rw [List.nil_append, ih, List.map_cons, List.nodup_cons]
      simp only [List.mem_cons, List.mem_map, forall_eq_or_imp, not_exists, not_and]
      constructor
      · rintro ⟨hnodup, hrest⟩
        exact ⟨⟨fun x hx => (hrest x hx).1.symm, hnodup⟩, hseen, fun x hx => (hrest x hx).2⟩
      · rintro ⟨⟨hid, hnodup⟩, -, hrest⟩
        exact ⟨hnodup, fun x hx => ⟨fun he => hid x hx he.symm, hrest x hx⟩⟩

theorem nodup_descendants (c : Catalog) (id : CompositeId) :
    (descendants (chains c) id).Nodup := by
  have hids : c.compositeIds.Nodup :=
    List.nodup_range.map fun _ _ h => CompositeId.mk.inj h
  have hsub : ((chains c).map Prod.fst).Sublist c.compositeIds := by
    have hmarked := List.filter_sublist (p := fun id => (survey c).outcome id == .acyclic)
      (l := c.compositeIds)
    refine List.Sublist.trans ?_ hmarked
    dsimp only [chains]
    generalize c.compositeIds.filter _ = ids
    induction ids with
    | nil => exact .slnil
    | cons x ids ih =>
      rw [List.filterMap_cons]
      cases ancestors? c x with
      | none => exact ih.cons x
      | some chain => exact ih.cons_cons x
  exact (hids.sublist hsub).sublist (List.filter_sublist.map _)

theorem descendants_renumbered (h : c.Renumbered ρ d) (id : CompositeId) :
    (descendants (chains d) (ρ.composite id)).Perm
      ((descendants (chains c) id).map ρ.composite) := by
  have hinj : Function.Injective ρ.composite := fun _ _ => Renumbering.composite_inj.mp
  refine (List.perm_ext_iff_of_nodup (nodup_descendants d _)
    ((nodup_descendants c id).map hinj)).mpr fun other => ?_
  obtain ⟨other, rfl⟩ := ρ.composite_surjective other
  rw [List.mem_map_of_injective hinj, mem_descendants, mem_descendants, h.index_lt_iff,
    ancestors?_renumbered h]
  cases ancestors? c other with
  | none => simp
  | some chain => simp [List.mem_map_of_injective hinj]

theorem discriminatorDefectsOf_eq_nil_iff : discriminatorDefectsOf c (chains c) id chain = [] ↔
    ∀ root, c.composite? id = some root → ∀ property, root.discriminator = some property →
      (∃ b p, nearest? c property (id :: chain) = some (b, p) ∧ isTextual p.type = true) ∧
        ((id :: descendants (chains c) id).map (valueOf c)).Nodup := by
  unfold discriminatorDefectsOf
  cases hc : c.composite? id with
  | none => simp
  | some root =>
    cases hp : root.discriminator with
    | none => simp [hp]
    | some property =>
      simp only [Option.some.injEq, forall_eq', hp]
      cases nearest? c property (id :: chain) with
      | none => simp
      | some found =>
        obtain ⟨b, p⟩ := found
        cases ht : isTextual p.type with
        | false => simp [ht]
        | true => simp [ht, repeatedValues_eq_nil_iff]

theorem discriminatorDefectsOf_renumbered (h : c.Renumbered ρ d) :
    discriminatorDefectsOf d (chains d) (ρ.composite id) (chain.map ρ.composite) = [] ↔
      discriminatorDefectsOf c (chains c) id chain = [] := by
  rw [discriminatorDefectsOf_eq_nil_iff, discriminatorDefectsOf_eq_nil_iff]
  have hvalues : ((ρ.composite id :: descendants (chains d) (ρ.composite id)).map
      (valueOf d)).Nodup ↔ ((id :: descendants (chains c) id).map (valueOf c)).Nodup := by
    have hperm := ((descendants_renumbered h id).cons (ρ.composite id)).map (valueOf d)
    rw [hperm.nodup_iff, ← List.map_cons, List.map_map]
    exact iff_of_eq (congrArg List.Nodup (List.map_congr_left fun x _ => valueOf_renumbered h x))
  have hnearest : ∀ property, (∃ b p, nearest? d property
      (ρ.composite id :: chain.map ρ.composite) = some (b, p) ∧ isTextual p.type = true) ↔
        ∃ b p, nearest? c property (id :: chain) = some (b, p) ∧ isTextual p.type = true := by
    intro property
    rw [← List.map_cons, nearest?_renumbered h]
    cases nearest? c property (id :: chain) with
    | none => simp
    | some found =>
      obtain ⟨b, p⟩ := found
      simp [isTextual_renumbered]
  cases hc : c.composite? id with
  | none => simp [h.composite?_eq_none hc]
  | some x =>
    obtain ⟨y, hd, hr⟩ := h.exists_composite hc
    simp only [hd, Option.some.injEq, hvalues, hnearest, forall_eq', hr.discriminator]

theorem discriminatorDefects_renumbered (h : c.Renumbered ρ d) :
    discriminatorDefects d = [] ↔ discriminatorDefects c = [] := by
  unfold discriminatorDefects
  rw [List.flatMap_eq_nil_iff, List.flatMap_eq_nil_iff]
  constructor
  · rintro hd ⟨id, chain⟩ hm
    exact (discriminatorDefectsOf_renumbered h).mp (hd _ ((mem_chains_renumbered h).mpr hm))
  · rintro hc ⟨other, links⟩ hm
    obtain ⟨id, chain, hold, rfl, rfl⟩ := exists_of_mem_chains h hm
    exact (discriminatorDefectsOf_renumbered h).mpr (hc (id, chain) hold)

/-- Whether the hierarchies have a defect does not depend on the indices. -/
theorem defects_renumbered (h : c.Renumbered ρ d) : defects d = [] ↔ defects c = [] := by
  unfold defects
  simp only [List.append_eq_nil_iff, List.map_eq_nil_iff, cycles_renumbered h,
    overrideDefects_renumbered h, discriminatorDefects_renumbered h]

theorem settled_renumbered (h : c.Renumbered ρ d) :
    (settled c).Renumbered ρ (settled d) where
  composites id := by
    rw [composite?_settled, composite?_settled]
    have hrel := h.composites id
    have hchains : (chains d).any (·.1 == ρ.composite id) = (chains c).any (·.1 == id) := by
      rw [Bool.eq_iff_iff, List.any_eq_true, List.any_eq_true]
      constructor
      · rintro ⟨⟨other, links⟩, hm, hid⟩
        obtain ⟨id', chain, hold, rfl, rfl⟩ := exists_of_mem_chains h hm
        exact ⟨(id', chain), hold, by simpa using hid⟩
      · rintro ⟨⟨id', chain⟩, hm, hid⟩
        exact ⟨_, (mem_chains_renumbered h).mpr hm, by simpa using hid⟩
    generalize c.composite? id = x at hrel
    generalize d.composite? (ρ.composite id) = y at hrel
    cases hrel with
    | none => exact .none
    | some hrel =>
      refine .some { hrel with derived := descendants_renumbered h id, progress := ?_ }
      simp only [settle, hchains, hrel.progress]
  enums := h.enums
  findComposite := h.findComposite
  findEnum := h.findEnum
  compositeCount := by rw [length_settled, length_settled, h.compositeCount]
  enumCount := h.enumCount

end Hierarchy

end ApiModel
