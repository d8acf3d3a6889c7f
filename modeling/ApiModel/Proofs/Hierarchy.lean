import ApiModel.Proofs.Walks

/-! # Settled catalogs

Where no cycle is found every chain of bases ends. Each composite learns exactly the composites
whose chains end and contain it.
-/

namespace ApiModel

variable {c : Catalog} {id a b : CompositeId} {chain : List CompositeId}

namespace Hierarchy

theorem exists_ancestors? (hb : c.BasesWithin) (h : cycles c = [])
    (hid : id.index < c.composites.length) : ∃ chain, ancestors? c id = some chain := by
  obtain ⟨chain, hchain⟩ := cycles_eq_nil_iff.mp h id hid
  exact ⟨chain, hchain.ancestors?_eq_some hb hid⟩

theorem mem_chains : (id, chain) ∈ chains c ↔
    id.index < c.composites.length ∧ ancestors? c id = some chain := by
  unfold chains
  simp only [List.mem_filterMap, List.mem_filter, beq_iff_eq, Catalog.mem_compositeIds,
    Option.map_eq_some_iff, Prod.mk.injEq]
  constructor
  · rintro ⟨_, ⟨hid, -⟩, _, ha, rfl, rfl⟩
    exact ⟨hid, ha⟩
  · rintro ⟨hid, ha⟩
    exact ⟨id, ⟨hid, (outcome_survey_eq_acyclic_iff hid).mpr ⟨chain, baseChain_of_chain? ha⟩⟩,
      chain, ha, rfl, rfl⟩

theorem mem_descendants : b ∈ descendants (chains c) a ↔
    ∃ chain, b.index < c.composites.length ∧ ancestors? c b = some chain ∧ a ∈ chain := by
  unfold descendants
  simp only [List.mem_map, List.mem_filter, List.contains_iff_mem]
  constructor
  · rintro ⟨⟨_, chain⟩, ⟨hc, ha⟩, rfl⟩
    obtain ⟨hb, hc⟩ := mem_chains.mp hc
    exact ⟨chain, hb, hc, ha⟩
  · rintro ⟨chain, hb, hc, ha⟩
    exact ⟨(b, chain), ⟨mem_chains.mpr ⟨hb, hc⟩, ha⟩, rfl⟩

theorem composite?_settled (c : Catalog) (id : CompositeId) :
    (settled c).composite? id = (c.composite? id).map (settle (chains c) id) := by
  obtain ⟨i⟩ := id
  simp [settled, Catalog.composite?]

theorem baseOf?_settled (c : Catalog) (id : CompositeId) :
    (settled c).baseOf? id = c.baseOf? id := by
  unfold Catalog.baseOf?
  rw [composite?_settled]
  cases c.composite? id <;> rfl

theorem hasBase_settled (c : Catalog) : (settled c).HasBase = c.HasBase := by
  funext id base
  rw [Catalog.HasBase, Catalog.HasBase, baseOf?_settled]

theorem baseChain_settled : (settled c).BaseChain id chain ↔ c.BaseChain id chain := by
  constructor
  · intro h
    induction h with
    | root h => exact .root (baseOf?_settled c _ ▸ h)
    | link h _ ih => exact .link (hasBase_settled c ▸ h) ih
  · intro h
    induction h with
    | root h => exact .root (baseOf?_settled c _ ▸ h)
    | link h _ ih => exact .link (hasBase_settled c ▸ h) ih

theorem exists_of_composite?_settled {composite : Composite}
    (h : (settled c).composite? id = some composite) :
    ∃ old, c.composite? id = some old ∧ settle (chains c) id old = composite :=
  Option.map_eq_some_iff.mp (composite?_settled c id ▸ h)

theorem exists_of_mem_settled {composite : Composite} (h : composite ∈ (settled c).composites) :
    ∃ id old, c.composite? id = some old ∧ settle (chains c) id old = composite := by
  obtain ⟨i, hi⟩ := List.mem_iff_getElem?.mp h
  exact ⟨⟨i⟩, exists_of_composite?_settled hi⟩

theorem length_settled (c : Catalog) : (settled c).composites.length = c.composites.length := by
  simp [settled]

theorem grows_settled (c : Catalog) : c.Grows (settled c) where
  composites {id composite} h :=
    ⟨settle (chains c) id composite, by rw [composite?_settled, h]; rfl, rfl, rfl⟩
  enums h := h

/-- A composite whose chain ends has its hierarchy resolved. -/
theorem progress_settle {composite : Composite} (hid : id.index < c.composites.length)
    (h : ancestors? c id = some chain) :
    (settle (chains c) id composite).progress = .hierarchyResolved := by
  have hany : (chains c).any (·.1 == id) = true :=
    List.any_eq_true.mpr ⟨(id, chain), mem_chains.mpr ⟨hid, h⟩, beq_self_eq_true id⟩
  simp only [settle, hany, if_true]

/-- Where the chain of a composite ends, those that it is derived from are its proper ancestors. -/
theorem mem_derived_settle_iff {ancestor : Composite} (hid : id.index < c.composites.length)
    (h : ancestors? c id = some chain) :
    id ∈ (settle (chains c) a ancestor).derived ↔
      Relation.TransGen (settled c).HasBase id a := by
  show id ∈ descendants (chains c) a ↔ _
  rw [mem_descendants, hasBase_settled, ← (baseChain_of_chain? h).mem_iff]
  constructor
  · rintro ⟨other, -, ho, ha⟩
    exact Option.some.inj (h.symm.trans ho) ▸ ha
  · exact fun ha => ⟨chain, hid, h, ha⟩

end Hierarchy

end ApiModel
