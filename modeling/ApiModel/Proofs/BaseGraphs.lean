import ApiModel.Proofs.Overrides

/-! # Hierarchies over any base graph

Any number of cycles, with whatever leads into them, may be among the bases of a catalog. Each cycle
is reported once. Exactly the composites whose chains end are resolved, and exactly they are known
to their ancestors, those on the way to a cycle to none.
-/

namespace ApiModel

open Hierarchy

variable {c : Catalog} {id a : CompositeId} {cycle : List CompositeId}

namespace Catalog

theorem basesWithin_iff : c.BasesWithin ↔
    ∀ x ∈ c.composites, ∀ base ∈ x.base, base.index < c.composites.length := by
  constructor
  · intro h x hx base hbase
    obtain ⟨i, hi⟩ := List.mem_iff_getElem?.mp hx
    have hlink : c.HasBase ⟨i⟩ base := Option.bind_eq_some_iff.mpr ⟨x, hi, hbase⟩
    exact h hlink
  · intro h id base hlink
    obtain ⟨x, hx, hbase⟩ := Option.bind_eq_some_iff.mp hlink
    exact h x (List.mem_of_getElem? hx) base hbase

/-- A defect that names the members of a cycle in base order and, at the end, the first again. -/
def Reports (c : Catalog) (cycle : List CompositeId) (d : Defect) : Prop :=
  ∃ entry rest, cycle = entry :: rest ∧
    d = .cycle (c.nameOf entry) (c.nameOf entry :: (rest.map c.nameOf ++ [c.nameOf entry]))

theorem IsCycle.reports (h : c.IsCycle cycle) : c.Reports cycle (cycleDefect c cycle) := by
  obtain ⟨entry, rest, rfl, -⟩ := h.linked
  exact ⟨entry, rest, rfl, rfl⟩

/-- What becomes of a composite once the hierarchies are resolved. Nothing else of it changes. -/
structure Settles (c : Catalog) (id : CompositeId) (before after : Composite) : Prop where
  others : after = { before with derived := after.derived, progress := after.progress }
  derived : ∀ {a}, a ∈ after.derived ↔ ∃ chain, c.BaseChain a chain ∧ id ∈ chain
  ends : ∀ {chain}, c.BaseChain id chain → after.progress = .hierarchyResolved
  cyclic : (∀ chain, ¬ c.BaseChain id chain) → after.progress = before.progress

theorem settles_settle (hb : c.BasesWithin) {x : Composite} (hx : c.composite? id = some x) :
    c.Settles id x (settle (chains c) id x) where
  others := rfl
  derived {a} := by
    change a ∈ descendants (chains c) id ↔ _
    rw [mem_descendants]
    constructor
    · rintro ⟨chain, -, hchain, hmem⟩
      exact ⟨chain, baseChain_of_chain? hchain, hmem⟩
    · rintro ⟨chain, hchain, hmem⟩
      obtain ⟨base, hbase, -⟩ := Relation.TransGen.head'_iff.mp (hchain.mem_iff.mp hmem)
      exact ⟨chain, hbase.index_lt, hchain.ancestors?_eq_some hb hbase.index_lt, hmem⟩
  ends hchain := progress_settle (index_lt hx) (hchain.ancestors?_eq_some hb (index_lt hx))
  cyclic h := by
    have hnone : ¬ (chains c).any (·.1 == id) = true := by
      rw [List.any_eq_true]
      rintro ⟨⟨other, chain⟩, hmem, heq⟩
      obtain rfl := beq_iff_eq.mp heq
      exact h chain (baseChain_of_chain? (mem_chains.mp hmem).2)
    exact if_neg hnone

end Catalog

namespace Hierarchy

/-- What resolving the hierarchies of a catalog comes to: both walks end, each cycle is one defect,
and nothing changes but how far the composites are and what they know below them. -/
structure Exact (c : Catalog) : Prop where
  walked : ∀ {id : CompositeId}, id.index < c.composites.length →
    (survey c).outcome id ≠ .pending ∧
      ((survey c).outcome id = .acyclic → ∃ chain, ancestors? c id = some chain)
  reports : ∃ found reports rest, c.ListsCycles found ∧ List.Forall₂ c.Reports found reports ∧
    defects c = reports ++ rest ∧ ∀ d ∈ rest, d.kind ≠ .cycle
  others : settled c = { c with composites := (settled c).composites }
  count : (settled c).composites.length = c.composites.length
  settles : ∀ {id x}, c.composite? id = some x →
    ∃ y, (settled c).composite? id = some y ∧ c.Settles id x y

/-- Hierarchies are resolved exactly, whatever the graph of the bases. -/
theorem hierarchies_exact (hb : c.BasesWithin) : Exact c where
  walked {id} hid := by
    refine ⟨outcome_survey_ne_pending hid, fun hs => ?_⟩
    obtain ⟨chain, hchain⟩ := (outcome_survey_eq_acyclic_iff hid).mp hs
    exact ⟨chain, hchain.ancestors?_eq_some hb hid⟩
  reports := by
    have hlists := listsCycles_cycles c
    refine ⟨cycles c, (cycles c).map (cycleDefect c), overrideDefects c ++ discriminatorDefects c,
      hlists, ?_, List.append_assoc .., ?_⟩
    · rw [List.forall₂_map_right_iff, List.forall₂_same]
      exact fun cycle hcycle => (hlists.cycles cycle hcycle).reports
    · intro d hd
      rcases List.mem_append.mp hd with hd | hd
      · rw [kind_of_mem_overrideDefects hd]
        exact nofun
      · rw [kind_of_mem_discriminatorDefects hd]
        exact nofun
  others := rfl
  count := length_settled c
  settles {id x} hx := by
    refine ⟨settle (chains c) id x, ?_, Catalog.settles_settle hb hx⟩
    rw [composite?_settled, hx]
    rfl

def tangled : Catalog :=
  { composites := [("Hen", some 1), ("Egg", some 0), ("Ouroboros", some 2), ("Chick", some 0),
      ("Animal", none), ("Dog", some 4)].map fun (name, base) =>
        { Composite.stub name "" with base := base.map CompositeId.mk } }

/-- Two of its composites are resolved, and the walk from the tail finds nothing new. -/
theorem hierarchies_exact_tangled :
    (defects tangled = [.cycle "Hen" ["Hen", "Egg", "Hen"], .cycle "Ouroboros" ["Ouroboros",
      "Ouroboros"]] ∧ (settled tangled).composites.map (·.progress) =
        [.stub, .stub, .stub, .stub, .hierarchyResolved, .hierarchyResolved]) ∧ Exact tangled := by
  refine ⟨⟨rfl, by decide⟩, hierarchies_exact ?_⟩
  exact Catalog.basesWithin_iff.mpr (by decide)

end Hierarchy

end ApiModel
