import ApiModel.Proofs.Catalog
import ApiModel.Resolution.Hierarchy
import Mathlib.Data.List.Nodup
import Mathlib.Data.List.Perm.Subperm
import Mathlib.Order.Basic
import Mathlib.Logic.Relation

/-! # Base chains

A composite has at most one base, so the chain of its bases is one. It either ends or runs into a
cycle, and a chain that ends never passes a composite twice.
-/

namespace ApiModel

variable {c : Catalog} {id a b : CompositeId} {chain : List CompositeId}

namespace Catalog

def HasBase (c : Catalog) (id base : CompositeId) : Prop := c.baseOf? id = some base

theorem rightUnique_hasBase : Relator.RightUnique c.HasBase :=
  fun _ _ _ h h' => Option.some.inj (h.symm.trans h')

theorem HasBase.index_lt (h : c.HasBase a b) : a.index < c.composites.length := by
  obtain ⟨composite, hc, -⟩ := Option.bind_eq_some_iff.mp h
  exact Catalog.index_lt hc

/-- The bases of a composite down to one that has none, nearest first. -/
inductive BaseChain (c : Catalog) : CompositeId → List CompositeId → Prop where
  | root {id : CompositeId} (h : c.baseOf? id = none) : BaseChain c id []
  | link {id base : CompositeId} {chain : List CompositeId} (h : c.HasBase id base)
      (hc : BaseChain c base chain) : BaseChain c id (base :: chain)

namespace BaseChain

theorem unique {other : List CompositeId} (h : c.BaseChain id chain)
    (h' : c.BaseChain id other) : chain = other := by
  induction h generalizing other with
  | root h =>
    cases h' with
    | root => rfl
    | link h' => cases h.symm.trans h'
  | link h _ ih =>
    cases h' with
    | root h' => cases h'.symm.trans h
    | link h' hc =>
      obtain rfl := Option.some.inj (h.symm.trans h')
      rw [ih hc]

theorem mem_iff (h : c.BaseChain id chain) : a ∈ chain ↔ Relation.TransGen c.HasBase id a := by
  induction h with
  | root h =>
    refine iff_of_false List.not_mem_nil fun ht => ?_
    obtain ⟨_, hb, -⟩ := Relation.TransGen.head'_iff.mp ht
    cases h.symm.trans hb
  | link h _ ih =>
    rw [List.mem_cons, ih]
    constructor
    · rintro (rfl | ht)
      · exact .single h
      · exact .head h ht
    · intro ht
      obtain ⟨b, hb, ht⟩ := Relation.TransGen.head'_iff.mp ht
      obtain rfl := Option.some.inj (h.symm.trans hb)
      exact Relation.reflTransGen_iff_eq_or_transGen.mp ht

theorem of_mem (h : c.BaseChain id chain) (ha : a ∈ chain) :
    ∃ rest, c.BaseChain a rest ∧ rest.length < chain.length := by
  induction h with
  | root => cases ha
  | link _ hc ih =>
    rcases List.mem_cons.mp ha with rfl | ha
    · exact ⟨_, hc, Nat.lt_succ_self _⟩
    · obtain ⟨rest, hr, hlt⟩ := ih ha
      exact ⟨rest, hr, Nat.lt_succ_of_lt hlt⟩

theorem not_mem (h : c.BaseChain id chain) : id ∉ chain := fun hm => by
  obtain ⟨rest, hr, hlt⟩ := h.of_mem hm
  exact Nat.lt_irrefl _ (h.unique hr ▸ hlt)

theorem nodup (h : c.BaseChain id chain) : (id :: chain).Nodup := by
  induction h with
  | root => exact List.nodup_singleton _
  | link h hc ih => exact List.nodup_cons.mpr ⟨(BaseChain.link h hc).not_mem, ih⟩

/-- A chain that leads to one that ends goes on with it. -/
theorem exists_of_reaches (h : c.BaseChain b chain)
    (hab : Relation.ReflTransGen c.HasBase a b) : ∃ links, c.BaseChain a links := by
  induction hab using Relation.ReflTransGen.head_induction_on with
  | refl => exact ⟨chain, h⟩
  | head hbase _ ih =>
    obtain ⟨links, hlinks⟩ := ih
    exact ⟨_, .link hbase hlinks⟩

end BaseChain

theorem mem_compositeIds : id ∈ c.compositeIds ↔ id.index < c.composites.length := by
  obtain ⟨i⟩ := id
  simp [compositeIds]

theorem length_le_of_nodup {ids : List CompositeId} (hn : ids.Nodup)
    (h : ∀ id ∈ ids, id.index < c.composites.length) : ids.length ≤ c.composites.length := by
  have hs : ids ⊆ c.compositeIds := fun id hid => mem_compositeIds.mpr (h id hid)
  exact (List.subperm_of_subset hn hs).length_le.trans_eq (by simp [compositeIds])

def BasesWithin (c : Catalog) : Prop :=
  ∀ {id base}, c.HasBase id base → base.index < c.composites.length

namespace BaseChain

theorem index_lt (hb : c.BasesWithin) (h : c.BaseChain id chain) :
    ∀ a ∈ chain, a.index < c.composites.length := by
  induction h with
  | root => exact List.forall_mem_nil _
  | link h _ ih => exact List.forall_mem_cons.mpr ⟨hb h, ih⟩

theorem chain?_eq_some {n : Nat} (h : c.BaseChain id chain) (hn : chain.length ≤ n) :
    Hierarchy.chain? c n id = some chain := by
  induction h generalizing n with
  | root h =>
    unfold Hierarchy.chain?
    rw [h]
  | link h _ ih =>
    obtain ⟨n, rfl⟩ := Nat.exists_eq_add_of_le' (Nat.one_le_of_lt hn)
    unfold Hierarchy.chain?
    rw [h]
    simp [ih (Nat.le_of_succ_le_succ hn)]

/-- A chain that ends is found. -/
theorem ancestors?_eq_some (hb : c.BasesWithin) (hid : id.index < c.composites.length)
    (h : c.BaseChain id chain) : Hierarchy.ancestors? c id = some chain := by
  have hlen := length_le_of_nodup h.nodup (List.forall_mem_cons.mpr ⟨hid, h.index_lt hb⟩)
  exact h.chain?_eq_some (Nat.le_of_succ_le hlen)

end BaseChain

end Catalog

namespace Hierarchy

theorem baseChain_of_chain? {n : Nat} (h : chain? c n id = some chain) : c.BaseChain id chain := by
  induction n generalizing id chain with
  | zero =>
    unfold chain? at h
    cases hb : c.baseOf? id with
    | none => rw [hb] at h; cases h; exact .root hb
    | some base => rw [hb] at h; cases h
  | succ n ih =>
    unfold chain? at h
    cases hb : c.baseOf? id with
    | none => rw [hb] at h; cases h; exact .root hb
    | some base =>
      rw [hb] at h
      obtain ⟨rest, hr, rfl⟩ := Option.map_eq_some_iff.mp h
      exact .link hb (ih hr)

end Hierarchy

end ApiModel
