import ApiModel.Proofs.BaseChains
import Mathlib.Data.List.Chain
import Mathlib.Data.List.Rotate

/-! # Cycles of bases

Base links lead from a composite to at most one other. So they do not lead out of a cycle, and two
cycles are one, perhaps entered elsewhere, or have no composite in common.
-/

namespace ApiModel

open Relation (ReflTransGen TransGen)

variable {c : Catalog} {id a b : CompositeId} {cycle other : List CompositeId}

namespace Catalog

/-- Composites that are all different, each followed by its base and the last by the first. -/
structure IsCycle (c : Catalog) (cycle : List CompositeId) : Prop where
  nodup : cycle.Nodup
  linked : ∃ entry rest, cycle = entry :: rest ∧ (entry :: (rest ++ [entry])).IsChain c.HasBase

theorem transGen_of_isChain {l : List CompositeId} (h : (a :: l).IsChain c.HasBase)
    (hb : b ∈ l) : TransGen c.HasBase a b := by
  induction l generalizing a with
  | nil => cases hb
  | cons next l ih =>
    obtain ⟨hnext, hl⟩ := List.isChain_cons_cons.mp h
    rcases List.mem_cons.mp hb with rfl | hb
    · exact .single hnext
    · exact .head hnext (ih hl hb)

namespace IsCycle

theorem of_isRotated (h : c.IsCycle cycle) (hr : cycle.IsRotated other) : c.IsCycle other := by
  obtain ⟨n, rfl⟩ := hr
  induction n with
  | zero => rwa [List.rotate_zero]
  | succ n ih =>
    obtain ⟨hnodup, entry, rest, heq, hlinked⟩ := ih
    rw [← List.rotate_rotate, heq, List.rotate_cons_succ, List.rotate_zero]
    rw [heq] at hnodup
    constructor
    · exact (List.perm_append_singleton entry rest).nodup_iff.mpr hnodup
    · cases rest with
      | nil => exact ⟨entry, [], rfl, hlinked⟩
      | cons next rest =>
        obtain ⟨hnext, hrest⟩ := List.isChain_cons_cons.mp hlinked
        refine ⟨next, rest ++ [entry], rfl, ?_⟩
        rw [← List.cons_append, List.isChain_append]
        refine ⟨hrest, List.isChain_singleton next, fun x hx y hy => ?_⟩
        rw [← List.cons_append, List.getLast?_concat] at hx
        obtain rfl := Option.some.inj hx
        obtain rfl := Option.some.inj hy
        exact hnext

theorem exists_isRotated_cons (ha : a ∈ cycle) : ∃ rest, cycle.IsRotated (a :: rest) := by
  obtain ⟨before, after, rfl⟩ := List.append_of_mem ha
  exact ⟨after ++ before, List.isRotated_append⟩

theorem exists_isChain (h : c.IsCycle cycle) (ha : a ∈ cycle) : ∃ rest,
    cycle.IsRotated (a :: rest) ∧ a ∉ rest ∧ (a :: (rest ++ [a])).IsChain c.HasBase := by
  obtain ⟨rest, hr⟩ := exists_isRotated_cons ha
  obtain ⟨hnodup, entry, rest', heq, hlinked⟩ := h.of_isRotated hr
  cases heq
  exact ⟨rest, hr, (List.nodup_cons.mp hnodup).1, hlinked⟩

theorem reaches (h : c.IsCycle cycle) (ha : a ∈ cycle) (hb : b ∈ cycle) :
    TransGen c.HasBase a b := by
  obtain ⟨rest, hr, -, hlinked⟩ := h.exists_isChain ha
  refine transGen_of_isChain hlinked ?_
  have hb := hr.mem_iff.mp hb
  simp only [List.mem_cons, List.mem_append, List.not_mem_nil, or_false] at hb ⊢
  exact hb.symm

theorem index_lt (h : c.IsCycle cycle) (ha : a ∈ cycle) : a.index < c.composites.length := by
  obtain ⟨base, hbase, -⟩ := TransGen.head'_iff.mp (h.reaches ha ha)
  exact hbase.index_lt

theorem mem_of_reaches (h : c.IsCycle cycle) (ha : a ∈ cycle)
    (hab : ReflTransGen c.HasBase a b) : b ∈ cycle := by
  induction hab with
  | refl => exact ha
  | @tail b next _ hnext ih =>
    obtain ⟨rest, hr, -, hlinked⟩ := h.exists_isChain ih
    rw [hr.mem_iff]
    cases rest with
    | nil =>
      obtain rfl := rightUnique_hasBase hnext (List.isChain_cons_cons.mp hlinked).1
      exact List.mem_cons_self ..
    | cons first rest =>
      obtain rfl := rightUnique_hasBase hnext (List.isChain_cons_cons.mp hlinked).1
      simp

theorem not_baseChain (h : c.IsCycle cycle) (ha : a ∈ cycle)
    (hia : ReflTransGen c.HasBase id a) {chain : List CompositeId} : ¬ c.BaseChain id chain := by
  intro hchain
  induction hia using ReflTransGen.head_induction_on generalizing chain with
  | refl => exact hchain.not_mem (hchain.mem_iff.mpr (h.reaches ha ha))
  | head hnext _ ih =>
    cases hchain with
    | root hnone => cases hnone.symm.trans hnext
    | link hbase hrest =>
      obtain rfl := rightUnique_hasBase hnext hbase
      exact ih hrest

theorem rest_unique {rest rest' : List CompositeId}
    (h : (b :: (rest ++ [a])).IsChain c.HasBase) (h' : (b :: (rest' ++ [a])).IsChain c.HasBase)
    (hn : a ∉ rest) (hn' : a ∉ rest') : rest = rest' := by
  induction rest generalizing b rest' with
  | nil =>
    cases rest' with
    | nil => rfl
    | cons next rest' =>
      obtain rfl := rightUnique_hasBase (List.isChain_cons_cons.mp h).1
        (List.isChain_cons_cons.mp h').1
      exact absurd (List.mem_cons_self ..) hn'
  | cons next rest ih =>
    obtain ⟨hnext, hrest⟩ := List.isChain_cons_cons.mp h
    cases rest' with
    | nil =>
      obtain rfl := rightUnique_hasBase hnext (List.isChain_cons_cons.mp h').1
      exact absurd (List.mem_cons_self ..) hn
    | cons next' rest' =>
      obtain ⟨hnext', hrest'⟩ := List.isChain_cons_cons.mp h'
      obtain rfl := rightUnique_hasBase hnext hnext'
      have hrests := ih hrest hrest' (fun hm => hn (List.mem_cons_of_mem _ hm))
        fun hm => hn' (List.mem_cons_of_mem _ hm)
      rw [hrests]

/-- Cycles that have a composite in common are one. -/
theorem isRotated_of_mem (h : c.IsCycle cycle) (h' : c.IsCycle other) (ha : a ∈ cycle)
    (ha' : a ∈ other) : cycle.IsRotated other := by
  obtain ⟨rest, hr, hn, hlinked⟩ := h.exists_isChain ha
  obtain ⟨rest', hr', hn', hlinked'⟩ := h'.exists_isChain ha'
  obtain rfl := rest_unique hlinked hlinked' hn hn'
  exact hr.trans hr'.symm

end IsCycle

/-- Every cycle of base links is in the list, entered somewhere, and no two entries have a
composite in common. -/
structure ListsCycles (c : Catalog) (found : List (List CompositeId)) : Prop where
  cycles : ∀ cycle ∈ found, c.IsCycle cycle
  disjoint : found.Pairwise List.Disjoint
  complete : ∀ cycle, c.IsCycle cycle → ∃ other ∈ found, cycle.IsRotated other

end Catalog

end ApiModel
