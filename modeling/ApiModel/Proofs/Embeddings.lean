import ApiModel.Proofs.Correspondence
import ApiModel.Proofs.Dispatch
import ApiModel.Proofs.Lineage

/-! # Parts of catalogs

A catalog without defects in its hierarchies is in order: chains end, redeclared properties agree,
and discriminators have texts that tell the members of a hierarchy apart. All of this is about
chains of bases, so it holds of any part of the catalog that has the bases of its members.
-/

namespace ApiModel

open Resolution Hierarchy
open Relation (ReflTransGen TransGen)

variable {c d : Catalog} {ρ : CompositeId → CompositeId} {id a b : CompositeId}
  {chain : List CompositeId} {name : String}

theorem Catalog.index_lt_of_reaches (h : ReflTransGen c.HasBase a b)
    (hb : b.index < c.composites.length) : a.index < c.composites.length := by
  rcases ReflTransGen.cases_head h with rfl | ⟨base, hbase, -⟩
  · exact hb
  · exact hbase.index_lt

theorem Resolution.SameShape.textual {s t : ModelType} (h : SameShape c d s t) (ht : t.Textual) :
    s.Textual := by
  obtain ⟨shape, hs, ht'⟩ := h
  cases ht with
  | string | char =>
    cases ht'
    cases hs
    constructor
  | enum id =>
    cases ht' with
    | named =>
      obtain ⟨i, _, _, rfl, -⟩ := hs.exists_named
      exact .enum i
    | anonymous =>
      obtain ⟨i, _, rfl, -⟩ := hs.exists_anonymous
      exact .enum i

/-- No defect is in the hierarchies of a catalog. -/
structure Catalog.InOrder (c : Catalog) : Prop where
  ends : ∀ {id : CompositeId}, id.index < c.composites.length → ∃ chain, c.BaseChain id chain
  harmonious : c.Harmonious
  declared : ∀ {r name}, c.Discriminates r name → ∃ a p, ReflTransGen c.HasBase r a ∧
    c.Declares name a p ∧ p.type.Textual
  distinct : ∀ {r name a b}, c.Discriminates r name → ReflTransGen c.HasBase a r →
    ReflTransGen c.HasBase b r → valueOf c a = valueOf c b → a = b

namespace Hierarchy

theorem inOrder_of_defects (hv : c.Valid) (h : defects c = []) : c.InOrder := by
  obtain ⟨hcycles, hoverrides, -⟩ := defects_eq_nil_iff.mp h
  refine ⟨fun hid => ?_, harmonious_of_overrideDefects hv hoverrides, ?_, ?_⟩
  · obtain ⟨chain, hchain⟩ := exists_ancestors? hv.bases hcycles hid
    exact ⟨chain, baseChain_of_chain? hchain⟩
  · rintro r name ⟨root, hr, hd⟩
    exact (discriminated hv h hr hd).1
  · rintro r name a b ⟨root, hr, hd⟩ ha hb hvalue
    have hmember : ∀ {x}, ReflTransGen c.HasBase x r → x ∈ r :: descendants (chains c) r :=
      fun hx => (mem_members_iff hv.bases hcycles (Catalog.index_lt hr)).mpr
        ⟨Catalog.index_lt_of_reaches hx (Catalog.index_lt hr), hx⟩
    exact List.inj_on_of_nodup_map (discriminated hv h hr hd).2 (hmember ha) (hmember hb) hvalue

theorem defects_of_inOrder (hv : c.Valid) (h : c.InOrder) : defects c = [] := by
  have hcycles : cycles c = [] := cycles_eq_nil_iff.mpr fun _ hid => h.ends hid
  refine defects_eq_nil_iff.mpr ⟨hcycles, overrideDefects_of_harmonious hv h.harmonious, ?_⟩
  refine List.flatMap_eq_nil_iff.mpr fun ⟨id, chain⟩ hm => ?_
  obtain ⟨hid, hchain⟩ := mem_chains.mp hm
  have hchain := baseChain_of_chain? hchain
  refine discriminatorDefectsOf_eq_nil_iff.mpr fun root hr name hd => ⟨?_, ?_⟩
  · obtain ⟨a, p, hlink, hp, htext⟩ := h.declared ⟨root, hr, hd⟩
    have ha := hchain.mem_cons_iff.mpr hlink
    obtain ⟨x, hx, hmem, rfl⟩ := hp
    obtain ⟨b, q, hnear⟩ := exists_nearest? ha hx (property?_of_mem (hv.names hx) hmem)
    obtain ⟨before, after, y, hsplit, hy, hqy, -⟩ := nearest?_eq_some hnear
    obtain ⟨hq, hname⟩ := property?_eq_some hqy
    have hb : b ∈ id :: chain := by simp [hsplit]
    have hagree := agree_of_mem hv h.harmonious hchain a ha b hb
    have htext := (hagree hx hy p hmem q hq hname.symm).textual htext
    exact ⟨b, q, hnear, isTextual_iff.mpr htext⟩
  · have hmembers : ∀ x ∈ id :: descendants (chains c) id, ReflTransGen c.HasBase x id :=
      fun x hx => ((mem_members_iff hv.bases hcycles hid).mp hx).2
    refine List.Nodup.map_on (fun x hx y hy hvalue =>
      h.distinct ⟨root, hr, hd⟩ (hmembers x hx) (hmembers y hy) hvalue) ?_
    refine List.nodup_cons.mpr ⟨fun hm => ?_, nodup_descendants c id⟩
    obtain ⟨links, -, hlinks, hmem⟩ := mem_descendants.mp hm
    exact (baseChain_of_chain? hlinks).not_mem hmem

/-- Below a composite are those whose bases lead to it. -/
theorem mem_descendants_iff (hb : c.BasesWithin) (h : c.InOrder) :
    b ∈ descendants (chains c) a ↔ TransGen c.HasBase b a := by
  rw [mem_descendants]
  constructor
  · rintro ⟨chain, -, hchain, ha⟩
    exact (baseChain_of_chain? hchain).mem_iff.mp ha
  · intro hlink
    obtain ⟨base, hbase, -⟩ := TransGen.head'_iff.mp hlink
    obtain ⟨chain, hchain⟩ := h.ends hbase.index_lt
    exact ⟨chain, hbase.index_lt, hchain.ancestors?_eq_some hb hbase.index_lt,
      hchain.mem_iff.mpr hlink⟩

theorem settle_eq (hb : c.BasesWithin) (h : c.InOrder) {x : Composite}
    (hx : c.composite? id = some x) : settle (chains c) id x =
      { x with derived := descendants (chains c) id, progress := .hierarchyResolved } := by
  obtain ⟨chain, hchain⟩ := h.ends (Catalog.index_lt hx)
  have hprogress : (settle (chains c) id x).progress = .hierarchyResolved :=
    progress_settle (Catalog.index_lt hx) (hchain.ancestors?_eq_some hb (Catalog.index_lt hx))
  rw [← hprogress]
  rfl

/-- In a valid catalog nothing is reported of the hierarchies exactly if they are in order. -/
theorem defects_eq_nil_iff_inOrder (hv : c.Valid) : defects c = [] ↔ c.InOrder :=
  ⟨inOrder_of_defects hv, defects_of_inOrder hv⟩

end Hierarchy

/-- A composite declares in one catalog what another one does in another catalog, types told by
their shapes. -/
structure Composite.Resembles (ρ : CompositeId → CompositeId) (c d : Catalog) (x y : Composite) :
    Prop where
  name : y.name = x.name
  origin : y.origin = x.origin
  base : y.base = x.base.map ρ
  discriminator : y.discriminator = x.discriminator
  discriminatorValue : y.discriminatorValue = x.discriminatorValue
  properties : List.Forall₂ (fun p q => q.name = p.name ∧ SameShape c d p.type q.type)
    x.properties y.properties

/-- Every composite of a catalog is found again in another one. -/
structure Catalog.Embeds (ρ : CompositeId → CompositeId) (c d : Catalog) : Prop where
  keyed : c.Keyed
  keyed' : d.Keyed
  bases : c.BasesWithin
  resembles : ∀ {id x}, c.composite? id = some x →
    ∃ y, d.composite? (ρ id) = some y ∧ Composite.Resembles ρ c d x y

/-- Entries of two catalogs that have one name and one origin. -/
def Catalog.Twins (c d : Catalog) (a b : CompositeId) : Prop :=
  ∃ x y, c.composite? a = some x ∧ d.composite? b = some y ∧ x.name = y.name ∧ x.origin = y.origin

theorem Catalog.twins_settled : (settled c).Twins (settled d) a b ↔ c.Twins d a b := by
  constructor
  · rintro ⟨x, y, hx, hy, hname, horigin⟩
    obtain ⟨old, ho, rfl⟩ := exists_of_composite?_settled hx
    obtain ⟨old', ho', rfl⟩ := exists_of_composite?_settled hy
    exact ⟨old, old', ho, ho', hname, horigin⟩
  · rintro ⟨x, y, hx, hy, hname, horigin⟩
    exact ⟨settle (chains c) a x, settle (chains d) b y, by rw [composite?_settled, hx]; rfl,
      by rw [composite?_settled, hy]; rfl, hname, horigin⟩

namespace Catalog.Embeds

variable (h : Catalog.Embeds ρ c d)
include h

/-- A composite is found again as its twin. -/
theorem twins_iff (hb : b.index < c.composites.length) : d.Twins c a b ↔ a = ρ b := by
  obtain ⟨x, hx⟩ := Catalog.composite?_of_index_lt hb
  obtain ⟨y, hy, hr⟩ := h.resembles hx
  constructor
  · rintro ⟨z, x', hz, hx', hname, -⟩
    cases hx.symm.trans hx'
    exact h.keyed'.id_eq hz hy (by rw [hname, hr.name])
  · rintro rfl
    exact ⟨y, x, hy, hx, hr.name, hr.origin⟩

theorem baseOf? (hid : id.index < c.composites.length) :
    d.baseOf? (ρ id) = (c.baseOf? id).map ρ := by
  obtain ⟨x, hx⟩ := Catalog.composite?_of_index_lt hid
  obtain ⟨y, hy, hr⟩ := h.resembles hx
  unfold Catalog.baseOf?
  rw [hx, hy]
  exact hr.base

theorem hasBase (hb : c.HasBase a b) : d.HasBase (ρ a) (ρ b) := by
  obtain ⟨x, hx, -⟩ := Option.bind_eq_some_iff.mp hb
  rw [Catalog.HasBase, h.baseOf? (Catalog.index_lt hx), show c.baseOf? a = some b from hb]
  rfl

theorem injective (ha : a.index < c.composites.length) (hb : b.index < c.composites.length)
    (hab : ρ a = ρ b) : a = b := by
  obtain ⟨x, hx⟩ := Catalog.composite?_of_index_lt ha
  obtain ⟨y, hy⟩ := Catalog.composite?_of_index_lt hb
  obtain ⟨z, hz, hr⟩ := h.resembles hx
  obtain ⟨z', hz', hr'⟩ := h.resembles hy
  cases hz.symm.trans (hab ▸ hz')
  exact h.keyed.id_eq hx hy (by rw [← hr.name, ← hr'.name])

theorem exists_base (hid : id.index < c.composites.length) (hb : d.HasBase (ρ id) b) :
    ∃ base, c.HasBase id base ∧ ρ base = b := by
  rw [Catalog.HasBase, h.baseOf? hid] at hb
  exact Option.map_eq_some_iff.mp hb

theorem exists_above (hid : a.index < c.composites.length)
    (hlink : ReflTransGen d.HasBase (ρ a) b) :
    ∃ e, ρ e = b ∧ e.index < c.composites.length ∧ ReflTransGen c.HasBase a e := by
  induction hlink with
  | refl => exact ⟨a, rfl, hid, .refl⟩
  | tail _ hb ih =>
    obtain ⟨e, rfl, he, hlink⟩ := ih
    obtain ⟨base, hbase, rfl⟩ := h.exists_base he hb
    exact ⟨base, rfl, h.bases hbase, hlink.tail hbase⟩

theorem transGen_iff (ha : a.index < c.composites.length) (hb : b.index < c.composites.length) :
    TransGen d.HasBase (ρ a) (ρ b) ↔ TransGen c.HasBase a b := by
  refine ⟨fun hlink => ?_, fun hlink => hlink.lift ρ fun _ _ => h.hasBase⟩
  obtain ⟨other, hlink, hlast⟩ := TransGen.tail'_iff.mp hlink
  obtain ⟨e, rfl, he, hlink⟩ := h.exists_above ha hlink
  obtain ⟨base, hbase, heq⟩ := h.exists_base he hlast
  exact TransGen.tail' hlink (h.injective (h.bases hbase) hb heq ▸ hbase)

theorem baseChain (hid : id.index < c.composites.length) (hchain : c.BaseChain id chain) :
    d.BaseChain (ρ id) (chain.map ρ) := by
  induction hchain with
  | root hr =>
    refine .root ?_
    rw [h.baseOf? hid, hr]
    rfl
  | link hb _ ih => exact .link (h.hasBase hb) (ih (h.bases hb))

theorem exists_baseChain (hid : id.index < c.composites.length) {links : List CompositeId}
    (hchain : d.BaseChain (ρ id) links) : ∃ chain, c.BaseChain id chain := by
  generalize hother : ρ id = other at hchain
  induction hchain generalizing id with
  | root hr =>
    rw [← hother, h.baseOf? hid] at hr
    exact ⟨[], .root (Option.map_eq_none_iff.mp hr)⟩
  | link hb _ ih =>
    obtain ⟨base, hbase, heq⟩ := h.exists_base hid (hother ▸ hb)
    obtain ⟨chain, hchain⟩ := ih (h.bases hbase) heq
    exact ⟨base :: chain, .link hbase hchain⟩

theorem discriminates (hr : c.Discriminates id name) : d.Discriminates (ρ id) name := by
  obtain ⟨x, hx, hd⟩ := hr
  obtain ⟨y, hy, hres⟩ := h.resembles hx
  exact ⟨y, hy, hres.discriminator.trans hd⟩

theorem valueOf_eq (hid : id.index < c.composites.length) : valueOf d (ρ id) = valueOf c id := by
  obtain ⟨x, hx⟩ := Catalog.composite?_of_index_lt hid
  obtain ⟨y, hy, hr⟩ := h.resembles hx
  unfold valueOf
  rw [hx, hy]
  exact hr.discriminatorValue

theorem agree (hagree : d.Agree (ρ a) (ρ b)) : c.Agree a b := by
  intro x y hx hy p hp q hq hname
  obtain ⟨x', hx', hr⟩ := h.resembles hx
  obtain ⟨y', hy', hr'⟩ := h.resembles hy
  obtain ⟨p', hp', hpname, shape, hpc, hpd⟩ := exists_of_mem_forall₂ hr.properties.flip hp
  obtain ⟨q', hq', hqname, shape', hqc, hqd⟩ := exists_of_mem_forall₂ hr'.properties.flip hq
  have hsame := hagree hx' hy' p' hp' q' hq' (by rw [hpname, hqname, hname])
  rw [← Catalog.compatible_iff hpd.within hqd.within, hpd.compatible_iff h.keyed' hqd] at hsame
  exact (Catalog.compatible_iff hpc.within hqc.within).mp
    ((hpc.compatible_iff h.keyed hqc).mpr hsame)

theorem exists_declares {p : Property} (hid : id.index < c.composites.length)
    (hp : d.Declares name (ρ id) p) :
    ∃ q, c.Declares name id q ∧ SameShape c d q.type p.type := by
  obtain ⟨y, hy, hp, rfl⟩ := hp
  obtain ⟨x, hx⟩ := Catalog.composite?_of_index_lt hid
  obtain ⟨y', hy', hr⟩ := h.resembles hx
  cases hy.symm.trans hy'
  obtain ⟨q, hq, hname, hsame⟩ := exists_of_mem_forall₂ hr.properties hp
  exact ⟨q, ⟨x, hx, hq, hname.symm⟩, hsame⟩

theorem inOrder (hd : d.InOrder) : c.InOrder where
  ends {id} hid := by
    obtain ⟨x, hx⟩ := Catalog.composite?_of_index_lt hid
    obtain ⟨y, hy, -⟩ := h.resembles hx
    obtain ⟨links, hlinks⟩ := hd.ends (Catalog.index_lt hy)
    exact h.exists_baseChain hid hlinks
  harmonious {id chain} hchain a ha := by
    obtain ⟨base, hb, -⟩ := TransGen.head'_iff.mp (hchain.mem_iff.mp ha)
    have hlinks := h.baseChain hb.index_lt hchain
    exact h.agree (hd.harmonious hlinks (ρ a) (List.mem_map_of_mem ha))
  declared {r name} hr := by
    obtain ⟨a, p, hlink, hp, htext⟩ := hd.declared (h.discriminates hr)
    obtain ⟨x, hx, -⟩ := hr
    obtain ⟨e, rfl, he, hlink⟩ := h.exists_above (Catalog.index_lt hx) hlink
    obtain ⟨q, hq, hsame⟩ := h.exists_declares he hp
    exact ⟨e, q, hlink, hq, hsame.textual htext⟩
  distinct {r name a b} hr ha hb hvalue := by
    have hr' := h.discriminates hr
    obtain ⟨x, hx, -⟩ := hr
    have hlta := Catalog.index_lt_of_reaches ha (Catalog.index_lt hx)
    have hltb := Catalog.index_lt_of_reaches hb (Catalog.index_lt hx)
    refine h.injective hlta hltb (hd.distinct hr' (ha.lift ρ fun _ _ => h.hasBase)
      (hb.lift ρ fun _ _ => h.hasBase) ?_)
    rw [h.valueOf_eq hlta, h.valueOf_eq hltb, hvalue]

theorem descendants (hc : c.InOrder) (hd : d.InOrder) (hb : d.BasesWithin)
    (hid : id.index < c.composites.length) (hfix : ρ id = id) :
    (∀ b ∈ descendants (chains c) id, ∃ a ∈ descendants (chains d) id, d.Twins c a b) ∧
      ∀ a ∈ descendants (chains d) id, ∀ b, d.Twins c a b → b ∈ descendants (chains c) id := by
  constructor
  · intro b hm
    have hlink := (mem_descendants_iff h.bases hc).mp hm
    obtain ⟨base, hbase, -⟩ := TransGen.head'_iff.mp hlink
    refine ⟨ρ b, (mem_descendants_iff hb hd).mpr ?_, (h.twins_iff hbase.index_lt).mpr rfl⟩
    rw [← hfix]
    exact (h.transGen_iff hbase.index_lt hid).mpr hlink
  · intro a hm b htwins
    have ⟨_, _, _, hy, _⟩ := htwins
    obtain rfl := (h.twins_iff (Catalog.index_lt hy)).mp htwins
    have hlink := (mem_descendants_iff hb hd).mp hm
    rw [← hfix] at hlink
    exact (mem_descendants_iff h.bases hc).mpr
      ((h.transGen_iff (Catalog.index_lt hy) hid).mp hlink)

end Catalog.Embeds

end ApiModel
