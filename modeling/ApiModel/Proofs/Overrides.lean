import ApiModel.Grammars
import ApiModel.Proofs.ClosedModel
import Mathlib.Data.List.Pairwise

/-! # Overridden properties

A property that is declared again is compared with the nearest declaration above it only. Since
compatibility is an equivalence, that is enough: where no conflict is found, all declarations of
one property along a chain of bases are compatible with each other.
-/

namespace ApiModel

variable {c : Catalog} {id a b : CompositeId} {chain : List CompositeId}

namespace Catalog

/-- Types that one property may have: equal scalars, enums with equal lists of values, the same
composite, or containers of compatible types. -/
inductive Compatible (c : Catalog) : ModelType → ModelType → Prop where
  | scalar (kind : Scalar) : Compatible c (.scalar kind) (.scalar kind)
  | enum {i j : EnumId} {x y : EnumType} (hx : c.enum? i = some x) (hy : c.enum? j = some y)
      (hv : x.values = y.values) : Compatible c (.enum i) (.enum j)
  | composite (id : CompositeId) : Compatible c (.composite id) (.composite id)
  | sequence {s t : ModelType} (h : Compatible c s t) : Compatible c (.sequence s) (.sequence t)
  | dictionary {s t : ModelType} (h : Compatible c s t) :
      Compatible c (.dictionary s) (.dictionary t)

namespace Compatible

variable {s t u : ModelType}

theorem refl (h : s.Within c) : c.Compatible s s := by
  induction s with
  | scalar kind => exact .scalar kind
  | enum i =>
    obtain ⟨x, hx⟩ := enum?_of_index_lt h
    exact .enum hx hx rfl
  | sequence element ih => exact .sequence (ih h)
  | dictionary value ih => exact .dictionary (ih h)
  | composite id => exact .composite id

theorem symm (h : c.Compatible s t) : c.Compatible t s := by
  induction h with
  | scalar kind => exact .scalar kind
  | enum hx hy hv => exact .enum hy hx hv.symm
  | composite id => exact .composite id
  | sequence _ ih => exact .sequence ih
  | dictionary _ ih => exact .dictionary ih

theorem trans (h : c.Compatible s t) (h' : c.Compatible t u) : c.Compatible s u := by
  induction h generalizing u with
  | scalar kind => exact h'
  | enum hx hy hv =>
    cases h' with
    | enum hy' hz hv' =>
      obtain rfl := Option.some.inj (hy.symm.trans hy')
      exact .enum hx hz (hv.trans hv')
  | composite id => exact h'
  | sequence _ ih =>
    cases h' with
    | sequence h' => exact .sequence (ih h')
  | dictionary _ ih =>
    cases h' with
    | dictionary h' => exact .dictionary (ih h')

end Compatible

theorem sameValues_iff {i j : EnumId} (hi : i.index < c.enums.length)
    (hj : j.index < c.enums.length) :
    c.sameValues i j = true ↔ c.Compatible (.enum i) (.enum j) := by
  obtain ⟨x, hx⟩ := enum?_of_index_lt hi
  obtain ⟨y, hy⟩ := enum?_of_index_lt hj
  simp only [sameValues, hx, hy, Bool.or_eq_true, beq_iff_eq]
  constructor
  · rintro (rfl | hv)
    · exact .enum hx hx rfl
    · exact .enum hx hy hv
  · intro h
    cases h with
    | enum hx' hy' hv =>
      obtain rfl := Option.some.inj (hx.symm.trans hx')
      obtain rfl := Option.some.inj (hy.symm.trans hy')
      exact .inr hv

/-- The test for compatibility is exact on types whose indices are in use. -/
theorem compatible_iff {s t : ModelType} (hs : s.Within c) (ht : t.Within c) :
    c.compatible s t = true ↔ c.Compatible s t := by
  induction s generalizing t with
  | scalar kind =>
    cases t with
    | scalar kind' =>
      simp only [compatible, beq_iff_eq]
      constructor
      · rintro rfl
        exact .scalar kind
      · rintro ⟨⟩
        rfl
    | _ => exact iff_of_false Bool.false_ne_true nofun
  | enum i =>
    cases t with
    | enum j => exact sameValues_iff hs ht
    | _ => exact iff_of_false Bool.false_ne_true nofun
  | composite id =>
    cases t with
    | composite id' =>
      simp only [compatible, beq_iff_eq]
      constructor
      · rintro rfl
        exact .composite id
      · rintro ⟨⟩
        rfl
    | _ => exact iff_of_false Bool.false_ne_true nofun
  | sequence element ih =>
    cases t with
    | sequence element' =>
      refine (ih hs (t := element') ht).trans ⟨Compatible.sequence, ?_⟩
      rintro ⟨⟩
      assumption
    | _ => exact iff_of_false Bool.false_ne_true nofun
  | dictionary value ih =>
    cases t with
    | dictionary value' =>
      refine (ih hs (t := value') ht).trans ⟨Compatible.dictionary, ?_⟩
      rintro ⟨⟩
      assumption
    | _ => exact iff_of_false Bool.false_ne_true nofun

/-- Every index is in use, and no composite has two properties of one name. -/
structure Valid (c : Catalog) : Prop where
  types : ∀ {id composite}, c.composite? id = some composite → ∀ p ∈ composite.properties,
    p.type.Within c
  bases : c.BasesWithin
  names : ∀ {id composite}, c.composite? id = some composite →
    (composite.properties.map (·.name)).Nodup

def Agree (c : Catalog) (a b : CompositeId) : Prop :=
  ∀ ⦃x y⦄, c.composite? a = some x → c.composite? b = some y →
    ∀ p ∈ x.properties, ∀ q ∈ y.properties, p.name = q.name → c.Compatible p.type q.type

theorem Agree.symm (h : c.Agree a b) : c.Agree b a :=
  fun _ _ hx hy p hp q hq hn => (h hy hx q hq p hp hn.symm).symm

theorem Valid.agree_self (h : c.Valid) (a : CompositeId) : c.Agree a a := by
  intro x y hx hy p hp q hq hn
  obtain rfl := Option.some.inj (hx.symm.trans hy)
  obtain rfl := List.inj_on_of_nodup_map (h.names hx) hp hq hn
  exact .refl (h.types hx p hp)

/-- Every composite whose chain of bases ends agrees with each of its ancestors. -/
def Harmonious (c : Catalog) : Prop :=
  ∀ {id chain}, c.BaseChain id chain → ∀ a ∈ chain, c.Agree id a

end Catalog

namespace Catalog.BaseChain

theorem of_append {before after : List CompositeId} (h : c.BaseChain id (before ++ a :: after)) :
    c.BaseChain a after := by
  induction before generalizing id with
  | nil =>
    cases h with
    | link _ hc => exact hc
  | cons b rest ih =>
    cases h with
    | link _ hc => exact ih hc

end Catalog.BaseChain

namespace Hierarchy

theorem nearest?_eq_some {name : String} {ids : List CompositeId} {q : Property}
    (h : nearest? c name ids = some (a, q)) : ∃ before after x, ids = before ++ a :: after ∧
      c.composite? a = some x ∧ x.property? name = some q ∧
      ∀ b ∈ before, ∀ y, c.composite? b = some y → y.property? name = none := by
  induction ids with
  | nil => cases h
  | cons id rest ih =>
    unfold nearest? at h
    cases hp : (c.composite? id).bind (·.property? name) with
    | some p =>
      rw [hp] at h
      cases h
      obtain ⟨x, hx, hq⟩ := Option.bind_eq_some_iff.mp hp
      exact ⟨[], rest, x, rfl, hx, hq, List.forall_mem_nil _⟩
    | none =>
      rw [hp] at h
      obtain ⟨before, after, x, rfl, hx, hq, hb⟩ := ih h
      refine ⟨id :: before, after, x, rfl, hx, hq, List.forall_mem_cons.mpr ⟨?_, hb⟩⟩
      intro y hy
      rw [hy] at hp
      exact hp

theorem exists_nearest? {name : String} {ids : List CompositeId} {x : Composite} {q : Property}
    (ha : a ∈ ids) (hx : c.composite? a = some x) (hq : x.property? name = some q) :
    ∃ b p, nearest? c name ids = some (b, p) := by
  induction ids with
  | nil => cases ha
  | cons id rest ih =>
    unfold nearest?
    cases hp : (c.composite? id).bind (·.property? name) with
    | some p => exact ⟨id, p, rfl⟩
    | none =>
      rcases List.mem_cons.mp ha with rfl | ha
      · simp [hx, hq] at hp
      · exact ih ha

theorem property?_eq_some {x : Composite} {name : String} {q : Property}
    (h : x.property? name = some q) : q ∈ x.properties ∧ q.name = name :=
  ⟨List.mem_of_find?_eq_some h, by simpa using List.find?_some h⟩

theorem property?_of_mem {x : Composite} (hn : (x.properties.map (·.name)).Nodup) {q : Property}
    (h : q ∈ x.properties) : x.property? q.name = some q := by
  cases hf : x.property? q.name with
  | none =>
    have := List.find?_eq_none.mp hf q h
    simp at this
  | some p =>
    obtain ⟨hp, hname⟩ := property?_eq_some hf
    rw [List.inj_on_of_nodup_map hn hp h hname]

theorem overrideDefect?_eq_none_iff {owner : String} {ancestors : List CompositeId}
    {p : Property} : overrideDefect? c owner ancestors p = none ↔
      ∀ b q, nearest? c p.name ancestors = some (b, q) → c.compatible q.type p.type = true := by
  unfold overrideDefect?
  cases hn : nearest? c p.name ancestors with
  | none => simp
  | some found =>
    obtain ⟨b, q⟩ := found
    simp

theorem overrideDefects_eq_nil_iff : overrideDefects c = [] ↔
    ∀ id chain, (id, chain) ∈ chains c → ∀ x, c.composite? id = some x →
      ∀ p ∈ x.properties, overrideDefect? c x.name chain p = none := by
  unfold overrideDefects
  rw [List.flatMap_eq_nil_iff]
  constructor
  · intro h id chain hc x hx
    have := h (id, chain) hc
    simpa [hx] using this
  · rintro h ⟨id, chain⟩ hc
    dsimp only
    cases hx : c.composite? id with
    | none => rfl
    | some x => simpa using h id chain hc x hx

theorem kind_of_mem_overrideDefects {d : Defect} (h : d ∈ overrideDefects c) :
    d.kind = .propertyConflict := by
  unfold overrideDefects at h
  obtain ⟨⟨id, chain⟩, -, h⟩ := List.mem_flatMap.mp h
  dsimp only at h
  split at h
  · cases h
  · obtain ⟨p, -, h⟩ := List.mem_filterMap.mp h
    unfold overrideDefect? at h
    split at h
    · cases h
    · split at h
      · cases h
      · cases h
        rfl

theorem kind_of_mem_repeatedValues {root : String} {seen ids : List CompositeId} {d : Defect}
    (h : d ∈ repeatedValues c root seen ids) : d.kind = .discriminator := by
  induction ids generalizing seen with
  | nil => cases h
  | cons id rest ih =>
    unfold repeatedValues at h
    rcases List.mem_append.mp h with h | h
    · split at h
      · cases h
      · cases List.mem_singleton.mp h
        rfl
    · exact ih h

theorem kind_of_mem_discriminatorDefects {d : Defect} (h : d ∈ discriminatorDefects c) :
    d.kind = .discriminator := by
  obtain ⟨⟨id, chain⟩, -, h⟩ := List.mem_flatMap.mp h
  unfold discriminatorDefectsOf at h
  split at h
  · cases h
  · split at h
    · cases h
    · split at h
      · cases List.mem_singleton.mp h
        rfl
      · split at h
        · exact kind_of_mem_repeatedValues h
        · cases List.mem_singleton.mp h
          rfl

theorem kind_of_mem_defects {d : Defect} (h : d ∈ defects c) :
    d.kind = .cycle ∨ d.kind = .propertyConflict ∨ d.kind = .discriminator := by
  unfold defects at h
  rcases List.mem_append.mp h with h | h
  · rcases List.mem_append.mp h with h | h
    · obtain ⟨cycle, -, rfl⟩ := List.mem_map.mp h
      exact .inl rfl
    · exact .inr (.inl (kind_of_mem_overrideDefects h))
  · exact .inr (.inr (kind_of_mem_discriminatorDefects h))

theorem no_conflict_iff : (∀ d ∈ defects c, d.kind ≠ .propertyConflict) ↔
    overrideDefects c = [] := by
  unfold defects
  constructor
  · intro h
    rw [List.eq_nil_iff_forall_not_mem]
    intro d hd
    exact h d (by simp [hd]) (kind_of_mem_overrideDefects hd)
  · intro h d hd
    rw [h, List.append_nil] at hd
    rcases List.mem_append.mp hd with hd | hd
    · obtain ⟨cycle, -, rfl⟩ := List.mem_map.mp hd
      exact nofun
    · rw [kind_of_mem_discriminatorDefects hd]
      exact nofun

/-- Where every redeclaration is compatible with the nearest declaration above it, all
declarations along a chain are compatible. -/
theorem harmonious_of_overrideDefects (hv : c.Valid) (h : overrideDefects c = []) :
    c.Harmonious := by
  intro id chain hchain
  induction hlen : chain.length using Nat.strong_induction_on generalizing id chain with
  | _ n ih =>
    intro a ha x y hx hy p hp q hq hname
    have hfound := mem_chains.mpr ⟨Catalog.index_lt hx,
      hchain.ancestors?_eq_some hv.bases (Catalog.index_lt hx)⟩
    have hprop := property?_of_mem (hv.names hy) hq
    obtain ⟨b, r, hnear⟩ := exists_nearest? ha hy (hname ▸ hprop)
    have hcompatible := overrideDefect?_eq_none_iff.mp
      (overrideDefects_eq_nil_iff.mp h id chain hfound x hx p hp) b r hnear
    obtain ⟨before, after, z, rfl, hz, hrz, hbefore⟩ := nearest?_eq_some hnear
    obtain ⟨hr, hrname⟩ := property?_eq_some hrz
    have hpr : c.Compatible p.type r.type :=
      ((Catalog.compatible_iff (hv.types hz r hr) (hv.types hx p hp)).mp hcompatible).symm
    rcases List.mem_append.mp ha with ha | ha
    · have := hbefore a ha y hy
      rw [hname, hprop] at this
      cases this
    · rcases List.mem_cons.mp ha with rfl | ha
      · exact hpr.trans (hv.agree_self a hz hy r hr q hq (hrname.trans hname))
      · -- Above the nearest declaration the chain is that of the composite which declares it.
        have hlt : after.length < n := by
          rw [← hlen, List.length_append, List.length_cons]
          omega
        exact hpr.trans (ih _ hlt hchain.of_append rfl a ha hz hy r hr q hq (hrname.trans hname))

theorem overrideDefects_of_harmonious (hv : c.Valid) (h : c.Harmonious) :
    overrideDefects c = [] := by
  rw [overrideDefects_eq_nil_iff]
  intro id chain hc x hx p hp
  obtain ⟨-, hchain⟩ := mem_chains.mp hc
  rw [overrideDefect?_eq_none_iff]
  intro b q hq
  obtain ⟨before, after, y, rfl, hy, hqy, -⟩ := nearest?_eq_some hq
  obtain ⟨hq, hname⟩ := property?_eq_some hqy
  rw [Catalog.compatible_iff (hv.types hy q hq) (hv.types hx p hp)]
  exact (h (baseChain_of_chain? hchain) b (by simp) hx hy p hp q hq hname.symm).symm

/-- In a valid catalog all declarations of one property agree exactly if no conflict is found. -/
theorem harmonious_iff (hv : c.Valid) :
    c.Harmonious ↔ ∀ d ∈ defects c, d.kind ≠ .propertyConflict :=
  ⟨fun h => no_conflict_iff.mpr (overrideDefects_of_harmonious hv h),
    fun h => harmonious_of_overrideDefects hv (no_conflict_iff.mp h)⟩

theorem agree_of_mem (hv : c.Valid) (h : c.Harmonious) (hchain : c.BaseChain id chain) :
    ∀ a ∈ id :: chain, ∀ b ∈ id :: chain, c.Agree a b := by
  have hpairs : (id :: chain).Pairwise c.Agree := by
    induction hchain with
    | root => exact List.pairwise_singleton _ _
    | link hb hc ih => exact List.pairwise_cons.mpr ⟨h (.link hb hc), ih⟩
  have : Std.Symm c.Agree := ⟨fun _ _ => Catalog.Agree.symm⟩
  exact fun a ha b hb => hpairs.forall_of_forall (fun a _ => hv.agree_self a) ha hb

theorem valid_settled (hv : c.Valid) : (settled c).Valid where
  types hx p hp := by
    obtain ⟨old, ho, rfl⟩ := exists_of_composite?_settled hx
    exact (hv.types ho p hp).mono (grows_settled c)
  bases hb := by
    rw [length_settled]
    exact hv.bases (hasBase_settled c ▸ hb)
  names hx := by
    obtain ⟨old, ho, rfl⟩ := exists_of_composite?_settled hx
    show (old.properties.map (·.name)).Nodup
    exact hv.names ho

theorem compatible_settled {s t : ModelType} (h : c.Compatible s t) :
    (settled c).Compatible s t := by
  induction h with
  | scalar kind => exact .scalar kind
  | enum hx hy hv => exact .enum hx hy hv
  | composite id => exact .composite id
  | sequence _ ih => exact .sequence ih
  | dictionary _ ih => exact .dictionary ih

theorem harmonious_settled (h : c.Harmonious) : (settled c).Harmonious := by
  intro id chain hchain a ha x y hx hy p hp q hq hn
  obtain ⟨old, ho, rfl⟩ := exists_of_composite?_settled hx
  obtain ⟨other, ho', rfl⟩ := exists_of_composite?_settled hy
  exact compatible_settled (h (baseChain_settled.mp hchain) a ha ho ho' p hp q hq hn)

end Hierarchy

open Resolution Hierarchy

theorem Resolution.Scene.Finished.valid {context : Context} {methods : List Method} {t : State}
    (h : Scene.Finished context methods t) : t.catalog.Valid where
  types hx _ hp := h.propertiesWithin hx hp
  bases := h.basesWithin
  names hx := by
    obtain ⟨schema, pointer, -, -, -, hdescribed⟩ := h.described hx
    exact hdescribed.nodup_names

/-- The hierarchies of a valid catalog are without conflict exactly if each composite whose chain
of bases ends has compatible types with every one of its ancestors for the properties that both
declare. So in a model that is handed out any two composites on one chain have. -/
theorem overrides_agree :
    (∀ c : Catalog, c.Valid → ((∀ d ∈ Hierarchy.defects c, d.kind ≠ .propertyConflict) ↔
      ∀ id chain, c.BaseChain id chain → ∀ a ∈ chain, c.Agree id a)) ∧
    (∀ context m, (Build.run context).result = .ok m → m.catalog.Valid ∧
      ∀ id chain, m.catalog.BaseChain id chain →
        ∀ a ∈ id :: chain, ∀ b ∈ id :: chain, m.catalog.Agree a b) := by
  constructor
  · intro c hv
    rw [← harmonious_iff hv]
    exact ⟨fun h _ _ => h, fun h _ _ => h _ _⟩
  · intro context m hm
    obtain ⟨t, -, hf, -, hh, hcatalog⟩ := Scene.finished_of_run hm
    have hv := hf.valid
    have hharmonious : t.catalog.Harmonious := by
      rw [harmonious_iff hv, hh]
      exact List.forall_mem_nil _
    rw [hcatalog]
    exact ⟨valid_settled hv, fun id chain =>
      agree_of_mem (valid_settled hv) (harmonious_settled hharmonious)⟩

/-- The two kinds of pets agree, and so no conflict is found in their model. -/
theorem overrides_agree_kennel : ∃ m, (Build.run ⟨kennel, {}⟩).result = .ok m ∧
    m.catalog.BaseChain ⟨1⟩ [⟨0⟩] ∧ m.catalog.Agree ⟨0⟩ ⟨1⟩ ∧
    ∀ d ∈ Hierarchy.defects m.catalog, d.kind ≠ .propertyConflict := by
  have hok : ((Build.run ⟨kennel, {}⟩).result.toOption.bind
      fun m => Hierarchy.ancestors? m.catalog ⟨1⟩) = some [⟨0⟩] := by decide +kernel
  cases h : (Build.run ⟨kennel, {}⟩).result with
  | error failure =>
    rw [h] at hok
    cases hok
  | ok m =>
    rw [h] at hok
    have hchain : m.catalog.BaseChain ⟨1⟩ [⟨0⟩] := baseChain_of_chain? hok
    obtain ⟨hv, hagree⟩ := overrides_agree.2 _ m h
    refine ⟨m, rfl, hchain, hagree _ _ hchain _ (by simp) _ (by simp), ?_⟩
    rw [overrides_agree.1 _ hv]
    intro id chain hc a ha
    exact hagree id chain hc id (by simp) a (by simp [ha])

end ApiModel
