import ApiModel.Model.Compatibility

/-! # Catalogs that grow

A catalog only ever grows: what is registered keeps its index, its name and where it was declared,
and an enum keeps its values. A keyed catalog finds a composite under a name exactly if the
composite's own name has the same case key, so no two composites share one.
-/

namespace ApiModel

open Text (caseKey)

namespace Catalog

variable {c d f : Catalog}

def addComposite (c : Catalog) (name : String) (composite : Composite) : Catalog :=
  { c with
    composites := c.composites ++ [composite]
    compositeKeys := c.compositeKeys ++ [(caseKey name, ⟨c.composites.length⟩)] }

theorem findComposite?_addComposite (c : Catalog) (name other : String) (composite : Composite) :
    (c.addComposite name composite).findComposite? other = (c.findComposite? other).or
      (if caseKey name = caseKey other then some ⟨c.composites.length⟩ else none) := by
  simp only [findComposite?, addComposite, Fields.get?_append, Fields.get?_cons, Fields.get?_nil]

theorem composite?_addComposite_self (c : Catalog) (name : String) (composite : Composite) :
    (c.addComposite name composite).composite? ⟨c.composites.length⟩ = some composite := by
  simp [composite?, addComposite]

theorem composite?_addComposite (c : Catalog) (name : String) (composite : Composite)
    (id : CompositeId) : (c.addComposite name composite).composite? id =
      if id.index = c.composites.length then some composite else c.composite? id := by
  simp only [composite?, addComposite, List.getElem?_append]
  grind

theorem composite?_modifyComposite (c : Catalog) (id other : CompositeId)
    (g : Composite → Composite) : (c.modifyComposite id g).composite? other =
      if id = other then (c.composite? other).map g else c.composite? other := by
  obtain ⟨i⟩ := id
  obtain ⟨j⟩ := other
  simp only [composite?, modifyComposite, List.getElem?_modify, CompositeId.mk.injEq]
  split <;> simp

theorem composites_modifyComposite {old added : List Composite} {composite : Composite}
    (h : c.composites = old ++ composite :: added) (g : Composite → Composite) :
    (c.modifyComposite ⟨old.length⟩ g).composites = old ++ g composite :: added := by
  simp [modifyComposite, h, List.modify_eq_take_drop]

theorem composite?_of_composites {old added : List Composite} {composite : Composite}
    (h : c.composites = old ++ composite :: added) :
    c.composite? ⟨old.length⟩ = some composite := by
  simp [composite?, h]

def addEnum (c : Catalog) (e : EnumType) : Catalog := { c with enums := c.enums ++ [e] }

def addNamedEnum (c : Catalog) (name : String) (e : EnumType) : Catalog :=
  { c.addEnum e with enumKeys := c.enumKeys ++ [(caseKey name, ⟨c.enums.length⟩)] }

theorem enum?_addEnum_self (c : Catalog) (e : EnumType) :
    (c.addEnum e).enum? ⟨c.enums.length⟩ = some e := by
  simp [enum?, addEnum]

theorem enum?_addEnum (c : Catalog) (e : EnumType) (id : EnumId) :
    (c.addEnum e).enum? id = if id.index = c.enums.length then some e else c.enum? id := by
  simp only [enum?, addEnum, List.getElem?_append]
  grind

theorem findEnum?_addNamedEnum (c : Catalog) (name other : String) (e : EnumType) :
    (c.addNamedEnum name e).findEnum? other = (c.findEnum? other).or
      (if caseKey name = caseKey other then some ⟨c.enums.length⟩ else none) := by
  simp only [findEnum?, addNamedEnum, addEnum, Fields.get?_append, Fields.get?_cons,
    Fields.get?_nil]

theorem index_lt {id : CompositeId} {composite : Composite} (h : c.composite? id = some composite) :
    id.index < c.composites.length := (List.getElem?_eq_some_iff.mp h).1

theorem enum_index_lt {id : EnumId} {e : EnumType} (h : c.enum? id = some e) :
    id.index < c.enums.length := (List.getElem?_eq_some_iff.mp h).1

theorem composite?_of_index_lt {id : CompositeId} (h : id.index < c.composites.length) :
    ∃ composite, c.composite? id = some composite := ⟨_, List.getElem?_eq_getElem h⟩

theorem enum?_of_index_lt {id : EnumId} (h : id.index < c.enums.length) :
    ∃ e, c.enum? id = some e := ⟨_, List.getElem?_eq_getElem h⟩

theorem composite?_addComposite_old {id : CompositeId} {old : Composite}
    (h : c.composite? id = some old) (name : String) (composite : Composite) :
    (c.addComposite name composite).composite? id = some old := by
  rw [composite?_addComposite, if_neg (Nat.ne_of_lt (index_lt h)), h]

theorem enum?_addEnum_old {id : EnumId} {old : EnumType} (h : c.enum? id = some old)
    (e : EnumType) : (c.addEnum e).enum? id = some old := by
  rw [enum?_addEnum, if_neg (Nat.ne_of_lt (enum_index_lt h)), h]

/-- Composites keep their names and origins, and enums stay as they are. -/
structure Grows (c d : Catalog) : Prop where
  composites : ∀ {id composite}, c.composite? id = some composite →
    ∃ later, d.composite? id = some later ∧ later.name = composite.name ∧
      later.origin = composite.origin
  enums : ∀ {id e}, c.enum? id = some e → d.enum? id = some e

namespace Grows

theorem refl (c : Catalog) : c.Grows c := ⟨fun h => ⟨_, h, rfl, rfl⟩, id⟩

theorem trans (h : c.Grows d) (h' : d.Grows f) : c.Grows f where
  composites hc := by
    obtain ⟨_, hd, hn, ho⟩ := h.composites hc
    obtain ⟨_, hf, hn', ho'⟩ := h'.composites hd
    exact ⟨_, hf, hn'.trans hn, ho'.trans ho⟩
  enums he := h'.enums (h.enums he)

theorem addComposite (c : Catalog) (name : String) (composite : Composite) :
    c.Grows (c.addComposite name composite) where
  composites h := ⟨_, composite?_addComposite_old h name composite, rfl, rfl⟩
  enums h := h

theorem addEnum (c : Catalog) (e : EnumType) : c.Grows (c.addEnum e) where
  composites h := ⟨_, h, rfl, rfl⟩
  enums h := enum?_addEnum_old h e

theorem addNamedEnum (c : Catalog) (name : String) (e : EnumType) :
    c.Grows (c.addNamedEnum name e) :=
  ⟨(addEnum c e).composites, (addEnum c e).enums⟩

theorem modifyComposite (c : Catalog) (id : CompositeId) {g : Composite → Composite}
    (hn : ∀ old, (g old).name = old.name) (ho : ∀ old, (g old).origin = old.origin) :
    c.Grows (c.modifyComposite id g) where
  composites {other old} h := by
    rw [composite?_modifyComposite, h]
    split
    · exact ⟨g old, rfl, hn old, ho old⟩
    · exact ⟨old, rfl, rfl, rfl⟩
  enums h := h

theorem index_lt (h : c.Grows d) {id : CompositeId} (hi : id.index < c.composites.length) :
    id.index < d.composites.length := by
  obtain ⟨composite, hc⟩ := composite?_of_index_lt hi
  obtain ⟨later, hd, -, -⟩ := h.composites hc
  exact Catalog.index_lt hd

theorem enum_index_lt (h : c.Grows d) {id : EnumId} (hi : id.index < c.enums.length) :
    id.index < d.enums.length := by
  obtain ⟨e, he⟩ := enum?_of_index_lt hi
  exact Catalog.enum_index_lt (h.enums he)

end Grows

/-- A name finds the composite whose own name has the same case key. -/
def Keyed (c : Catalog) : Prop :=
  ∀ name id, c.findComposite? name = some id ↔
    ∃ composite, c.composite? id = some composite ∧ caseKey composite.name = caseKey name

namespace Keyed

theorem empty : Keyed {} := fun name id => by simp [findComposite?, composite?]

theorem id_eq (h : c.Keyed) {a b : CompositeId} {x y : Composite} (ha : c.composite? a = some x)
    (hb : c.composite? b = some y) (hk : caseKey x.name = caseKey y.name) : a = b :=
  Option.some.inj (((h y.name a).mpr ⟨x, ha, hk⟩).symm.trans ((h y.name b).mpr ⟨y, hb, rfl⟩))

theorem addComposite (h : c.Keyed) {name : String} {composite : Composite}
    (hf : c.findComposite? name = none) (hn : composite.name = name) :
    (c.addComposite name composite).Keyed := by
  intro other id
  rw [findComposite?_addComposite, composite?_addComposite, Option.or_eq_some_iff, h]
  constructor
  · rintro (⟨x, hx, hk⟩ | ⟨-, hk⟩)
    · exact ⟨x, by rw [if_neg (Nat.ne_of_lt (index_lt hx)), hx], hk⟩
    · obtain ⟨hk, hid⟩ := Option.ite_none_right_eq_some.mp hk
      exact ⟨composite, by rw [if_pos (by rw [← Option.some.inj hid])], by rw [hn, hk]⟩
  · rintro ⟨x, hx, hk⟩
    split at hx
    · rename_i hid
      obtain ⟨i⟩ := id
      obtain rfl : i = c.composites.length := hid
      obtain rfl := Option.some.inj hx
      rw [hn] at hk
      refine .inr ⟨?_, if_pos hk⟩
      rw [findComposite?, ← hk]
      exact hf
    · exact .inl ⟨x, hx, hk⟩

theorem modifyComposite (h : c.Keyed) (id : CompositeId) {g : Composite → Composite}
    (hg : ∀ old, (g old).name = old.name) : (c.modifyComposite id g).Keyed := by
  intro name other
  rw [composite?_modifyComposite]
  refine (h name other).trans ?_
  split
  · constructor
    · rintro ⟨x, hx, hk⟩
      exact ⟨g x, by rw [hx]; rfl, by rw [hg, hk]⟩
    · rintro ⟨y, hy, hk⟩
      obtain ⟨x, hx, rfl⟩ := Option.map_eq_some_iff.mp hy
      exact ⟨x, hx, by rw [← hg, hk]⟩
  · rfl

end Keyed

/-- A name finds the enum that has a name with the same case key; exactly the enums with a name
are closed. -/
structure EnumsKeyed (c : Catalog) : Prop where
  find : ∀ name id, c.findEnum? name = some id ↔
    ∃ e given, c.enum? id = some e ∧ e.name = some given ∧ caseKey given = caseKey name
  closed : ∀ {id e}, c.enum? id = some e → e.expandable = e.name.isNone

namespace EnumsKeyed

theorem id_eq (h : c.EnumsKeyed) {a b : EnumId} {x y : EnumType} {name name' : String}
    (ha : c.enum? a = some x) (hb : c.enum? b = some y) (hx : x.name = some name)
    (hy : y.name = some name') (hk : caseKey name = caseKey name') : a = b :=
  Option.some.inj (((h.find name' a).mpr ⟨x, name, ha, hx, hk⟩).symm.trans
    ((h.find name' b).mpr ⟨y, name', hb, hy, rfl⟩))

theorem empty : EnumsKeyed {} := ⟨fun name id => by simp [findEnum?, enum?], by simp [enum?]⟩

theorem addEnum (h : c.EnumsKeyed) {e : EnumType} (hn : e.name = none)
    (he : e.expandable = true) : (c.addEnum e).EnumsKeyed where
  find name id := by
    refine (h.find name id).trans ?_
    rw [enum?_addEnum]
    constructor
    · rintro ⟨x, given, hx, hg⟩
      exact ⟨x, given, by rw [if_neg (Nat.ne_of_lt (enum_index_lt hx)), hx], hg⟩
    · rintro ⟨x, given, hx, hg, hk⟩
      split at hx
      · rw [← Option.some.inj hx, hn] at hg
        cases hg
      · exact ⟨x, given, hx, hg, hk⟩
  closed {id x} hx := by
    rw [enum?_addEnum] at hx
    split at hx
    · rw [← Option.some.inj hx, hn, he]; rfl
    · exact h.closed hx

theorem addNamedEnum (h : c.EnumsKeyed) {name : String} {e : EnumType}
    (hf : c.findEnum? name = none) (hn : e.name = some name) (he : e.expandable = false) :
    (c.addNamedEnum name e).EnumsKeyed where
  find other id := by
    rw [findEnum?_addNamedEnum, Option.or_eq_some_iff, h.find]
    show _ ↔ ∃ x given, (c.addEnum e).enum? id = some x ∧ _
    rw [enum?_addEnum]
    constructor
    · rintro (⟨x, given, hx, hg⟩ | ⟨-, hk⟩)
      · exact ⟨x, given, by rw [if_neg (Nat.ne_of_lt (enum_index_lt hx)), hx], hg⟩
      · obtain ⟨hk, hid⟩ := Option.ite_none_right_eq_some.mp hk
        exact ⟨e, name, by rw [if_pos (by rw [← Option.some.inj hid])], hn, hk⟩
    · rintro ⟨x, given, hx, hg, hk⟩
      split at hx
      · rename_i hid
        obtain ⟨i⟩ := id
        obtain rfl : i = c.enums.length := hid
        obtain rfl := Option.some.inj hx
        obtain rfl := Option.some.inj (hn.symm.trans hg)
        refine .inr ⟨?_, if_pos hk⟩
        rw [findEnum?, ← hk]
        exact hf
      · exact .inl ⟨x, given, hx, hg, hk⟩
  closed {id x} hx := by
    have hx : (c.addEnum e).enum? id = some x := hx
    rw [enum?_addEnum] at hx
    split at hx
    · rw [← Option.some.inj hx, hn, he]; rfl
    · exact h.closed hx

end EnumsKeyed

end Catalog

end ApiModel
