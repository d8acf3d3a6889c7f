import ApiModel.Grammars
import ApiModel.Proofs.Dispatch
import ApiModel.Proofs.Keyed

/-! # Inherited properties

All properties of a type are put together from the topmost ancestor down, a later declaration in
the place of an earlier one. The checks look for a property from the type up and stop at the first
declaration. Both find the same one, since chains of bases end and no type has two properties of
one name.
-/

namespace ApiModel

variable {c : Catalog} {id base a : CompositeId} {ids chain : List CompositeId} {name : String}
  {p : Property} {m : ClientModel} {x : Composite}

namespace Catalog

def own (c : Catalog) (id : CompositeId) : List Property :=
  ((c.composite? id).map (·.properties)).getD []

theorem mem_own_iff : p ∈ c.own id ↔ c.Declares p.name id p := by
  unfold own Declares
  cases c.composite? id <;> simp

theorem mem_names_own_iff : name ∈ (c.own id).map (·.name) ↔ ∃ p, c.Declares name id p := by
  simp only [List.mem_map, mem_own_iff]
  constructor
  · rintro ⟨p, hp, rfl⟩
    exact ⟨p, hp⟩
  · rintro ⟨p, x, hx, hp, rfl⟩
    exact ⟨p, ⟨x, hx, hp, rfl⟩, rfl⟩

end Catalog

namespace Hierarchy

open Catalog

/-- Looking up a property in a composite finds the last one of its name. -/
theorem last?_own (hv : c.Valid) (id : CompositeId) (name : String) :
    Keyed.last? (·.name) (c.own id) name = (c.composite? id).bind (·.property? name) := by
  unfold own
  cases hx : c.composite? id with
  | none => rfl
  | some x =>
    refine (Keyed.last?_eq_find? (hv.names hx)).trans ?_
    rfl

/-- The last declaration from the top down is the nearest one from below. -/
theorem last?_flatMap_own (hv : c.Valid) (ids : List CompositeId) (name : String) :
    Keyed.last? (·.name) (ids.reverse.flatMap c.own) name =
      (nearest? c name ids).map Prod.snd := by
  -- The nearest composite is the last of the reversed chain, so its properties decide first.
  induction ids with
  | nil => rfl
  | cons id rest ih =>
    rw [List.reverse_cons, List.flatMap_append, List.flatMap_singleton, Keyed.last?_append,
      last?_own hv, ih, nearest?]
    cases (c.composite? id).bind (·.property? name) <;> rfl

theorem nearest?_settled (c : Catalog) (name : String) (ids : List CompositeId) :
    nearest? (settled c) name ids = nearest? c name ids := by
  have hlookup (id : CompositeId) : ((settled c).composite? id).bind (·.property? name) =
      (c.composite? id).bind (·.property? name) := by
    rw [composite?_settled]
    cases c.composite? id <;> rfl
  induction ids with
  | nil => rfl
  | cons id rest ih => rw [nearest?, nearest?, hlookup, ih]

theorem lookup_eq_some_iff (hv : c.Valid) :
    (c.composite? a).bind (·.property? name) = some p ↔ c.Declares name a p := by
  constructor
  · intro h
    obtain ⟨x, hx, hp⟩ := Option.bind_eq_some_iff.mp h
    exact ⟨x, hx, property?_eq_some hp⟩
  · rintro ⟨x, hx, hp, rfl⟩
    rw [hx, Option.bind_some]
    exact property?_of_mem (hv.names hx) hp

theorem nearest?_eq_some_iff : nearest? c name ids = some (a, p) ↔
    ids.find? (fun b => ((c.composite? b).bind (·.property? name)).isSome) = some a ∧
      (c.composite? a).bind (·.property? name) = some p := by
  induction ids with
  | nil => simp [nearest?]
  | cons id rest ih =>
    rw [nearest?, List.find?_cons]
    cases hp : (c.composite? id).bind (·.property? name) with
    | none => exact ih
    | some q =>
      dsimp only [Option.isSome_some]
      rw [Option.some.injEq, Option.some.injEq, Prod.mk.injEq]
      constructor
      · rintro ⟨rfl, rfl⟩
        exact ⟨rfl, hp⟩
      · rintro ⟨rfl, hq⟩
        exact ⟨rfl, Option.some.inj (hp.symm.trans hq)⟩

/-- Looking for a property along a chain finds what the composite at its start sees. -/
theorem exists_nearest?_iff_sees (hv : c.Valid) (h : c.BaseChain id chain) :
    (∃ a, nearest? c name (id :: chain) = some (a, p)) ↔ c.Sees name id p := by
  have htest (b : CompositeId) : ((c.composite? b).bind (·.property? name)).isSome = true ↔
      ∃ q, c.Declares name b q := by
    simp only [Option.isSome_iff_exists, lookup_eq_some_iff hv]
  unfold Sees
  simp only [nearest?_eq_some_iff, lookup_eq_some_iff hv, h.nearest_iff htest]

end Hierarchy

namespace ClientModel

open Hierarchy

theorem putProperty_eq : putProperty = Keyed.put (·.name) := by
  funext properties p
  induction properties with
  | nil => rfl
  | cons q rest ih => rw [putProperty, Keyed.put, ih]

/-- The properties that a type and its ancestors declare, those of the topmost ancestor first. -/
def declared (m : ClientModel) (id : CompositeId) : List Property :=
  (id :: m.ancestors id).reverse.flatMap m.catalog.own

theorem allProperties_eq_foldl (m : ClientModel) (id : CompositeId) :
    m.allProperties id = (m.declared id).foldl (Keyed.put (·.name)) [] := by
  rw [allProperties, declared, putProperty_eq, List.reverse_cons]
  rfl

theorem mem_allProperties (hv : m.catalog.Valid) : p ∈ m.allProperties id ↔
    ∃ a, nearest? m.catalog p.name (id :: m.ancestors id) = some (a, p) := by
  rw [allProperties_eq_foldl, Keyed.mem_foldl_put, declared, last?_flatMap_own hv,
    Option.map_eq_some_iff]
  simp only [Prod.exists, exists_eq_right]

theorem names_allProperties (m : ClientModel) (id : CompositeId) :
    (m.allProperties id).map (·.name) = ((m.declared id).map (·.name)).eraseDups ∧
      ((m.allProperties id).map (·.name)).Nodup := by
  rw [allProperties_eq_foldl]
  exact Keyed.keys_foldl_put _ _

theorem mem_names_allProperties : name ∈ (m.allProperties id).map (·.name) ↔
    ∃ a ∈ id :: m.ancestors id, ∃ p, m.catalog.Declares name a p := by
  rw [(names_allProperties m id).1, List.mem_eraseDups, declared, List.map_flatMap,
    List.mem_flatMap]
  simp only [List.mem_reverse, Catalog.mem_names_own_iff]

theorem ancestors_of_hasBase (hb : m.catalog.BasesWithin)
    (hid : id.index < m.catalog.composites.length) (h : m.catalog.BaseChain id chain)
    (hbase : m.catalog.HasBase id base) : m.ancestors id = base :: m.ancestors base := by
  rw [ancestors_eq hb hid h]
  cases h with
  | root hr => cases hr.symm.trans hbase
  | link hbase' hc =>
    obtain rfl := Option.some.inj (hbase.symm.trans hbase')
    rw [ancestors_eq hb (hb hbase) hc]

theorem exists_nearest?_iff (hv : m.catalog.Valid) :
    (∃ a, nearest? m.catalog name (id :: m.ancestors id) = some (a, p)) ↔
      p ∈ m.allProperties id ∧ p.name = name := by
  rw [mem_allProperties hv]
  constructor
  · rintro ⟨a, ha⟩
    obtain ⟨-, hp⟩ := nearest?_eq_some_iff.mp ha
    obtain ⟨-, -, -, rfl⟩ := (lookup_eq_some_iff hv).mp hp
    exact ⟨⟨a, ha⟩, rfl⟩
  · rintro ⟨h, rfl⟩
    exact h

end ClientModel

open Resolution Hierarchy

/-- In a model that is handed out the ancestors of a type are its whole chain of bases, and any
higher limit would give the same. All its properties have different names, namely those that the
type or an ancestor declares, in the order in which they are declared first from the topmost
ancestor down, and each is the nearest declaration of its name. This is also what the checks of
the build look up: for a discriminator from the type up, and for a property that the type
overrides from its base up. -/
theorem allProperties_nearest {context : Context} (h : (Build.run context).result = .ok m)
    (hx : m.catalog.composite? id = some x) :
    (m.catalog.BaseChain id (m.ancestors id) ∧
      (m.ancestors id).length < m.catalog.composites.length ∧
      ∀ limit, (m.ancestors id).length ≤ limit → m.basesUpTo limit id = m.ancestors id) ∧
    ((m.allProperties id).map (·.name)).Nodup ∧
    (∀ name, name ∈ (m.allProperties id).map (·.name) ↔
      ∃ a ∈ id :: m.ancestors id, ∃ p, m.catalog.Declares name a p) ∧
    (∀ p, p ∈ m.allProperties id ↔ m.catalog.Sees p.name id p) ∧
    (m.allProperties id).map (·.name) =
      (((id :: m.ancestors id).reverse.flatMap m.catalog.own).map (·.name)).eraseDups ∧
    ∃ t, Build.resolveAll context (resolveSite context) {} = some (m.methods, t) ∧
      m.catalog = settled t.catalog ∧ (id, m.ancestors id) ∈ chains t.catalog ∧
      (∀ name p, (∃ a, nearest? t.catalog name (id :: m.ancestors id) = some (a, p)) ↔
        p ∈ m.allProperties id ∧ p.name = name) ∧
      ∀ base, m.catalog.HasBase id base → ∀ name p,
        (∃ a, nearest? t.catalog name (m.ancestors id) = some (a, p)) ↔
          p ∈ m.allProperties base ∧ p.name = name := by
  obtain ⟨t, ht, hf, -, -, hcatalog⟩ := Scene.finished_of_run h
  obtain ⟨hb, chain, hchain⟩ := exists_baseChain_of_run h hx
  have hid := Catalog.index_lt hx
  have hv : m.catalog.Valid := hcatalog ▸ valid_settled hf.valid
  obtain rfl := ClientModel.ancestors_eq hb hid hchain
  have hlength := Catalog.length_le_of_nodup hchain.nodup
    (List.forall_mem_cons.mpr ⟨hid, hchain.index_lt hb⟩)
  have hlookup (name : String) (ids : List CompositeId) :
      nearest? t.catalog name ids = nearest? m.catalog name ids := by
    rw [hcatalog, nearest?_settled]
  have hmem : (id, m.ancestors id) ∈ chains t.catalog := by
    rw [hcatalog, length_settled] at hid
    rw [hcatalog, baseChain_settled] at hchain
    exact mem_chains.mpr ⟨hid, hchain.ancestors?_eq_some hf.basesWithin hid⟩
  obtain ⟨hnames, hnodup⟩ := ClientModel.names_allProperties m id
  refine ⟨⟨hchain, hlength, fun limit => ClientModel.basesUpTo_eq hchain⟩, hnodup,
    fun name => ClientModel.mem_names_allProperties, fun p => ?_, hnames, t, ht, hcatalog, hmem,
    fun name p => ?_, fun base hbase name p => ?_⟩
  · rw [ClientModel.mem_allProperties hv, exists_nearest?_iff_sees hv hchain]
  · rw [hlookup, ClientModel.exists_nearest?_iff hv]
  · rw [ClientModel.ancestors_of_hasBase hb hid hchain hbase, hlookup,
      ClientModel.exists_nearest?_iff hv]

def river : Document where
  info := { title := "River", version := "1" }
  definitions := [
    ("Fish", { properties := [
      ("fishtype", { typeName := some "string" }), ("length", { typeName := some "number" })] }),
    ("Salmon", {
      allOf := [.referenceTo "Fish"]
      properties := [("location", { typeName := some "string" })] }),
    ("SmartSalmon", {
      allOf := [.referenceTo "Salmon"]
      properties := [("fishtype", { typeName := some "string", description := some "clever" })] })]

theorem allProperties_nearest_river : ∃ m x q, (Build.run ⟨river, {}⟩).result = .ok m ∧
    m.catalog.composite? ⟨2⟩ = some x ∧ x.properties = [q] ∧ q ∈ m.allProperties ⟨2⟩ ∧
    m.catalog.BaseChain ⟨2⟩ [⟨1⟩, ⟨0⟩] ∧
    (m.allProperties ⟨2⟩).map (·.name) = ["fishtype", "length", "location"] := by
  have hok : ((Build.run ⟨river, {}⟩).result.toOption.bind fun m =>
      (m.catalog.composite? ⟨2⟩).map fun x => (x.properties.map (·.name), m.ancestors ⟨2⟩,
        (m.allProperties ⟨2⟩).map (·.name))) =
      some (["fishtype"], [⟨1⟩, ⟨0⟩], ["fishtype", "length", "location"]) := by decide +kernel
  cases h : (Build.run ⟨river, {}⟩).result with
  | error failure =>
    rw [h] at hok
    cases hok
  | ok m =>
    rw [h] at hok
    obtain ⟨x, hx, hok⟩ := Option.map_eq_some_iff.mp hok
    obtain ⟨hown, hancestors, hnames⟩ : x.properties.map (·.name) = ["fishtype"] ∧
        m.ancestors ⟨2⟩ = [⟨1⟩, ⟨0⟩] ∧
        (m.allProperties ⟨2⟩).map (·.name) = ["fishtype", "length", "location"] := by
      simpa using hok
    obtain ⟨q, hq, hname⟩ := List.map_eq_singleton_iff.mp hown
    obtain ⟨⟨hchain, -⟩, -, -, hsees, -⟩ := allProperties_nearest h hx
    have hdeclares : m.catalog.Declares q.name ⟨2⟩ q := ⟨x, hx, by simp [hq], rfl⟩
    exact ⟨m, x, q, rfl, hx, hq, (hsees q).mpr ⟨⟨2⟩, .here ⟨q, hdeclares⟩, hdeclares⟩,
      hancestors ▸ hchain, hnames⟩

end ApiModel
