import ApiModel.Grammars
import ApiModel.Proofs.Hierarchy
import ApiModel.Proofs.Methods

/-! # Models are closed

A model that is handed out is a finished graph. Every index in it is in use, every composite has
its hierarchy resolved, names are told apart without regard to case, and the base links form trees
in which every composite knows exactly the composites below it.
-/

namespace ApiModel

open Text (caseKey)

/-- A finished graph of types. -/
structure ClientModel.IsClosed (m : ClientModel) : Prop where
  properties : ∀ composite ∈ m.catalog.composites, ∀ p ∈ composite.properties,
    p.type.Within m.catalog
  parameters : ∀ method ∈ m.methods, ∀ p ∈ method.parameters, p.type.Within m.catalog
  responses : ∀ method ∈ m.methods, ∀ response ∈ method.responses, ∀ type,
    response.2.body = some type → type.Within m.catalog
  defaultResponses : ∀ method ∈ m.methods, ∀ response, method.defaultResponse = some response →
    ∀ type, response.body = some type → type.Within m.catalog
  bases : ∀ composite ∈ m.catalog.composites, ∀ base, composite.base = some base →
    base.index < m.catalog.composites.length
  derived : ∀ composite ∈ m.catalog.composites, ∀ id ∈ composite.derived,
    id.index < m.catalog.composites.length
  progress : ∀ composite ∈ m.catalog.composites, composite.progress = .hierarchyResolved
  names : ∀ {a b x y}, m.catalog.composite? a = some x → m.catalog.composite? b = some y →
    caseKey x.name = caseKey y.name → a = b
  propertyNames : ∀ composite ∈ m.catalog.composites, (composite.properties.map (·.name)).Nodup
  chains : ∀ {id composite}, m.catalog.composite? id = some composite →
    ∃ chain, m.catalog.BaseChain id chain ∧ (id :: chain).Nodup
  ancestors : ∀ {a d x y}, m.catalog.composite? a = some x → m.catalog.composite? d = some y →
    (d ∈ x.derived ↔ Relation.TransGen m.catalog.HasBase d a)

namespace Resolution

variable {context : Context} {c : Catalog} {types : String → Option ModelType} {s t : State}
  {id : CompositeId} {composite : Composite}

structure Responses.Bodies (P : ModelType → Prop) (r : Responses) : Prop where
  byStatus : ∀ response ∈ r.byStatus, ∀ type, response.2.body = some type → P type
  otherwise : ∀ response, r.otherwise = some response → ∀ type, response.body = some type → P type

theorem Responses.Bodies.add {P : ModelType → Prop} {r : Responses} (h : r.Bodies P)
    (status : String) {response : Response} (hr : ∀ type, response.body = some type → P type) :
    (r.add status response).Bodies P := by
  unfold Responses.add
  split
  · exact ⟨h.byStatus, fun other ho => Option.some.inj ho ▸ hr⟩
  · refine ⟨fun other ho => ?_, h.otherwise⟩
    rcases Fields.mem_set ho with ho | rfl
    · exact h.byStatus other ho
    · exact hr

theorem Answers.bodies {owner typePrefix : String} {pointer : Pointer}
    {nodes : List (String × ResponseNode)} {r : Responses}
    (h : Answers context c types owner typePrefix pointer nodes r) :
    r.Bodies fun type => ∃ site, HasType context c types site type := by
  induction h with
  | nil => exact ⟨nofun, nofun⟩
  | empty _ _ ih => exact ih.add _ nofun
  | body _ _ ht ih =>
    refine .add ?_ _ fun type htype => Option.some.inj htype ▸ ⟨_, ht⟩
    unfold Responses.counting
    split
    · exact ⟨ih.byStatus, ih.otherwise⟩
    · exact ih

namespace Scene.Finished

variable {methods : List Method}

/-- Each composite says what a schema of the document declares. -/
theorem described (h : Finished context methods t) (hc : t.catalog.composite? id = some composite) :
    ∃ schema pointer, (ofBuild context).Stands pointer schema ∧ schema.isComposite = true ∧
      composite.origin = pointer.text ∧
      Described context t.catalog t.typeOf? (t.defects ≠ []) schema pointer composite := by
  obtain ⟨schema, pointer, hs, hshape, ho, hd⟩ := h.inv.described hc (by simp [h.filled hc])
  exact ⟨schema, pointer, hs, hshape, ho, hd.mono (.refl _) (fun h => h) marked_ofBuild.mp⟩

theorem basesWithin (h : Finished context methods t) : t.catalog.BasesWithin := by
  intro id base hb
  obtain ⟨composite, hc, hb⟩ := Option.bind_eq_some_iff.mp hb
  exact h.inv.base_lt hc (by simp [h.filled hc]) hb

theorem propertiesWithin (h : Finished context methods t)
    (hc : t.catalog.composite? id = some composite) {p : Property} (hp : p ∈ composite.properties) :
    p.type.Within t.catalog := h.inv.property_within hc (by simp [h.filled hc]) hp

end Scene.Finished

end Resolution

open Resolution Hierarchy

/-- Whatever the document and the settings, a model that is handed out is closed. -/
theorem isClosed_of_run {context : Context} {m : ClientModel}
    (h : (Build.run context).result = .ok m) : m.IsClosed := by
  obtain ⟨name, version, url, description, catalog, methods⟩ := m
  obtain ⟨t, -, hf, hd, hh, hm⟩ := Scene.finished_of_run h
  obtain rfl : catalog = settled t.catalog := hm
  have hcycles : cycles t.catalog = [] :=
    List.map_eq_nil_iff.mp (List.append_eq_nil_iff.mp (List.append_eq_nil_iff.mp hh).1).1
  have hg := grows_settled t.catalog
  have hlen := length_settled t.catalog
  have hends : ∀ {id old}, t.catalog.composite? id = some old →
      ∃ chain, ancestors? t.catalog id = some chain := fun hc =>
    exists_ancestors? hf.basesWithin hcycles (Catalog.index_lt hc)
  have hmethod : ∀ {method}, method ∈ methods → ∃ o,
      MethodOf context t.catalog t.typeOf? o method := fun hmem => by
    obtain ⟨o, -, ho⟩ := exists_of_mem_forall₂ (hf.methods hd) hmem
    exact ⟨o, ho⟩
  have htyped : ∀ {type}, (∃ site, HasType context t.catalog t.typeOf? site type) →
      type.Within (settled t.catalog) := fun ⟨_, ht⟩ => (hf.inv.within ht).mono hg
  refine
    { properties := fun composite hc p hp => ?_
      parameters := fun method hmem p hp => ?_
      responses := fun method hmem response hr type ht => ?_
      defaultResponses := fun method hmem response hr type ht => ?_
      bases := fun composite hc base hb => ?_
      derived := fun composite hc d hid => ?_
      progress := fun composite hc => ?_
      names := fun ha hb hk => ?_
      propertyNames := fun composite hc => ?_
      chains := fun hc => ?_
      ancestors := fun ha hb => ?_ }
  · obtain ⟨id, old, ho, rfl⟩ := exists_of_mem_settled hc
    exact (hf.propertiesWithin ho hp).mono hg
  · obtain ⟨o, ho⟩ := hmethod hmem
    obtain ⟨d, -, hd⟩ := exists_of_mem_forall₂ ho.parameters hp
    obtain ⟨schema, pointer, -, ht, -⟩ := hd.typed
    exact htyped ⟨_, ht⟩
  · obtain ⟨o, ho⟩ := hmethod hmem
    obtain ⟨r, ha, hby, -⟩ := ho.responses
    exact htyped (ha.bodies.byStatus response (hby ▸ hr) type ht)
  · obtain ⟨o, ho⟩ := hmethod hmem
    obtain ⟨r, ha, -, hother⟩ := ho.responses
    exact htyped (ha.bodies.otherwise response (hother ▸ hr) type ht)
  · obtain ⟨id, old, ho, rfl⟩ := exists_of_mem_settled hc
    have hbase : t.catalog.HasBase id base := Option.bind_eq_some_iff.mpr ⟨old, ho, hb⟩
    exact (hf.basesWithin hbase).trans_eq hlen.symm
  · obtain ⟨id, old, ho, rfl⟩ := exists_of_mem_settled hc
    obtain ⟨chain, hlt, -⟩ := mem_descendants.mp hid
    exact hlt.trans_eq hlen.symm
  · obtain ⟨id, old, ho, rfl⟩ := exists_of_mem_settled hc
    obtain ⟨chain, hchain⟩ := hends ho
    exact progress_settle (Catalog.index_lt ho) hchain
  · obtain ⟨x, hx, rfl⟩ := exists_of_composite?_settled ha
    obtain ⟨y, hy, rfl⟩ := exists_of_composite?_settled hb
    exact hf.inv.keyed.id_eq hx hy hk
  · obtain ⟨id, old, ho, rfl⟩ := exists_of_mem_settled hc
    obtain ⟨schema, pointer, -, -, -, hdescribed⟩ := hf.described ho
    exact hdescribed.nodup_names
  · obtain ⟨x, hx, rfl⟩ := exists_of_composite?_settled hc
    obtain ⟨chain, hchain⟩ := hends hx
    have hb := baseChain_of_chain? hchain
    exact ⟨chain, baseChain_settled.mpr hb, hb.nodup⟩
  · obtain ⟨x, hx, rfl⟩ := exists_of_composite?_settled ha
    obtain ⟨y, hy, rfl⟩ := exists_of_composite?_settled hb
    obtain ⟨chain, hchain⟩ := hends hy
    exact mem_derived_settle_iff (Catalog.index_lt hy) hchain

def kennel : Document where
  info := { title := "Kennel", version := "1" }
  definitions := [
    ("Pet", { properties := [("name", { typeName := some "string" }),
      ("pups", { typeName := some "array", items := some (.referenceTo "Dog") })] }),
    ("Dog", { allOf := [.referenceTo "Pet",
      { properties := [("tag", { typeName := some "integer" })] }] })]
  paths := [("/pets", { operation? := fun method =>
    if method = .get then some {
      operationId := some "pets_first"
      responses := [("200", { schema := some (.referenceTo "pet") })] }
    else none })]

theorem isClosed_of_run_kennel : ∃ m, (Build.run ⟨kennel, {}⟩).result = .ok m ∧ m.IsClosed := by
  have hok : (Build.run ⟨kennel, {}⟩).result.isOk = true := by decide +kernel
  cases h : (Build.run ⟨kennel, {}⟩).result with
  | error failure => rw [h] at hok; cases hok
  | ok m => exact ⟨m, rfl, isClosed_of_run h⟩

end ApiModel
