import ApiModel.Grammars
import ApiModel.Proofs.Soundness

/-! # Nothing is lost silently

A call that yields nothing leaves a defect behind, whoever records it, and defects stay. So where a
model is handed out every call has yielded something, and each property that an object type
declares is a property of its composite, exactly once.
-/

namespace ApiModel

open Resolution Hierarchy

/-- The composite `id` has exactly one property for each name among the members that a schema and
the inline parts of its `allOf` declare. -/
def ClientModel.Holds (m : ClientModel) (id : CompositeId) (s : Schema) (pointer : Pointer) :
    Prop :=
  ∃ composite, m.catalog.composite? id = some composite ∧
    ∀ member ∈ s.declaredMembers pointer,
      (composite.properties.map (·.name)).count member.name = 1

/-- The members are the properties of the schema and those of its inline parts. -/
theorem ClientModel.holds_iff {m : ClientModel} {id : CompositeId} {s : Schema}
    {pointer : Pointer} : m.Holds id s pointer ↔ ∃ composite, m.catalog.composite? id =
      some composite ∧
      (∀ p ∈ s.properties, (composite.properties.map (·.name)).count p.1 = 1) ∧
      ∀ part ∈ s.allOf, part.reference = none →
        ∀ p ∈ part.properties, (composite.properties.map (·.name)).count p.1 = 1 := by
  refine exists_congr fun composite => and_congr_right fun _ => ⟨fun h => ⟨?_, ?_⟩, ?_⟩
  · exact fun p hp => h _ (Schema.mem_declaredMembers_iff.mpr (.inl ⟨p, hp, rfl⟩))
  · intro part hpart hr p hp
    obtain ⟨i, hi⟩ := List.mem_iff_getElem?.mp hpart
    have hi := List.mk_mem_zipIdx_iff_getElem?.mpr hi
    exact h _ (Schema.mem_declaredMembers_iff.mpr (.inr ⟨part, i, hi, hr, p, hp, rfl⟩))
  · rintro ⟨hown, hparts⟩ member hm
    obtain ⟨p, hp, rfl⟩ | ⟨part, i, hi, hr, p, hp, rfl⟩ := Schema.mem_declaredMembers_iff.mp hm
    · exact hown p hp
    · exact hparts part (List.fst_mem_of_mem_zipIdx hi) hr p hp

/-- Nothing of the document is missing from the model. -/
structure ClientModel.IsComplete (m : ClientModel) (context : Context) : Prop where
  malformed : context.document.malformed = []
  definitions : ∀ {name schema}, (name, schema) ∈ context.document.definitions →
    ∃ s type t, Made context (.definition name (Pointer.definition name) name) s ∧
      resolveTop context (resolveSite context) name s = some (some type, t)
  calls : ∀ {call s}, Made context call s → ∃ t, call.run context s = some (true, t)
  nodes : ∀ {site s}, Made context (.node site) s → site.schema.isComposite = true →
    ∃ id t, resolveSite context site s = some (some (.composite id), t) ∧
      m.Holds id site.schema site.pointer
  objects : ∀ {name owner canonical pointer schema s},
    Made context (.definition name pointer owner) s →
    context.document.definition? name = some (canonical, schema) → schema.isComposite = true →
    ∃ id t, resolveDefinition context (resolveSite context) name pointer owner s =
        some (some (.composite id), t) ∧ m.Holds id schema (Pointer.definition canonical)

namespace Resolution

variable {context : Context} {s t : State} {methods : List Method}

theorem exists_made_definition {names : List String} {name : String} (h : name ∈ names)
    (hn : names = Fields.keys context.document.definitions) :
    ∃ s, Made context (.definition name (Pointer.definition name) name) s := by
  obtain ⟨before, after, rfl⟩ := List.append_of_mem h
  obtain ⟨⟨⟩, s, hs, -⟩ := Scene.resolveDefinitions_keeps
    (Scene.resolveSite_keeps (.ofBuild context) {}) (Scene.inv_reportMalformed context) before
  exact ⟨s, .definition hn.symm hs⟩

/-- A composite that says what a schema declares holds each member once. -/
theorem Described.holds {m : ClientModel} {types : String → Option ModelType} {id : CompositeId}
    {composite : Composite} {schema : Schema} {pointer : Pointer}
    (h : Described context m.catalog types False schema pointer composite)
    (hc : m.catalog.composite? id = some composite) : m.Holds id schema pointer :=
  ⟨composite, hc, fun _ hm => h.count_eq_one not_false hm⟩

/-- Where no defect has been found in the end every call has yielded something. -/
theorem Made.yields (hrun : Build.resolveAll context (resolveSite context) {} = some (methods, t))
    (hd : t.defects = []) {call : Call} (h : Made context call s) :
    ∃ u, call.run context s = some (true, u) := by
  obtain ⟨hadmits, hgrows⟩ := h.kept hrun
  obtain ⟨yields, u, hu, hlost⟩ := hadmits.ends
  cases yields with
  | true => exact ⟨u, hu⟩
  | false =>
    have hprefix := (hgrows hu).defects
    exact absurd (List.prefix_nil.mp (hd ▸ hprefix)) (hlost rfl)

/-- A definition that is an object type is resolved to a composite that says what it declares. -/
theorem Made.definition_described (hn : context.document.NamesOnce)
    (hrun : Build.resolveAll context (resolveSite context) {} = some (methods, t))
    (hf : Scene.Finished context methods t) (hd : t.defects = [])
    {name owner canonical : String} {pointer : Pointer} {schema : Schema}
    (h : Made context (.definition name pointer owner) s)
    (hdef : context.document.definition? name = some (canonical, schema))
    (hshape : schema.isComposite = true) : ∃ id composite u,
      resolveDefinition context (resolveSite context) name pointer owner s =
        some (some (.composite id), u) ∧
      (settled t.catalog).composite? id = some composite ∧
      Described context (settled t.catalog) t.typeOf? False schema
        (Pointer.definition canonical) composite := by
  obtain ⟨u, hu⟩ := h.yields hrun hd
  obtain ⟨type, hu, hsome⟩ := of_map_found hu
  obtain ⟨type, rfl⟩ := Option.isSome_iff_exists.mp hsome
  obtain ⟨⟨hi, -⟩, hgrows⟩ := h.kept hrun
  have hlast := hgrows (map_found hu)
  have hy := (Scene.resolveDefinition_keeps (Scene.resolveSite_keeps (.ofBuild context) {}) hi
    name pointer owner).holds hu
  obtain ⟨_, _, hdef', htype, hclaimed⟩ := hy.holds rfl
  cases hdef.symm.trans hdef'
  have hget := Scene.get?_of_definition? hdef
  have ht : HasType context t.catalog t.typeOf? (definitionSite canonical schema) type :=
    hf.inv.typed_of_claimed (hlast.claimed hclaimed) hget (hlast.resolved htype)
  obtain ⟨id, composite, rfl, hc, hdescribed⟩ :=
    hf.described_at hd hn (definitionSite canonical schema) (.definition hget) hshape
      (ht.mono (grows_settled t.catalog) fun ht => ht)
  exact ⟨id, composite, u, hu, hc, hdescribed⟩

end Resolution

/-- Nothing is lost silently. Each call of a build ends, and yields something or leaves a defect
behind; and if the document names nothing twice, which holds of all that are read from texts,
nothing of it is missing where a model is handed out. -/
theorem nothing_lost (context : Context) :
    (∀ call s, Made context call s → ∃ yields t, call.run context s = some (yields, t) ∧
      (yields = false → t.defects ≠ [])) ∧
    (context.document.NamesOnce → ∀ m, (Build.run context).result = .ok m →
      m.IsComplete context) := by
  obtain ⟨methods, last, hrun, -, -⟩ :=
    Scene.resolveAll_keeps (Scene.resolveSite_keeps (.ofBuild context) {})
  refine ⟨fun call s h => (h.kept hrun).1.ends, fun hn m hm => ?_⟩
  obtain ⟨t, hrun, hf, hd, -, hcatalog⟩ := Scene.finished_of_run hm
  refine ⟨?_, fun {name schema} hmem => ?_, fun h => h.yields hrun hd, fun h hshape => ?_,
    fun {name owner canonical pointer schema s} h hdef hshape => ?_⟩
  · by_contra hmalformed
    exact Scene.marked_ofBuild.mp (hf.inv.noted (.inr hmalformed)) hd
  · obtain ⟨s, hs⟩ := exists_made_definition (List.mem_map_of_mem (f := Prod.fst) hmem) rfl
    obtain ⟨u, hu⟩ := hs.yields hrun hd
    obtain ⟨type, hu, hsome⟩ := of_map_found hu
    obtain ⟨type, rfl⟩ := Option.isSome_iff_exists.mp hsome
    exact ⟨s, type, u, hs, hu⟩
  · obtain ⟨hs, type, u, hu, ht⟩ := h.typed hrun hd
    obtain ⟨id, composite, rfl, hc, hdescribed⟩ := hf.described_at hd hn _ hs hshape ht
    exact ⟨id, u, hu, (hcatalog ▸ hdescribed).holds (hcatalog ▸ hc)⟩
  · obtain ⟨id, composite, u, hu, hc, hdescribed⟩ :=
      h.definition_described hn hrun hf hd hdef hshape
    exact ⟨id, u, hu, (hcatalog ▸ hdescribed).holds (hcatalog ▸ hc)⟩

theorem nothing_lost_kennel : kennel.NamesOnce ∧
    (∀ call s, Made ⟨kennel, {}⟩ call s → ∃ yields t, call.run ⟨kennel, {}⟩ s = some (yields, t) ∧
      (yields = false → t.defects ≠ [])) ∧
    ∃ m, (Build.run ⟨kennel, {}⟩).result = .ok m ∧ m.IsComplete ⟨kennel, {}⟩ := by
  have hok : (Build.run ⟨kennel, {}⟩).result.isOk = true := by decide +kernel
  have hn : Document.NamesOnce (Context.document ⟨kennel, {}⟩) := by decide +kernel
  obtain ⟨hcalls, hmodel⟩ := nothing_lost ⟨kennel, {}⟩
  refine ⟨hn, hcalls, ?_⟩
  cases h : (Build.run ⟨kennel, {}⟩).result with
  | error failure => rw [h] at hok; cases hok
  | ok m => exact ⟨m, rfl, hmodel hn m h⟩

end ApiModel
