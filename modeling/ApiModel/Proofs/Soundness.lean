import ApiModel.Grammars
import ApiModel.Proofs.Calls
import ApiModel.Proofs.ClosedModel
import ApiModel.Proofs.Pointers

/-! # Models are sound

There are types for the definitions such that every schema that a build resolves has the type that
the rules give it at its site. The composite of an object type says what the schema there declares,
and the methods are those of the selected operations.
-/

namespace ApiModel

open Resolution Hierarchy

/-- The types of the model are those that the schemas of the document have. -/
structure ClientModel.IsSound (m : ClientModel) (context : Context)
    (types : String → Option ModelType) : Prop where
  definitions : ∀ {name schema}, (name, schema) ∈ context.document.definitions →
    ∃ type, types name = some type ∧
      HasType context m.catalog types (definitionSite name schema) type
  nodes : ∀ {site s}, Made context (.node site) s →
    context.document.Stands site.pointer site.schema ∧
      ∃ type t, resolveSite context site s = some (some type, t) ∧
        HasType context m.catalog types site type
  objects : ∀ {site type}, context.document.Stands site.pointer site.schema →
    site.schema.isComposite = true → HasType context m.catalog types site type →
    ∃ id composite, type = .composite id ∧ m.catalog.composite? id = some composite ∧
      Described context m.catalog types False site.schema site.pointer composite
  composites : ∀ {id composite}, m.catalog.composite? id = some composite →
    ∃ schema pointer, context.document.Stands pointer schema ∧ schema.isComposite = true ∧
      composite.origin = pointer.text ∧
      Described context m.catalog types False schema pointer composite
  methods : List.Forall₂ (MethodOf context m.catalog types)
    ((operationsOf context.document).filter (·.isSelected context.settings)) m.methods

namespace Resolution

variable {context : Context} {c : Catalog} {types : String → Option ModelType} {t : State}
  {methods : List Method} {id : CompositeId} {composite : Composite}

theorem Described.settle {schema : Schema} {pointer : Pointer}
    (h : Described context c types False schema pointer composite) :
    Described context (settled c) types False schema pointer
      (settle (chains c) id composite) :=
  have h := h.mono (grows_settled c) (fun ht => ht) fun hl => hl
  ⟨h.description, h.discriminator, h.value, h.properties, h.base⟩

namespace Scene.Finished

/-- Each composite of the settled catalog says what some schema of the document declares. -/
theorem exists_described (h : Finished context methods t) (hd : t.defects = [])
    (hc : (settled t.catalog).composite? id = some composite) :
    ∃ schema pointer, context.document.Stands pointer schema ∧ schema.isComposite = true ∧
      composite.origin = pointer.text ∧
      Described context (settled t.catalog) t.typeOf? False schema pointer composite := by
  obtain ⟨old, ho, rfl⟩ := exists_of_composite?_settled hc
  obtain ⟨schema, pointer, hs, hshape, horigin, hdescribed⟩ := h.described ho
  exact ⟨schema, pointer, hs, hshape, horigin,
    (hdescribed.mono (.refl _) (fun ht => ht) fun hl => hl hd).settle⟩

theorem described_of_origin (h : Finished context methods t) (hd : t.defects = [])
    (hn : context.document.NamesOnce) {schema : Schema} {pointer : Pointer}
    (hs : context.document.Stands pointer schema)
    (hc : (settled t.catalog).composite? id = some composite)
    (ho : composite.origin = pointer.text) :
    Described context (settled t.catalog) t.typeOf? False schema pointer composite := by
  obtain ⟨schema', pointer', hs', -, ho', hdescribed⟩ := h.exists_described hd hc
  have htext := ho'.symm.trans ho
  obtain rfl := Document.stands_unique hn hs' hs htext
  obtain rfl := Pointer.text_injective htext
  exact hdescribed

theorem described_at (h : Finished context methods t) (hd : t.defects = [])
    (hn : context.document.NamesOnce) (site : Site) {type : ModelType}
    (hs : context.document.Stands site.pointer site.schema)
    (hshape : site.schema.isComposite = true)
    (ht : HasType context (settled t.catalog) t.typeOf? site type) :
    ∃ id composite, type = .composite id ∧ (settled t.catalog).composite? id = some composite ∧
      Described context (settled t.catalog) t.typeOf? False site.schema site.pointer
        composite := by
  obtain ⟨id, composite, htype, hc, -, ho⟩ := ht.exists_composite hshape
  exact ⟨id, composite, htype, hc, h.described_of_origin hd hn hs hc ho⟩

/-- A definition has the type that is remembered for it. -/
theorem typed_definition (h : Finished context methods t) (hd : t.defects = [])
    (hn : context.document.NamesOnce) {name : String} {schema : Schema}
    (hm : (name, schema) ∈ context.document.definitions) :
    ∃ type, t.typeOf? name = some type ∧
      HasType context t.catalog t.typeOf? (definitionSite name schema) type := by
  have hget := Fields.get?_of_mem hn.definitions hm
  obtain ⟨canonical, found, type, hfound, htype, hclaimed⟩ := h.defined hd _ hm
  have hfound : context.document.definition? name = some (canonical, found) := hfound
  rw [Document.definition?, hget] at hfound
  cases hfound
  exact ⟨type, htype, h.inv.typed_of_claimed hclaimed hget htype⟩

end Scene.Finished

/-- Where no defect has been found in the end, each schema that was resolved has a type. -/
theorem Made.typed (hrun : Build.resolveAll context (resolveSite context) {} = some (methods, t))
    (hd : t.defects = []) {site : Site} {s : State} (h : Made context (.node site) s) :
    context.document.Stands site.pointer site.schema ∧
      ∃ type u, resolveSite context site s = some (some type, u) ∧
        HasType context (settled t.catalog) t.typeOf? site type := by
  obtain ⟨⟨hi, hs⟩, hgrows⟩ := h.kept hrun
  obtain ⟨type, u, hu, -, hy⟩ := Scene.resolveSite_keeps (.ofBuild context) t site s ⟨hs, hi⟩
  have hlast := hgrows (map_found hu)
  cases type with
  | none =>
    have hlost := Scene.marked_ofBuild.mp (hy.lost rfl)
    exact absurd (List.prefix_nil.mp (hd ▸ hlast.defects)) hlost
  | some type =>
    have ht : HasType context u.catalog u.typeOf? site type := hy.holds rfl
    have ht := ht.mono hlast.catalog hlast.resolved
    exact ⟨hs, type, u, hu, ht.mono (grows_settled t.catalog) fun ht => ht⟩

end Resolution

/-- Whatever the settings, if the document names nothing twice, which holds of all that are read
from texts, a model that is handed out has the types that the schemas of the document have. -/
theorem isSound_of_run {context : Context} {m : ClientModel} (hn : context.document.NamesOnce)
    (h : (Build.run context).result = .ok m) : ∃ types, m.IsSound context types := by
  obtain ⟨t, hrun, hf, hd, -, hm⟩ := Scene.finished_of_run h
  have hg := grows_settled t.catalog
  refine ⟨t.typeOf?, fun hmem => ?_, fun {site s} hmade => ?_, fun hs hshape ht => ?_,
    fun hc => ?_, ?_⟩
  · obtain ⟨type, htype, ht⟩ := hf.typed_definition hd hn hmem
    exact ⟨type, htype, hm ▸ ht.mono hg fun ht => ht⟩
  · exact hm ▸ hmade.typed hrun hd
  · exact hm ▸ hf.described_at hd hn _ hs hshape (hm ▸ ht)
  · exact hm ▸ hf.exists_described hd (hm ▸ hc)
  · exact (hf.methods hd).imp fun _ _ ho => hm ▸ ho.mono hg fun ht => ht

theorem isSound_of_run_kennel : ∃ m types, (Build.run ⟨kennel, {}⟩).result = .ok m ∧
    m.IsSound ⟨kennel, {}⟩ types := by
  have hok : (Build.run ⟨kennel, {}⟩).result.isOk = true := by decide +kernel
  have hn : Document.NamesOnce (Context.document ⟨kennel, {}⟩) := by decide +kernel
  cases h : (Build.run ⟨kennel, {}⟩).result with
  | error failure => rw [h] at hok; cases hok
  | ok m =>
    obtain ⟨types, hs⟩ := isSound_of_run hn h
    exact ⟨m, types, rfl, hs⟩

end ApiModel
