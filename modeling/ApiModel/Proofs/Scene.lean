import ApiModel.Proofs.Described
import ApiModel.Resolution.Definition

/-! # The invariant of a run

What holds in every state of a run: names and indices agree, every remembered type is the one its
definition has, every composite stands for a schema of the document and says what that declares
unless it is still a stub, and nothing fails without a defect. It is carried along by every step
that only adds to the state.
-/

namespace ApiModel.Resolution

open Text (caseKey)

variable {s t u : State}

/-- The schemas that can be reached from some root or from a definition, with their pointers. -/
inductive Stands (document : Document) (roots : Pointer → Schema → Prop) :
    Pointer → Schema → Prop where
  | root {p : Pointer} {s : Schema} (h : roots p s) : Stands document roots p s
  | definition {name : String} {s : Schema} (h : Fields.get? document.definitions name = some s) :
      Stands document roots (Pointer.definition name) s
  | items {p : Pointer} {s i : Schema} (h : Stands document roots p s) (hi : s.items = some i) :
      Stands document roots (p.child "items") i
  | value {p : Pointer} {s v : Schema} (h : Stands document roots p s)
      (hv : s.dictionary? = some (some v)) :
      Stands document roots (p.child "additionalProperties") v
  | property {p : Pointer} {s m : Schema} {name : String} (h : Stands document roots p s)
      (hm : (name, m) ∈ s.properties) :
      Stands document roots ((p.child "properties").child name) m
  | part {p : Pointer} {s part : Schema} {i : Nat} (h : Stands document roots p s)
      (hp : (part, i) ∈ s.allOf.zipIdx) : Stands document roots ((p.child "allOf").item i) part

namespace Stands

variable {document : Document} {roots : Pointer → Schema → Prop} {p : Pointer} {schema : Schema}

theorem of_parts (h : Stands document roots p schema) {q : Schema × Pointer}
    (hq : q ∈ schema.parts p) : Stands document roots q.2 q.1 := by
  obtain ⟨⟨part, i⟩, hp, rfl⟩ := List.mem_map.mp hq
  exact .part h hp

theorem of_members (h : Stands document roots p schema) {m : Member} (hm : m ∈ schema.members p) :
    Stands document roots m.pointer m.schema := by
  obtain ⟨⟨name, s⟩, hs, rfl⟩ := List.mem_map.mp hm
  exact .property h hs

theorem member (h : Stands document roots p schema) {m : Member}
    (hm : m ∈ schema.declaredMembers p) : Stands document roots m.pointer m.schema := by
  rcases List.mem_append.mp hm with hm | hm
  · exact h.of_members hm
  · obtain ⟨q, hq, hm⟩ := List.mem_flatMap.mp hm
    exact (h.of_parts (List.mem_of_mem_filter hq)).of_members hm

theorem base (h : Stands document roots p schema) {part : BasePart}
    (hp : part ∈ schema.baseParts p) : Stands document roots part.pointer part.schema := by
  obtain ⟨q, hq, hr⟩ := List.mem_filterMap.mp hp
  obtain ⟨r, -, rfl⟩ := Option.map_eq_some_iff.mp hr
  exact h.of_parts hq

end Stands

/-- The surroundings of a run. -/
structure Scene where
  context : Context
  /-- Where schemas stand outside of the definitions. -/
  roots : Pointer → Schema → Prop
  /-- Whether defects may have been taken out of the state. -/
  drained : Prop

def State.typeOf? (s : State) (name : String) : Option ModelType :=
  Fields.get? s.resolved (caseKey name)

/-- Nothing that has been settled is changed. -/
structure Grows (s t : State) : Prop where
  catalog : s.catalog.Grows t.catalog
  resolved : ∀ {key type}, Fields.get? s.resolved key = some type →
    Fields.get? t.resolved key = some type
  claimed : ∀ {key name}, Fields.get? s.claimed key = some name →
    Fields.get? t.claimed key = some name
  failed : s.failed ⊆ t.failed
  defects : s.defects <+: t.defects

namespace Grows

theorem refl (s : State) : Grows s s := ⟨.refl _, id, id, fun _ h => h, List.prefix_refl _⟩

theorem trans (h : Grows s t) (h' : Grows t u) : Grows s u :=
  ⟨h.catalog.trans h'.catalog, fun hr => h'.resolved (h.resolved hr),
    fun hc => h'.claimed (h.claimed hc), fun _ hf => h'.failed (h.failed hf),
    h.defects.trans h'.defects⟩

theorem typeOf? (h : Grows s t) {name : String} {type : ModelType}
    (ht : s.typeOf? name = some type) : t.typeOf? name = some type := h.resolved ht

end Grows

theorem Notes.grows (h : Notes s t) : Grows s t :=
  ⟨h.catalog_eq ▸ .refl _, fun hr => h.resolved_eq ▸ hr, fun hc => h.claimed_eq ▸ hc,
    fun _ hf => h.failed_eq ▸ hf, h.defects_kept⟩

theorem push_grows (f : Frame) (s : State) : Grows s (push f s).2 :=
  ⟨.refl _, id, id, fun _ h => h, List.prefix_refl _⟩

theorem pop_grows (s : State) : Grows s (pop s).2 :=
  ⟨.refl _, id, id, fun _ h => h, List.prefix_refl _⟩

theorem markFailed_grows (key : String) (s : State) : Grows s (markFailed key s).2 :=
  ⟨.refl _, id, id, List.subset_cons_self .., List.prefix_refl _⟩

theorem claim_grows {name : String} (h : Fields.get? s.claimed (caseKey name) = none) :
    Grows s (claim (caseKey name) name s).2 := by
  refine ⟨.refl _, id, fun {key other} hk => ?_, fun _ h => h, List.prefix_refl _⟩
  show Fields.get? (Fields.set s.claimed (caseKey name) name) key = some other
  rw [Fields.get?_set, if_neg, hk]
  rintro rfl
  rw [h] at hk
  cases hk

theorem claimKey_grows (name : String) (s : State) : Grows s (claimKey name s).2 := by
  obtain ⟨hc, hk⟩ | ⟨-, hk⟩ | ⟨d, hk⟩ := claimKey_cases name s
  · exact hk ▸ claim_grows hc
  · exact hk ▸ .refl s
  · exact hk ▸ (Notes.report d s).grows

theorem withStub_grows (name : String) (pointer : Pointer) (s : State) :
    Grows s (s.withStub name pointer) :=
  ⟨.addComposite .., id, id, fun _ h => h, List.prefix_refl _⟩

theorem registerComposite_grows (name : String) (pointer : Pointer) (s : State) :
    Grows s (registerComposite name pointer s).2 := by
  obtain ⟨-, hr⟩ | ⟨id, -, -, hr⟩ | ⟨d, hr⟩ := registerComposite_cases name pointer s
  · exact hr ▸ withStub_grows name pointer s
  · exact hr ▸ .refl s
  · exact hr ▸ (fail_notes d s).grows

/-- The frames are back as they were, and every composite that was added is filled in. -/
structure Extends (s t : State) : Prop extends Grows s t where
  frames : t.frames = s.frames
  composites : ∃ added, t.catalog.composites = s.catalog.composites ++ added ∧
    ∀ composite ∈ added, composite.progress = .propertiesResolved
  enums : s.catalog.enums <+: t.catalog.enums

namespace Extends

theorem refl (s : State) : Extends s s :=
  ⟨.refl s, rfl, ⟨[], by simp, by simp⟩, List.prefix_refl _⟩

theorem trans (h : Extends s t) (h' : Extends t u) : Extends s u := by
  refine ⟨h.toGrows.trans h'.toGrows, h'.frames.trans h.frames, ?_, h.enums.trans h'.enums⟩
  obtain ⟨added, ha, hp⟩ := h.composites
  obtain ⟨added', ha', hp'⟩ := h'.composites
  refine ⟨added ++ added', by rw [ha', ha, List.append_assoc], fun composite hc => ?_⟩
  rcases List.mem_append.mp hc with hc | hc
  · exact hp composite hc
  · exact hp' composite hc

theorem of_composites_eq (h : Grows s t) (hf : t.frames = s.frames)
    (hc : t.catalog.composites = s.catalog.composites)
    (he : s.catalog.enums <+: t.catalog.enums) : Extends s t :=
  ⟨h, hf, ⟨[], by simp [hc], by simp⟩, he⟩

theorem of_notes (h : Notes s t) : Extends s t :=
  .of_composites_eq h.grows h.frames_eq (by rw [h.catalog_eq])
    (h.catalog_eq ▸ List.prefix_refl _)

end Extends

def definitionSite (name : String) (s : Schema) : Site := ⟨s, name, Pointer.definition name, name⟩

namespace Scene

variable {S : Scene}

def Stands (S : Scene) : Pointer → Schema → Prop :=
  Resolution.Stands S.context.document S.roots

/-- A defect has been found, so that something may be missing. -/
def Marked (S : Scene) (s : State) : Prop := S.drained ∨ s.defects ≠ []

def Typed (S : Scene) (s : State) : Site → ModelType → Prop :=
  HasType S.context s.catalog s.typeOf?

def Entry (S : Scene) (s : State) (key : String) (type : ModelType) : Prop :=
  ∃ name schema, Fields.get? s.claimed key = some name ∧ caseKey name = key ∧
    Fields.get? S.context.document.definitions name = some schema ∧
    S.Typed s (definitionSite name schema) type ∧ type.Within s.catalog

/-- A composite stands for the schema at a pointer. -/
structure Declares (S : Scene) (s : State) (schema : Schema) (pointer : Pointer)
    (composite : Composite) : Prop where
  stands : S.Stands pointer schema
  shape : schema.isComposite = true
  origin : composite.origin = pointer.text
  derived : composite.derived = []
  content : composite.progress = .stub ∨ composite.progress = .propertiesResolved ∧
    Described S.context s.catalog s.typeOf? (S.Marked s) schema pointer composite

structure Lists (S : Scene) (schema : Schema) (pointer : Pointer) (e : EnumType) : Prop where
  stands : S.Stands pointer schema
  plain : schema.reference = none
  values : ∃ listed, schema.stringEnum? = some listed ∧
    Enumeration.valuesFrom pointer [] listed = .ok e.values
  name : e.name = (schema.extension? S.context.settings.enumExtension).map Enumeration.nameOf
  origin : e.origin = pointer.text

/-- What holds in every state of a run. -/
structure Inv (S : Scene) (s : State) : Prop where
  keyed : s.catalog.Keyed
  enums : s.catalog.EnumsKeyed
  memo : ∀ {key type}, Fields.get? s.resolved key = some type → S.Entry s key type
  composites : ∀ {id composite}, s.catalog.composite? id = some composite →
    ∃ schema pointer, S.Declares s schema pointer composite
  listed : ∀ {id e}, s.catalog.enum? id = some e → ∃ schema pointer, S.Lists schema pointer e
  noted : s.failed ≠ [] ∨ S.context.document.malformed ≠ [] → S.Marked s

theorem marked_of_fail {α : Type} (d : Defect) (s : State) :
    S.Marked (fail d s : Option α × State).2 := .inr (fail_defects d s)

theorem Marked.mono (h : s.defects <+: t.defects) (hm : S.Marked s) : S.Marked t :=
  hm.imp_right fun hs ht => hs (List.prefix_nil.mp (ht ▸ h))

theorem Typed.mono (h : Grows s t) {site : Site} {type : ModelType} (ht : S.Typed s site type) :
    S.Typed t site type := HasType.mono h.catalog h.resolved ht

theorem Entry.mono (h : Grows s t) {key : String} {type : ModelType} (he : S.Entry s key type) :
    S.Entry t key type := by
  obtain ⟨name, schema, hc, hk, hd, ht, hw⟩ := he
  exact ⟨name, schema, h.claimed hc, hk, hd, ht.mono h, hw.mono h.catalog⟩

theorem Declares.mono (h : Grows s t) {schema : Schema} {pointer : Pointer}
    {composite : Composite} (hd : S.Declares s schema pointer composite) :
    S.Declares t schema pointer composite :=
  { hd with content := hd.content.imp_right fun hc =>
      ⟨hc.1, hc.2.mono h.catalog h.resolved (Marked.mono h.defects)⟩ }

namespace Inv

theorem within (h : S.Inv s) {site : Site} {type : ModelType} (ht : S.Typed s site type) :
    type.Within s.catalog :=
  HasType.within (fun hn => by
    obtain ⟨_, _, -, -, -, -, hw⟩ := h.memo hn
    exact hw) ht

section Composites

variable {id : CompositeId} {composite : Composite}

theorem described (h : S.Inv s) (hc : s.catalog.composite? id = some composite)
    (hp : composite.progress ≠ .stub) : ∃ schema pointer, S.Stands pointer schema ∧
      schema.isComposite = true ∧ composite.origin = pointer.text ∧
      Described S.context s.catalog s.typeOf? (S.Marked s) schema pointer composite := by
  obtain ⟨schema, pointer, hd⟩ := h.composites hc
  refine ⟨schema, pointer, hd.stands, hd.shape, hd.origin, ?_⟩
  rcases hd.content with hstub | ⟨-, hd⟩
  · exact absurd hstub hp
  · exact hd

theorem base_lt (h : S.Inv s) (hc : s.catalog.composite? id = some composite)
    (hp : composite.progress ≠ .stub) {base : CompositeId} (hb : composite.base = some base) :
    base.index < s.catalog.composites.length := by
  obtain ⟨schema, pointer, -, -, -, hd⟩ := h.described hc hp
  obtain ⟨part, others, -, ht⟩ := hd.base.1 base hb
  exact h.within ht

theorem property_within (h : S.Inv s) (hc : s.catalog.composite? id = some composite)
    (hp : composite.progress ≠ .stub) {p : Property} (hm : p ∈ composite.properties) :
    p.type.Within s.catalog := by
  obtain ⟨schema, pointer, -, -, -, hd⟩ := h.described hc hp
  obtain ⟨m, -, type, constraints, ht, -, rfl⟩ := hd.properties.exists_member hm
  exact h.within ht

end Composites

/-- A step that only adds keeps the invariant, if what it adds does. -/
theorem grow (h : S.Inv s) (hg : Grows s t) (hk : t.catalog.Keyed) (he : t.catalog.EnumsKeyed)
    (hm : ∀ {key type}, Fields.get? t.resolved key = some type →
      Fields.get? s.resolved key = some type ∨ S.Entry t key type)
    (hc : ∀ {id composite}, t.catalog.composite? id = some composite →
      s.catalog.composite? id = some composite ∨
        ∃ schema pointer, S.Declares t schema pointer composite)
    (hl : ∀ {id e}, t.catalog.enum? id = some e →
      s.catalog.enum? id = some e ∨ ∃ schema pointer, S.Lists schema pointer e)
    (hf : t.failed ≠ [] → s.failed ≠ [] ∨ S.Marked t) : S.Inv t where
  keyed := hk
  enums := he
  memo hr := (hm hr).elim (fun hr => (h.memo hr).mono hg) id
  composites hid := by
    rcases hc hid with hs | hd
    · obtain ⟨schema, pointer, hd⟩ := h.composites hs
      exact ⟨schema, pointer, hd.mono hg⟩
    · exact hd
  listed hid := (hl hid).elim h.listed id
  noted hn := by
    rcases hn with hn | hn
    · exact (hf hn).elim (fun hs => (h.noted (.inl hs)).mono hg.defects) id
    · exact (h.noted (.inr hn)).mono hg.defects

theorem carry (h : S.Inv s) (hg : Grows s t) (hc : t.catalog = s.catalog)
    (hr : t.resolved = s.resolved) (hf : t.failed ≠ [] → s.failed ≠ [] ∨ S.Marked t) :
    S.Inv t :=
  h.grow hg (hc ▸ h.keyed) (hc ▸ h.enums) (fun hm => .inl (hr ▸ hm)) (fun hid => .inl (hc ▸ hid))
    (fun hid => .inl (hc ▸ hid)) hf

theorem notes (h : S.Inv s) (hn : Notes s t) : S.Inv t :=
  h.carry hn.grows hn.catalog_eq hn.resolved_eq fun hf => .inl (hn.failed_eq ▸ hf)

theorem push (h : S.Inv s) (f : Frame) : S.Inv (push f s).2 :=
  h.carry (push_grows f s) rfl rfl .inl

theorem pop (h : S.Inv s) : S.Inv (pop s).2 := h.carry (pop_grows s) rfl rfl .inl

theorem typed_of_claimed (h : S.Inv s) {name : String} {schema : Schema} {type : ModelType}
    (hc : Fields.get? s.claimed (caseKey name) = some name)
    (hd : Fields.get? S.context.document.definitions name = some schema)
    (ht : s.typeOf? name = some type) : S.Typed s (definitionSite name schema) type := by
  obtain ⟨other, schema', hc', -, hd', ht', -⟩ := h.memo ht
  obtain rfl := Option.some.inj (hc.symm.trans hc')
  obtain rfl := Option.some.inj (hd.symm.trans hd')
  exact ht'

/-- The same definition is remembered with one type, unless enums are made anew for it. -/
theorem memo_agree (h : S.Inv s) {name : String} {schema : Schema} {type old : ModelType}
    (hc : Fields.get? s.claimed (caseKey name) = some name)
    (hd : Fields.get? S.context.document.definitions name = some schema)
    (ht : S.Typed s (definitionSite name schema) type) (ho : s.typeOf? name = some old) :
    old = type ∨ old.endsInEnum = true ∧ type.endsInEnum = true :=
  HasType.agree h.keyed (h.typed_of_claimed hc hd ho) ht

end Inv

end Scene

end ApiModel.Resolution
