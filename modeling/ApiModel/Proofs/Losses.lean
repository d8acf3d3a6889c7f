import ApiModel.Proofs.Course
import ApiModel.Proofs.Inheritance

/-! # What a composite loses

A composite that has been filled in has a property for each member that its schema declares and the
base that it inherits from. Where it lacks one of them the build has found no type for it, or a
defect of the constraints of the member, or it has found the base to be a second one. So whatever
is lost is lost to a defect that is reported.
-/

namespace ApiModel.Resolution

open Text (caseKey)

variable {context : Context} {r : Resolver} {s t last : State} {site : Site} {x y : Located}
  {type : Option ModelType} {c c' : Catalog} {found found' : List Defect}

def Refused (context : Context) (x : Located) : Prop :=
  ∃ site s t, Made context (.node site) s ∧ site.located = x ∧
    resolveSite context site s = some (none, t)

/-- A member becomes no property: it has no type, or a defect of its constraints is found. -/
inductive Dropped (context : Context) (found : List Defect) (m : Member) : Prop where
  | refused (h : Refused context m.located)
  | invalid {owner : String} {fault : SchemaFault}
      (hf : constraintsOf context.grammars m.schema.facets m.pointer = .error fault)
      (hd : .schema owner fault ∈ found)

/-- A base is not what a reference leads to: the reference has no type, or it is found to be a
second one. -/
inductive Severed (context : Context) (found : List Defect) (x y : Located) : Prop where
  | refused {part : BasePart} (hp : part ∈ x.bases) (hl : context.document.Leads part.located y)
      (h : Refused context part.located)
  | second {part : BasePart} {owner : String} (hp : part ∈ x.bases)
      (hl : context.document.Leads part.located y)
      (hd : .schema owner (.secondBase part.reference part.pointer) ∈ found)

theorem Dropped.mono {m : Member} (h : Dropped context found m) (hd : found ⊆ found') :
    Dropped context found' m := by
  cases h with
  | refused h => exact .refused h
  | invalid hf hm => exact .invalid hf (hd hm)

theorem Severed.mono (h : Severed context found x y) (hd : found ⊆ found') :
    Severed context found' x y := by
  cases h with
  | refused hp hl h => exact .refused hp hl h
  | second hp hl hm => exact .second hp hl (hd hm)

/-- A type is the composite of the object type that a schema leads to. If the schema leads to none
it is no composite. -/
inductive Tells (d : Document) (c : Catalog) (x : Located) : ModelType → Prop where
  | object {y : Located} {id : CompositeId} {composite : Composite} (hl : d.Leads x y)
      (hc : c.composite? id = some composite) (ho : composite.origin = y.pointer.text) :
      Tells d c x (.composite id)
  | other {type : ModelType} (hn : type.composite? = none) (hl : ∀ y, ¬d.Leads x y) :
      Tells d c x type

namespace Tells

variable {d : Document} {type : ModelType}

theorem mono (h : Tells d c x type) (hg : c.Grows c') : Tells d c' x type := by
  cases h with
  | object hl hc ho =>
    obtain ⟨later, hlater, -, horigin⟩ := hg.composites hc
    exact .object hl hlater (horigin.trans ho)
  | other hn hl => exact .other hn hl

theorem referred {text name canonical : String} {schema : Schema}
    (hr : x.schema.reference = some text)
    (hp : Reference.parse? text = some ⟨.definitions, name⟩)
    (hd : d.definition? name = some (canonical, schema))
    (h : Tells d c ⟨Pointer.definition canonical, schema⟩ type) : Tells d c x type := by
  cases h with
  | object hl hc ho => exact .object (.referred hr hp hd hl) hc ho
  | other hn hl =>
    refine .other hn fun y hy => ?_
    cases hy with
    | itself hs => simp [Schema.isComposite, hr] at hs
    | referred hr' hp' hd' h' =>
      cases hr.symm.trans hr'
      cases hp.symm.trans hp'
      cases hd.symm.trans hd'
      exact hl _ h'

theorem of_route {route : Route} (hroute : x.schema.route = route)
    (hr : ∀ text, route ≠ .reference text) (hc : route ≠ .composite)
    (hn : type.composite? = none) : Tells d c x type := by
  subst hroute
  refine .other hn fun y hy => ?_
  obtain ⟨text, hroute⟩ | hroute := hy.route_eq
  · exact hr text hroute
  · exact hc hroute

theorem known {id : CompositeId} (hs : x.schema.isComposite = true)
    (ho : (c.composite? id).elim "" (·.origin) = x.pointer.text) :
    Tells d c x (.composite id) := by
  cases hc : c.composite? id with
  | none =>
    rw [hc] at ho
    have hempty := congrArg String.toList ho
    simp [Pointer.text] at hempty
  | some composite =>
    rw [hc] at ho
    exact .object (.itself hs) hc ho

end Tells

/-- A composite has a property for each member that a schema declares, and the base that it
inherits from, but for what is lost. -/
structure Accounts (context : Context) (c : Catalog) (found : List Defect) (x : Located)
    (composite : Composite) : Prop where
  stands : context.document.Stands x.pointer x.schema
  origin : composite.origin = x.pointer.text
  discriminator : composite.discriminator = x.schema.declaredDiscriminator x.pointer
  members : ∀ m ∈ x.members, (∃ p ∈ composite.properties, p.name = m.name) ∨
    Dropped context found m
  bases : ∀ y, context.document.Inherits x y → Severed context found x y ∨
    ∃ id base, composite.base = some id ∧ c.composite? id = some base ∧
      base.origin = y.pointer.text

theorem Accounts.mono {composite : Composite} (h : Accounts context c found x composite)
    (hg : c.Grows c') (hd : found ⊆ found') : Accounts context c' found' x composite :=
  { h with
    members := fun m hm => (h.members m hm).imp_right fun hl => hl.mono hd
    bases := fun y hy => by
      rcases h.bases y hy with hl | ⟨id, base, hbase, hc, ho⟩
      · exact .inl (hl.mono hd)
      · obtain ⟨later, hlater, -, horigin⟩ := hg.composites hc
        exact .inr ⟨id, later, hbase, hlater, horigin.trans ho⟩ }

/-- What is remembered and what has been filled in is accounted for, and nothing is said about
discriminators. -/
structure Accounted (context : Context) (s : State) : Prop where
  memo : ∀ {key type}, Fields.get? s.resolved key = some type → ∃ name schema,
    Fields.get? s.claimed key = some name ∧
      Fields.get? context.document.definitions name = some schema ∧
      Tells context.document s.catalog ⟨Pointer.definition name, schema⟩ type
  filled : ∀ {id composite}, s.catalog.composite? id = some composite →
    composite.progress = .propertiesResolved →
      ∃ x, Accounts context s.catalog s.defects x composite
  silent : ∀ d ∈ s.defects, d.kind ≠ .discriminator

namespace Accounted

theorem empty (context : Context) : Accounted context {} := ⟨nofun, nofun, nofun⟩

theorem carry (h : Accounted context s) (hg : Grows s t) (hr : t.resolved = s.resolved)
    (hc : ∀ {id composite}, t.catalog.composite? id = some composite →
      composite.progress = .propertiesResolved → s.catalog.composite? id = some composite)
    (hk : ∀ d ∈ t.defects, d.kind ≠ .discriminator) : Accounted context t where
  memo ht := by
    obtain ⟨name, schema, hclaimed, hd, htells⟩ := h.memo (hr ▸ ht)
    exact ⟨name, schema, hg.claimed hclaimed, hd, htells.mono hg.catalog⟩
  filled hid hp := by
    obtain ⟨x, hx⟩ := h.filled (hc hid hp) hp
    exact ⟨x, hx.mono hg.catalog hg.defects.subset⟩
  silent := hk

theorem report (h : Accounted context s) {d : Defect} (hd : d.kind ≠ .discriminator) :
    Accounted context (report d s).2 :=
  h.carry (Notes.report d s).grows rfl (fun hid _ => hid)
    (List.forall_mem_append.mpr ⟨h.silent, List.forall_mem_singleton.mpr hd⟩)

theorem asides (h : Accounted context s) (ha : Asides s t) : Accounted context t := by
  have hn := ha.notes
  refine h.carry hn.grows hn.resolved_eq (fun hid _ => hn.catalog_eq ▸ hid) ?_
  obtain ⟨defects, log, rfl, hplain⟩ := ha
  exact List.forall_mem_append.mpr
    ⟨h.silent, fun d hd => Defect.kind_ne_of_isPlain (hplain d hd)⟩

theorem push (h : Accounted context s) (f : Frame) : Accounted context (push f s).2 :=
  h.carry (push_grows f s) rfl (fun hid _ => hid) h.silent

theorem pop (h : Accounted context s) : Accounted context (pop s).2 :=
  h.carry (pop_grows s) rfl (fun hid _ => hid) h.silent

theorem markFailed (h : Accounted context s) (key : String) :
    Accounted context (markFailed key s).2 :=
  h.carry (markFailed_grows key s) rfl (fun hid _ => hid) h.silent

theorem claimKey (h : Accounted context s) {name : String}
    (hk : claimKey name s = (true, t)) : Accounted context t := by
  have hg := claimKey_grows name s
  rw [hk] at hg
  obtain ⟨-, rfl⟩ | ⟨-, rfl⟩ := claimed_cases hk
  · exact h.carry hg rfl (fun hid _ => hid) h.silent
  · exact h

theorem withStub (h : Accounted context s) (name : String) (pointer : Pointer) :
    Accounted context (s.withStub name pointer) := by
  refine h.carry (withStub_grows name pointer s) rfl (fun {id composite} hid hp => ?_) h.silent
  rcases composite?_withStub hid with ⟨-, rfl⟩ | hid
  · cases hp
  · exact hid

theorem buildEnum (h : Accounted context s) (settings : Settings) (site : Site)
    (listed : List Json) : Accounted context (buildEnum settings site listed s).2 := by
  obtain ⟨d, hb⟩ | ⟨values, -, ⟨-, hb⟩ | ⟨extension, -, ⟨hn, hb⟩ | ⟨id, -, -, hb⟩⟩⟩ :=
    buildEnum_cases settings site listed s
  · rw [hb]
    refine h.report ?_
    rcases buildEnum_clash hb with hk | hplain
    · rw [hk]
      exact nofun
    · exact Defect.kind_ne_of_isPlain hplain
  · rw [hb]
    have hg : Grows s (s.withEnum ⟨none, values, true, site.pointer.text⟩) :=
      ⟨.addEnum .., id, id, fun _ hf => hf, List.prefix_refl _⟩
    exact h.carry hg rfl (fun hid _ => hid) h.silent
  · rw [hb]
    have hg : Grows s (s.withNamedEnum (Enumeration.nameOf extension)
        ⟨some (Enumeration.nameOf extension), values, false, site.pointer.text⟩) :=
      ⟨.addNamedEnum .., id, id, fun _ hf => hf, List.prefix_refl _⟩
    exact h.carry hg rfl (fun hid _ => hid) h.silent
  · rw [hb]
    exact h

theorem refuse (h : Accounted context s) (hr : Refuses context site s t) :
    Accounted context t := by
  cases hr with
  | reference hd | malformed hd => exact h.report (Defect.kind_ne_of_isPlain hd)
  | @enum listed d _ hb =>
    have henum := h.buildEnum context.settings site listed
    rwa [hb] at henum
  | array hd => exact (h.asides (noteClash_asides ..)).report (Defect.kind_ne_of_isPlain hd)
  | scalar => exact h.report nofun

theorem remember (h : Accounted context s) {name : String} {schema : Schema} {type : ModelType}
    (hc : Fields.get? s.claimed (caseKey name) = some name)
    (hd : Fields.get? context.document.definitions name = some schema)
    (ht : Tells context.document s.catalog ⟨Pointer.definition name, schema⟩ type) :
    Accounted context (remember (caseKey name) type s).2 where
  memo {key old} hk := by
    rcases get?_remember hk with ⟨rfl, rfl⟩ | hk
    · exact ⟨name, schema, hc, hd, ht⟩
    · exact h.memo hk
  filled := h.filled
  silent := h.silent

theorem tells_of_typeOf? (h : Accounted context s) {name : String} {schema : Schema}
    {type : ModelType} (hc : Fields.get? s.claimed (caseKey name) = some name)
    (hd : Fields.get? context.document.definitions name = some schema)
    (ht : s.typeOf? name = some type) :
    Tells context.document s.catalog ⟨Pointer.definition name, schema⟩ type := by
  obtain ⟨other, schema', hc', hd', htells⟩ := h.memo ht
  cases hc.symm.trans hc'
  cases hd.symm.trans hd'
  exact htells

theorem fillIn (h : Accounted context s) {id : CompositeId} {stub : Composite}
    {properties : List Property} {base : Option CompositeId}
    (hid : s.catalog.composite? id = some stub) (ho : stub.origin = x.pointer.text)
    (hs : context.document.Stands x.pointer x.schema)
    (hm : ∀ m ∈ x.members, (∃ p ∈ properties, p.name = m.name) ∨ Dropped context s.defects m)
    (hb : ∀ y, context.document.Inherits x y → Severed context s.defects x y ∨
      ∃ id parent, base = some id ∧ s.catalog.composite? id = some parent ∧
        parent.origin = y.pointer.text) (value : String) :
    Accounted context (Scene.fillIn id x.schema x.pointer properties base value s) where
  memo hk := by
    obtain ⟨name, schema, hc, hd, ht⟩ := h.memo hk
    exact ⟨name, schema, hc, hd, ht.mono (Scene.fillIn_grows ..).catalog⟩
  filled {other composite} hother hp := by
    have hg := (Scene.fillIn_grows id x.schema x.pointer properties base value s).catalog
    rcases Scene.composite?_fillIn hid hother with rfl | hother
    · have hx : Accounts context s.catalog s.defects x
          { stub with
            description := x.schema.description
            properties
            base
            discriminator := x.schema.declaredDiscriminator x.pointer
            discriminatorValue := value
            progress := .propertiesResolved } := ⟨hs, ho, rfl, hm, hb⟩
      exact ⟨x, hx.mono hg fun _ hd => hd⟩
    · obtain ⟨z, hz⟩ := h.filled hother hp
      exact ⟨z, hz.mono hg fun _ hd => hd⟩
  silent := h.silent

end Accounted

section Absorb

variable {owner : String} {required : List String} {m : Member} {properties : List Property}

theorem subset_addProperty (p : Property) (s : State) :
    properties ⊆ (addProperty owner properties p s).1 ∧
      ∃ q ∈ (addProperty owner properties p s).1, q.name = p.name := by
  cases hf : properties.find? (·.name == p.name) with
  | none =>
    rw [addProperty_new hf]
    exact ⟨List.subset_append_left .., p, by simp, rfl⟩
  | some existing =>
    rw [addProperty_again hf]
    exact ⟨List.Subset.refl _, existing, List.mem_of_find?_eq_some hf, by
      simpa using List.find?_some hf⟩

theorem subset_absorb (s : State) :
    properties ⊆ (absorb context owner required m properties type s).1 := by
  cases type with
  | none => exact List.Subset.refl _
  | some type =>
    cases h : constraintsOf context.grammars m.schema.facets m.pointer with
    | ok constraints =>
      rw [absorb_ok h]
      exact (subset_addProperty _ s).1
    | error fault =>
      rw [absorb_error h]
      exact List.Subset.refl _

theorem absorb_some (x : ModelType) (s : State) :
    (∃ p ∈ (absorb context owner required m properties (some x) s).1, p.name = m.name) ∨
      Dropped context (absorb context owner required m properties (some x) s).2.defects m := by
  cases h : constraintsOf context.grammars m.schema.facets m.pointer with
  | ok constraints =>
    rw [absorb_ok h]
    exact .inl (subset_addProperty _ s).2
  | error fault =>
    rw [absorb_error h]
    exact .inr (.invalid h (List.mem_append_right _ (List.mem_singleton_self _)))

end Absorb

theorem composite?_of_buildEnum {settings : Settings} {listed : List Json} {x : ModelType}
    (h : buildEnum settings site listed s = (some x, t)) : x.composite? = none := by
  obtain ⟨d, hb⟩ | ⟨values, -, ⟨-, hb⟩ | ⟨extension, -, ⟨-, hb⟩ | ⟨id, -, -, hb⟩⟩⟩ :=
    buildEnum_cases settings site listed s <;> cases hb.symm.trans h <;> rfl

theorem mem_reportSecondBases {owner : String} {parts : List BasePart} {part : BasePart}
    (h : part ∈ parts) (s : State) :
    .schema owner (.secondBase part.reference part.pointer) ∈
      (reportSecondBases owner parts s).2.defects := by
  induction parts generalizing s with
  | nil => cases h
  | cons first rest ih =>
    let d := Defect.schema owner (.secondBase first.reference first.pointer)
    rcases List.mem_cons.mp h with rfl | h
    · exact (reportSecondBases_notes owner rest (report d s).2).defects_kept.subset
        (List.mem_append_right _ (List.mem_singleton_self _))
    · exact ih h (report d s).2

/-- The calls of a resolver are calls of the build, and what they find is accounted for. -/
def Heeds (context : Context) (r : Resolver) : Prop :=
  ∀ site s type t, r site s = some (type, t) → Made context (.node site) s ∧
    resolveSite context site s = some (type, t) ∧ Grows s t ∧
    (Accounted context s → Accounted context t ∧ ∀ x, type = some x →
      Tells context.document t.catalog site.located x)

section Heeds

variable (hr : Heeds context r)
include hr

theorem Heeds.refused (hcall : r site s = some (none, t)) : Refused context site.located := by
  obtain ⟨hmade, hrun, -⟩ := hr _ _ _ _ hcall
  exact ⟨site, s, t, hmade, rfl, hrun⟩

theorem members_accounted {owner : String} {required : List String} {members : List Member}
    {properties : List Property}
    (hm : resolveMembers context r owner required members s = some (properties, t)) :
    ∀ m ∈ members, (∃ p ∈ properties, p.name = m.name) ∨ Dropped context t.defects m := by
  refine resolveMembers_induct
    (fun before ps u => ∀ m ∈ before, (∃ p ∈ ps, p.name = m.name) ∨ Dropped context u.defects m)
    (fun before m after ps u type v _ hbefore hcall => ?_) (List.forall_mem_nil _) hm
  obtain ⟨-, -, hg, -⟩ := hr _ _ _ _ hcall
  have hn : Notes v (absorb context owner required m ps type v).2 := absorb_notes v
  refine List.forall_mem_append.mpr ⟨fun m' hm' => ?_, List.forall_mem_singleton.mpr ?_⟩
  · rcases hbefore m' hm' with ⟨p, hp, hname⟩ | hlost
    · exact .inl ⟨p, subset_absorb v hp, hname⟩
    · exact .inr (hlost.mono (hg.defects.trans hn.defects_kept).subset)
  · cases type with
    | none => exact .inr (.refused (hr.refused hcall))
    | some type => exact absorb_some type v

/-- The first reference is the base of what it leads to, and any other is a defect. -/
theorem bases_accounted (h : Accounted context s) {owner : String} {base : Option CompositeId}
    (hb : resolveBase r owner x.bases s = some (base, t)) (hy : context.document.Inherits x y) :
    Severed context t.defects x y ∨ ∃ id parent, base = some id ∧
      t.catalog.composite? id = some parent ∧ parent.origin = y.pointer.text := by
  obtain ⟨part, hpart, hl⟩ := hy
  cases hparts : x.bases with
  | nil =>
    rw [hparts] at hpart
    cases hpart
  | cons first others =>
    rw [hparts] at hb hpart
    obtain ⟨type, u, hcall, rfl, rfl⟩ := resolveBase_cons.mp hb
    rcases List.mem_cons.mp hpart with rfl | hother
    · have hmem : part ∈ x.bases := hparts ▸ List.mem_cons_self ..
      cases type with
      | none => exact .inl (.refused hmem hl (hr.refused hcall))
      | some type =>
        obtain ⟨-, -, -, htold⟩ := hr _ _ _ _ hcall
        have hcatalog : (reportSecondBases owner others
            (baseOf owner part (some type) u).2).2.catalog = u.catalog :=
          (reportSecondBases_notes ..).catalog_eq.trans (baseOf_notes ..).catalog_eq
        cases (htold h).2 type rfl with
        | object hl' hc ho =>
          cases hl.unique hl'
          exact .inr ⟨_, _, rfl, hcatalog ▸ hc, ho⟩
        | other _ hnone => exact absurd hl (hnone y)
    · have hmem : part ∈ x.bases := hparts ▸ List.mem_cons_of_mem _ hother
      exact .inl (.second hmem hl (mem_reportSecondBases hother _))

theorem populate_accounted (h : Accounted context s) {id : CompositeId} {stub : Composite}
    (hid : s.catalog.composite? id = some stub) (ho : stub.origin = x.pointer.text)
    (hs : context.document.Stands x.pointer x.schema)
    (hp : populate context r id x.schema x.pointer s = some ((), t)) :
    Accounted context t ∧ s.catalog.Grows t.catalog := by
  obtain ⟨base, u, properties, v, hb, hm, rfl⟩ := populate_eq_some.mp hp
  have hcall : ∀ site s type t, r site s = some (type, t) →
      Grows s t ∧ (Accounted context s → Accounted context t) := fun _ _ _ _ hv =>
    ⟨(hr _ _ _ _ hv).2.2.1, fun hs => ((hr _ _ _ _ hv).2.2.2 hs).1⟩
  have hasides : ∀ {s t}, Asides s t → Accounted context s → Accounted context t :=
    fun ha hs => hs.asides ha
  have hpushed := h.push .composite
  obtain ⟨hsu, hu⟩ := (Composed.resolveBase _ _).kept hcall hasides hpushed hb
  obtain ⟨huv, hv⟩ := (Composed.resolveMembers context _ _ _).kept hcall hasides hu hm
  have ha : Asides v (remarks context (s.catalog.nameOf id) x.schema x.pointer v) :=
    remarks_asides ..
  have huw := huv.trans ha.notes.grows
  have hsw := ((push_grows .composite s).trans hsu).trans huw
  have hmembers := members_accounted hr hm
  obtain ⟨later, hlater, -, horigin⟩ := hsw.catalog.composites hid
  constructor
  · refine ((hv.asides ha).fillIn hlater (horigin.trans ho) hs (fun m hm => ?_)
      (fun y hy => ?_) _).pop
    · exact (hmembers m hm).imp_right fun hl => hl.mono ha.notes.defects_kept.subset
    · rcases bases_accounted hr hpushed hb hy with hl | ⟨id, parent, hbase, hc, hparent⟩
      · exact .inl (hl.mono huw.defects.subset)
      · obtain ⟨later, hlater, -, horigin⟩ := huw.catalog.composites hc
        exact .inr ⟨id, later, hbase, hlater, horigin.trans hparent⟩
  · exact (hsw.trans ((Scene.fillIn_grows ..).trans (pop_grows _))).catalog

theorem withStub_accounted (h : Accounted context s) {name : String}
    (hs : context.document.Stands x.pointer x.schema) (hshape : x.schema.isComposite = true)
    (hp : populate context r ⟨s.catalog.composites.length⟩ x.schema x.pointer
      (s.withStub name x.pointer) = some ((), t)) :
    Accounted context t ∧
      Tells context.document t.catalog x (.composite ⟨s.catalog.composites.length⟩) := by
  have hnew := Catalog.composite?_addComposite_self s.catalog name (.stub name x.pointer.text)
  obtain ⟨ht, hg⟩ := populate_accounted hr (h.withStub name x.pointer) hnew rfl hs hp
  exact ⟨ht, (Tells.object (.itself hshape) hnew rfl).mono hg⟩

theorem settles_accounted (h : Accounted context s) {name : String} {schema : Schema}
    (hc : Fields.get? s.claimed (caseKey name) = some name)
    (hd : Fields.get? context.document.definitions name = some schema)
    (hset : Settles context r name schema s type t) :
    Accounted context t ∧ ∀ x, type = some x →
      Tells context.document t.catalog ⟨Pointer.definition name, schema⟩ x := by
  cases hset with
  | remembered ht =>
    refine ⟨h, fun x hx => ?_⟩
    cases hx
    exact h.tells_of_typeOf? hc hd ht
  | failed => exact ⟨h, nofun⟩
  | clash _ _ _ hreg =>
    exact ⟨(h.report (Defect.kind_ne_of_isPlain (registerComposite_clash hreg).2)).markFailed _,
      nofun⟩
  | known _ _ hs _ ho =>
    have htells : Tells context.document s.catalog ⟨Pointer.definition name, schema⟩
        (.composite _) := .known hs ho
    refine ⟨h.remember hc hd htells, fun x hx => ?_⟩
    cases hx
    exact htells
  | opened _ _ hs _ hp =>
    have hnew := Catalog.composite?_addComposite_self s.catalog name
      (.stub name (Pointer.definition name).text)
    have htells : Tells context.document (s.withStub name (Pointer.definition name)).catalog
        ⟨Pointer.definition name, schema⟩ (.composite ⟨s.catalog.composites.length⟩) :=
      .object (.itself hs) hnew rfl
    have hstub := (h.withStub name (Pointer.definition name)).remember hc hd htells
    obtain ⟨ht, hg⟩ := populate_accounted (x := ⟨Pointer.definition name, schema⟩) hr hstub hnew
      rfl (.definition hd) hp
    refine ⟨ht, fun x hx => ?_⟩
    cases hx
    exact htells.mono hg
  | round => exact ⟨(h.markFailed _).report nofun, nofun⟩
  | lost _ _ _ _ hcall =>
    exact ⟨((hr _ _ _ _ hcall).2.2.2 (h.push _)).1.pop.markFailed _, nofun⟩
  | found _ _ _ _ hcall =>
    obtain ⟨-, -, hg, htold⟩ := hr _ _ _ _ hcall
    obtain ⟨hu, htells⟩ := htold (h.push _)
    refine ⟨hu.pop.remember (hg.claimed hc) hd (htells _ rfl), fun x hx => ?_⟩
    cases hx
    exact htells _ rfl

theorem definition_accounted (h : Accounted context s) {name owner : String} {pointer : Pointer}
    (ht : resolveDefinition context r name pointer owner s = some (type, t)) :
    Accounted context t ∧ ∀ x, type = some x → ∃ canonical schema,
      context.document.definition? name = some (canonical, schema) ∧
      Tells context.document t.catalog ⟨Pointer.definition canonical, schema⟩ x := by
  obtain ⟨-, rfl, ⟨-, rfl⟩ | rfl⟩ | ⟨canonical, schema, hd, ⟨d, hk, rfl, rfl⟩ | ⟨u, hk, hset⟩⟩ :=
    resolveDefinition_cases ht
  · exact ⟨h, nofun⟩
  · exact ⟨h.report nofun, nofun⟩
  · exact ⟨h.report (Defect.kind_ne_of_isPlain (claimKey_clash hk).2), nofun⟩
  · obtain ⟨hu, htells⟩ := settles_accounted hr (h.claimKey hk) (claimed_of_claimKey hk)
      (Scene.get?_of_definition? hd) hset
    exact ⟨hu, fun x hx => ⟨canonical, schema, hd, htells x hx⟩⟩

theorem step_accounted (h : Accounted context s)
    (hs : context.document.Stands site.pointer site.schema)
    (ht : resolveStep context r site s = some (type, t)) :
    Accounted context t ∧ ∀ x, type = some x →
      Tells context.document t.catalog site.located x := by
  cases resolveStep_takes ht with
  | refused hrefused => exact ⟨h.refuse hrefused, nofun⟩
  | reference href hp hdef =>
    obtain ⟨hu, htells⟩ := definition_accounted hr h hdef
    refine ⟨hu, fun x hx => ?_⟩
    obtain ⟨canonical, schema, hd, hx⟩ := htells x hx
    exact .referred href hp hd hx
  | @enum listed _ _ href hl hb =>
    have henum := h.buildEnum context.settings site listed
    rw [hb] at henum
    refine ⟨henum, fun x hx => .of_route (Schema.route_of_enumeration href hl) nofun nofun ?_⟩
    cases hx
    exact composite?_of_buildEnum hb
  | @sequence clash _ element _ hroute _ hcall =>
    have hclash := h.asides (noteClash_asides site clash s)
    refine ⟨((hr _ _ _ _ hcall).2.2.2 hclash).1, fun x hx => ?_⟩
    obtain ⟨element, -, rfl⟩ := Option.map_eq_some_iff.mp hx
    exact .of_route hroute nofun nofun rfl
  | anything hroute =>
    refine ⟨h, fun x hx => ?_⟩
    cases hx
    exact .of_route hroute nofun nofun rfl
  | dictionary hroute hcall =>
    refine ⟨((hr _ _ _ _ hcall).2.2.2 h).1, fun x hx => ?_⟩
    obtain ⟨value, -, rfl⟩ := Option.map_eq_some_iff.mp hx
    exact .of_route hroute nofun nofun rfl
  | inline hshape hb =>
    obtain ⟨d, hreg, rfl, rfl⟩ | ⟨id, -, ho, rfl, rfl⟩ | ⟨-, rfl, hp⟩ := buildInline_cases hb
    · exact ⟨h.report (Defect.kind_ne_of_isPlain (registerComposite_clash hreg).2), nofun⟩
    · refine ⟨h, fun x hx => ?_⟩
      cases hx
      exact .known hshape ho
    · obtain ⟨hu, htells⟩ := withStub_accounted (x := site.located) hr h hs hshape hp
      refine ⟨hu, fun x hx => ?_⟩
      cases hx
      exact htells
  | scalar hroute _ ha =>
    refine ⟨h.asides ha, fun x hx => ?_⟩
    cases hx
    exact .of_route hroute nofun nofun rfl

end Heeds

section Build

variable {methods : List Method}
  (hall : Build.resolveAll context (resolveSite context) {} = some (methods, last))
include hall

theorem Made.accounted (hm : Made context (.node site) s)
    (ht : resolveSite context site s = some (type, t)) :
    Grows s t ∧ (Accounted context s → Accounted context t ∧ ∀ x, type = some x →
      Tells context.document t.catalog site.located x) := by
  refine (hm.induct_within (P := fun site s type t => Accounted context s → Accounted context t ∧
    ∀ x, type = some x → Tells context.document t.catalog site.located x) hall ?_
    ht).imp_left fun hw => hw.later.toGrows
  intro r site s type t hw hr ht h
  refine step_accounted (fun site' s' type' t' hcall => ?_) h hw.stands ht
  obtain ⟨hm, hw', hp⟩ := hr _ _ _ _ hcall
  exact ⟨hm, hw'.outcome, hw'.later.toGrows, hp⟩

theorem accounted_of_resolveAll : Accounted context last := by
  refine kept_of_resolveAll (Accounted context)
    (P := fun site s type t => Made context (.node site) s ∧
      resolveSite context site s = some (type, t) ∧ Grows s t ∧
      (Accounted context s → Accounted context t ∧ ∀ x, type = some x →
        Tells context.document t.catalog site.located x)) ?_ ?_ ?_ ?_ (.empty context) hall
  · intro site s type t hm ht
    exact ⟨hm, ht, hm.accounted hall ht⟩
  · exact fun hp h => (hp.2.2.2 h).1
  · exact fun ha h => h.asides ha
  · intro r name s type t hr ht h
    exact (definition_accounted hr h ht).1

/-- A schema that is refused leaves a defect behind. -/
theorem not_refused (hd : last.defects = []) : ¬Refused context x := by
  rintro ⟨site, s, t, hmade, rfl, hrun⟩
  obtain ⟨hadmits, hgrows⟩ := hmade.kept hall
  obtain ⟨yields, u, hu, hlost⟩ := hadmits.ends
  have hnone : (Call.node site).run context s = some (false, t) := map_found hrun
  cases hu.symm.trans hnone
  exact hlost rfl (List.prefix_nil.mp (hd ▸ (hgrows hnone).defects))

end Build

end ApiModel.Resolution
