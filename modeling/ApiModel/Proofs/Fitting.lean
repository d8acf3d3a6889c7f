import ApiModel.Proofs.Shapes

/-! # What a resolution without defects has found

Where a resolution finds no defect, the types that it answers with have the shapes of their
schemas, and its catalog says of each object type what that declares. Shapes do not depend on the
order in which the definitions are taken, so neither does what has been found.
-/

namespace ApiModel.Resolution

open Text (caseKey)

variable {context : Context} {R : Site → Prop} {c d : Catalog} {r : Resolver}
  {s t u last : State} {site : Site} {type : Option ModelType}

def Conveys (context : Context) (c : Catalog) (owner : String) (required : List String)
    (m : Member) (p : Property) : Prop :=
  ∃ type shape constraints, Shaped context (m.site owner) shape ∧ Denotes c type shape ∧
    constraintsOf context.grammars m.schema.facets m.pointer = .ok constraints ∧
    p = memberProperty context.document required m type constraints

theorem Conveys.mono {owner : String} {required : List String} {m : Member} {p : Property}
    (h : Conveys context c owner required m p) (hg : c.Grows d) :
    Conveys context d owner required m p := by
  obtain ⟨type, shape, constraints, hs, hx, hk, hp⟩ := h
  exact ⟨type, shape, constraints, hs, hx.mono hg, hk, hp⟩

theorem Conveys.name_eq {owner : String} {required : List String} {m : Member} {p : Property}
    (h : Conveys context c owner required m p) : p.name = m.name := by
  obtain ⟨_, _, _, -, -, -, rfl⟩ := h
  rfl

theorem Gathers.exists_becomes {becomes : Member → Property → Prop} {members : List Member}
    {properties : List Property} (h : Gathers becomes False members properties) {m : Member}
    (hm : m ∈ members) : ∃ p, becomes m p := by
  induction h with
  | nil => cases hm
  | new _ _ hp ih | again _ _ hp ih =>
    rcases List.mem_append.mp hm with hm | hm
    · exact ih hm
    · exact ⟨_, List.mem_singleton.mp hm ▸ hp⟩
  | lost _ hl => exact hl.elim

/-- A composite says what the object type at a site declares. -/
structure Mirrors (context : Context) (c : Catalog) (site : Site) (composite : Composite) :
    Prop where
  progress : composite.progress = .propertiesResolved
  description : composite.description = site.schema.description
  discriminator : composite.discriminator = site.schema.declaredDiscriminator site.pointer
  value : composite.discriminatorValue = declaredValue context.settings site.name site.schema
  derived : composite.derived = []
  properties : Gathers (Conveys context c site.name (site.schema.declaredRequired site.pointer))
    False (site.schema.declaredMembers site.pointer) composite.properties
  base : List.Forall₂ (fun part id => ∃ shape, Shaped context (part.site site.name) shape ∧
    Denotes c (.composite id) shape) (site.schema.baseParts site.pointer) composite.base.toList

theorem Mirrors.mono {composite : Composite} (h : Mirrors context c site composite)
    (hg : c.Grows d) : Mirrors context d site composite :=
  { h with
    properties := h.properties.mono (fun hp => hp.mono hg) id
    base := h.base.imp fun _ _ ⟨shape, hs, hx⟩ => ⟨shape, hs, hx.mono hg⟩ }

theorem exists_base {parts : List BasePart} {ids : List CompositeId}
    (h : List.Forall₂ (fun part id => ∃ shape, Shaped context (part.site site.name) shape ∧
      Denotes c (.composite id) shape) parts ids) {part : BasePart} (hp : part ∈ parts) :
    ∃ id shape, Shaped context (part.site site.name) shape ∧ Denotes c (.composite id) shape := by
  have hflip : List.Forall₂ (fun id part => ∃ shape,
      Shaped context (BasePart.site part site.name) shape ∧ Denotes c (.composite id) shape)
        ids parts := h.flip
  obtain ⟨id, -, shape, hs⟩ := exists_of_mem_forall₂ hflip hp
  exact ⟨id, shape, hs⟩

/-- No defect is found in what an object type declares, whatever has been resolved before. -/
structure Wholesome (context : Context) (site : Site) : Prop where
  members : ∀ m ∈ site.schema.declaredMembers site.pointer,
    (∃ shape, Shaped context (m.site site.name) shape) ∧
      ∃ constraints, constraintsOf context.grammars m.schema.facets m.pointer = .ok constraints
  /-- Members of one name have compatible types. -/
  agree : ∀ m ∈ site.schema.declaredMembers site.pointer,
    ∀ m' ∈ site.schema.declaredMembers site.pointer, m.name = m'.name → ∀ {shape shape'},
      Shaped context (m.site site.name) shape → Shaped context (m'.site site.name) shape' →
        shape.bare = shape'.bare
  oneBase : (site.schema.baseParts site.pointer).length ≤ 1
  bases : ∀ part ∈ site.schema.baseParts site.pointer, ∃ name origin,
    Shaped context (part.site site.name) (.composite name origin)
  text : ∀ {value}, site.schema.extension? context.settings.discriminatorValueExtension =
    some value → ∃ text, value = .str text

/-- A composite stands for an object type, and says what that declares unless it is a stub. -/
def Placed (context : Context) (R : Site → Prop) (c : Catalog) (composite : Composite) : Prop :=
  ∃ site, R site ∧ site.schema.isComposite = true ∧
    composite.name = site.name ∧ composite.origin = site.pointer.text ∧
    (composite.progress = .stub ∨ Wholesome context site ∧ Mirrors context c site composite)

def Listed (context : Context) (R : Site → Prop) (c : Catalog) (id : EnumId) : Prop :=
  ∃ site shape, R site ∧ Shaped context site shape ∧
    Denotes c (.enum id) shape

def Recalls (context : Context) (s : State) (key : String) (type : ModelType) : Prop :=
  ∃ name schema shape, caseKey name = key ∧ Fields.get? s.claimed key = some name ∧
    Fields.get? context.document.definitions name = some schema ∧
    Shaped context (definitionSite name schema) shape ∧ Denotes s.catalog type shape

/-- All that has been found fits the document. -/
structure Fits (context : Context) (R : Site → Prop) (s : State) : Prop where
  composites : ∀ {id composite}, s.catalog.composite? id = some composite →
    Placed context R s.catalog composite
  enums : ∀ {id e}, s.catalog.enum? id = some e → Listed context R s.catalog id
  memo : ∀ {key type}, Fields.get? s.resolved key = some type → Recalls context s key type
  claims : ∀ {key name}, Fields.get? s.claimed key = some name → caseKey name = key ∧
    ∃ schema, Fields.get? context.document.definitions name = some schema

theorem Placed.mono {composite : Composite} (h : Placed context R c composite) (hg : c.Grows d) :
    Placed context R d composite := by
  obtain ⟨site, ho, hs, hn, horigin, hbody⟩ := h
  exact ⟨site, ho, hs, hn, horigin, hbody.imp_right fun hb => ⟨hb.1, hb.2.mono hg⟩⟩

namespace Fits

/-- A step that only adds leaves everything fitting, if what it adds fits. -/
theorem grow (h : Fits context R s) (hg : s.catalog.Grows t.catalog) (hcl : t.claimed = s.claimed)
    (hc : ∀ {id composite}, t.catalog.composite? id = some composite →
      s.catalog.composite? id = some composite ∨ Placed context R t.catalog composite)
    (he : ∀ {id e}, t.catalog.enum? id = some e →
      s.catalog.enum? id = some e ∨ Listed context R t.catalog id)
    (hm : ∀ {key type}, Fields.get? t.resolved key = some type →
      Fields.get? s.resolved key = some type ∨ Recalls context t key type) : Fits context R t where
  composites hid := (hc hid).elim (fun hs => (h.composites hs).mono hg) id
  enums hid := by
    rcases he hid with hs | hl
    · obtain ⟨site, shape, ho, hs, hx⟩ := h.enums hs
      exact ⟨site, shape, ho, hs, hx.mono hg⟩
    · exact hl
  memo hk := by
    rcases hm hk with hs | hr
    · obtain ⟨name, schema, shape, hn, hclaimed, hd, hs, hx⟩ := h.memo hs
      exact ⟨name, schema, shape, hn, hcl ▸ hclaimed, hd, hs, hx.mono hg⟩
    · exact hr
  claims hk := h.claims (hcl ▸ hk)

theorem carry (h : Fits context R s) (hc : t.catalog = s.catalog) (hr : t.resolved = s.resolved)
    (hcl : t.claimed = s.claimed) : Fits context R t :=
  h.grow (hc ▸ .refl _) hcl (fun hid => .inl (hc ▸ hid)) (fun hid => .inl (hc ▸ hid))
    fun hk => .inl (hr ▸ hk)

theorem notes (h : Fits context R s) (hn : Notes s t) : Fits context R t :=
  h.carry hn.catalog_eq hn.resolved_eq hn.claimed_eq

theorem push (h : Fits context R s) (f : Frame) : Fits context R (push f s).2 := h.carry rfl rfl rfl

theorem pop (h : Fits context R s) : Fits context R (pop s).2 := h.carry rfl rfl rfl

theorem withStub (h : Fits context R s) (ho : R site)
    (hs : site.schema.isComposite = true) : Fits context R (s.withStub site.name site.pointer) := by
  refine h.grow (.addComposite ..) rfl (fun {id composite} hid => ?_) .inl .inl
  rcases composite?_withStub hid with ⟨-, rfl⟩ | hid
  · exact .inr ⟨site, ho, hs, rfl, rfl, .inl rfl⟩
  · exact .inl hid

theorem claimKey (h : Fits context R s) {name : String} {schema : Schema}
    (hd : Fields.get? context.document.definitions name = some schema)
    (hk : claimKey name s = (true, t)) : Fits context R t := by
  have hg := claimKey_grows name s
  rw [hk] at hg
  obtain ⟨-, rfl⟩ | ⟨-, rfl⟩ := claimed_cases hk
  · refine ⟨h.composites, h.enums, fun hm => ?_, fun {key other} hother => ?_⟩
    · obtain ⟨_, _, shape, hn, hc, hget, hs, hx⟩ := h.memo hm
      exact ⟨_, _, shape, hn, hg.claimed hc, hget, hs, hx⟩
    · have hother : Fields.get? (Fields.set s.claimed (caseKey name) name) key = some other :=
        hother
      rw [Fields.get?_set] at hother
      split at hother
      · rename_i heq
        cases hother
        exact ⟨heq, schema, hd⟩
      · exact h.claims hother
  · exact h

theorem remember (h : Fits context R s) {name : String} {schema : Schema} {x : ModelType}
    {shape : Shape} (hc : Fields.get? s.claimed (caseKey name) = some name)
    (hd : Fields.get? context.document.definitions name = some schema)
    (hs : Shaped context (definitionSite name schema) shape) (hx : Denotes s.catalog x shape) :
    Fits context R (remember (caseKey name) x s).2 := by
  refine h.grow (.refl _) rfl .inl .inl fun {key old} hold => ?_
  rcases get?_remember hold with ⟨rfl, rfl⟩ | hold
  · exact .inr ⟨name, schema, shape, rfl, hc, hd, hs, hx⟩
  · exact .inl hold

theorem opened (h : Fits context R s) (hR : context.document.Region R) {name : String}
    {schema : Schema} (hc : Fields.get? s.claimed (caseKey name) = some name)
    (hd : Fields.get? context.document.definitions name = some schema)
    (hs : schema.isComposite = true) :
    Fits context R (Resolution.remember (caseKey name) (.composite ⟨s.catalog.composites.length⟩)
      (s.withStub name (Pointer.definition name))).2 := by
  have hf : Fits context R (s.withStub name (Pointer.definition name)) :=
    h.withStub (hR.definition hd) hs
  exact hf.remember hc hd (.composite (Schema.route_eq_composite_iff.mpr hs))
    (.composite (Catalog.composite?_addComposite_self ..))

/-- The type that is remembered for a definition with a key of its own has the shape of it. -/
theorem shaped_of_typeOf? (h : Fits context R s) {name : String} {schema : Schema} {x : ModelType}
    (hc : Fields.get? s.claimed (caseKey name) = some name)
    (hd : Fields.get? context.document.definitions name = some schema)
    (hx : s.typeOf? name = some x) :
    ∃ shape, Shaped context (definitionSite name schema) shape ∧ Denotes s.catalog x shape := by
  obtain ⟨name', schema', shape, -, hc', hd', hs, hx⟩ := h.memo hx
  cases hc.symm.trans hc'
  cases hd.symm.trans hd'
  exact ⟨shape, hs, hx⟩

theorem denotes_of_origin (h : Fits context R s) (hR : context.document.Region R)
    (ho : R site) (hs : site.schema.isComposite = true) {id : CompositeId}
    (hk : s.catalog.Keyed) (hf : s.catalog.findComposite? site.name = some id)
    (horigin : (s.catalog.composite? id).elim "" (·.origin) = site.pointer.text) :
    Denotes s.catalog (.composite id) (.composite site.name site.pointer.text) := by
  obtain ⟨composite, hc, hkey⟩ := (hk site.name id).mp hf
  obtain ⟨other, ho', hs', hname, horigin', -⟩ := h.composites hc
  rw [hc] at horigin
  have horigin : composite.origin = site.pointer.text := horigin
  have hsame := hR.unique ho ho' hs hs' (hname ▸ hkey.symm) (horigin.symm.trans horigin')
  have hname : composite.name = site.name := by rw [hname, hsame]
  rw [← hname, ← horigin]
  exact .composite hc

end Fits

theorem Grows.clean (h : Grows s t) (hd : t.defects = []) : s.defects = [] :=
  List.prefix_nil.mp (hd ▸ h.defects)

theorem Notes.clean (h : Notes s t) (hd : t.defects = []) : s.defects = [] := h.grows.clean hd

theorem Scene.Inv.nothing_failed (h : (Scene.ofBuild context).Inv s) (hd : s.defects = []) :
    s.failed = [] ∧ context.document.malformed = [] := by
  by_contra hn
  exact Scene.marked_ofBuild.mp (h.noted (not_and_or.mp hn)) hd

def Fulfils (context : Context) (site : Site) (type : Option ModelType) (t : State) : Prop :=
  ∃ x shape, type = some x ∧ Shaped context site shape ∧ Denotes t.catalog x shape

/-- Calls of the resolver answer with the right shapes, where they find no defect. -/
def Serves (context : Context) (R : Site → Prop) (last : State) (r : Resolver) : Prop :=
  ∀ site s type t, r site s = some (type, t) → (Scene.ofBuild context).Within last site s type t ∧
    (R site → Fits context R s → t.defects = [] →
      Fits context R t ∧ Fulfils context site type t)

section Bodies

variable (hR : context.document.Region R) (hr : Serves context R last r) (ho : R site)
  (hs : site.schema.isComposite = true)
include hR hr ho hs

theorem base_fits (hf : Fits context R s) {base : Option CompositeId} (hd : t.defects = [])
    (h : resolveBase r site.name (site.schema.baseParts site.pointer) s = some (base, t)) :
    Extends s t ∧ Fits context R t ∧ List.Forall₂ (fun part id => ∃ shape,
      Shaped context (part.site site.name) shape ∧ Denotes t.catalog (.composite id) shape)
        (site.schema.baseParts site.pointer) base.toList := by
  cases hparts : site.schema.baseParts site.pointer with
  | nil =>
    rw [hparts] at h
    cases h
    exact ⟨.refl _, hf, .nil⟩
  | cons part others =>
    rw [hparts] at h
    obtain ⟨type, u, hu, rfl, rfl⟩ := resolveBase_cons.mp h
    have hnb := baseOf_notes site.name part type u
    have hns := reportSecondBases_notes site.name others (baseOf site.name part type u).2
    obtain rfl : others = [] := by
      by_contra hne
      exact reportSecondBases_defects hne hd
    have hq := hR.base ho hs (hparts ▸ List.mem_cons_self ..)
    obtain ⟨hw, hfits⟩ := hr _ _ _ _ hu
    obtain ⟨hf, x, shape, rfl, hshape, hx⟩ := hfits hq hf (hnb.clean (hns.clean hd))
    have hbase : (some x).bind ModelType.composite? ≠ none := fun hn =>
      baseOf_defects ((baseOf_fst ..).trans hn) (Option.some_ne_none x) (hns.clean hd)
    obtain ⟨id, hid⟩ := Option.ne_none_iff_exists'.mp hbase
    obtain rfl : x = .composite id := by
      cases x with
      | composite id' => exact congrArg _ (Option.some.inj hid)
      | _ => cases hid
    refine ⟨hw.later.trans (.of_notes (hnb.trans hns)), hf.notes (hnb.trans hns), ?_⟩
    rw [hid]
    exact .cons ⟨shape, hshape, hx.mono (hnb.trans hns).grows.catalog⟩ .nil

/-- What a loop over members has found. -/
structure Gathered (context : Context) (R : Site → Prop) (site : Site) (before : List Member)
    (ps : List Property) (s t : State) : Prop where
  later : Extends s t
  fits : Fits context R t
  properties : Gathers (Conveys context t.catalog site.name
    (site.schema.declaredRequired site.pointer)) False before ps
  covered : ∀ m ∈ before, ∃ q ∈ ps, q.name = m.name ∧ ∃ shape shape',
    Shaped context (m.site site.name) shape ∧ Denotes t.catalog q.type shape' ∧
      shape'.bare = shape.bare

omit hR hr ho hs in
theorem Gathered.mono {before : List Member} {properties : List Property}
    (h : Gathered context R site before properties s t) (hl : Extends t u) (hf : Fits context R u) :
    Gathered context R site before properties s u where
  later := h.later.trans hl
  fits := hf
  properties := h.properties.mono (fun hp => hp.mono hl.catalog) id
  covered m hm := by
    obtain ⟨q, hq, hn, shape, shape', hs, hx, hb⟩ := h.covered m hm
    exact ⟨q, hq, hn, shape, shape', hs, hx.mono hl.catalog, hb⟩

omit hR hr ho hs in
theorem Gathered.absorb {before : List Member} {m : Member} {properties : List Property}
    {x : ModelType} {shape : Shape} (h : Gathered context R site before properties s u)
    (hk : u.catalog.Keyed) (hshape : Shaped context (m.site site.name) shape)
    (hx : Denotes u.catalog x shape)
    (hd : (absorb context site.name (site.schema.declaredRequired site.pointer) m properties
      (some x) u).2.defects = []) :
    Gathered context R site (before ++ [m])
      (Resolution.absorb context site.name (site.schema.declaredRequired site.pointer) m properties
        (some x) u).1 s
      (Resolution.absorb context site.name (site.schema.declaredRequired site.pointer) m properties
        (some x) u).2 := by
  cases hc : constraintsOf context.grammars m.schema.facets m.pointer with
  | error fault =>
    rw [absorb_error hc] at hd
    simp at hd
  | ok constraints =>
    rw [absorb_ok hc] at hd ⊢
    set p := memberProperty context.document (site.schema.declaredRequired site.pointer) m x
      constraints with hp
    have hconveys : Conveys context u.catalog site.name
        (site.schema.declaredRequired site.pointer) m p := ⟨x, shape, _, hshape, hx, hc, hp⟩
    cases hfind : properties.find? (·.name == p.name) with
    | none =>
      rw [addProperty_new hfind]
      have hnew : ∀ q ∈ properties, q.name ≠ m.name := fun q hq => by
        simpa [hconveys.name_eq] using List.find?_eq_none.mp hfind q hq
      refine ⟨h.later, h.fits, h.properties.new hnew hconveys, fun m' hm' => ?_⟩
      rcases List.mem_append.mp hm' with hm' | hm'
      · obtain ⟨q, hq, hrest⟩ := h.covered m' hm'
        exact ⟨q, List.mem_append_left _ hq, hrest⟩
      · cases List.mem_singleton.mp hm'
        exact ⟨p, by simp, rfl, shape, shape, hshape, hx, rfl⟩
    | some old =>
      have hold := List.mem_of_find?_eq_some hfind
      have hname : old.name = m.name := by simpa [hconveys.name_eq] using List.find?_some hfind
      rw [addProperty_again hfind] at hd ⊢
      dsimp only at hd ⊢
      split at hd
      · rename_i hcompatible
        rw [if_pos hcompatible]
        obtain ⟨m', -, x', shape', _, hshape', hx', -, rfl⟩ := h.properties.exists_member hold
        refine ⟨h.later, h.fits, h.properties.again ⟨_, hold, hname⟩ hconveys, fun n hn => ?_⟩
        rcases List.mem_append.mp hn with hn | hn
        · exact h.covered n hn
        · cases List.mem_singleton.mp hn
          exact ⟨_, hold, hname, shape, shape', hshape, hx', (hx'.compatible_iff hk hx).mp
            hcompatible⟩
      · simp at hd

theorem members_fit (hf : s.defects = [] → Fits context R s) {properties : List Property}
    (hd : t.defects = [])
    (h : resolveMembers context r site.name (site.schema.declaredRequired site.pointer)
      (site.schema.declaredMembers site.pointer) s = some (properties, t)) :
    Gathered context R site (site.schema.declaredMembers site.pointer) properties s t := by
  refine resolveMembers_induct (fun before ps u => u.defects = [] →
    Gathered context R site before ps s u) (fun before m after ps u type v hl hi hv hd => ?_)
    (fun hd => ⟨.refl s, hf hd, .nil, List.forall_mem_nil _⟩) h hd
  have hv' := (absorb_notes v).clean hd
  obtain ⟨hw, hfits⟩ := hr _ _ _ _ hv
  have hu := hi (hw.later.toGrows.clean hv')
  have hm : m ∈ site.schema.declaredMembers site.pointer := by simp [hl]
  obtain ⟨hf, x, shape, rfl, hshape, hx⟩ := hfits (hR.member ho hs hm) hu.fits hv'
  exact (hu.mono hw.later hf).absorb hw.inv_end.keyed hshape hx hd

omit hR hr ho hs in
theorem Gathered.wholesome {properties : List Property} {base : Option CompositeId}
    (h : Gathered context R site (site.schema.declaredMembers site.pointer) properties s t)
    (hb : List.Forall₂ (fun part id => ∃ shape, Shaped context (part.site site.name) shape ∧
      Denotes c (.composite id) shape) (site.schema.baseParts site.pointer) base.toList)
    (ht : (remarks context site.name site.schema site.pointer t).defects = []) :
    Wholesome context site where
  members m hm := by
    obtain ⟨_, _, shape, constraints, hs, -, hk, -⟩ := h.properties.exists_becomes hm
    exact ⟨⟨shape, hs⟩, constraints, hk⟩
  agree m hm m' hm' hn shape shape' hs hs' := by
    obtain ⟨q, hq, hname, a, b, ha, hx, hbare⟩ := h.covered m hm
    obtain ⟨q', hq', hname', a', b', ha', hx', hbare'⟩ := h.covered m' hm'
    have hnodup := h.properties.nodup_names Conveys.name_eq
    obtain rfl := List.inj_on_of_nodup_map hnodup hq hq' (hname.trans (hn.trans hname'.symm))
    rw [hs.unique ha, hs'.unique ha', ← hbare, ← hbare', hx.shape_unique hx']
  oneBase := by
    rw [hb.length_eq]
    cases base <;> simp
  bases part hp := by
    obtain ⟨_, shape, hs, hx⟩ := exists_base hb hp
    cases hx with
    | composite => exact ⟨_, _, hs⟩
  text {value} hx := by
    by_contra hn
    exact discriminatorValue_defects hx (fun text ht => hn ⟨text, ht⟩) _ ht

omit hR hr in
/-- A stub takes what its object type declares. -/
theorem Fits.fillIn (hf : Fits context R s) {old added : List Composite}
    (hc : s.catalog.composites = old ++ .stub site.name site.pointer.text :: added)
    (hw : Wholesome context site) {properties : List Property} {base : Option CompositeId}
    (hp : Gathers (Conveys context s.catalog site.name (site.schema.declaredRequired site.pointer))
      False (site.schema.declaredMembers site.pointer) properties)
    (hb : List.Forall₂ (fun part id => ∃ shape, Shaped context (part.site site.name) shape ∧
      Denotes s.catalog (.composite id) shape) (site.schema.baseParts site.pointer)
        base.toList) :
    Fits context R (Scene.fillIn ⟨old.length⟩ site.schema site.pointer properties base
      (declaredValue context.settings site.name site.schema) s) := by
  have hg := (Scene.fillIn_grows ⟨old.length⟩ site.schema site.pointer properties base
    (declaredValue context.settings site.name site.schema) s).catalog
  refine hf.grow hg rfl (fun {id composite} hid => ?_) .inl .inl
  rcases Scene.composite?_fillIn (Catalog.composite?_of_composites hc) hid with rfl | hid
  · refine .inr ⟨site, ho, hs, rfl, rfl, .inr ⟨hw, ?_⟩⟩
    exact Mirrors.mono ⟨rfl, rfl, rfl, rfl, rfl, hp, hb⟩ hg
  · exact .inl hid

theorem populate_fits (hf : Fits context R s) {old : List Composite}
    (hc : s.catalog.composites = old ++ [.stub site.name site.pointer.text])
    (hd : t.defects = [])
    (h : populate context r ⟨old.length⟩ site.schema site.pointer s = some ((), t)) :
    Fits context R t ∧ s.catalog.Grows t.catalog := by
  obtain ⟨base, u, properties, v, hb, hm, rfl⟩ := populate_eq_some.mp h
  have hname : s.catalog.nameOf ⟨old.length⟩ = site.name := by
    simp only [Catalog.nameOf, Catalog.composite?_of_composites hc]
    rfl
  rw [hname] at hb hm hd ⊢
  have hn : Notes v (remarks context site.name site.schema site.pointer v) := remarks_notes ..
  have hv := hn.clean hd
  have hmembers := members_fit hR hr ho hs
    (fun hu => (base_fits hR hr ho hs (hf.push .composite) hu hb).2.1) hv hm
  obtain ⟨hlater, -, hbase⟩ := base_fits hR hr ho hs (hf.push .composite)
    (hmembers.later.toGrows.clean hv) hb
  obtain ⟨added, hadded, -⟩ := (hlater.trans (hmembers.later.trans (.of_notes hn))).composites
  have hcomposites : (remarks context site.name site.schema site.pointer v).catalog.composites =
      old ++ .stub site.name site.pointer.text :: added := by
    rw [hadded]
    show s.catalog.composites ++ added = _
    rw [hc, List.append_assoc]
    rfl
  have hg := hn.grows.catalog
  have hgrown := hmembers.later.catalog.trans hg
  refine ⟨((hmembers.fits.notes hn).fillIn ho hs hcomposites (hmembers.wholesome hbase hd)
    (hmembers.properties.mono (fun hp => hp.mono hg) id)
    (hbase.imp fun _ _ h => h.imp fun _ h => h.imp_right fun hx => hx.mono hgrown)).pop, ?_⟩
  exact (hlater.catalog.trans hgrown).trans (Scene.fillIn_grows ..).catalog

end Bodies

theorem not_blank_of_buildEnum {settings : Settings} {listed : List Json} {x : ModelType}
    (h : buildEnum settings site listed s = (some x, t)) {extension : Json}
    (hx : site.schema.extension? settings.enumExtension = some extension) :
    Text.isBlankText (Enumeration.nameOf extension) = false := by
  unfold buildEnum at h
  cases hv : Enumeration.valuesFrom site.pointer [] listed with
  | error fault =>
    rw [hv] at h
    cases h
  | ok values =>
    simp only [hv, hx] at h
    cases hb : Text.isBlankText (Enumeration.nameOf extension) with
    | false => rfl
    | true =>
      simp only [hb, if_true] at h
      cases h

theorem listed_of_addEnum (ho : R site) {shape : Shape}
    (hs : Shaped context site shape) (hx : Denotes d (.enum ⟨c.enums.length⟩) shape)
    {e old : EnumType} {id : EnumId} (h : (c.addEnum e).enum? id = some old) :
    c.enum? id = some old ∨ Listed context R d id := by
  rw [Catalog.enum?_addEnum] at h
  split at h
  · rename_i heq
    obtain ⟨i⟩ := id
    obtain rfl : i = _ := heq
    exact .inr ⟨site, shape, ho, hs, hx⟩
  · exact .inl h

theorem enum_fits (hi : (Scene.ofBuild context).Inv s) (hf : Fits context R s) 
    (ho : R site) {listed : List Json}
    (hroute : site.schema.route = .enumeration listed) {x : ModelType}
    (h : buildEnum context.settings site listed s = (some x, t)) :
    Fits context R t ∧ Fulfils context site (some x) t := by
  obtain ⟨d, hb⟩ | ⟨values, hv, ⟨hx, hb⟩ | ⟨extension, hx, ⟨-, hb⟩ | ⟨id, hk, hvalues, hb⟩⟩⟩ :=
    buildEnum_cases context.settings site listed s
  · cases hb.symm.trans h
  · cases hb.symm.trans h
    set e : EnumType := ⟨none, values, true, site.pointer.text⟩
    have hs : Shaped context site (.anonymous site.pointer.text values) := .anonymous hroute hv hx
    have hdenotes : Denotes (s.catalog.addEnum e) (.enum ⟨s.catalog.enums.length⟩)
        (.anonymous site.pointer.text values) := .anonymous (Catalog.enum?_addEnum_self _ e) rfl
    exact ⟨hf.grow (.addEnum _ e) rfl .inl (listed_of_addEnum ho hs hdenotes) .inl, _, _, rfl, hs,
      hdenotes⟩
  · cases hb.symm.trans h
    set given := Enumeration.nameOf extension with hgiven
    set e : EnumType := ⟨some given, values, false, site.pointer.text⟩
    have hs : Shaped context site (.named (caseKey given) values) :=
      .named hroute hv hx (not_blank_of_buildEnum h hx)
    have hself : (s.catalog.addNamedEnum given e).enum? ⟨s.catalog.enums.length⟩ = some e :=
      Catalog.enum?_addEnum_self _ e
    have hdenotes : Denotes (s.catalog.addNamedEnum given e) (.enum ⟨s.catalog.enums.length⟩)
        (.named (caseKey given) values) := .named hself rfl
    exact ⟨hf.grow (.addNamedEnum _ given e) rfl .inl (listed_of_addEnum ho hs hdenotes) .inl, _, _,
      rfl, hs, hdenotes⟩
  · cases hb.symm.trans h
    obtain ⟨e, given, he, hn, hkey⟩ := (hi.enums.find _ id).mp hk
    have hs : Shaped context site (.named (caseKey (Enumeration.nameOf extension)) values) :=
      .named hroute hv hx (not_blank_of_buildEnum h hx)
    refine ⟨hf, _, _, rfl, hs, ?_⟩
    rw [← hvalues e he, ← hkey]
    exact .named he hn

section Steps

variable (hr : Serves context R last r) (hR : context.document.Region R)
  (hi : (Scene.ofBuild context).Inv s) (hf : Fits context R s) (hd : t.defects = [])
include hr hR hi hf hd

theorem settles_fits {name : String} {schema : Schema}
    (hc : Fields.get? s.claimed (caseKey name) = some name)
    (hget : Fields.get? context.document.definitions name = some schema)
    (h : Settles context r name schema s type t) :
    Fits context R t ∧ Fulfils context (definitionSite name schema) type t := by
  have ho : R (definitionSite name schema) := hR.definition hget
  have hshaped (hs : schema.isComposite = true) : Shaped context (definitionSite name schema)
      (.composite name (Pointer.definition name).text) :=
    .composite (Schema.route_eq_composite_iff.mpr hs)
  cases h with
  | remembered hx =>
    obtain ⟨shape, hs, hx⟩ := hf.shaped_of_typeOf? hc hget hx
    exact ⟨hf, _, shape, rfl, hs, hx⟩
  | failed _ hfailed =>
    rw [(hi.nothing_failed hd).1] at hfailed
    cases hfailed
  | @clash d =>
    have hd : (report d s).2.defects = [] := hd
    simp at hd
  | known _ _ hs hk horigin =>
    have hx := hf.denotes_of_origin hR ho hs hi.keyed hk horigin
    exact ⟨hf.remember hc hget (hshaped hs) hx, _, _, rfl, hshaped hs, hx⟩
  | opened _ _ hs _ hp =>
    have hstub : Denotes (s.withStub name (Pointer.definition name)).catalog
        (.composite ⟨s.catalog.composites.length⟩)
        (.composite name (Pointer.definition name).text) :=
      .composite (Catalog.composite?_addComposite_self ..)
    obtain ⟨hfits, hg⟩ := populate_fits hR hr ho hs (hf.opened hR hc hget hs) rfl hd hp
    exact ⟨hfits, _, _, rfl, hshaped hs, hstub.mono hg⟩
  | round =>
    have hd : (report _ (markFailed (caseKey name) s).2).2.defects = [] := hd
    simp at hd
  | lost _ _ _ _ hu =>
    obtain ⟨-, _, _, hx, -⟩ := (hr _ _ _ _ hu).2 ho (hf.push _) hd
    cases hx
  | @found x u _ _ _ _ hu =>
    obtain ⟨hw, hfits⟩ := hr _ _ _ _ hu
    obtain ⟨hf', _, shape, hx, hs, hdenotes⟩ := hfits ho (hf.push _) hd
    cases hx
    exact ⟨hf'.pop.remember (hw.later.claimed hc) hget hs hdenotes, _, shape, rfl, hs, hdenotes⟩

theorem definition_fits {name canonical owner : String} {pointer : Pointer} {schema : Schema}
    (hfound : context.document.definition? name = some (canonical, schema))
    (h : resolveDefinition context r name pointer owner s = some (type, t)) :
    Fits context R t ∧ Fulfils context (definitionSite canonical schema) type t := by
  obtain ⟨hnone, -⟩ | ⟨_, _, hfound', ⟨d, -, -, rfl⟩ | ⟨u, hk, hs⟩⟩ := resolveDefinition_cases h
  · cases hnone.symm.trans hfound
  · simp at hd
  · cases hfound.symm.trans hfound'
    obtain ⟨hi', hc⟩ := inv_of_claimKey hi hk
    have hget := Scene.get?_of_definition? hfound
    exact settles_fits hr hR hi' (hf.claimKey hget hk) hd hc hget hs

theorem step_fits (ho : R site)
    (h : resolveStep context r site s = some (type, t)) :
    Fits context R t ∧ Fulfils context site type t := by
  cases resolveStep_takes h with
  | refused hrefused => exact absurd hd hrefused.defects
  | @reference text name _ _ href hp h =>
    have hroute := Schema.route_of_reference href
    cases hfound : context.document.definition? name with
    | none =>
      obtain ⟨-, -, ⟨hm, rfl⟩ | rfl⟩ | ⟨_, _, hfound', -⟩ := resolveDefinition_cases h
      · simp [Document.isMalformed, (hi.nothing_failed hd).2] at hm
      · simp at hd
      · cases hfound.symm.trans hfound'
    | some found =>
      obtain ⟨canonical, schema⟩ := found
      obtain ⟨hfits, x, shape, hx, hs, hdenotes⟩ := definition_fits hr hR hi hf hd hfound h
      exact ⟨hfits, x, shape, hx, .reference hroute hp hfound hs, hdenotes⟩
  | enum href hl h => exact enum_fits hi hf ho (Schema.route_of_enumeration href hl) h
  | @sequence clash items element _ hroute hitems h =>
    obtain ⟨hw, hfits⟩ := hr _ _ _ _ h
    have hnotes := noteClash_notes site clash s
    obtain ⟨hf', x, shape, rfl, hs, hx⟩ := hfits (hR.items ho hroute hitems) (hf.notes hnotes) hd
    obtain rfl : clash = false := by
      have := hw.later.toGrows.clean hd
      cases clash with
      | true => simp [noteClash] at this
      | false => rfl
    exact ⟨hf', _, _, rfl, .sequence hroute hitems hs, .sequence hx⟩
  | anything hroute => exact ⟨hf, _, _, rfl, .anything hroute, .dictionary (.scalar _)⟩
  | dictionary hroute h =>
    obtain ⟨hf', x, shape, rfl, hs, hx⟩ := (hr _ _ _ _ h).2 (hR.value ho hroute) hf hd
    exact ⟨hf', _, _, rfl, .dictionary hroute hs, .dictionary hx⟩
  | inline hs h =>
    have hshaped : Shaped context site (.composite site.name site.pointer.text) :=
      .composite (Schema.route_eq_composite_iff.mpr hs)
    obtain ⟨d, -, -, rfl⟩ | ⟨id, hk, horigin, rfl, rfl⟩ | ⟨-, rfl, hp⟩ := buildInline_cases h
    · simp at hd
    · exact ⟨hf, _, _, rfl, hshaped, hf.denotes_of_origin hR ho hs hi.keyed hk horigin⟩
    · obtain ⟨hfits, hg⟩ := populate_fits hR hr ho hs (hf.withStub ho hs) rfl hd hp
      have hstub : Denotes (s.withStub site.name site.pointer).catalog
          (.composite ⟨s.catalog.composites.length⟩)
          (.composite site.name site.pointer.text) :=
        .composite (Catalog.composite?_addComposite_self ..)
      exact ⟨hfits, _, _, rfl, hshaped, hstub.mono hg⟩
  | scalar hroute hk ha => exact ⟨hf.notes ha.notes, _, _, rfl, .scalar hroute hk, .scalar _⟩

end Steps

/-- A call that finds no defect answers with the shape of its schema, and what it leaves behind
fits the document. -/
theorem fits_within (hR : context.document.Region R)
    (h : (Scene.ofBuild context).Within last site s type t)
    (ho : R site) (hf : Fits context R s) (hd : t.defects = []) :
    Fits context R t ∧ Fulfils context site type t := by
  refine Scene.induct (P := fun site s type t => R site → Fits context R s → t.defects = [] →
    Fits context R t ∧ Fulfils context site type t)
    (fun r site s type t hw hr ht ho hf hd => ?_) h ho hf hd
  exact step_fits (fun _ _ _ _ h' => hr _ _ _ _ h') hR hw.inv hf hd ho ht

end ApiModel.Resolution
