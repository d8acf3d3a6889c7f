import ApiModel.Proofs.Fitting

/-! # When the definitions have no defect

Whether a resolution of all definitions finds a defect does not depend on the order in which it
takes them: it finds none exactly if the document is lawful, which is said of the schemas alone.
-/

namespace ApiModel.Resolution

open Text (caseKey)
open Relation (ReflTransGen TransGen)

variable {context : Context} {R : Site → Prop} {r : Resolver} {s t u last : State}
  {site other : Site} {type : Option ModelType}

/-- What a resolution of all definitions leaves behind if it finds no defect. -/
structure Complete (context : Context) (R : Site → Prop) (t : State) : Prop where
  inv : (Scene.ofBuild context).Inv t
  fits : Fits context R t
  clean : t.defects = []
  filled : ∀ {id composite}, t.catalog.composite? id = some composite →
    composite.progress = .propertiesResolved
  defined : ∀ {name schema}, Fields.get? context.document.definitions name = some schema →
    (Scene.ofBuild context).Defined t name

/-- No schema that the definitions lead to is malformed, or comes round to itself, or declares what
does not agree, and no two of them need the same name. -/
structure Lawful (context : Context) (R : Site → Prop) : Prop where
  shaped : ∀ {site}, R site → ∃ shape, Shaped context site shape
  bodies : ∀ {site}, R site → site.schema.isComposite = true → Wholesome context site
  composites : ∀ {site other}, R site → R other → site.schema.isComposite = true →
    other.schema.isComposite = true → caseKey site.name = caseKey other.name →
      site.pointer.text = other.pointer.text
  enums : ∀ {site other key values values'}, R site → R other →
    Shaped context site (.named key values) → Shaped context other (.named key values') →
      values = values'
  keys : ∀ {name name' schema schema'},
    Fields.get? context.document.definitions name = some schema →
      Fields.get? context.document.definitions name' = some schema' →
        caseKey name = caseKey name' → name = name'
  malformed : context.document.malformed = []

def Covered (context : Context) (t : State) (site : Site) : Prop :=
  ∃ x shape, Shaped context site shape ∧ Denotes t.catalog x shape

theorem Wholesome.reowned (h : Wholesome context site) (owner : String) :
    Wholesome context { site with owner } :=
  ⟨h.members, h.agree, h.oneBase, h.bases, h.text⟩

theorem Mirrors.reowned {c : Catalog} {composite : Composite} (h : Mirrors context c site composite)
    (owner : String) : Mirrors context c { site with owner } composite :=
  ⟨h.progress, h.description, h.discriminator, h.value, h.derived, h.properties, h.base⟩

theorem Covered.items (hc : Covered context t site) {clash : Bool} {items : Schema}
    (hr : site.schema.route = .array clash) (hi : site.schema.items = some items) :
    Covered context t (site.inside items "Item" "items") := by
  obtain ⟨x, shape, hs, hx⟩ := hc
  cases hs with
  | sequence _ hi' hs =>
    cases hi.symm.trans hi'
    cases hx with
    | sequence hx => exact ⟨_, _, hs, hx⟩
  | _ hr' => cases hr.symm.trans hr'

theorem Covered.value (hc : Covered context t site) {schema : Schema}
    (hr : site.schema.route = .dictionary (some schema)) :
    Covered context t (site.inside schema "Value" "additionalProperties") := by
  obtain ⟨x, shape, hs, hx⟩ := hc
  cases hs with
  | dictionary hr' hs =>
    cases hr.symm.trans hr'
    cases hx with
    | dictionary hx => exact ⟨_, _, hs, hx⟩
  | _ hr' => cases hr.symm.trans hr'

namespace Complete

variable (h : Complete context R t)
include h

theorem remembered {name : String} {schema : Schema}
    (hd : Fields.get? context.document.definitions name = some schema) :
    Fields.get? t.claimed (caseKey name) = some name ∧ ∃ x shape, t.typeOf? name = some x ∧
      Shaped context (definitionSite name schema) shape ∧ Denotes t.catalog x shape := by
  obtain ⟨canonical, schema', x, hfound, hx, hc⟩ := h.defined hd
  rw [show (Scene.ofBuild context).context = context from rfl,
    Scene.definition?_of_get? hd] at hfound
  cases hfound
  obtain ⟨shape, hs, hdenotes⟩ := h.fits.shaped_of_typeOf? hc hd hx
  exact ⟨hc, x, shape, hx, hs, hdenotes⟩

theorem mirrors_of_denotes (hR : context.document.Region R) (ho : R site)
    (hs : site.schema.isComposite = true) {x : ModelType}
    (hx : Denotes t.catalog x (.composite site.name site.pointer.text)) :
    ∃ id composite, x = .composite id ∧ t.catalog.composite? id = some composite ∧
      composite.name = site.name ∧ composite.origin = site.pointer.text ∧
      Wholesome context site ∧ Mirrors context t.catalog site composite := by
  obtain ⟨id, composite, rfl, hc, hname, horigin⟩ := hx.exists_composite
  obtain ⟨other, ho', hs', hname', horigin', hstub | ⟨hwholesome, hmirrors⟩⟩ :=
    h.fits.composites hc
  · cases hstub.symm.trans (h.filled hc)
  · have hsame := hR.unique ho' ho hs' hs (by rw [← hname', hname])
      (horigin'.symm.trans horigin)
    rw [hsame]
    rw [hsame] at hname horigin
    exact ⟨id, composite, rfl, hc, hname, horigin, hwholesome.reowned _, hmirrors.reowned _⟩

theorem body_of_covered (hR : context.document.Region R) (ho : R site)
    (hs : site.schema.isComposite = true) (hc : Covered context t site) :
    Wholesome context site ∧ ∃ composite, Mirrors context t.catalog site composite := by
  obtain ⟨x, shape, hshape, hx⟩ := hc
  rw [hshape.eq_of_composite hs] at hx
  obtain ⟨_, composite, -, -, -, -, hw, hm⟩ := h.mirrors_of_denotes hR ho hs hx
  exact ⟨hw, composite, hm⟩

theorem covers_member (hR : context.document.Region R) (ho : R site)
    (hs : site.schema.isComposite = true) (hc : Covered context t site) {m : Member}
    (hm : m ∈ site.schema.declaredMembers site.pointer) :
    Covered context t (m.site site.name) := by
  obtain ⟨-, composite, hmirrors⟩ := h.body_of_covered hR ho hs hc
  obtain ⟨_, x, shape, _, hshape, hx, -⟩ := hmirrors.properties.exists_becomes hm
  exact ⟨x, shape, hshape, hx⟩

theorem covers_base (hR : context.document.Region R) (ho : R site)
    (hs : site.schema.isComposite = true) (hc : Covered context t site) {part : BasePart}
    (hp : part ∈ site.schema.baseParts site.pointer) :
    Covered context t (part.site site.name) := by
  obtain ⟨-, composite, hmirrors⟩ := h.body_of_covered hR ho hs hc
  obtain ⟨id, shape, hshape, hx⟩ := exists_base hmirrors.base hp
  exact ⟨.composite id, shape, hshape, hx⟩

/-- Every schema that the definitions lead to has a type of its shape. -/
theorem covers (hR : context.document.Region R) (ho : context.document.HasSite site) :
    Covered context t site := by
  obtain ⟨p, ho⟩ := ho
  induction ho with
  | definition hd =>
    obtain ⟨-, x, shape, -, hs, hx⟩ := h.remembered hd
    exact ⟨x, shape, hs, hx⟩
  | items _ hr hi ih => exact ih.items hr hi
  | value _ hr ih => exact ih.value hr
  | property ho hs hm ih =>
    exact h.covers_member hR (hR.of_occurs ho) hs ih (Schema.property_mem_declaredMembers hm)
  | partProperty ho hs hp hr hm ih =>
    exact h.covers_member hR (hR.of_occurs ho) hs ih
      (Schema.partProperty_mem_declaredMembers hp hr hm)
  | base ho hs hp hr ih =>
    obtain ⟨text, ht⟩ := Option.ne_none_iff_exists'.mp hr
    exact h.covers_base hR (hR.of_occurs ho) hs ih (Schema.part_mem_baseParts hp ht)

/-- Where a resolution that covers a region finds no defect the region is lawful. -/
theorem lawful (hR : context.document.Region R)
    (hcovers : ∀ {site}, R site → Covered context t site) : Lawful context R where
  shaped ho := by
    obtain ⟨_, shape, hs, -⟩ := hcovers ho
    exact ⟨shape, hs⟩
  bodies ho hs := (h.body_of_covered hR ho hs (hcovers ho)).1
  composites {site other} ho ho' hs hs' hk := by
    obtain ⟨x, shape, hshape, hx⟩ := hcovers ho
    obtain ⟨y, shape', hshape', hy⟩ := hcovers ho'
    rw [hshape.eq_of_composite hs] at hx
    rw [hshape'.eq_of_composite hs'] at hy
    obtain ⟨i, composite, -, hc, hname, horigin⟩ := hx.exists_composite
    obtain ⟨j, composite', -, hc', hname', horigin'⟩ := hy.exists_composite
    obtain rfl := h.inv.keyed.id_eq hc hc' (by rw [hname, hname', hk])
    cases hc.symm.trans hc'
    exact horigin.symm.trans horigin'
  enums {site other key values values'} ho ho' hs hs' := by
    obtain ⟨x, shape, hshape, hx⟩ := hcovers ho
    obtain ⟨y, shape', hshape', hy⟩ := hcovers ho'
    obtain rfl := hshape.unique hs
    obtain rfl := hshape'.unique hs'
    exact (h.inv.enums.named_unique hx hy).2
  keys hd hd' hk := by
    have hc := (h.remembered hd).1
    rw [hk] at hc
    exact Option.some.inj (hc.symm.trans (h.remembered hd').1)
  malformed := (h.inv.nothing_failed h.clean).2

end Complete

theorem serves_within (hR : context.document.Region R) (last : State) :
    Serves context R last ((Scene.ofBuild context).within last) := fun _ _ _ _ h =>
  ⟨Scene.of_within h, fun ho hf hd => fits_within hR (Scene.of_within h) ho hf hd⟩

theorem top_within (hi : (Scene.ofBuild context).Inv s) {name : String}
    (h : resolveTop context (resolveSite context) name s = some (type, t)) :
    resolveTop context ((Scene.ofBuild context).within t) name s = some (type, t) ∧
      (Scene.ofBuild context).Reaches s t := by
  have hkeeps := Scene.resolveDefinition_keeps
    (Scene.resolveSite_keeps (Scene.ofBuild context) {}) hi name (Pointer.definition name) name
  exact ⟨Scene.definition_within hi h, (hkeeps.holds h).reaches⟩

theorem resolveDefinitions_induct (I : State → Prop) {names : List String}
    (hdefinition : ∀ {name s type u}, name ∈ names → (Scene.ofBuild context).Inv s →
      resolveTop context ((Scene.ofBuild context).within u) name s = some (type, u) →
      Extends s u → Grows u t → I s → I u)
    (hi : (Scene.ofBuild context).Inv s) (hs : I s)
    (h : resolveDefinitions context (resolveSite context) names s = some ((), t)) : I t := by
  induction names generalizing s with
  | nil =>
    cases h
    exact hs
  | cons name names ih =>
    obtain ⟨type, u, hu, h⟩ := resolveDefinitions_cons.mp h
    obtain ⟨hwithin, hreach⟩ := top_within hi hu
    have hgrows := (resolveDefinitions_reaches hreach.inv h).later.toGrows
    have hu := hdefinition (List.mem_cons_self ..) hi hwithin hreach.later hgrows hs
    exact ih (fun hm => hdefinition (List.mem_cons_of_mem _ hm)) hreach.inv hu h

theorem definitions_fit (hR : context.document.Region R)
    (hi : (Scene.ofBuild context).Inv s) (hf : Fits context R s) {names : List String}
    (hnames : ∀ name ∈ names, ∃ schema,
      Fields.get? context.document.definitions name = some schema) (hd : t.defects = [])
    (h : resolveDefinitions context (resolveSite context) names s = some ((), t)) :
    Fits context R t := by
  refine resolveDefinitions_induct (Fits context R) ?_ hi hf h
  intro name s type u hm hi hwithin _ hgrows hf
  obtain ⟨schema, hget⟩ := hnames name hm
  exact (definition_fits (serves_within hR u) hR hi hf (hgrows.clean hd)
    (Scene.definition?_of_get? hget) hwithin).1

theorem fits_reportMalformed (context : Context) :
    Fits context R (Build.reportMalformed context.document {}).2 := by
  have hempty : Fits context R {} := ⟨nofun, nofun, nofun, nofun⟩
  exact hempty.notes (Scene.reportMalformed_notes context.document {})

theorem complete_of_resolveDefinitions (hR : context.document.Region R) {names : List String}
    (hnames : ∀ name, name ∈ names ↔ ∃ schema,
      Fields.get? context.document.definitions name = some schema) (hd : t.defects = [])
    (h : resolveDefinitions context (resolveSite context) names
      (Build.reportMalformed context.document {}).2 = some ((), t)) : Complete context R t where
  inv := (resolveDefinitions_reaches (Scene.inv_reportMalformed context) h).inv
  fits := definitions_fit hR (Scene.inv_reportMalformed context) (fits_reportMalformed context)
    (fun name => (hnames name).mp) hd h
  clean := hd
  filled {id composite} hc := by
    obtain ⟨added, ha, hf⟩ := (resolveDefinitions_reaches
      (Scene.inv_reportMalformed context) h).later.composites
    rw [(Scene.reportMalformed_notes context.document {}).catalog_eq] at ha
    have hmem := List.mem_of_getElem? hc
    rw [ha] at hmem
    exact hf composite hmem
  defined hget := ((Scene.resolveDefinitions_keeps (Scene.resolveSite_keeps _ {})
    (Scene.inv_reportMalformed context) names).holds h).2
      (fun hm => Scene.marked_ofBuild.mp hm hd) _ ((hnames _).mpr ⟨_, hget⟩)

/-- From the definitions that are being resolved since the last object type was entered there are
ways to where the resolution is. -/
def Underway (context : Context) (s : State) (site : Site) : Prop :=
  ∀ key, Frame.definition key ∈ recent s.frames → ∃ name schema, caseKey name = key ∧
    Fields.get? context.document.definitions name = some schema ∧
    ReflTransGen (fun x y => Site.next? context.document x = some y) (definitionSite name schema)
      site

namespace Underway

theorem of_recent (h : recent s.frames = []) : Underway context s site := fun _ hk => by
  simp [h] at hk

theorem next (h : Underway context s site) (hx : site.next? context.document = some other)
    (hf : t.frames = s.frames) : Underway context t other := by
  intro key hk
  obtain ⟨name, schema, hn, hd, hway⟩ := h key (hf ▸ hk)
  exact ⟨name, schema, hn, hd, hway.tail hx⟩

theorem enter {name : String} {schema : Schema}
    (h : Underway context s (definitionSite name schema))
    (hd : Fields.get? context.document.definitions name = some schema) :
    Underway context (push (.definition (caseKey name)) s).2 (definitionSite name schema) := by
  have hrecent : ∀ key, Frame.definition key ∈ recent (.definition (caseKey name) :: s.frames) →
      key = caseKey name ∨ Frame.definition key ∈ recent s.frames := by simp [recent]
  intro key hk
  rcases hrecent key hk with rfl | hk
  · exact ⟨name, schema, rfl, hd, .refl⟩
  · exact h key hk

end Underway

def Succeeds (context : Context) (R : Site → Prop) (last : State) (r : Resolver) : Prop :=
  ∀ site s type t, r site s = some (type, t) → (Scene.ofBuild context).Within last site s type t ∧
    (R site → Fits context R s → s.defects = [] → Underway context s site → t.defects = [])

theorem Succeeds.serves (h : Succeeds context R last r) (hR : context.document.Region R) :
    Serves context R last r := fun _ _ _ _ hc =>
  ⟨(h _ _ _ _ hc).1, fun ho hf hd => fits_within hR (h _ _ _ _ hc).1 ho hf hd⟩

theorem warnUndeclared_defects (owner : String) (members : List Member) (required : List String)
    (s : State) : (warnUndeclared owner members required s).2.defects = s.defects := by
  unfold warnUndeclared
  generalize required.filter (fun name => !members.any (·.name == name)) = names
  induction names generalizing s with
  | nil => rfl
  | cons name rest ih => exact (ih _).trans rfl

theorem Wholesome.remarks (h : Wholesome context site) (s : State) :
    (remarks context site.name site.schema site.pointer s).defects = s.defects := by
  unfold Resolution.remarks discriminatorValue
  cases hx : site.schema.extension? context.settings.discriminatorValueExtension with
  | none => exact warnUndeclared_defects ..
  | some value =>
    obtain ⟨text, rfl⟩ := h.text hx
    exact warnUndeclared_defects ..

theorem Wholesome.absorb (h : Wholesome context site) {before : List Member} {m : Member}
    {properties : List Property} {x : ModelType} {shape : Shape}
    (hg : Gathered context R site before properties s u)
    (hbefore : ∀ n ∈ before, n ∈ site.schema.declaredMembers site.pointer)
    (hm : m ∈ site.schema.declaredMembers site.pointer) (hk : u.catalog.Keyed)
    (hs : Shaped context (m.site site.name) shape) (hx : Denotes u.catalog x shape) :
    (absorb context site.name (site.schema.declaredRequired site.pointer) m properties (some x)
      u).2 = u := by
  obtain ⟨-, constraints, hc⟩ := h.members m hm
  rw [absorb_ok hc]
  cases hfind : properties.find? (·.name == (memberProperty context.document
      (site.schema.declaredRequired site.pointer) m x constraints).name) with
  | none => rw [addProperty_new hfind]
  | some old =>
    rw [addProperty_again hfind]
    obtain ⟨n, hn, y, shape', _, hs', hy, -, rfl⟩ :=
      hg.properties.exists_member (List.mem_of_find?_eq_some hfind)
    have hname : n.name = m.name := by
      simpa [memberProperty] using List.find?_some hfind
    exact if_pos ((hy.compatible_iff hk hx).mpr (h.agree n (hbefore n hn) m hm hname hs' hs))

theorem internEnum_ne_none {e : EnumType} {name : String} (he : e.name = some name) (s : State)
    (h : ∀ id old, s.catalog.findEnum? name = some id → s.catalog.enum? id = some old →
      old.values = e.values) : (internEnum e s).1 ≠ none := by
  unfold internEnum
  simp only [Catalog.internEnum, he, Catalog.addAnonymousEnum]
  cases hf : s.catalog.findEnum? name with
  | none => exact Option.some_ne_none _
  | some id =>
    cases ho : s.catalog.enum? id with
    | none => simp [ho]
    | some old => simp [ho, h id old hf ho]

theorem buildScalar_clean {kind : Scalar}
    (h : scalarOf? context.settings site.schema = some kind) :
    (buildScalar context.settings site s).2.defects = s.defects := by
  unfold scalarOf? at h
  unfold buildScalar
  cases hf : Scalar.find site.schema.typeName site.schema.format with
  | ok kind => rfl
  | error reason =>
    rw [hf] at h
    cases reason with
    | type name => cases h
    | format typeName format fallback =>
      by_cases hl : context.settings.allowUnknownFormats
      · simp only [if_pos hl]
        rfl
      · simp [hl] at h

section Lawful

variable (hl : Lawful context R)
include hl

/-- No other node has taken the name of an object type. -/
theorem Lawful.not_clash (hk : s.catalog.Keyed) (hf : Fits context R s)
    (ho : R site) (hs : site.schema.isComposite = true) (d : Defect) :
    registerComposite site.name site.pointer s ≠ fail d s := by
  cases hfind : s.catalog.findComposite? site.name with
  | none =>
    rw [registerComposite_new hfind]
    exact fun he => nomatch congrArg Prod.fst he
  | some id =>
    obtain ⟨composite, hc, hname⟩ := (hk site.name id).mp hfind
    obtain ⟨other, ho', hs', hother, horigin, -⟩ := hf.composites hc
    have hsame := hl.composites ho' ho hs' hs (hother ▸ hname)
    have hreg : Registered s.catalog site := ⟨id, composite, hc, hname, horigin.trans hsame⟩
    exact hreg.not_clash hk d

theorem Lawful.enum_found (hk : s.catalog.EnumsKeyed) (hf : Fits context R s)
    (ho : R site) {listed : List Json}
    (hr : site.schema.route = .enumeration listed) {shape : Shape}
    (hs : Shaped context site shape) (d : Defect) :
    buildEnum context.settings site listed s ≠ fail d s := by
  intro hb
  have hb := congrArg Prod.fst hb
  unfold buildEnum at hb
  cases hs with
  | anonymous hr' hv hx =>
    cases hr.symm.trans hr'
    rw [hv] at hb
    simp only [hx] at hb
    cases hb
  | @named _ _ values extension hr' hv hx hblank =>
    cases hr.symm.trans hr'
    rw [hv] at hb
    simp only [hx, hblank, Bool.false_eq_true, if_false, step_bind] at hb
    have hname : (EnumType.mk (some (Enumeration.nameOf extension)) values false
      site.pointer.text).name = some (Enumeration.nameOf extension) := rfl
    refine internEnum_ne_none hname s (fun id old hid hold => ?_) (Option.map_eq_none_iff.mp hb)
    obtain ⟨e, given, he, hgiven, hkey⟩ := (hk.find _ id).mp hid
    cases hold.symm.trans he
    obtain ⟨other, shape', ho', hs', hx'⟩ := hf.enums he
    obtain rfl := hx'.shape_unique (.named he hgiven)
    rw [hkey] at hs'
    exact hl.enums ho' ho hs' (.named hr hv hx hblank)
  | reference hr' | sequence hr' | anything hr' | dictionary hr' | composite hr' | scalar hr' =>
    cases hr.symm.trans hr'

/-- A schema with a shape has a type. -/
theorem Lawful.not_refused (hk : s.catalog.EnumsKeyed) (hf : Fits context R s)
    (ho : R site) {shape : Shape} (hs : Shaped context site shape) :
    ¬ Refuses context site s t := by
  intro h
  cases h with
  | reference _ hr hp =>
    cases hs with
    | reference hr' hp' =>
      cases hr.symm.trans hr'
      exact hp _ hp'
    | _ hr' => cases hr.symm.trans hr'
  | enum d hr hb => exact hl.enum_found hk hf ho hr hs d hb
  | malformed _ hr => cases hs with | _ hr' => cases hr.symm.trans hr'
  | array _ hr hi =>
    cases hs with
    | sequence _ hi' => cases hi.symm.trans hi'
    | _ hr' => cases hr.symm.trans hr'
  | scalar hr hk =>
    cases hs with
    | scalar _ hk' => cases hk.symm.trans hk'
    | _ hr' => cases hr.symm.trans hr'

section Bodies

variable (hR : context.document.Region R) (hr : Succeeds context R last r)
  (ho : R site) (hs : site.schema.isComposite = true)
  (hf : Fits context R s) (hd : s.defects = []) (hinside : recent s.frames = [])
include hR hr ho hs hf hd hinside

theorem base_clean {base : Option CompositeId}
    (h : resolveBase r site.name (site.schema.baseParts site.pointer) s = some (base, t)) :
    t.defects = [] := by
  have hw := hl.bodies ho hs
  cases hparts : site.schema.baseParts site.pointer with
  | nil =>
    rw [hparts] at h
    cases h
    exact hd
  | cons part others =>
    have hmem : part ∈ site.schema.baseParts site.pointer := hparts ▸ List.mem_cons_self ..
    have hothers := hw.oneBase
    rw [hparts] at h hothers
    obtain rfl : others = [] := by simpa using hothers
    obtain ⟨type, u, hu, rfl, rfl⟩ := resolveBase_cons.mp h
    have hq := hR.base ho hs hmem
    have hclean := (hr _ _ _ _ hu).2 hq hf hd (.of_recent hinside)
    obtain ⟨-, x, shape, rfl, hshape, hx⟩ := ((hr.serves hR) _ _ _ _ hu).2 hq hf hclean
    obtain ⟨name, origin, hobject⟩ := hw.bases part hmem
    obtain rfl := hshape.unique hobject
    cases hx with
    | composite => exact hclean

theorem members_clean {properties : List Property}
    (h : resolveMembers context r site.name (site.schema.declaredRequired site.pointer)
      (site.schema.declaredMembers site.pointer) s = some (properties, t)) : t.defects = [] := by
  have hw := hl.bodies ho hs
  refine (resolveMembers_induct (fun before ps u => (∀ n ∈ before,
    n ∈ site.schema.declaredMembers site.pointer) ∧ Gathered context R site before ps s u ∧
      u.defects = []) (fun before m after ps u type v hl' ⟨hbefore, hg, hu⟩ hv => ?_)
    ⟨List.forall_mem_nil _, ⟨.refl s, hf, .nil, List.forall_mem_nil _⟩, hd⟩ h).2.2
  have hm : m ∈ site.schema.declaredMembers site.pointer := by simp [hl']
  have hq := hR.member ho hs hm
  obtain ⟨hwithin, hclean⟩ := hr _ _ _ _ hv
  have hrecent : recent u.frames = [] := by rw [hg.later.frames, hinside]
  have hclean := hclean hq hg.fits hu (.of_recent hrecent)
  obtain ⟨hfits, x, shape, rfl, hshape, hx⟩ := ((hr.serves hR) _ _ _ _ hv).2 hq hg.fits hclean
  have hg := hg.mono hwithin.later hfits
  have hafter := congrArg State.defects (hw.absorb hg hbefore hm hwithin.inv_end.keyed hshape hx)
  rw [hclean] at hafter
  refine ⟨?_, hg.absorb hwithin.inv_end.keyed hshape hx hafter, hafter⟩
  intro n hn
  rcases List.mem_append.mp hn with hn | hn
  · exact hbefore n hn
  · exact List.mem_singleton.mp hn ▸ hm

end Bodies

theorem populate_clean (hR : context.document.Region R) (hr : Succeeds context R last r)
    (ho : R site) (hs : site.schema.isComposite = true)
    (hf : Fits context R s) (hd : s.defects = []) {old : List Composite}
    (hc : s.catalog.composites = old ++ [.stub site.name site.pointer.text])
    (h : populate context r ⟨old.length⟩ site.schema site.pointer s = some ((), t)) :
    t.defects = [] := by
  obtain ⟨base, u, properties, v, hb, hm, rfl⟩ := populate_eq_some.mp h
  have hname : s.catalog.nameOf ⟨old.length⟩ = site.name := by
    simp only [Catalog.nameOf, Catalog.composite?_of_composites hc]
    rfl
  rw [hname] at hb hm ⊢
  have hu := base_clean hl hR hr ho hs (hf.push .composite) hd rfl hb
  obtain ⟨hlater, hfits, -⟩ := base_fits hR (hr.serves hR) ho hs (hf.push .composite) hu hb
  have hv := members_clean hl hR hr ho hs hfits hu (by rw [hlater.frames]; rfl) hm
  exact ((hl.bodies ho hs).remarks v).trans hv

theorem settles_clean (hR : context.document.Region R) (hr : Succeeds context R last r)
    (hi : (Scene.ofBuild context).Inv s) (hf : Fits context R s) (hd : s.defects = [])
    {name : String} {schema : Schema} (hc : Fields.get? s.claimed (caseKey name) = some name)
    (hget : Fields.get? context.document.definitions name = some schema)
    (hround : comesRound s.frames (caseKey name) = false)
    (hway : Underway context s (definitionSite name schema))
    (h : Settles context r name schema s type t) : t.defects = [] := by
  have ho : R (definitionSite name schema) := hR.definition hget
  cases h with
  | remembered | failed | known => exact hd
  | @clash d _ _ hs hreg => exact absurd hreg (hl.not_clash hi.keyed hf ho hs d)
  | opened _ _ hs _ hp =>
    exact populate_clean hl hR hr ho hs (hf.opened hR hc hget hs) hd rfl hp
  | round _ _ _ hc => exact nomatch hround.symm.trans hc
  | lost _ _ _ _ hu | found _ _ _ _ hu =>
    exact (hr _ _ _ _ hu).2 ho (hf.push _) hd (hway.enter hget)

theorem definition_clean (hR : context.document.Region R) (hr : Succeeds context R last r)
    (hi : (Scene.ofBuild context).Inv s) (hf : Fits context R s) (hd : s.defects = [])
    {name canonical owner : String} {pointer : Pointer} {schema : Schema}
    (hfound : context.document.definition? name = some (canonical, schema))
    (hround : comesRound s.frames (caseKey canonical) = false)
    (hway : Underway context s (definitionSite canonical schema))
    (h : resolveDefinition context r name pointer owner s = some (type, t)) :
    t.defects = [] := by
  have hget := Scene.get?_of_definition? hfound
  obtain ⟨hnone, -⟩ | ⟨_, _, hfound', ⟨d, hk, -, -⟩ | ⟨u, hk, hs⟩⟩ := resolveDefinition_cases h
  · cases hnone.symm.trans hfound
  · cases hfound.symm.trans hfound'
    obtain ⟨first, hfirst, hne⟩ := claimKey_taken hk
    obtain ⟨hkey, schema', hget'⟩ := hf.claims hfirst
    exact absurd (hl.keys hget' hget hkey) hne
  · cases hfound.symm.trans hfound'
    obtain ⟨hi', hc⟩ := inv_of_claimKey hi hk
    have hframes := (claimKey_kept hk).1
    refine settles_clean hl hR hr hi' (hf.claimKey hget hk) ?_ hc hget (hframes ▸ hround)
      (fun key hm => hway key (hframes ▸ hm)) hs
    obtain ⟨-, rfl⟩ | ⟨-, rfl⟩ := claimed_cases hk
    · exact hd
    · exact hd

theorem step_clean (hR : context.document.Region R) (hr : Succeeds context R last r)
    (hi : (Scene.ofBuild context).Inv s) (ho : R site)
    (hf : Fits context R s) (hd : s.defects = []) (hway : Underway context s site)
    (h : resolveStep context r site s = some (type, t)) : t.defects = [] := by
  obtain ⟨shape, hshape⟩ := hl.shaped ho
  have hstep := h
  cases resolveStep_takes h with
  | refused hrefused => exact absurd hrefused (hl.not_refused hi.enums hf ho hshape)
  | @reference text name _ _ href hp h =>
    have hroute := Schema.route_of_reference href
    cases hshape with
    | @reference _ _ name' canonical schema _ hr' hp' hfound hs =>
      cases hroute.symm.trans hr'
      cases hp.symm.trans hp'
      have hnext : site.next? context.document = some (definitionSite canonical schema) := by
        rw [Site.next?_reference href hp, hfound]
        rfl
      refine definition_clean hl hR hr hi hf hd hfound ?_ (hway.next hnext rfl) h
      -- A definition that is entered again is on the way to itself.
      by_contra hround
      obtain ⟨name', schema', hkey, hget, hpath⟩ :=
        hway _ (mem_recent (Bool.eq_true_of_not_eq_false hround))
      have hget' := Scene.get?_of_definition? hfound
      obtain rfl := hl.keys hget hget' hkey
      cases hget.symm.trans hget'
      exact hs.not_round (TransGen.tail' hpath hnext)
    | _ hr' => cases hroute.symm.trans hr'
  | enum href hlisted h =>
    obtain ⟨d, hb⟩ | ⟨values, -, ⟨-, hb⟩ | ⟨extension, -, ⟨-, hb⟩ | ⟨id, -, -, hb⟩⟩⟩ :=
      buildEnum_cases context.settings site _ s
    all_goals cases h.symm.trans hb
    all_goals exact hd
  | @sequence clash items element _ hroute hitems h =>
    cases hshape with
    | sequence hr' =>
      cases hroute.symm.trans hr'
      exact (hr _ _ _ _ h).2 (hR.items ho hroute hitems) hf hd
        (hway.next (Site.next?_array hroute hitems) rfl)
    | _ hr' => cases hroute.symm.trans hr'
  | anything => exact hd
  | dictionary hroute h =>
    exact (hr _ _ _ _ h).2 (hR.value ho hroute) hf hd (hway.next (Site.next?_dictionary hroute) rfl)
  | inline hs h =>
    obtain ⟨d, hreg, -, -⟩ | ⟨id, -, -, -, rfl⟩ | ⟨-, -, hp⟩ := buildInline_cases h
    · exact absurd hreg (hl.not_clash hi.keyed hf ho hs d)
    · exact hd
    · exact populate_clean hl hR hr ho hs (hf.withStub ho hs) hd rfl hp
  | scalar hroute hk =>
    have hsame := buildScalar_clean (s := s) hk
    simp only [resolveStep, hroute] at hstep
    rw [show buildScalar context.settings site s = _ from Option.some.inj hstep] at hsame
    exact hsame.trans hd

theorem Lawful.clean_within (hR : context.document.Region R)
    (h : (Scene.ofBuild context).Within last site s type t)
    (ho : R site) (hf : Fits context R s) (hd : s.defects = [])
    (hway : Underway context s site) : t.defects = [] := by
  refine Scene.induct (P := fun site s _ t => R site → Fits context R s →
    s.defects = [] → Underway context s site → t.defects = [])
    (fun r site s type t hw hr ht ho hf hd hway => ?_) h ho hf hd hway
  exact step_clean hl hR (fun _ _ _ _ h' => hr _ _ _ _ h') hw.inv ho hf hd hway ht

/-- A resolution of definitions of a lawful document finds no defect, in whatever order. -/
theorem definitions_clean (hR : context.document.Region R) {names : List String}
    (hnames : ∀ name ∈ names, ∃ schema,
      Fields.get? context.document.definitions name = some schema)
    (hi : (Scene.ofBuild context).Inv s) (hf : Fits context R s) (hd : s.defects = [])
    (hframes : s.frames = [])
    (h : resolveDefinitions context (resolveSite context) names s = some ((), t)) :
    t.defects = [] := by
  suffices ht : Fits context R t ∧ t.defects = [] ∧ t.frames = [] from ht.2.1
  refine resolveDefinitions_induct
    (fun u => Fits context R u ∧ u.defects = [] ∧ u.frames = []) ?_ hi ⟨hf, hd, hframes⟩ h
  rintro name s type u hm hi hwithin hlater - ⟨hf, hd, hframes⟩
  obtain ⟨schema, hget⟩ := hnames name hm
  have hfound := Scene.definition?_of_get? hget
  have hsucceeds : Succeeds context R u ((Scene.ofBuild context).within u) := fun _ _ _ _ hc =>
    ⟨Scene.of_within hc, fun ho hf hd hway =>
      hl.clean_within hR (Scene.of_within hc) ho hf hd hway⟩
  have hclean := definition_clean hl hR hsucceeds hi hf hd hfound (by rw [hframes]; rfl)
    (.of_recent (by rw [hframes]; rfl)) hwithin
  have hfits := definition_fits (serves_within hR u) hR hi hf hclean hfound hwithin
  exact ⟨hfits.1, hclean, hlater.frames.trans hframes⟩

end Lawful

end ApiModel.Resolution
