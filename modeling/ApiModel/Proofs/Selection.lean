import ApiModel.Grammars
import ApiModel.Proofs.Tours
import ApiModel.Proofs.Embeddings
import ApiModel.Proofs.Reordering
import ApiModel.Proofs.SelfReferences

/-! # Fewer operations

A build that leaves out operations finds a part of what a build with them finds. What it leaves out
are types that only those operations lead to; nothing depends on them that it still has.
-/

namespace ApiModel

open Resolution Hierarchy Build
open Text (caseKey)
open Relation (ReflTransGen TransGen)

variable {d : Document} {settings : Settings} {included excluded : List String}

def Settings.selecting (s : Settings) (included excluded : List String) : Settings :=
  { s with includeOperations := included, excludeOperations := excluded }

def Document.selected (d : Document) (settings : Settings) : List Operation :=
  (operationsOf d).filter (·.isSelected settings)

theorem Document.selected_subset (d : Document) (settings : Settings) :
    d.selected settings ⊆ operationsOf d := List.filter_sublist.subset

section Narrower

variable {narrow : Settings}
  (hsub : ∀ o ∈ operationsOf d, o.isSelected narrow = true → o.isSelected settings = true)
include hsub

theorem Document.filter_selected :
    (d.selected settings).filter (·.isSelected narrow) = d.selected narrow := by
  unfold Document.selected
  rw [List.filter_filter]
  refine List.filter_congr fun o ho => ?_
  cases hn : o.isSelected narrow with
  | false => rfl
  | true => simp [hsub o ho hn]

theorem Document.selected_subset_selected : d.selected narrow ⊆ d.selected settings := by
  rw [← Document.filter_selected hsub]
  exact List.filter_sublist.subset

end Narrower

namespace Resolution

variable {grammars : Grammars}

theorem resolveStep_selecting :
    resolveStep ⟨d, settings.selecting included excluded⟩ = resolveStep ⟨d, settings⟩ := rfl

theorem resolveSite_selecting :
    resolveSite ⟨d, settings.selecting included excluded⟩ = resolveSite ⟨d, settings⟩ := by
  have hresolve : ∀ n, resolve ⟨d, settings.selecting included excluded⟩ n =
      resolve ⟨d, settings⟩ n := fun n => by
    induction n with
    | zero => rfl
    | succ n ih =>
      funext site
      show resolveStep _ (resolve _ n) site = resolveStep _ (resolve _ n) site
      rw [resolveStep_selecting, ih]
  funext site
  unfold resolveSite
  rw [hresolve]

theorem resolveDefinitions_selecting (names : List String) :
    resolveDefinitions ⟨d, settings.selecting included excluded⟩
        (resolveSite ⟨d, settings.selecting included excluded⟩) names =
      resolveDefinitions ⟨d, settings⟩ (resolveSite ⟨d, settings⟩) names := by
  rw [resolveSite_selecting]
  rfl

/-- Operations that are not selected might as well not be there. -/
theorem buildMethods_filter {narrow : Settings} {r : Resolver} {operations : List Operation}
    (ho : ∀ o ∈ operations, ∃ id, o.node.operationId = some id)
    (hsub : ∀ o ∈ operations, o.isSelected narrow = true → o.isSelected settings = true) :
    buildMethods ⟨d, narrow⟩ r operations =
      buildMethods ⟨d, settings⟩ r (operations.filter (·.isSelected narrow)) := by
  unfold buildMethods
  generalize ([] : List Method) = before
  induction operations generalizing before with
  | nil => rfl
  | cons o rest ih =>
    obtain ⟨⟨id, hid⟩, ho⟩ := List.forall_mem_cons.mp ho
    obtain ⟨hselected, hsub⟩ := List.forall_mem_cons.mp hsub
    have hbuild : ∀ s : Settings, buildMethod ⟨d, s⟩ r o =
        if o.isSelected s then some <$> buildSelected ⟨d, settings⟩ r o id else pure none := by
      intro s
      simp only [buildMethod, hid, Operation.isSelected, Option.any_some]
      split <;> rfl
    cases hnarrow : o.isSelected narrow with
    | false =>
      rw [List.filter_cons, if_neg (by simp [hnarrow]), List.foldlM_cons, hbuild, hnarrow]
      simp only [Bool.false_eq_true, if_false, pure_bind, Option.toList_none, List.append_nil]
      exact ih ho hsub before
    | true =>
      rw [List.filter_cons, if_pos hnarrow, List.foldlM_cons, List.foldlM_cons, hbuild, hbuild,
        hnarrow, hselected hnarrow]
      congr 1
      funext next
      exact ih ho hsub next

variable {context : Context} {R : Site → Prop} {operations : List Operation}
  {methods : List Method} {s t u : State}

theorem Complete.mono (h : Complete context R s) (hreach : (Scene.ofBuild context).Reaches s t)
    (hf : Fits context R t) (hd : t.defects = []) : Complete context R t where
  inv := hreach.inv
  fits := hf
  clean := hd
  filled {id composite} hc := by
    obtain ⟨added, hadded, hfilled⟩ := hreach.later.composites
    have hmem := List.mem_of_getElem? hc
    rw [hadded] at hmem
    rcases List.mem_append.mp hmem with hmem | hmem
    · obtain ⟨i, hi⟩ := List.mem_iff_getElem?.mp hmem
      exact h.filled (show s.catalog.composite? ⟨i⟩ = some composite from hi)
    · exact hfilled composite hmem
  defined hget := by
    obtain ⟨canonical, schema, x, hfound, hx, hclaimed⟩ := h.defined hget
    exact ⟨canonical, schema, x, hfound, hreach.later.resolved hx, hreach.later.claimed hclaimed⟩

theorem Complete.covers_spanned (h : Complete context R t) (hR : context.document.Region R)
    {K : Site → Prop} (hK : ∀ x, K x → R x ∧ Covered context t x) {site : Site}
    (hsite : site.Spanned K) : R site ∧ Covered context t site := by
  induction hsite with
  | start hx => exact hK _ hx
  | nested _ hother ih =>
    obtain ⟨_, _, hr, hi, rfl⟩ | ⟨_, hr, rfl⟩ | ⟨hs, ⟨m, hm, rfl⟩ | ⟨part, hp, rfl⟩⟩ :=
      Site.mem_nested.mp hother
    · exact ⟨hR.items ih.1 hr hi, ih.2.items hr hi⟩
    · exact ⟨hR.value ih.1 hr, ih.2.value hr⟩
    · exact ⟨hR.member ih.1 hs hm, h.covers_member hR ih.1 hs ih.2 hm⟩
    · exact ⟨hR.base ih.1 hs hp, h.covers_base hR ih.1 hs ih.2 hp⟩

section Methods

variable (hR : context.document.Region R) (hu : Complete context R u)
  (ho : operations ⊆ operationsOf context.document)
  (hsound : ∀ o ∈ operations, o.isSelected context.settings = true ∧
    o.Sound context.document context.grammars)
  (hsites : ∀ site ∈ context.document.sitesOf operations, R site)
  (hbuild : buildMethods context (resolveSite context) operations u = some (methods, t))
include hR hu ho hsound hsites hbuild

omit hR hsites in
theorem tour_within : Tour ((Scene.ofBuild context).within t) u
    (context.document.sitesOf operations) t :=
  buildMethods_tour hsound (Scene.run_within (S := Scene.ofBuild context)
    (fun r => buildMethods context r operations) (fun _ hr =>
      Scene.buildMethods_keeps hr hu.inv fun _ hm => Scene.standsIn_ofBuild (ho hm)) hbuild)

theorem methods_clean (hl : Lawful context R) (hframes : u.frames = []) : t.defects = [] :=
  (tour_within hu ho hsound hbuild).clean hl hR hsites hu.fits hu.clean hframes

theorem methods_complete (hn : context.document.NamesOnce) (hd : t.defects = []) :
    Complete context R t ∧
    ∀ {site}, context.document.Touches operations site → Covered context t site := by
  obtain ⟨hf, hcovered⟩ := (tour_within hu ho hsound hbuild).fits hR hsites hu.fits hd
  have hc := hu.mono (buildMethods_reaches hu.inv ho hbuild) hf hd
  refine ⟨hc, fun {site} hsite => (hc.covers_spanned hR (fun x hx => ?_) hsite).2⟩
  rcases hx with hx | hx
  · obtain ⟨⟨name, s⟩, hp, rfl⟩ := List.mem_map.mp hx
    have ho : context.document.HasSite (definitionSite name s) :=
      ⟨_, .definition (Fields.get?_of_mem hn.definitions hp)⟩
    exact ⟨hR.of_occurs ho.choose_spec, hc.covers hR ho⟩
  · exact ⟨hsites x hx, hcovered x hx⟩

end Methods

/-- A complete catalog is embedded in one that covers where it has its composites from. -/
theorem exists_embeds (h : Complete context R s) (h' : Complete context R t)
    (hR : context.document.Region R) (hb : s.catalog.BasesWithin)
    (hcovered : ∀ {site}, R site → Covered context t site) :
    ∃ ρ, Catalog.Embeds ρ s.catalog t.catalog := by
  have hfound : ∀ id, ∃ other, ∀ x, s.catalog.composite? id = some x →
      ∃ y site, t.catalog.composite? other = some y ∧ y.name = x.name ∧ y.origin = x.origin ∧
        Mirrors context s.catalog site x ∧ Mirrors context t.catalog site y := by
    intro id
    cases hx : s.catalog.composite? id with
    | none => exact ⟨id, nofun⟩
    | some x =>
      obtain ⟨site, ho, hs, hname, horigin, hstub | ⟨-, hm⟩⟩ := h.fits.composites hx
      · cases hstub.symm.trans (h.filled hx)
      · obtain ⟨type, shape, hshape, hy⟩ := hcovered ho
        rw [hshape.eq_of_composite hs] at hy
        obtain ⟨other, y, -, hy, hname', horigin', -, hm'⟩ := h'.mirrors_of_denotes hR ho hs hy
        refine ⟨other, fun x' hx' => ?_⟩
        cases hx'
        exact ⟨y, site, hy, hname'.trans hname.symm, horigin'.trans horigin.symm, hm, hm'⟩
  choose ρ hρ using hfound
  refine ⟨ρ, h.inv.keyed, h'.inv.keyed, hb, fun {id x} hx => ?_⟩
  obtain ⟨y, site, hy, hname, horigin, hm, hm'⟩ := hρ id x hx
  refine ⟨y, hy, hname, horigin, ?_, hm'.discriminator.trans hm.discriminator.symm,
    hm'.value.trans hm.value.symm, ?_⟩
  · refine base_eq (fun {i j shape} hi hj => ?_) hm.base hm'.base
    cases hi with
    | composite hc =>
      obtain ⟨y', -, hy', hname', -⟩ := hρ i _ hc
      obtain ⟨_, z, hj, hz, hname, -⟩ := hj.exists_composite
      cases hj
      exact h'.inv.keyed.id_eq hz hy' (congrArg caseKey (hname.trans hname'.symm))
  · refine hm.properties.forall₂ (S := fun p q => q.name = p.name ∧
      SameShape s.catalog t.catalog p.type q.type) ?_ (fun hpq => hpq.1) hm'.properties
    rintro m p q ⟨_, shape, _, hs, hx, -, rfl⟩ ⟨_, shape', _, hs', hx', -, rfl⟩
    obtain rfl := hs.unique hs'
    exact ⟨rfl, shape, hx, hx'⟩

end Resolution

/-- What is left after the definitions, after the operations that one selection has, and after those
that a narrower selection has. -/
structure Narrowed (context : Context) (wide narrow : List Operation) (u t t' : State) : Prop where
  later : Extends u t
  later' : Extends u t'
  fits : Fits context (context.document.Touches wide) t
  covered : ∀ {site}, context.document.Touches narrow site → Covered context t' site
  inOrder : t.catalog.InOrder
  inOrder' : t'.catalog.InOrder
  bases : t.catalog.BasesWithin
  embeds : ∃ ρ, Catalog.Embeds ρ t'.catalog t.catalog

/-- A method by its operation, its address and the names of its parameters. -/
def Method.outline (m : Method) : String × HttpMethod × String × List String :=
  (m.operationId, m.httpMethod, m.url, m.parameters.map (·.name))

theorem map_outline {context : Context} {c : Catalog} {types : String → Option ModelType}
    {operations : List Operation} {methods : List Method}
    (h : List.Forall₂ (MethodOf context c types) operations methods) :
    (operations.map fun o => (o.node.operationId, o.method, o.path,
      (mergedParameters context.document o.declared).map (·.node.name))) =
    (methods.map Method.outline).map fun x => (some x.1, x.2.1, x.2.2.1, x.2.2.2.map some) := by
  rw [List.map_map]
  refine map_eq_of_forall₂ h fun o m hm => ?_
  have hnames := map_eq_of_forall₂ (g := fun p : Parameter => some p.name) hm.parameters
    fun d p hp => hp.name
  simp [Method.outline, hm.operationId, hm.httpMethod, hm.url, hnames]

theorem sound_of_resolveAll [grammars : Grammars] {methods : List Method} {t : State}
    (hall : resolveAll ⟨d, settings⟩ (resolveSite ⟨d, settings⟩) {} = some (methods, t))
    (hd : t.defects = []) {o : Operation} (ho : o ∈ d.selected settings) :
    o.isSelected settings = true ∧ o.Sound d grammars := by
  have hf := (Scene.resolveAll_keeps (Scene.resolveSite_keeps (Scene.ofBuild _) {})).holds hall
  obtain ⟨x, -, hx⟩ := exists_of_mem_forall₂ (hf.methods hd).flip ho
  exact ⟨(List.mem_filter.mp ho).2, hx.sound⟩

section Narrow

variable {grammars : Grammars} {narrow : Settings} {m : ClientModel}

theorem exists_complete (hn : d.NamesOnce) (hspelled : d.SpelledOnce (d.selected settings))
    {methods : List Method} {t : State}
    (hall : resolveAll ⟨d, settings⟩ (resolveSite ⟨d, settings⟩) {} = some (methods, t))
    (hd : t.defects = []) :
    ∃ u, resolveDefinitions ⟨d, settings⟩ (resolveSite ⟨d, settings⟩) (Fields.keys d.definitions)
        (reportMalformed d {}).2 = some ((), u) ∧ Extends u t ∧ u.frames = [] ∧
      Complete ⟨d, settings⟩ (d.Touches (d.selected settings)) u ∧
      Complete ⟨d, settings⟩ (d.Touches (d.selected settings)) t ∧
      (∀ {site}, d.Touches (d.selected settings) site → Covered ⟨d, settings⟩ t site) ∧
      Lawful ⟨d, settings⟩ (d.Touches (d.selected settings)) := by
  have hR := hn.region_touches (d.selected_subset settings) hspelled
  obtain ⟨u, hu, hbuild⟩ := resolveAll_eq_some hall
  have hstart := Scene.reportMalformed_notes d {}
  have hreach := resolveDefinitions_reaches (Scene.inv_reportMalformed ⟨d, settings⟩) hu
  have hlater := (buildMethods_reaches hreach.inv (List.Subset.refl _) hbuild).later
  have hcu := complete_of_resolveDefinitions hR (mem_keys_iff (.refl _))
    (hlater.toGrows.clean hd) hu
  rw [buildMethods_filter (fun o ho => exists_operationId hall hd ho) fun _ _ ho => ho] at hbuild
  obtain ⟨hct, hcovered⟩ := methods_complete hR hcu (d.selected_subset settings)
    (fun o ho => sound_of_resolveAll hall hd ho) (fun _ => .of_sitesOf (List.Subset.refl _))
    hbuild hn hd
  exact ⟨u, hu, hlater, hreach.later.frames.trans hstart.frames_eq, hcu, hct,
    hcovered, hct.lawful hR hcovered⟩

/-- Of the operations of a lawful document those that a narrower selection has find no defect. -/
theorem narrow_complete (hn : d.NamesOnce) (hspelled : d.SpelledOnce (d.selected settings))
    (hsub : ∀ o ∈ operationsOf d, o.isSelected (settings.selecting included excluded) = true →
      o.isSelected settings = true)
    (hids : ∀ o ∈ operationsOf d, ∃ id, o.node.operationId = some id)
    (hsound : ∀ o ∈ d.selected settings, o.isSelected settings = true ∧ o.Sound d grammars)
    {methods : List Method} {u t : State}
    (hu : resolveDefinitions ⟨d, settings⟩ (resolveSite ⟨d, settings⟩)
      (Fields.keys d.definitions) (reportMalformed d {}).2 = some ((), u))
    (hframes : u.frames = []) (hc : Complete ⟨d, settings⟩ (d.Touches (d.selected settings)) u)
    (hl : Lawful ⟨d, settings⟩ (d.Touches (d.selected settings)))
    (hall : resolveAll ⟨d, settings.selecting included excluded⟩
      (resolveSite ⟨d, settings.selecting included excluded⟩) {} = some (methods, t)) :
    t.defects = [] ∧ Extends u t ∧
      Complete ⟨d, settings⟩ (d.Touches (d.selected settings)) t ∧
      ∀ {site}, d.Touches (d.selected (settings.selecting included excluded)) site →
        Covered ⟨d, settings⟩ t site := by
  have hR := hn.region_touches (d.selected_subset settings) hspelled
  obtain ⟨u', hu', hbuild⟩ := resolveAll_eq_some hall
  rw [resolveDefinitions_selecting] at hu'
  cases hu.symm.trans hu'
  rw [resolveSite_selecting, buildMethods_filter hids hsub] at hbuild
  have hselected := Document.selected_subset_selected hsub
  have hsound' := fun o ho => hsound o (hselected ho)
  have hd := methods_clean hR hc (d.selected_subset _) hsound'
    (fun _ => .of_sitesOf hselected) hbuild hl hframes
  exact ⟨hd, (buildMethods_reaches hc.inv (d.selected_subset _) hbuild).later,
    methods_complete hR hc (d.selected_subset _) hsound' (fun _ => .of_sitesOf hselected) hbuild
      hn hd⟩

theorem exists_narrowed (hn : d.NamesOnce)
    (hsub : ∀ o ∈ operationsOf d, o.isSelected (settings.selecting included excluded) = true →
      o.isSelected settings = true)
    (hspelled : d.SpelledOnce (d.selected settings))
    (hm : (run ⟨d, settings⟩).result = .ok m) :
    ∃ m' u t t', (run ⟨d, settings.selecting included excluded⟩).result = .ok m' ∧
      resolveDefinitions ⟨d, settings⟩ (resolveSite ⟨d, settings⟩) (Fields.keys d.definitions)
        (reportMalformed d {}).2 = some ((), u) ∧
      m.catalog = settled t.catalog ∧ m'.catalog = settled t'.catalog ∧
      Narrowed ⟨d, settings⟩ (d.selected settings)
        (d.selected (settings.selecting included excluded)) u t t' := by
  have hR := hn.region_touches (d.selected_subset settings) hspelled
  obtain ⟨methods, t, hall, hrun⟩ := run_eq_conclude ⟨d, settings⟩
  rw [hrun] at hm
  obtain ⟨hd, hh, url, hurl, rfl⟩ := conclude_eq_ok_iff.mp hm
  have hf := (Scene.resolveAll_keeps (Scene.resolveSite_keeps (Scene.ofBuild _) {})).holds hall
  -- The second build starts from the same definitions, so it cannot fail on its way.
  obtain ⟨u, hu, hlater, hframes, hcu, hct, hcovers, hl⟩ := exists_complete hn hspelled hall hd
  obtain ⟨methods', t', hall', hrun'⟩ := run_eq_conclude
    ⟨d, settings.selecting included excluded⟩
  have hf' := (Scene.resolveAll_keeps (Scene.resolveSite_keeps (Scene.ofBuild _) {})).holds hall'
  obtain ⟨hd', hlater', hct', hcovered⟩ := narrow_complete hn hspelled hsub
    (fun o ho => exists_operationId hall hd ho) (fun o ho => sound_of_resolveAll hall hd ho)
    hu hframes hcu hl hall'
  -- Its catalog is a part of the first one, so its hierarchies are in order.
  obtain ⟨ρ, hρ⟩ := exists_embeds hct' hct hR hf'.valid.bases hcovers
  have ho := (defects_eq_nil_iff_inOrder hf.valid).mp hh
  have ho' := hρ.inOrder ho
  refine ⟨modelOf ⟨d, settings.selecting included excluded⟩ url methods' t', u, t, t', ?_, hu,
    rfl, rfl, ?_⟩
  · rw [hrun']
    exact conclude_eq_ok_iff.mpr
      ⟨hd', (defects_eq_nil_iff_inOrder hf'.valid).mpr ho', url, hurl, rfl⟩
  · exact {
      later := hlater
      later' := hlater'
      fits := hct.fits
      covered := hcovered
      inOrder := ho
      inOrder' := ho'
      bases := hf.valid.bases
      embeds := ⟨ρ, hρ⟩ }

theorem outlines_narrow {narrow : Settings} {m' : ClientModel}
    (hsub : ∀ o ∈ operationsOf d, o.isSelected narrow = true → o.isSelected settings = true)
    (hm : (run ⟨d, settings⟩).result = .ok m) (hm' : (run ⟨d, narrow⟩).result = .ok m') :
    m'.methods.map Method.outline =
      (m.methods.filter fun x => narrow.includes x.operationId).map Method.outline := by
  obtain ⟨t, -, hf, hd, -, -⟩ := Scene.finished_of_run hm
  obtain ⟨t', -, hf', hd', -, -⟩ := Scene.finished_of_run hm'
  have hwide := map_outline (hf.methods hd)
  have hnarrow := map_outline (hf'.methods hd')
  have hinj : Function.Injective fun x : String × HttpMethod × String × List String =>
      (some x.1, x.2.1, x.2.2.1, x.2.2.2.map some) := by
    rintro ⟨id, method, url, names⟩ ⟨id', method', url', names'⟩ h
    simp only [Prod.mk.injEq, Option.some.injEq] at h
    obtain ⟨rfl, rfl, rfl, hnames⟩ := h
    rw [List.map_injective_iff.mpr (Option.some_injective _) hnames]
  have hwide := congrArg (List.filter fun x => x.1.any narrow.includes) hwide
  rw [List.filter_map, List.filter_map, List.filter_map] at hwide
  refine List.map_injective_iff.mpr hinj (hnarrow.symm.trans (Eq.trans ?_ hwide))
  exact congrArg _ (Document.filter_selected hsub).symm

end Narrow

/-- Some operations lead to an object type with the name and the origin of a composite. -/
def Composite.StemsFrom (x : Composite) (d : Document) (operations : List Operation) : Prop :=
  ∃ site, Site.Spanned (· ∈ d.sitesOf operations) site ∧ site.schema.isComposite = true ∧
    x.name = site.name ∧ x.origin = site.pointer.text

/-- A composite is the same in two models, but that fewer types are derived from it in the second
one. Those that it lacks are made after the definitions, and by none but some lost operations. -/
structure Composite.Keeps (d : Document) (defined : Catalog) (narrow lost : List Operation)
    (m m' : ClientModel) (x y : Composite) : Prop where
  same : y = { x with derived := y.derived }
  fewer : ∀ b ∈ y.derived, ∃ a ∈ x.derived, m.catalog.Twins m'.catalog a b
  lost : ∀ a ∈ x.derived, (∃ b ∈ y.derived, m.catalog.Twins m'.catalog a b) ∨
    defined.composites.length ≤ a.index ∧ ∃ z, m.catalog.composite? a = some z ∧
      z.StemsFrom d lost ∧ ¬ z.StemsFrom d narrow

theorem Resolution.Extends.composite? {s t : State} (h : Extends s t) {id : CompositeId}
    {x : Composite} (hx : s.catalog.composite? id = some x) : t.catalog.composite? id = some x := by
  obtain ⟨added, ha, -⟩ := h.composites
  unfold Catalog.composite?
  rw [ha, List.getElem?_append_left (Catalog.index_lt hx)]
  exact hx

namespace Narrowed

variable {context : Context} {wide narrow lost : List Operation} {u t t' : State}
  (h : Narrowed context wide narrow u t t')
include h

theorem enums {id : EnumId} (hid : id.index < u.catalog.enums.length) :
    ∃ e, t.catalog.enum? id = some e ∧ t'.catalog.enum? id = some e := by
  obtain ⟨e, he⟩ := Catalog.enum?_of_index_lt hid
  exact ⟨e, h.later.catalog.enums he, h.later'.catalog.enums he⟩

theorem exists_twin {a : CompositeId} {z : Composite} (hz : t.catalog.composite? a = some z)
    {site : Site} (hsite : context.document.Touches narrow site)
    (hs : site.schema.isComposite = true) (hname : z.name = site.name)
    (horigin : z.origin = site.pointer.text) : ∃ b, t.catalog.Twins t'.catalog a b := by
  obtain ⟨type, shape, hshape, hx⟩ := h.covered hsite
  rw [hshape.eq_of_composite hs] at hx
  obtain ⟨b, y, -, hy, hname', horigin'⟩ := hx.exists_composite
  exact ⟨b, z, y, hz, hy, hname.trans hname'.symm, horigin.trans horigin'.symm⟩

theorem stemsFrom_of_not_twin (hlost : ∀ site ∈ context.document.sitesOf wide,
      site ∈ context.document.sitesOf narrow ∨ site ∈ context.document.sitesOf lost)
    {a : CompositeId} {z : Composite} (hz : t.catalog.composite? a = some z)
    (htwin : ¬ ∃ b, t.catalog.Twins t'.catalog a b) :
    u.catalog.composites.length ≤ a.index ∧ z.StemsFrom context.document lost ∧
      ¬ z.StemsFrom context.document narrow := by
  refine ⟨Nat.not_lt.mp fun hlt => ?_, ?_, ?_⟩
  · obtain ⟨x, hx⟩ := Catalog.composite?_of_index_lt hlt
    exact htwin ⟨a, x, x, h.later.composite? hx, h.later'.composite? hx, rfl, rfl⟩
  · obtain ⟨site, hsite, hs, hname, horigin, -⟩ := h.fits.composites hz
    have hsplit : Site.Spanned (fun x => (x ∈ context.document.definitionSites ∨
        x ∈ context.document.sitesOf narrow) ∨ x ∈ context.document.sitesOf lost) site :=
      hsite.mono fun x hx => hx.elim (fun hx => .inl (.inl hx)) fun hx =>
        (hlost x hx).imp_left .inr
    rcases hsplit.or with hkept | hgone
    · exact absurd (h.exists_twin hz hkept hs hname horigin) htwin
    · exact ⟨site, hgone, hs, hname, horigin⟩
  · rintro ⟨site, hspan, hs, hname, horigin⟩
    exact htwin (h.exists_twin hz (hspan.mono fun _ => .inr) hs hname horigin)

theorem composites (hlost : ∀ site ∈ context.document.sitesOf wide,
      site ∈ context.document.sitesOf narrow ∨ site ∈ context.document.sitesOf lost)
    {m m' : ClientModel} (hm : m.catalog = settled t.catalog)
    (hm' : m'.catalog = settled t'.catalog) {id : CompositeId}
    (hid : id.index < u.catalog.composites.length) :
    ∃ x y, m.catalog.composite? id = some x ∧ m'.catalog.composite? id = some y ∧
      Composite.Keeps context.document u.catalog narrow lost m m' x y := by
  obtain ⟨x, hx⟩ := Catalog.composite?_of_index_lt hid
  have hxt := h.later.composite? hx
  have hxt' := h.later'.composite? hx
  obtain ⟨ρ, hρ⟩ := h.embeds
  have hfix : ρ id = id :=
    ((hρ.twins_iff (Catalog.index_lt hxt')).mp ⟨x, x, hxt, hxt', rfl, rfl⟩).symm
  obtain ⟨hfewer, hkept⟩ := hρ.descendants h.inOrder' h.inOrder h.bases (Catalog.index_lt hxt') hfix
  rw [hm, hm']
  refine ⟨_, _, by rw [composite?_settled, hxt]; rfl, by rw [composite?_settled, hxt']; rfl, ?_⟩
  refine ⟨?_, fun b hb => ?_, fun a ha => ?_⟩
  · rw [settle_eq h.bases h.inOrder hxt, settle_eq hρ.bases h.inOrder' hxt']
  · obtain ⟨a, ha, htwins⟩ := hfewer b hb
    rw [hm, hm']
    exact ⟨a, ha, Catalog.twins_settled.mpr htwins⟩
  · rw [hm, hm']
    by_cases htwin : ∃ b, t.catalog.Twins t'.catalog a b
    · obtain ⟨b, htwins⟩ := htwin
      exact .inl ⟨b, hkept a ha b htwins, Catalog.twins_settled.mpr htwins⟩
    · have hlink := (mem_descendants_iff h.bases h.inOrder).mp ha
      obtain ⟨base, hbase, -⟩ := TransGen.head'_iff.mp hlink
      obtain ⟨z, hz⟩ := Catalog.composite?_of_index_lt hbase.index_lt
      obtain ⟨hle, hstems, hnot⟩ := h.stemsFrom_of_not_twin hlost hz htwin
      exact .inr ⟨hle, settle (chains t.catalog) a z, by rw [composite?_settled, hz]; rfl,
        hstems, hnot⟩

end Narrowed

def Document.lost (d : Document) (settings narrow : Settings) : List Operation :=
  (d.selected settings).filter fun o => !o.isSelected narrow

theorem Document.mem_sitesOf_or {narrow : Settings} {site : Site}
    (h : site ∈ d.sitesOf (d.selected settings)) :
    site ∈ d.sitesOf (d.selected narrow) ∨ site ∈ d.sitesOf (d.lost settings narrow) := by
  obtain ⟨o, ho, hsite⟩ := Document.mem_sitesOf.mp h
  cases hn : o.isSelected narrow with
  | true =>
    exact .inl (Document.mem_sitesOf.mpr
      ⟨o, List.mem_filter.mpr ⟨List.mem_of_mem_filter ho, hn⟩, hsite⟩)
  | false =>
    exact .inr (Document.mem_sitesOf.mpr ⟨o, List.mem_filter.mpr ⟨ho, by simp [hn]⟩, hsite⟩)

/-- Leaving out operations does not break a build. What is left are the methods of the other
operations, in their order, and the types of the definitions. From those no types are derived that
were not before, and they keep all but types that only operations which have been left out lead to.

This takes that no two operations give the type of a shared parameter names that differ in nothing
but case: without the first of them it would get the other name. -/
theorem fewer_operations [Grammars] {m : ClientModel} (hn : d.NamesOnce)
    (hsub : ∀ o ∈ operationsOf d, o.isSelected (settings.selecting included excluded) = true →
      o.isSelected settings = true)
    (hspelled : d.SpelledOnce (d.selected settings))
    (hm : (run ⟨d, settings⟩).result = .ok m) :
    ∃ m' u, (run ⟨d, settings.selecting included excluded⟩).result = .ok m' ∧
      m'.methods.map Method.outline = (m.methods.filter fun x =>
        (settings.selecting included excluded).includes x.operationId).map Method.outline ∧
      resolveDefinitions ⟨d, settings⟩ (resolveSite ⟨d, settings⟩) (Fields.keys d.definitions)
        (reportMalformed d {}).2 = some ((), u) ∧
      (∀ id : CompositeId, id.index < u.catalog.composites.length →
        ∃ x y, m.catalog.composite? id = some x ∧ m'.catalog.composite? id = some y ∧
          Composite.Keeps d u.catalog (d.selected (settings.selecting included excluded))
            (d.lost settings (settings.selecting included excluded)) m m' x y) ∧
      ∀ id : EnumId, id.index < u.catalog.enums.length →
        ∃ e, m.catalog.enum? id = some e ∧ m'.catalog.enum? id = some e := by
  obtain ⟨m', u, t, t', hm', hu, hc, hc', h⟩ := exists_narrowed hn hsub hspelled hm
  refine ⟨m', u, hm', outlines_narrow hsub hm hm', hu, fun id hid => ?_, fun id hid => ?_⟩
  · exact h.composites (fun _ => Document.mem_sitesOf_or) hc hc' hid
  · rw [hc, hc']
    exact h.enums hid

def clinic : Document where
  info := { title := "Clinic", version := "1" }
  definitions := [("Pet", {
    discriminator := some "kind"
    properties := [("kind", { typeName := some "string" })] })]
  paths := [("/pets", {
    parameters := [{
      name := some "body"
      location := some "body"
      schema := some { allOf := [.referenceTo "Pet"] } }]
    operation? := fun method =>
      match method with
      | .get => some { operationId := some "check" }
      | .put => some { operationId := some "cure" }
      | _ => none })]

theorem fewer_operations_clinic : ∃ m m' x y, clinic.NamesOnce ∧
    clinic.SpelledOnce (clinic.selected {}) ∧ (run ⟨clinic, {}⟩).result = .ok m ∧
    (run ⟨clinic, Settings.selecting {} [] ["check"]⟩).result = .ok m' ∧
    m'.methods.map Method.outline = (m.methods.filter fun x =>
      (Settings.selecting {} [] ["check"]).includes x.operationId).map Method.outline ∧
    m.catalog.composite? ⟨0⟩ = some x ∧ m'.catalog.composite? ⟨0⟩ = some y ∧
    y = { x with derived := y.derived } ∧ x.derived = [⟨1⟩, ⟨2⟩] ∧ y.derived = [⟨1⟩] := by
  have hn : clinic.NamesOnce := by decide +kernel
  have hspelled : clinic.SpelledOnce (clinic.selected {}) :=
    Document.spelledOnce_of_nested (n := 3) rfl (by decide +kernel)
  have hderived : (run ⟨clinic, {}⟩).result.toOption.map
      (fun m => (m.catalog.composite? ⟨0⟩).map (·.derived)) = some (some [⟨1⟩, ⟨2⟩]) := by
    decide +kernel
  have hderived' : (run ⟨clinic, Settings.selecting {} [] ["check"]⟩).result.toOption.map
      (fun m => (m.catalog.composite? ⟨0⟩).map (·.derived)) = some (some [⟨1⟩]) := by
    decide +kernel
  have hdefined : (resolveDefinitions ⟨clinic, {}⟩ (resolveSite ⟨clinic, {}⟩)
      (Fields.keys clinic.definitions) (reportMalformed clinic {}).2).map
        (fun outcome => outcome.2.catalog.composites.length) = some 1 := by decide +kernel
  have hsub : ∀ o ∈ operationsOf clinic,
      o.isSelected (Settings.selecting {} [] ["check"]) = true → o.isSelected {} = true := by
    decide +kernel
  obtain ⟨m, hm, hxd⟩ := Option.map_eq_some_iff.mp hderived
  have hm := eq_ok_of_toOption hm
  obtain ⟨m', u, hm', hmethods, hu, hcomposites, -⟩ := fewer_operations hn hsub hspelled hm
  have hyd : (m'.catalog.composite? ⟨0⟩).map (·.derived) = some [⟨1⟩] := by
    rw [hm'] at hderived'
    exact Option.some.inj hderived'
  rw [hu] at hdefined
  obtain ⟨x, y, hx, hy, hkeeps⟩ := hcomposites ⟨0⟩
    (Nat.lt_of_lt_of_eq Nat.zero_lt_one (Option.some.inj hdefined).symm)
  rw [hx] at hxd
  rw [hy] at hyd
  exact ⟨m, m', x, y, hn, hspelled, hm, hm', hmethods, hx, hy, hkeeps.same,
    Option.some.inj hxd, Option.some.inj hyd⟩

/-- Two operations whose ids differ in nothing but case share a body. The first of them gives its
type another name than the second one would, whose name is a value that a definition has taken. -/
def kennels : Document where
  info := { title := "Kennels", version := "1" }
  definitions := [
    ("Pet", {
      discriminator := some "kind"
      properties := [("kind", { typeName := some "string" })] }),
    ("Dog", {
      allOf := [.referenceTo "Pet"]
      extensions := [("x-ms-discriminator-value", .str "ABBody")] })]
  paths := [("/pets", {
    parameters := [{
      name := some "body"
      location := some "body"
      schema := some { allOf := [.referenceTo "Pet"] } }]
    operation? := fun method =>
      match method with
      | .get => some { operationId := some "ab" }
      | .put => some { operationId := some "aB" }
      | _ => none })]

/-- Without the first operation there is a defect that there is not with it. -/
theorem defect_of_fewer_operations : kennels.NamesOnce ∧
    (∀ o ∈ operationsOf kennels, o.isSelected (Settings.selecting {} [] ["ab"]) = true →
      o.isSelected {} = true) ∧
    (∃ m, (run ⟨kennels, {}⟩).result = .ok m) ∧
    ∃ found, (run ⟨kennels, Settings.selecting {} [] ["ab"]⟩).result = .error (.defects found) ∧
      found.map Defect.message = ["DiscriminatorError in 'Pet': " ++
        "discriminator value 'ABBody' is used by both 'Dog' and 'ABBody'"] := by
  have hwide : (run ⟨kennels, {}⟩).result.toOption.isSome = true := by decide +kernel
  have hnarrow : (run ⟨kennels, Settings.selecting {} [] ["ab"]⟩).defects.map Defect.message =
      ["DiscriminatorError in 'Pet': " ++
        "discriminator value 'ABBody' is used by both 'Dog' and 'ABBody'"] := by
    decide +kernel
  refine ⟨by decide +kernel, by decide +kernel, ?_, ?_⟩
  · obtain ⟨m, hm⟩ := Option.isSome_iff_exists.mp hwide
    exact ⟨m, eq_ok_of_toOption hm⟩
  · obtain ⟨m, hm⟩ | ⟨found, -, hm⟩ := run_cases ⟨kennels, Settings.selecting {} [] ["ab"]⟩
    · rw [Outcome.defects, hm] at hnarrow
      cases hnarrow
    · rw [Outcome.defects, hm] at hnarrow
      exact ⟨found, hm, hnarrow⟩

/-- Nothing has a discriminator here. The two names of the body have one case key, but those of the
type that is nested in it have not: a capital sigma is final at the end of a word only. -/
def pens : Document where
  info := { title := "Pens", version := "1" }
  definitions := [("AςʹM", { properties := [("kind", { typeName := some "string" })] })]
  paths := [("/pets", {
    parameters := [{
      name := some "ʹ"
      location := some "body"
      schema := some { properties := [("m", {
        properties := [("age", { typeName := some "integer" })] })] } }]
    operation? := fun method =>
      match method with
      | .get => some { operationId := some "aΣ" }
      | .put => some { operationId := some "aς" }
      | _ => none })]

example : (run ⟨pens, {}⟩).result.toOption.isSome = true ∧
    (run ⟨pens, Settings.selecting {} [] ["aΣ"]⟩).defects.map Defect.message =
      ["SchemaError in 'AςʹM': type name 'AςʹM' for " ++
        "'#/paths/~1pets/parameters/0/schema/properties/m' collides with the type declared at " ++
        "'#/definitions/AςʹM'"] := by
  decide +kernel

end ApiModel
