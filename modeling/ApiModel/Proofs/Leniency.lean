import ApiModel.Grammars
import ApiModel.Proofs.Reordering
import ApiModel.Proofs.SelfReferences

/-! # Formats that are not known

Settings may allow formats that are not known. A build that finds no fault with a document has met
no such format, and it stays the same build where they are allowed. Where they are, nothing that a
resolver is asked for has a defect that is about a format.
-/

namespace ApiModel

open Resolution Build

variable {α : Type} {d : Document} {settings : Settings} {context : Context}
  {requests : List Request}

def Settings.lenient (s : Settings) : Settings := { s with allowUnknownFormats := true }

namespace Resolution

variable {grammars : Grammars} {site : Site} {type : Option ModelType} {r : Resolver}
  {s t last : State}

theorem resolveStep_lenient (hk : site.schema.route ≠ .scalar) (r : Resolver) :
    resolveStep ⟨d, settings.lenient⟩ r site = resolveStep ⟨d, settings⟩ r site := by
  unfold resolveStep
  cases hroute : site.schema.route with
  | scalar => exact absurd hroute hk
  | _ => rfl

theorem buildScalar_lenient (h : (buildScalar settings site s).2.defects = []) :
    buildScalar settings.lenient site s = buildScalar settings site s := by
  unfold buildScalar at h ⊢
  cases hf : Scalar.find site.schema.typeName site.schema.format with
  | ok kind => rfl
  | error reason =>
    cases reason with
    | type name => rfl
    | format typeName format fallback =>
      cases ha : settings.allowUnknownFormats with
      | true => rfl
      | false =>
        simp only [hf, ha, Bool.false_eq_true, if_false] at h
        exact absurd h (fail_defects _ s)

/-- A call without a defect has the same outcome where formats are allowed. -/
theorem resolveSite_lenient (h : (Scene.ofBuild ⟨d, settings⟩).Within last site s type t)
    (hd : t.defects = []) : resolveSite ⟨d, settings.lenient⟩ site s = some (type, t) := by
  refine Scene.induct (P := fun site s type t => t.defects = [] →
    resolveSite ⟨d, settings.lenient⟩ site s = some (type, t)) ?_ h hd
  intro r site s type t hwithin hcalls hstep hd
  rw [resolveSite_eq]
  by_cases hk : site.schema.route = .scalar
  · simp only [resolveStep, hk] at hstep ⊢
    have hscalar : buildScalar settings site s = (type, t) := Option.some.inj hstep
    have hclean : (buildScalar settings site s).2.defects = [] := by rw [hscalar, hd]
    exact congrArg some ((buildScalar_lenient hclean).trans hscalar)
  · -- What a call adds stays, so none of the calls of the step has found a defect either.
    have hbelow : Below r (resolveSite ⟨d, settings.lenient⟩) := by
      rintro site' s' ⟨type', t'⟩ hcall
      obtain ⟨hinner, hsame⟩ := hcalls site' s' type' t' hcall
      exact hsame (hinner.grows.clean hd)
    refine (Courses.resolveStep ⟨d, settings.lenient⟩ site).mono hbelow ?_
    rw [resolveStep_lenient hk]
    exact hstep

theorem courses_resolveAll (context : Context) : Courses (resolveAll context) :=
  .bind (.lift _) fun _ => .bind (.of_composed (.resolveDefinitions context _)) fun _ =>
    .of_composed (.buildMethods context _)

theorem resolveAll_lenient {methods : List Method}
    (h : resolveAll ⟨d, settings⟩ (resolveSite ⟨d, settings⟩) {} = some (methods, t))
    (hd : t.defects = []) : resolveAll ⟨d, settings.lenient⟩
      (resolveSite ⟨d, settings.lenient⟩) {} = some (methods, t) := by
  have hwithin := Scene.run_within (S := Scene.ofBuild ⟨d, settings⟩)
    (fun r => resolveAll ⟨d, settings⟩ r) (fun _ hr => Scene.resolveAll_keeps hr) h
  refine (courses_resolveAll ⟨d, settings.lenient⟩).mono (fun site s p hcall => ?_) hwithin
  have hinner := Scene.of_within hcall
  exact resolveSite_lenient hinner (hinner.grows.clean hd)

end Resolution

theorem conclude_lenient [Grammars] {methods : List Method} {t : State} :
    conclude ⟨d, settings.lenient⟩ methods t = conclude ⟨d, settings⟩ methods t := rfl

theorem run_lenient [Grammars] {m : ClientModel} (h : (run ⟨d, settings⟩).result = .ok m) :
    run ⟨d, settings.lenient⟩ = run ⟨d, settings⟩ := by
  obtain ⟨methods, t, hall, hrun⟩ := run_eq_conclude ⟨d, settings⟩
  rw [hrun] at h
  have hall' := resolveAll_lenient hall (conclude_eq_ok_iff.mp h).1
  obtain ⟨methods', t', hlenient, hrun'⟩ := run_eq_conclude ⟨d, settings.lenient⟩
  cases hall'.symm.trans hlenient
  rw [hrun, hrun', conclude_lenient]

namespace Resolution

variable {site : Site} {type : Option ModelType} {r : Resolver} {s t : State}

def State.FormatsKnown (s : State) : Prop := ∀ d ∈ s.defects, d.isFormat = false

theorem State.FormatsKnown.report (h : s.FormatsKnown) {d : Defect} (hd : d.isFormat = false) :
    (report d s).2.FormatsKnown :=
  List.forall_mem_append.mpr ⟨h, List.forall_mem_singleton.mpr hd⟩

theorem Steady.formatsKnown (h : Steady s t) (hs : s.FormatsKnown) : t.FormatsKnown := by
  intro d hd
  cases hf : d.isFormat with
  | false => rfl
  | true => exact hf.symm.trans (hs d (h.formats d hd hf))

theorem buildEnum_formatsKnown (hs : s.FormatsKnown) {listed : List Json} :
    (buildEnum settings site listed s).2.FormatsKnown := by
  obtain ⟨d, hb⟩ | ⟨values, -, ⟨-, hb⟩ | ⟨extension, -, ⟨-, hb⟩ | ⟨id, -, -, hb⟩⟩⟩ :=
    buildEnum_cases settings site listed s
  · have hd : d.isFormat = false := by
      rcases buildEnum_clash hb with hkind | hplain
      · cases d with
        | enumConflict => rfl
        | _ => cases hkind
      · exact Defect.isFormat_of_isPlain hplain
    rw [hb]
    exact hs.report hd
  all_goals rw [hb]; exact hs

section Lenient

variable (hl : context.settings.allowUnknownFormats = true)
include hl

theorem buildScalar_formatsKnown (hs : s.FormatsKnown) :
    (buildScalar context.settings site s).2.FormatsKnown := by
  obtain ⟨kind, -, -, ha⟩ | ⟨reason, hk, hf, hb⟩ := buildScalar_cases context.settings site s
  · exact (Steady.of_asides ha).formatsKnown hs
  · obtain ⟨name, rfl⟩ := exists_type_of_scalarOf?_eq_none hl hk hf
    rw [hb]
    exact hs.report rfl

theorem resolveStep_formatsKnown (hr : ∀ {site s type t}, r site s = some (type, t) →
      State.FormatsKnown s → State.FormatsKnown t)
    (hs : s.FormatsKnown) (h : resolveStep context r site s = some (type, t)) :
    t.FormatsKnown := by
  by_cases he : ∃ listed, site.schema.route = .enumeration listed
  · obtain ⟨listed, he⟩ := he
    simp only [resolveStep, he] at h
    obtain rfl := (Prod.mk.inj (Option.some.inj h)).2
    exact buildEnum_formatsKnown hs
  by_cases hk : site.schema.route = .scalar
  · simp only [resolveStep, hk] at h
    obtain rfl := (Prod.mk.inj (Option.some.inj h)).2
    exact buildScalar_formatsKnown hl hs
  · exact (Composed.resolveSteady (not_exists.mp he) hk).preserves
      (fun hsteady hs => hsteady.formatsKnown hs) hr hs h

theorem resolve_formatsKnown (n : Nat) {site : Site} {s t : State} {type : Option ModelType}
    (h : resolve context n site s = some (type, t)) (hs : s.FormatsKnown) : t.FormatsKnown := by
  induction n generalizing site s type t with
  | zero => cases h
  | succ n ih => exact resolveStep_formatsKnown hl ih hs h

theorem Composed.formatsKnown {part : Resolver → Run α} (h : Composed Steady part) {a : α}
    (hs : s.FormatsKnown) (hp : part (resolveSite context) s = some (a, t)) : t.FormatsKnown :=
  h.preserves (fun hsteady hs => hsteady.formatsKnown hs) (resolve_formatsKnown hl _) hs hp

theorem resolveAll_formatsKnown {methods : List Method}
    (h : resolveAll context (resolveSite context) {} = some (methods, t)) : t.FormatsKnown := by
  obtain ⟨s, hs, ht⟩ := resolveAll_eq_some h
  have hstart : (reportMalformed context.document {}).2.FormatsKnown :=
    (Steady.of_asides (.reportMalformed context.document {})).formatsKnown nofun
  have hdefined := (Composed.resolveDefinitions context _).formatsKnown hl hstart hs
  exact (Composed.buildMethods context _).steady.formatsKnown hl hdefined ht

/-- What is asked for from outside leaves no fault with a format behind, unless it came with it. -/
theorem serve_formatsKnown {q : Request} (hq : ∀ d, q = .defect d → d.isFormat = false)
    (hs : s.FormatsKnown) (h : q.serve context s = some ((), t)) : t.FormatsKnown := by
  cases q with
  | defect d =>
    obtain rfl := (Prod.mk.inj (Option.some.inj h)).2
    exact hs.report (hq d rfl)
  | definition name =>
    obtain ⟨type, u, hu, h⟩ := bind_eq_some.mp h
    cases h
    exact (Composed.resolveDefinition context name _ _).formatsKnown hl hs hu
  | schema schema name =>
    obtain ⟨type, u, hu, h⟩ := bind_eq_some.mp h
    obtain ⟨type', v, hv⟩ := resolveSite_total context ⟨schema, name, ⟨[name]⟩, name⟩ s
    obtain ⟨answer, ha⟩ := resolveSchema_eq hv
    cases ha.symm.trans hu
    cases h
    exact List.forall_mem_nil _
  | operation o =>
    obtain ⟨m, u, hu, h⟩ := bind_eq_some.mp h
    cases h
    exact (Composed.buildMethod context o).steady.formatsKnown hl hs hu

theorem serveAll_formatsKnown (hq : ∀ d, .defect d ∈ requests → d.isFormat = false)
    (hs : s.FormatsKnown) (h : serveAll context requests s = some ((), t)) : t.FormatsKnown := by
  induction requests generalizing s with
  | nil =>
    cases h
    exact hs
  | cons q requests ih =>
    obtain ⟨u, hu, h⟩ := serveAll_cons.mp h
    have hus := serve_formatsKnown hl (fun d hd => hq d (hd ▸ List.mem_cons_self ..)) hs hu
    exact ih (fun d hd => hq d (List.mem_cons_of_mem _ hd)) hus h

theorem resolveSchema_formatsKnown {schema : Schema} {name : String} {found : List Defect}
    (hs : s.FormatsKnown) (h : resolveSchema context schema name s = some (.error found, t)) :
    ∀ x ∈ found, x.isFormat = false := by
  obtain ⟨type, u, hu, h⟩ := bind_eq_some.mp h
  have hknown := resolve_formatsKnown hl _ hu hs
  obtain ⟨defects, v, hv, h⟩ := bind_eq_some.mp h
  obtain rfl : u.defects = defects := (Prod.mk.inj (Option.some.inj hv)).1
  unfold State.FormatsKnown at hknown
  cases hd : u.defects with
  | nil =>
    rw [hd] at h
    cases type with
    | none =>
      cases h
      exact List.forall_mem_singleton.mpr rfl
    | some type => cases h
  | cons x rest =>
    rw [hd] at h hknown
    cases type <;> cases h <;> exact hknown

omit hl in
theorem isFormat_of_baseUrl {x : Defect} (h : baseUrl context = .error x) :
    x.isFormat = false := by
  unfold baseUrl at h
  split at h
  · cases h
  · dsimp only at h
    split at h <;> cases h
    rfl

theorem run_formatsKnown {found : List Defect}
    (h : (run context).result = .error (.defects found)) : ∀ x ∈ found, x.isFormat = false := by
  obtain ⟨methods, t, hall, hrun⟩ := run_eq_conclude context
  have hknown := resolveAll_formatsKnown hl hall
  have hhierarchies : ∀ x ∈ Hierarchy.defects t.catalog, x.isFormat = false := by
    intro x hx
    have hkind := Hierarchy.kind_of_mem_defects hx
    cases x with
    | schema => simp [Defect.kind] at hkind
    | _ => rfl
  have hfound := List.forall_mem_append.mpr ⟨hknown, hhierarchies⟩
  rw [hrun] at h
  unfold conclude at h
  cases hurl : baseUrl context with
  | ok url =>
    rw [hurl] at h
    dsimp only at h
    split at h <;> cases h
    exact hfound
  | error x =>
    rw [hurl] at h
    dsimp only at h
    split at h <;> cases h
    exact List.forall_mem_append.mpr
      ⟨hfound, List.forall_mem_singleton.mpr (isFormat_of_baseUrl hurl)⟩

end Lenient

end Resolution

/-- Allowing formats that are not known changes no model that is built without them, and then no
build and no schema fails for a format. -/
theorem leniency_conservative [Grammars] (d : Document) (settings : Settings) :
    (∀ m, settings.allowUnknownFormats = false → (run ⟨d, settings⟩).result = .ok m →
      (run ⟨d, settings.lenient⟩).result = .ok m) ∧
    (∀ found, (run ⟨d, settings.lenient⟩).result = .error (.defects found) →
      ∀ x ∈ found, x.isFormat = false) ∧
    ∀ requests s, (∀ x, .defect x ∈ requests → x.isFormat = false) →
      serveAll ⟨d, settings.lenient⟩ requests {} = some ((), s) →
      (∀ x ∈ s.defects, x.isFormat = false) ∧
      ∀ schema name found t,
        resolveSchema ⟨d, settings.lenient⟩ schema name s = some (.error found, t) →
        ∀ x ∈ found, x.isFormat = false := by
  refine ⟨fun m _ hm => ?_, fun found hfound => run_formatsKnown rfl hfound, ?_⟩
  · rw [run_lenient hm, hm]
  · intro requests s hrequests hs
    have hstart : State.FormatsKnown {} := List.forall_mem_nil _
    have hknown := serveAll_formatsKnown rfl hrequests hstart hs
    exact ⟨hknown, fun schema name found t hfound => resolveSchema_formatsKnown rfl hknown hfound⟩

def scales : Document where
  info := { title := "Scales", version := "1" }
  definitions := [("Fish", {
    properties := [
      ("weight", { typeName := some "integer", format := some "int8" }),
      ("length", { typeName := some "integer", format := some "int32" }),
      ("colour", { typeName := some "blob" })] })]

def plainScales : Document where
  info := { title := "Scales", version := "1" }
  definitions := [("Fish", {
    properties := [("length", { typeName := some "integer", format := some "int32" })] })]

theorem leniency_conservative_scales :
    (∃ m, (run ⟨plainScales, {}⟩).result = .ok m ∧
      (run ⟨plainScales, Settings.lenient {}⟩).result = .ok m) ∧
    (run ⟨scales, {}⟩).defects.map Defect.isFormat = [true, false] ∧
    (∃ found, (run ⟨scales, Settings.lenient {}⟩).result = .error (.defects found) ∧
      found.length = 1 ∧ ∀ x ∈ found, x.isFormat = false) ∧
    ∃ found t, resolveSchema ⟨scales, Settings.lenient {}⟩ { reference := some "#/definitions/Fish" }
        "Catch" {} = some (.error found, t) ∧ ∀ x ∈ found, x.isFormat = false := by
  have hplain : (run ⟨plainScales, {}⟩).result.toOption.isSome = true := by decide +kernel
  have hone : (run ⟨scales, Settings.lenient {}⟩).defects.length = 1 := by decide +kernel
  have hschema : (resolveSchema ⟨scales, Settings.lenient {}⟩
      { reference := some "#/definitions/Fish" } "Catch" {}).map
        (fun answer => answer.1.toOption.isNone) = some true := by decide +kernel
  obtain ⟨m, hm⟩ := Option.isSome_iff_exists.mp hplain
  have hm := eq_ok_of_toOption hm
  refine ⟨⟨m, hm, (leniency_conservative plainScales {}).1 m rfl hm⟩, by decide +kernel, ?_, ?_⟩
  · obtain ⟨m, hm⟩ | ⟨found, -, hm⟩ := run_cases ⟨scales, Settings.lenient {}⟩
    · rw [Outcome.defects, hm] at hone
      cases hone
    · rw [Outcome.defects, hm] at hone
      exact ⟨found, hm, hone, (leniency_conservative scales {}).2.1 found hm⟩
  · obtain ⟨⟨answer, t⟩, ht, hanswer⟩ := Option.map_eq_some_iff.mp hschema
    cases answer with
    | ok type => cases hanswer
    | error found =>
      exact ⟨found, t, ht, ((leniency_conservative scales {}).2.2 [] {} nofun serveAll_nil).2
        _ _ found t ht⟩

end ApiModel
