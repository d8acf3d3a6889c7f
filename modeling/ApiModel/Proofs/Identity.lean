import ApiModel.Proofs.Failures

/-! # The identity of definitions

A resolver may be asked for any number of things, one after the other: definitions, schemas and
operations. A build is such a sequence too. Throughout, references to one definition that have a
type have the same, whether they come from outside or from within, and no definition that has a
type is counted among those that failed.
-/

namespace ApiModel

open Text (caseKey)

namespace Resolution

variable {context : Context} {s t u last : State}

/-- What is asked of a resolver from outside. -/
inductive Request where
  /-- Takes note of a defect that was found elsewhere. -/
  | defect (d : Defect)
  | definition (name : String)
  | schema (schema : Schema) (name : String)
  | operation (o : Operation)

namespace Request

def serve (context : Context) : Request → Run Unit
  | .defect d => report d
  | .definition name => do
    let _ ← resolveTop context (resolveSite context) name
  | .schema s name => do
    let _ ← resolveSchema context s name
  | .operation o => do
    let _ ← buildMethod context (resolveSite context) o

def ofBuild (document : Document) : List Request :=
  (Build.malformedDefects document).map .defect ++
    (document.definitions.map fun p => .definition p.1) ++ (operationsOf document).map .operation

/-- A request in the state `s` asks for the type of a site in the state `t`. -/
inductive Asks (context : Context) : Request → State → Site → State → Prop where
  | definition {name : String} {site : Site} {s t : State}
      (h : Calls context (fun r => resolveTop context r name) s site t) :
      Asks context (.definition name) s site t
  | schema {schema : Schema} {name : String} {s : State} :
      Asks context (.schema schema name) s ⟨schema, name, ⟨[name]⟩, name⟩ s
  | operation {o : Operation} {site : Site} {s t : State}
      (h : Calls context (fun r => buildMethod context r o) s site t) :
      Asks context (.operation o) s site t

end Request

def serveAll (context : Context) (requests : List Request) : Run Unit :=
  requests.forM (·.serve context)

/-- The sites whose types are asked for while requests are served, from outside and from within,
each with the state at that time. -/
inductive Visits (context : Context) (requests : List Request) : Site → State → Prop where
  | request {before after : List Request} {q : Request} {site : Site} {s t : State}
      (hq : requests = before ++ q :: after) (hs : serveAll context before {} = some ((), s))
      (h : q.Asks context s site t) : Visits context requests site t
  | inside {site site' : Site} {s t : State} (h : Visits context requests site s)
      (hc : Calls context (fun r => resolveStep context r site) s site' t) :
      Visits context requests site' t

inductive Refers (context : Context) (requests : List Request) : String → ModelType → Prop where
  | outside {before after : List Request} {name : String} {type : ModelType} {s t : State}
      (hq : requests = before ++ .definition name :: after)
      (hs : serveAll context before {} = some ((), s))
      (ht : resolveTop context (resolveSite context) name s = some (some type, t)) :
      Refers context requests name type
  | inside {site : Site} {text name : String} {type : ModelType} {s t : State}
      (h : Visits context requests site s) (hr : site.schema.reference = some text)
      (hp : Reference.parse? text = some ⟨.definitions, name⟩)
      (ht : resolveSite context site s = some (some type, t)) :
      Refers context requests name type

/-- The states before and after each request, and before and after each site that is resolved for
it. -/
inductive Passes (context : Context) (requests : List Request) : State → Prop where
  | between {before after : List Request} {s : State} (hq : requests = before ++ after)
      (hs : serveAll context before {} = some ((), s)) : Passes context requests s
  | start {site : Site} {s : State} (h : Visits context requests site s) :
      Passes context requests s
  | finish {site : Site} {type : Option ModelType} {s t : State}
      (h : Visits context requests site s) (ht : resolveSite context site s = some (type, t)) :
      Passes context requests t

theorem serveAll_nil : serveAll context [] s = some ((), s) := rfl

theorem serveAll_cons {q : Request} {requests : List Request} :
    serveAll context (q :: requests) s = some ((), t) ↔
      ∃ u, q.serve context s = some ((), u) ∧ serveAll context requests u = some ((), t) := by
  constructor
  · intro h
    obtain ⟨_, u, hu, h⟩ := bind_eq_some.mp h
    exact ⟨u, hu, h⟩
  · rintro ⟨u, hu, h⟩
    exact bind_eq_some.mpr ⟨(), u, hu, h⟩

theorem serveAll_append {before after : List Request} :
    serveAll context (before ++ after) s = some ((), t) ↔
      ∃ u, serveAll context before s = some ((), u) ∧
        serveAll context after u = some ((), t) := by
  induction before generalizing s with
  | nil =>
    constructor
    · exact fun h => ⟨s, serveAll_nil, h⟩
    · rintro ⟨_, ⟨⟩, h⟩
      exact h
  | cons q before ih =>
    rw [List.cons_append, serveAll_cons]
    simp only [ih, serveAll_cons]
    constructor
    · rintro ⟨v, hv, u, hu, h⟩
      exact ⟨u, ⟨v, hv, hu⟩, h⟩
    · rintro ⟨u, ⟨v, hv, hu⟩, h⟩
      exact ⟨v, hv, u, hu, h⟩

theorem serveAll_defects (defects : List Defect) (s : State) :
    serveAll context (defects.map .defect) s =
      some ((), (defects.forM (fun d => report d) s).2) := by
  induction defects generalizing s with
  | nil => rfl
  | cons d rest ih => exact serveAll_cons.mpr ⟨_, rfl, ih _⟩

theorem serveAll_definitions {definitions : List (String × Schema)}
    (h : resolveDefinitions context (resolveSite context) (definitions.map Prod.fst) s =
      some ((), t)) :
    serveAll context (definitions.map fun p => .definition p.1) s = some ((), t) := by
  induction definitions generalizing s with
  | nil => exact h
  | cons p rest ih =>
    obtain ⟨type, u, hu, h⟩ := resolveDefinitions_cons.mp h
    exact serveAll_cons.mpr ⟨u, bind_eq_some.mpr ⟨type, u, hu, rfl⟩, ih h⟩

theorem serveAll_operations {operations : List Operation} {methods : List Method}
    (h : buildMethods context (resolveSite context) operations s = some (methods, t)) :
    serveAll context (operations.map .operation) s = some ((), t) := by
  unfold buildMethods at h
  generalize ([] : List Method) = found at h
  induction operations generalizing found s with
  | nil =>
    cases h
    rfl
  | cons o rest ih =>
    rw [List.foldlM_cons] at h
    obtain ⟨_, u, hu, h⟩ := bind_eq_some.mp h
    obtain ⟨m, _, hm, hu⟩ := bind_eq_some.mp hu
    cases hu
    exact serveAll_cons.mpr ⟨_, bind_eq_some.mpr ⟨m, _, hm, rfl⟩, ih _ h⟩

theorem serveAll_ofBuild {methods : List Method}
    (h : Build.resolveAll context (resolveSite context) s = some (methods, t)) :
    serveAll context (Request.ofBuild context.document) s = some ((), t) := by
  obtain ⟨_, u, hu, h⟩ := bind_eq_some.mp h
  obtain ⟨_, v, hv, h⟩ := bind_eq_some.mp h
  have hu : (Build.reportMalformed context.document s).2 = u :=
    (Prod.mk.inj (Option.some.inj hu)).2
  refine serveAll_append.mpr ⟨v, serveAll_append.mpr ⟨u, ?_, serveAll_definitions hv⟩,
    serveAll_operations h⟩
  rw [serveAll_defects]
  exact congrArg (fun v => some ((), v)) hu

/-- Schemas may stand anywhere, and the defects of a request are taken out of the state. -/
def anywhere (context : Context) : Scene := ⟨context, fun _ _ => True, True⟩

theorem standsIn_anywhere (o : Operation) : (anywhere context).StandsIn o :=
  ⟨fun _ _ _ _ _ _ _ => .root trivial, fun _ _ => .root trivial⟩

structure Retains (s t : State) : Prop where
  resolved : ∀ {key type}, Fields.get? s.resolved key = some type →
    Fields.get? t.resolved key = some type
  claimed : ∀ {key name}, Fields.get? s.claimed key = some name →
    Fields.get? t.claimed key = some name
  failed : s.failed ⊆ t.failed

namespace Retains

theorem of_grows (h : Grows s t) : Retains s t := ⟨h.resolved, h.claimed, h.failed⟩

theorem refl (s : State) : Retains s s := of_grows (.refl s)

theorem trans (h : Retains s t) (h' : Retains t u) : Retains s u :=
  ⟨fun hr => h'.resolved (h.resolved hr), fun hc => h'.claimed (h.claimed hc),
    fun _ hf => h'.failed (h.failed hf)⟩

theorem consistent (h : Retains s t) (ht : t.Consistent) : s.Consistent := by
  intro key hk
  by_contra hn
  obtain ⟨type, hr⟩ := Option.ne_none_iff_exists'.mp hn
  exact nomatch (ht key (h.failed hk)).symm.trans (h.resolved hr)

end Retains

/-- A state in which nothing is being resolved. -/
structure Idle (context : Context) (s : State) : Prop where
  inv : (anywhere context).Inv s
  frames : s.frames = []
  consistent : s.Consistent

theorem idle_empty (context : Context) : Idle context {} where
  inv :=
    { keyed := .empty
      enums := .empty
      memo := nofun
      composites := nofun
      listed := nofun
      noted := fun _ => .inl trivial }
  frames := rfl
  consistent := nofun

namespace Idle

variable {α : Type}

theorem chain (h : Idle context s) (hc : Chain ((anywhere context).within last) s t)
    (hi : (anywhere context).Inv t) : Idle context t := by
  suffices hkept : t.frames = [] ∧ t.Consistent from ⟨hi, hkept.1, hkept.2⟩
  clear hi
  induction hc with
  | refl => exact ⟨h.frames, h.consistent⟩
  | notes _ hn ih =>
    have hspares : Spares context _ _ := .notes hn
    exact ⟨hn.frames_eq.trans ih.1, hspares.consistent ih.2⟩
  | call _ hcall ih =>
    obtain ⟨hw, htidy⟩ := Scene.tidies_within _ _ _ _ _ _ hcall
    obtain ⟨hf, hc⟩ := ih
    have htrail := htidy (Scene.Trail.of_recent (by rw [hf]; rfl))
    exact ⟨hw.later.frames.trans hf, htrail.1.spares.consistent hc⟩

theorem site (h : Idle context s) (site : Site) : ∃ type t,
    resolveSite context site s = some (type, t) ∧ Idle context t ∧ Extends s t := by
  obtain ⟨type, t, ht, -, hy⟩ := Scene.resolveSite_keeps (anywhere context) {} site s
    ⟨.root trivial, h.inv⟩
  obtain ⟨_, _, ht', hchain, -⟩ := Scene.joins_within (anywhere context) t site s
    ⟨.root trivial, h.inv⟩
  cases ht.symm.trans ht'
  exact ⟨type, t, ht, h.chain ((Chain.refl s).call (hchain (.refl _)).2) hy.reaches.inv,
    hy.reaches.later⟩

theorem definition (h : Idle context s) (name : String) : ∃ type t,
    resolveTop context (resolveSite context) name s = some (type, t) ∧ Idle context t ∧
      Extends s t := by
  obtain ⟨type, t, ht, -, hy⟩ := Scene.resolveDefinition_keeps
    (Scene.resolveSite_keeps (anywhere context) {}) h.inv name (Pointer.definition name) name
  have htidy := (Scene.definition_tidy (Scene.tidies_within (anywhere context) t) h.inv
    (Scene.Trail.of_recent (by rw [h.frames]; rfl)) (Scene.definition_within h.inv ht)).1
  exact ⟨type, t, ht, ⟨hy.reaches.inv, hy.reaches.later.frames.trans h.frames,
    htidy.spares.consistent h.consistent⟩, hy.reaches.later⟩

theorem operation (h : Idle context s) (o : Operation) : ∃ m t,
    buildMethod context (resolveSite context) o s = some (m, t) ∧ Idle context t ∧
      Extends s t := by
  have hs : (anywhere context).StandsIn o := standsIn_anywhere o
  obtain ⟨m, t, ht, -, hy⟩ := Scene.buildMethod_keeps
    (Scene.resolveSite_keeps (anywhere context) {}) h.inv hs
  have hchain := (Composed.buildMethod context o).chain (Scene.method_within h.inv hs ht)
  exact ⟨m, t, ht, h.chain hchain hy.1.inv, hy.1.later⟩

theorem drain (h : Idle context s) : Idle context { s with defects := [] } where
  inv :=
    { keyed := h.inv.keyed
      enums := h.inv.enums
      memo := h.inv.memo
      composites := fun hc => by
        obtain ⟨schema, pointer, hd⟩ := h.inv.composites hc
        exact ⟨schema, pointer, { hd with content := hd.content.imp_right fun hf =>
          ⟨hf.1, hf.2.mono (.refl _) id fun _ => .inl trivial⟩ }⟩
      listed := h.inv.listed
      noted := fun _ => .inl trivial }
  frames := h.frames
  consistent := h.consistent

end Idle

theorem resolveSchema_eq {schema : Schema} {name : String} {type : Option ModelType}
    (h : resolveSite context ⟨schema, name, ⟨[name]⟩, name⟩ s = some (type, t)) :
    ∃ answer, resolveSchema context schema name s = some (answer, { t with defects := [] }) := by
  simp only [resolveSchema, bind_eq_some]
  cases type <;> cases hd : t.defects <;>
    exact ⟨_, _, t, h, _, _, rfl, by rw [hd]; rfl⟩

/-- A request is served in any idle state, and it leaves the state idle. The sites that it asks for
are resolved within it. -/
theorem serve_idle (h : Idle context s) (q : Request) : ∃ t, q.serve context s = some ((), t) ∧
    Idle context t ∧ Retains s t ∧ ∀ site u, q.Asks context s site u →
      (anywhere context).Inv u ∧ ∀ type v, resolveSite context site u = some (type, v) →
        Retains v t := by
  cases q with
  | defect d =>
    have hn := Notes.report d s
    exact ⟨_, rfl, ⟨h.inv.notes hn, h.frames, h.consistent⟩, .of_grows hn.grows, nofun⟩
  | definition name =>
    obtain ⟨type, t, ht, hidle, hg⟩ := h.definition name
    refine ⟨t, bind_eq_some.mpr ⟨type, t, ht, rfl⟩, hidle, .of_grows hg.toGrows,
      fun site u ha => ?_⟩
    cases ha with
    | definition hc =>
      obtain ⟨-, hi, hv⟩ := hc.kept (S := anywhere context)
        (fun r hr => Scene.resolveDefinition_keeps hr h.inv name _ _) ht
      exact ⟨hi, fun type v ht => .of_grows (hv type v ht)⟩
  | schema schema name =>
    obtain ⟨type, t, ht, hidle, hg⟩ := h.site ⟨schema, name, ⟨[name]⟩, name⟩
    obtain ⟨answer, ha⟩ := resolveSchema_eq ht
    refine ⟨_, bind_eq_some.mpr ⟨answer, _, ha, rfl⟩, hidle.drain,
      ⟨hg.resolved, hg.claimed, hg.failed⟩, fun site u ha => ?_⟩
    cases ha with
    | schema =>
      refine ⟨h.inv, fun type' v hv => ?_⟩
      cases ht.symm.trans hv
      exact ⟨id, id, fun _ hf => hf⟩
  | operation o =>
    obtain ⟨m, t, ht, hidle, hg⟩ := h.operation o
    refine ⟨t, bind_eq_some.mpr ⟨m, t, ht, rfl⟩, hidle, .of_grows hg.toGrows,
      fun site u ha => ?_⟩
    cases ha with
    | operation hc =>
      obtain ⟨-, hi, hv⟩ := hc.kept (S := anywhere context)
        (fun r hr => Scene.buildMethod_keeps hr h.inv (standsIn_anywhere o)) ht
      exact ⟨hi, fun type v ht => .of_grows (hv type v ht)⟩

theorem serveAll_idle (h : Idle context s) (requests : List Request) :
    ∃ t, serveAll context requests s = some ((), t) ∧ Idle context t ∧ Retains s t := by
  induction requests generalizing s with
  | nil => exact ⟨s, serveAll_nil, h, .refl s⟩
  | cons q rest ih =>
    obtain ⟨u, hu, hidle, hr, -⟩ := serve_idle h q
    obtain ⟨t, ht, hidle', hr'⟩ := ih hidle
    exact ⟨t, serveAll_cons.mpr ⟨u, hu, ht⟩, hidle', hr.trans hr'⟩

section

variable {requests before after : List Request} {site : Site}
  (hl : serveAll context requests {} = some ((), last))
include hl

/-- What is known before some of the requests is known after all of them. -/
theorem retains_of_append (hq : requests = before ++ after)
    (hs : serveAll context before {} = some ((), s)) :
    Idle context s ∧ ∀ t, serveAll context after s = some ((), t) → t = last := by
  obtain ⟨_, hs', hidle, -⟩ := serveAll_idle (idle_empty context) before
  cases hs.symm.trans hs'
  refine ⟨hidle, fun t ht => ?_⟩
  have hall := serveAll_append.mpr ⟨s, hs, ht⟩
  rw [← hq] at hall
  exact (Prod.mk.inj (Option.some.inj (hall.symm.trans hl))).2

theorem Visits.kept (h : Visits context requests site s) : (anywhere context).Inv s ∧
    ∀ type t, resolveSite context site s = some (type, t) → Retains t last := by
  induction h with
  | @request before after q site s t hq hs ha =>
    obtain ⟨hidle, hlast⟩ := retains_of_append hl hq hs
    obtain ⟨u, hu, hidle', -, hasks⟩ := serve_idle hidle q
    obtain ⟨_, hrest, -, hretains⟩ := serveAll_idle hidle' after
    obtain rfl := hlast _ (serveAll_cons.mpr ⟨u, hu, hrest⟩)
    obtain ⟨hi, hv⟩ := hasks site t ha
    exact ⟨hi, fun type v ht => (hv type v ht).trans hretains⟩
  | @inside site site' s t h hc ih =>
    obtain ⟨hi, hlast⟩ := ih
    obtain ⟨type, u, hu, -⟩ := Scene.resolveSite_keeps (anywhere context) {} site s
      ⟨.root trivial, hi⟩
    obtain ⟨-, hi', hv⟩ := hc.kept (S := anywhere context)
      (fun r hr => Scene.resolveStep_keeps hr site s ⟨.root trivial, hi⟩)
      ((congrFun (resolveSite_eq context site) s).symm.trans hu)
    exact ⟨hi', fun type v ht => (Retains.of_grows (hv type v ht)).trans (hlast _ _ hu)⟩

theorem Passes.kept (h : Passes context requests s) : Retains s last := by
  cases h with
  | @between before after _ hq hs =>
    obtain ⟨hidle, hlast⟩ := retains_of_append hl hq hs
    obtain ⟨t, ht, -, hr⟩ := serveAll_idle hidle after
    exact hlast t ht ▸ hr
  | @start site s h =>
    obtain ⟨hi, hlast⟩ := h.kept hl
    obtain ⟨type, t, ht, -, hy⟩ := Scene.resolveSite_keeps (anywhere context) {} site s
      ⟨.root trivial, hi⟩
    exact (Retains.of_grows hy.reaches.later.toGrows).trans (hlast type t ht)
  | finish h ht => exact (h.kept hl).2 _ _ ht

/-- A reference that has a type is remembered with it, under the definition's own key. -/
theorem Refers.remembered {name : String} {type : ModelType}
    (h : Refers context requests name type) : ∃ canonical schema,
      context.document.definition? name = some (canonical, schema) ∧
        last.typeOf? canonical = some type ∧
        Fields.get? last.claimed (caseKey canonical) = some canonical := by
  have hkeeps : ∀ {name pointer owner type s t}, (anywhere context).Inv s →
      resolveDefinition context (resolveSite context) name pointer owner s = some (some type, t) →
      Retains t last → ∃ canonical schema,
        context.document.definition? name = some (canonical, schema) ∧
          last.typeOf? canonical = some type ∧
          Fields.get? last.claimed (caseKey canonical) = some canonical := by
    intro name pointer owner type s t hi ht hr
    obtain ⟨canonical, schema, hd, hx, hc⟩ := ((Scene.resolveDefinition_keeps
      (Scene.resolveSite_keeps (anywhere context) {}) hi name pointer owner).holds ht).holds rfl
    exact ⟨canonical, schema, hd, hr.resolved hx, hr.claimed hc⟩
  cases h with
  | @outside before after name type s t hq hs ht =>
    obtain ⟨hidle, hlast⟩ := retains_of_append hl hq hs
    obtain ⟨u, hu, hidle', -⟩ := serve_idle hidle (.definition name)
    obtain ⟨_, hrest, -, hretains⟩ := serveAll_idle hidle' after
    obtain rfl := hlast _ (serveAll_cons.mpr ⟨u, hu, hrest⟩)
    obtain ⟨_, _, ht', hu⟩ := bind_eq_some.mp hu
    cases ht.symm.trans ht'
    cases hu
    exact hkeeps hidle.inv ht hretains
  | @inside site text name type s t h hr hp ht =>
    obtain ⟨hi, hlast⟩ := h.kept hl
    have hretains := hlast _ _ ht
    rw [resolveSite_reference hr hp] at ht
    exact hkeeps hi ht hretains

end

end Resolution

open Resolution

/-- Whatever a resolver is asked for, it serves it. References of one name up to case that have a
type have the same, wherever they are resolved. What a definition is remembered with stays so, and
no definition that is remembered has failed. All this holds of builds, too, which are sequences of
requests and may come after others. -/
theorem references_agree (context : Context) (requests : List Request) :
    ∃ last, serveAll context requests {} = some ((), last) ∧
      (∀ name name' type type', Refers context requests name type →
        Refers context requests name' type' → caseKey name = caseKey name' → type = type') ∧
      (∀ s, Passes context requests s → ∀ key type, Fields.get? s.resolved key = some type →
        Fields.get? last.resolved key = some type) ∧
      (∀ s, Passes context requests s → ∀ key ∈ s.failed, Fields.get? s.resolved key = none) ∧
      ∃ methods t, Build.resolveAll context (resolveSite context) last = some (methods, t) ∧
        serveAll context (requests ++ Request.ofBuild context.document) {} = some ((), t) := by
  obtain ⟨last, hl, hidle, -⟩ := serveAll_idle (idle_empty context) requests
  refine ⟨last, hl, fun name name' type type' h h' hk => ?_, fun s hs key type hr => ?_,
    fun s hs => ?_, ?_⟩
  · obtain ⟨canonical, schema, hd, hx, hc⟩ := h.remembered hl
    obtain ⟨canonical', schema', hd', hx', hc'⟩ := h'.remembered hl
    -- One key belongs to one definition.
    have hkey : caseKey canonical = caseKey canonical' := by
      rw [Scene.caseKey_of_definition? hd, Scene.caseKey_of_definition? hd', hk]
    rw [hkey] at hc
    obtain rfl := Option.some.inj (hc.symm.trans hc')
    exact Option.some.inj (hx.symm.trans hx')
  · exact (hs.kept hl).resolved hr
  · exact (hs.kept hl).consistent hidle.consistent
  · obtain ⟨methods, t, ht⟩ := Ends.resolveAll (resolveSite_total context) context last
    exact ⟨methods, t, ht, serveAll_append.mpr ⟨last, hl, serveAll_ofBuild ht⟩⟩

end ApiModel
