import ApiModel.Proofs.Methods

/-! # The calls of a build

What a build resolves, and in which states: every schema, reference and definition, every object
type that is registered, every parameter and every operation. Each of these calls starts within
the invariant, and what it leaves behind is still there when the build ends.
-/

namespace ApiModel.Resolution

open Text (caseKey)

variable {α β : Type} {context : Context} {s t u last : State}

/-- The part has to resolve the schema at `site` in the state `t`: it has no outcome without that
call, whatever becomes of it otherwise. -/
def Calls (context : Context) (part : Resolver → Run α) (s : State) (site : Site) (t : State) :
    Prop :=
  ∀ r : Resolver, r site t = none →
    (∀ site' t', (site', t') ≠ (site, t) → r site' t' = resolveSite context site' t') →
    part r s = none

theorem Calls.resolve (site : Site) (s : State) :
    Calls context (fun r => r site) s site s := fun _ hr _ => hr

theorem Calls.bind {part : Resolver → Run α} {site : Site} (h : Calls context part s site t)
    (f : Resolver → α → Run β) : Calls context (fun r => part r >>= f r) s site t := by
  intro r hr hother
  show (part r s).bind _ = none
  rw [h r hr hother]
  rfl

open Classical in
noncomputable def lacking (context : Context) (site : Site) (t : State) : Resolver :=
  fun site' t' => if (site', t') = (site, t) then none else resolveSite context site' t'

theorem calls_iff {part : Resolver → Run α} {site : Site} :
    Calls context part s site t ↔ part (lacking context site t) s = none := by
  constructor
  · intro h
    exact h _ (if_pos rfl) fun site' t' hne => if_neg hne
  · intro h r hr hother
    obtain rfl : r = lacking context site t := by
      funext site' t'
      by_cases heq : (site', t') = (site, t)
      · cases heq
        exact hr.trans (if_pos rfl).symm
      · exact (hother site' t' heq).trans (if_neg heq).symm
    exact h

/-- A call of a part that keeps the invariant starts within it, and its outcome is still there when
the part ends. -/
theorem Calls.kept {S : Scene} {part : Resolver → Run α} {Q : α → State → Prop} {site : Site}
    (hc : Calls S.context part s site t)
    (hpart : ∀ r, (S.contract last).Joins (resolveSite S.context) r →
      Alike (Grows · last) (part (resolveSite S.context)) (part r) s Q)
    {a : α} (ha : part (resolveSite S.context) s = some (a, last)) :
    S.Stands site.pointer site.schema ∧ S.Inv t ∧
      ∀ type u, resolveSite S.context site t = some (type, u) → Grows u last := by
  by_contra hn
  -- Without the call at hand the part would have the same outcome.
  have hr : (S.contract last).Joins (resolveSite S.context) (lacking S.context site t) :=
    fun site' t' h => by
      obtain ⟨type, u, hu, hg, hq⟩ := Scene.resolveSite_keeps S last site' t' h
      refine ⟨type, u, hu, fun hl => ⟨(hg hl).1, ?_⟩, hq⟩
      by_cases heq : (site', t') = (site, t)
      · cases heq
        refine (hn ⟨h.1, h.2, fun type' u' hu' => ?_⟩).elim
        cases hu.symm.trans hu'
        exact hl
      · exact (if_neg heq).trans hu
  obtain ⟨b, v, hb, hg, -⟩ := hpart _ hr
  cases hb.symm.trans ha
  cases (calls_iff.mp hc).symm.trans (hg (.refl _)).2

inductive Call where
  | node (site : Site)
  | reference (text : String) (site : Site)
  | definition (name : String) (pointer : Pointer) (owner : String)
  | registration (name : String) (pointer : Pointer)
  | parameter (owner typePrefix : String) (d : Declared)
  | method (o : Operation)

def found (outcome : Option α × State) : Bool × State := (outcome.1.isSome, outcome.2)

theorem map_found {x : Option (Option α × State)} {a : Option α} (h : x = some (a, t)) :
    x.map found = some (a.isSome, t) := by rw [h]; rfl

theorem of_map_found {x : Option (Option α × State)} {yields : Bool}
    (h : x.map found = some (yields, t)) : ∃ a, x = some (a, t) ∧ a.isSome = yields := by
  obtain ⟨⟨a, t'⟩, hx, hf⟩ := Option.map_eq_some_iff.mp h
  cases hf
  exact ⟨a, hx, rfl⟩

def Call.run (context : Context) (call : Call) (s : State) : Option (Bool × State) :=
  match call with
  | .node site => (resolveSite context site s).map found
  | .reference text site => (resolveReference context (resolveSite context) text site s).map found
  | .definition name pointer owner =>
    (resolveDefinition context (resolveSite context) name pointer owner s).map found
  | .registration name pointer => some (found (registerComposite name pointer s))
  | .parameter owner typePrefix d =>
    (buildParameter context (resolveSite context) owner typePrefix d s).map found
  | .method o => (buildMethod context (resolveSite context) o s).map found

/-- The calls that a build makes, each with the state that it makes it in. -/
inductive Made (context : Context) : Call → State → Prop where
  | definition {before after : List String} {name : String} {s : State}
      (hn : Fields.keys context.document.definitions = before ++ name :: after)
      (hs : resolveDefinitions context (resolveSite context) before
        (Build.reportMalformed context.document {}).2 = some ((), s)) :
      Made context (.definition name (Pointer.definition name) name) s
  | method {before after : List Operation} {o : Operation} {methods : List Method} {s t : State}
      (ho : operationsOf context.document = before ++ o :: after)
      (he : o.isExcluded context.settings = false)
      (hs : resolveDefinitions context (resolveSite context)
        (Fields.keys context.document.definitions)
        (Build.reportMalformed context.document {}).2 = some ((), s))
      (ht : buildMethods context (resolveSite context) before s = some (methods, t)) :
      Made context (.method o) t
  | parameter {o : Operation} {id : String} {before after : List Declared} {d : Declared}
      {parameters : List Parameter} {s t : State}
      (h : Made context (.method o) s) (hid : o.node.operationId = some id)
      (hd : mergedParameters context.document o.declared = before ++ d :: after)
      (ht : buildParameters context (resolveSite context) id (Naming.properCase id) before
        (mergeParameters context.document id o.declared s).2 = some (parameters, t)) :
      Made context (.parameter id (Naming.properCase id) d) t
  | ofMethod {o : Operation} {site : Site} {s t : State} (h : Made context (.method o) s)
      (hc : Calls context (fun r => buildMethod context r o) s site t) :
      Made context (.node site) t
  | ofDefinition {name owner : String} {pointer : Pointer} {site : Site} {s t : State}
      (h : Made context (.definition name pointer owner) s)
      (hc : Calls context (fun r => resolveDefinition context r name pointer owner) s site t) :
      Made context (.node site) t
  | ofNode {site site' : Site} {s t : State} (h : Made context (.node site) s)
      (hc : Calls context (fun r => resolveStep context r site) s site' t) :
      Made context (.node site') t
  | reference {site : Site} {text : String} {s : State} (h : Made context (.node site) s)
      (hr : site.schema.reference = some text) : Made context (.reference text site) s
  | referred {site : Site} {text name : String} {s : State}
      (h : Made context (.reference text site) s)
      (hp : Reference.parse? text = some ⟨.definitions, name⟩) :
      Made context (.definition name site.pointer site.owner) s
  | inline {site : Site} {s : State} (h : Made context (.node site) s)
      (hs : site.schema.isComposite = true) :
      Made context (.registration site.name site.pointer) s
  | defined {name owner canonical : String} {pointer : Pointer} {schema : Schema} {s t : State}
      (h : Made context (.definition name pointer owner) s)
      (hd : context.document.definition? name = some (canonical, schema))
      (hk : claimKey canonical s = (true, t)) (hr : t.typeOf? canonical = none)
      (hf : caseKey canonical ∉ t.failed) (hs : schema.isComposite = true) :
      Made context (.registration canonical (Pointer.definition canonical)) t

section Nodes

variable {site : Site}

theorem Made.value (h : Made context (.node site) s) {schema : Schema}
    (hr : site.schema.route = .dictionary (some schema)) :
    Made context (.node (site.inside schema "Value" "additionalProperties")) s := by
  refine h.ofNode ?_
  simp only [resolveStep, hr, buildDictionary]
  exact (Calls.resolve _ s).bind _

end Nodes

open Scene

/-- The call is about a part of the document, and the state is within the invariant. -/
def Call.Admits (context : Context) (call : Call) (s : State) : Prop :=
  (ofBuild context).Inv s ∧
    match call with
    | .node site => (ofBuild context).Stands site.pointer site.schema
    | .reference text site => site.schema.reference = some text
    | .parameter _ _ d =>
      ∀ {schema pointer}, d.Values schema pointer → (ofBuild context).Stands pointer schema
    | .method o => o ∈ operationsOf context.document ∧ o.isExcluded context.settings = false
    | _ => True

theorem exists_found {m n : Run (Option α)} {Q : Option α → State → Prop}
    (h : Alike (Grows · last) m n s Q) (hQ : ∀ t, Q none t → t.defects ≠ []) :
    ∃ yields t, (m s).map found = some (yields, t) ∧ (yields = false → t.defects ≠ []) := by
  obtain ⟨a, t, ht, -, hq⟩ := h
  refine ⟨a.isSome, t, map_found ht, fun hy => ?_⟩
  obtain rfl : a = none := by simpa using hy
  exact hQ t hq

/-- A call ends, and it yields something or has found a defect. -/
theorem Call.Admits.ends {call : Call} (h : call.Admits context s) :
    ∃ yields t, call.run context s = some (yields, t) ∧ (yields = false → t.defects ≠ []) := by
  have hr := resolveSite_keeps (ofBuild context) {}
  have hlost : ∀ {P t}, (ofBuild context).Yields P s none t → t.defects ≠ [] := fun hy =>
    marked_ofBuild.mp (hy.lost rfl)
  obtain ⟨hi, h⟩ := h
  cases call with
  | node site => exact exists_found (hr site s ⟨h, hi⟩) fun _ => hlost
  | reference text site => exact exists_found (resolveReference_keeps hr hi h) fun _ => hlost
  | definition name pointer owner =>
    exact exists_found (resolveDefinition_keeps hr hi name pointer owner) fun _ => hlost
  | registration name pointer =>
    refine ⟨_, _, rfl, fun hn => ?_⟩
    obtain ⟨-, hreg⟩ | ⟨id, -, -, hreg⟩ | ⟨d, hreg⟩ := registerComposite_cases name pointer s
    · rw [hreg] at hn; cases hn
    · rw [hreg] at hn; cases hn
    · rw [hreg]
      exact fail_defects d s
  | parameter owner typePrefix d =>
    exact exists_found (buildParameter_keeps hr hi h) fun _ hp => marked_ofBuild.mp (hp.2.2 rfl)
  | method o =>
    refine exists_found (buildMethod_keeps hr hi (standsIn_ofBuild h.1)) fun _ hm => ?_
    exact marked_ofBuild.mp ((hm.2.1 rfl).resolve_left fun he => nomatch h.2.symm.trans he)

/-- A call of the resolver is admitted, and what it leaves behind is part of what its part does. -/
theorem Calls.admits {part : Resolver → Run α} {Q : α → State → Prop} {site : Site}
    (hc : Calls context part s site t)
    (hpart : ∀ r, ((ofBuild context).contract u).Joins (resolveSite context) r →
      Alike (Grows · u) (part (resolveSite context)) (part r) s Q)
    {a : α} (ha : part (resolveSite context) s = some (a, u)) (hu : Grows u last) :
    (Call.node site).Admits context t ∧
      ∀ {yields v}, (Call.node site).run context t = some (yields, v) → Grows v last := by
  obtain ⟨hs, hi, hv⟩ := hc.kept (S := ofBuild context) hpart ha
  refine ⟨⟨hi, hs⟩, fun hrun => ?_⟩
  obtain ⟨type, hrun, -⟩ := of_map_found hrun
  exact (hv type _ hrun).trans hu

namespace Scene

variable {S : Scene} {r : Resolver}

theorem foldlM_reaches {f : β → α → Run β} {l : List α} {b c : β} (h : S.Inv s)
    (hf : ∀ a ∈ l, ∀ b t, S.Inv t → ∃ c u, f b a t = some (c, u) ∧ S.Reaches t u)
    (hl : l.foldlM f b s = some (c, t)) : S.Reaches s t := by
  induction l generalizing b s with
  | nil =>
    cases hl
    exact .refl h
  | cons a rest ih =>
    rw [List.foldlM_cons] at hl
    obtain ⟨b', u, hu, hl⟩ := bind_eq_some.mp hl
    obtain ⟨c', u', hu', hr⟩ := hf a (List.mem_cons_self ..) b s h
    cases hu.symm.trans hu'
    exact hr.trans (ih hr.inv (fun a ha => hf a (List.mem_cons_of_mem _ ha)) hl)

theorem collect_reaches {f : α → Run (Option β)} {before after : List α} {a : α} {bs bs' : List β}
    {b : Option β} (h : S.Inv u)
    (hf : ∀ a ∈ after, ∀ t, S.Inv t → ∃ b u, f a t = some (b, u) ∧ S.Reaches t u)
    (hs : (before.foldlM (fun bs a => do let b ← f a; return bs ++ b.toList) [] : Run _) s =
      some (bs, t))
    (hu : f a t = some (b, u))
    (hl : ((before ++ a :: after).foldlM (fun bs a => do let b ← f a; return bs ++ b.toList) [] :
      Run _) s = some (bs', last)) : S.Reaches u last := by
  rw [List.foldlM_append] at hl
  obtain ⟨_, _, ht, hl⟩ := bind_eq_some.mp hl
  cases hs.symm.trans ht
  rw [List.foldlM_cons] at hl
  obtain ⟨_, _, hstep, hl⟩ := bind_eq_some.mp hl
  obtain ⟨_, _, hu', hstep⟩ := bind_eq_some.mp hstep
  cases hu.symm.trans hu'
  cases hstep
  refine foldlM_reaches h (fun a ha bs t ht => ?_) hl
  obtain ⟨b, v, hv, hr⟩ := hf a ha t ht
  exact ⟨_, v, bind_eq_some.mpr ⟨b, v, hv, rfl⟩, hr⟩

end Scene

theorem resolveAll_eq_some {r : Resolver} {methods : List Method}
    (h : Build.resolveAll context r {} = some (methods, last)) :
    ∃ s, resolveDefinitions context r (Fields.keys context.document.definitions)
        (Build.reportMalformed context.document {}).2 = some ((), s) ∧
      buildMethods context r (operationsOf context.document) s = some (methods, last) := by
  obtain ⟨_, s, hs, h⟩ := bind_eq_some.mp h
  obtain rfl := (Prod.mk.inj (Option.some.inj hs)).2
  obtain ⟨_, t, ht, h⟩ := bind_eq_some.mp h
  exact ⟨t, ht, h⟩

theorem resolveDefinitions_reaches (h : (ofBuild context).Inv s) {names : List String}
    (hs : resolveDefinitions context (resolveSite context) names s = some ((), t)) :
    (ofBuild context).Reaches s t :=
  ((resolveDefinitions_keeps (resolveSite_keeps (ofBuild context) {}) h names).holds hs).1

theorem buildMethods_reaches (h : (ofBuild context).Inv s) {operations : List Operation}
    (ho : operations ⊆ operationsOf context.document) {methods : List Method}
    (hs : buildMethods context (resolveSite context) operations s = some (methods, t)) :
    (ofBuild context).Reaches s t :=
  ((buildMethods_keeps (resolveSite_keeps (ofBuild context) {}) h fun _ hm =>
    standsIn_ofBuild (ho hm)).holds hs).1

/-- What is resolved for a definition is part of what the whole document leads to. -/
theorem definition_grows {before after : List String} {name : String}
    (h : (ofBuild context).Inv t) (hs : resolveDefinitions context (resolveSite context) before s =
      some ((), t)) (hl : resolveDefinitions context (resolveSite context) (before ++ name :: after)
      s = some ((), last)) {type : Option ModelType}
    (hu : resolveTop context (resolveSite context) name t = some (type, u)) : Grows u last := by
  have hreach := ((resolveDefinition_keeps (resolveSite_keeps (ofBuild context) {}) h name
    (Pointer.definition name) name).holds hu).reaches
  rw [resolveDefinitions, List.forM_eq_forM, List.forM_append] at hl
  obtain ⟨_, _, ht, hl⟩ := bind_eq_some.mp hl
  cases hs.symm.trans ht
  rw [List.forM_cons] at hl
  obtain ⟨_, _, hstep, hl⟩ := bind_eq_some.mp hl
  obtain ⟨_, _, hu', hstep⟩ := bind_eq_some.mp hstep
  cases hu.symm.trans hu'
  cases hstep
  exact (resolveDefinitions_reaches hreach.inv hl).later.toGrows

theorem method_grows {before after : List Operation} {o : Operation}
    {methods methods' : List Method} {m : Option Method}
    (ho : before ++ o :: after ⊆ operationsOf context.document) (h : (ofBuild context).Inv t)
    (hs : buildMethods context (resolveSite context) before s = some (methods, t))
    (hl : buildMethods context (resolveSite context) (before ++ o :: after) s =
      some (methods', last))
    (hu : buildMethod context (resolveSite context) o t = some (m, u)) : Grows u last := by
  have hr := resolveSite_keeps (ofBuild context) {}
  have hkeeps : ∀ o ∈ operationsOf context.document, ∀ t, (ofBuild context).Inv t →
      ∃ m u, buildMethod context (resolveSite context) o t = some (m, u) ∧
        (ofBuild context).Reaches t u := fun o ho t ht => by
    obtain ⟨m, u, hu, -, hq⟩ := buildMethod_keeps hr ht (standsIn_ofBuild ho)
    exact ⟨m, u, hu, hq.1⟩
  obtain ⟨m', u', hu', hreach⟩ := hkeeps o (ho (by simp)) t h
  cases hu.symm.trans hu'
  refine (collect_reaches hreach.inv (fun o' ho' => hkeeps o' (ho ?_)) hs hu hl).later.toGrows
  simp [ho']

theorem buildMethod_eq_some {r : Resolver} {o : Operation} {id : String}
    (hid : o.node.operationId = some id) (he : o.isExcluded context.settings = false)
    {m : Option Method} (h : buildMethod context r o s = some (m, last)) :
    ∃ parameters t responses, buildParameters context r id (Naming.properCase id)
        (mergedParameters context.document o.declared)
        (mergeParameters context.document id o.declared s).2 = some (parameters, t) ∧
      buildResponses r id (Naming.properCase id) o.pointer o.node.responses t =
        some (responses, last) := by
  have hincludes : context.settings.includes id = true := by
    simpa [Operation.isExcluded, hid] using he
  simp only [buildMethod, hid, hincludes, if_true] at h
  obtain ⟨_, _, hm, hlast⟩ := bind_eq_some.mp h
  cases hlast
  obtain ⟨merged, _, hmerged, hm⟩ := bind_eq_some.mp hm
  obtain ⟨hfst, rfl⟩ := Prod.mk.inj (Option.some.inj hmerged)
  obtain rfl : mergedParameters context.document o.declared = merged :=
    (mergeParameters_fst ..).symm.trans hfst
  obtain ⟨parameters, t, hps, hm⟩ := bind_eq_some.mp hm
  obtain ⟨responses, _, hrs, hm⟩ := bind_eq_some.mp hm
  cases hm
  exact ⟨parameters, t, responses, hps, hrs⟩

section Parameters

variable {o : Operation} {id : String} {before after : List Declared} {d : Declared}
  {parameters : List Parameter}

theorem parameters_reach (h : (ofBuild context).Inv s) (ho : o ∈ operationsOf context.document)
    (hb : before ⊆ mergedParameters context.document o.declared)
    (hs : buildParameters context (resolveSite context) id (Naming.properCase id) before
      (mergeParameters context.document id o.declared s).2 = some (parameters, t)) :
    (ofBuild context).Inv t :=
  ((buildParameters_keeps (resolveSite_keeps (ofBuild context) {})
    (h.notes (mergeParameters_notes context.document id o.declared s)) fun _ hd =>
      (standsIn_ofBuild ho).merged (hb hd)).holds hs).1.inv

theorem parameter_grows (h : (ofBuild context).Inv s) (ho : o ∈ operationsOf context.document)
    (hid : o.node.operationId = some id) (he : o.isExcluded context.settings = false)
    (hd : mergedParameters context.document o.declared = before ++ d :: after)
    (hs : buildParameters context (resolveSite context) id (Naming.properCase id) before
      (mergeParameters context.document id o.declared s).2 = some (parameters, t))
    {p : Option Parameter}
    (hu : buildParameter context (resolveSite context) id (Naming.properCase id) d t = some (p, u))
    {m : Option Method} (hl : buildMethod context (resolveSite context) o s = some (m, last)) :
    Grows u last := by
  have hr := resolveSite_keeps (ofBuild context) {}
  have hin := standsIn_ofBuild ho
  have hkeeps : ∀ d ∈ mergedParameters context.document o.declared, ∀ t,
      (ofBuild context).Inv t → ∃ p u, buildParameter context (resolveSite context) id
        (Naming.properCase id) d t = some (p, u) ∧ (ofBuild context).Reaches t u :=
    fun d hd t ht => by
      have ⟨p, u, hu, _, hq⟩ : Alike _ (buildParameter _ _ id (Naming.properCase id) d) _ t _ :=
        buildParameter_keeps hr ht (hin.merged hd)
      exact ⟨p, u, hu, hq.1⟩
  obtain ⟨_, _, hu', hreach⟩ := hkeeps d (by simp [hd]) t
    (parameters_reach h ho (hd ▸ List.subset_append_left ..) hs)
  cases hu.symm.trans hu'
  obtain ⟨ps, v, rs, hps, hrs⟩ := buildMethod_eq_some hid he hl
  have hlast := (buildResponses_keeps hr (parameters_reach h ho (List.Subset.refl _) hps)
    hin.2).holds hrs
  rw [hd] at hps
  have huv := collect_reaches hreach.inv (fun e he => hkeeps e (by simp [hd, he])) hs hu hps
  exact huv.later.toGrows.trans hlast.1.later.toGrows

end Parameters

theorem Call.run_node {site : Site} {text : String} (h : site.schema.reference = some text) :
    (Call.node site).run context s = (Call.reference text site).run context s := by
  show (resolveSite context site s).map found = _
  rw [resolveSite_eq, resolveStep, Schema.route_of_reference h]
  rfl

theorem Call.run_reference {site : Site} {text name : String}
    (h : Reference.parse? text = some ⟨.definitions, name⟩) :
    (Call.reference text site).run context s =
      (Call.definition name site.pointer site.owner).run context s := by
  show (resolveReference context (resolveSite context) text site s).map found = _
  rw [resolveReference, h]
  rfl

section Definitions

variable {name owner canonical : String} {pointer : Pointer} {schema : Schema}

/-- A definition that has its own key is resolved under it, and no other is. -/
theorem resolveDefinition_claimKey (r : Resolver) {claimed : Bool}
    (hd : context.document.definition? name = some (canonical, schema))
    (hk : claimKey canonical s = (claimed, t)) :
    resolveDefinition context r name pointer owner s =
      if claimed then resolveClaimed context r canonical schema t else some (none, t) := by
  rw [resolveDefinition, hd]
  show (if !(claimKey canonical s).1 then _ else _ : Run (Option ModelType))
    (claimKey canonical s).2 = _
  rw [hk]
  cases claimed <;> rfl

theorem resolveDefinition_eq (r : Resolver)
    (hd : context.document.definition? name = some (canonical, schema))
    (hk : claimKey canonical s = (true, t)) (hn : t.typeOf? canonical = none)
    (hf : caseKey canonical ∉ t.failed) :
    resolveDefinition context r name pointer owner s =
      (if schema.isComposite then buildDefined context r canonical schema
        else buildAliased r canonical schema) t := by
  have hn : Fields.get? t.resolved (caseKey canonical) = none := hn
  rw [resolveDefinition_claimKey r hd hk, if_pos rfl, resolveClaimed, get_bind]
  simp [hn, hf]

/-- The schema of a definition that is no object type is resolved unless the definition comes round
to itself. -/
theorem Made.aliased (h : Made context (.definition name pointer owner) s)
    (hd : context.document.definition? name = some (canonical, schema))
    (hk : claimKey canonical s = (true, t)) (hn : t.typeOf? canonical = none)
    (hf : caseKey canonical ∉ t.failed) (hs : schema.isComposite = false)
    (hc : comesRound t.frames (caseKey canonical) = false) :
    Made context (.node (definitionSite canonical schema))
      { t with frames := .definition (caseKey canonical) :: t.frames } := by
  refine h.ofDefinition fun r hr _ => ?_
  refine (resolveDefinition_eq r hd hk hn hf).trans ?_
  rw [hs, if_neg Bool.false_ne_true, buildAliased, get_bind]
  simp only [hc, Bool.false_eq_true, if_false]
  show (r (definitionSite canonical schema) _).bind _ = none
  rw [hr]
  rfl

theorem Scene.reaches_of_claimKey {S : Scene} (h : S.Inv s)
    (hk : claimKey canonical s = (true, t)) :
    S.Reaches s t := by
  obtain ⟨hc, rfl⟩ | ⟨-, rfl⟩ := claimed_cases hk
  · exact .claim h hc
  · exact .refl h

theorem inv_of_claimKey {S : Scene} (h : S.Inv s) (hk : claimKey canonical s = (true, t)) :
    S.Inv t ∧ Fields.get? t.claimed (caseKey canonical) = some canonical :=
  ⟨(Scene.reaches_of_claimKey h hk).inv, claimed_of_claimKey hk⟩

end Definitions

/-- Every call starts within the invariant, and what it leaves behind is part of what the whole
document leads to. -/
theorem Made.kept {methods : List Method}
    (hall : Build.resolveAll context (resolveSite context) {} = some (methods, last)) {call : Call}
    (h : Made context call s) : call.Admits context s ∧
      ∀ {yields t}, call.run context s = some (yields, t) → Grows t last := by
  have hr := resolveSite_keeps (ofBuild context)
  have hstart := inv_reportMalformed context
  obtain ⟨defined, hdefined, hmethods⟩ := resolveAll_eq_some hall
  have hreached := resolveDefinitions_reaches hstart hdefined
  have hlast := buildMethods_reaches hreached.inv (List.Subset.refl _) hmethods
  induction h with
  | definition hn hs =>
    have hi := (resolveDefinitions_reaches hstart hs).inv
    refine ⟨⟨hi, trivial⟩, fun ht => ?_⟩
    obtain ⟨type, hu, -⟩ := of_map_found ht
    rw [hn] at hdefined
    exact (definition_grows hi hs hdefined hu).trans hlast.later.toGrows
  | method ho he hs ht =>
    cases hs.symm.trans hdefined
    have hi := (buildMethods_reaches hreached.inv (ho ▸ List.subset_append_left ..) ht).inv
    refine ⟨⟨hi, by simp [ho], he⟩, fun hu => ?_⟩
    obtain ⟨m, hu, -⟩ := of_map_found hu
    rw [ho] at hmethods
    exact method_grows (ho ▸ List.Subset.refl _) hi ht hmethods hu
  | parameter h hid hd ht ih =>
    obtain ⟨⟨hi, ho, he⟩, hgrows⟩ := ih
    obtain ⟨m, v, hm, -, -⟩ := buildMethod_keeps (hr {}) hi (standsIn_ofBuild ho)
    refine ⟨⟨parameters_reach hi ho (hd ▸ List.subset_append_left ..) ht,
      (standsIn_ofBuild ho).merged (by simp [ofBuild, hd])⟩, fun hu => ?_⟩
    obtain ⟨p, hu, -⟩ := of_map_found hu
    exact (parameter_grows hi ho hid he hd ht hu hm).trans (hgrows (map_found hm))
  | ofMethod h hc ih =>
    obtain ⟨⟨hi, ho, he⟩, hgrows⟩ := ih
    obtain ⟨m, u, hm, -, -⟩ := buildMethod_keeps (hr {}) hi (standsIn_ofBuild ho)
    exact hc.admits (fun r hr => buildMethod_keeps hr hi (standsIn_ofBuild ho)) hm
      (hgrows (map_found hm))
  | ofDefinition h hc ih =>
    obtain ⟨⟨hi, -⟩, hgrows⟩ := ih
    obtain ⟨type, u, hd, -, -⟩ := resolveDefinition_keeps (hr {}) hi _ _ _
    exact hc.admits (fun r hr => resolveDefinition_keeps hr hi _ _ _) hd (hgrows (map_found hd))
  | ofNode h hc ih =>
    obtain ⟨⟨hi, hs⟩, hgrows⟩ := ih
    obtain ⟨type, u, hu, -, -⟩ := hr {} _ _ ⟨hs, hi⟩
    exact hc.admits (fun r hr => resolveStep_keeps hr _ _ ⟨hs, hi⟩)
      ((congrFun (resolveSite_eq context _) _).symm.trans hu) (hgrows (map_found hu))
  | reference h ht ih =>
    obtain ⟨⟨hi, -⟩, hgrows⟩ := ih
    exact ⟨⟨hi, ht⟩, fun hu => hgrows ((Call.run_node ht).trans hu)⟩
  | referred h hp ih =>
    obtain ⟨⟨hi, -⟩, hgrows⟩ := ih
    exact ⟨⟨hi, trivial⟩, fun hu => hgrows ((Call.run_reference hp).trans hu)⟩
  | @inline site s h hshape ih =>
    obtain ⟨⟨hi, hs⟩, hgrows⟩ := ih
    obtain ⟨type, v, hv, -, -, hg⟩ := buildInline_keeps (hr {}) hi hs hshape
    have hnode : resolveSite context site s = some (type, v) := by
      rw [resolveSite_eq, resolveStep, Schema.route_eq_composite_iff.mpr hshape]
      exact hv
    refine ⟨⟨hi, trivial⟩, fun hu => ?_⟩
    cases hu
    exact hg.trans (hgrows (map_found hnode))
  | @defined name owner canonical pointer schema s t h hd hk hn hf hshape ih =>
    obtain ⟨⟨hi, -⟩, hgrows⟩ := ih
    obtain ⟨hi, hc⟩ := inv_of_claimKey hi hk
    obtain ⟨type, v, hv, -, -, hg⟩ := buildDefined_keeps (hr {}) hi hc (get?_of_definition? hd)
      hshape hn
    have hdef : resolveDefinition context (resolveSite context) name pointer owner s =
        some (type, v) := by
      rw [resolveDefinition_eq _ hd hk hn hf, if_pos hshape]
      exact hv
    refine ⟨⟨hi, trivial⟩, fun hu => ?_⟩
    cases hu
    exact hg.trans (hgrows (map_found hdef))

end ApiModel.Resolution
