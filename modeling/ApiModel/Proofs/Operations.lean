import ApiModel.Proofs.Following

/-! # Operations become methods

A model has a method for each selected operation, in the order of the document. Nothing is left out
of a method on the way: parameters and responses are missing only where there is a defect, and
then there is no model.
-/

namespace ApiModel

open Resolution

theorem map_eq_of_forall₂ {α β γ : Type} {R : α → β → Prop} {f : α → γ} {g : β → γ} {l : List α}
    {l' : List β} (h : List.Forall₂ R l l') (hR : ∀ a b, R a b → f a = g b) :
    l.map f = l'.map g := by
  induction h with
  | nil => rfl
  | cons hr _ ih => rw [List.map_cons, List.map_cons, hR _ _ hr, ih]

theorem Location.ofName?_eq_some {text : String} {location : Location} :
    ofName? text = some location ↔ text = location.name := by
  constructor
  · intro h
    have hname := List.find?_some (p := fun l : Location => l.name == text) h
    exact (beq_iff_eq.mp hname).symm
  · rintro rfl
    cases location <;> rfl

namespace Resolution

/-- The parameters that are declared for an operation, shared ones in the place of references. -/
def Operation.dereferenced (document : Document) (o : Operation) : List Declared :=
  o.declared.filterMap fun d => (dereference document d).toOption

theorem keys_foldl_putParameter (declared : List Declared) :
    (declared.foldl putParameter []).map Declared.key =
        (declared.map Declared.key).eraseDups ∧
      ((declared.foldl putParameter []).map Declared.key).Nodup := by
  rw [putParameter_eq]
  exact Keyed.keys_foldl_put Declared.key declared

theorem mergedParameters_eq (document : Document) (o : Operation) :
    mergedParameters document o.declared = (o.dereferenced document).foldl putParameter [] := by
  unfold mergedParameters Operation.dereferenced
  rw [List.foldl_filterMap]
  congr 1
  funext merged d
  unfold mergeParameter
  cases dereference document d <;> rfl

/-- A response says what a node declares; it has a body where the node has a schema. -/
structure Responds (node : ResponseNode) (response : Response) : Prop where
  description : response.description = node.description
  body : response.body.isSome = node.schema.isSome

structure Responses.Cover (r : Responses) (nodes : List (String × ResponseNode)) : Prop where
  byStatus : List.Forall₂ (fun n a => a.1 = n.1 ∧ Responds n.2 a.2)
    (nodes.filter (·.1 ≠ "default")) r.byStatus
  otherwise : r.otherwise.isSome = true ↔ "default" ∈ Fields.keys nodes
  responds : ∀ response, r.otherwise = some response →
    ∃ node, ("default", node) ∈ nodes ∧ Responds node response

variable {context : Context} {c : Catalog} {types : String → Option ModelType}
  {owner typePrefix : String} {pointer : Pointer} {nodes : List (String × ResponseNode)}
  {r : Responses} {status : String} {node : ResponseNode} {response : Response}

theorem Responses.Cover.statuses (h : r.Cover nodes) :
    Fields.keys r.byStatus = (Fields.keys nodes).filter (· ≠ "default") := by
  have hkeys : (nodes.filter (·.1 ≠ "default")).map Prod.fst = r.byStatus.map Prod.fst :=
    map_eq_of_forall₂ h.byStatus fun _ _ ha => ha.1.symm
  rw [Fields.keys, ← hkeys, Fields.keys, List.filter_map]
  rfl

theorem Responses.Cover.add (h : r.Cover nodes) (hn : status ∉ Fields.keys nodes)
    (hr : Responds node response) : (r.add status response).Cover (nodes ++ [(status, node)]) := by
  unfold Responses.add
  by_cases hs : status = "default"
  · subst hs
    rw [if_pos rfl]
    refine ⟨?_, ?_, ?_⟩
    · simpa using h.byStatus
    · simp [Fields.keys]
    · rintro _ ⟨⟩
      exact ⟨node, by simp, hr⟩
  · rw [if_neg hs]
    have hnew : status ∉ Fields.keys r.byStatus := by
      rw [h.statuses, List.mem_filter]
      exact fun hm => hn hm.1
    refine ⟨?_, ?_, ?_⟩
    · rw [List.filter_append, Fields.set_of_not_mem hnew]
      refine List.rel_append h.byStatus ?_
      simpa [hs] using hr
    · simpa [Fields.keys, Ne.symm hs] using h.otherwise
    · intro other ho
      obtain ⟨n, hm, hresponds⟩ := h.responds other ho
      exact ⟨n, List.mem_append_left _ hm, hresponds⟩

theorem Responses.Cover.counting (h : r.Cover nodes) (s : Schema) :
    (r.counting s).Cover nodes := by
  unfold Responses.counting
  split
  · exact ⟨h.byStatus, h.otherwise, h.responds⟩
  · exact h

theorem Answers.cover (h : Answers context c types owner typePrefix pointer nodes r)
    (hn : (Fields.keys nodes).Nodup) : r.Cover nodes := by
  have hlast : ∀ {nodes : List (String × ResponseNode)} {n}, (Fields.keys (nodes ++ [n])).Nodup →
      (Fields.keys nodes).Nodup ∧ n.1 ∉ Fields.keys nodes := by
    intro nodes n h
    rw [Fields.keys, List.map_append, List.nodup_append] at h
    exact ⟨h.1, fun hm => h.2.2 _ hm _ (List.mem_singleton_self _) rfl⟩
  induction h with
  | nil => exact ⟨.nil, by simp [Fields.keys], fun _ ho => absurd ho.symm (Option.some_ne_none _)⟩
  | empty _ hs ih =>
    obtain ⟨hn, hnew⟩ := hlast hn
    exact (ih hn).add hnew ⟨rfl, by rw [hs]; rfl⟩
  | body _ hs _ ih =>
    obtain ⟨hn, hnew⟩ := hlast hn
    exact ((ih hn).counting _).add hnew ⟨rfl, by rw [hs]; rfl⟩

/-- A method has the parameters and the responses of an operation, each of them once. -/
structure Operation.Modelled (document : Document) (o : Operation) (m : Method) : Prop where
  operationId : o.node.operationId = some m.operationId
  httpMethod : m.httpMethod = o.method
  url : m.url = o.path
  declared : ∀ d ∈ o.declared, ∃ e, dereference document d = .ok e
  parameters : m.parameters.map (fun p => (some p.name, some p.location.name)) =
    ((o.dereferenced document).map Declared.key).eraseDups
  distinct : (m.parameters.map fun p => (p.name, p.location)).Nodup
  statuses : Fields.keys m.responses = (Fields.keys o.node.responses).filter (· ≠ "default")
  responses : List.Forall₂ (fun n a => a.1 = n.1 ∧ Responds n.2 a.2)
    (o.node.responses.filter (·.1 ≠ "default")) m.responses
  defaultResponse : m.defaultResponse.isSome = true ↔ "default" ∈ Fields.keys o.node.responses
  responds : ∀ response, m.defaultResponse = some response →
    ∃ node, ("default", node) ∈ o.node.responses ∧ Responds node response

theorem ParameterOf.key {d : Declared} {p : Parameter}
    (h : ParameterOf context c types owner typePrefix d p) :
    d.key = (some p.name, some p.location.name) := by
  obtain ⟨text, htext, hlocation⟩ := Option.bind_eq_some_iff.mp h.location
  rw [Declared.key, h.name, htext, Location.ofName?_eq_some.mp hlocation]

theorem MethodOf.modelled {o : Operation} {m : Method} (h : MethodOf context c types o m)
    (hn : (Fields.keys o.node.responses).Nodup) : o.Modelled context.document m := by
  obtain ⟨r, hanswers, hby, hother⟩ := h.responses
  have hcover := hanswers.cover hn
  have hkeys := map_eq_of_forall₂ h.parameters fun _ _ hp => hp.key
  rw [mergedParameters_eq] at hkeys
  obtain ⟨herase, hnodup⟩ := keys_foldl_putParameter (o.dereferenced context.document)
  refine ⟨h.operationId, h.httpMethod, h.url, h.declared, hkeys.symm.trans herase, ?_,
    hby ▸ hcover.statuses, hby ▸ hcover.byStatus, hother ▸ hcover.otherwise,
    hother ▸ hcover.responds⟩
  rw [hkeys] at hnodup
  refine List.Nodup.of_map (fun k => (some k.1, some k.2.name)) ?_
  rwa [List.map_map]

theorem nodup_responses {document : Document} (hn : document.NamesOnce) {o : Operation}
    (ho : o ∈ operationsOf document) : (Fields.keys o.node.responses).Nodup := by
  obtain ⟨p, hp, ho⟩ := List.mem_flatMap.mp ho
  obtain ⟨n, hn', rfl⟩ := List.mem_map.mp ho
  exact hn.responses p hp n hn'

theorem exists_operationId {methods : List Method} {last : State}
    (hall : Build.resolveAll context (resolveSite context) {} = some (methods, last))
    (hd : last.defects = []) {o : Operation} (ho : o ∈ operationsOf context.document) :
    ∃ id, o.node.operationId = some id := by
  cases hid : o.node.operationId with
  | some id => exact ⟨id, rfl⟩
  | none =>
    have he : o.isExcluded context.settings = false := by simp [Operation.isExcluded, hid]
    obtain ⟨s, m, t, hmade, hm⟩ := exists_made_method hall ho he
    obtain ⟨-, hgrows⟩ := hmade.kept hall
    have hlast := hgrows (map_found hm)
    simp only [buildMethod, hid] at hm
    cases hm
    exact absurd (List.prefix_nil.mp (hd ▸ hlast.defects)) (fail_defects (α := Method) _ s)

end Resolution

theorem filter_operationsOf (document : Document) (settings : Settings) :
    ((operationsOf document).filter (·.isSelected settings)).map
        (fun o => (o.path, o.method, o.node.operationId)) =
      document.paths.flatMap fun p =>
        [HttpMethod.get, .put, .post, .delete, .options, .head, .patch].filterMap fun method =>
          (p.2.operation? method).bind fun node =>
            (node.operationId.filter settings.includes).map fun id => (p.1, method, some id) := by
  unfold operationsOf
  rw [List.filter_flatMap, List.map_flatMap]
  congr 1
  funext p
  unfold PathItem.operations
  rw [List.map_filterMap, List.filter_filterMap, List.map_filterMap]
  refine List.filterMap_congr fun method _ => ?_
  cases hnode : p.2.operation? method with
  | none => rfl
  | some node =>
    cases hid : node.operationId with
    | none => simp [Operation.isSelected, hid]
    | some id =>
      by_cases hi : settings.includes id = true <;>
        simp [Option.filter, Operation.isSelected, hid, hi]

/-- A model has exactly the methods of the selected operations, path by path in the order of the
document and within a path in the order of the methods. Each has exactly the parameters and the
responses that its operation declares. -/
theorem operations_modelled {context : Context} {m : ClientModel}
    (hn : context.document.NamesOnce) (h : (Build.run context).result = .ok m) :
    (∀ o ∈ operationsOf context.document, ∃ id, o.node.operationId = some id) ∧
    (m.methods.map fun x => (x.url, x.httpMethod, some x.operationId)) =
      (context.document.paths.flatMap fun p =>
        [HttpMethod.get, .put, .post, .delete, .options, .head, .patch].filterMap fun method =>
          (p.2.operation? method).bind fun node =>
            (node.operationId.filter context.settings.includes).map fun id =>
              (p.1, method, some id)) ∧
    List.Forall₂ (Operation.Modelled context.document)
      ((operationsOf context.document).filter (·.isSelected context.settings)) m.methods := by
  obtain ⟨t, hall, hf, hd, -, -⟩ := Scene.finished_of_run h
  have hmodelled : List.Forall₂ (Operation.Modelled context.document)
      ((operationsOf context.document).filter (·.isSelected context.settings)) m.methods := by
    refine List.forall₂_iff_zip.mpr ⟨(hf.methods hd).length_eq, fun {o x} hox => ?_⟩
    refine ((List.forall₂_iff_zip.mp (hf.methods hd)).2 hox).modelled ?_
    exact nodup_responses hn (List.mem_of_mem_filter (List.of_mem_zip hox).1)
  refine ⟨fun o ho => exists_operationId hall hd ho, ?_, hmodelled⟩
  rw [← filter_operationsOf]
  refine (map_eq_of_forall₂ hmodelled fun o x hx => ?_).symm
  rw [hx.url, hx.httpMethod, hx.operationId]

def boarding : Document where
  info := { title := "Boarding", version := "1" }
  paths := [("/pets", {
    parameters := [
      { name := some "owner", location := some "query", typeName := some "string" },
      { name := some "days", location := some "query", typeName := some "integer" }]
    operation? := fun method =>
      match method with
      | .get => some { operationId := some "pets_list", responses := [("200", {})] }
      | .put => some {
          operationId := some "pets_keep"
          parameters := [
            { name := some "tag", location := some "header", typeName := some "string" },
            { name := some "owner", location := some "query", typeName := some "integer" }]
          responses := [
            ("default", {}),
            ("200", { schema := some { typeName := some "string" } })] }
      | _ => none })]

theorem operations_modelled_boarding : ∃ m, boarding.NamesOnce ∧
    (Build.run ⟨boarding, { excludeOperations := ["pets_list"] }⟩).result = .ok m ∧
    (m.methods.map fun x => (x.url, x.httpMethod, some x.operationId)) =
      [("/pets", .put, some "pets_keep")] ∧
    ∀ x ∈ m.methods, Fields.keys x.responses = ["200"] ∧ x.defaultResponse.isSome = true ∧
      x.parameters.map (fun p => (some p.name, some p.location.name)) =
        [(some "owner", some "query"), (some "days", some "query"),
          (some "tag", some "header")] := by
  have hn : boarding.NamesOnce := by decide +kernel
  have hok : (Build.run
      ⟨boarding, { excludeOperations := ["pets_list"] }⟩).result.toOption.isSome = true := by
    decide +kernel
  obtain ⟨m, hm⟩ := Option.isSome_iff_exists.mp hok
  have h := eq_ok_of_toOption hm
  obtain ⟨-, horder, hmethods⟩ := operations_modelled hn h
  have hdeclared : ∀ o ∈ (operationsOf boarding).filter
      (·.isSelected { excludeOperations := ["pets_list"] }),
      (Fields.keys o.node.responses).filter (· ≠ "default") = ["200"] ∧
      "default" ∈ Fields.keys o.node.responses ∧
      ((o.dereferenced boarding).map Declared.key).eraseDups =
        [(some "owner", some "query"), (some "days", some "query"),
          (some "tag", some "header")] := by decide +kernel
  refine ⟨m, hn, h, horder.trans (by decide +kernel), fun x hx => ?_⟩
  obtain ⟨o, ho, hm⟩ := exists_of_mem_forall₂ hmethods hx
  obtain ⟨hstatuses, hdefault, hkeys⟩ := hdeclared o ho
  exact ⟨hm.statuses.trans hstatuses, hm.defaultResponse.mpr hdefault, hm.parameters.trans hkeys⟩

end ApiModel
