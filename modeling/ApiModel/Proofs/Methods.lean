import ApiModel.Proofs.Invariant
import ApiModel.Proofs.Keyed
import ApiModel.Resolution.Build
import Mathlib.Data.List.Forall2

/-! # What methods say

A method that has been built says what its operation declares: a parameter for each of the merged
ones in their order, and the declared responses, with the types of their schemas. A whole run keeps
the invariant and gives every definition a type and every selected operation its method, unless it
finds a defect.
-/

namespace ApiModel.Resolution

open Text (caseKey)

variable {context : Context} {c d : Catalog} {types types' : String → Option ModelType}
  {owner typePrefix : String} {pointer : Pointer}

def mergeParameter (document : Document) (merged : List Declared) (d : Declared) :
    List Declared :=
  match dereference document d with
  | .ok d => putParameter merged d
  | .error _ => merged

def mergedParameters (document : Document) (declared : List Declared) : List Declared :=
  declared.foldl (mergeParameter document) []

theorem mergeParameters_fst (document : Document) (owner : String) (declared : List Declared)
    (s : State) : (mergeParameters document owner declared s).1 =
      mergedParameters document declared := by
  unfold mergeParameters mergedParameters
  generalize ([] : List Declared) = merged
  induction declared generalizing merged s with
  | nil => rfl
  | cons d rest ih =>
    rw [List.foldlM_cons, step_bind, ih, List.foldl_cons, mergeParameter]
    cases dereference document d <;> rfl

theorem exists_of_mergeParameters {document : Document} {owner : String} {declared : List Declared}
    {s : State} (h : (mergeParameters document owner declared s).2.defects = []) {d : Declared}
    (hd : d ∈ declared) : ∃ e, dereference document d = .ok e := by
  cases he : dereference document d with
  | ok e => exact ⟨e, rfl⟩
  | error fault =>
    obtain ⟨before, after, rfl⟩ := List.append_of_mem hd
    refine absurd h ?_
    unfold mergeParameters
    rw [List.foldlM_append, step_bind, List.foldlM_cons, step_bind, he]
    refine (foldlM_notes (fun merged d s => ?_) after _ _).defects_ne_nil
      (fail_defects (α := Unit) _ _)
    cases dereference document d with
    | ok d => exact .refl s
    | error fault => exact .report _ s

theorem putParameter_eq : putParameter = Keyed.put Declared.key := by
  funext merged d
  induction merged with
  | nil => rfl
  | cons e rest ih => rw [putParameter, Keyed.put, ih]

theorem mem_of_mem_mergeParameter {document : Document} {merged : List Declared} {d e : Declared}
    (h : e ∈ mergeParameter document merged d) : e ∈ merged ∨ dereference document d = .ok e := by
  unfold mergeParameter at h
  cases hd : dereference document d with
  | error fault =>
    rw [hd] at h
    exact .inl h
  | ok d =>
    rw [hd, putParameter_eq] at h
    exact (Keyed.mem_of_mem_put h).imp_right fun he => by rw [he]

theorem exists_of_mem_mergedParameters {document : Document} {declared : List Declared}
    {e : Declared} (h : e ∈ mergedParameters document declared) :
    ∃ d ∈ declared, dereference document d = .ok e := by
  suffices hs : ∀ merged, e ∈ declared.foldl (mergeParameter document) merged →
      e ∈ merged ∨ ∃ d ∈ declared, dereference document d = .ok e from
    (hs [] h).resolve_left List.not_mem_nil
  clear h
  induction declared with
  | nil => exact fun _ => .inl
  | cons d rest ih =>
    intro merged hm
    rcases ih _ hm with hm | ⟨d', hd', he⟩
    · exact (mem_of_mem_mergeParameter hm).imp_right fun he => ⟨d, List.mem_cons_self .., he⟩
    · exact .inr ⟨d', List.mem_cons_of_mem d hd', he⟩

/-- A schema that a declaration gives for its values. -/
def Declared.Values (d : Declared) (s : Schema) (pointer : Pointer) : Prop :=
  ∃ name location, d.node.name = some name ∧ d.node.location.bind Location.ofName? = some location ∧
    valueSchema d name location = .ok (s, pointer)

theorem Declared.Values.cases {d : Declared} {s : Schema} {pointer : Pointer}
    (h : d.Values s pointer) :
    (d.node.schema = some s ∧ pointer = d.pointer.child "schema") ∨
      s = d.node.asSchema ∧ pointer = d.pointer := by
  obtain ⟨name, location, -, -, hv⟩ := h
  unfold valueSchema at hv
  split_ifs at hv
  · split at hv
    · rename_i schema hs
      cases hv
      exact .inl ⟨hs, rfl⟩
    · cases hv
  · cases hv
    exact .inr ⟨rfl, rfl⟩

/-- A parameter says what a declaration does. -/
structure ParameterOf (context : Context) (c : Catalog) (types : String → Option ModelType)
    (owner typePrefix : String) (d : Declared) (p : Parameter) : Prop where
  name : d.node.name = some p.name
  location : d.node.location.bind Location.ofName? = some p.location
  typed : ∃ schema pointer, valueSchema d p.name p.location = .ok (schema, pointer) ∧
    HasType context c types ⟨schema, Naming.nested typePrefix p.name, pointer, owner⟩ p.type ∧
    constraintsOf context.grammars schema.facets pointer = .ok p.constraints
  format : collectionFormatOf d p.name p.location = .ok p.collectionFormat
  required : p.required = (d.node.required || decide (p.location = .path))
  description : p.description = d.node.description
  defaultValue : p.defaultValue = d.node.defaultValue

theorem ParameterOf.mono (hc : c.Grows d) (ht : ∀ {name type}, types name = some type →
    types' name = some type) {declared : Declared} {p : Parameter}
    (h : ParameterOf context c types owner typePrefix declared p) :
    ParameterOf context d types' owner typePrefix declared p := by
  obtain ⟨schema, pointer, hv, htyped, hk⟩ := h.typed
  exact { h with typed := ⟨schema, pointer, hv, htyped.mono hc ht, hk⟩ }

def bodyPointer (pointer : Pointer) (status : String) : Pointer :=
  ((pointer.child "responses").child status).child "schema"

def Responses.counting (r : Responses) (s : Schema) : Responses :=
  if s.reference.isNone then { r with inlineBodies := r.inlineBodies + 1 } else r

inductive Answers (context : Context) (c : Catalog) (types : String → Option ModelType)
    (owner typePrefix : String) (pointer : Pointer) :
    List (String × ResponseNode) → Responses → Prop where
  | nil : Answers context c types owner typePrefix pointer [] {}
  | empty {nodes : List (String × ResponseNode)} {r : Responses} {status : String}
      {node : ResponseNode} (h : Answers context c types owner typePrefix pointer nodes r)
      (hs : node.schema = none) :
      Answers context c types owner typePrefix pointer (nodes ++ [(status, node)])
        (r.add status ⟨node.description, none⟩)
  | body {nodes : List (String × ResponseNode)} {r : Responses} {status : String}
      {node : ResponseNode} {s : Schema} {type : ModelType}
      (h : Answers context c types owner typePrefix pointer nodes r) (hs : node.schema = some s)
      (ht : HasType context c types ⟨s, bodyName typePrefix status s r.inlineBodies,
        bodyPointer pointer status, owner⟩ type) :
      Answers context c types owner typePrefix pointer (nodes ++ [(status, node)])
        ((r.counting s).add status ⟨node.description, some type⟩)

theorem Answers.mono (hc : c.Grows d) (ht : ∀ {name type}, types name = some type →
    types' name = some type) {nodes : List (String × ResponseNode)} {r : Responses}
    (h : Answers context c types owner typePrefix pointer nodes r) :
    Answers context d types' owner typePrefix pointer nodes r := by
  induction h with
  | nil => exact .nil
  | empty _ hs ih => exact .empty ih hs
  | body _ hs htyped ih => exact .body ih hs (htyped.mono hc ht)

def Operation.isSelected (o : Operation) (settings : Settings) : Bool :=
  o.node.operationId.any settings.includes

def Operation.isExcluded (o : Operation) (settings : Settings) : Bool :=
  o.node.operationId.any fun id => !settings.includes id

theorem Operation.isSelected_of_isExcluded {o : Operation} {settings : Settings}
    (h : o.isExcluded settings = true) : o.isSelected settings = false := by
  unfold isExcluded at h
  unfold isSelected
  cases hid : o.node.operationId <;> simp_all

/-- A method says what an operation declares. -/
structure MethodOf (context : Context) (c : Catalog) (types : String → Option ModelType)
    (o : Operation) (m : Method) : Prop where
  operationId : o.node.operationId = some m.operationId
  group : (m.group, m.name) = splitOperationId m.operationId
  httpMethod : m.httpMethod = o.method
  url : m.url = o.path
  summary : m.summary = o.node.summary
  description : m.description = o.node.description
  deprecated : m.deprecated = o.node.deprecated
  consumes : m.consumes = o.node.consumes.getD context.document.consumes
  produces : m.produces = o.node.produces.getD context.document.produces
  declared : ∀ d ∈ o.declared, ∃ e, dereference context.document d = .ok e
  parameters : List.Forall₂
    (ParameterOf context c types m.operationId (Naming.properCase m.operationId))
    (mergedParameters context.document o.declared) m.parameters
  responses : ∃ r, Answers context c types m.operationId (Naming.properCase m.operationId)
    o.pointer o.node.responses r ∧ m.responses = r.byStatus ∧ m.defaultResponse = r.otherwise

theorem MethodOf.mono (hc : c.Grows d) (ht : ∀ {name type}, types name = some type →
    types' name = some type) {o : Operation} {m : Method} (h : MethodOf context c types o m) :
    MethodOf context d types' o m := by
  obtain ⟨r, ha, hr⟩ := h.responses
  exact { h with
    parameters := h.parameters.imp fun _ _ hp => hp.mono hc ht
    responses := ⟨r, ha.mono hc ht, hr⟩ }

theorem exists_of_mem_forall₂ {α β : Type} {R : α → β → Prop} {l : List α} {l' : List β}
    (h : List.Forall₂ R l l') {b : β} (hb : b ∈ l') : ∃ a ∈ l, R a b := by
  induction h with
  | nil => cases hb
  | cons hr _ ih =>
    rcases List.mem_cons.mp hb with rfl | hb
    · exact ⟨_, List.mem_cons_self .., hr⟩
    · obtain ⟨a, ha, hr⟩ := ih hb
      exact ⟨a, List.mem_cons_of_mem _ ha, hr⟩

theorem eq_ok_of_toOption {ε α : Type} {result : Except ε α} {a : α}
    (h : result.toOption = some a) : result = .ok a := by
  cases result with
  | error => cases h
  | ok b => exact congrArg _ (Option.some.inj h)

namespace Scene

variable {S : Scene} {r r' : Resolver} {s t last : State}

theorem collect_keeps {α β : Type} {f g : α → Run (Option β)} (chosen : α → Bool)
    (Found : State → α → β → Prop) (hmono : ∀ {t u a b}, Grows t u → Found t a b → Found u a b)
    {l : List α} (h : S.Inv s) (hf : ∀ a ∈ l, ∀ t, S.Inv t →
      Alike (Grows · last) (f a) (g a) t fun b u => S.Reaches t u ∧
        (∀ x, b = some x → chosen a = true ∧ Found u a x) ∧
        (b = none → chosen a = false ∨ S.Marked u)) :
    Alike (Grows · last) (l.foldlM (fun bs a => do let b ← f a; return bs ++ b.toList) [])
      (l.foldlM (fun bs a => do let b ← g a; return bs ++ b.toList) []) s fun bs u =>
        S.Reaches s u ∧ (¬S.Marked u → List.Forall₂ (Found u) (l.filter chosen) bs) := by
  refine Alike.foldlM (fun passed bs t => S.Reaches s t ∧
    (¬S.Marked t → List.Forall₂ (Found t) (passed.filter chosen) bs))
    (fun before a after bs t hl ⟨ht, hbs⟩ => ?_) ⟨.refl h, fun _ => .nil⟩
  refine .bind ((hf a (by simp [hl]) t ht.inv).mono fun b u ⟨hu, hsome, hnone⟩ =>
    .pure ⟨ht.trans hu, fun hm => ?_⟩)
  have hbs := (hbs fun hm' => hm (hm'.mono hu.later.defects)).imp
    fun _ _ hx => hmono hu.later.toGrows hx
  rw [List.filter_append]
  cases b with
  | none =>
    have hc : chosen a = false := (hnone rfl).resolve_right hm
    simpa [hc] using hbs
  | some x =>
    obtain ⟨hc, hx⟩ := hsome x rfl
    simpa [hc] using List.rel_append hbs (.cons hx .nil)

theorem buildParameter_keeps (hr : (S.contract last).Joins r r') (h : S.Inv s) {d : Declared}
    (hs : ∀ {schema pointer}, d.Values schema pointer → S.Stands pointer schema) :
    Alike (Grows · last) (buildParameter S.context r owner typePrefix d)
      (buildParameter S.context r' owner typePrefix d) s fun p t => S.Reaches s t ∧
        (∀ x, p = some x → ParameterOf S.context t.catalog t.typeOf? owner typePrefix d x) ∧
        (p = none → S.Marked t) := by
  have hfail : ∀ {t} (fault : Defect), S.Reaches s t → S.Reaches s
      (fail fault t : Option Parameter × State).2 ∧ (∀ x, none = some x →
        ParameterOf S.context t.catalog t.typeOf? owner typePrefix d x) ∧
        (none = (none : Option Parameter) →
          S.Marked (fail fault t : Option Parameter × State).2) := fun fault ht =>
    ⟨ht.trans (.notes ht.inv (fail_notes fault _)), fun _ hx => (nomatch hx),
      fun _ => marked_of_fail fault _⟩
  unfold buildParameter
  cases hn : d.node.name with
  | none => exact .lift (fail_notes _ s).grows.trans (hfail _ (.refl h))
  | some name =>
    dsimp only
    cases hl : d.node.location.bind Location.ofName? with
    | none => exact .lift (fail_notes _ s).grows.trans (hfail _ (.refl h))
    | some location =>
      dsimp only
      cases hv : valueSchema d name location with
      | error fault => exact .lift (fail_notes _ s).grows.trans (hfail _ (.refl h))
      | ok found =>
        obtain ⟨schema, pointer⟩ := found
        dsimp only
        refine .bind ((call hr ⟨schema, Naming.nested typePrefix name, pointer, owner⟩
          (hs ⟨name, location, hn, hl, hv⟩) (.refl h)).mono fun type t ⟨ht, htyped, hlost⟩ => ?_)
        cases type with
        | none => exact .pure ⟨ht, fun _ hx => (nomatch hx), fun _ => hlost rfl⟩
        | some type =>
          refine .lift_bind
            (constraints_notes S.context.grammars schema.facets pointer owner t).grows.trans ?_
          cases hc : constraintsOf S.context.grammars schema.facets pointer with
          | error fault =>
            rw [constraints_error hc]
            exact .pure (hfail _ ht)
          | ok constraints =>
            rw [constraints_ok hc]
            dsimp only
            cases hk : collectionFormatOf d name location with
            | error fault => exact .lift (fail_notes _ t).grows.trans (hfail _ ht)
            | ok format =>
              refine .pure ⟨ht, fun x hx => ?_, fun hx => nomatch hx⟩
              obtain rfl := Option.some.inj hx
              exact
                { name := hn, location := hl, format := hk, required := rfl, description := rfl
                  defaultValue := rfl, typed := ⟨schema, pointer, hv, htyped _ rfl, hc⟩ }

theorem buildResponses_keeps (hr : (S.contract last).Joins r r') (h : S.Inv s) {pointer : Pointer}
    {nodes : List (String × ResponseNode)} (hs : ∀ {status node schema}, (status, node) ∈ nodes →
      node.schema = some schema → S.Stands (bodyPointer pointer status) schema) :
    Alike (Grows · last) (buildResponses r owner typePrefix pointer nodes)
      (buildResponses r' owner typePrefix pointer nodes) s fun responses t => S.Reaches s t ∧
        (¬S.Marked t → Answers S.context t.catalog t.typeOf? owner typePrefix pointer nodes
          responses) := by
  refine Alike.foldlM (fun passed responses t => S.Reaches s t ∧ (¬S.Marked t →
    Answers S.context t.catalog t.typeOf? owner typePrefix pointer passed responses))
    (fun before a after responses t hl ⟨ht, ha⟩ => ?_) ⟨.refl h, fun _ => .nil⟩
  obtain ⟨status, node⟩ := a
  unfold addResponse
  dsimp only
  cases hn : node.schema with
  | none => exact .pure ⟨ht, fun hm => .empty (ha hm) hn⟩
  | some schema =>
    refine .bind ((call hr ⟨schema, bodyName typePrefix status schema
      responses.inlineBodies, bodyPointer pointer status, owner⟩
      (hs (by simp [hl]) hn) (.refl ht.inv)).mono fun type u ⟨hu, htyped, hlost⟩ => ?_)
    cases type with
    | none => exact .pure ⟨ht.trans hu, fun hm => absurd (hlost rfl) hm⟩
    | some type =>
      refine .pure ⟨ht.trans hu, fun hm => .body ?_ hn (htyped type rfl)⟩
      exact (ha fun hm' => hm (hm'.mono hu.later.defects)).mono hu.later.catalog
        hu.later.resolved

/-- Where the parameters and responses of an operation stand. -/
def StandsIn (S : Scene) (o : Operation) : Prop :=
  (∀ d ∈ o.declared, ∀ e, dereference S.context.document d = .ok e →
    ∀ {schema pointer}, e.Values schema pointer → S.Stands pointer schema) ∧
  ∀ {status node schema}, (status, node) ∈ o.node.responses → node.schema = some schema →
    S.Stands (bodyPointer o.pointer status) schema

theorem StandsIn.merged {o : Operation} (h : S.StandsIn o) {d : Declared}
    (hd : d ∈ mergedParameters S.context.document o.declared) {schema : Schema} {pointer : Pointer}
    (hv : d.Values schema pointer) : S.Stands pointer schema := by
  obtain ⟨e, he, hde⟩ := exists_of_mem_mergedParameters hd
  exact h.1 e he d hde hv

theorem buildParameters_keeps (hr : (S.contract last).Joins r r') (h : S.Inv s)
    {merged : List Declared} (hs : ∀ d ∈ merged, ∀ {schema pointer}, d.Values schema pointer →
      S.Stands pointer schema) :
    Alike (Grows · last) (buildParameters S.context r owner typePrefix merged)
      (buildParameters S.context r' owner typePrefix merged) s fun parameters t => S.Reaches s t ∧
        (¬S.Marked t → List.Forall₂ (ParameterOf S.context t.catalog t.typeOf? owner typePrefix)
          merged parameters) := by
  refine (collect_keeps (fun _ => true) (fun t d p =>
    ParameterOf S.context t.catalog t.typeOf? owner typePrefix d p)
    (fun hg hp => hp.mono hg.catalog hg.resolved) h fun d hd t ht =>
      (buildParameter_keeps hr ht (hs d hd)).mono fun p u ⟨hu, hsome, hnone⟩ =>
        ⟨hu, fun x hx => ⟨rfl, hsome x hx⟩, fun hx => .inr (hnone hx)⟩).mono
    fun parameters t ⟨ht, hps⟩ => ⟨ht, fun hm => ?_⟩
  simpa using hps hm

theorem buildSelected_keeps (hr : (S.contract last).Joins r r') (h : S.Inv s) {o : Operation}
    (hs : S.StandsIn o) {id : String} (hid : o.node.operationId = some id) :
    Alike (Grows · last) (buildSelected S.context r o id) (buildSelected S.context r' o id) s
      fun m t => S.Reaches s t ∧ (¬S.Marked t → MethodOf S.context t.catalog t.typeOf? o m) := by
  have hn := mergeParameters_notes S.context.document id o.declared s
  refine .lift_bind hn.grows.trans (.bind ?_)
  rw [mergeParameters_fst]
  refine (buildParameters_keeps hr (h.notes hn) fun d hd => hs.merged hd).mono
    fun parameters t ⟨ht, hps⟩ => .bind ?_
  refine (buildResponses_keeps hr ht.inv hs.2).mono fun responses u ⟨hu, ha⟩ =>
    .pure ⟨(Reaches.notes h hn).trans (ht.trans hu), fun hm => ?_⟩
  have hmerged : (mergeParameters S.context.document id o.declared s).2.defects = [] := by
    by_contra hd
    exact hm (.inr fun he => hd (List.prefix_nil.mp (he ▸ (ht.trans hu).later.defects)))
  have hps := hps fun hm' => hm (hm'.mono hu.later.defects)
  exact
    { operationId := hid, group := rfl, httpMethod := rfl, url := rfl, summary := rfl
      description := rfl, deprecated := rfl, consumes := rfl, produces := rfl
      declared := fun _ => exists_of_mergeParameters hmerged
      parameters := hps.imp fun _ _ hp => hp.mono hu.later.catalog hu.later.resolved
      responses := ⟨responses, ha hm, rfl, rfl⟩ }

theorem buildMethod_keeps (hr : (S.contract last).Joins r r') (h : S.Inv s) {o : Operation}
    (hs : S.StandsIn o) :
    Alike (Grows · last) (buildMethod S.context r o) (buildMethod S.context r' o) s fun m t =>
      S.Reaches s t ∧ (m = none → o.isExcluded S.context.settings = true ∨ S.Marked t) ∧
        ∀ x, m = some x → o.isSelected S.context.settings = true ∧
          (¬S.Marked t → MethodOf S.context t.catalog t.typeOf? o x) := by
  unfold buildMethod Operation.isSelected Operation.isExcluded
  cases hid : o.node.operationId with
  | none =>
    exact .lift (fail_notes _ s).grows.trans
      ⟨.notes h (fail_notes _ s), fun _ => .inr (marked_of_fail (α := Method) _ s),
        fun _ hx => nomatch hx⟩
  | some id =>
    dsimp only
    split_ifs with hincludes
    · refine .bind ((buildSelected_keeps hr h hs hid).mono fun m t ⟨ht, hm⟩ =>
        .pure ⟨ht, fun hx => (nomatch hx), fun x hx => ⟨hincludes, ?_⟩⟩)
      exact Option.some.inj hx ▸ hm
    · exact .pure ⟨.refl h, fun _ => .inl (by simp [hincludes]), fun _ hx => nomatch hx⟩

theorem buildMethods_keeps (hr : (S.contract last).Joins r r') (h : S.Inv s)
    {operations : List Operation} (hs : ∀ o ∈ operations, S.StandsIn o) :
    Alike (Grows · last) (buildMethods S.context r operations)
      (buildMethods S.context r' operations) s fun methods t => S.Reaches s t ∧
        (¬S.Marked t → List.Forall₂ (MethodOf S.context t.catalog t.typeOf?)
          (operations.filter (·.isSelected S.context.settings)) methods) := by
  refine (collect_keeps (·.isSelected S.context.settings)
    (fun t o m => ¬S.Marked t → MethodOf S.context t.catalog t.typeOf? o m)
    (fun hg hm hn => (hm fun hn' => hn (hn'.mono hg.defects)).mono hg.catalog hg.resolved) h
    fun o ho t ht => (buildMethod_keeps hr ht (hs o ho)).mono fun m u ⟨hu, hnone, hsome⟩ =>
      ⟨hu, hsome, fun hm => (hnone hm).imp_left Operation.isSelected_of_isExcluded⟩).mono
        fun methods t ⟨ht, hms⟩ =>
        ⟨ht, fun hm => (hms hm).imp fun _ _ hx => hx hm⟩

def Defined (S : Scene) (t : State) (name : String) : Prop :=
  ∃ canonical schema type, S.context.document.definition? name = some (canonical, schema) ∧
    t.typeOf? canonical = some type ∧ Fields.get? t.claimed (caseKey canonical) = some canonical

theorem resolveDefinitions_keeps (hr : (S.contract last).Joins r r') (h : S.Inv s)
    (names : List String) :
    Alike (Grows · last) (resolveDefinitions S.context r names)
      (resolveDefinitions S.context r' names) s fun _ t => S.Reaches s t ∧
        (¬S.Marked t → ∀ name ∈ names, S.Defined t name) := by
  refine Alike.forM (fun passed t => S.Reaches s t ∧
    (¬S.Marked t → ∀ name ∈ passed, S.Defined t name))
    (fun before name after t hl ⟨ht, hd⟩ => ?_) ⟨.refl h, fun _ _ hn => nomatch hn⟩
  refine .bind ((resolveDefinition_keeps hr ht.inv name _ name).mono fun type u hy =>
    .pure ⟨ht.trans hy.reaches, fun hm other ho => ?_⟩)
  rcases List.mem_append.mp ho with ho | ho
  · obtain ⟨canonical, schema, x, hfound, hx, hc⟩ :=
      hd (fun hm' => hm (hm'.mono hy.reaches.later.defects)) other ho
    exact ⟨canonical, schema, x, hfound, hy.reaches.later.resolved hx,
      hy.reaches.later.claimed hc⟩
  · obtain rfl := List.mem_singleton.mp ho
    cases type with
    | none => exact absurd (hy.lost rfl) hm
    | some x =>
      obtain ⟨canonical, schema, hfound, hx, hc⟩ := hy.holds rfl
      exact ⟨canonical, schema, x, hfound, hx, hc⟩

end Scene

def operationRoots (document : Document) (pointer : Pointer) (s : Schema) : Prop :=
  ∃ o ∈ operationsOf document,
    (∃ d ∈ o.declared, ∃ e, dereference document d = .ok e ∧ e.Values s pointer) ∨
    ∃ status node, (status, node) ∈ o.node.responses ∧ node.schema = some s ∧
      pointer = bodyPointer o.pointer status

namespace Scene

variable {r r' : Resolver} {s t last : State}

def ofBuild (context : Context) : Scene := ⟨context, operationRoots context.document, False⟩

theorem marked_ofBuild : (ofBuild context).Marked s ↔ s.defects ≠ [] := by
  simp [Marked, ofBuild]

theorem standsIn_ofBuild {o : Operation} (ho : o ∈ operationsOf context.document) :
    (ofBuild context).StandsIn o :=
  ⟨fun d hd e he _ _ hv => .root ⟨o, ho, .inl ⟨d, hd, e, he, hv⟩⟩,
    fun hn hs => .root ⟨o, ho, .inr ⟨_, _, hn, hs, rfl⟩⟩⟩

theorem reportMalformed_notes (document : Document) (s : State) :
    Notes s (Build.reportMalformed document s).2 := (Asides.reportMalformed document s).notes

theorem reportMalformed_defects {document : Document} (h : document.malformed ≠ []) (s : State) :
    (Build.reportMalformed document s).2.defects ≠ [] := by
  obtain ⟨m, rest, hm⟩ := List.exists_cons_of_ne_nil h
  let d := Defect.schema m.1 (.malformedDefinition m.2)
  have hn := reportMalformed_notes { document with malformed := rest } (report d s).2
  have he : (Build.reportMalformed document s).2 =
      (Build.reportMalformed { document with malformed := rest } (report d s).2).2 := by
    simp only [Build.reportMalformed, Build.malformedDefects, hm]
    rfl
  rw [he]
  exact hn.defects_ne_nil (by simp)

theorem inv_reportMalformed (context : Context) :
    (ofBuild context).Inv (Build.reportMalformed context.document {}).2 := by
  have hn := reportMalformed_notes context.document {}
  have hc := hn.catalog_eq
  have hr := hn.resolved_eq
  have hf := hn.failed_eq
  refine ⟨hc ▸ .empty, hc ▸ .empty, fun h => ?_, fun h => ?_, fun h => ?_, fun h => ?_⟩
  · rw [hr] at h; cases h
  · rw [hc] at h; cases h
  · rw [hc] at h; cases h
  · rw [hf] at h
    exact marked_ofBuild.mpr (reportMalformed_defects (h.resolve_left fun h => h rfl) {})

/-- What a whole run leaves behind. -/
structure Finished (context : Context) (methods : List Method) (t : State) : Prop where
  inv : (ofBuild context).Inv t
  frames : t.frames = []
  filled : ∀ {id composite}, t.catalog.composite? id = some composite →
    composite.progress = .propertiesResolved
  defined : t.defects = [] → ∀ p ∈ context.document.definitions, (ofBuild context).Defined t p.1
  methods : t.defects = [] → List.Forall₂ (MethodOf context t.catalog t.typeOf?)
    ((operationsOf context.document).filter (·.isSelected context.settings)) methods

theorem resolveAll_keeps (hr : ((ofBuild context).contract last).Joins r r') :
    Alike (Grows · last) (Build.resolveAll context r) (Build.resolveAll context r') {}
      (Finished context) := by
  have hi := inv_reportMalformed context
  have hn := reportMalformed_notes context.document {}
  set s := (Build.reportMalformed context.document {}).2
  refine .lift_bind hn.grows.trans (.bind
    ((resolveDefinitions_keeps hr hi _).mono fun _ t ⟨ht, hdefined⟩ => ?_))
  refine (buildMethods_keeps hr ht.inv fun o ho => standsIn_ofBuild ho).mono
    fun methods u ⟨hu, hmethods⟩ => ?_
  have hsu := ht.trans hu
  refine ⟨hu.inv, hsu.later.frames.trans hn.frames_eq, fun {id composite} hc => ?_,
    fun hd p hp => ?_, fun hd => hmethods fun hm => marked_ofBuild.mp hm hd⟩
  · obtain ⟨added, ha, hf⟩ := hsu.later.composites
    rw [hn.catalog_eq] at ha
    refine hf composite ?_
    have := List.mem_of_getElem? hc
    rwa [ha] at this
  · have hm : ¬(ofBuild context).Marked t := fun hm =>
      marked_ofBuild.mp (hm.mono hu.later.defects) hd
    obtain ⟨canonical, schema, x, hfound, hx, hc⟩ := hdefined hm p.1 (List.mem_map_of_mem hp)
    exact ⟨canonical, schema, x, hfound, hu.later.resolved hx, hu.later.claimed hc⟩

theorem conclude_ok {methods : List Method} {t : State} {m : ClientModel}
    (h : (Build.conclude context methods t).result = .ok m) :
    t.defects = [] ∧ Hierarchy.defects t.catalog = [] ∧ m.methods = methods ∧
      m.catalog = Hierarchy.settled t.catalog := by
  unfold Build.conclude at h
  cases hu : Build.baseUrl context with
  | error d =>
    rw [hu] at h
    simp at h
  | ok url =>
    rw [hu] at h
    dsimp only at h
    by_cases hf : (t.defects ++ Hierarchy.defects t.catalog).isEmpty = true
    · rw [if_pos hf] at h
      cases h
      obtain ⟨hd, hh⟩ := List.append_eq_nil_iff.mp (List.isEmpty_iff.mp hf)
      exact ⟨hd, hh, rfl, rfl⟩
    · rw [if_neg hf] at h
      cases h

theorem exists_of_baseUrl {d : Defect} (h : Build.baseUrl context = .error d) :
    ∃ url reason, d = .schema "host" (.invalidBaseUrl url reason) := by
  unfold Build.baseUrl at h
  split at h
  · cases h
  · dsimp only at h
    split at h
    · cases h
    · cases h
      exact ⟨_, _, rfl⟩

/-- What a finished run reports was found on the way, or in the hierarchies, or is that there is no
address of the service. -/
theorem conclude_reports_iff {methods : List Method} {t : State} {d : Defect} :
    (∃ found, (Build.conclude context methods t).result = .error (.defects found) ∧ d ∈ found) ↔
      d ∈ t.defects ∨ d ∈ Hierarchy.defects t.catalog ∨
        Build.baseUrl context = .error d := by
  have hfilled : ∀ found : List Defect, d ∈ found → ¬found.isEmpty = true := by
    intro found hm he
    rw [List.isEmpty_iff.mp he] at hm
    cases hm
  unfold Build.conclude
  cases hu : Build.baseUrl context with
  | ok url =>
    dsimp only
    constructor
    · rintro ⟨found, hr, hm⟩
      split_ifs at hr
      cases hr
      exact (List.mem_append.mp hm).imp_right .inl
    · rintro (hm | hm | hm)
      · have hm := List.mem_append_left (Hierarchy.defects t.catalog) hm
        exact ⟨_, by rw [if_neg (hfilled _ hm)], hm⟩
      · have hm := List.mem_append_right t.defects hm
        exact ⟨_, by rw [if_neg (hfilled _ hm)], hm⟩
      · cases hm
  | error fault =>
    dsimp only
    rw [if_neg (by simp)]
    constructor
    · rintro ⟨found, ⟨⟩, hm⟩
      simpa [or_assoc, eq_comm] using hm
    · intro hm
      exact ⟨_, rfl, by simpa [or_assoc, eq_comm] using hm⟩

theorem finished_of_run {m : ClientModel} (h : (Build.run context).result = .ok m) :
    ∃ t, Build.resolveAll context (resolveSite context) {} = some (m.methods, t) ∧
      Finished context m.methods t ∧ t.defects = [] ∧ Hierarchy.defects t.catalog = [] ∧
      m.catalog = Hierarchy.settled t.catalog := by
  obtain ⟨methods, t, ht, -, hf⟩ := resolveAll_keeps (resolveSite_keeps (ofBuild context) {})
  have ht' : (Build.resolveAll context (resolveSite context)).run {} = some (methods, t) := ht
  rw [Build.run, ht'] at h
  obtain ⟨hd, hh, rfl, hc⟩ := conclude_ok h
  exact ⟨t, ht, hf, hd, hh, hc⟩

end Scene

end ApiModel.Resolution
