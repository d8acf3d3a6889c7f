import ApiModel.Proofs.Completeness
import ApiModel.Proofs.Course

/-! # Schemas that a build follows

From the definitions and from the parameters and responses of the selected operations a build goes
on to the items of arrays, the values of dictionaries and the members of object types. Where it
finds no defect it has resolved every schema on these ways, although a definition is only looked
into when it is met for the first time.
-/

namespace ApiModel

open Text (caseKey)

namespace Resolution

variable {α : Type} {context : Context} {r : Resolver} {s t u last : State} {site : Site}
  {type : Option ModelType} {pointer : Pointer} {schema : Schema} {methods : List Method}

/-- A build comes to the schema at a pointer, each on the way there being what its route says. -/
inductive Followed (context : Context) : Pointer → Schema → Prop where
  | definition {name : String} {s : Schema}
      (h : Fields.get? context.document.definitions name = some s) :
      Followed context (Pointer.definition name) s
  | parameter {o : Operation} {d : Declared} {pointer : Pointer} {s : Schema}
      (ho : o ∈ operationsOf context.document) (hs : o.isSelected context.settings = true)
      (hd : d ∈ mergedParameters context.document o.declared) (hv : d.Values s pointer) :
      Followed context pointer s
  | response {o : Operation} {status : String} {node : ResponseNode} {s : Schema}
      (ho : o ∈ operationsOf context.document) (hs : o.isSelected context.settings = true)
      (hn : (status, node) ∈ o.node.responses) (hb : node.schema = some s) :
      Followed context (bodyPointer o.pointer status) s
  | items {pointer : Pointer} {s items : Schema} {clash : Bool} (h : Followed context pointer s)
      (hr : s.route = .array clash) (hi : s.items = some items) :
      Followed context (pointer.child "items") items
  | value {pointer : Pointer} {s value : Schema} (h : Followed context pointer s)
      (hr : s.route = .dictionary (some value)) :
      Followed context (pointer.child "additionalProperties") value
  | member {pointer : Pointer} {s : Schema} {m : Member} (h : Followed context pointer s)
      (hs : s.isComposite = true) (hm : m ∈ s.declaredMembers pointer) :
      Followed context m.pointer m.schema

def Visited (context : Context) (pointer : Pointer) (schema : Schema) : Prop :=
  ∃ site s, Made context (.node site) s ∧ site.pointer = pointer ∧ site.schema = schema

/-- Definitions that are remembered have been looked into, and so have the members of composites
that have been filled in. -/
structure Explored (context : Context) (s : State) : Prop where
  memo : ∀ {key type}, Fields.get? s.resolved key = some type → ∃ name schema,
    Fields.get? s.claimed key = some name ∧
      Fields.get? context.document.definitions name = some schema ∧
      (schema.isComposite = true ∨ Visited context (Pointer.definition name) schema)
  filled : ∀ {id composite}, s.catalog.composite? id = some composite →
    composite.progress = .propertiesResolved → ∃ schema pointer,
      context.document.Stands pointer schema ∧ composite.origin = pointer.text ∧
        ∀ m ∈ schema.declaredMembers pointer, Visited context m.pointer m.schema

namespace Explored

theorem empty (context : Context) : Explored context {} := ⟨nofun, nofun⟩

theorem carry (h : Explored context s) (hg : Grows s t) (hr : t.resolved = s.resolved)
    (hc : ∀ {id composite}, t.catalog.composite? id = some composite →
      composite.progress = .propertiesResolved → s.catalog.composite? id = some composite) :
    Explored context t where
  memo hk := by
    obtain ⟨name, schema, hclaimed, hrest⟩ := h.memo (hr ▸ hk)
    exact ⟨name, schema, hg.claimed hclaimed, hrest⟩
  filled hid hp := h.filled (hc hid hp) hp

theorem notes (h : Explored context s) (hn : Notes s t) : Explored context t :=
  h.carry hn.grows hn.resolved_eq fun hid _ => hn.catalog_eq ▸ hid

theorem push (h : Explored context s) (f : Frame) : Explored context (push f s).2 :=
  h.carry (push_grows f s) rfl fun hid _ => hid

theorem pop (h : Explored context s) : Explored context (pop s).2 :=
  h.carry (pop_grows s) rfl fun hid _ => hid

theorem markFailed (h : Explored context s) (key : String) :
    Explored context (markFailed key s).2 :=
  h.carry (markFailed_grows key s) rfl fun hid _ => hid

theorem claimKey (h : Explored context s) {name : String} (hk : claimKey name s = (true, t)) :
    Explored context t := by
  have hg := claimKey_grows name s
  rw [hk] at hg
  refine h.carry hg (claimKey_kept hk).2.1 fun hid _ => ?_
  obtain ⟨-, rfl⟩ | ⟨-, rfl⟩ := claimed_cases hk
  · exact hid
  · exact hid

theorem withStub (h : Explored context s) (name : String) (pointer : Pointer) :
    Explored context (s.withStub name pointer) := by
  refine h.carry (withStub_grows name pointer s) rfl fun {id composite} hid hp => ?_
  rcases composite?_withStub hid with ⟨-, rfl⟩ | hid
  · cases hp
  · exact hid

theorem buildEnum (h : Explored context s) (settings : Settings) (site : Site)
    (listed : List Json) : Explored context (buildEnum settings site listed s).2 := by
  obtain ⟨d, hb⟩ | ⟨values, -, ⟨-, hb⟩ | ⟨extension, -, ⟨hn, hb⟩ | ⟨id, -, -, hb⟩⟩⟩ :=
    buildEnum_cases settings site listed s
  · rw [hb]
    exact h.notes (fail_notes d s)
  all_goals
    rw [hb]
    exact ⟨h.memo, h.filled⟩

theorem remember (h : Explored context s) {name : String} (x : ModelType)
    (hc : Fields.get? s.claimed (caseKey name) = some name)
    (hd : Fields.get? context.document.definitions name = some schema)
    (hv : schema.isComposite = true ∨ Visited context (Pointer.definition name) schema) :
    Explored context (remember (caseKey name) x s).2 where
  memo {key old} hk := by
    rcases get?_remember hk with ⟨rfl, -⟩ | hk
    · exact ⟨name, schema, hc, hd, hv⟩
    · exact h.memo hk
  filled := h.filled

theorem fillIn (h : Explored context s) {id : CompositeId} {stub : Composite}
    (hid : s.catalog.composite? id = some stub) (ho : stub.origin = pointer.text)
    (hs : context.document.Stands pointer schema)
    (hm : ∀ m ∈ schema.declaredMembers pointer, Visited context m.pointer m.schema)
    (properties : List Property) (base : Option CompositeId) (value : String) :
    Explored context (Scene.fillIn id schema pointer properties base value s) where
  memo := h.memo
  filled {other composite} hother hp := by
    rcases Scene.composite?_fillIn hid hother with rfl | hother
    · exact ⟨schema, pointer, hs, ho, hm⟩
    · exact h.filled hother hp

end Explored

/-- The calls of a resolver are calls of the build, only add to the state and look into what they
come to. -/
def Explores (context : Context) (r : Resolver) : Prop :=
  ∀ site s type t, r site s = some (type, t) → Made context (.node site) s ∧ Grows s t ∧
    (Explored context s → Explored context t)

section Explores

variable (hr : Explores context r)
include hr

theorem populate_explored (h : Explored context s) {id : CompositeId} {stub : Composite}
    (hid : s.catalog.composite? id = some stub) (ho : stub.origin = pointer.text)
    (hs : context.document.Stands pointer schema)
    (hp : populate context r id schema pointer s = some ((), t)) : Explored context t := by
  obtain ⟨base, u, properties, v, hb, hm, rfl⟩ := populate_eq_some.mp hp
  have hcall : ∀ site s type t, r site s = some (type, t) →
      Grows s t ∧ (Explored context s → Explored context t) := fun _ _ _ _ hv => (hr _ _ _ _ hv).2
  have hasides : ∀ {s t}, Asides s t → Explored context s → Explored context t :=
    fun ha hs => hs.notes ha.notes
  obtain ⟨hsu, hu⟩ := (Composed.resolveBase _ _).kept hcall hasides (h.push .composite) hb
  obtain ⟨huv, hv⟩ := (Composed.resolveMembers context _ _ _).kept hcall hasides hu hm
  have hn : Notes v (remarks context (s.catalog.nameOf id) schema pointer v) := remarks_notes ..
  have hg := ((push_grows .composite s).trans hsu).trans (huv.trans hn.grows)
  have hmembers := resolveMembers_induct
    (fun before _ _ => ∀ m ∈ before, Visited context m.pointer m.schema)
    (fun before m after ps u type v _ hbefore hv => List.forall_mem_append.mpr
      ⟨hbefore, List.forall_mem_singleton.mpr ⟨m.site _, u, (hr _ _ _ _ hv).1, rfl, rfl⟩⟩)
    (List.forall_mem_nil _) hm
  obtain ⟨later, hlater, -, horigin⟩ := hg.catalog.composites hid
  exact ((hv.notes hn).fillIn hlater (horigin.trans ho) hs hmembers _ _ _).pop

theorem withStub_explored (h : Explored context s) {name : String}
    (hs : context.document.Stands pointer schema)
    (hp : populate context r ⟨s.catalog.composites.length⟩ schema pointer
      (s.withStub name pointer) = some ((), t)) : Explored context t :=
  populate_explored hr (h.withStub name pointer) (Catalog.composite?_addComposite_self ..) rfl hs hp

theorem settles_explored (h : Explored context s) {name : String}
    (hc : Fields.get? s.claimed (caseKey name) = some name)
    (hd : Fields.get? context.document.definitions name = some schema)
    (hset : Settles context r name schema s type t) : Explored context t := by
  cases hset with
  | remembered | failed => exact h
  | clash => exact (h.notes (.report _ s)).markFailed _
  | known _ _ hs => exact h.remember _ hc hd (.inl hs)
  | opened _ _ hs _ hp =>
    refine populate_explored hr ?_ (Catalog.composite?_addComposite_self ..) rfl (.definition hd) hp
    exact (h.withStub name (Pointer.definition name)).remember _ hc hd (.inl hs)
  | round => exact (h.markFailed _).notes (.report _ _)
  | lost _ _ _ _ hcall => exact ((hr _ _ _ _ hcall).2.2 (h.push _)).pop.markFailed _
  | found _ _ _ _ hcall =>
    obtain ⟨hmade, hg, hexplored⟩ := hr _ _ _ _ hcall
    exact (hexplored (h.push _)).pop.remember _ (hg.claimed hc) hd (.inr ⟨_, _, hmade, rfl, rfl⟩)

theorem definition_explored (h : Explored context s) {name owner : String}
    (ht : resolveDefinition context r name pointer owner s = some (type, t)) :
    Explored context t := by
  obtain ⟨-, -, ⟨-, rfl⟩ | rfl⟩ | ⟨canonical, schema, hd, ⟨d, -, -, rfl⟩ | ⟨u, hk, hset⟩⟩ :=
    resolveDefinition_cases ht
  · exact h
  · exact h.notes (.report _ s)
  · exact h.notes (.report d s)
  · exact settles_explored hr (h.claimKey hk) (claimed_of_claimKey hk)
      (Scene.get?_of_definition? hd) hset

theorem step_explored (h : Explored context s)
    (hs : context.document.Stands site.pointer site.schema)
    (ht : resolveStep context r site s = some (type, t)) : Explored context t := by
  cases resolveStep_takes ht with
  | refused hrefused => exact h.notes hrefused.notes
  | reference _ _ hdef => exact definition_explored hr h hdef
  | @enum listed _ _ _ _ hb =>
    have henum := h.buildEnum context.settings site listed
    rwa [hb] at henum
  | @sequence clash _ _ _ _ _ hcall =>
    exact (hr _ _ _ _ hcall).2.2 (h.notes (noteClash_notes site clash s))
  | anything => exact h
  | dictionary _ hcall => exact (hr _ _ _ _ hcall).2.2 h
  | inline _ hb =>
    obtain ⟨d, -, -, rfl⟩ | ⟨id, -, -, -, rfl⟩ | ⟨-, -, hp⟩ := buildInline_cases hb
    · exact h.notes (.report d s)
    · exact h
    · exact withStub_explored hr h hs hp
  | scalar _ _ ha => exact h.notes ha.notes

end Explores

theorem exists_of_foldlM {β γ : Type} {f : β → γ → Run β} {l : List γ} {b c : β}
    (h : l.foldlM f b s = some (c, t)) {a : γ} (ha : a ∈ l) :
    ∃ b' u p, f b' a u = some p := by
  induction l generalizing b s with
  | nil => cases ha
  | cons first rest ih =>
    rw [List.foldlM_cons] at h
    obtain ⟨b', u, hu, h⟩ := bind_eq_some.mp h
    rcases List.mem_cons.mp ha with rfl | ha
    · exact ⟨b, s, _, hu⟩
    · exact ih h ha

section Build

variable (hall : Build.resolveAll context (resolveSite context) {} = some (methods, last))
include hall

theorem Made.explores (hm : Made context (.node site) s)
    (ht : resolveSite context site s = some (type, t)) :
    Grows s t ∧ (Explored context s → Explored context t) := by
  refine (hm.induct_within (P := fun _ s _ t => Explored context s → Explored context t) hall ?_
    ht).imp_left fun hw => hw.later.toGrows
  intro r site s type t hw hr ht h
  refine step_explored (fun site' s' type' t' hcall => ?_) h hw.stands ht
  obtain ⟨hm, hw', hp⟩ := hr _ _ _ _ hcall
  exact ⟨hm, hw'.later.toGrows, hp⟩

theorem explored_of_resolveAll : Explored context last := by
  refine kept_of_resolveAll (Explored context)
    (P := fun site s _ t => Made context (.node site) s ∧ Grows s t ∧
      (Explored context s → Explored context t)) ?_ ?_ ?_ ?_ (.empty context) hall
  · intro site s type t hm ht
    exact ⟨hm, hm.explores hall ht⟩
  · exact fun hp => hp.2.2
  · exact fun ha h => h.notes ha.notes
  · intro r name s type t hr ht h
    exact definition_explored hr h ht

theorem exists_made_method {o : Operation} (ho : o ∈ operationsOf context.document)
    (he : o.isExcluded context.settings = false) : ∃ s m t, Made context (.method o) s ∧
      buildMethod context (resolveSite context) o s = some (m, t) := by
  obtain ⟨s, hs, hm⟩ := resolveAll_eq_some hall
  obtain ⟨before, after, hl⟩ := List.append_of_mem ho
  rw [hl, buildMethods, List.foldlM_append] at hm
  obtain ⟨methods, u, hu, hm⟩ := bind_eq_some.mp hm
  rw [List.foldlM_cons] at hm
  obtain ⟨_, v, hv, -⟩ := bind_eq_some.mp hm
  obtain ⟨m, _, hm, -⟩ := bind_eq_some.mp hv
  exact ⟨u, m, _, .method hl he hs hu, hm⟩

/-- The schemas of the parameters and the responses of a selected operation are resolved. -/
theorem visited_of_isSelected {o : Operation} (ho : o ∈ operationsOf context.document)
    (hs : o.isSelected context.settings = true) :
    (∀ d ∈ mergedParameters context.document o.declared, ∀ {pointer schema},
      d.Values schema pointer → Visited context pointer schema) ∧
    ∀ {status node schema}, (status, node) ∈ o.node.responses → node.schema = some schema →
      Visited context (bodyPointer o.pointer status) schema := by
  obtain ⟨id, hid, hincludes⟩ := (Option.any_eq_true _ _).mp hs
  have he : o.isExcluded context.settings = false := by
    simp [Operation.isExcluded, hid, hincludes]
  obtain ⟨s, m, t, hmade, hm⟩ := exists_made_method hall ho he
  obtain ⟨r, hr, hm⟩ := (Courses.of_composed (.buildMethod context o)).exists_made
    (fun _ _ => hmade.ofMethod) hm
  obtain ⟨parameters, u, responses, hps, hrs⟩ := buildMethod_eq_some hid he hm
  constructor
  · intro d hd pointer schema hv
    obtain ⟨name, location, hname, hlocation, hv⟩ := hv
    obtain ⟨_, v, _, hp⟩ := exists_of_foldlM hps hd
    obtain ⟨_, _, hp, -⟩ := bind_eq_some.mp hp
    simp only [buildParameter, hname, hlocation, hv] at hp
    obtain ⟨type, _, hcall, -⟩ := bind_eq_some.mp hp
    exact ⟨_, v, (hr _ _ _ hcall).1, rfl, rfl⟩
  · intro status node schema hn hb
    obtain ⟨_, v, _, ha⟩ := exists_of_foldlM hrs hn
    simp only [addResponse, hb] at ha
    obtain ⟨type, _, hcall, -⟩ := bind_eq_some.mp ha
    exact ⟨_, v, (hr _ _ _ hcall).1, rfl, rfl⟩

end Build

theorem Followed.stands (h : Followed context pointer schema) :
    context.document.Stands pointer schema := by
  induction h with
  | definition hd => exact .definition hd
  | @parameter o d _ _ ho _ hd hv =>
    obtain ⟨e, he, hde⟩ := exists_of_mem_mergedParameters hd
    exact .root ⟨o, ho, .inl ⟨e, he, d, hde, hv⟩⟩
  | response ho _ hn hb => exact .root ⟨_, ho, .inr ⟨_, _, hn, hb, rfl⟩⟩
  | items _ _ hi ih => exact .items ih hi
  | value _ hr ih => exact .value ih (Schema.dictionary_of_route hr).2.2
  | member _ _ hm ih => exact ih.member hm

theorem Visited.items {clash : Bool} {items : Schema} (h : Visited context pointer schema)
    (hr : schema.route = .array clash) (hi : schema.items = some items) :
    Visited context (pointer.child "items") items := by
  obtain ⟨site, s, hm, rfl, rfl⟩ := h
  refine ⟨site.inside items "Item" "items", noteClash site clash s, hm.ofNode fun r hcall _ => ?_,
    rfl, rfl⟩
  have hstep : resolveStep context r site s = buildSequence r site (noteClash site clash s) := by
    cases clash <;> simp only [resolveStep, hr] <;> rfl
  simp only [hstep, buildSequence, hi]
  show (r (site.inside items "Item" "items") _).bind _ = none
  rw [hcall]
  rfl

theorem Visited.value {value : Schema} (h : Visited context pointer schema)
    (hr : schema.route = .dictionary (some value)) :
    Visited context (pointer.child "additionalProperties") value := by
  obtain ⟨site, s, hm, rfl, rfl⟩ := h
  exact ⟨_, s, hm.value hr, rfl, rfl⟩

/-- Where no defect has been found in the end, every schema that the build follows has been resolved
for its own sake, or it is an object type for which there is a composite. -/
theorem Followed.visited (hn : context.document.NamesOnce)
    (hall : Build.resolveAll context (resolveSite context) {} = some (methods, last))
    (hf : Scene.Finished context methods last) (hd : last.defects = [])
    (h : Followed context pointer schema) : Visited context pointer schema ∨
      schema.isComposite = true ∧ ∃ id composite, last.catalog.composite? id = some composite ∧
        composite.origin = pointer.text := by
  have hexplored := explored_of_resolveAll hall
  induction h with
  | @definition name s hget =>
    obtain ⟨type, htype, ht⟩ := hf.typed_definition hd hn (Fields.mem_of_get? hget)
    cases hs : s.isComposite with
    | true =>
      obtain ⟨id, composite, -, hc, -, ho⟩ := ht.exists_composite hs
      exact .inr ⟨rfl, id, composite, hc, ho⟩
    | false =>
      obtain ⟨canonical, _, _, hfound, -, hclaimed⟩ := hf.defined hd _ (Fields.mem_of_get? hget)
      cases (Scene.definition?_of_get? hget).symm.trans hfound
      obtain ⟨other, s', hclaimed', hget', hv⟩ := hexplored.memo htype
      cases hclaimed.symm.trans hclaimed'
      cases hget.symm.trans hget'
      exact .inl (hv.resolve_left (by simp [hs]))
  | parameter ho hs hd hv => exact .inl ((visited_of_isSelected hall ho hs).1 _ hd hv)
  | response ho hs hn hb => exact .inl ((visited_of_isSelected hall ho hs).2 hn hb)
  | items _ hr hi ih =>
    rcases ih with hv | ⟨hs, -⟩
    · exact .inl (hv.items hr hi)
    · cases hr.symm.trans (Schema.route_eq_composite_iff.mpr hs)
  | value _ hr ih =>
    rcases ih with hv | ⟨hs, -⟩
    · exact .inl (hv.value hr)
    · cases hr.symm.trans (Schema.route_eq_composite_iff.mpr hs)
  | @member pointer s m hfollowed hs hm ih =>
    have hcomposite : ∃ id composite, last.catalog.composite? id = some composite ∧
        composite.origin = pointer.text := by
      rcases ih with ⟨site, u, hmade, rfl, rfl⟩ | ⟨-, hc⟩
      · obtain ⟨-, _, _, -, ht⟩ := hmade.typed hall hd
        obtain ⟨id, composite, -, hc, -, ho⟩ := ht.exists_composite hs
        obtain ⟨old, hold, rfl⟩ := Hierarchy.exists_of_composite?_settled hc
        exact ⟨id, old, hold, ho⟩
      · exact hc
    obtain ⟨id, composite, hc, ho⟩ := hcomposite
    obtain ⟨s', pointer', hstands, ho', hmembers⟩ := hexplored.filled hc (hf.filled hc)
    have htext := ho'.symm.trans ho
    obtain rfl := Document.stands_unique hn hstands hfollowed.stands htext
    obtain rfl := Pointer.text_injective htext
    exact .inl (hmembers m hm)

end Resolution

end ApiModel
