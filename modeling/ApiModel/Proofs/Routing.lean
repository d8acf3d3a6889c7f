import ApiModel.Grammars
import ApiModel.Proofs.ClosedModel
import ApiModel.Proofs.Course
import ApiModel.Proofs.Inheritance

/-! # Routes and shapes

Whether a schema is an object type is tested twice: when a step picks its route, and when a
definition is resolved and has to be remembered before its members are. The two tests agree. So a
definition that is followed under a frame of its own is never registered as an object type, and one
that is registered as an object type would have become the same one by its route.
-/

namespace ApiModel.Resolution

open Scene (fillIn)
open Text (caseKey)

variable {context : Context} {r : Resolver} {s t u : State} {site : Site}
  {type : Option ModelType} {K : String → Prop} {name owner : String} {schema : Schema}
  {pointer : Pointer}

def State.origins (s : State) : List String := s.catalog.composites.map (·.origin)

@[simp] theorem origins_withStub (s : State) (name : String) (pointer : Pointer) :
    (s.withStub name pointer).origins = s.origins ++ [pointer.text] := by
  simp [State.origins, State.withStub, Catalog.addComposite, Composite.stub]

@[simp] theorem origins_fillIn (id : CompositeId) (schema : Schema) (pointer : Pointer)
    (properties : List Property) (base : Option CompositeId) (value : String) (s : State) :
    (fillIn id schema pointer properties base value s).origins = s.origins := by
  refine List.ext_getElem? fun i => ?_
  simp only [State.origins, fillIn, Catalog.modifyComposite, List.getElem?_map,
    List.getElem?_modify]
  split <;> cases s.catalog.composites[i]? <;> rfl

theorem origins_of_claimKey (h : claimKey name s = (true, t)) : t.origins = s.origins := by
  obtain ⟨-, rfl⟩ | ⟨-, rfl⟩ := claimed_cases h
  · rfl
  · rfl

/-- Object types have only been added, and the origin of each that has been has the property. -/
def Adds (K : String → Prop) (s t : State) : Prop :=
  ∃ added, t.origins = s.origins ++ added ∧ ∀ origin ∈ added, K origin

namespace Adds

theorem of_eq (h : t.origins = s.origins) : Adds K s t := ⟨[], by simpa using h, nofun⟩

theorem refl (s : State) : Adds K s s := .of_eq rfl

theorem trans (h : Adds K s t) (h' : Adds K t u) : Adds K s u := by
  obtain ⟨added, ht, hadded⟩ := h
  obtain ⟨later, hu, hlater⟩ := h'
  refine ⟨added ++ later, by rw [hu, ht, List.append_assoc], ?_⟩
  exact List.forall_mem_append.mpr ⟨hadded, hlater⟩

theorem notes (h : Adds K s t) (hn : Notes t u) : Adds K s u :=
  h.trans (.of_eq (by rw [State.origins, hn.catalog_eq]; rfl))

theorem mono {K' : String → Prop} (h : Adds K s t) (hk : ∀ origin, K origin → K' origin) :
    Adds K' s t := by
  obtain ⟨added, ht, hadded⟩ := h
  exact ⟨added, ht, fun origin ho => hk origin (hadded origin ho)⟩

end Adds

def IsObjectOrigin (d : Document) (origin : String) : Prop :=
  ∃ pointer schema, d.Stands pointer schema ∧ schema.isComposite = true ∧ origin = pointer.text

theorem not_isObjectOrigin {d : Document} (hd : Fields.get? d.definitions name = some schema)
    (hshape : schema.isComposite = false) :
    ¬IsObjectOrigin d (Pointer.definition name).text := by
  rintro ⟨pointer, other, hs, hother, hp⟩
  obtain rfl := Pointer.text_injective hp
  obtain rfl := Option.some.inj (hd.symm.trans (Document.get?_of_stands hs))
  rw [hshape] at hother
  cases hother

theorem withStub_adds {d : Document} (hs : d.Stands pointer schema)
    (hshape : schema.isComposite = true) (name : String) (s : State) :
    Adds (IsObjectOrigin d) s (s.withStub name pointer) :=
  ⟨[pointer.text], origins_withStub .., List.forall_mem_singleton.mpr
    ⟨pointer, schema, hs, hshape, rfl⟩⟩

/-- From where schemas of the document stand the resolver only registers object types of it. -/
def RegistersObjects (d : Document) (r : Resolver) : Prop :=
  ∀ site s type t, d.Stands site.pointer site.schema → r site s = some (type, t) →
    Adds (IsObjectOrigin d) s t

namespace RegistersObjects

variable (hr : RegistersObjects context.document r)
include hr

theorem resolveBase {parts : List BasePart} {base : Option CompositeId}
    (hs : ∀ part ∈ parts, context.document.Stands part.pointer part.schema)
    (h : Resolution.resolveBase r name parts s = some (base, t)) :
    Adds (IsObjectOrigin context.document) s t := by
  cases parts with
  | nil =>
    cases h
    exact .refl s
  | cons part others =>
    obtain ⟨type, u, hu, -, rfl⟩ := resolveBase_cons.mp h
    exact ((hr _ _ _ _ (hs part (List.mem_cons_self ..)) hu).notes (baseOf_notes ..)).notes
      (reportSecondBases_notes ..)

theorem resolveMembers {required : List String} {members : List Member}
    {properties : List Property}
    (hs : ∀ m ∈ members, context.document.Stands m.pointer m.schema)
    (h : Resolution.resolveMembers context r owner required members s = some (properties, t)) :
    Adds (IsObjectOrigin context.document) s t := by
  refine resolveMembers_induct (fun _ _ u => Adds (IsObjectOrigin context.document) s u) ?_
    (.refl s) h
  intro before m after properties u type v hm hu hv
  have hm : m ∈ members := hm ▸ List.mem_append_right _ (List.mem_cons_self ..)
  exact (hu.trans (hr _ _ _ _ (hs m hm) hv)).notes (absorb_notes v)

theorem populate {id : CompositeId} (hs : context.document.Stands pointer schema)
    (h : Resolution.populate context r id schema pointer s = some ((), t)) :
    Adds (IsObjectOrigin context.document) s t := by
  obtain ⟨base, u, properties, v, hb, hm, rfl⟩ := populate_eq_some.mp h
  have hu := hr.resolveBase (fun part => hs.base) hb
  have hv := hr.resolveMembers (fun m => hs.member) hm
  have hfilled : Adds (IsObjectOrigin context.document) s
      (remarks context (s.catalog.nameOf id) schema pointer v) :=
    (((Adds.of_eq rfl).trans hu).trans hv).notes (remarks_notes ..)
  exact hfilled.trans (.of_eq (origins_fillIn ..))

theorem buildAliased (hd : Fields.get? context.document.definitions name = some schema)
    (h : Resolution.buildAliased r name schema s = some (type, t)) :
    Adds (IsObjectOrigin context.document) s t := by
  rw [Resolution.buildAliased, get_bind] at h
  split at h
  · cases h
    exact .of_eq rfl
  · obtain ⟨_, u, hu, h⟩ := bind_eq_some.mp h
    cases hu
    obtain ⟨result, v, hv, h⟩ := bind_eq_some.mp h
    have hs : context.document.Stands (Pointer.definition name) schema := .definition hd
    have hinside := hr (definitionSite name schema) _ _ _ hs hv
    cases result
    all_goals
      cases h
      exact (Adds.trans (.of_eq rfl) hinside).trans (.of_eq rfl)

theorem settles (hd : Fields.get? context.document.definitions name = some schema)
    (h : Settles context r name schema s type t) :
    Adds (IsObjectOrigin context.document) s t := by
  have hs : context.document.Stands (Pointer.definition name) schema := .definition hd
  cases h with
  | remembered | failed => exact .refl s
  | clash | known | round => exact .of_eq rfl
  | opened _ _ hshape _ hp =>
    have hmembers := hr.populate hs hp
    exact ((withStub_adds hs hshape name s).trans (.of_eq rfl)).trans hmembers
  | lost _ _ _ _ hcall | found _ _ _ _ hcall =>
    have hinside := hr _ _ _ _ hs hcall
    exact (Adds.trans (.of_eq rfl) hinside).trans (.of_eq rfl)

theorem resolveDefinition
    (h : Resolution.resolveDefinition context r name pointer owner s = some (type, t)) :
    Adds (IsObjectOrigin context.document) s t := by
  obtain ⟨-, -, ⟨-, rfl⟩ | rfl⟩ | ⟨canonical, schema, hd, ⟨d, -, -, rfl⟩ | ⟨u, hu, ht⟩⟩ :=
    resolveDefinition_cases h
  · exact .refl t
  · exact .of_eq rfl
  · exact .of_eq rfl
  · exact (Adds.of_eq (origins_of_claimKey hu)).trans
      (hr.settles (Scene.get?_of_definition? hd) ht)

theorem buildInline (hs : context.document.Stands site.pointer site.schema)
    (hshape : site.schema.isComposite = true)
    (h : Resolution.buildInline context r site s = some (type, t)) :
    Adds (IsObjectOrigin context.document) s t := by
  obtain ⟨d, -, -, rfl⟩ | ⟨id, -, -, -, rfl⟩ | ⟨-, -, hp⟩ := buildInline_cases h
  · exact .of_eq rfl
  · exact .refl t
  · exact (withStub_adds hs hshape site.name s).trans (hr.populate hs hp)

theorem resolveStep (hs : context.document.Stands site.pointer site.schema)
    (h : Resolution.resolveStep context r site s = some (type, t)) :
    Adds (IsObjectOrigin context.document) s t := by
  cases resolveStep_takes h with
  | refused h => exact (Adds.refl s).notes h.notes
  | reference _ _ h => exact hr.resolveDefinition h
  | enum _ _ h =>
    obtain ⟨d, hb⟩ | ⟨values, -, ⟨-, hb⟩ | ⟨extension, -, ⟨-, hb⟩ | ⟨id, -, -, hb⟩⟩⟩ :=
      buildEnum_cases context.settings site _ s
    · cases hb.symm.trans h
    all_goals
      cases hb.symm.trans h
      exact .of_eq rfl
  | sequence hroute hi h =>
    exact ((Adds.refl s).notes (noteClash_notes ..)).trans (hr _ _ _ _ (hs.items hi) h)
  | anything => exact .refl s
  | dictionary hroute h =>
    exact hr _ _ _ _ (hs.value (Schema.dictionary_of_route hroute).2.2) h
  | inline hshape h => exact hr.buildInline hs hshape h
  | scalar _ _ h => exact (Adds.refl s).notes h.notes

end RegistersObjects

theorem resolve_registersObjects (context : Context) (n : Nat) :
    RegistersObjects context.document (resolve context n) := by
  induction n with
  | zero => exact fun _ _ _ _ _ h => nomatch h
  | succ n ih => exact fun site s type t hs h => ih.resolveStep hs h

theorem resolveSite_registersObjects (context : Context) :
    RegistersObjects context.document (resolveSite context) :=
  fun site => resolve_registersObjects context _ site

def registered (name : String) (pointer : Pointer) (s : State) : Option ModelType :=
  (registerComposite name pointer s).1.map fun interned => .composite interned.id

theorem type_of_buildInline (h : buildInline context r site s = some (type, t)) :
    type = registered site.name site.pointer s := by
  unfold registered
  obtain ⟨d, hreg, rfl, -⟩ | ⟨id, hf, ho, rfl, -⟩ | ⟨hf, rfl, -⟩ := buildInline_cases h
  · rw [hreg]
    rfl
  · rw [registerComposite_known hf ho]
    rfl
  · rw [registerComposite_new hf]
    rfl

theorem type_of_buildDefined (h : buildDefined context r name schema s = some (type, t)) :
    type = registered name (Pointer.definition name) s := by
  unfold registered
  obtain ⟨interned, u, hu, h⟩ := bind_eq_some.mp h
  obtain ⟨-, hreg⟩ | ⟨id, -, -, hreg⟩ | ⟨d, hreg⟩ :=
    registerComposite_cases name (Pointer.definition name) s
  · cases (Option.some.inj hu).symm.trans hreg
    obtain ⟨_, v, -, h⟩ := bind_eq_some.mp h
    obtain ⟨_, w, -, h⟩ := bind_eq_some.mp h
    cases h
    rw [hreg]
    rfl
  · cases (Option.some.inj hu).symm.trans hreg
    cases h
    rw [hreg]
    rfl
  · cases (Option.some.inj hu).symm.trans hreg
    cases h
    rw [hreg]
    rfl

theorem resolveStep_of_isComposite (h : site.schema.isComposite = true) :
    resolveStep context r site = buildInline context r site := by
  rw [resolveStep, Schema.route_eq_composite_iff.mpr h]

def silent : Resolver := fun _ s => some (none, s)

theorem populate_silent {id : CompositeId}
    (h : populate context silent id schema pointer s = some ((), t)) :
    t.resolved = s.resolved ∧ t.origins = s.origins := by
  obtain ⟨properties, base, value, u, ⟨hresolved, horigins⟩, rfl⟩ := populate_induct
    (fun u => u.resolved = s.resolved ∧ u.origins = s.origins)
    (fun site u type v hu hcall => by cases hcall; exact hu)
    (fun hu ha => ⟨ha.notes.resolved_eq.trans hu.1,
      (congrArg (·.composites.map (·.origin)) ha.notes.catalog_eq).trans hu.2⟩)
    ⟨rfl, rfl⟩ h
  exact ⟨hresolved, (origins_fillIn ..).trans horigins⟩

theorem buildInline_silent (context : Context) (hf : s.catalog.findComposite? site.name = none) :
    ∃ t, buildInline context silent site s =
        some (some (.composite ⟨s.catalog.composites.length⟩), t) ∧
      t.resolved = s.resolved ∧ t.origins ≠ s.origins := by
  obtain ⟨type, t, ht⟩ := Ends.buildInline (fun _ s => ⟨none, s, rfl⟩) context site s
  obtain ⟨d, hreg, -, -⟩ | ⟨id, hk, -⟩ | ⟨-, rfl, hp⟩ := buildInline_cases ht
  · cases (registerComposite_new hf site.pointer).symm.trans hreg
  · cases hf.symm.trans hk
  · obtain ⟨hresolved, horigins⟩ := populate_silent hp
    refine ⟨t, ht, hresolved, ?_⟩
    rw [horigins, origins_withStub]
    simp

theorem Settles.remembers (h : Settles context silent name schema s type t)
    (ht : type.isSome = true) : t.origins = s.origins ∨ t.resolved ≠ s.resolved := by
  cases h with
  | remembered | known => exact .inl rfl
  | opened hn _ _ _ hp =>
    -- A definition is remembered as a stub, which an inline object type is not.
    right
    rw [(populate_silent hp).1]
    intro heq
    change Fields.set s.resolved (caseKey name) _ = s.resolved at heq
    rw [State.typeOf?, ← heq, Fields.get?_set, if_pos rfl] at hn
    cases hn
  | found _ _ _ _ hcall => cases hcall
  | _ => cases ht

theorem isComposite_of_takes {id : CompositeId}
    (h : Takes context silent site s type t) (htype : type = some (.composite id))
    (hresolved : t.resolved = s.resolved) (horigins : t.origins ≠ s.origins) :
    site.schema.isComposite = true := by
  cases h with
  | refused | anything | scalar => cases htype
  | reference _ _ h =>
    obtain ⟨-, rfl, -⟩ | ⟨canonical, schema, -, ⟨d, -, rfl, -⟩ | ⟨u, hu, ht⟩⟩ :=
      resolveDefinition_cases h
    · cases htype
    · cases htype
    · obtain ⟨-, hkept, -⟩ := claimKey_kept hu
      rcases ht.remembers (by simp [htype]) with ho | hr
      · exact absurd (ho.trans (origins_of_claimKey hu)) horigins
      · exact absurd (hresolved.trans hkept.symm) hr
  | enum _ _ h =>
    obtain ⟨d, hb⟩ | ⟨values, -, ⟨-, hb⟩ | ⟨extension, -, ⟨-, hb⟩ | ⟨id, -, -, hb⟩⟩⟩ :=
      buildEnum_cases context.settings site _ s
    · cases hb.symm.trans h
    all_goals
      cases hb.symm.trans h
      cases htype
  | sequence _ _ h | dictionary _ h =>
    cases h
    cases htype
  | inline hshape => exact hshape

theorem resolveStep_eq_buildInline_iff (hf : s.catalog.findComposite? site.name = none) :
    (∀ r, resolveStep context r site s = buildInline context r site s) ↔
      site.schema.isComposite = true := by
  constructor
  · intro h
    obtain ⟨t, ht, hresolved, horigins⟩ := buildInline_silent context hf
    exact isComposite_of_takes (resolveStep_takes ((h silent).trans ht)) rfl hresolved horigins
  · intro h r
    rw [resolveStep_of_isComposite h]

theorem buildAliased_adds (hd : Fields.get? context.document.definitions name = some schema)
    (hshape : schema.isComposite = false)
    (h : buildAliased (resolveSite context) name schema s = some (type, t)) :
    Adds (· ≠ (Pointer.definition name).text) s t := by
  refine ((resolveSite_registersObjects context).buildAliased hd h).mono fun origin ho => ?_
  rintro rfl
  exact not_isObjectOrigin hd hshape ho

/-- Nor is it in a whole run. -/
theorem not_mem_origins_of_resolveAll
    (hd : Fields.get? context.document.definitions name = some schema)
    (hshape : schema.isComposite = false) {methods : List Method}
    (hall : Build.resolveAll context (resolveSite context) {} = some (methods, t)) :
    (Pointer.definition name).text ∉ t.origins := by
  obtain ⟨methods', t', ht, -, hf⟩ :=
    Scene.resolveAll_keeps (Scene.resolveSite_keeps (Scene.ofBuild context) {})
  cases ht.symm.trans hall
  intro hm
  obtain ⟨composite, hc, ho⟩ := List.mem_map.mp hm
  obtain ⟨i, hi⟩ := List.mem_iff_getElem?.mp hc
  have hi : t.catalog.composite? ⟨i⟩ = some composite := hi
  obtain ⟨other, pointer, hs, hother, hp, -⟩ := hf.described hi
  exact not_isObjectOrigin hd hshape ⟨pointer, other, hs, hother, ho.symm.trans hp⟩

/-- A definition that is an object type becomes what its route would have made of it. -/
theorem buildDefined_agrees (context : Context) (name : String) (hshape : schema.isComposite = true)
    (s : State) : ∃ t u,
      buildDefined context (resolveSite context) name schema s =
        some (registered name (Pointer.definition name) s, t) ∧
      resolveSite context (definitionSite name schema) s =
        some (registered name (Pointer.definition name) s, u) := by
  obtain ⟨type, t, ht⟩ := Ends.buildDefined (resolveSite_total context) context name schema s
  obtain ⟨type', u, hu⟩ := Ends.buildInline (resolveSite_total context) context
    (definitionSite name schema) s
  obtain rfl := type_of_buildDefined ht
  obtain rfl := type_of_buildInline hu
  refine ⟨t, u, ht, ?_⟩
  rw [resolveSite_eq, resolveStep_of_isComposite hshape]
  exact hu

/-- The test for object types and the routes agree, for every schema and from every state. A schema
that passes the test is always built as an inline object type by the step, and no other schema is,
as far as that can be told where its name is free. So a definition that does not pass the test
and is followed under a frame of its own is never registered at its own pointer, from whatever state
it is followed and in no run; and one that passes the test answers with the same object type as its
route does. -/
theorem route_agrees_with_shape (context : Context) :
    (∀ schema : Schema, schema.isComposite = true ↔ schema.route = .composite) ∧
    (∀ site : Site, site.schema.isComposite = true → ∀ r s,
      resolveStep context r site s = buildInline context r site s) ∧
    (∀ (site : Site) (s : State), s.catalog.findComposite? site.name = none →
      (∀ r, resolveStep context r site s = buildInline context r site s) →
        site.schema.isComposite = true) ∧
    (∀ name schema, Fields.get? context.document.definitions name = some schema →
      schema.isComposite = false →
        (∀ s, ∃ type t added,
          buildAliased (resolveSite context) name schema s = some (type, t) ∧
          t.origins = s.origins ++ added ∧ (Pointer.definition name).text ∉ added) ∧
        ∀ methods t, Build.resolveAll context (resolveSite context) {} = some (methods, t) →
          (Pointer.definition name).text ∉ t.origins) ∧
    ∀ (name : String) (schema : Schema), schema.isComposite = true → ∀ s, ∃ t u,
      buildDefined context (resolveSite context) name schema s =
        some (registered name (Pointer.definition name) s, t) ∧
      resolveSite context (definitionSite name schema) s =
        some (registered name (Pointer.definition name) s, u) := by
  refine ⟨fun schema => Schema.route_eq_composite_iff.symm, fun site h r s => ?_,
    fun site s hf => (resolveStep_eq_buildInline_iff hf).mp,
    fun name schema hd hshape =>
      ⟨fun s => ?_, fun methods t => not_mem_origins_of_resolveAll hd hshape⟩,
    fun name schema => buildDefined_agrees context name⟩
  · rw [resolveStep_of_isComposite h]
  · obtain ⟨type, t, ht⟩ := Ends.buildAliased (resolveSite_total context) name schema s
    obtain ⟨added, hadded, hne⟩ := buildAliased_adds hd hshape ht
    exact ⟨type, t, added, ht, hadded, fun hm => hne _ hm rfl⟩

def petList : Schema :=
  { typeName := some "array"
    items := some { properties := [("name", { typeName := some "string" })] } }

def petOwner : Schema := { properties := [("pets", .referenceTo "Pets")] }

def shelter : Document where
  info := { title := "Shelter", version := "1" }
  definitions := [("Pets", petList), ("Owner", petOwner)]

theorem route_agrees_with_shape_shelter :
    (∃ type t, buildAliased (resolveSite ⟨shelter, {}⟩) "Pets" petList {} = some (type, t) ∧
      t.origins = ["#/definitions/Pets/items"] ∧ (Pointer.definition "Pets").text ∉ t.origins) ∧
    resolveStep ⟨shelter, {}⟩ silent (definitionSite "Owner" petOwner) {} =
      buildInline ⟨shelter, {}⟩ silent (definitionSite "Owner" petOwner) {} ∧
    ∃ t u, buildDefined ⟨shelter, {}⟩ (resolveSite ⟨shelter, {}⟩) "Owner" petOwner {} =
        some (some (.composite ⟨0⟩), t) ∧
      resolveSite ⟨shelter, {}⟩ (definitionSite "Owner" petOwner) {} =
        some (some (.composite ⟨0⟩), u) := by
  obtain ⟨-, hstep, -, halias, hdefined⟩ := route_agrees_with_shape ⟨shelter, {}⟩
  have hlist : petList.isComposite = false := by decide
  have howner : petOwner.isComposite = true := by decide
  obtain ⟨hpets, -⟩ := halias "Pets" petList rfl hlist
  obtain ⟨type, t, added, ht, hadded, hnew⟩ := hpets {}
  have horigins : (buildAliased (resolveSite ⟨shelter, {}⟩) "Pets" petList {}).map
      (·.2.origins) = some ["#/definitions/Pets/items"] := by decide +kernel
  rw [ht] at horigins
  exact ⟨⟨type, t, ht, Option.some.inj horigins, hadded ▸ hnew⟩,
    hstep (definitionSite "Owner" petOwner) howner silent {}, hdefined "Owner" petOwner howner {}⟩

end ApiModel.Resolution
