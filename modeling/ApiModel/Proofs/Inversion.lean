import ApiModel.Proofs.Calls

/-! # What a step does

Each part of a resolution, read backwards: what an outcome says about the calls of the resolver
that led to it and about the states in between. The resolver is any resolver, so what is found here
holds with and without fuel.
-/

namespace ApiModel

namespace Site

variable {site : Site}

/-- The site that resolution goes on with before it enters an object type: that of the items or
values, or that of the definition that is referred to. -/
def next? (document : Document) (site : Site) : Option Site :=
  match site.schema.route with
  | .reference text =>
    match Reference.parse? text with
    | some ⟨.definitions, name⟩ =>
      (document.definition? name).map fun p => Resolution.definitionSite p.1 p.2
    | _ => none
  | .array _ => site.schema.items.map fun items => site.inside items "Item" "items"
  | .dictionary (some value) => some (site.inside value "Value" "additionalProperties")
  | _ => none

theorem next?_reference {document : Document} {text name : String}
    (hr : site.schema.reference = some text)
    (hp : Reference.parse? text = some ⟨.definitions, name⟩) : site.next? document =
      (document.definition? name).map fun p => Resolution.definitionSite p.1 p.2 := by
  simp only [next?, Schema.route_of_reference hr, hp]

theorem next?_array {document : Document} {clash : Bool} {items : Schema}
    (hr : site.schema.route = .array clash) (hi : site.schema.items = some items) :
    site.next? document = some (site.inside items "Item" "items") := by
  simp [next?, hr, hi]

theorem next?_dictionary {document : Document} {value : Schema}
    (hr : site.schema.route = .dictionary (some value)) :
    site.next? document = some (site.inside value "Value" "additionalProperties") := by
  simp [next?, hr]

theorem next?_composite {document : Document} (hs : site.schema.isComposite = true) :
    site.next? document = none := by
  simp [next?, Schema.route_eq_composite_iff.mpr hs]

end Site

namespace Resolution

open Text (caseKey)
open Scene (fillIn)

variable {context : Context} {r : Resolver} {s t : State} {site : Site} {type : Option ModelType}

theorem resolveBase_cons {name : String} {part : BasePart} {others : List BasePart}
    {base : Option CompositeId} :
    resolveBase r name (part :: others) s = some (base, t) ↔
      ∃ type u, r (part.site name) s = some (type, u) ∧ base = type.bind ModelType.composite? ∧
        t = (reportSecondBases name others (baseOf name part type u).2).2 := by
  unfold resolveBase
  rw [bind_eq_some]
  refine exists_congr fun type => exists_congr fun u => and_congr_right fun _ => ?_
  rw [← baseOf_fst name part type u]
  constructor
  · intro h
    cases h
    exact ⟨rfl, rfl⟩
  · rintro ⟨rfl, rfl⟩
    rfl

/-- What a loop over members does with the type of one: it adds the property that the member
becomes, unless there is a defect. -/
def absorb (context : Context) (owner : String) (required : List String) (m : Member)
    (properties : List Property) : Option ModelType → Step (List Property)
  | none => return properties
  | some type =>
    match constraintsOf context.grammars m.schema.facets m.pointer with
    | .ok c => addProperty owner properties (memberProperty context.document required m type c)
    | .error fault => do
      report (.schema owner fault)
      return properties

section Members

variable {owner : String} {required : List String} {m : Member} {members : List Member}
  {properties properties' : List Property}

theorem absorb_ok {type : ModelType} {c : Constraints}
    (h : constraintsOf context.grammars m.schema.facets m.pointer = .ok c) :
    absorb context owner required m properties (some type) =
      addProperty owner properties (memberProperty context.document required m type c) := by
  simp only [absorb, h]

theorem absorb_error {type : ModelType} {fault : SchemaFault}
    (h : constraintsOf context.grammars m.schema.facets m.pointer = .error fault) (s : State) :
    absorb context owner required m properties (some type) s =
      (properties, (report (.schema owner fault) s).2) := by
  simp only [absorb, h]
  rfl

theorem absorb_notes (s : State) :
    Notes s (absorb context owner required m properties type s).2 := by
  cases type with
  | none => exact .refl s
  | some type =>
    cases h : constraintsOf context.grammars m.schema.facets m.pointer with
    | ok c =>
      rw [absorb_ok h]
      exact addProperty_notes ..
    | error fault =>
      rw [absorb_error h]
      exact .report _ s

def memberStep (context : Context) (r : Resolver) (owner : String) (required : List String)
    (properties : List Property) (m : Member) : Run (List Property) := do
  match ← resolveMember context r owner required m with
  | none => return properties
  | some p => addProperty owner properties p

theorem memberStep_eq_some : memberStep context r owner required properties m s =
    some (properties', t) ↔ ∃ type u, r (m.site owner) s = some (type, u) ∧
      absorb context owner required m properties type u = (properties', t) := by
  have hstep : ∀ {type u}, r (m.site owner) s = some (type, u) →
      memberStep context r owner required properties m s =
        some (absorb context owner required m properties type u) := by
    intro type u hu
    rw [memberStep, bind_eq_some]
    cases type with
    | none => exact ⟨none, u, bind_eq_some.mpr ⟨none, u, hu, rfl⟩, rfl⟩
    | some type =>
      cases h : constraintsOf context.grammars m.schema.facets m.pointer with
      | ok c =>
        rw [absorb_ok h]
        exact ⟨_, u, bind_eq_some.mpr ⟨_, u, hu, bind_eq_some.mpr
          ⟨some c, u, congrArg some (constraints_ok h u), rfl⟩⟩, rfl⟩
      | error fault =>
        rw [absorb_error h]
        exact ⟨none, _, bind_eq_some.mpr ⟨_, u, hu, bind_eq_some.mpr
          ⟨none, _, congrArg some (constraints_error h u), rfl⟩⟩, rfl⟩
  constructor
  · intro h
    obtain ⟨_, _, hp, -⟩ := bind_eq_some.mp h
    obtain ⟨type, u, hu, -⟩ := bind_eq_some.mp hp
    exact ⟨type, u, hu, Option.some.inj ((hstep hu).symm.trans h)⟩
  · rintro ⟨type, u, hu, h⟩
    rw [hstep hu, h]

theorem foldlM_memberStep_cons :
    (m :: members).foldlM (memberStep context r owner required) properties s =
      some (properties', t) ↔ ∃ type u, r (m.site owner) s = some (type, u) ∧
        members.foldlM (memberStep context r owner required)
          (absorb context owner required m properties type u).1
          (absorb context owner required m properties type u).2 = some (properties', t) := by
  rw [List.foldlM_cons, bind_eq_some]
  constructor
  · rintro ⟨ps, v, hv, h⟩
    obtain ⟨type, u, hu, ha⟩ := memberStep_eq_some.mp hv
    exact ⟨type, u, hu, by rw [ha]; exact h⟩
  · rintro ⟨type, u, hu, h⟩
    exact ⟨_, _, memberStep_eq_some.mpr ⟨type, u, hu, rfl⟩, h⟩

/-- `I` relates the members that the loop has passed to what it has gathered. -/
theorem resolveMembers_induct (I : List Member → List Property → State → Prop)
    (hstep : ∀ before m after properties u type v, members = before ++ m :: after →
      I before properties u → r (m.site owner) u = some (type, v) →
        I (before ++ [m]) (absorb context owner required m properties type v).1
          (absorb context owner required m properties type v).2)
    (hs : I [] [] s) (h : resolveMembers context r owner required members s =
      some (properties, t)) : I members properties t := by
  suffices hsuffix : ∀ before after ps u, members = before ++ after → I before ps u →
      after.foldlM (memberStep context r owner required) ps u = some (properties, t) →
        I members properties t from hsuffix [] members [] s rfl hs h
  intro before after
  induction after generalizing before with
  | nil =>
    intro ps u hm hi h
    cases h
    rwa [hm, List.append_nil]
  | cons m after ih =>
    intro ps u hm hi h
    obtain ⟨type, v, hv, h⟩ := foldlM_memberStep_cons.mp h
    exact ih (before ++ [m]) _ _ (by simp [hm]) (hstep before m after ps u type v hm hi hv) h

end Members

def remarks (context : Context) (name : String) (schema : Schema) (pointer : Pointer)
    (s : State) : State :=
  (discriminatorValue context.settings name schema
    (warnUndeclared name (schema.declaredMembers pointer) (schema.declaredRequired pointer) s).2).2

theorem remarks_asides (name : String) (schema : Schema) (pointer : Pointer) (s : State) :
    Asides s (remarks context name schema pointer s) :=
  (Asides.warnUndeclared ..).trans (.discriminatorValue ..)

theorem remarks_notes (name : String) (schema : Schema) (pointer : Pointer) (s : State) :
    Notes s (remarks context name schema pointer s) := (remarks_asides name schema pointer s).notes

def closeStub (context : Context) (id : CompositeId) (name : String) (schema : Schema)
    (pointer : Pointer) (properties : List Property) (base : Option CompositeId) : Run Unit := do
  warnUndeclared name (schema.declaredMembers pointer) (schema.declaredRequired pointer)
  let value ← discriminatorValue context.settings name schema
  modify (Scene.fillIn id schema pointer properties base value)
  pop

theorem closeStub_eq (id : CompositeId) (name : String) (schema : Schema) (pointer : Pointer)
    (properties : List Property) (base : Option CompositeId) (s : State) :
    closeStub context id name schema pointer properties base s =
      some ((), (pop (Scene.fillIn id schema pointer properties base
        (declaredValue context.settings name schema)
        (remarks context name schema pointer s))).2) := by
  rw [← discriminatorValue_fst]
  rfl

theorem populate_eq_some {id : CompositeId} {schema : Schema} {pointer : Pointer} :
    populate context r id schema pointer s = some ((), t) ↔ ∃ base u properties v,
      resolveBase r (s.catalog.nameOf id) (schema.baseParts pointer) (push .composite s).2 =
        some (base, u) ∧
      resolveMembers context r (s.catalog.nameOf id) (schema.declaredRequired pointer)
        (schema.declaredMembers pointer) u = some (properties, v) ∧
      t = (pop (fillIn id schema pointer properties base
        (declaredValue context.settings (s.catalog.nameOf id) schema)
        (remarks context (s.catalog.nameOf id) schema pointer v))).2 := by
  have hparts : populate context r id schema pointer s = (do
      let base ← resolveBase r (s.catalog.nameOf id) (schema.baseParts pointer)
      let properties ← resolveMembers context r (s.catalog.nameOf id)
        (schema.declaredRequired pointer) (schema.declaredMembers pointer)
      closeStub context id (s.catalog.nameOf id) schema pointer properties base : Run Unit)
        (push .composite s).2 := rfl
  rw [hparts]
  constructor
  · intro h
    obtain ⟨base, u, hb, h⟩ := bind_eq_some.mp h
    obtain ⟨properties, v, hm, h⟩ := bind_eq_some.mp h
    rw [closeStub_eq] at h
    cases h
    exact ⟨base, u, properties, v, hb, hm, rfl⟩
  · rintro ⟨base, u, properties, v, hb, hm, rfl⟩
    exact bind_eq_some.mpr ⟨base, u, hb, bind_eq_some.mpr ⟨properties, v, hm, closeStub_eq ..⟩⟩

theorem Composed.kept {α : Type} {part : Resolver → Run α} (h : Composed Asides part)
    {I : State → Prop}
    (hcall : ∀ site s type t, r site s = some (type, t) → Grows s t ∧ (I s → I t))
    (hasides : ∀ {s t}, Asides s t → I s → I t) {a : α} (hs : I s)
    (hp : part r s = some (a, t)) : Grows s t ∧ I t := by
  refine h.preserves (I := fun u => Grows s u ∧ I u) ?_ ?_ ⟨.refl s, hs⟩ hp
  · rintro u v ha ⟨hu, hi⟩
    exact ⟨hu.trans ha.notes.grows, hasides ha hi⟩
  · rintro site u type v hc ⟨hu, hi⟩
    obtain ⟨hv, hkeeps⟩ := hcall _ _ _ _ hc
    exact ⟨hu.trans hv, hkeeps hi⟩

/-- Filling in an object type goes from call to call with asides in between, and then the stub takes
what has been gathered. -/
theorem populate_induct (I : State → Prop)
    (hcall : ∀ site u type v, I u → r site u = some (type, v) → I v)
    (hasides : ∀ {u v}, I u → Asides u v → I v) {id : CompositeId} {schema : Schema}
    {pointer : Pointer} (hs : I (push .composite s).2)
    (h : populate context r id schema pointer s = some ((), t)) : ∃ properties base value u,
      I u ∧ t = (pop (fillIn id schema pointer properties base value u)).2 := by
  obtain ⟨base, u, properties, v, hb, hm, rfl⟩ := populate_eq_some.mp h
  have hu : I u := (Composed.resolveBase _ _).preserves (fun ha hi => hasides hi ha)
    (fun hc hi => hcall _ _ _ _ hi hc) hs hb
  have hv : I v := (Composed.resolveMembers context _ _ _).preserves
    (fun ha hi => hasides hi ha) (fun hc hi => hcall _ _ _ _ hi hc) hu hm
  exact ⟨properties, base, _, _, hasides hv (remarks_asides ..), rfl⟩

theorem registerComposite_new {name : String} (h : s.catalog.findComposite? name = none)
    (pointer : Pointer) : registerComposite name pointer s =
      (some ⟨⟨s.catalog.composites.length⟩, true⟩, s.withStub name pointer) := by
  obtain ⟨-, hr⟩ | ⟨id, hf, -⟩ | ⟨d, hr⟩ := registerComposite_cases name pointer s
  · exact hr
  · cases h.symm.trans hf
  · unfold registerComposite at hr
    simp only [step_bind, step_modifyGet, Catalog.internComposite, h] at hr
    cases hr

theorem registerComposite_known {name : String} {id : CompositeId} {pointer : Pointer}
    (h : s.catalog.findComposite? name = some id)
    (ho : (s.catalog.composite? id).elim "" (·.origin) = pointer.text) :
    registerComposite name pointer s = (some ⟨id, false⟩, s) := by
  unfold registerComposite
  simp only [step_bind, step_modifyGet, Catalog.internComposite, h]
  exact congrFun (if_pos ho) s

theorem registerComposite_refused {name : String} {id : CompositeId} {pointer : Pointer}
    (h : s.catalog.findComposite? name = some id)
    (ho : (s.catalog.composite? id).elim "" (·.origin) ≠ pointer.text) :
    registerComposite name pointer s = fail (.schema name (.nameClash name pointer.text
      ((s.catalog.composite? id).elim "" (·.origin)))) s := by
  unfold registerComposite
  simp only [step_bind, step_modifyGet, Catalog.internComposite, h]
  exact congrFun (if_neg ho) s

/-- What becomes of an inline object type: its name is taken by another node, or it has been
registered before, or it is registered and filled in. -/
theorem buildInline_cases (h : buildInline context r site s = some (type, t)) :
    (∃ d, registerComposite site.name site.pointer s = fail d s ∧ type = none ∧
      t = (report d s).2) ∨
    (∃ id, s.catalog.findComposite? site.name = some id ∧
      (s.catalog.composite? id).elim "" (·.origin) = site.pointer.text ∧
      type = some (.composite id) ∧ t = s) ∨
    (s.catalog.findComposite? site.name = none ∧
      type = some (.composite ⟨s.catalog.composites.length⟩) ∧
      populate context r ⟨s.catalog.composites.length⟩ site.schema site.pointer
        (s.withStub site.name site.pointer) = some ((), t)) := by
  obtain ⟨interned, u, hu, h⟩ := bind_eq_some.mp h
  obtain ⟨hf, hreg⟩ | ⟨id, hf, ho, hreg⟩ | ⟨d, hreg⟩ :=
    registerComposite_cases site.name site.pointer s
  · cases (Option.some.inj hu).symm.trans hreg
    obtain ⟨_, v, hv, h⟩ := bind_eq_some.mp h
    cases h
    exact .inr (.inr ⟨hf, rfl, hv⟩)
  · cases (Option.some.inj hu).symm.trans hreg
    cases h
    exact .inr (.inl ⟨id, hf, ho, rfl, rfl⟩)
  · cases (Option.some.inj hu).symm.trans hreg
    cases h
    exact .inl ⟨d, hreg, rfl, rfl⟩

inductive Settles (context : Context) (r : Resolver) (name : String) (schema : Schema)
    (s : State) : Option ModelType → State → Prop where
  | remembered {type : ModelType} (h : s.typeOf? name = some type) :
      Settles context r name schema s (some type) s
  | failed (hn : s.typeOf? name = none) (hf : caseKey name ∈ s.failed) :
      Settles context r name schema s none s
  | clash {d : Defect} (hn : s.typeOf? name = none) (hf : caseKey name ∉ s.failed)
      (hs : schema.isComposite = true)
      (hr : registerComposite name (Pointer.definition name) s = fail d s) :
      Settles context r name schema s none (markFailed (caseKey name) (report d s).2).2
  | known {id : CompositeId} (hn : s.typeOf? name = none) (hf : caseKey name ∉ s.failed)
      (hs : schema.isComposite = true) (hk : s.catalog.findComposite? name = some id)
      (ho : (s.catalog.composite? id).elim "" (·.origin) = (Pointer.definition name).text) :
      Settles context r name schema s (some (.composite id))
        (remember (caseKey name) (.composite id) s).2
  | opened {t : State} (hn : s.typeOf? name = none) (hf : caseKey name ∉ s.failed)
      (hs : schema.isComposite = true) (hk : s.catalog.findComposite? name = none)
      (hp : populate context r ⟨s.catalog.composites.length⟩ schema (Pointer.definition name)
        (remember (caseKey name) (.composite ⟨s.catalog.composites.length⟩)
          (s.withStub name (Pointer.definition name))).2 = some ((), t)) :
      Settles context r name schema s (some (.composite ⟨s.catalog.composites.length⟩)) t
  | round (hn : s.typeOf? name = none) (hf : caseKey name ∉ s.failed)
      (hs : schema.isComposite = false) (hc : comesRound s.frames (caseKey name) = true) :
      Settles context r name schema s none
        (report (.schema name (.selfReference name)) (markFailed (caseKey name) s).2).2
  | lost {t : State} (hn : s.typeOf? name = none) (hf : caseKey name ∉ s.failed)
      (hs : schema.isComposite = false) (hc : comesRound s.frames (caseKey name) = false)
      (hr : r (definitionSite name schema) (push (.definition (caseKey name)) s).2 =
        some (none, t)) :
      Settles context r name schema s none (markFailed (caseKey name) (pop t).2).2
  | found {type : ModelType} {t : State} (hn : s.typeOf? name = none)
      (hf : caseKey name ∉ s.failed) (hs : schema.isComposite = false)
      (hc : comesRound s.frames (caseKey name) = false)
      (hr : r (definitionSite name schema) (push (.definition (caseKey name)) s).2 =
        some (some type, t)) :
      Settles context r name schema s (some type) (remember (caseKey name) type (pop t).2).2

section Definitions

variable {name owner : String} {pointer : Pointer} {schema : Schema}

theorem buildDefined_settles (hn : s.typeOf? name = none) (hf : caseKey name ∉ s.failed)
    (hs : schema.isComposite = true)
    (h : buildDefined context r name schema s = some (type, t)) :
    Settles context r name schema s type t := by
  obtain ⟨interned, u, hu, h⟩ := bind_eq_some.mp h
  obtain ⟨hk, hreg⟩ | ⟨id, hk, ho, hreg⟩ | ⟨d, hreg⟩ :=
    registerComposite_cases name (Pointer.definition name) s
  · cases (Option.some.inj hu).symm.trans hreg
    obtain ⟨_, v, hv, h⟩ := bind_eq_some.mp h
    cases hv
    obtain ⟨_, v, hv, h⟩ := bind_eq_some.mp h
    cases h
    exact .opened hn hf hs hk hv
  · cases (Option.some.inj hu).symm.trans hreg
    cases h
    exact .known hn hf hs hk ho
  · cases (Option.some.inj hu).symm.trans hreg
    cases h
    exact .clash hn hf hs hreg

theorem buildAliased_settles (hn : s.typeOf? name = none) (hf : caseKey name ∉ s.failed)
    (hs : schema.isComposite = false)
    (h : buildAliased r name schema s = some (type, t)) :
    Settles context r name schema s type t := by
  rw [buildAliased, get_bind] at h
  cases hc : comesRound s.frames (caseKey name) with
  | true =>
    simp only [hc, if_true] at h
    cases h
    exact .round hn hf hs hc
  | false =>
    simp only [hc, Bool.false_eq_true, if_false] at h
    obtain ⟨_, _, hu, h⟩ := bind_eq_some.mp h
    cases hu
    obtain ⟨result, v, hv, h⟩ := bind_eq_some.mp h
    cases result with
    | none =>
      cases h
      exact .lost hn hf hs hc hv
    | some found =>
      cases h
      exact .found hn hf hs hc hv

theorem resolveClaimed_settles (h : resolveClaimed context r name schema s = some (type, t)) :
    Settles context r name schema s type t := by
  rw [resolveClaimed, get_bind] at h
  cases hn : Fields.get? s.resolved (caseKey name) with
  | some found =>
    simp only [hn] at h
    cases h
    exact .remembered hn
  | none =>
    simp only [hn] at h
    by_cases hf : caseKey name ∈ s.failed
    · simp only [List.contains_iff_mem.mpr hf, if_true] at h
      cases h
      exact .failed hn hf
    · rw [if_neg (by simpa using hf)] at h
      cases hs : schema.isComposite with
      | true =>
        rw [hs, if_pos rfl] at h
        exact buildDefined_settles hn hf hs h
      | false =>
        rw [hs, if_neg Bool.false_ne_true] at h
        exact buildAliased_settles hn hf hs h

/-- What becomes of a reference to a definition: there is none, or its case key is another's, or it
is resolved under its own. -/
theorem resolveDefinition_cases
    (h : resolveDefinition context r name pointer owner s = some (type, t)) :
    (context.document.definition? name = none ∧ type = none ∧
      (context.document.isMalformed name = true ∧ t = s ∨ t =
        (report (.schema owner (.undefinedDefinition name pointer)) s).2)) ∨
    ∃ canonical schema, context.document.definition? name = some (canonical, schema) ∧
      ((∃ d, claimKey canonical s = (false, (report d s).2) ∧ type = none ∧
        t = (report d s).2) ∨
      ∃ u, claimKey canonical s = (true, u) ∧
        Settles context r canonical schema u type t) := by
  unfold resolveDefinition at h
  cases hd : context.document.definition? name with
  | none =>
    simp only [hd] at h
    split_ifs at h with hm
    · cases h
      exact .inl ⟨rfl, rfl, .inl ⟨hm, rfl⟩⟩
    · cases h
      exact .inl ⟨rfl, rfl, .inr rfl⟩
  | some found =>
    obtain ⟨canonical, schema⟩ := found
    simp only [hd] at h
    refine .inr ⟨canonical, schema, rfl, ?_⟩
    obtain ⟨claimed, u, hu, h⟩ := bind_eq_some.mp h
    have hu : claimKey canonical s = (claimed, u) := Option.some.inj hu
    cases claimed with
    | true => exact .inr ⟨u, hu, resolveClaimed_settles h⟩
    | false =>
      cases h
      obtain ⟨-, hk⟩ | ⟨-, hk⟩ | ⟨d, hk⟩ := claimKey_cases canonical s
      · cases hk.symm.trans hu
      · cases hk.symm.trans hu
      · cases hk.symm.trans hu
        exact .inl ⟨d, hk, rfl, rfl⟩

end Definitions

def noteClash (site : Site) (clash : Bool) (s : State) : State :=
  if clash then (report (.schema site.owner (.arrayWithAdditional site.pointer)) s).2 else s

theorem noteClash_asides (site : Site) (clash : Bool) (s : State) :
    Asides s (noteClash site clash s) := by
  unfold noteClash
  split
  · exact .report rfl s
  · exact .refl s

theorem noteClash_notes (site : Site) (clash : Bool) (s : State) :
    Notes s (noteClash site clash s) := (noteClash_asides site clash s).notes

inductive Refuses (context : Context) (site : Site) (s : State) : State → Prop where
  | reference {text : String} {d : Defect} (hd : d.isPlain = true)
      (hr : site.schema.route = .reference text)
      (hp : ∀ name, Reference.parse? text ≠ some ⟨.definitions, name⟩) :
      Refuses context site s (report d s).2
  | enum {listed : List Json} (d : Defect) (hr : site.schema.route = .enumeration listed)
      (hb : buildEnum context.settings site listed s = fail d s) :
      Refuses context site s (report d s).2
  | malformed {value : Json} {d : Defect} (hd : d.isPlain = true)
      (hr : site.schema.route = .malformed value) :
      Refuses context site s (report d s).2
  | array {clash : Bool} {d : Defect} (hd : d.isPlain = true)
      (hr : site.schema.route = .array clash) (hi : site.schema.items = none) :
      Refuses context site s (report d (noteClash site clash s)).2
  | scalar {reason : Scalar.Unknown} (hr : site.schema.route = .scalar)
      (hk : scalarOf? context.settings site.schema = none) :
      Refuses context site s (report (.schema site.owner (.unknownScalar reason site.pointer)) s).2

namespace Refuses

variable (h : Refuses context site s t)
include h

theorem notes : Notes s t := by
  cases h with
  | reference | enum | malformed | scalar => exact .report _ s
  | array => exact (noteClash_notes ..).trans (.report _ _)

theorem defects : t.defects ≠ [] := by
  cases h <;> simp

theorem next?_eq : site.next? context.document = none := by
  cases h with
  | reference _ hr hp => simp only [Site.next?, hr]
  | enum _ hr | malformed _ hr | scalar hr => simp [Site.next?, hr]
  | array _ hr hi => simp [Site.next?, hr, hi]

theorem isComposite_eq : site.schema.isComposite = false := by
  have hne : site.schema.route ≠ .composite := by
    cases h with
    | reference _ hr | enum _ hr | malformed _ hr | array _ hr | scalar hr => simp [hr]
  simpa [Schema.route_eq_composite_iff] using hne

end Refuses

/-- What a step does with a schema, by the route that the schema takes. -/
inductive Takes (context : Context) (r : Resolver) (site : Site) (s : State) :
    Option ModelType → State → Prop where
  | refused {t : State} (h : Refuses context site s t) : Takes context r site s none t
  | reference {text name : String} {type : Option ModelType} {t : State}
      (hr : site.schema.reference = some text)
      (hp : Reference.parse? text = some ⟨.definitions, name⟩)
      (h : resolveDefinition context r name site.pointer site.owner s = some (type, t)) :
      Takes context r site s type t
  | enum {listed : List Json} {type : ModelType} {t : State}
      (hr : site.schema.reference = none) (hl : site.schema.stringEnum? = some listed)
      (h : buildEnum context.settings site listed s = (some type, t)) :
      Takes context r site s (some type) t
  | sequence {clash : Bool} {items : Schema} {element : Option ModelType} {t : State}
      (hr : site.schema.route = .array clash) (hi : site.schema.items = some items)
      (h : r (site.inside items "Item" "items") (noteClash site clash s) = some (element, t)) :
      Takes context r site s (element.map .sequence) t
  | anything (hr : site.schema.route = .dictionary none) :
      Takes context r site s (some (.dictionary (.scalar .object))) s
  | dictionary {schema : Schema} {value : Option ModelType} {t : State}
      (hr : site.schema.route = .dictionary (some schema))
      (h : r (site.inside schema "Value" "additionalProperties") s = some (value, t)) :
      Takes context r site s (value.map .dictionary) t
  | inline {type : Option ModelType} {t : State} (hs : site.schema.isComposite = true)
      (h : buildInline context r site s = some (type, t)) : Takes context r site s type t
  | scalar {kind : Scalar} {t : State} (hr : site.schema.route = .scalar)
      (hk : scalarOf? context.settings site.schema = some kind) (ha : Asides s t) :
      Takes context r site s (some (.scalar kind)) t

theorem resolveStep_takes (h : resolveStep context r site s = some (type, t)) :
    Takes context r site s type t := by
  unfold resolveStep at h
  cases hroute : site.schema.route with
  | reference text =>
    have hr := Schema.reference_of_route hroute
    simp only [hroute, resolveReference] at h
    cases hp : Reference.parse? text with
    | none =>
      simp only [hp] at h
      cases h
      exact .refused (.reference rfl hroute (by simp [hp]))
    | some reference =>
      obtain ⟨target, name⟩ := reference
      simp only [hp] at h
      cases target with
      | definitions => exact .reference hr hp h
      | parameters =>
        cases h
        exact .refused (.reference rfl hroute (by simp [hp]))
  | enumeration listed =>
    obtain ⟨hr, hl⟩ := Schema.enumeration_of_route hroute
    simp only [hroute] at h
    have h : buildEnum context.settings site listed s = (type, t) := Option.some.inj h
    cases type with
    | some type => exact .enum hr hl h
    | none =>
      obtain ⟨d, hb⟩ | ⟨values, -, ⟨-, hb⟩ | ⟨extension, -, ⟨-, hb⟩ | ⟨id, -, -, hb⟩⟩⟩ :=
        buildEnum_cases context.settings site listed s
      · cases hb.symm.trans h
        exact .refused (.enum d hroute hb)
      all_goals cases hb.symm.trans h
  | malformed value =>
    simp only [hroute] at h
    cases h
    exact .refused (.malformed rfl hroute)
  | array clash =>
    simp only [hroute] at h
    have h : buildSequence r site (noteClash site clash s) = some (type, t) := by
      cases clash <;> exact h
    unfold buildSequence at h
    cases hi : site.schema.items with
    | none =>
      simp only [hi] at h
      cases h
      exact .refused (.array rfl hroute hi)
    | some items =>
      simp only [hi] at h
      obtain ⟨element, u, hu, h⟩ := bind_eq_some.mp h
      cases h
      exact .sequence hroute hi hu
  | dictionary value =>
    simp only [hroute] at h
    cases value with
    | none =>
      cases h
      exact .anything hroute
    | some schema =>
      obtain ⟨value, u, hu, h⟩ := bind_eq_some.mp h
      cases h
      exact .dictionary hroute hu
  | composite =>
    simp only [hroute] at h
    exact .inline (Schema.route_eq_composite_iff.mp hroute) h
  | scalar =>
    simp only [hroute] at h
    have h : buildScalar context.settings site s = (type, t) := Option.some.inj h
    obtain ⟨kind, hk, hb, ha⟩ | ⟨reason, hk, -, hb⟩ := buildScalar_cases context.settings site s
    · rw [h] at hb ha
      obtain rfl : type = some (.scalar kind) := hb
      exact .scalar hroute hk ha
    · cases hb.symm.trans h
      exact .refused (.scalar hroute hk)

end Resolution

end ApiModel
