import ApiModel.Proofs.Scene
import ApiModel.Proofs.Recursion

/-! # Resolution keeps the invariant

A resolution that starts within the invariant ends within it, and yields a type that the schema has
at its site, or nothing where a defect has been found. A type that ends in an enum is found without
remembering a type for any definition on the way, so no definition is remembered with two of them.
-/

namespace ApiModel.Resolution

open Text (caseKey)

variable {S : Scene} {r r' : Resolver} {s t u last : State} {P P' : State → ModelType → Prop}

namespace Scene

/-- One state of a run comes after another. -/
structure Reaches (S : Scene) (s t : State) : Prop where
  inv : S.Inv t
  later : Extends s t

namespace Reaches

theorem refl (h : S.Inv s) : S.Reaches s s := ⟨h, .refl s⟩

theorem trans (h : S.Reaches s t) (h' : S.Reaches t u) : S.Reaches s u :=
  ⟨h'.inv, h.later.trans h'.later⟩

theorem notes (h : S.Inv s) (hn : Notes s t) : S.Reaches s t := ⟨h.notes hn, .of_notes hn⟩

end Reaches

structure Yields (S : Scene) (P : State → ModelType → Prop) (s : State)
    (type : Option ModelType) (t : State) : Prop where
  reaches : S.Reaches s t
  holds : ∀ {x}, type = some x → P t x
  lost : type = none → S.Marked t
  /-- No definition that is being resolved gets a type while one that ends in an enum is found. -/
  recent : ∀ {x}, type = some x → x.endsInEnum = true →
    ∀ {key}, Frame.definition key ∈ recent s.frames →
      Fields.get? t.resolved key = Fields.get? s.resolved key

namespace Yields

theorem fail (h : S.Inv s) (d : Defect) :
    S.Yields P s (fail d s : Option ModelType × State).1
      (Resolution.fail d s : Option ModelType × State).2 where
  reaches := .notes h (fail_notes d s)
  holds hx := by cases hx
  lost _ := marked_of_fail (α := ModelType) d s
  recent hx := by cases hx

theorem none (h : S.Reaches s t) (hm : S.Marked t) : S.Yields P s none t :=
  ⟨h, nofun, fun _ => hm, nofun⟩

theorem found (h : S.Reaches s t) {type : ModelType} (hp : P t type)
    (hr : t.resolved = s.resolved) : S.Yields P s (some type) t :=
  ⟨h, fun hx => Option.some.inj hx ▸ hp, nofun, fun _ _ _ _ => by rw [hr]⟩

theorem composite (h : S.Reaches s t) {id : CompositeId} (hp : P t (.composite id)) :
    S.Yields P s (some (.composite id)) t :=
  ⟨h, fun hx => Option.some.inj hx ▸ hp, nofun, fun hx he => by cases hx; cases he⟩

theorem lift {x : Step (Option ModelType)} (h : S.Yields P s (x s).1 (x s).2) :
    Alike (Grows · last) (liftM x) (liftM x) s (S.Yields P s) :=
  .lift h.reaches.later.toGrows.trans h

theorem imp {type : Option ModelType} (h : S.Yields P s type t) (hp : ∀ x, P t x → P' t x) :
    S.Yields P' s type t :=
  ⟨h.reaches, fun hx => hp _ (h.holds hx), h.lost, h.recent⟩

theorem map {type : Option ModelType} (h : S.Yields P s type t) {f : ModelType → ModelType}
    (hf : ∀ x, (f x).endsInEnum = x.endsInEnum) (hp : ∀ x, P t x → P' t (f x)) :
    S.Yields P' s (type.map f) t where
  reaches := h.reaches
  holds hx := by
    obtain ⟨x, rfl, rfl⟩ := Option.map_eq_some_iff.mp hx
    exact hp x (h.holds rfl)
  lost hx := h.lost (Option.map_eq_none_iff.mp hx)
  recent hx he := by
    obtain ⟨x, rfl, rfl⟩ := Option.map_eq_some_iff.mp hx
    exact h.recent rfl (hf x ▸ he)

theorem after {type : Option ModelType} (h : S.Reaches s t) (hr : t.resolved = s.resolved)
    (hy : S.Yields P t type u) : S.Yields P s type u :=
  ⟨h.trans hy.reaches, hy.holds, hy.lost, fun hx he _ hk => by
    rw [← hr]
    exact hy.recent hx he (h.later.frames ▸ hk)⟩

end Yields

/-- A call stands in the document and starts within the invariant; it yields a type of its site.
Only calls matter whose outcome is still there in the state `last`. -/
def contract (S : Scene) (last : State) : Contract where
  guard t := Grows t last
  requires site s := S.Stands site.pointer site.schema ∧ S.Inv s
  ensures site s type t := S.Yields (fun t x => S.Typed t site x) s type t

theorem call (hr : (S.contract last).Joins r r') (site : Site)
    (hs : S.Stands site.pointer site.schema) (h : S.Reaches s t) :
    Alike (Grows · last) (r site) (r' site) t fun type u => S.Reaches s u ∧
      (∀ x, type = some x → S.Typed u site x) ∧ (type = none → S.Marked u) :=
  (hr site t ⟨hs, h.inv⟩).mono fun _ _ hy => ⟨h.trans hy.reaches, fun _ => hy.holds, hy.lost⟩

theorem resolveBase_keeps (hr : (S.contract last).Joins r r') (h : S.Inv s) {name : String}
    {parts : List BasePart} (hs : ∀ part ∈ parts, S.Stands part.pointer part.schema) :
    Alike (Grows · last) (resolveBase r name parts) (resolveBase r' name parts) s fun base t =>
      S.Reaches s t ∧ HasBase S.context t.catalog t.typeOf? (S.Marked t) name parts base := by
  cases parts with
  | nil => exact .pure ⟨.refl h, nofun, fun _ => rfl⟩
  | cons part others =>
    refine .bind ((call hr (part.site name) (hs part (by simp)) (.refl h)).mono
      fun type t ⟨ht, htyped, hlost⟩ => .lift_bind (baseOf_notes ..).grows.trans
        (.lift_bind (reportSecondBases_notes ..).grows.trans (.pure ?_)))
    set u := (baseOf name part type t).2
    set v := (reportSecondBases name others u).2
    have htu : Notes t u := baseOf_notes name part type t
    have huv : Notes u v := reportSecondBases_notes name others u
    refine ⟨ht.trans (.notes ht.inv (htu.trans huv)), fun id hid => ?_, fun hm => ?_⟩
    · rw [baseOf_fst] at hid
      obtain ⟨x, rfl, hx⟩ := Option.bind_eq_some_iff.mp hid
      cases x with
      | composite id' =>
        obtain rfl := Option.some.inj hx
        exact ⟨part, others, rfl, (htyped _ rfl).mono (htu.trans huv).grows⟩
      | _ => cases hx
    · have hothers : others = [] := by
        by_contra ho
        exact hm (.inr (reportSecondBases_defects ho))
      have hbase : (baseOf name part type t).1 ≠ none := fun hn => by
        cases type with
        | none => exact hm ((hlost rfl).mono (htu.trans huv).defects_kept)
        | some x =>
          exact hm (.inr (huv.defects_ne_nil (baseOf_defects hn (Option.some_ne_none x))))
      obtain ⟨base, hb⟩ := Option.ne_none_iff_exists'.mp hbase
      rw [hothers, hb]
      rfl

theorem resolveMember_keeps (hr : (S.contract last).Joins r r') (h : S.Reaches s t) {owner : String}
    {required : List String} {m : Member} (hs : S.Stands m.pointer m.schema) :
    Alike (Grows · last) (resolveMember S.context r owner required m)
      (resolveMember S.context r' owner required m) t fun p u => S.Reaches s u ∧
        (∀ x, p = some x → Becomes S.context u.catalog u.typeOf? owner required m x) ∧
        (p = none → S.Marked u) := by
  refine .bind ((call hr (m.site owner) hs h).mono fun type u ⟨hu, htyped, hlost⟩ => ?_)
  cases type with
  | none => exact .pure ⟨hu, fun _ hx => (nomatch hx), fun _ => hlost rfl⟩
  | some type =>
    refine .lift_bind
      (constraints_notes S.context.grammars m.schema.facets m.pointer owner u).grows.trans ?_
    cases hc : constraintsOf S.context.grammars m.schema.facets m.pointer with
    | error fault =>
      rw [constraints_error hc]
      exact .pure ⟨hu.trans (.notes hu.inv (fail_notes _ u)), fun _ hx => (nomatch hx),
        fun _ => marked_of_fail (α := Constraints) _ u⟩
    | ok constraints =>
      rw [constraints_ok hc]
      refine .pure ⟨hu, fun x hx => ?_, fun hx => nomatch hx⟩
      exact ⟨type, constraints, htyped _ rfl, hc, (Option.some.inj hx).symm⟩

theorem resolveMembers_keeps (hr : (S.contract last).Joins r r') (h : S.Inv s) {owner : String}
    {required : List String} {members : List Member}
    (hs : ∀ m ∈ members, S.Stands m.pointer m.schema) :
    Alike (Grows · last) (resolveMembers S.context r owner required members)
      (resolveMembers S.context r' owner required members) s fun properties t => S.Reaches s t ∧
        Gathers (Becomes S.context t.catalog t.typeOf? owner required) (S.Marked t) members
          properties := by
  refine Alike.foldlM (fun passed properties t => S.Reaches s t ∧
    Gathers (Becomes S.context t.catalog t.typeOf? owner required) (S.Marked t) passed properties)
    (fun before m after properties t hl ⟨ht, hg⟩ => ?_) ⟨.refl h, .nil⟩
  refine .bind ((resolveMember_keeps hr (.refl ht.inv) (hs m (by simp [hl]))).mono
    fun p u ⟨hu, hp, hlost⟩ => ?_)
  have hg := hg.mono (fun hb => hb.mono hu.later.catalog hu.later.resolved)
    (Marked.mono hu.later.defects)
  cases p with
  | none => exact .pure ⟨ht.trans hu, hg.lost (hlost rfl)⟩
  | some p =>
    refine .lift (addProperty_notes owner properties p u).grows.trans ?_
    have hb := hp p rfl
    cases hf : properties.find? (·.name == p.name) with
    | none =>
      rw [addProperty_new hf]
      refine ⟨ht.trans hu, hg.new (fun q hq => ?_) hb⟩
      simpa [hb.name_eq] using List.find?_eq_none.mp hf q hq
    | some old =>
      have hn := addProperty_notes owner properties p u
      have hw := hn.grows
      rw [addProperty_again hf] at hn hw ⊢
      refine ⟨(ht.trans hu).trans (.notes hu.inv hn), .again (hg.mono
        (fun hb => hb.mono hw.catalog hw.resolved) (Marked.mono hw.defects))
        ⟨old, List.mem_of_find?_eq_some hf, ?_⟩ (hb.mono hw.catalog hw.resolved)⟩
      rw [← hb.name_eq]
      simpa using List.find?_some hf

structure Opens (s t : State) (name : String) (pointer : Pointer) : Prop extends Grows s t where
  frames : t.frames = s.frames
  composites : t.catalog.composites = s.catalog.composites ++ [.stub name pointer.text]
  enums : s.catalog.enums <+: t.catalog.enums

def fillIn (id : CompositeId) (schema : Schema) (pointer : Pointer) (properties : List Property)
    (base : Option CompositeId) (value : String) (s : State) : State :=
  { s with
    catalog := s.catalog.modifyComposite id fun c => { c with
      description := schema.description
      properties
      base
      discriminator := schema.declaredDiscriminator pointer
      discriminatorValue := value
      progress := .propertiesResolved } }

theorem fillIn_grows (id : CompositeId) (schema : Schema) (pointer : Pointer)
    (properties : List Property) (base : Option CompositeId) (value : String) (s : State) :
    Grows s (fillIn id schema pointer properties base value s) :=
  ⟨.modifyComposite _ _ (fun _ => rfl) fun _ => rfl, fun h => h, fun h => h, fun _ h => h,
    List.prefix_refl _⟩

theorem composite?_fillIn {id other : CompositeId} {stub composite : Composite} {schema : Schema}
    {pointer : Pointer} {properties : List Property} {base : Option CompositeId} {value : String}
    (hid : s.catalog.composite? id = some stub)
    (h : (fillIn id schema pointer properties base value s).catalog.composite? other =
      some composite) :
    composite = { stub with
      description := schema.description
      properties
      base
      discriminator := schema.declaredDiscriminator pointer
      discriminatorValue := value
      progress := .propertiesResolved } ∨ s.catalog.composite? other = some composite := by
  rw [fillIn, Catalog.composite?_modifyComposite] at h
  split at h
  · rename_i heq
    rw [← heq, hid] at h
    cases h
    exact .inl rfl
  · exact .inr h

theorem Inv.fillIn (h : S.Inv s) {old added : List Composite} {name : String} {schema : Schema}
    {pointer : Pointer} {properties : List Property} {base : Option CompositeId}
    (hc : s.catalog.composites = old ++ .stub name pointer.text :: added)
    (hs : S.Stands pointer schema) (hshape : schema.isComposite = true)
    (hp : Gathers (Becomes S.context s.catalog s.typeOf? name (schema.declaredRequired pointer))
      (S.Marked s) (schema.declaredMembers pointer) properties)
    (hb : HasBase S.context s.catalog s.typeOf? (S.Marked s) name (schema.baseParts pointer)
      base) :
    S.Inv (fillIn ⟨old.length⟩ schema pointer properties base
      (declaredValue S.context.settings name schema) s) := by
  have hg := fillIn_grows ⟨old.length⟩ schema pointer properties base
    (declaredValue S.context.settings name schema) s
  refine h.grow hg (h.keyed.modifyComposite _ fun _ => rfl) ⟨h.enums.find, h.enums.closed⟩ .inl
    (fun {id composite} hid => ?_) .inl .inl
  rcases composite?_fillIn (Catalog.composite?_of_composites hc) hid with rfl | hid
  · exact .inr ⟨schema, pointer, hs, hshape, rfl, rfl, .inr ⟨rfl,
      { description := rfl, discriminator := rfl, value := rfl
        properties := hp.mono (fun hm => hm.mono hg.catalog hg.resolved) (Marked.mono hg.defects)
        base := hb.mono hg.catalog hg.resolved (Marked.mono hg.defects) }⟩⟩
  · exact .inl hid

/-- A stub that has been opened is closed with what its schema declares. -/
theorem Opens.filled {name : String} {schema : Schema} {pointer : Pointer}
    (ho : Opens s t name pointer) (hu : S.Reaches (push .composite t).2 u)
    (hs : S.Stands pointer schema)
    (hshape : schema.isComposite = true) {properties : List Property} {base : Option CompositeId}
    (hp : Gathers (Becomes S.context u.catalog u.typeOf? name (schema.declaredRequired pointer))
      (S.Marked u) (schema.declaredMembers pointer) properties)
    (hb : HasBase S.context u.catalog u.typeOf? (S.Marked u) name (schema.baseParts pointer)
      base) :
    let v := fillIn ⟨s.catalog.composites.length⟩ schema pointer properties base
      (declaredValue S.context.settings name schema) u
    S.Reaches s (pop v).2 ∧ Grows u v ∧ Grows t (pop v).2 := by
  intro v
  obtain ⟨added, hadded, hfilled⟩ := hu.later.composites
  have hcomposites : u.catalog.composites =
      s.catalog.composites ++ .stub name pointer.text :: added := by
    rw [hadded]
    show t.catalog.composites ++ added = _
    rw [ho.composites, List.append_assoc]
    rfl
  have hg : Grows u v := fillIn_grows ..
  have hpop := (push_grows .composite t).trans
    ((hu.later.toGrows.trans hg).trans (pop_grows v))
  refine ⟨⟨(hu.inv.fillIn hcomposites hs hshape hp hb).pop, ho.toGrows.trans hpop, ?_, ⟨_,
    Catalog.composites_modifyComposite hcomposites _, ?_⟩, ho.enums.trans hu.later.enums⟩, hg, hpop⟩
  · exact (congrArg List.tail hu.later.frames).trans ho.frames
  · intro composite hc
    rcases List.mem_cons.mp hc with rfl | hc
    · rfl
    · exact hfilled composite hc

theorem populate_keeps (hr : (S.contract last).Joins r r') (h : S.Inv t) {name : String}
    {schema : Schema} {pointer : Pointer} (ho : Opens s t name pointer)
    (hs : S.Stands pointer schema) (hshape : schema.isComposite = true) :
    Alike (Grows · last) (populate S.context r ⟨s.catalog.composites.length⟩ schema pointer)
      (populate S.context r' ⟨s.catalog.composites.length⟩ schema pointer) t
      fun _ u => S.Reaches s u ∧ Grows t u := by
  let inside : State := (push .composite t).2
  have hname : inside.catalog.nameOf ⟨s.catalog.composites.length⟩ = name := by
    show t.catalog.nameOf _ = _
    simp only [Catalog.nameOf, Catalog.composite?_of_composites ho.composites]
    rfl
  refine .lift_bind (push_grows _ t).trans (.get_bind ?_)
  rw [hname]
  refine .bind ((resolveBase_keeps hr (h.push _) fun _ hp => hs.base hp).mono
    fun base v hv => .bind ?_)
  obtain ⟨hv, hbase⟩ := hv
  refine (resolveMembers_keeps hr hv.inv fun _ hm => hs.member hm).mono
    fun properties w hw => .lift_bind (warnUndeclared_notes ..).grows.trans
      (.lift_bind (discriminatorValue_notes ..).grows.trans ?_)
  obtain ⟨hw, hgathers⟩ := hw
  set x := (discriminatorValue S.context.settings name schema (warnUndeclared name
    (schema.declaredMembers pointer) (schema.declaredRequired pointer) w).2).2
  have hn : Notes w x := (warnUndeclared_notes ..).trans (discriminatorValue_notes ..)
  have hx : S.Reaches inside x := (hv.trans hw).trans (.notes hw.inv hn)
  have hvx := hw.later.toGrows.trans hn.grows
  obtain ⟨hreach, hg, hpop⟩ := ho.filled hx hs hshape
    (hgathers.mono (fun hb => hb.mono hn.grows.catalog hn.grows.resolved)
      (Marked.mono hn.defects_kept))
    (hbase.mono hvx.catalog hvx.resolved (Marked.mono hvx.defects))
  rw [discriminatorValue_fst]
  exact .modify_bind hg.trans (.lift (pop_grows _).trans ⟨hreach, hpop⟩)

theorem Inv.withStub (h : S.Inv s) {name : String} {schema : Schema} {pointer : Pointer}
    (hf : s.catalog.findComposite? name = none) (hs : S.Stands pointer schema)
    (hshape : schema.isComposite = true) :
    S.Inv (s.withStub name pointer) ∧ Opens s (s.withStub name pointer) name pointer := by
  have hg := withStub_grows name pointer s
  refine ⟨h.grow hg (h.keyed.addComposite hf rfl) ⟨h.enums.find, h.enums.closed⟩ .inl
    (fun {id composite} hid => ?_) .inl .inl, hg, rfl, rfl, List.prefix_refl _⟩
  rcases composite?_withStub hid with ⟨-, rfl⟩ | hid
  · exact .inr ⟨schema, pointer, hs, hshape, rfl, rfl, .inl rfl⟩
  · exact .inl hid

theorem Opens.typed (site : Site) (ho : Opens s t site.name site.pointer)
    (hshape : site.schema.isComposite = true) :
    S.Typed t site (.composite ⟨s.catalog.composites.length⟩) :=
  .composite hshape (Catalog.composite?_of_composites ho.composites) rfl rfl

theorem Inv.typed_of_origin (h : S.Inv s) (site : Site) {id : CompositeId}
    (hshape : site.schema.isComposite = true) (hf : s.catalog.findComposite? site.name = some id)
    (ho : (s.catalog.composite? id).elim "" (·.origin) = site.pointer.text) :
    S.Typed s site (.composite id) := by
  obtain ⟨composite, hc, hn⟩ := (h.keyed site.name id).mp hf
  rw [hc] at ho
  exact .composite hshape hc hn ho

theorem buildInline_keeps (hr : (S.contract last).Joins r r') (h : S.Inv s) {site : Site}
    (hs : S.Stands site.pointer site.schema) (hshape : site.schema.isComposite = true) :
    Alike (Grows · last) (buildInline S.context r site) (buildInline S.context r' site) s
      fun type t => S.Yields (fun t x => S.Typed t site x) s type t ∧
        Grows (registerComposite site.name site.pointer s).2 t := by
  refine .lift_bind (registerComposite_grows site.name site.pointer s).trans ?_
  obtain ⟨hf, hreg⟩ | ⟨id, hf, ho, hreg⟩ | ⟨d, hreg⟩ :=
    registerComposite_cases site.name site.pointer s
  · rw [hreg]
    obtain ⟨hi, ho⟩ := h.withStub hf hs hshape
    exact .bind ((populate_keeps hr hi ho hs hshape).mono fun _ t ⟨ht, hg⟩ =>
      .pure ⟨.composite ht ((ho.typed site hshape).mono hg), hg⟩)
  · rw [hreg]
    exact .pure ⟨.composite (.refl h) (h.typed_of_origin site hshape hf ho), .refl s⟩
  · rw [hreg]
    exact .pure ⟨.fail h d, .refl _⟩

theorem get?_of_find? {definitions : List (String × Schema)} {key canonical : String}
    {schema : Schema} (h : definitions.find? (fun p => caseKey p.1 == key) =
      some (canonical, schema)) : Fields.get? definitions canonical = some schema := by
  induction definitions with
  | nil => cases h
  | cons p rest ih =>
    rw [List.find?_cons] at h
    split at h
    · cases h
      rw [Fields.get?_cons, if_pos rfl]
    · rw [Fields.get?_cons, if_neg, ih h]
      rintro rfl
      have := List.find?_some h
      simp_all

theorem definition?_of_get? {document : Document} {name : String} {schema : Schema}
    (h : Fields.get? document.definitions name = some schema) :
    document.definition? name = some (name, schema) := by
  simp [Document.definition?, h]

theorem get?_of_definition? {document : Document} {name canonical : String} {schema : Schema}
    (h : document.definition? name = some (canonical, schema)) :
    Fields.get? document.definitions canonical = some schema := by
  unfold Document.definition? at h
  cases hg : Fields.get? document.definitions name with
  | some found =>
    rw [hg] at h
    cases h
    exact hg
  | none =>
    rw [hg] at h
    exact get?_of_find? h

theorem caseKey_of_definition? {document : Document} {name canonical : String} {schema : Schema}
    (h : document.definition? name = some (canonical, schema)) :
    caseKey canonical = caseKey name := by
  unfold Document.definition? at h
  cases hg : Fields.get? document.definitions name with
  | some found =>
    rw [hg] at h
    cases h
    rfl
  | none =>
    rw [hg] at h
    simpa using List.find?_some h

/-- A definition is remembered with a type, the same as before if there was one. -/
theorem Inv.remember (h : S.Inv s) {name : String} {schema : Schema} {type : ModelType}
    (hc : Fields.get? s.claimed (caseKey name) = some name)
    (hd : Fields.get? S.context.document.definitions name = some schema)
    (ht : S.Typed s (definitionSite name schema) type)
    (ho : ∀ {old}, s.typeOf? name = some old → old = type) :
    S.Inv (remember (caseKey name) type s).2 ∧ Extends s (remember (caseKey name) type s).2 := by
  have hg : Grows s (Resolution.remember (caseKey name) type s).2 := by
    refine ⟨.refl _, fun {key old} hold => ?_, fun h => h, fun _ h => h, List.prefix_refl _⟩
    show Fields.get? (Fields.set s.resolved (caseKey name) type) key = some old
    rw [Fields.get?_set]
    split
    · rename_i hk
      subst hk
      rw [ho hold]
    · exact hold
  refine ⟨h.grow hg h.keyed h.enums (fun {key old} hold => ?_) .inl .inl .inl,
    .of_composites_eq hg rfl rfl (List.prefix_refl _)⟩
  rcases get?_remember hold with ⟨rfl, rfl⟩ | hold
  · exact .inr ⟨name, schema, hc, rfl, hd, ht.mono hg, h.within ht⟩
  · exact .inl hold

theorem Reaches.markFailed (h : S.Reaches s t) (key : String) (hm : S.Marked t) :
    S.Reaches s (markFailed key t).2 := by
  have hg := markFailed_grows key t
  exact h.trans ⟨h.inv.carry hg rfl rfl fun _ => .inr hm,
    .of_composites_eq hg rfl rfl (List.prefix_refl _)⟩

theorem Reaches.claim (h : S.Inv s) {name : String}
    (hc : Fields.get? s.claimed (caseKey name) = none) :
    S.Reaches s (claim (caseKey name) name s).2 :=
  ⟨h.carry (claim_grows hc) rfl rfl .inl,
    .of_composites_eq (claim_grows hc) rfl rfl (List.prefix_refl _)⟩

theorem Inv.rememberStub (h : S.Inv s) {name : String} {schema : Schema}
    (hc : Fields.get? s.claimed (caseKey name) = some name)
    (hd : Fields.get? S.context.document.definitions name = some schema)
    (hshape : schema.isComposite = true) (hn : s.typeOf? name = none)
    (hf : s.catalog.findComposite? name = none) :
    let t := s.withStub name (Pointer.definition name)
    let u := (Resolution.remember (caseKey name) (.composite ⟨s.catalog.composites.length⟩) t).2
    S.Inv u ∧ Opens s u name (Pointer.definition name) ∧ Grows t u := by
  obtain ⟨hi, ho⟩ := h.withStub hf (.definition hd) hshape
  obtain ⟨hi', he⟩ := hi.remember hc hd (ho.typed (S := S) (definitionSite name schema) hshape)
    fun hold => nomatch hn.symm.trans hold
  exact ⟨hi', ⟨ho.toGrows.trans he.toGrows, rfl, ho.composites, ho.enums⟩, he.toGrows⟩

def Remembered (name : String) (t : State) (x : ModelType) : Prop := t.typeOf? name = some x

theorem buildDefined_keeps (hr : (S.contract last).Joins r r') (h : S.Inv s) {name : String}
    {schema : Schema} (hc : Fields.get? s.claimed (caseKey name) = some name)
    (hd : Fields.get? S.context.document.definitions name = some schema)
    (hshape : schema.isComposite = true) (hn : s.typeOf? name = none) :
    Alike (Grows · last) (buildDefined S.context r name schema)
      (buildDefined S.context r' name schema) s fun type t =>
        S.Yields (Remembered name) s type t ∧
          Grows (registerComposite name (Pointer.definition name) s).2 t := by
  have hs : S.Stands (Pointer.definition name) schema := .definition hd
  refine .lift_bind (registerComposite_grows name (Pointer.definition name) s).trans ?_
  obtain ⟨hf, hreg⟩ | ⟨id, hf, ho, hreg⟩ | ⟨d, hreg⟩ :=
    registerComposite_cases name (Pointer.definition name) s
  · rw [hreg]
    obtain ⟨hi, ho, hgrows⟩ := h.rememberStub hc hd hshape hn hf
    refine .lift_bind hgrows.trans (.bind ((populate_keeps hr hi ho hs hshape).mono
      fun _ t ⟨ht, hg⟩ => .pure ⟨.composite ht (hg.typeOf? ?_), hgrows.trans hg⟩))
    exact (Fields.get?_set ..).trans (if_pos rfl)
  · rw [hreg]
    have htyped := h.typed_of_origin (definitionSite name schema) hshape hf ho
    obtain ⟨hi', he⟩ := h.remember hc hd htyped fun hold => nomatch hn.symm.trans hold
    exact .lift_bind he.toGrows.trans
      (.pure ⟨.composite ⟨hi', he⟩ ((Fields.get?_set ..).trans (if_pos rfl)), he.toGrows⟩)
  · rw [hreg]
    have hm := marked_of_fail (S := S) (α := Interned CompositeId) d s
    exact .lift_bind (markFailed_grows ..).trans
      (.pure ⟨.none ((Reaches.notes h (fail_notes d s)).markFailed _ hm) hm,
        markFailed_grows ..⟩)

theorem Reaches.pop {f : Frame} (h : S.Reaches (push f s).2 t) : S.Reaches s (pop t).2 := by
  obtain ⟨hi, he⟩ := h
  exact ⟨hi.pop, ⟨he.catalog, he.resolved, he.claimed, he.failed, he.defects⟩,
    congrArg List.tail he.frames, he.composites, he.enums⟩

/-- The type of a definition that is no object type is remembered. If one has been remembered
meanwhile it is the same: only types that end in an enum could differ, and those are not remembered
while the definition is open and no object type has been opened since. -/
theorem remember_yields {name : String} {schema : Schema} {type : ModelType}
    (hround : comesRound s.frames (caseKey name) = false)
    (hc : Fields.get? s.claimed (caseKey name) = some name)
    (hd : Fields.get? S.context.document.definitions name = some schema)
    (hn : s.typeOf? name = none)
    (hy : S.Yields (fun t x => S.Typed t (definitionSite name schema) x)
      (push (.definition (caseKey name)) s).2 (some type) t) :
    Extends (pop t).2 (remember (caseKey name) type (pop t).2).2 ∧
      S.Yields (Remembered name) s (some type) (remember (caseKey name) type (pop t).2).2 := by
  have hst : S.Reaches s (pop t).2 := hy.reaches.pop
  have htyped : S.Typed (pop t).2 (definitionSite name schema) type := hy.holds rfl
  have hsame : ∀ key, Frame.definition key ∈ recent (.definition (caseKey name) :: s.frames) →
      type.endsInEnum = true →
      Fields.get? (pop t).2.resolved key = Fields.get? s.resolved key := fun _ hk he =>
    hy.recent rfl he hk
  obtain ⟨hi, he⟩ := hst.inv.remember (hst.later.claimed hc) hd htyped fun {old} hold => by
    rcases hst.inv.memo_agree (hst.later.claimed hc) hd htyped hold with heq | ⟨-, he⟩
    · exact heq
    · have := hsame (caseKey name) (by simp [recent]) he
      exact absurd (hold.symm.trans (this.trans hn)) (Option.some_ne_none old)
  refine ⟨he, hst.trans ⟨hi, he⟩, fun hx => ?_, fun hx => absurd hx (Option.some_ne_none type),
    fun hx he key hk => ?_⟩
  · exact ((Fields.get?_set ..).trans (if_pos rfl)).trans hx
  · obtain rfl := Option.some.inj hx
    have hne : caseKey name ≠ key := by
      rintro rfl
      exact not_mem_recent hround hk
    refine ((Fields.get?_set ..).trans (if_neg hne)).trans (hsame key ?_ he)
    simp only [recent, List.takeWhile_cons]
    exact List.mem_cons_of_mem _ hk

theorem buildAliased_keeps (hr : (S.contract last).Joins r r') (h : S.Inv s) {name : String}
    {schema : Schema} (hc : Fields.get? s.claimed (caseKey name) = some name)
    (hd : Fields.get? S.context.document.definitions name = some schema)
    (hn : s.typeOf? name = none) :
    Alike (Grows · last) (buildAliased r name schema) (buildAliased r' name schema) s
      (S.Yields (Remembered name) s) := by
  refine .get_bind ?_
  cases hround : comesRound s.frames (caseKey name) with
  | true =>
    let d := Defect.schema name (.selfReference name)
    have hm := marked_of_fail (S := S) (α := ModelType) d s
    have ht : S.Reaches s (fail d (markFailed (caseKey name) s).2 : Option ModelType × State).2 :=
      (Reaches.notes h (fail_notes (α := ModelType) d s)).markFailed (caseKey name) hm
    exact .lift_bind (markFailed_grows (caseKey name) s).trans
      (.lift (fail_notes (α := ModelType) d _).grows.trans (.none ht hm))
  | false =>
    have hs : S.Stands (Pointer.definition name) schema := .definition hd
    refine .lift_bind (push_grows _ s).trans (.bind
      ((hr (definitionSite name schema) _ ⟨hs, h.push _⟩).mono fun type t hy =>
        .lift_bind (pop_grows t).trans ?_))
    cases type with
    | none =>
      exact .lift_bind (markFailed_grows ..).trans
        (.pure (.none (hy.reaches.pop.markFailed _ (hy.lost rfl)) (hy.lost rfl)))
    | some type =>
      obtain ⟨he, hyields⟩ := remember_yields hround hc hd hn hy
      exact .lift_bind he.toGrows.trans (.pure hyields)

theorem resolveClaimed_keeps (hr : (S.contract last).Joins r r') (h : S.Inv s) {name : String}
    {schema : Schema} (hc : Fields.get? s.claimed (caseKey name) = some name)
    (hd : Fields.get? S.context.document.definitions name = some schema) :
    Alike (Grows · last) (resolveClaimed S.context r name schema)
      (resolveClaimed S.context r' name schema) s (S.Yields (Remembered name) s) := by
  refine .get_bind ?_
  dsimp only
  cases hg : Fields.get? s.resolved (caseKey name) with
  | some type => exact .pure (.found (.refl h) hg rfl)
  | none =>
    dsimp only
    split_ifs with hfailed hshape
    · refine .pure (.none (.refl h) (h.noted (.inl fun he => ?_)))
      simp [he] at hfailed
    · exact (buildDefined_keeps hr h hc hd hshape hg).mono fun _ _ hy => hy.1
    · exact buildAliased_keeps hr h hc hd hg

/-- A definition that is found yields the type that is remembered for it from then on. -/
theorem resolveDefinition_keeps (hr : (S.contract last).Joins r r') (h : S.Inv s) (name : String)
    (pointer : Pointer) (owner : String) :
    Alike (Grows · last) (resolveDefinition S.context r name pointer owner)
      (resolveDefinition S.context r' name pointer owner) s
      (S.Yields (fun t x => ∃ canonical schema,
        S.context.document.definition? name = some (canonical, schema) ∧
          t.typeOf? canonical = some x ∧
          Fields.get? t.claimed (caseKey canonical) = some canonical) s) := by
  unfold resolveDefinition
  cases hd : S.context.document.definition? name with
  | none =>
    dsimp only
    split_ifs with hm
    · refine .pure (.none (.refl h) (h.noted (.inr fun he => ?_)))
      simp [Document.isMalformed, he] at hm
    · exact (Yields.fail h _).lift
  | some found =>
    obtain ⟨canonical, schema⟩ := found
    have hget := get?_of_definition? hd
    have hclaimed : ∀ {t}, S.Reaches s t → t.resolved = s.resolved →
        Fields.get? t.claimed (caseKey canonical) = some canonical →
        Alike (Grows · last) (resolveClaimed S.context r canonical schema)
          (resolveClaimed S.context r' canonical schema) t
          (S.Yields (fun t x => ∃ canonical' schema', some (canonical, schema) =
            some (canonical', schema') ∧ t.typeOf? canonical' = some x ∧
            Fields.get? t.claimed (caseKey canonical') = some canonical') s) :=
      fun ht hres hc => (resolveClaimed_keeps hr ht.inv hc hget).mono fun _ _ hy =>
        .after ht hres (hy.imp fun _ hx =>
          ⟨canonical, schema, rfl, hx, hy.reaches.later.claimed hc⟩)
    refine .lift_bind (claimKey_grows canonical s).trans ?_
    obtain ⟨hc, hk⟩ | ⟨hc, hk⟩ | ⟨d, hk⟩ := claimKey_cases canonical s
    · rw [hk]
      exact hclaimed (.claim h hc) rfl ((Fields.get?_set ..).trans (if_pos rfl))
    · rw [hk]
      exact hclaimed (.refl h) rfl hc
    · rw [hk]
      exact .pure (.fail h d)

theorem resolveReference_keeps (hr : (S.contract last).Joins r r') (h : S.Inv s) {site : Site}
    {text : String} (ht : site.schema.reference = some text) :
    Alike (Grows · last) (resolveReference S.context r text site)
      (resolveReference S.context r' text site) s (S.Yields (fun t x => S.Typed t site x) s) := by
  unfold resolveReference
  split
  · rename_i name hp
    refine (resolveDefinition_keeps hr h name site.pointer site.owner).mono fun _ t hy =>
      hy.imp fun x ⟨canonical, schema, hd, hx, _⟩ => ?_
    exact .reference ht hp hd hx
  · exact (Yields.fail h _).lift

theorem listed_addEnum {c : Catalog} {schema : Schema} {pointer : Pointer} {e : EnumType}
    (he : S.Lists schema pointer e) {id : EnumId} {x : EnumType}
    (h : (c.addEnum e).enum? id = some x) :
    c.enum? id = some x ∨ ∃ schema pointer, S.Lists schema pointer x := by
  rw [Catalog.enum?_addEnum] at h
  split at h
  · cases h
    exact .inr ⟨schema, pointer, he⟩
  · exact .inl h

theorem buildEnum_keeps (h : S.Inv s) {site : Site} {listed : List Json}
    (hs : S.Stands site.pointer site.schema)
    (hr : site.schema.reference = none) (hl : site.schema.stringEnum? = some listed) :
    S.Yields (fun t x => S.Typed t site x) s (buildEnum S.context.settings site listed s).1
      (buildEnum S.context.settings site listed s).2 := by
  obtain ⟨d, hb⟩ | ⟨values, hv, ⟨hx, hb⟩ | ⟨extension, hx, ⟨hf, hb⟩ | ⟨id, hf, hold, hb⟩⟩⟩ :=
    buildEnum_cases S.context.settings site listed s
  · rw [hb]
    exact .fail h d
  all_goals have hw := wires_of_valuesFrom hv
  · rw [hb]
    have hg : Grows s (s.withEnum ⟨none, values, true, site.pointer.text⟩) :=
      ⟨.addEnum .., fun h => h, fun h => h, fun _ h => h, List.prefix_refl _⟩
    have hlists : S.Lists site.schema site.pointer ⟨none, values, true, site.pointer.text⟩ :=
      ⟨hs, hr, ⟨listed, hl, hv⟩, by rw [hx]; rfl, rfl⟩
    have hi := h.grow hg h.keyed (h.enums.addEnum rfl rfl) .inl .inl (listed_addEnum hlists) .inl
    refine .found ⟨hi, .of_composites_eq hg rfl rfl (List.prefix_append ..)⟩ ?_ rfl
    exact .enum hr hl (Catalog.enum?_addEnum_self ..) hw (hx ▸ ⟨rfl, rfl⟩)
  · rw [hb]
    have hg : Grows s (s.withNamedEnum (Enumeration.nameOf extension)
        ⟨some (Enumeration.nameOf extension), values, false, site.pointer.text⟩) :=
      ⟨.addNamedEnum .., fun h => h, fun h => h, fun _ h => h, List.prefix_refl _⟩
    have hlists : S.Lists site.schema site.pointer
        ⟨some (Enumeration.nameOf extension), values, false, site.pointer.text⟩ :=
      ⟨hs, hr, ⟨listed, hl, hv⟩, by rw [hx]; rfl, rfl⟩
    have hi := h.grow hg h.keyed (h.enums.addNamedEnum hf rfl rfl) .inl .inl
      (listed_addEnum hlists) .inl
    refine .found ⟨hi, .of_composites_eq hg rfl rfl (List.prefix_append ..)⟩ ?_ rfl
    exact .enum hr hl (Catalog.enum?_addEnum_self ..) hw (hx ▸ ⟨rfl, _, rfl, rfl⟩)
  · rw [hb]
    obtain ⟨e, given, he, hn, hk⟩ := (h.enums.find _ id).mp hf
    refine .found (.refl h) (.enum hr hl he (hold e he ▸ hw) (hx ▸ ⟨?_, given, hn, hk⟩)) rfl
    rw [h.enums.closed he, hn]
    rfl

theorem buildSequence_keeps (hr : (S.contract last).Joins r r') (h : S.Inv s) {site : Site}
    (hs : S.Stands site.pointer site.schema) (hp : site.schema.IsPlain)
    (ha : site.schema.isArray = true) :
    Alike (Grows · last) (buildSequence r site) (buildSequence r' site) s
      (S.Yields (fun t x => S.Typed t site x) s) := by
  unfold buildSequence
  cases hi : site.schema.items with
  | none => exact (Yields.fail h _).lift
  | some items =>
    exact .bind ((hr (site.inside items "Item" "items") s ⟨hs.items hi, h⟩).mono fun _ _ hy =>
      .pure (hy.map (fun _ => rfl) fun _ ht => .sequence hp ha hi ht))

theorem buildDictionary_keeps (hr : (S.contract last).Joins r r') (h : S.Inv s) {site : Site}
    (hs : S.Stands site.pointer site.schema) (hp : site.schema.IsPlain)
    (ha : site.schema.isArray = false) {value : Option Schema}
    (hd : site.schema.dictionary? = some value) :
    Alike (Grows · last) (buildDictionary r site value) (buildDictionary r' site value) s
      (S.Yields (fun t x => S.Typed t site x) s) := by
  cases value with
  | none => exact .pure (.found (.refl h) (.anything hp ha hd) rfl)
  | some value =>
    exact .bind ((hr (site.inside value "Value" "additionalProperties") s
      ⟨hs.value hd, h⟩).mono fun _ _ hy =>
        .pure (hy.map (fun _ => rfl) fun _ ht => .dictionary hp ha hd ht))

theorem buildScalar_keeps (h : S.Inv s) {site : Site} (hr : site.schema.route = .scalar) :
    S.Yields (fun t x => S.Typed t site x) s (buildScalar S.context.settings site s).1
      (buildScalar S.context.settings site s).2 := by
  obtain ⟨hp, ha, hm, ho⟩ := Schema.scalar_of_route hr
  have hn := buildScalar_notes S.context.settings site s
  have hfst := buildScalar_fst S.context.settings site s
  cases hk : scalarOf? S.context.settings site.schema with
  | none =>
    have hnone : (buildScalar S.context.settings site s).1 = none := by rw [hfst, hk]; rfl
    rw [hnone]
    exact .none (.notes h hn) (.inr (buildScalar_defects hnone))
  | some kind =>
    rw [hfst, hk]
    exact .found (.notes h hn) (.scalar hp ha hm ho hk) hn.resolved_eq

theorem resolveStep_keeps (hr : (S.contract last).Joins r r') :
    (S.contract last).Joins (resolveStep S.context r) (resolveStep S.context r') := by
  rintro site s ⟨hs, h⟩
  unfold resolveStep
  cases hroute : site.schema.route with
  | reference text => exact resolveReference_keeps hr h (Schema.reference_of_route hroute)
  | enumeration listed =>
    obtain ⟨hr, hl⟩ := Schema.enumeration_of_route hroute
    exact (buildEnum_keeps h hs hr hl).lift
  | malformed value => exact (Yields.fail h _).lift
  | array clash =>
    obtain ⟨hp, ha, -⟩ := Schema.array_of_route hroute
    cases clash with
    | false => exact buildSequence_keeps hr h hs hp ha
    | true =>
      have hn := Notes.report (.schema site.owner (.arrayWithAdditional site.pointer)) s
      exact .lift_bind hn.grows.trans ((buildSequence_keeps hr (h.notes hn) hs hp ha).mono
        fun _ _ hy => .after (.notes h hn) hn.resolved_eq hy)
  | dictionary value =>
    obtain ⟨hp, ha, hd⟩ := Schema.dictionary_of_route hroute
    exact buildDictionary_keeps hr h hs hp ha hd
  | composite =>
    exact (buildInline_keeps hr h hs (Schema.route_eq_composite_iff.mp hroute)).mono
      fun _ _ hy => hy.1
  | scalar => exact (buildScalar_keeps h hroute).lift

/-- Resolution keeps the invariant and yields types. -/
theorem resolveSite_keeps (S : Scene) (last : State) :
    (S.contract last).Joins (resolveSite S.context) (resolveSite S.context) :=
  Contract.of_step (fun site => liftM (fail (.schema site.owner .dependsOnFailure) : Step _))
    (fun _ _ h => (Yields.fail h.2 _).lift) fun _ _ => resolveStep_keeps

end Scene

end ApiModel.Resolution
