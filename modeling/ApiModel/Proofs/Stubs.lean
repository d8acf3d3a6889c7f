import ApiModel.Proofs.Identity

/-! # Stubs and frames

A composite is a stub while it is being filled in, and only then: the stubs of a state are those
composites, one for each composite frame. Whatever is resolved leaves the frames and all earlier
composites as they were, and whatever it registers is filled in when it ends.
-/

namespace ApiModel

open Text (caseKey)

def Catalog.IsStub (c : Catalog) (id : CompositeId) : Prop :=
  ∃ composite, c.composite? id = some composite ∧ composite.progress = .stub

namespace Resolution

variable {α : Type} {context : Context} {requests : List Request} {site site' : Site}
  {s t u : State} {ids : List CompositeId}

/-- A piece of a resolution. -/
inductive Task where
  | site (site : Site)
  /-- A definition, referred to at a pointer. -/
  | definition (name : String) (pointer : Pointer) (owner : String)
  /-- The bases and members of a new composite. -/
  | filling (id : CompositeId) (schema : Schema) (pointer : Pointer)

/-- While requests are served a task begins in a state, inside of the composites of a list, the
innermost of which comes first. -/
inductive Begins (context : Context) (requests : List Request) :
    Task → State → List CompositeId → Prop where
  | requested {before after : List Request} {name : String} {s : State}
      (hq : requests = before ++ .definition name :: after)
      (hs : serveAll context before {} = some ((), s)) :
      Begins context requests (.definition name (Pointer.definition name) name) s []
  | schema {before after : List Request} {schema : Schema} {name : String} {s : State}
      (hq : requests = before ++ .schema schema name :: after)
      (hs : serveAll context before {} = some ((), s)) :
      Begins context requests (.site ⟨schema, name, ⟨[name]⟩, name⟩) s []
  | operation {before after : List Request} {o : Operation} {site : Site} {s t : State}
      (hq : requests = before ++ .operation o :: after)
      (hs : serveAll context before {} = some ((), s))
      (hc : Calls context (fun r => buildMethod context r o) s site t) :
      Begins context requests (.site site) t []
  | inside {site site' : Site} {s t : State} {ids : List CompositeId}
      (h : Begins context requests (.site site) s ids) (hr : site.schema.reference = none)
      (hs : site.schema.isComposite = false)
      (hc : Calls context (fun r => resolveStep context r site) s site' t) :
      Begins context requests (.site site') t ids
  | reference {site : Site} {text name : String} {s : State} {ids : List CompositeId}
      (h : Begins context requests (.site site) s ids) (hr : site.schema.reference = some text)
      (hp : Reference.parse? text = some ⟨.definitions, name⟩) :
      Begins context requests (.definition name site.pointer site.owner) s ids
  | aliased {name owner canonical : String} {pointer : Pointer} {schema : Schema} {s t : State}
      {ids : List CompositeId} (h : Begins context requests (.definition name pointer owner) s ids)
      (hd : context.document.definition? name = some (canonical, schema))
      (hk : claimKey canonical s = (true, t)) (hn : t.typeOf? canonical = none)
      (hf : caseKey canonical ∉ t.failed) (hs : schema.isComposite = false)
      (hc : comesRound t.frames (caseKey canonical) = false) :
      Begins context requests (.site (definitionSite canonical schema))
        (push (.definition (caseKey canonical)) t).2 ids
  | inline {site : Site} {s t : State} {id : CompositeId} {ids : List CompositeId}
      (h : Begins context requests (.site site) s ids) (hs : site.schema.isComposite = true)
      (hreg : registerComposite site.name site.pointer s = (some ⟨id, true⟩, t)) :
      Begins context requests (.filling id site.schema site.pointer) t (id :: ids)
  | defined {name owner canonical : String} {pointer : Pointer} {schema : Schema} {s t u : State}
      {id : CompositeId} {ids : List CompositeId}
      (h : Begins context requests (.definition name pointer owner) s ids)
      (hd : context.document.definition? name = some (canonical, schema))
      (hk : claimKey canonical s = (true, t)) (hn : t.typeOf? canonical = none)
      (hf : caseKey canonical ∉ t.failed) (hs : schema.isComposite = true)
      (hreg : registerComposite canonical (Pointer.definition canonical) t =
        (some ⟨id, true⟩, u)) :
      Begins context requests (.filling id schema (Pointer.definition canonical))
        (remember (caseKey canonical) (.composite id) u).2 (id :: ids)
  | member {id : CompositeId} {schema : Schema} {pointer : Pointer} {site : Site} {s t : State}
      {ids : List CompositeId} (h : Begins context requests (.filling id schema pointer) s ids)
      (hc : Calls context (fun r => populate context r id schema pointer) s site t) :
      Begins context requests (.site site) t ids

theorem Calls.of_lift_bind {β : Type} {x : Step β} {f : Resolver → β → Run α}
    (h : Calls context (fun r => liftM x >>= f r) s site t) :
    Calls context (fun r => f r (x s).1) (x s).2 site t := h

theorem Calls.of_get_bind {f : Resolver → State → Run α}
    (h : Calls context (fun r => get >>= f r) s site t) :
    Calls context (fun r => f r s) s site t := h

theorem not_calls_lift {x : Step α} : ¬ Calls context (fun _ => liftM x) s site t :=
  fun h => nomatch calls_iff.mp h

theorem not_calls_pure {a : α} : ¬ Calls context (fun _ => (pure a : Run α)) s site t :=
  fun h => nomatch calls_iff.mp h

namespace Begins

theorem ofDefined {name owner canonical : String} {pointer : Pointer} {schema : Schema}
    (h : Begins context requests (.definition name pointer owner) s ids)
    (hd : context.document.definition? name = some (canonical, schema))
    (hk : claimKey canonical s = (true, t)) (hn : t.typeOf? canonical = none)
    (hf : caseKey canonical ∉ t.failed) (hs : schema.isComposite = true)
    (hc : Calls context (fun r => buildDefined context r canonical schema) t site u) :
    ∃ ids, Begins context requests (.site site) u ids := by
  unfold buildDefined at hc
  have hc := hc.of_lift_bind
  rcases hreg : registerComposite canonical (Pointer.definition canonical) t with ⟨interned, v⟩
  rw [hreg] at hc
  cases interned with
  | none => exact (not_calls_pure hc.of_lift_bind).elim
  | some interned =>
    obtain ⟨id, created⟩ := interned
    have hc := hc.of_lift_bind
    cases created with
    | false => cases calls_iff.mp hc
    | true =>
      obtain hc | ⟨_, w, _, hc⟩ := hc.of_bind (.of_composed (.populate context _ _ _))
      · exact ⟨_, (h.defined hd hk hn hf hs hreg).member hc⟩
      · exact (not_calls_pure hc).elim

theorem ofAliased {name owner canonical : String} {pointer : Pointer} {schema : Schema}
    (h : Begins context requests (.definition name pointer owner) s ids)
    (hd : context.document.definition? name = some (canonical, schema))
    (hk : claimKey canonical s = (true, t)) (hn : t.typeOf? canonical = none)
    (hf : caseKey canonical ∉ t.failed) (hs : schema.isComposite = false)
    (hc : Calls context (fun r => buildAliased r canonical schema) t site u) :
    ∃ ids, Begins context requests (.site site) u ids := by
  unfold buildAliased at hc
  have hc := hc.of_get_bind
  cases hround : comesRound t.frames (caseKey canonical) with
  | true =>
    simp only [hround, if_true] at hc
    exact (not_calls_lift hc.of_lift_bind).elim
  | false =>
    simp only [hround, Bool.false_eq_true, if_false] at hc
    obtain hc | ⟨type, v, -, hc⟩ := hc.of_lift_bind.of_bind (.call _)
    · obtain ⟨rfl, rfl⟩ := hc.of_resolve
      exact ⟨ids, h.aliased hd hk hn hf hs hround⟩
    · cases type with
      | none => exact (not_calls_pure hc.of_lift_bind.of_lift_bind).elim
      | some type => exact (not_calls_pure hc.of_lift_bind.of_lift_bind).elim

theorem ofClaimed {name owner canonical : String} {pointer : Pointer} {schema : Schema}
    (h : Begins context requests (.definition name pointer owner) s ids)
    (hd : context.document.definition? name = some (canonical, schema))
    (hk : claimKey canonical s = (true, t))
    (hc : Calls context (fun r => resolveClaimed context r canonical schema) t site u) :
    ∃ ids, Begins context requests (.site site) u ids := by
  unfold resolveClaimed at hc
  have hc := hc.of_get_bind
  cases hn : t.typeOf? canonical with
  | some type =>
    have hget : Fields.get? t.resolved (caseKey canonical) = some type := hn
    simp only [hget] at hc
    exact (not_calls_pure hc).elim
  | none =>
    have hget : Fields.get? t.resolved (caseKey canonical) = none := hn
    simp only [hget] at hc
    split_ifs at hc with hf hs
    · exact (not_calls_pure hc).elim
    · exact h.ofDefined hd hk hn (by simpa using hf) hs hc
    · exact h.ofAliased hd hk hn (by simpa using hf) (by simpa using hs) hc

theorem ofDefinition {name owner : String} {pointer : Pointer}
    (h : Begins context requests (.definition name pointer owner) s ids)
    (hc : Calls context (fun r => resolveDefinition context r name pointer owner) s site u) :
    ∃ ids, Begins context requests (.site site) u ids := by
  unfold resolveDefinition at hc
  cases hd : context.document.definition? name with
  | none =>
    simp only [hd] at hc
    split_ifs at hc
    · exact (not_calls_pure hc).elim
    · exact (not_calls_lift hc).elim
  | some found =>
    obtain ⟨canonical, schema⟩ := found
    simp only [hd] at hc
    have hc := hc.of_lift_bind
    rcases hk : claimKey canonical s with ⟨claimed, t⟩
    rw [hk] at hc
    cases claimed with
    | false => exact (not_calls_pure hc).elim
    | true => exact h.ofClaimed hd hk hc

theorem ofSite (h : Begins context requests (.site site) s ids)
    (hc : Calls context (fun r => resolveStep context r site) s site' t) :
    ∃ ids, Begins context requests (.site site') t ids := by
  cases hr : site.schema.reference with
  | some text =>
    simp only [resolveStep, Schema.route_of_reference hr, resolveReference] at hc
    cases hp : Reference.parse? text with
    | none =>
      simp only [hp] at hc
      exact (not_calls_lift hc).elim
    | some reference =>
      obtain ⟨target, name⟩ := reference
      simp only [hp] at hc
      cases target with
      | definitions => exact (h.reference hr hp).ofDefinition hc
      | parameters => exact (not_calls_lift hc).elim
  | none =>
    cases hs : site.schema.isComposite with
    | false => exact ⟨ids, h.inside hr hs hc⟩
    | true =>
      simp only [resolveStep, Schema.route_eq_composite_iff.mpr hs, buildInline] at hc
      have hc := hc.of_lift_bind
      rcases hreg : registerComposite site.name site.pointer s with ⟨interned, u⟩
      rw [hreg] at hc
      cases interned with
      | none => exact (not_calls_pure hc).elim
      | some interned =>
        obtain ⟨id, created⟩ := interned
        cases created with
        | false => cases calls_iff.mp hc
        | true =>
          obtain hc | ⟨_, v, _, hc⟩ := hc.of_bind (.of_composed (.populate context _ _ _))
          · exact ⟨_, (h.inline hs hreg).member hc⟩
          · exact (not_calls_pure hc).elim

end Begins

theorem Visits.begins (h : Visits context requests site s) :
    ∃ ids, Begins context requests (.site site) s ids := by
  induction h with
  | request hq hs ha =>
    cases ha with
    | definition hc => exact (Begins.requested hq hs).ofDefinition hc
    | schema => exact ⟨[], .schema hq hs⟩
    | operation hc => exact ⟨[], .operation hq hs hc⟩
  | inside _ hc ih =>
    obtain ⟨ids, h⟩ := ih
    exact h.ofSite hc

/-- The composites of a list are the stubs of a state, one for each composite frame. -/
structure Balanced (s : State) (ids : List CompositeId) : Prop where
  stubs : ∀ id, s.catalog.IsStub id ↔ id ∈ ids
  nodup : ids.Nodup
  frames : s.frames.count .composite = ids.length

theorem Extends.isStub_iff (h : Extends s t) (id : CompositeId) :
    t.catalog.IsStub id ↔ s.catalog.IsStub id := by
  obtain ⟨added, ha, hfilled⟩ := h.composites
  unfold Catalog.IsStub Catalog.composite?
  constructor
  · rintro ⟨composite, hc, hp⟩
    rw [ha] at hc
    rcases Nat.lt_or_ge id.index s.catalog.composites.length with hlt | hge
    · rw [List.getElem?_append_left hlt] at hc
      exact ⟨composite, hc, hp⟩
    · rw [List.getElem?_append_right hge] at hc
      cases hp.symm.trans (hfilled composite (List.mem_of_getElem? hc))
  · rintro ⟨composite, hc, hp⟩
    rw [ha, List.getElem?_append_left (List.getElem?_eq_some_iff.mp hc).1]
    exact ⟨composite, hc, hp⟩

namespace Balanced

theorem later (h : Balanced s ids) (he : Extends s t) : Balanced t ids where
  stubs id := (he.isStub_iff id).trans (h.stubs id)
  nodup := h.nodup
  frames := he.frames ▸ h.frames

/-- A new composite is a stub while its frame is the innermost one. -/
theorem opened (h : Balanced s ids) {name : String} {pointer : Pointer}
    (hc : t.catalog.composites = s.catalog.composites ++ [.stub name pointer.text])
    (hf : t.frames = s.frames) :
    Balanced (push .composite t).2 (⟨s.catalog.composites.length⟩ :: ids) where
  stubs id := by
    show (∃ composite, t.catalog.composites[id.index]? = some composite ∧ _) ↔ _
    rw [hc, List.mem_cons, ← h.stubs id]
    unfold Catalog.IsStub Catalog.composite?
    rcases Nat.lt_trichotomy id.index s.catalog.composites.length with hlt | heq | hgt
    · rw [List.getElem?_append_left hlt]
      refine ⟨.inr, fun hid => hid.resolve_left ?_⟩
      rintro rfl
      exact absurd hlt (Nat.lt_irrefl _)
    · rw [heq, List.getElem?_concat_length]
      exact ⟨fun _ => .inl (congrArg CompositeId.mk heq), fun _ => ⟨_, rfl, rfl⟩⟩
    · rw [List.getElem?_eq_none (by simpa using Nat.succ_le_of_lt hgt),
        List.getElem?_eq_none hgt.le]
      simp only [reduceCtorEq, false_and, exists_false, or_false, false_iff]
      rintro rfl
      exact absurd hgt (Nat.lt_irrefl _)
  nodup := by
    refine List.nodup_cons.mpr ⟨fun hm => ?_, h.nodup⟩
    obtain ⟨composite, hc, -⟩ := (h.stubs _).mpr hm
    exact absurd (Catalog.index_lt hc) (Nat.lt_irrefl _)
  frames := by
    show (Frame.composite :: t.frames).count .composite = _
    rw [List.count_cons_self, hf, h.frames, List.length_cons]

theorem push_definition (h : Balanced s ids) (key : String) :
    Balanced (push (.definition key) s).2 ids :=
  ⟨h.stubs, h.nodup, (List.count_cons_of_ne (by simp)).trans h.frames⟩

end Balanced

theorem balanced_empty : Balanced {} [] where
  stubs id := by simp [Catalog.IsStub, Catalog.composite?]
  nodup := List.nodup_nil
  frames := rfl

/-- A request leaves no stub behind. -/
theorem serve_balanced (h : Idle context s) (hb : Balanced s []) (q : Request) :
    ∃ t, q.serve context s = some ((), t) ∧ Idle context t ∧ Balanced t [] := by
  cases q with
  | defect d =>
    have hn := Notes.report d s
    exact ⟨_, rfl, ⟨h.inv.notes hn, h.frames, h.consistent⟩, hb.later (.of_notes hn)⟩
  | definition name =>
    obtain ⟨type, t, ht, hidle, he⟩ := h.definition name
    exact ⟨t, bind_eq_some.mpr ⟨type, t, ht, rfl⟩, hidle, hb.later he⟩
  | schema schema name =>
    obtain ⟨type, t, ht, hidle, he⟩ := h.site ⟨schema, name, ⟨[name]⟩, name⟩
    obtain ⟨answer, ha⟩ := resolveSchema_eq ht
    have hb := hb.later he
    exact ⟨_, bind_eq_some.mpr ⟨answer, _, ha, rfl⟩, hidle.drain, hb.stubs, hb.nodup, hb.frames⟩
  | operation o =>
    obtain ⟨m, t, ht, hidle, he⟩ := h.operation o
    exact ⟨t, bind_eq_some.mpr ⟨m, t, ht, rfl⟩, hidle, hb.later he⟩

theorem serveAll_balanced (h : Idle context s) (hb : Balanced s []) (requests : List Request) :
    ∃ t, serveAll context requests s = some ((), t) ∧ Idle context t ∧ Balanced t [] := by
  induction requests generalizing s with
  | nil => exact ⟨s, serveAll_nil, h, hb⟩
  | cons q rest ih =>
    obtain ⟨u, hu, hidle, hbu⟩ := serve_balanced h hb q
    obtain ⟨t, ht, hrest⟩ := ih hidle hbu
    exact ⟨t, serveAll_cons.mpr ⟨u, hu, ht⟩, hrest⟩

theorem balanced_of_serveAll (hs : serveAll context requests {} = some ((), s)) :
    (anywhere context).Inv s ∧ Balanced s [] := by
  obtain ⟨_, hs', hidle, hb⟩ := serveAll_balanced (idle_empty context) balanced_empty requests
  cases hs.symm.trans hs'
  exact ⟨hidle.inv, hb⟩

theorem reaches_site (h : (anywhere context).Inv s) {type : Option ModelType}
    (ht : resolveSite context site s = some (type, t)) : (anywhere context).Reaches s t :=
  ((Scene.resolveSite_keeps (anywhere context) {} site s ⟨.root trivial, h⟩).holds ht).reaches

/-- Between the beginning of a part and its calls there are only asides and other calls. -/
theorem Composed.reaches {part : Resolver → Run α} (h : Composed Asides part)
    (hi : (anywhere context).Inv s) (hc : Calls context part s site t) :
    (anywhere context).Reaches s t :=
  h.calls (I := (anywhere context).Reaches s)
    (fun ha hu => hu.trans (.notes hu.inv ha.notes))
    (fun ht hu => hu.trans (reaches_site hu.inv ht)) (.refl hi) hc

theorem Composed.reaches_end {part : Resolver → Run α} (h : Composed Asides part)
    (hi : (anywhere context).Inv s) {a : α} (hp : part (resolveSite context) s = some (a, t)) :
    (anywhere context).Reaches s t :=
  h.preserves (I := (anywhere context).Reaches s)
    (fun ha hu => hu.trans (.notes hu.inv ha.notes))
    (fun ht hu => hu.trans (reaches_site hu.inv ht)) (.refl hi) hp

theorem Calls.of_populate {id : CompositeId} {schema : Schema} {pointer : Pointer}
    (hi : (anywhere context).Inv s)
    (hc : Calls context (fun r => populate context r id schema pointer) s site t) :
    (anywhere context).Reaches (push .composite s).2 t := by
  have hpushed : (anywhere context).Inv (push .composite s).2 := hi.push _
  let members := schema.declaredMembers pointer
  let required := schema.declaredRequired pointer
  have hbase := Composed.resolveBase (s.catalog.nameOf id) (schema.baseParts pointer)
  have hmembers := Composed.resolveMembers context (s.catalog.nameOf id) required members
  cases hb : resolveBase (lacking context site t) (s.catalog.nameOf id) (schema.baseParts pointer)
      (push .composite s).2 with
  | none => exact hbase.reaches hpushed (calls_iff.mpr hb)
  | some p =>
    obtain ⟨base, u⟩ := p
    have hu := hbase.reaches_end hpushed
      ((Courses.of_composed hbase).mono (lacking_below context site t) hb)
    cases hm : resolveMembers context (lacking context site t) (s.catalog.nameOf id) required
        members u with
    | none => exact hu.trans (hmembers.reaches hu.inv (calls_iff.mpr hm))
    | some q =>
      cases (calls_iff.mp hc).symm.trans (populate_eq_some.mpr ⟨base, u, _, _, hb, hm, rfl⟩)

theorem Calls.of_inside (hi : (anywhere context).Inv s) (hr : site.schema.reference = none)
    (hs : site.schema.isComposite = false)
    (hc : Calls context (fun r => resolveStep context r site) s site' t) :
    (anywhere context).Reaches s t := by
  have hreference : ∀ text, site.schema.route ≠ .reference text := fun text h =>
    nomatch hr.symm.trans (Schema.reference_of_route h)
  have hcomposite : site.schema.route ≠ .composite := fun h =>
    nomatch hs.symm.trans (Schema.route_eq_composite_iff.mp h)
  by_cases he : ∃ listed, site.schema.route = .enumeration listed
  · obtain ⟨listed, he⟩ := he
    simp only [resolveStep, he] at hc
    exact (not_calls_lift hc).elim
  by_cases hk : site.schema.route = .scalar
  · simp only [resolveStep, hk] at hc
    exact (not_calls_lift hc).elim
  · exact (Composed.resolveInside hreference hcomposite (not_exists.mp he) hk).reaches hi hc

theorem registerComposite_created {name : String} {pointer : Pointer} {id : CompositeId}
    (h : registerComposite name pointer s = (some ⟨id, true⟩, t)) :
    s.catalog.findComposite? name = none ∧ id = ⟨s.catalog.composites.length⟩ ∧
      t = s.withStub name pointer := by
  obtain ⟨hf, hr⟩ | ⟨_, -, -, hr⟩ | ⟨d, hr⟩ := registerComposite_cases name pointer s
  · cases hr.symm.trans h
    exact ⟨hf, rfl, rfl⟩
  · cases hr.symm.trans h
  · cases hr.symm.trans h

/-- Where a task makes its calls: a composite has a frame while it is filled in. -/
def Task.enter : Task → State → State
  | .filling .., s => (push .composite s).2
  | _, s => s

/-- A task begins within the invariant, and the composites that it is inside of are the stubs. -/
theorem Begins.balanced {task : Task} (h : Begins context requests task s ids) :
    (anywhere context).Inv s ∧ Balanced (task.enter s) ids := by
  induction h with
  | requested _ hs => exact balanced_of_serveAll hs
  | schema _ hs => exact balanced_of_serveAll hs
  | operation _ hs hc =>
    obtain ⟨hi, hb⟩ := balanced_of_serveAll hs
    have hreach := (Composed.buildMethod context _).reaches hi hc
    exact ⟨hreach.inv, hb.later hreach.later⟩
  | inside _ hr hs hc ih =>
    obtain ⟨hi, hb⟩ := ih
    have hreach := hc.of_inside hi hr hs
    exact ⟨hreach.inv, hb.later hreach.later⟩
  | reference _ _ _ ih => exact ih
  | aliased _ _ hk _ _ _ _ ih =>
    obtain ⟨hi, hb⟩ := ih
    have hreach := Scene.reaches_of_claimKey hi hk
    exact ⟨hreach.inv.push _, (hb.later hreach.later).push_definition _⟩
  | inline _ hs hreg ih =>
    obtain ⟨hi, hb⟩ := ih
    obtain ⟨hf, rfl, rfl⟩ := registerComposite_created hreg
    obtain ⟨hi', ho⟩ := hi.withStub hf (.root trivial) hs
    exact ⟨hi', hb.opened ho.composites ho.frames⟩
  | defined _ hd hk hn _ hs hreg ih =>
    obtain ⟨hi, hb⟩ := ih
    have hreach := Scene.reaches_of_claimKey hi hk
    obtain ⟨hi, hc⟩ := inv_of_claimKey hi hk
    obtain ⟨hf, rfl, rfl⟩ := registerComposite_created hreg
    obtain ⟨hi', ho, -⟩ := hi.rememberStub hc (Scene.get?_of_definition? hd) hs hn hf
    exact ⟨hi', (hb.later hreach.later).opened ho.composites ho.frames⟩
  | member _ hc ih =>
    obtain ⟨hi, hb⟩ := ih
    have hreach := hc.of_populate hi
    exact ⟨hreach.inv, hb.later hreach.later⟩

structure Settled (s : State) : Prop where
  frames : s.frames = []
  filled : ∀ id, ¬ s.catalog.IsStub id
  bases : ∀ composite ∈ s.catalog.composites, ∀ base, composite.base = some base →
    base.index < s.catalog.composites.length
  properties : ∀ composite ∈ s.catalog.composites, ∀ p ∈ composite.properties,
    p.type.Within s.catalog
  memo : ∀ key type, Fields.get? s.resolved key = some type → type.Within s.catalog

theorem Idle.settled (h : Idle context s) (hb : Balanced s []) : Settled s := by
  have hfilled : ∀ id, ¬ s.catalog.IsStub id := fun id hid => nomatch (hb.stubs id).mp hid
  have hplace : ∀ composite ∈ s.catalog.composites, ∃ id,
      s.catalog.composite? id = some composite ∧ composite.progress ≠ .stub := by
    intro composite hm
    obtain ⟨i, hi⟩ := List.mem_iff_getElem?.mp hm
    exact ⟨⟨i⟩, hi, fun hp => hfilled ⟨i⟩ ⟨composite, hi, hp⟩⟩
  refine ⟨h.frames, hfilled, fun composite hm base hbase => ?_, fun composite hm p hp => ?_,
    fun key type hr => ?_⟩
  · obtain ⟨id, hc, hp⟩ := hplace composite hm
    exact h.inv.base_lt hc hp hbase
  · obtain ⟨id, hc, hstub⟩ := hplace composite hm
    exact h.inv.property_within hc hstub hp
  · obtain ⟨name, schema, -, -, -, -, hw⟩ := h.inv.memo hr
    exact hw

/-- From one state to another nothing that was there has changed. The composites of a list are the
stubs of both, one for each composite frame. -/
structure Framed (s t : State) (ids : List CompositeId) : Prop where
  frames : t.frames = s.frames
  defects : s.defects <+: t.defects
  enums : s.catalog.enums <+: t.catalog.enums
  composites : s.catalog.composites <+: t.catalog.composites
  before : Balanced s ids
  after : Balanced t ids

theorem Balanced.framed (h : Balanced s ids) (he : Extends s t) : Framed s t ids := by
  obtain ⟨added, ha, -⟩ := he.composites
  exact ⟨he.frames, he.defects, he.enums, ⟨added, ha.symm⟩, h, h.later he⟩

end Resolution

open Resolution

/-- Whatever a resolver is asked for, and whether or not there are defects: the type of a schema and
that of a definition leave everything as it was but for what they add, and the stubs are the
composites that they are inside of. After each request no stub is left, and every index that is
used for a base, a property or a definition is in use. A build is such a sequence of requests. -/
theorem stubs_balanced (context : Context) (requests : List Request) :
    (∀ site s, Visits context requests site s →
      ∃ ids, Begins context requests (.site site) s ids) ∧
    (∀ site s ids, Begins context requests (.site site) s ids → ∃ type t,
      resolveSite context site s = some (type, t) ∧ Framed s t ids) ∧
    (∀ name pointer owner s ids, Begins context requests (.definition name pointer owner) s ids →
      ∃ type t, resolveDefinition context (resolveSite context) name pointer owner s =
        some (type, t) ∧ Framed s t ids) ∧
    (∀ before after, requests = before ++ after →
      ∃ s, serveAll context before {} = some ((), s) ∧ Settled s) ∧
    ∃ methods t, Build.resolveAll context (resolveSite context) {} = some (methods, t) ∧
      serveAll context (Request.ofBuild context.document) {} = some ((), t) := by
  refine ⟨fun site s h => h.begins, fun site s ids h => ?_, fun name pointer owner s ids h => ?_,
    fun before after hq => ?_, ?_⟩
  · obtain ⟨hi, hb⟩ := h.balanced
    obtain ⟨type, t, ht⟩ := resolveSite_total context site s
    exact ⟨type, t, ht, hb.framed (reaches_site hi ht).later⟩
  · obtain ⟨hi, hb⟩ := h.balanced
    obtain ⟨type, t, ht, -, hy⟩ := Scene.resolveDefinition_keeps
      (Scene.resolveSite_keeps (anywhere context) {}) hi name pointer owner
    exact ⟨type, t, ht, hb.framed hy.reaches.later⟩
  · obtain ⟨s, hs, hidle, hb⟩ := serveAll_balanced (idle_empty context) balanced_empty before
    exact ⟨s, hs, hidle.settled hb⟩
  · obtain ⟨methods, t, ht⟩ := Ends.resolveAll (resolveSite_total context) context {}
    exact ⟨methods, t, ht, serveAll_ofBuild ht⟩

end ApiModel
