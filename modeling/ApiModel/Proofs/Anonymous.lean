import ApiModel.Proofs.Lawful

/-! # Enums without a name are made once

An enumeration without a name makes a new enum whenever it is resolved. It is resolved once: what
leads to it, past arrays and dictionaries, is either one definition, which is remembered, or one
member of an object type, which is filled in once. So no two enums of the definitions were declared
at the same place.
-/

namespace ApiModel

open Resolution
open Text (caseKey)
open Relation (ReflTransGen)

def Site.Inner (d : Document) (x y : Site) : Prop :=
  x.schema.reference = none ∧ x.next? d = some y

/-- The second site is inside the first, past arrays and dictionaries only. -/
def Site.Contains (d : Document) : Site → Site → Prop := ReflTransGen (Site.Inner d)

namespace Site.Contains

variable {d : Document} {site other inner : Site} {p q : Position}

/-- Nothing is inside of a reference or an object type but itself. -/
theorem eq_of_stuck (h : Contains d site inner)
    (hs : site.schema.reference ≠ none ∨ site.next? d = none) : site = inner := by
  rcases ReflTransGen.cases_head h with rfl | ⟨other, ⟨hr, hx⟩, -⟩
  · rfl
  · rcases hs with hs | hs
    · exact absurd hr hs
    · exact nomatch hx.symm.trans hs

theorem next (h : Contains d site inner) (hne : site ≠ inner) (hx : site.next? d = some other) :
    Contains d other inner := by
  rcases ReflTransGen.cases_head h with rfl | ⟨_, ⟨-, hx'⟩, h⟩
  · exact absurd rfl hne
  · cases hx.symm.trans hx'
    exact h

theorem occurs (h : Contains d site inner) (ho : d.Occurs p site) :
    ∃ q, d.Occurs q inner ∧ q.stem = p.stem := by
  induction h with
  | refl => exact ⟨p, ho, rfl⟩
  | tail _ hx ih =>
    obtain ⟨q, hq, hstem⟩ := ih
    obtain ⟨b, hb, hin⟩ := hq.inside hx.1 hx.2
    exact ⟨q.child b, hin, (q.stem_inner hb).trans hstem⟩

theorem stem_eq (h : Contains d site inner) (hn : d.NamesOnce) (ho : d.Occurs p site)
    (hi : d.Occurs q inner) : p.stem = q.stem := by
  obtain ⟨q', hi', hstem⟩ := h.occurs ho
  obtain ⟨rfl, -⟩ := hi'.unique hn hi rfl
  exact hstem.symm

end Site.Contains

namespace Document.Occurs

variable {d : Document} {p q : Position} {site other inner : Site}

theorem reference_of_part {i : Nat} (h : d.Occurs (p.child (.part i)) site) :
    site.schema.reference ≠ none := by
  generalize hq : p.child (.part i) = q at h
  cases h with
  | definition =>
    have := congrArg Position.path hq
    simp [Position.child] at this
  | base _ _ _ hr => exact hr
  | _ => cases (Position.child_inj hq).2

theorem member_unique (hn : d.NamesOnce) (h : d.Occurs p site) (h' : d.Occurs q other)
    (hs : site.schema.isComposite = true) (hs' : other.schema.isComposite = true) {m m' : Member}
    (hm : m ∈ site.schema.declaredMembers site.pointer)
    (hm' : m' ∈ other.schema.declaredMembers other.pointer) {q' : Position}
    (hi : d.Occurs q' inner) (hc : (m.site site.name).Contains d inner)
    (hc' : (m'.site other.name).Contains d inner) : site = other ∧ m.pointer = m'.pointer := by
  have hno : ∀ {p site i}, d.Occurs (Position.child p (.part i)) site →
      site.schema.isComposite ≠ true := by
    intro p site i ho hs
    exact ho.reference_of_part (Schema.isComposite_iff.mp hs).1.reference
  have hstem : ∀ {p b site}, d.Occurs (Position.child p (.property b)) site →
      site.Contains d inner → p.child (.property b) = q'.stem := fun ho hc =>
    (Position.stem_outer _ rfl).symm.trans (hc.stem_eq hn ho hi)
  have hsame : ∀ {p b site other}, d.Occurs p site → d.Occurs b other → p = b → site = other := by
    rintro p _ site other ho ho' rfl
    exact Option.some.inj ((ho.siteAt?_eq hn).symm.trans (ho'.siteAt?_eq hn))
  have hpointer : ∀ {p b : Position}, d.Occurs p (m.site site.name) →
      d.Occurs b (m'.site other.name) → p = b → m.pointer = m'.pointer := by
    rintro p _ ho ho' rfl
    exact ho.pointer_eq.symm.trans ho'.pointer_eq
  rcases h.member hs hm with ho | ⟨i, ho⟩ <;> rcases h'.member hs' hm' with ho' | ⟨j, ho'⟩
  all_goals have heq := (hstem ho hc).trans (hstem ho' hc').symm
  · exact ⟨hsame h h' (Position.child_inj heq).1, hpointer ho ho' heq⟩
  · exact absurd hs (hno ((Position.child_inj heq).1 ▸ h))
  · exact absurd hs' (hno ((Position.child_inj heq).1 ▸ h'))
  · exact ⟨hsame h h' (Position.child_inj (Position.child_inj heq).1).1, hpointer ho ho' heq⟩

/-- What is inside of a definition is inside of no member, and of no other definition. -/
theorem definition_unique (hn : d.NamesOnce) {name : String} {schema : Schema}
    (hget : Fields.get? d.definitions name = some schema)
    (hi : d.Occurs q inner) (hc : (definitionSite name schema).Contains d inner) :
    q.stem = ⟨.definition name, []⟩ :=
  (hc.stem_eq hn (.definition hget) hi).symm

theorem stem_of_member (hn : d.NamesOnce) (h : d.Occurs p site)
    (hs : site.schema.isComposite = true) {m : Member}
    (hm : m ∈ site.schema.declaredMembers site.pointer) (hi : d.Occurs q inner)
    (hc : (m.site site.name).Contains d inner) : q.stem.path ≠ [] := by
  obtain ho | ⟨i, ho⟩ := h.member hs hm
  · rw [← hc.stem_eq hn ho hi, Position.stem_outer _ rfl]
    simp [Position.child]
  · rw [← hc.stem_eq hn ho hi, Position.stem_outer _ rfl]
    simp [Position.child]

end Document.Occurs

theorem Schema.pairwise_declaredMembers {schema : Schema}
    (hown : (Fields.keys schema.properties).Nodup)
    (hparts : ∀ part ∈ schema.allOf, (Fields.keys part.properties).Nodup) (pointer : Pointer) :
    (schema.declaredMembers pointer).Pairwise fun m m' => m.pointer ≠ m'.pointer := by
  have own : ∀ {s : Schema} (p : Pointer), (Fields.keys s.properties).Nodup →
      (s.members p).Pairwise fun m m' => m.pointer ≠ m'.pointer := by
    intro s p h
    refine List.pairwise_map.mpr ((List.pairwise_map.mp h).imp fun hne heq => hne ?_)
    simpa [Pointer.child] using heq
  refine List.pairwise_append.mpr ⟨own pointer hown, List.pairwise_flatMap.mpr ⟨?_, ?_⟩, ?_⟩
  · intro p hp
    obtain ⟨⟨part, i⟩, hmem, rfl⟩ := List.mem_map.mp (List.mem_of_mem_filter hp)
    exact own _ (hparts part (List.fst_mem_of_mem_zipIdx hmem))
  · refine List.Pairwise.filter _ (List.pairwise_map.mpr ?_)
    have hidx : (schema.allOf.zipIdx.map Prod.snd).Nodup := by
      rw [List.zipIdx_map_snd]
      exact List.nodup_range'
    refine (List.pairwise_map.mp hidx).imp fun hne m hm m' hm' heq => hne ?_
    obtain ⟨_, -, rfl⟩ := List.mem_map.mp hm
    obtain ⟨_, -, rfl⟩ := List.mem_map.mp hm'
    have := congrArg Pointer.segments heq
    simp only [Pointer.item, Pointer.segments_child, List.append_assoc] at this
    have := List.append_cancel_left this
    simp_all [repr_injective.eq_iff]
  · intro m hm m' hm' heq
    obtain ⟨_, -, rfl⟩ := List.mem_map.mp hm
    obtain ⟨p, hp, hm'⟩ := List.mem_flatMap.mp hm'
    obtain ⟨_, -, rfl⟩ := List.mem_map.mp hm'
    obtain ⟨_, -, rfl⟩ := List.mem_map.mp (List.mem_of_mem_filter hp)
    have := congrArg List.length (congrArg Pointer.segments heq)
    simp [Pointer.item, Pointer.segments_child] at this

theorem Document.Occurs.pairwise_members {d : Document} {p : Position} {site : Site}
    (h : d.Occurs p site) (hn : d.NamesOnce) :
    (site.schema.declaredMembers site.pointer).Pairwise fun m m' => m.pointer ≠ m'.pointer := by
  refine Schema.pairwise_declaredMembers (hn.nodup_properties h.stands) (fun part hp => ?_) _
  obtain ⟨i, hi⟩ := List.mem_iff_getElem?.mp hp
  have hstands : d.Stands ((site.pointer.child "allOf").item i) part :=
    .part h.stands (List.mk_mem_zipIdx_iff_getElem?.mpr hi)
  exact hn.nodup_properties hstands

namespace Resolution

variable {context : Context} {r : Resolver} {s t u last : State} {place site : Site}
  {type : Option ModelType} {p q : Position}

def made (place : Site) (s : State) : Nat :=
  s.catalog.enums.countP fun e => e.name.isNone && e.origin == place.pointer.text

/-- The definition that a place is inside of has been resolved, or the object type has been entered
one of whose members the place is inside of. -/
def Passed (context : Context) (place : Site) (s : State) : Prop :=
  (∃ name schema, Fields.get? context.document.definitions name = some schema ∧
    (definitionSite name schema).Contains context.document place ∧
      (s.typeOf? name ≠ none ∨ caseKey name ∈ s.failed)) ∨
  ∃ p site, context.document.Occurs p site ∧ site.schema.isComposite = true ∧
    (∃ m ∈ site.schema.declaredMembers site.pointer,
      (m.site site.name).Contains context.document place) ∧ Registered s.catalog site

open Classical in
/-- How many enums there are of a place, and one more as long as it has not been passed. -/
noncomputable def quota (context : Context) (place : Site) (s : State) : Nat :=
  made place s + if Passed context place s then 0 else 1

theorem made_le_quota : made place s ≤ quota context place s := Nat.le_add_right _ _

theorem Passed.mono (h : Passed context place s)
    (hr : ∀ key, Fields.get? s.resolved key ≠ none → Fields.get? t.resolved key ≠ none)
    (hf : s.failed ⊆ t.failed) (hc : s.catalog.Grows t.catalog) : Passed context place t := by
  rcases h with ⟨name, schema, hget, hin, hdone⟩ | ⟨p, site, ho, hs, hm, hreg⟩
  · exact .inl ⟨name, schema, hget, hin, hdone.imp (hr _) fun hk => hf hk⟩
  · exact .inr ⟨p, site, ho, hs, hm, hreg.mono hc⟩

theorem quota_le_of_imp (hm : made place t = made place s)
    (h : Passed context place s → Passed context place t) :
    quota context place t ≤ quota context place s := by
  unfold quota
  rw [hm]
  split_ifs with ht hs
  · exact Nat.le_refl _
  · exact Nat.le_succ _
  · exact absurd (h ‹_›) ht
  · exact Nat.le_refl _

theorem quota_le (he : t.catalog.enums = s.catalog.enums)
    (hr : ∀ key, Fields.get? s.resolved key ≠ none → Fields.get? t.resolved key ≠ none)
    (hf : s.failed ⊆ t.failed) (hc : s.catalog.Grows t.catalog) :
    quota context place t ≤ quota context place s :=
  quota_le_of_imp (by rw [made, made, he]) fun h => h.mono hr hf hc

theorem Notes.quota_le (h : Notes s t) : quota context place t ≤ quota context place s :=
  Resolution.quota_le (h.catalog_eq ▸ rfl) (fun _ hk => h.resolved_eq ▸ hk)
    (fun _ hk => h.failed_eq ▸ hk) h.grows.catalog

theorem quota_remember (key : String) (x : ModelType) :
    quota context place (remember key x s).2 ≤ quota context place s := by
  refine quota_le rfl (fun other hk => ?_) (List.Subset.refl _) (.refl _)
  show Fields.get? (Fields.set s.resolved key x) other ≠ none
  rw [Fields.get?_set]
  split
  · exact Option.some_ne_none x
  · exact hk

theorem quota_push (f : Frame) : quota context place (push f s).2 ≤ quota context place s :=
  quota_le rfl (fun _ h => h) (List.Subset.refl _) (.refl _)

theorem quota_pop : quota context place (pop s).2 ≤ quota context place s :=
  quota_le rfl (fun _ h => h) (List.Subset.refl _) (.refl _)

theorem quota_withStub (name : String) (pointer : Pointer) :
    quota context place (s.withStub name pointer) ≤ quota context place s :=
  quota_le rfl (fun _ h => h) (List.Subset.refl _) (withStub_grows ..).catalog

theorem quota_markFailed (key : String) :
    quota context place (markFailed key s).2 ≤ quota context place s :=
  quota_le rfl (fun _ => id) (List.subset_cons_self ..) (.refl _)

structure Spends (context : Context) (place site : Site) (s t : State) : Prop where
  quota : open Classical in quota context place t ≤ quota context place s +
    if site.Contains context.document place then 1 else 0
  passed : site.Contains context.document place → Passed context place t → Passed context place s

/-- Calls of the resolver make an enum at a place only on the way to it. -/
def Thrifty (context : Context) (place : Site) (last : State) (r : Resolver) : Prop :=
  ∀ site s type t, r site s = some (type, t) → (Scene.ofBuild context).Within last site s type t ∧
    ∀ p, context.document.Occurs p site → Spends context place site s t

theorem Spends.of_quota_le (hno : ¬ site.Contains context.document place)
    (h : Resolution.quota context place t ≤ Resolution.quota context place s) :
    Spends context place site s t :=
  ⟨h.trans (Nat.le_add_right _ _), fun hc => absurd hc hno⟩

theorem Notes.spends (h : Notes s t) : Spends context place site s t where
  quota := h.quota_le.trans (Nat.le_add_right _ _)
  passed _ hp := by
    rcases hp with ⟨name, schema, hget, hin, hdone⟩ | ⟨p, site, ho, hs, hm, hreg⟩
    · rw [State.typeOf?, h.resolved_eq, h.failed_eq] at hdone
      exact .inl ⟨name, schema, hget, hin, hdone⟩
    · exact .inr ⟨p, site, ho, hs, hm, h.catalog_eq ▸ hreg⟩

section Bodies

variable (hn : context.document.NamesOnce) (hr : Thrifty context place last r)
  (hi : context.document.Occurs q place) (ho : context.document.Occurs p site)
  (hs : site.schema.isComposite = true)
include hn hr hi ho hs

omit hn hi in
theorem base_quota {listed : List Json} (hplace : place.schema.route = .enumeration listed)
    {base : Option CompositeId}
    (h : resolveBase r site.name (site.schema.baseParts site.pointer) s = some (base, t)) :
    quota context place t ≤ quota context place s := by
  cases hparts : site.schema.baseParts site.pointer with
  | nil =>
    rw [hparts] at h
    cases h
    exact Nat.le_refl _
  | cons part others =>
    have hmem : part ∈ site.schema.baseParts site.pointer := hparts ▸ List.mem_cons_self ..
    rw [hparts] at h
    obtain ⟨type, u, hu, rfl, rfl⟩ := resolveBase_cons.mp h
    obtain ⟨o, hpart⟩ := ho.basePart hs hmem
    have hno : ¬ (part.site site.name).Contains context.document place := fun hc => by
      have href : (part.site site.name).schema.reference ≠ none :=
        Schema.reference_of_mem_baseParts hmem
      rw [← hc.eq_of_stuck (.inl href)] at hplace
      exact href (Schema.enumeration_of_route hplace).1
    have hu := ((hr _ _ _ _ hu).2 o hpart).quota
    rw [if_neg hno] at hu
    exact ((reportSecondBases_notes ..).quota_le.trans (baseOf_notes ..).quota_le).trans hu

open Classical in
/-- The loop over members makes an enum at the place only if one of them leads there. -/
theorem members_quota {properties : List Property}
    (h : resolveMembers context r site.name (site.schema.declaredRequired site.pointer)
      (site.schema.declaredMembers site.pointer) s = some (properties, t)) :
    quota context place t ≤ quota context place s +
      if ∃ m ∈ site.schema.declaredMembers site.pointer,
        (m.site site.name).Contains context.document place then 1 else 0 := by
  refine (resolveMembers_induct (fun before _ w => (∀ n ∈ before,
      n ∈ site.schema.declaredMembers site.pointer) ∧
    quota context place w ≤ quota context place s +
      if ∃ m ∈ before, (m.site site.name).Contains context.document place then 1 else 0)
    (fun before m after ps w type x hl ⟨hbefore, hw⟩ hx => ?_) ⟨List.forall_mem_nil _, by simp⟩ h).2
  have hm : m ∈ site.schema.declaredMembers site.pointer := by simp [hl]
  obtain ⟨o, hmember⟩ := ho.exists_member hs hm
  have hx := ((hr _ _ _ _ hx).2 o hmember).quota
  have habsorb : quota context place (absorb context site.name
      (site.schema.declaredRequired site.pointer) m ps type x).2 ≤ quota context place x :=
    (absorb_notes x).quota_le
  refine ⟨fun n hn => ?_, habsorb.trans (hx.trans ?_)⟩
  · rcases List.mem_append.mp hn with hn | hn
    · exact hbefore n hn
    · exact List.mem_singleton.mp hn ▸ hm
  · by_cases hc : (m.site site.name).Contains context.document place
    · -- The places of the members are apart, so none that has been passed leads there as well.
      have hno : ¬ ∃ n ∈ before, (n.site site.name).Contains context.document place := by
        rintro ⟨n, hnm, hnc⟩
        have hpairs := ho.pairwise_members hn
        rw [hl] at hpairs
        exact (List.pairwise_append.mp hpairs).2.2 n hnm m (List.mem_cons_self ..)
          (ho.member_unique hn ho hs hs (hbefore n hnm) hm hi hnc hc).2
      have hyes : ∃ n ∈ before ++ [m], (n.site site.name).Contains context.document place :=
        ⟨m, by simp, hc⟩
      rw [if_neg hno] at hw
      rw [if_pos hc, if_pos hyes]
      exact Nat.add_le_add_right hw 1
    · have hsame : (∃ n ∈ before ++ [m], (n.site site.name).Contains context.document place) ↔
          ∃ n ∈ before, (n.site site.name).Contains context.document place := by
        simp [hc]
      rw [if_neg hc, Nat.add_zero]
      simpa only [hsame] using hw

open Classical in
theorem populate_quota {listed : List Json} (hplace : place.schema.route = .enumeration listed)
    {id : CompositeId} (hname : s.catalog.nameOf id = site.name)
    (h : populate context r id site.schema site.pointer s = some ((), t)) :
    quota context place t ≤ quota context place s +
      if ∃ m ∈ site.schema.declaredMembers site.pointer,
        (m.site site.name).Contains context.document place then 1 else 0 := by
  obtain ⟨base, u, properties, v, hb, hm, rfl⟩ := populate_eq_some.mp h
  rw [hname] at hb hm ⊢
  have hu := (base_quota hr ho hs hplace hb).trans (quota_push .composite)
  set w := remarks context site.name site.schema site.pointer v
  set x := Scene.fillIn id site.schema site.pointer properties base
    (declaredValue context.settings site.name site.schema) w
  calc quota context place (pop x).2
      ≤ quota context place x := quota_pop
    _ ≤ quota context place w :=
        quota_le rfl (fun _ h => h) (List.Subset.refl _) (Scene.fillIn_grows ..).catalog
    _ ≤ quota context place v := (remarks_notes ..).quota_le
    _ ≤ quota context place u + _ := members_quota hn hr hi ho hs hm
    _ ≤ _ := Nat.add_le_add_right hu _

theorem entered_quota {listed : List Json} (hplace : place.schema.route = .enumeration listed)
    (hk : s.catalog.Keyed) (hf : s.catalog.findComposite? site.name = none)
    {id : CompositeId} (hname : t.catalog.nameOf id = site.name)
    (hreg : Registered t.catalog site) (he : t.catalog.enums = s.catalog.enums)
    (ht : quota context place t ≤ quota context place s)
    (h : populate context r id site.schema site.pointer t = some ((), u)) :
    quota context place u ≤ quota context place s := by
  have hu := populate_quota hn hr hi ho hs hplace hname h
  by_cases hc : ∃ m ∈ site.schema.declaredMembers site.pointer,
      (m.site site.name).Contains context.document place
  · obtain ⟨m, hm, hin⟩ := hc
    have hpassed : Passed context place t := .inr ⟨p, site, ho, hs, ⟨m, hm, hin⟩, hreg⟩
    have hfresh : ¬ Passed context place s := by
      rintro (⟨name, schema, hget, hdef, -⟩ | ⟨p', other, ho', hs', ⟨m', hm', hin'⟩, hreg'⟩)
      · have hstem := Document.Occurs.definition_unique hn hget hi hdef
        exact ho.stem_of_member hn hs hm hi hin (by rw [hstem])
      · obtain ⟨rfl, -⟩ := ho.member_unique hn ho' hs hs' hm hm' hi hin hin'
        obtain ⟨id, composite, hcomp, hkey, -⟩ := hreg'
        cases hf.symm.trans ((hk _ id).mpr ⟨composite, hcomp, hkey⟩)
    rw [if_pos ⟨m, hm, hin⟩] at hu
    unfold quota at hu ⊢
    rw [if_pos hpassed, show made place t = made place s by rw [made, made, he]] at hu
    rw [if_neg hfresh]
    exact hu
  · rw [if_neg hc] at hu
    exact hu.trans ht

end Bodies

section Steps

variable (hn : context.document.NamesOnce) (hr : Thrifty context place last r)
  (hi : context.document.Occurs q place) {listed : List Json}
  (hplace : place.schema.route = .enumeration listed) (hinv : (Scene.ofBuild context).Inv s)
include hn hr hi hplace hinv

omit hplace hinv in
theorem aliased_quota {name : String} {schema : Schema}
    (hget : Fields.get? context.document.definitions name = some schema)
    (hnone : s.typeOf? name = none) (hfailed : caseKey name ∉ s.failed)
    (hu : r (definitionSite name schema) (push (.definition (caseKey name)) s).2 = some (type, u))
    (hdone : t.typeOf? name ≠ none ∨ caseKey name ∈ t.failed)
    (hmade : made place t = made place u)
    (hle : quota context place t ≤ quota context place u) :
    quota context place t ≤ quota context place s := by
  have hspends := (hr _ _ _ _ hu).2 _ (.definition hget)
  have hpush : quota context place (push (.definition (caseKey name)) s).2 ≤
      quota context place s := quota_push _
  by_cases hc : (definitionSite name schema).Contains context.document place
  · have hfresh : ¬ Passed context place s := by
      rintro (⟨other, schema', hget', hdef, hold⟩ | ⟨p, site, hs, hcomp, ⟨m, hm, hin⟩, -⟩)
      · have hstem := Document.Occurs.definition_unique hn hget hi hc
        rw [Document.Occurs.definition_unique hn hget' hi hdef] at hstem
        cases hstem
        rcases hold with hold | hold
        · exact hold hnone
        · exact hfailed hold
      · have hstem := Document.Occurs.definition_unique hn hget hi hc
        exact hs.stem_of_member hn hcomp hm hi hin (by rw [hstem])
    have hpassed : Passed context place t := .inl ⟨name, schema, hget, hc, hdone⟩
    have hu' := hspends.quota.trans (Nat.add_le_add_right hpush _)
    have hfreshu : ¬ Passed context place u := fun hp => hfresh (hspends.passed hc hp)
    rw [if_pos hc] at hu'
    unfold quota at hu' ⊢
    rw [if_neg hfreshu, if_neg hfresh] at hu'
    rw [if_pos hpassed, if_neg hfresh, hmade]
    omega
  · have hu' := hspends.quota
    rw [if_neg hc] at hu'
    exact hle.trans (hu'.trans hpush)

theorem settles_quota {name : String} {schema : Schema}
    (hget : Fields.get? context.document.definitions name = some schema)
    (h : Settles context r name schema s type t) :
    quota context place t ≤ quota context place s := by
  have ho : context.document.Occurs ⟨.definition name, []⟩ (definitionSite name schema) :=
    .definition hget
  cases h with
  | remembered | failed => exact Nat.le_refl _
  | clash => exact (quota_markFailed _).trans (Notes.report _ s).quota_le
  | known => exact quota_remember ..
  | @opened t hnone _ hs hk hp =>
    refine entered_quota hn hr hi ho hs hplace hinv.keyed hk ?_ ?_ ?_ ?_ hp
    · show (s.withStub name (Pointer.definition name)).catalog.nameOf _ = name
      simp only [Catalog.nameOf, State.withStub, Catalog.composite?_addComposite_self]
      rfl
    · exact registered_withStub name (Pointer.definition name) s schema name
    · rfl
    · exact (quota_remember ..).trans (quota_withStub ..)
  | round => exact (Notes.report _ _).quota_le.trans (quota_markFailed _)
  | @lost u hnone hfailed _ _ hu =>
    exact aliased_quota hn hr hi hget hnone hfailed hu (.inr (List.mem_cons_self ..)) rfl
      ((quota_markFailed _).trans quota_pop)
  | @found x u hnone hfailed _ _ hu =>
    refine aliased_quota hn hr hi hget hnone hfailed hu (.inl ?_) rfl
      ((quota_remember ..).trans quota_pop)
    show Fields.get? (Fields.set u.resolved (caseKey name) x) (caseKey name) ≠ none
    rw [Fields.get?_set, if_pos rfl]
    exact Option.some_ne_none x

theorem definition_quota {name owner : String} {pointer : Pointer}
    (h : resolveDefinition context r name pointer owner s = some (type, t)) :
    quota context place t ≤ quota context place s := by
  obtain ⟨-, -, ⟨-, rfl⟩ | rfl⟩ | ⟨canonical, schema, hfound, ⟨d, -, -, rfl⟩ | ⟨u, hk, hs⟩⟩ :=
    resolveDefinition_cases h
  · exact Nat.le_refl _
  · exact (Notes.report _ s).quota_le
  · exact (Notes.report d s).quota_le
  · obtain ⟨hi', -⟩ := inv_of_claimKey hinv hk
    have hg := claimKey_grows canonical s
    rw [hk] at hg
    obtain ⟨-, hresolved, hfailed⟩ := claimKey_kept hk
    refine (settles_quota hn hr hi hplace hi' (Scene.get?_of_definition? hfound) hs).trans
      (quota_le ?_ (fun _ hk => hresolved ▸ hk) (fun _ hk => hfailed ▸ hk) hg.catalog)
    obtain ⟨-, rfl⟩ | ⟨-, rfl⟩ := claimed_cases hk
    · rfl
    · rfl

omit hr hinv in
theorem enum_spends (ho : context.document.Occurs p site) {values : List Json} {x : ModelType}
    (h : buildEnum context.settings site values s = (some x, t)) :
    Spends context place site s t := by
  classical
  have hsame : ∀ {e : EnumType}, Passed context place (s.withEnum e) ↔ Passed context place s :=
    fun {e} => ⟨fun h => h, fun h => h⟩
  obtain ⟨d, hb⟩ | ⟨listed, -, ⟨-, hb⟩ | ⟨extension, -, ⟨-, hb⟩ | ⟨_, -, -, hb⟩⟩⟩ :=
    buildEnum_cases context.settings site values s
  · cases hb.symm.trans h
  · cases hb.symm.trans h
    refine ⟨?_, fun _ => hsame.mp⟩
    set e : EnumType := ⟨none, listed, true, site.pointer.text⟩
    have hmade : made place (s.withEnum e) = made place s +
        if site.pointer.text = place.pointer.text then 1 else 0 := by
      show List.countP _ (s.catalog.enums ++ [e]) = _
      rw [List.countP_append, List.countP_singleton]
      simp [made, e]
    unfold quota
    simp only [hmade, hsame]
    by_cases htext : site.pointer.text = place.pointer.text
    · obtain ⟨-, rfl⟩ := ho.unique hn hi htext
      have hself : site.Contains context.document site := ReflTransGen.refl
      rw [if_pos rfl, if_pos hself]
      omega
    · rw [if_neg htext]
      omega
  · cases hb.symm.trans h
    set e : EnumType := ⟨some (Enumeration.nameOf extension), listed, false, site.pointer.text⟩
    have hmade : made place (s.withNamedEnum (Enumeration.nameOf extension) e) = made place s := by
      show List.countP _ (s.catalog.enums ++ [e]) = _
      rw [List.countP_append, List.countP_singleton]
      simp [made, e]
    exact ⟨(quota_le_of_imp hmade fun h => h).trans (Nat.le_add_right _ _), fun _ h => h⟩
  · cases hb.symm.trans h
    exact ⟨Nat.le_add_right _ _, fun _ h => h⟩

theorem step_spends (ho : context.document.Occurs p site)
    (h : resolveStep context r site s = some (type, t)) : Spends context place site s t := by
  classical
  have stuck : ∀ {route : Route}, site.schema.route = route →
      (site.schema.reference ≠ none ∨ site.next? context.document = none) →
      (∀ values, route ≠ .enumeration values) → ¬ site.Contains context.document place := by
    rintro _ rfl hs hne hc
    rw [← hc.eq_of_stuck hs] at hplace
    exact hne _ hplace
  have inner : ∀ {b other u answer}, site.schema.reference = none →
      (∀ values, site.schema.route ≠ .enumeration values) →
      context.document.Occurs (p.child b) other → site.next? context.document = some other →
      Notes s u → r other u = some (answer, t) → Spends context place site s t := by
    intro b other u answer href hne ho hx hnotes hu
    have hspends := (hr _ _ _ _ hu).2 _ ho
    have hback : other.Contains context.document place → site.Contains context.document place :=
      ReflTransGen.head ⟨href, hx⟩
    refine ⟨?_, fun hc hp => ?_⟩
    · have hle := hspends.quota.trans (Nat.add_le_add_right (Notes.quota_le hnotes) _)
      by_cases hc : other.Contains context.document place
      · rw [if_pos hc] at hle
        rwa [if_pos (hback hc)]
      · rw [if_neg hc] at hle
        exact hle.trans (Nat.le_add_right _ _)
    · have hsite : site ≠ place := by
        rintro rfl
        exact hne _ hplace
      exact (Notes.spends hnotes).passed hc (hspends.passed (hc.next hsite hx) hp)
  cases resolveStep_takes h with
  | refused h => exact h.notes.spends
  | @reference text _ _ _ href hp h =>
    refine .of_quota_le ?_ (definition_quota hn hr hi hplace hinv h)
    exact stuck (Schema.route_of_reference href) (.inl (by simp [href])) nofun
  | enum href hl h => exact enum_spends hn hi hplace ho h
  | sequence hroute hitems h =>
    exact inner (Schema.array_of_route hroute).1.reference (by simp [hroute])
      (ho.items hroute hitems) (Site.next?_array hroute hitems) (noteClash_notes ..) h
  | anything hroute => exact ⟨Nat.le_add_right _ _, fun _ h => h⟩
  | dictionary hroute h =>
    exact inner (Schema.dictionary_of_route hroute).1.reference (by simp [hroute])
      (ho.value hroute) (Site.next?_dictionary hroute) (.refl s) h
  | inline hs h =>
    have hno := stuck (Schema.route_eq_composite_iff.mpr hs)
      (.inr (Site.next?_composite hs)) nofun
    obtain ⟨d, -, -, rfl⟩ | ⟨id, -, -, -, rfl⟩ | ⟨hk, -, hp⟩ := buildInline_cases h
    · exact .of_quota_le hno (Notes.report d s).quota_le
    · exact .of_quota_le hno (Nat.le_refl _)
    · refine .of_quota_le hno (entered_quota hn hr hi ho hs hplace hinv.keyed hk ?_ ?_ ?_ ?_ hp)
      · simp only [Catalog.nameOf, State.withStub, Catalog.composite?_addComposite_self]
        rfl
      · exact registered_withStub ..
      · rfl
      · exact quota_withStub ..
  | scalar _ _ ha => exact ha.notes.spends

end Steps

theorem thrifty_within (hn : context.document.NamesOnce) (hi : context.document.Occurs q place)
    {listed : List Json} (hplace : place.schema.route = .enumeration listed) (last : State) :
    Thrifty context place last ((Scene.ofBuild context).within last) := by
  intro site s type t h
  have hw := Scene.of_within h
  refine ⟨hw, Scene.induct (P := fun site s _ t => ∀ p, context.document.Occurs p site →
    Spends context place site s t) (fun r site s type t hw hr ht p ho => ?_) hw⟩
  exact step_spends hn (fun _ _ _ _ h' => hr _ _ _ _ h') hi hplace hw.inv ho ht

theorem definitions_quota (hn : context.document.NamesOnce)
    (hi : context.document.Occurs q place) {listed : List Json}
    (hplace : place.schema.route = .enumeration listed) {names : List String}
    (hinv : (Scene.ofBuild context).Inv s)
    (h : resolveDefinitions context (resolveSite context) names s = some ((), t)) :
    quota context place t ≤ quota context place s := by
  refine resolveDefinitions_induct (fun u => quota context place u ≤ quota context place s) ?_
    hinv (Nat.le_refl _) h
  intro name v type u _ hinv hwithin _ _ hv
  exact (definition_quota hn (thrifty_within hn hi hplace u) hi hplace hinv hwithin).trans hv

/-- Where an enum without a name comes from. -/
theorem exists_place_of_anonymous {origin : String} {values : List EnumValue}
    (h : Shaped context site (.anonymous origin values)) (ho : context.document.Occurs p site) :
    ∃ q place listed, context.document.Occurs q place ∧
      place.schema.route = .enumeration listed ∧ place.pointer.text = origin := by
  generalize hshape : Shape.anonymous origin values = shape at h
  induction h generalizing p with
  | reference hr hp hd _ ih => exact ih (.definition (Scene.get?_of_definition? hd)) hshape
  | anonymous hr =>
    cases hshape
    exact ⟨_, _, _, ho, hr, rfl⟩
  | _ => cases hshape

theorem two_le_countP {α : Type} {l : List α} {f : α → Bool} {i j : Nat} {a b : α} (hij : i < j)
    (ha : l[i]? = some a) (hb : l[j]? = some b) (hfa : f a = true) (hfb : f b = true) :
    2 ≤ l.countP f := by
  have hsplit : l.countP f = (l.take j).countP f + (l.drop j).countP f := by
    rw [← List.countP_append, List.take_append_drop]
  have hbefore : 0 < (l.take j).countP f :=
    List.countP_pos_iff.mpr ⟨a, List.mem_of_getElem? (by rw [List.getElem?_take, if_pos hij, ha]),
      hfa⟩
  have hafter : 0 < (l.drop j).countP f :=
    List.countP_pos_iff.mpr ⟨b, List.mem_of_getElem? (i := 0) (by simpa using hb), hfb⟩
  omega

/-- A resolution of definitions makes no two enums without a name at one place. -/
theorem originsOnce_of_resolveDefinitions (hn : context.document.NamesOnce)
    (hf : Fits context context.document.HasSite t) {names : List String}
    (h : resolveDefinitions context (resolveSite context) names
      (Build.reportMalformed context.document {}).2 = some ((), t)) : t.catalog.OriginsOnce := by
  intro i j x y hx hy hxn hyn horigin
  obtain ⟨site, shape, ⟨p, ho⟩, hs, hdenotes⟩ := hf.enums hx
  obtain rfl := hdenotes.shape_unique (.anonymous hx hxn)
  obtain ⟨q, place, listed, hi, hplace, htext⟩ := exists_place_of_anonymous hs ho
  have hquota := definitions_quota hn hi hplace (Scene.inv_reportMalformed context) h
  have hstart : quota context place (Build.reportMalformed context.document {}).2 ≤ 1 := by
    have hmade : made place (Build.reportMalformed context.document {}).2 = 0 := by
      rw [made, (Scene.reportMalformed_notes context.document {}).catalog_eq]
      rfl
    unfold quota
    rw [hmade]
    split_ifs <;> omega
  have hle : made place t ≤ 1 := made_le_quota.trans (hquota.trans hstart)
  by_contra hne
  have hcount : ∀ {i j : Nat} {x y : EnumType}, i < j → t.catalog.enums[i]? = some x →
      t.catalog.enums[j]? = some y → x.name = none → y.name = none →
      x.origin = place.pointer.text → y.origin = place.pointer.text → False := by
    intro i j x y hij hx hy hxn hyn hxo hyo
    have := two_le_countP (f := fun e => e.name.isNone && e.origin == place.pointer.text) hij hx hy
      (by simp [hxn, hxo]) (by simp [hyn, hyo])
    exact absurd hle (by unfold made; omega)
  obtain ⟨i⟩ := i
  obtain ⟨j⟩ := j
  rcases Nat.lt_trichotomy i j with hij | rfl | hij
  · exact hcount hij hx hy hxn hyn htext.symm (horigin.symm.trans htext.symm)
  · exact hne rfl
  · exact hcount hij hy hx hyn hxn (horigin.symm.trans htext.symm) htext.symm

end Resolution

end ApiModel
