import ApiModel.Proofs.Course

/-! # A definition fails or it has a type

A definition that is being resolved may be resolved again from inside an object type, and one of
the two calls might fail. It does not: the object type that was entered is registered, so each call
gets to it and has a type. Hence no definition is remembered with a type and marked as failed.
-/

namespace ApiModel.Resolution

open Text (caseKey)
open Relation (ReflTransGen TransGen)
open Scene (get?_of_definition?)

variable {context : Context} {S : Scene} {r : Resolver} {s t u last : State} {site site' : Site}

/-- A step from a schema to the next one. A definition is gone into under its own key, unless it
has failed. -/
inductive Goes (context : Context) (s : State) : Site → Site → Prop where
  | inside {site site' : Site} (hr : site.schema.reference = none)
      (hx : site.next? context.document = some site') : Goes context s site site'
  | definition {site : Site} {text name canonical : String} {schema : Schema}
      (hr : site.schema.reference = some text)
      (hp : Reference.parse? text = some ⟨.definitions, name⟩)
      (hd : context.document.definition? name = some (canonical, schema))
      (hc : Fields.get? s.claimed (caseKey canonical) = some canonical)
      (hf : caseKey canonical ∉ s.failed) : Goes context s site (definitionSite canonical schema)

theorem Goes.next?_eq (h : Goes context s site site') :
    site.next? context.document = some site' := by
  cases h with
  | inside _ hx => exact hx
  | definition hr hp hd => rw [Site.next?_reference hr hp, hd]; rfl

theorem Goes.mono (hc : ∀ {key name}, Fields.get? s.claimed key = some name →
      Fields.get? t.claimed key = some name) (hf : t.failed = s.failed)
    (h : Goes context s site site') : Goes context t site site' := by
  cases h with
  | inside hr hx => exact .inside hr hx
  | definition hr hp hd hcl hn => exact .definition hr hp hd (hc hcl) (hf ▸ hn)

def Registered (c : Catalog) (site : Site) : Prop :=
  ∃ id composite, c.composite? id = some composite ∧
    caseKey composite.name = caseKey site.name ∧ composite.origin = site.pointer.text

theorem Registered.mono {c d : Catalog} (h : Registered c site) (hg : c.Grows d) :
    Registered d site := by
  obtain ⟨id, composite, hc, hn, ho⟩ := h
  obtain ⟨later, hl, hn', ho'⟩ := hg.composites hc
  exact ⟨id, later, hl, by rw [hn', hn], by rw [ho', ho]⟩

theorem registered_withStub (name : String) (pointer : Pointer) (s : State) (schema : Schema)
    (owner : String) :
    Registered (s.withStub name pointer).catalog ⟨schema, name, pointer, owner⟩ :=
  ⟨_, _, Catalog.composite?_addComposite_self .., rfl, rfl⟩

theorem Registered.not_clash {name : String} {pointer : Pointer} {schema : Schema}
    {owner : String} (h : Registered s.catalog ⟨schema, name, pointer, owner⟩)
    (hk : s.catalog.Keyed) (d : Defect) : registerComposite name pointer s ≠ fail d s := by
  obtain ⟨id, composite, hc, hn, ho⟩ := h
  rw [registerComposite_known ((hk name id).mpr ⟨composite, hc, hn⟩) (by rw [hc]; exact ho)]
  exact fun he => nomatch congrArg Prod.fst he

/-- From the site there is a way to an object type that is registered. -/
inductive Leads (context : Context) (s : State) : Site → Prop where
  | object {site : Site} (hs : site.schema.isComposite = true)
      (h : Registered s.catalog site) : Leads context s site
  | step {site site' : Site} (hg : Goes context s site site') (h : Leads context s site') :
      Leads context s site

namespace Leads

theorem of_path (h : ReflTransGen (Goes context s) site site') (hl : Leads context s site') :
    Leads context s site := by
  induction h using ReflTransGen.head_induction_on with
  | refl => exact hl
  | head hg _ ih => exact .step hg ih

theorem registered (h : Leads context s site) (hs : site.schema.isComposite = true) :
    Registered s.catalog site := by
  cases h with
  | object _ h => exact h
  | step hg => exact nomatch hg.next?_eq.symm.trans (Site.next?_composite hs)

/-- A way to an object type does not come round to where it starts. -/
theorem not_round (h : Leads context s site) : ¬ TransGen (Goes context s) site site := by
  induction h with
  | object hs =>
    intro hround
    obtain ⟨_, hg, -⟩ := TransGen.head'_iff.mp hround
    exact nomatch hg.next?_eq.symm.trans (Site.next?_composite hs)
  | step hg _ ih =>
    intro hround
    obtain ⟨_, hg', hback⟩ := TransGen.head'_iff.mp hround
    obtain rfl := Option.some.inj (hg.next?_eq.symm.trans hg'.next?_eq)
    exact ih (TransGen.tail' hback hg)

theorem next (h : Leads context s site) (hx : site.next? context.document = some site') :
    Leads context s site' := by
  cases h with
  | object hs => exact nomatch hx.symm.trans (Site.next?_composite hs)
  | step hg h =>
    obtain rfl := Option.some.inj (hg.next?_eq.symm.trans hx)
    exact h

theorem referred {text name : String} (h : Leads context s site)
    (hr : site.schema.reference = some text)
    (hp : Reference.parse? text = some ⟨.definitions, name⟩) :
    ∃ canonical schema, context.document.definition? name = some (canonical, schema) ∧
      Fields.get? s.claimed (caseKey canonical) = some canonical ∧
      caseKey canonical ∉ s.failed := by
  cases h with
  | object hs => simp [Schema.isComposite, hr] at hs
  | step hg =>
    cases hg with
    | inside hn => cases hn.symm.trans hr
    | definition hr' hp' hd hc hf =>
      obtain rfl := Option.some.inj (hr.symm.trans hr')
      cases hp.symm.trans hp'
      exact ⟨_, _, hd, hc, hf⟩

theorem next?_or (h : Leads context s site) : site.schema.isComposite = true ∨
    ∃ site', site.next? context.document = some site' := by
  cases h with
  | object hs => exact .inl hs
  | step hg => exact .inr ⟨_, hg.next?_eq⟩

end Leads

def Leading (context : Context) (s : State) (key : String) : Prop :=
  ∃ name schema, caseKey name = key ∧ Fields.get? s.claimed key = some name ∧
    Fields.get? context.document.definitions name = some schema ∧ key ∉ s.failed ∧
    Leads context s (definitionSite name schema)

theorem Leading.leads {name : String} {schema : Schema} (h : Leading context s (caseKey name))
    (hc : Fields.get? s.claimed (caseKey name) = some name)
    (hd : Fields.get? context.document.definitions name = some schema) :
    Leads context s (definitionSite name schema) := by
  obtain ⟨other, schema', -, hc', hd', -, hl⟩ := h
  obtain rfl := Option.some.inj (hc.symm.trans hc')
  obtain rfl := Option.some.inj (hd.symm.trans hd')
  exact hl

def State.Consistent (s : State) : Prop := ∀ key ∈ s.failed, Fields.get? s.resolved key = none

/-- No definition fails that leads to an object type, and none that has a type. -/
structure Spares (context : Context) (s t : State) : Prop extends Grows s t where
  leading : ∀ {key}, Leading context s key → key ∉ t.failed
  consistent : s.Consistent → t.Consistent

theorem Leads.mono (h : Spares context s t) (hl : Leads context s site) :
    Leads context t site := by
  induction hl with
  | object hs h' => exact .object hs (h'.mono h.catalog)
  | step hg hl ih =>
    refine .step ?_ ih
    cases hg with
    | inside hr hx => exact .inside hr hx
    | definition hr hp hd hc hf =>
      exact .definition hr hp hd (h.claimed hc)
        (h.leading ⟨_, _, rfl, hc, get?_of_definition? hd, hf, hl⟩)

theorem Leading.mono {key : String} (h : Spares context s t) (hl : Leading context s key) :
    Leading context t key := by
  have hf := h.leading hl
  obtain ⟨name, schema, hk, hc, hd, -, hl⟩ := hl
  exact ⟨name, schema, hk, h.claimed hc, hd, hf, hl.mono h⟩

namespace Spares

theorem of_eq (h : Grows s t) (hr : t.resolved = s.resolved) (hf : t.failed = s.failed) :
    Spares context s t where
  toGrows := h
  leading hl := by
    obtain ⟨_, _, -, -, -, hn, -⟩ := hl
    rwa [hf]
  consistent hc := by
    intro key hk
    rw [hr]
    exact hc key (hf ▸ hk)

theorem refl (s : State) : Spares context s s := of_eq (.refl s) rfl rfl

theorem notes (h : Notes s t) : Spares context s t := of_eq h.grows h.resolved_eq h.failed_eq

theorem trans (h : Spares context s t) (h' : Spares context t u) : Spares context s u where
  toGrows := h.toGrows.trans h'.toGrows
  leading hl := h'.leading (hl.mono h)
  consistent hc := h'.consistent (h.consistent hc)

theorem popped {f : Frame} (h : Spares context (push f s).2 t) : Spares context s (pop t).2 :=
  (of_eq (push_grows f s) rfl rfl).trans (h.trans (of_eq (pop_grows t) rfl rfl))

theorem remember {key : String} {type : ModelType} (hf : key ∉ s.failed)
    (hg : Grows s (remember key type s).2) : Spares context s (remember key type s).2 where
  toGrows := hg
  leading hl := by
    obtain ⟨_, _, -, -, -, hn, -⟩ := hl
    exact hn
  consistent hc := by
    intro other ho
    have hne : key ≠ other := by
      rintro rfl
      exact hf ho
    exact ((Fields.get?_set ..).trans (if_neg hne)).trans (hc other ho)

theorem markFailed {key : String} (hn : Fields.get? s.resolved key = none)
    (hl : ¬ Leading context s key) : Spares context s (markFailed key s).2 where
  toGrows := markFailed_grows key s
  leading {other} ho := by
    rintro (_ | ⟨_, hm⟩)
    · exact hl ho
    · obtain ⟨_, _, -, -, -, hf, -⟩ := ho
      exact hf hm
  consistent hc := by
    rintro other (_ | ⟨_, hm⟩)
    · exact hn
    · exact hc other hm

end Spares

theorem remember_grows {key : String} (type : ModelType)
    (hn : Fields.get? s.resolved key = none) : Grows s (remember key type s).2 := by
  refine ⟨.refl _, fun {other old} ho => ?_, id, fun _ h => h, List.prefix_refl _⟩
  have hne : key ≠ other := by
    rintro rfl
    exact nomatch hn.symm.trans ho
  exact ((Fields.get?_set ..).trans (if_neg hne)).trans ho

theorem mem_recent {frames : List Frame} {key : String} (h : comesRound frames key = true) :
    Frame.definition key ∈ recent frames := by
  induction frames with
  | nil => simp [comesRound] at h
  | cons f rest ih =>
    cases f with
    | composite => simp [comesRound] at h
    | definition k =>
      by_cases hk : k = key
      · simp [recent, hk]
      · have hr : comesRound rest key = true := by simpa [comesRound, hk, Ne.symm hk] using h
        simpa [recent, hk, Ne.symm hk] using ih hr

namespace Scene

/-- The definitions that are being resolved since the last object type was entered have their keys
and have not failed, and there are ways from them to where the resolution is. -/
def Trail (S : Scene) (s : State) (way : Site → Prop) : Prop :=
  ∀ key, Frame.definition key ∈ recent s.frames → key ∉ s.failed ∧ ∃ name schema,
    caseKey name = key ∧ Fields.get? s.claimed key = some name ∧
      Fields.get? S.context.document.definitions name = some schema ∧
      way (definitionSite name schema)

/-- What a call does to the outcomes of definitions. If it yields a type, then no definition fails
that is being resolved since the last object type was entered. -/
structure Tidy (S : Scene) (s : State) (type : Option ModelType) (t : State) : Prop where
  spares : Spares S.context s t
  lost : type = none → t.resolved = s.resolved
  found : type ≠ none → ∀ {key}, Frame.definition key ∈ recent s.frames → key ∉ t.failed

def Tidies (S : Scene) (last : State) (r : Resolver) : Prop :=
  ∀ site s type t, r site s = some (type, t) → S.Within last site s type t ∧
    (S.Trail s (ReflTransGen (Goes S.context s) · site) →
      S.Tidy s type t ∧ (type = none → ¬ Leads S.context t site))

section

variable {way : Site → Prop} {type : Option ModelType}

theorem Trail.of_recent (h : recent s.frames = []) : S.Trail s way := fun _ hk => by simp [h] at hk

theorem Trail.imp {way' : Site → Prop} (h : S.Trail s way) (hw : ∀ site, way site → way' site) :
    S.Trail s way' := by
  intro key hk
  obtain ⟨hf, name, schema, hn, hc, hd, hway⟩ := h _ hk
  exact ⟨hf, name, schema, hn, hc, hd, hw _ hway⟩

theorem Trail.mono (h : S.Trail s way) (hr : t.frames = s.frames) (hf : t.failed = s.failed)
    (hc : ∀ {key name}, Fields.get? s.claimed key = some name →
      Fields.get? t.claimed key = some name) : S.Trail t way := by
  intro key hk
  rw [hr] at hk
  obtain ⟨hn, name, schema, hname, hclaimed, hrest⟩ := h _ hk
  exact ⟨hf ▸ hn, name, schema, hname, hc hclaimed, hrest⟩

theorem Trail.enter {name : String} {schema : Schema}
    (h : S.Trail s fun site => caseKey name ∉ s.failed →
      TransGen (Goes S.context s) site (definitionSite name schema))
    (hc : Fields.get? s.claimed (caseKey name) = some name)
    (hd : Fields.get? S.context.document.definitions name = some schema)
    (hf : caseKey name ∉ s.failed) : S.Trail (push (.definition (caseKey name)) s).2
      (ReflTransGen (Goes S.context (push (.definition (caseKey name)) s).2) ·
        (definitionSite name schema)) := by
  have hgoes : ∀ a b, Goes S.context s a b →
      Goes S.context (push (.definition (caseKey name)) s).2 a b := fun _ _ => Goes.mono id rfl
  have hrecent : ∀ key, Frame.definition key ∈ recent (.definition (caseKey name) :: s.frames) →
      key = caseKey name ∨ Frame.definition key ∈ recent s.frames := by simp [recent]
  intro key hk
  rcases hrecent key hk with rfl | hk
  · exact ⟨hf, name, schema, rfl, hc, hd, .refl⟩
  · obtain ⟨hkf, name', schema', hn, hc', hd', hway⟩ := h _ hk
    exact ⟨hkf, name', schema', hn, hc', hd',
      ReflTransGen.mono hgoes _ _ (hway hf).to_reflTransGen⟩

theorem Tidy.notes (hn : Notes s t) (h : S.Trail s way) : S.Tidy s type t where
  spares := .notes hn
  lost _ := hn.resolved_eq
  found _ _ hk := hn.failed_eq ▸ (h _ hk).1

theorem Tidy.after (hn : Notes s t) (h : S.Tidy t type u) : S.Tidy s type u where
  spares := .trans (.notes hn) h.spares
  lost hx := (h.lost hx).trans hn.resolved_eq
  found hx _ hk := h.found hx (hn.frames_eq ▸ hk)

theorem Tidy.map (h : S.Tidy s type t) (f : ModelType → ModelType) :
    S.Tidy s (type.map f) t where
  spares := h.spares
  lost hx := h.lost (Option.map_eq_none_iff.mp hx)
  found hx := h.found fun hn => hx (by rw [hn]; rfl)

theorem populate_spares (hr : S.Tidies last r) {id : CompositeId} {schema : Schema}
    {pointer : Pointer} (h : populate S.context r id schema pointer s = some ((), t)) :
    Spares S.context s t := by
  have hcall : ∀ site u type v, Spares S.context s u ∧ u.frames = .composite :: s.frames →
      r site u = some (type, v) → Spares S.context s v ∧ v.frames = .composite :: s.frames := by
    rintro site u type v ⟨hu, hf⟩ hv
    obtain ⟨hw, htidy⟩ := hr _ _ _ _ hv
    -- Inside an object type no definition is open.
    have htrail : S.Trail u (ReflTransGen (Goes S.context u) · site) :=
      Trail.of_recent (by rw [hf]; rfl)
    exact ⟨hu.trans (htidy htrail).1.spares, hw.later.frames.trans hf⟩
  obtain ⟨properties, base, value, u, ⟨hu, -⟩, rfl⟩ := populate_induct _ hcall
    (fun ⟨hu, hf⟩ ha => ⟨hu.trans (.notes ha.notes), ha.notes.frames_eq.trans hf⟩)
    ⟨.of_eq (push_grows _ s) rfl rfl, rfl⟩ h
  exact hu.trans ((Spares.of_eq (fillIn_grows ..) rfl rfl).trans (.of_eq (pop_grows _) rfl rfl))

/-- An object type that has been registered is filled in. The definitions that led to it do not
fail meanwhile. -/
theorem opened_tidy (hr : S.Tidies last r) {id : CompositeId} (site : Site)
    (hs : site.schema.isComposite = true) (hreg : Registered t.catalog site)
    (hst : Spares S.context s t) (hclaimed : t.claimed = s.claimed)
    (hfailed : t.failed = s.failed)
    (htrail : S.Trail s (ReflTransGen (Goes S.context s) · site))
    (h : populate S.context r id site.schema site.pointer t = some ((), u)) {x : ModelType} :
    S.Tidy s (some x) u where
  spares := hst.trans (populate_spares hr h)
  lost hx := nomatch hx
  found _ key hk := by
    obtain ⟨hf, name, schema, hn, hc, hd, hway⟩ := htrail _ hk
    refine (populate_spares hr h).leading ⟨name, schema, hn, hclaimed ▸ hc, hd, hfailed ▸ hf, ?_⟩
    have hgoes : ∀ a b, Goes S.context s a b → Goes S.context t a b :=
      fun _ _ => Goes.mono (fun hc => hclaimed ▸ hc) hfailed
    exact Leads.of_path (ReflTransGen.mono hgoes _ _ hway) (.object hs hreg)

theorem settles_tidy (hr : S.Tidies last r) (hi : S.Inv s) {name : String} {schema : Schema}
    (hc : Fields.get? s.claimed (caseKey name) = some name)
    (hd : Fields.get? S.context.document.definitions name = some schema)
    (htrail : S.Trail s fun site => caseKey name ∉ s.failed →
      TransGen (Goes S.context s) site (definitionSite name schema))
    (h : Settles S.context r name schema s type t) :
    S.Tidy s type t ∧ (type = none → caseKey name ∈ t.failed) := by
  cases h with
  | remembered =>
    exact ⟨⟨.refl s, nofun, fun _ _ hk => (htrail _ hk).1⟩, nofun⟩
  | failed _ hf => exact ⟨⟨.refl s, fun _ => rfl, nofun⟩, fun _ => hf⟩
  | @clash d hn _ hs hreg =>
    have hnotes := Notes.report d s
    refine ⟨⟨.trans (.notes hnotes) (.markFailed hn fun hl => ?_), fun _ => rfl, nofun⟩,
      fun _ => List.mem_cons_self ..⟩
    have hleads : Leads S.context (report d s).2 (definitionSite name schema) := hl.leads hc hd
    have hreg' : Registered s.catalog (definitionSite name schema) := hleads.registered hs
    exact hreg'.not_clash hi.keyed d hreg
  | known hn hf _ _ _ =>
    exact ⟨⟨.remember hf (remember_grows _ hn), nofun, fun _ _ hk => (htrail _ hk).1⟩, nofun⟩
  | opened hn hf hs hk hp =>
    have hstub : Spares S.context s (s.withStub name (Pointer.definition name)) :=
      .of_eq (withStub_grows ..) rfl rfl
    refine ⟨opened_tidy hr (definitionSite name schema) hs ?_
      (hstub.trans (.remember hf (remember_grows _ hn))) rfl rfl
      (htrail.imp fun _ hway => (hway hf).to_reflTransGen) hp, nofun⟩
    exact registered_withStub name (Pointer.definition name) s schema name
  | round hn hf _ hround =>
    obtain ⟨-, name', schema', -, hc', hd', hway⟩ := htrail _ (mem_recent hround)
    obtain rfl := Option.some.inj (hc.symm.trans hc')
    obtain rfl := Option.some.inj (hd.symm.trans hd')
    refine ⟨⟨.trans (.markFailed hn fun hl => ?_) (.notes (.report _ _)), fun _ => rfl, nofun⟩,
      fun _ => List.mem_cons_self ..⟩
    exact (hl.leads hc hd).not_round (hway hf)
  | @lost u hn hf _ _ hu =>
    obtain ⟨hw, htidy⟩ := hr _ _ _ _ hu
    obtain ⟨htidy, hleads⟩ := htidy (htrail.enter hc hd hf)
    have hback : Spares S.context (pop u).2 u :=
      .of_eq ⟨.refl _, id, id, fun _ h => h, List.prefix_refl _⟩ rfl rfl
    have hresolved : u.resolved = s.resolved := htidy.lost rfl
    refine ⟨⟨htidy.spares.popped.trans (.markFailed ?_ fun hl => ?_), htidy.lost, nofun⟩,
      fun _ => List.mem_cons_self ..⟩
    · exact (congrArg (Fields.get? · _) hresolved).trans hn
    · exact hleads rfl ((hl.leads (htidy.spares.claimed hc) hd).mono hback)
  | @found x u hn hf _ hround hu =>
    obtain ⟨hw, htidy⟩ := hr _ _ _ _ hu
    obtain ⟨htidy, -⟩ := htidy (htrail.enter hc hd hf)
    have hkept : ∀ {key}, Frame.definition key ∈ recent (.definition (caseKey name) :: s.frames) →
        key ∉ u.failed := htidy.found (Option.some_ne_none x)
    have hg := (remember_yields hround hc hd hn hw.yields).1.toGrows
    refine ⟨⟨htidy.spares.popped.trans (.remember (hkept (by simp [recent])) hg), nofun,
      fun _ _ hk => hkept ?_⟩, nofun⟩
    simp only [recent, List.takeWhile_cons]
    exact List.mem_cons_of_mem _ hk

/-- What a definition does is what its schema does, if its key is its own. -/
theorem definition_tidy (hr : S.Tidies last r) (hi : S.Inv s) {name owner : String}
    {pointer : Pointer}
    (htrail : S.Trail s fun site => ∃ site' text, site'.schema.reference = some text ∧
      Reference.parse? text = some ⟨.definitions, name⟩ ∧
      ReflTransGen (Goes S.context s) site site')
    (h : resolveDefinition S.context r name pointer owner s = some (type, t)) :
    S.Tidy s type t ∧ (type = none → ∀ canonical schema,
      S.context.document.definition? name = some (canonical, schema) →
      Fields.get? t.claimed (caseKey canonical) = some canonical →
        caseKey canonical ∈ t.failed) := by
  obtain ⟨hnone, rfl, hn⟩ | ⟨canonical, schema, hd, ⟨d, hk, rfl, rfl⟩ | ⟨u, hk, hs⟩⟩ :=
    resolveDefinition_cases h
  · refine ⟨?_, fun _ _ _ hd => nomatch hnone.symm.trans hd⟩
    obtain ⟨-, rfl⟩ | rfl := hn
    · exact .notes (.refl t) htrail
    · exact .notes (.report _ s) htrail
  · refine ⟨.notes (.report d s) htrail, fun _ canonical' schema' hd' hc => ?_⟩
    cases hd.symm.trans hd'
    obtain ⟨first, hfirst, hne⟩ := claimKey_taken hk
    exact (hne (Option.some.inj (hfirst.symm.trans hc))).elim
  · have hget := get?_of_definition? hd
    obtain ⟨hi, hc⟩ := inv_of_claimKey hi hk
    obtain ⟨hframes, hresolved, hfailed⟩ := claimKey_kept hk
    have hg : Grows s u := by simpa only [hk] using claimKey_grows canonical s
    have hgoes : ∀ a b, Goes S.context s a b → Goes S.context u a b :=
      fun _ _ => Goes.mono hg.claimed hfailed
    -- The reference is the last step of the ways that lead to it.
    have hway : S.Trail u fun site => caseKey canonical ∉ u.failed →
        TransGen (Goes S.context u) site (definitionSite canonical schema) := by
      refine (htrail.mono hframes hfailed hg.claimed).imp fun site hsite hf => ?_
      obtain ⟨site', text, hr, hp, hway⟩ := hsite
      exact TransGen.tail' (ReflTransGen.mono hgoes _ _ hway) (.definition hr hp hd hc hf)
    obtain ⟨htidy, hlost⟩ := settles_tidy hr hi hc hget hway hs
    refine ⟨⟨(Spares.of_eq hg hresolved hfailed).trans htidy.spares,
      fun hx => (htidy.lost hx).trans hresolved,
      fun hx _ hk => htidy.found hx (hframes ▸ hk)⟩, fun hx _ _ hd' _ => ?_⟩
    cases hd.symm.trans hd'
    exact hlost hx

theorem step_tidy (hr : S.Tidies last r) (hi : S.Inv s)
    (hs : S.Stands site.pointer site.schema)
    (htrail : S.Trail s (ReflTransGen (Goes S.context s) · site))
    (h : resolveStep S.context r site s = some (type, t)) :
    S.Tidy s type t ∧ (type = none → ¬ Leads S.context t site) := by
  have inside : ∀ {site' u type t}, site.schema.reference = none →
      site.next? S.context.document = some site' → Notes s u → r site' u = some (type, t) →
      S.Tidy s type t ∧ (type = none → ¬ Leads S.context t site) := by
    intro site' u type t hn hx hnotes ht
    have hgoes : ∀ a b, Goes S.context s a b → Goes S.context u a b :=
      fun _ _ => Goes.mono (fun hc => hnotes.claimed_eq ▸ hc) hnotes.failed_eq
    obtain ⟨htidy, hleads⟩ := (hr _ _ _ _ ht).2 <|
      (htrail.mono hnotes.frames_eq hnotes.failed_eq hnotes.grows.claimed).imp fun a ha =>
        ReflTransGen.tail (ReflTransGen.mono hgoes _ _ ha) (.inside hn hx)
    exact ⟨htidy.after hnotes, fun ht hl => hleads ht (hl.next hx)⟩
  cases resolveStep_takes h with
  | refused hrefused =>
    refine ⟨.notes hrefused.notes htrail, fun _ hl => ?_⟩
    rcases hl.next?_or with hs | ⟨site', hx⟩
    · exact nomatch hrefused.isComposite_eq.symm.trans hs
    · exact nomatch hrefused.next?_eq.symm.trans hx
  | reference hr' hp hd =>
    obtain ⟨htidy, hlost⟩ := definition_tidy hr hi
      (htrail.imp fun _ hway => ⟨site, _, hr', hp, hway⟩) hd
    refine ⟨htidy, fun ht hl => ?_⟩
    obtain ⟨canonical, schema, hfound, hc, hf⟩ := hl.referred hr' hp
    exact hf (hlost ht canonical schema hfound hc)
  | enum hr' hl hb =>
    have hg := (buildEnum_keeps hi hs hr' hl).reaches.later.toGrows
    rw [hb] at hg
    have hsame : t.resolved = s.resolved ∧ t.failed = s.failed := by
      obtain ⟨d, hb'⟩ | ⟨values, -, ⟨-, hb'⟩ | ⟨extension, -, ⟨-, hb'⟩ | ⟨id, -, -, hb'⟩⟩⟩ :=
        buildEnum_cases S.context.settings site _ s
      all_goals cases hb.symm.trans hb'
      all_goals exact ⟨rfl, rfl⟩
    exact ⟨⟨.of_eq hg hsame.1 hsame.2, nofun, fun _ _ hk => hsame.2 ▸ (htrail _ hk).1⟩, nofun⟩
  | sequence hroute hitems ht =>
    have hp := (Schema.array_of_route hroute).1
    obtain ⟨htidy, hleads⟩ := inside hp.1 (Site.next?_array hroute hitems)
      (noteClash_notes ..) ht
    exact ⟨htidy.map _, fun ht => hleads (Option.map_eq_none_iff.mp ht)⟩
  | anything => exact ⟨.notes (.refl s) htrail, nofun⟩
  | dictionary hroute ht =>
    have hp := (Schema.dictionary_of_route hroute).1
    obtain ⟨htidy, hleads⟩ := inside hp.1 (Site.next?_dictionary hroute) (.refl s) ht
    exact ⟨htidy.map _, fun ht => hleads (Option.map_eq_none_iff.mp ht)⟩
  | inline hs hb =>
    obtain ⟨d, hreg, rfl, rfl⟩ | ⟨id, -, -, rfl, rfl⟩ | ⟨-, rfl, hp⟩ := buildInline_cases hb
    · refine ⟨.notes (.report d s) htrail, fun _ hl => ?_⟩
      have hreg' : Registered s.catalog site := hl.registered hs
      exact hreg'.not_clash hi.keyed d hreg
    · exact ⟨.notes (.refl t) htrail, nofun⟩
    · have hstub : Spares S.context s (s.withStub site.name site.pointer) :=
        .of_eq (withStub_grows ..) rfl rfl
      exact ⟨opened_tidy hr site hs (registered_withStub ..) hstub rfl rfl htrail hp, nofun⟩
  | scalar _ _ ha => exact ⟨.notes ha.notes htrail, nofun⟩

end

theorem tidies_within (S : Scene) (last : State) : S.Tidies last (S.within last) := by
  intro site s type t h
  have hw := of_within h
  refine ⟨hw, induct (P := fun site s type t =>
    S.Trail s (ReflTransGen (Goes S.context s) · site) →
      S.Tidy s type t ∧ (type = none → ¬ Leads S.context t site)) ?_ hw⟩
  intro r site s type t hw hr ht htrail
  exact step_tidy hr hw.inv hw.stands htrail ht

end Scene

end ApiModel.Resolution
