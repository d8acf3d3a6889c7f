import ApiModel.Grammars
import ApiModel.Proofs.Course
import ApiModel.Proofs.NamedEnums
import ApiModel.Proofs.Overrides

/-! # Agreement of named enums

A build touches its enums only where it resolves an enumeration. The first one under a name decides
what the name stands for, and each later one is compared with it. Since the values follow from the
texts, all that have the name are in agreement unless a conflict is found.
-/

namespace ApiModel

open Text (caseKey)

/-- The enum has the name, up to case, and the values that follow from the texts. -/
structure EnumType.Is (e : EnumType) (name : String) (wires : List String) : Prop where
  named : ∃ given, e.name = some given ∧ caseKey given = caseKey name
  values : e.values = Resolution.Enumeration.valuesOf wires

namespace Resolution

open Enumeration

variable {α : Type} {context : Context} {r : Resolver} {s t last : State} {methods : List Method}

/-- Calm steps keep the property, and so do the enumerations that a build resolves. -/
structure Retained (context : Context) (I : State → Prop) : Prop where
  calm : ∀ {s t}, Calm s t → I s → I t
  enumerates : ∀ {site s type t}, Made context (.node site) s →
    Enumerates context.settings site s type t → I s → I t

theorem enumerates_of_step {site : Site} {type : Option ModelType} {listed : List Json}
    (h : site.schema.route = .enumeration listed)
    (ht : resolveStep context r site s = some (type, t)) :
    Enumerates context.settings site s type t := by
  obtain ⟨hr, hl⟩ := Schema.enumeration_of_route h
  simp only [resolveStep, h] at ht
  obtain ⟨rfl, rfl⟩ : (buildEnum context.settings site listed s).1 = type ∧
      (buildEnum context.settings site listed s).2 = t := Prod.mk.inj (Option.some.inj ht)
  exact buildEnum_enumerates hr hl s

namespace Retained

variable {I : State → Prop}

theorem node (h : Retained context I) {site : Site} {type : Option ModelType}
    (hm : Made context (.node site) s) (ht : resolveSite context site s = some (type, t)) :
    I s → I t := by
  refine Made.induct (P := fun _ s _ t => I s → I t) ?_ hm ht
  intro r site s type t hm hr ht hs
  by_cases hroute : ∃ listed, site.schema.route = .enumeration listed
  · obtain ⟨listed, hroute⟩ := hroute
    exact h.enumerates hm (enumerates_of_step hroute ht) hs
  · have hpart : Composed Calm fun r => resolveStep context r site :=
      .resolveStep (not_exists.mp hroute)
    exact hpart.preserves h.calm (fun hcall => (hr _ _ _ _ hcall).2) hs ht

theorem resolveAll (h : Retained context I) (hstart : I {})
    (hall : Build.resolveAll context (resolveSite context) {} = some (methods, last)) :
    I last := by
  refine kept_of_resolveAll I (P := fun _ s _ t => I s → I t) h.node (fun hp => hp)
    (fun ha => h.calm (.of_asides ha)) ?_ hstart hall
  intro r name s type t hr ht hs
  exact (Composed.resolveDefinition context _ _ _).calm.preserves h.calm (hr _ _ _ _) hs ht

end Retained

/-- A string enum that a build resolves, with the state that it does so from. -/
structure StringEnum (context : Context) where
  site : Site
  state : State
  wires : List String
  made : Made context (.node site) state
  lists : ListsTexts site.schema wires

structure NamedEnum (context : Context) extends StringEnum context where
  name : String
  named : CarriesName context.settings site.schema name

structure AnonymousEnum (context : Context) extends StringEnum context where
  unnamed : site.schema.extension? context.settings.enumExtension = none

def StringEnum.Becomes (a : StringEnum context) (id : EnumId) : Prop :=
  ∃ t, resolveSite context a.site a.state = some (some (.enum id), t)

/-- Two enums have one name, up to case, and different texts. -/
def NamedEnum.Conflicts (a b : NamedEnum context) : Prop :=
  caseKey a.name = caseKey b.name ∧ a.wires ≠ b.wires

def NamedEnum.entry (a : NamedEnum context) : EnumType :=
  ⟨some a.name, valuesOf a.wires, false, a.site.pointer.text⟩

/-- Every named enum comes from one that the build resolves, and every conflict from two. -/
structure Traced (context : Context) (s : State) : Prop where
  enums : ∀ e ∈ s.catalog.enums, e.name ≠ none → ∃ a : NamedEnum context, e = a.entry
  conflicts : ∀ name first second, .enumConflict name first second ∈ s.defects →
    ∃ a b : NamedEnum context, a.Conflicts b ∧ a.name = name ∧ a.site.pointer.text = first ∧
      b.site.pointer.text = second

namespace Traced

theorem empty : Traced context {} := ⟨nofun, nofun⟩

theorem calm (h : Traced context s) (hc : Calm s t) : Traced context t where
  enums e he := h.enums e (hc.enums ▸ he)
  conflicts name first second hm := h.conflicts name first second (hc.defects _ hm rfl)

theorem addEnum (h : Traced context s) {e : EnumType} {t : State}
    (he : t.catalog.enums = s.catalog.enums ++ [e]) (hd : t.defects = s.defects)
    (hname : e.name ≠ none → ∃ a : NamedEnum context, e = a.entry) : Traced context t where
  enums x hx := by
    rw [he] at hx
    rcases List.mem_append.mp hx with hx | hx
    · exact h.enums x hx
    · rw [List.mem_singleton.mp hx]
      exact hname
  conflicts := hd ▸ h.conflicts

theorem enumerates (h : Traced context s) (hk : s.catalog.EnumsKeyed) {site : Site}
    {type : Option ModelType} (hm : Made context (.node site) s)
    (ht : Enumerates context.settings site s type t) : Traced context t := by
  cases ht with
  | unlisted hd _ => exact h.calm (.report (by simp [hd]) s)
  | blank hd _ _ => exact h.calm (.report (by simp [hd]) s)
  | unnamed _ _ => exact h.addEnum rfl rfl fun hname => absurd rfl hname
  | @stored name wires hl hn _ =>
    exact h.addEnum rfl rfl fun _ => ⟨⟨⟨site, s, wires, hm, hl⟩, name, hn⟩, rfl⟩
  | found _ _ _ _ => exact h
  | @conflict name wires id old hl hn hf ho hv =>
    obtain ⟨_, given, ho', hgiven, hkey⟩ := (hk.find name id).mp hf
    obtain rfl := Option.some.inj (ho.symm.trans ho')
    obtain ⟨a, rfl⟩ := h.enums old (List.mem_of_getElem? ho) (by simp [hgiven])
    obtain rfl : a.name = given := Option.some.inj hgiven
    refine ⟨h.enums, fun name' first second hd => ?_⟩
    rcases List.mem_append.mp hd with hd | hd
    · exact h.conflicts name' first second hd
    · cases List.mem_singleton.mp hd
      have hwires : a.wires ≠ wires := fun hw => hv (congrArg valuesOf hw)
      exact ⟨a, ⟨⟨site, s, wires, hm, hl⟩, name, hn⟩, ⟨hkey, hwires⟩, rfl, rfl, rfl⟩

theorem retained (hall : Build.resolveAll context (resolveSite context) {} = some (methods, last)) :
    Retained context (Traced context) where
  calm hc h := h.calm hc
  enumerates hm ht h := h.enumerates (hm.kept hall).1.1.enums hm ht

end Traced

/-- An enum with a name is what the name stands for, or a conflict is found. -/
theorem Enumerates.named_cases {settings : Settings} {site : Site} {type : Option ModelType}
    {name : String} {wires : List String} (h : Enumerates settings site s type t)
    (hk : s.catalog.EnumsKeyed) (hl : ListsTexts site.schema wires)
    (hn : CarriesName settings site.schema name) :
    (∃ id e, type = some (.enum id) ∧ t.catalog.enum? id = some e ∧ e.Is name wires) ∨
      ∃ d ∈ t.defects, d.kind = .enumConflict := by
  cases h with
  | unlisted _ hno => exact absurd hl (hno wires)
  | blank _ _ hno => exact absurd hn (hno name)
  | unnamed _ hx =>
    obtain ⟨extension, hx', -⟩ := hn.given
    cases hx.symm.trans hx'
  | stored hl' hn' _ =>
    obtain rfl := hl.unique hl'
    obtain rfl := hn.unique hn'
    exact .inl ⟨_, _, rfl, Catalog.enum?_addEnum_self .., ⟨name, rfl, rfl⟩, rfl⟩
  | @found _ _ id hl' hn' hf hv =>
    obtain rfl := hl.unique hl'
    obtain rfl := hn.unique hn'
    obtain ⟨old, given, ho, hgiven, hkey⟩ := (hk.find name id).mp hf
    exact .inl ⟨id, old, rfl, ho, ⟨given, hgiven, hkey⟩, hv old ho⟩
  | conflict =>
    right
    exact ⟨_, List.mem_append_right _ (List.mem_singleton_self _), rfl⟩

theorem Enumerates.anonymous {settings : Settings} {site : Site} {type : Option ModelType}
    {wires : List String} (h : Enumerates settings site s type t)
    (hl : ListsTexts site.schema wires)
    (hx : site.schema.extension? settings.enumExtension = none) :
    ∃ id e, type = some (.enum id) ∧ t.catalog.enum? id = some e ∧ e.name = none ∧
      e.values = valuesOf wires := by
  have hnone : ∀ {name}, ¬CarriesName settings site.schema name := by
    rintro name ⟨⟨extension, hx', -⟩, -⟩
    cases hx.symm.trans hx'
  cases h with
  | unlisted _ hno => exact absurd hl (hno wires)
  | blank _ hsome _ => exact absurd hx hsome
  | unnamed hl' _ =>
    obtain rfl := hl.unique hl'
    exact ⟨_, _, rfl, Catalog.enum?_addEnum_self .., rfl, rfl⟩
  | stored _ hn _ | found _ hn _ _ | conflict _ hn _ _ _ => exact absurd hn hnone

namespace StringEnum

theorem enumerates (a : StringEnum context) : ∃ type t,
    resolveSite context a.site a.state = some (type, t) ∧
      Enumerates context.settings a.site a.state type t := by
  have hroute := Schema.route_of_enumeration a.lists.reference a.lists.listed
  obtain ⟨type, t, ht⟩ := resolveSite_total context a.site a.state
  refine ⟨type, t, ht, enumerates_of_step (r := resolveSite context) hroute ?_⟩
  rw [← resolveSite_eq]
  exact ht

theorem Becomes.unique {a : StringEnum context} {i j : EnumId} (hi : a.Becomes i)
    (hj : a.Becomes j) : i = j := by
  obtain ⟨t, ht⟩ := hi
  obtain ⟨u, hu⟩ := hj
  cases ht.symm.trans hu
  rfl

end StringEnum

/-- In the end an enum is what its name stands for, or a conflict has been found. -/
theorem NamedEnum.stands (a : NamedEnum context)
    (hall : Build.resolveAll context (resolveSite context) {} = some (methods, last)) :
    (∃ id e, a.Becomes id ∧ last.catalog.enum? id = some e ∧ e.Is a.name a.wires) ∨
      ∃ d ∈ last.defects, d.kind = .enumConflict := by
  obtain ⟨type, t, ht, henum⟩ := a.enumerates
  obtain ⟨⟨hi, -⟩, hgrows⟩ := a.made.kept hall
  have hlast := hgrows (map_found ht)
  rcases henum.named_cases hi.enums a.lists a.named with ⟨id, e, rfl, he, his⟩ | ⟨d, hd, hk⟩
  · exact .inl ⟨id, e, ⟨t, ht⟩, hlast.catalog.enums he, his⟩
  · exact .inr ⟨d, hlast.defects.subset hd, hk⟩

theorem AnonymousEnum.stands (a : AnonymousEnum context)
    (hall : Build.resolveAll context (resolveSite context) {} = some (methods, last)) :
    ∃ id e, a.Becomes id ∧ last.catalog.enum? id = some e ∧ e.name = none ∧
      e.values = valuesOf a.wires := by
  obtain ⟨type, t, ht, henum⟩ := a.enumerates
  have hlast := (a.made.kept hall).2 (map_found ht)
  obtain ⟨id, e, rfl, he, hname, hvalues⟩ := henum.anonymous a.lists a.unnamed
  exact ⟨id, e, ⟨t, ht⟩, hlast.catalog.enums he, hname, hvalues⟩

theorem enumsKeyed_of_resolveAll
    (hall : Build.resolveAll context (resolveSite context) {} = some (methods, last)) :
    last.catalog.EnumsKeyed :=
  ((Scene.resolveAll_keeps (Scene.resolveSite_keeps (.ofBuild context) last)).holds hall).inv.enums

/-- Where texts differ under one name, not both of them agree with what the name stands for. -/
theorem NamedEnum.Conflicts.found {a b : NamedEnum context} (h : a.Conflicts b)
    (hall : Build.resolveAll context (resolveSite context) {} = some (methods, last)) :
    ∃ d ∈ last.defects, d.kind = .enumConflict := by
  rcases a.stands hall with ⟨i, x, -, hx, hxa⟩ | hd
  · rcases b.stands hall with ⟨j, y, -, hy, hyb⟩ | hd
    · obtain ⟨given, hg, hk⟩ := hxa.named
      obtain ⟨given', hg', hk'⟩ := hyb.named
      have hkey : caseKey given = caseKey given' := by rw [hk, hk', h.1]
      obtain rfl := (enumsKeyed_of_resolveAll hall).id_eq hx hy hg hg' hkey
      obtain rfl := Option.some.inj (hx.symm.trans hy)
      exact absurd (valuesOf_inj.mp (hxa.values.symm.trans hyb.values)) h.2
    · exact hd
  · exact hd

theorem mem_of_reported {found : List Defect} {d : Defect}
    (hr : (Build.conclude context methods last).result = .error (.defects found)) (hm : d ∈ found)
    (hk : d.kind = .enumConflict) : d ∈ last.defects := by
  rcases Scene.conclude_reports_iff.mp ⟨found, hr, hm⟩ with hm | hm | hm
  · exact hm
  · have hh := Hierarchy.kind_of_mem_defects hm
    simp [hk] at hh
  · obtain ⟨url, reason, rfl⟩ := Scene.exists_of_baseUrl hm
    cases hk

end Resolution

open Resolution Enumeration

/-- In the model each name of an enum stands for one enum, and that is one for all who have the name
and for nobody else. -/
structure ClientModel.EnumsAgree (m : ClientModel) (context : Context) : Prop where
  named : ∀ a : NamedEnum context, ∃ id e, a.Becomes id ∧ m.catalog.enum? id = some e ∧
    e.Is a.name a.wires
  anonymous : ∀ a : AnonymousEnum context, ∃ id e, a.Becomes id ∧
    m.catalog.enum? id = some e ∧ e.name = none ∧ e.values = valuesOf a.wires
  shared : ∀ {a b : NamedEnum context} {i j : EnumId}, a.Becomes i → b.Becomes j →
    (i = j ↔ caseKey a.name = caseKey b.name)
  apart : ∀ {a : NamedEnum context} {b : AnonymousEnum context} {i j : EnumId}, a.Becomes i →
    b.Becomes j → i ≠ j
  closed : ∀ e ∈ m.catalog.enums, e.expandable = e.name.isNone

theorem Resolution.enumsAgree_of_run {context : Context} {m : ClientModel}
    (h : (Build.run context).result = .ok m) : m.EnumsAgree context := by
  obtain ⟨t, hall, -, hd, -, hm⟩ := Scene.finished_of_run h
  have hk := enumsKeyed_of_resolveAll hall
  have henum : ∀ id, m.catalog.enum? id = t.catalog.enum? id := fun id => by rw [hm]; rfl
  have hnamed : ∀ a : NamedEnum context, ∃ id e, a.Becomes id ∧ t.catalog.enum? id = some e ∧
      e.Is a.name a.wires := by
    intro a
    rcases a.stands hall with hs | ⟨d, hmem, -⟩
    · exact hs
    · rw [hd] at hmem
      cases hmem
  refine ⟨?_, ?_, ?_, ?_, ?_⟩
  · simpa only [henum] using hnamed
  · intro a
    simpa only [henum] using a.stands hall
  · intro a b i j hi hj
    obtain ⟨i', x, hi', hx, ⟨given, hg, hgiven⟩, -⟩ := hnamed a
    obtain ⟨j', y, hj', hy, ⟨given', hg', hgiven'⟩, -⟩ := hnamed b
    obtain rfl := hi.unique hi'
    obtain rfl := hj.unique hj'
    constructor
    · rintro rfl
      obtain rfl := Option.some.inj (hx.symm.trans hy)
      obtain rfl := Option.some.inj (hg.symm.trans hg')
      exact hgiven.symm.trans hgiven'
    · intro hkey
      exact hk.id_eq hx hy hg hg' (by rw [hgiven, hgiven', hkey])
  · rintro a b i j hi hj rfl
    obtain ⟨i', x, hi', hx, ⟨given, hg, -⟩, -⟩ := hnamed a
    obtain ⟨j', y, hj', hy, hnone, -⟩ := b.stands hall
    obtain rfl := hi.unique hi'
    obtain rfl := hj.unique hj'
    obtain rfl := Option.some.inj (hx.symm.trans hy)
    cases hg.symm.trans hnone
  · intro e he
    obtain ⟨index, hindex⟩ := List.getElem?_of_mem he
    exact hk.closed ((henum ⟨index⟩).symm.trans hindex)

/-- A conflict between enums is reported exactly if the build resolves two of them that have one
name up to case and do not list the same texts in the same order, wherever in the document they
are. What is reported are the places of such two. Where a model is handed out the enums agree. -/
theorem named_enums_agree (context : Context) :
    ((∃ found, (Build.run context).result = .error (.defects found) ∧
      ∃ d ∈ found, d.kind = .enumConflict) ↔ ∃ a b : NamedEnum context, a.Conflicts b) ∧
    (∀ found name first second, (Build.run context).result = .error (.defects found) →
      .enumConflict name first second ∈ found → ∃ a b : NamedEnum context, a.Conflicts b ∧
        a.name = name ∧ a.site.pointer.text = first ∧ b.site.pointer.text = second) ∧
    ∀ m, (Build.run context).result = .ok m → m.EnumsAgree context := by
  obtain ⟨methods, last, hall, hrun⟩ := run_eq_conclude context
  have htraced : Traced context last := (Traced.retained hall).resolveAll .empty hall
  refine ⟨?_, ?_, fun m hm => enumsAgree_of_run hm⟩
  · rw [hrun]
    constructor
    · rintro ⟨found, hr, d, hm, hk⟩
      have hd := mem_of_reported hr hm hk
      cases d with
      | enumConflict name first second =>
        obtain ⟨a, b, hab, -⟩ := htraced.conflicts name first second hd
        exact ⟨a, b, hab⟩
      | _ => cases hk
    · rintro ⟨a, b, hab⟩
      obtain ⟨d, hd, hk⟩ := hab.found hall
      obtain ⟨found, hr, hm⟩ := Scene.conclude_reports_iff.mpr (.inl hd)
      exact ⟨found, hr, d, hm, hk⟩
  · intro found name first second hr hm
    rw [hrun] at hr
    exact htraced.conflicts name first second (mem_of_reported hr hm rfl)

def palette (texts : List String) : Document where
  definitions := [
    ("Shade", {
      typeName := some "string"
      enumeration := some [.str "light", .str "dark"]
      extensions := [("x-ms-enum", .str "Shade")] }),
    ("Tone", {
      typeName := some "string"
      enumeration := some (texts.map .str)
      extensions := [("x-ms-enum", .obj [("name", .str "SHADE")])] })]

theorem named_enums_agree_palette :
    (∃ found, (Build.run ⟨palette ["dark", "light"], {}⟩).result = .error (.defects found) ∧
      ∃ d ∈ found, d.kind = .enumConflict) ∧
    (∃ a b : NamedEnum ⟨palette ["dark", "light"], {}⟩, a.Conflicts b) ∧
    ∃ m, (Build.run ⟨palette ["light", "dark"], {}⟩).result = .ok m ∧
      m.EnumsAgree ⟨palette ["light", "dark"], {}⟩ ∧
      ∃ (a : NamedEnum ⟨palette ["light", "dark"], {}⟩) (id : EnumId) (e : EnumType),
        a.Becomes id ∧ m.catalog.enum? id = some e ∧ e.Is "Shade" ["light", "dark"] := by
  rw [← and_assoc]
  constructor
  · let context : Context := ⟨palette ["dark", "light"], {}⟩
    obtain ⟨hiff, -⟩ := named_enums_agree context
    have hkinds : ((Build.resolveAll context (resolveSite context) {}).map fun p =>
        p.2.defects.map Defect.kind) = some [.enumConflict] := by decide +kernel
    obtain ⟨methods, last, hall, hrun⟩ := run_eq_conclude context
    rw [hall] at hkinds
    have hlast : last.defects.map Defect.kind = [.enumConflict] := Option.some.inj hkinds
    obtain ⟨d, hd, hk⟩ := List.mem_map.mp (hlast ▸ List.mem_singleton_self _)
    obtain ⟨found, hr, hm⟩ := Scene.conclude_reports_iff.mpr (.inl hd)
    have hreported : ∃ found, (Build.run context).result = .error (.defects found) ∧
        ∃ d ∈ found, d.kind = .enumConflict := ⟨found, hrun ▸ hr, d, hm, hk⟩
    exact ⟨hreported, hiff.mp hreported⟩
  · let context : Context := ⟨palette ["light", "dark"], {}⟩
    obtain ⟨-, -, hagree⟩ := named_enums_agree context
    have hok : (Build.run context).result.isOk = true := by decide +kernel
    cases hm : (Build.run context).result with
    | error failure =>
      rw [hm] at hok
      cases hok
    | ok m =>
      have hkeys : Fields.keys context.document.definitions = [] ++ "Shade" :: ["Tone"] := rfl
      have hshade : Made context (.definition "Shade" (Pointer.definition "Shade") "Shade") {} :=
        .definition hkeys rfl
      have hmade := hshade.aliased rfl (show claimKey "Shade" {} = (true, _) from rfl) rfl
        (by decide) rfl rfl
      let a : NamedEnum context := ⟨⟨_, _, ["light", "dark"], hmade, ⟨rfl, rfl, by decide⟩⟩,
        "Shade", ⟨⟨_, rfl, .text _⟩, by decide⟩⟩
      exact ⟨m, rfl, hagree m hm, a, (hagree m hm).named a⟩

end ApiModel
