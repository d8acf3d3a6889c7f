import ApiModel.Grammars
import ApiModel.Proofs.Answers
import ApiModel.Proofs.Pointers

/-! # Names of inline object types

An object type that a resolver is asked for is told apart from others by its pointer, and the
pointer is made of the name that it is asked for under. So a schema is refused under a name that is
taken in another spelling; under the same spelling it is answered with the type that is there,
whatever the schema declares.
-/

namespace ApiModel

open Text (caseKey)

/-- A name belongs up to case to a composite that was declared in a place. -/
def Catalog.Taken (c : Catalog) (name : String) (id : CompositeId) (origin : String) : Prop :=
  ∃ composite, c.composite? id = some composite ∧ caseKey composite.name = caseKey name ∧
    composite.origin = origin

namespace Catalog.Taken

variable {c d : Catalog} {name name' origin : String} {id : CompositeId}

theorem mono (h : c.Taken name id origin) (hg : c.Grows d) : d.Taken name id origin := by
  obtain ⟨composite, hc, hn, ho⟩ := h
  obtain ⟨later, hl, hn', ho'⟩ := hg.composites hc
  exact ⟨later, hl, hn' ▸ hn, ho'.trans ho⟩

theorem respell (h : c.Taken name id origin) (hk : caseKey name = caseKey name') :
    c.Taken name' id origin := by
  obtain ⟨composite, hc, hn, ho⟩ := h
  exact ⟨composite, hc, hn.trans hk, ho⟩

theorem found (h : c.Taken name id origin) (hk : c.Keyed) : c.findComposite? name = some id := by
  obtain ⟨composite, hc, hn, -⟩ := h
  exact (hk name id).mpr ⟨composite, hc, hn⟩

theorem origin_eq (h : c.Taken name id origin) :
    (c.composite? id).elim "" (·.origin) = origin := by
  obtain ⟨composite, hc, -, ho⟩ := h
  rw [hc]
  exact ho

end Catalog.Taken

namespace Resolution

variable {context : Context} {s t : State} {q : Schema × String} {name origin : String}
  {id : CompositeId}

/-- A name that a node in another place has taken is refused. -/
theorem registerComposite_taken (h : s.catalog.Taken name id origin) (hk : s.catalog.Keyed)
    {pointer : Pointer} (ho : origin ≠ pointer.text) :
    registerComposite name pointer s =
      fail (.schema name (.nameClash name pointer.text origin)) s := by
  rw [← h.origin_eq] at ho ⊢
  exact registerComposite_refused (h.found hk) ho

abbrev askedPointer (name : String) : Pointer := ⟨[name]⟩

theorem HasType.taken {c : Catalog} {types : String → Option ModelType} {site : Site}
    (hs : site.schema.isComposite = true)
    (h : HasType context c types site (.composite id)) :
    c.Taken site.name id site.pointer.text := by
  cases h with
  | composite _ hc hn ho => exact ⟨_, hc, hn, ho⟩
  | reference hr => simp [Schema.isComposite, hr] at hs

theorem resolveSite_inline (hs : q.1.isComposite = true) :
    resolveSite context (askedSite q) =
      buildInline context (resolveSite context) (askedSite q) := by
  have hroute : (askedSite q).schema.route = .composite := Schema.route_eq_composite_iff.mpr hs
  rw [resolveSite_eq, resolveStep, hroute]

namespace Ready

/-- Under a name that is taken the answer to an object type depends on where the name has been
taken, and not on what the object type declares. -/
theorem inline_taken (h : Ready context s) (hs : q.1.isComposite = true)
    (ht : s.catalog.Taken q.2 id origin) :
    resolveSchema context q.1 q.2 s = some
      (if origin = (askedPointer q.2).text then .ok (.composite id)
        else .error [.schema q.2 (.nameClash q.2 (askedPointer q.2).text origin)], s) := by
  obtain ⟨type, t, hsite, hschema, -⟩ := h.schema q
  rw [hschema]
  rw [resolveSite_inline hs] at hsite
  have hfound := ht.found h.inv.keyed
  have horigin := ht.origin_eq
  have hdrained : { s with defects := [] } = s := by rw [← h.defects]
  by_cases ho : origin = (askedPointer q.2).text
  · rw [if_pos ho]
    obtain ⟨d, hreg, -, -⟩ | ⟨other, hf, -, rfl, hsame⟩ | ⟨hf, -, -⟩ := buildInline_cases hsite
    · cases (registerComposite_known hfound (horigin.trans ho)).symm.trans hreg
    · cases hf.symm.trans hfound
      rw [hsame, hdrained, h.defects]
      rfl
    · cases hf.symm.trans hfound
  · rw [if_neg ho]
    have hreg := registerComposite_taken ht h.inv.keyed ho
    obtain ⟨d, hreg', rfl, rfl⟩ | ⟨other, hf, ho', -, -⟩ | ⟨hf, -, -⟩ := buildInline_cases hsite
    · have hreports := congrArg (fun r => r.2.defects) (hreg'.symm.trans hreg)
      obtain rfl := List.singleton_inj.mp (List.append_cancel_left hreports)
      change some (answerOf q.2 none (s.defects ++ [_]), { s with defects := [] }) = _
      rw [hdrained, h.defects]
      rfl
    · cases hf.symm.trans hfound
      exact absurd (horigin.symm.trans ho') ho
    · cases hf.symm.trans hfound

theorem inline (h : Ready context s) (hs : q.1.isComposite = true) : ∃ answer t id origin,
    resolveSchema context q.1 q.2 s = some (answer, t) ∧ Ready context t ∧
      t.catalog.Taken q.2 id origin ∧
      (s.catalog.findComposite? q.2 = none → origin = (askedPointer q.2).text) ∧
      ∀ x, answer = .ok x → x = .composite id ∧ origin = (askedPointer q.2).text := by
  cases hf : s.catalog.findComposite? q.2 with
  | some id =>
    obtain ⟨composite, hc, hn⟩ := (h.inv.keyed q.2 id).mp hf
    have ht : s.catalog.Taken q.2 id composite.origin := ⟨composite, hc, hn, rfl⟩
    refine ⟨_, s, id, composite.origin, h.inline_taken hs ht, h, ht, nofun, fun x hx => ?_⟩
    split_ifs at hx with ho
    cases hx
    exact ⟨rfl, ho⟩
  | none =>
    obtain ⟨type, t, hsite, hschema, hready, -⟩ := h.schema q
    obtain ⟨_, _, hsite', -, hy⟩ := Scene.resolveSite_keeps (anywhere context) {} (askedSite q) s
      ⟨.root trivial, h.inv⟩
    cases hsite.symm.trans hsite'
    rw [resolveSite_inline hs] at hsite
    obtain ⟨d, hreg, -, -⟩ | ⟨id, hf', -, -, -⟩ | ⟨-, rfl, -⟩ := buildInline_cases hsite
    · cases (registerComposite_new hf (askedPointer q.2)).symm.trans hreg
    · cases hf'.symm.trans hf
    · have ht := HasType.taken hs (hy.holds rfl)
      refine ⟨_, _, _, _, hschema, hready, ht, fun _ => rfl, fun x hx => ⟨?_, rfl⟩⟩
      exact (Option.some.inj (answerOf_eq_ok.mp hx).1).symm

theorem schemas_grows (h : Ready context s) (asked : List (Schema × String))
    {answers : List (Except (List Defect) ModelType)}
    (ht : resolveSchemas context asked s = some (answers, t)) : s.catalog.Grows t.catalog := by
  induction asked generalizing s answers with
  | nil =>
    cases ht
    exact .refl _
  | cons q rest ih =>
    obtain ⟨answer, u, answers, hu, hrest, rfl⟩ := resolveSchemas_cons.mp ht
    obtain ⟨type, v, hv, hanswer, hready, -⟩ := h.schema q
    obtain ⟨_, _, hv', -, hg⟩ := h.toIdle.site (askedSite q)
    cases hv.symm.trans hv'
    cases hanswer.symm.trans hu
    have hlater := ih hready hrest
    exact hg.catalog.trans hlater

end Ready

end Resolution

open Resolution

/-- An object type is asked for, and later another one under the same name up to case. The first
takes the name if it is answered with a type, or if it is the first to ask for it. If it does and
the later name is spelled differently, the later one is refused for the clash. If the names are the
same, the later one is answered with the type of the first, whatever it declares itself. -/
theorem inline_names_clash (context : Context) (before between : List (Schema × String))
    (first later : Schema × String) (hfirst : first.1.isComposite = true)
    (hlater : later.1.isComposite = true) (hname : caseKey first.2 = caseKey later.2) :
    ∃ given s answer t given' u answer' id origin,
      resolveSchemas context before {} = some (given, s) ∧
      resolveSchema context first.1 first.2 s = some (answer, t) ∧
      resolveSchemas context between t = some (given', u) ∧
      resolveSchema context later.1 later.2 u = some (answer', u) ∧
      t.catalog.Taken first.2 id origin ∧ u.catalog.Taken later.2 id origin ∧
      (∀ x, answer = .ok x → x = .composite id) ∧
      (answer.isOk = true ∨ s.catalog.findComposite? first.2 = none →
        origin = (askedPointer first.2).text) ∧
      (∀ x, answer' = .ok x → x = .composite id ∧ origin = (askedPointer later.2).text) ∧
      (origin = (askedPointer first.2).text → first.2 ≠ later.2 →
        answer' = .error [.schema later.2 (.nameClash later.2 (askedPointer later.2).text
          (askedPointer first.2).text)]) ∧
      (origin = (askedPointer first.2).text → first.2 = later.2 →
        answer' = .ok (.composite id)) := by
  obtain ⟨given, s, hs, hready, -⟩ := (Ready.empty context).schemas before
  obtain ⟨answer, t, id, origin, ht, hready, htaken, hfresh, hok⟩ := hready.inline hfirst
  obtain ⟨given', u, hu, hready', -⟩ := hready.schemas between
  have htaken' : u.catalog.Taken later.2 id origin :=
    (htaken.mono (hready.schemas_grows between hu)).respell hname
  refine ⟨given, s, answer, t, given', u, _, id, origin, hs, ht, hu,
    hready'.inline_taken hlater htaken', htaken, htaken', fun x hx => (hok x hx).1, ?_, ?_, ?_, ?_⟩
  · rintro (ha | hf)
    · obtain ⟨x, hx⟩ := exists_of_isOk ha
      exact (hok x hx).2
    · exact hfresh hf
  · intro x hx
    split_ifs at hx with ho
    cases hx
    exact ⟨rfl, ho⟩
  · rintro rfl hne
    rw [if_neg]
    intro htext
    have hpointer := Pointer.text_injective htext
    exact hne (List.singleton_inj.mp (congrArg Pointer.segments hpointer))
  · rintro rfl heq
    rw [if_pos (by rw [heq])]

def dyedCoat : Schema := { properties := [("color", .typed "string" none)] }

def longCoat : Schema :=
  { properties := [("length", .typed "integer" none)], required := ["length"] }

theorem inline_names_clash_coats :
    dyedCoat.isComposite = true ∧ longCoat.isComposite = true ∧ caseKey "Coat" = caseKey "COAT" ∧
    ∃ answer t answer',
      resolveSchema ⟨{}, {}⟩ dyedCoat "Coat" {} = some (answer, t) ∧ answer.isOk = true ∧
      resolveSchema ⟨{}, {}⟩ longCoat "COAT" t = some (answer', t) ∧
      answer' = .error [.schema "COAT" (.nameClash "COAT" "#/COAT" "#/Coat")] := by
  have hname : caseKey "Coat" = caseKey "COAT" := by decide +kernel
  obtain ⟨_, _, answer, t, _, _, answer', id, origin, hs, ht, hu, hv, -, -, -, htaken, -, hne, -⟩ :=
    inline_names_clash ⟨{}, {}⟩ [] [] (dyedCoat, "Coat") (longCoat, "COAT") rfl rfl hname
  cases hs
  cases hu
  have hok : (resolveSchema ⟨{}, {}⟩ dyedCoat "Coat" {}).any (·.1.isOk) = true := by
    decide +kernel
  rw [ht] at hok
  have hcoat : (askedPointer "Coat").text = "#/Coat" := by decide +kernel
  have hother : (askedPointer "COAT").text = "#/COAT" := by decide +kernel
  have hclash := hne (htaken (.inl hok)) (by decide)
  rw [hcoat, hother] at hclash
  exact ⟨rfl, rfl, hname, answer, t, answer', ht, hok, hv, hclash⟩

/-- Under the same name the second coat is taken for the first, without its length. -/
theorem same_name_answered :
    dyedCoat.properties.map (·.1) ≠ longCoat.properties.map (·.1) ∧
    (resolveSchemas ⟨{}, {}⟩ [(dyedCoat, "Coat"), (longCoat, "Coat")] {}).map
        (fun p => (p.1.map (·.toOption),
          p.2.catalog.composites.map fun c => (c.name, c.properties.map (·.name)))) =
      some ([some (.composite ⟨0⟩), some (.composite ⟨0⟩)], [("Coat", ["color"])]) :=
  ⟨by decide, by decide +kernel⟩

end ApiModel
