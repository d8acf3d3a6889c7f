import ApiModel.Grammars
import ApiModel.Proofs.Identity

/-! # Answers to schemas

A resolver that is asked for schemas, one after the other, remembers what has become of each
definition. A definition without a type stays without one. One that has a type is answered with it
from then on, also where the schema that it was first met in has been refused for a defect; that is
the one way in which a failure can be forgotten.
-/

namespace ApiModel

open Text (caseKey)

/-- The schema is no more than a reference to a definition, which has the name `canonical`. -/
def Schema.RefersTo (s : Schema) (document : Document) (canonical : String) : Prop :=
  ∃ text name schema, s.reference = some text ∧
    Reference.parse? text = some ⟨.definitions, name⟩ ∧
    document.definition? name = some (canonical, schema)

namespace Resolution

variable {context : Context} {s t u : State} {canonical name : String} {type : Option ModelType}

/-- The type that a resolver has for a definition. One whose case key is another's has none. -/
def State.known? (s : State) (canonical : String) : Option ModelType :=
  if Fields.get? s.claimed (caseKey canonical) = some canonical then s.typeOf? canonical else none

inductive Decided (s : State) (canonical : String) : Option ModelType → Prop where
  | found {type : ModelType} (hc : Fields.get? s.claimed (caseKey canonical) = some canonical)
      (ht : s.typeOf? canonical = some type) : Decided s canonical (some type)
  | clash {first : String} (hc : Fields.get? s.claimed (caseKey canonical) = some first)
      (hne : first ≠ canonical) : Decided s canonical none
  | failed (hc : Fields.get? s.claimed (caseKey canonical) = some canonical)
      (hf : caseKey canonical ∈ s.failed) : Decided s canonical none

namespace Decided

theorem mono (h : Decided s canonical type) (hr : Retains s t) : Decided t canonical type := by
  cases h with
  | found hc ht => exact .found (hr.claimed hc) (hr.resolved ht)
  | clash hc hne => exact .clash (hr.claimed hc) hne
  | failed hc hf => exact .failed (hr.claimed hc) (hr.failed hf)

theorem known?_eq (h : Decided s canonical type) (hs : s.Consistent) :
    s.known? canonical = type := by
  unfold State.known?
  cases h with
  | found hc ht => rw [if_pos hc, ht]
  | clash hc hne =>
    rw [if_neg]
    exact fun he => hne (Option.some.inj (hc.symm.trans he))
  | failed hc hf => rw [if_pos hc, State.typeOf?, hs _ hf]

/-- A definition that has been resolved is answered with what has become of it. -/
theorem resolveDefinition_eq (h : Decided s canonical type) (hs : s.Consistent) {schema : Schema}
    (hd : context.document.definition? name = some (canonical, schema)) (r : Resolver)
    (pointer : Pointer) (owner : String) :
    ∃ t, resolveDefinition context r name pointer owner s = some (type, t) ∧
      (type ≠ none → t = s) := by
  have hown : Fields.get? s.claimed (caseKey canonical) = some canonical →
      resolveDefinition context r name pointer owner s =
        resolveClaimed context r canonical schema s := by
    intro hc
    obtain ⟨hn, -⟩ | ⟨-, hk⟩ | ⟨d, hk⟩ := claimKey_cases canonical s
    · cases hn.symm.trans hc
    · rw [resolveDefinition_claimKey r hd hk, if_pos rfl]
    · obtain ⟨first, hfirst, hne⟩ := claimKey_taken hk
      exact absurd (Option.some.inj (hfirst.symm.trans hc)) hne
  cases h with
  | @found x hc ht =>
    have hx : Fields.get? s.resolved (caseKey canonical) = some x := ht
    refine ⟨s, ?_, fun _ => rfl⟩
    rw [hown hc, resolveClaimed, get_bind]
    simp only [hx]
    rfl
  | @clash first hc hne =>
    obtain ⟨hn, -⟩ | ⟨hc', -⟩ | ⟨d, hk⟩ := claimKey_cases canonical s
    · cases hn.symm.trans hc
    · exact absurd (Option.some.inj (hc.symm.trans hc')) hne
    · exact ⟨_, resolveDefinition_claimKey r hd hk, fun hn => absurd rfl hn⟩
  | failed hc hf =>
    refine ⟨s, ?_, fun _ => rfl⟩
    rw [hown hc, resolveClaimed, get_bind]
    simp only [hs _ hf, List.contains_iff_mem.mpr hf, if_true]
    rfl

end Decided

theorem Idle.decided (h : Idle context s) {schema : Schema} {pointer : Pointer} {owner : String}
    (hd : context.document.definition? name = some (canonical, schema))
    (hr : resolveDefinition context (resolveSite context) name pointer owner s = some (type, t)) :
    Decided t canonical type := by
  obtain ⟨hnone, -, -⟩ | ⟨_, _, hd', ⟨d, hk, rfl, rfl⟩ | ⟨u, hk, hs⟩⟩ :=
    resolveDefinition_cases (Scene.definition_within h.inv hr)
  · cases hd.symm.trans hnone
  · cases hd.symm.trans hd'
    obtain ⟨first, hfirst, hne⟩ := claimKey_taken hk
    exact .clash hfirst hne
  · cases hd.symm.trans hd'
    obtain ⟨hi, hc⟩ := inv_of_claimKey h.inv hk
    have hframes : u.frames = [] := (claimKey_kept hk).1.trans h.frames
    obtain ⟨htidy, hlost⟩ := Scene.settles_tidy (Scene.tidies_within (anywhere context) t) hi hc
      (Scene.get?_of_definition? hd) (Scene.Trail.of_recent (by rw [hframes]; rfl)) hs
    cases type with
    | none => exact .failed (htidy.spares.claimed hc) (hlost rfl)
    | some x =>
      have hkeeps := Scene.resolveDefinition_keeps (Scene.resolveSite_keeps (anywhere context) t)
        h.inv name pointer owner
      obtain ⟨_, _, hd', hx, hown⟩ := (hkeeps.holds hr).holds rfl
      cases hd.symm.trans hd'
      exact .found hown hx

/-- What a schema is answered with: its type, unless there are defects. -/
def answerOf (name : String) (type : Option ModelType) (defects : List Defect) :
    Except (List Defect) ModelType :=
  match type, defects with
  | some type, [] => .ok type
  | none, [] => .error [.schema name .dependsOnFailure]
  | _, defects => .error defects

theorem answerOf_eq_ok {defects : List Defect} {x : ModelType} :
    answerOf name type defects = .ok x ↔ type = some x ∧ defects = [] := by
  cases type <;> cases defects <;> simp [answerOf]

theorem isOk_eq_false {ε α : Type} {answer : Except ε α} (h : ∀ x, answer ≠ .ok x) :
    answer.isOk = false := by
  cases answer with
  | error defects => rfl
  | ok x => exact absurd rfl (h x)

theorem exists_of_isOk {ε α : Type} {answer : Except ε α} (h : answer.isOk = true) :
    ∃ x, answer = .ok x := by
  cases answer with
  | error defects => cases h
  | ok x => exact ⟨x, rfl⟩

def resolveSchemas (context : Context) (asked : List (Schema × String)) :
    Run (List (Except (List Defect) ModelType)) :=
  asked.mapM fun q => resolveSchema context q.1 q.2

def askedSite (q : Schema × String) : Site := ⟨q.1, q.2, ⟨[q.2]⟩, q.2⟩

variable {q : Schema × String} {asked : List (Schema × String)}

theorem resolveSchema_answer (h : resolveSite context (askedSite q) s = some (type, t)) :
    resolveSchema context q.1 q.2 s =
      some (answerOf q.2 type t.defects, { t with defects := [] }) := by
  simp only [resolveSchema, bind_eq_some]
  refine ⟨type, t, h, t.defects, { t with defects := [] }, rfl, ?_⟩
  cases type <;> cases t.defects <;> rfl

theorem resolveSchemas_cons {answers : List (Except (List Defect) ModelType)} :
    resolveSchemas context (q :: asked) s = some (answers, t) ↔
      ∃ answer u rest, resolveSchema context q.1 q.2 s = some (answer, u) ∧
        resolveSchemas context asked u = some (rest, t) ∧ answers = answer :: rest := by
  rw [resolveSchemas, List.mapM_cons]
  constructor
  · intro h
    obtain ⟨answer, u, hu, h⟩ := bind_eq_some.mp h
    obtain ⟨rest, v, hv, h⟩ := bind_eq_some.mp h
    cases h
    exact ⟨answer, u, rest, hu, hv, rfl⟩
  · rintro ⟨answer, u, rest, hu, hv, rfl⟩
    exact bind_eq_some.mpr ⟨answer, u, hu, bind_eq_some.mpr ⟨rest, t, hv, rfl⟩⟩

/-- A resolver at rest, with no defects that have not been answered with. -/
structure Ready (context : Context) (s : State) : Prop extends Idle context s where
  defects : s.defects = []

namespace Ready

theorem empty (context : Context) : Ready context {} := ⟨idle_empty context, rfl⟩

theorem schema (h : Ready context s) (q : Schema × String) : ∃ type t,
    resolveSite context (askedSite q) s = some (type, t) ∧
    resolveSchema context q.1 q.2 s =
      some (answerOf q.2 type t.defects, { t with defects := [] }) ∧
    Ready context { t with defects := [] } ∧ Retains s { t with defects := [] } := by
  obtain ⟨type, t, ht, hidle, hg⟩ := h.toIdle.site (askedSite q)
  exact ⟨type, t, ht, resolveSchema_answer ht, ⟨hidle.drain, rfl⟩,
    ⟨hg.resolved, hg.claimed, hg.failed⟩⟩

theorem schemas (h : Ready context s) (asked : List (Schema × String)) : ∃ answers t,
    resolveSchemas context asked s = some (answers, t) ∧ Ready context t ∧ Retains s t := by
  induction asked generalizing s with
  | nil => exact ⟨[], s, rfl, h, .refl s⟩
  | cons q rest ih =>
    obtain ⟨type, u, -, hu, hready, hr⟩ := h.schema q
    obtain ⟨answers, t, ht, hready', hr'⟩ := ih hready
    exact ⟨_, t, resolveSchemas_cons.mpr ⟨_, _, answers, hu, ht, rfl⟩, hready', hr.trans hr'⟩

theorem resolveReference_eq (hq : q.1.RefersTo context.document canonical) : ∃ name schema,
    context.document.definition? name = some (canonical, schema) ∧
    resolveSite context (askedSite q) =
      resolveDefinition context (resolveSite context) name ⟨[q.2]⟩ q.2 := by
  obtain ⟨text, name, schema, hr, hp, hd⟩ := hq
  exact ⟨name, schema, hd, resolveSite_reference hr hp⟩

/-- A schema that refers to a definition decides what becomes of it, and is answered with that
unless there are defects. -/
theorem reference (h : Ready context s) (hq : q.1.RefersTo context.document canonical) :
    ∃ type, ∃ t : State, resolveSchema context q.1 q.2 s =
        some (answerOf q.2 type t.defects, { t with defects := [] }) ∧
      Ready context { t with defects := [] } ∧
      Decided { t with defects := [] } canonical type := by
  obtain ⟨type, t, ht, hschema, hready, -⟩ := h.schema q
  obtain ⟨name, schema, hd, heq⟩ := resolveReference_eq hq
  rw [heq] at ht
  exact ⟨type, t, hschema, hready, (h.toIdle.decided hd ht).mono ⟨id, id, fun _ hf => hf⟩⟩

/-- A schema that refers to a definition that has been resolved is answered with what is known. -/
theorem again (h : Ready context s) (hq : q.1.RefersTo context.document canonical)
    (hk : Decided s canonical type) : ∃ answer t,
      resolveSchema context q.1 q.2 s = some (answer, t) ∧ ∀ x, answer = .ok x ↔ type = some x := by
  obtain ⟨name, schema, hd, heq⟩ := resolveReference_eq hq
  obtain ⟨t, ht, hsame⟩ := hk.resolveDefinition_eq h.consistent hd (resolveSite context) ⟨[q.2]⟩ q.2
  rw [← heq] at ht
  refine ⟨_, _, resolveSchema_answer ht, fun x => ?_⟩
  rw [answerOf_eq_ok]
  refine ⟨fun hx => hx.1, fun hx => ⟨hx, ?_⟩⟩
  rw [hsame (by simp [hx]), h.defects]

end Ready

/-- The schemas that are asked for stand where they are resolved, and no defect is taken out of the
state unless it has been answered with. -/
def asking (context : Context) (asked : List (Schema × String)) : Scene :=
  ⟨context, fun pointer s => ∃ q ∈ asked, pointer = ⟨[q.2]⟩ ∧ s = q.1, False⟩

/-- No schema has been refused so far. -/
structure Faultless (context : Context) (asked : List (Schema × String)) (s : State) : Prop where
  inv : (asking context asked).Inv s
  defects : s.defects = []
  filled : ∀ composite ∈ s.catalog.composites, composite.progress = .propertiesResolved

namespace Faultless

theorem empty (hm : context.document.malformed = []) (asked : List (Schema × String)) :
    Faultless context asked {} where
  inv :=
    { keyed := .empty
      enums := .empty
      memo := nofun
      composites := nofun
      listed := nofun
      noted := fun hn => hn.elim (absurd rfl) (absurd hm) }
  defects := rfl
  filled := nofun

theorem schema (h : Faultless context asked s) (hq : q ∈ asked) {x : ModelType}
    (ht : resolveSchema context q.1 q.2 s = some (.ok x, t)) : Faultless context asked t := by
  obtain ⟨type, u, hu, -, hy⟩ := Scene.resolveSite_keeps (asking context asked) {} (askedSite q) s
    ⟨.root ⟨q, hq, rfl, rfl⟩, h.inv⟩
  have hanswer := (resolveSchema_answer hu).symm.trans ht
  obtain ⟨hok, rfl⟩ := Prod.mk.inj (Option.some.inj hanswer)
  have hd : u.defects = [] := (answerOf_eq_ok.mp hok).2
  have hsame : { u with defects := [] } = u := by rw [← hd]
  rw [hsame]
  obtain ⟨added, ha, hp⟩ := hy.reaches.later.composites
  refine ⟨hy.reaches.inv, hd, fun composite hc => ?_⟩
  rw [ha] at hc
  exact (List.mem_append.mp hc).elim (h.filled composite) (hp composite)

theorem schemas (h : Faultless context asked s) {before : List (Schema × String)}
    (hb : before ⊆ asked) {answers : List (Except (List Defect) ModelType)}
    (ha : ∀ answer ∈ answers, answer.isOk = true)
    (ht : resolveSchemas context before s = some (answers, t)) : Faultless context asked t := by
  induction before generalizing s answers with
  | nil =>
    cases ht
    exact h
  | cons q rest ih =>
    obtain ⟨answer, u, answers, hu, hv, rfl⟩ := resolveSchemas_cons.mp ht
    obtain ⟨hq, hrest⟩ := List.cons_subset.mp hb
    obtain ⟨x, rfl⟩ := exists_of_isOk (ha _ (List.mem_cons_self ..))
    exact ih (h.schema hq hu) hrest (fun a hm => ha a (List.mem_cons_of_mem _ hm)) hv

theorem described (h : Faultless context asked s) {id : CompositeId} {composite : Composite}
    (hc : s.catalog.composite? id = some composite) : ∃ schema pointer,
      Stands context.document (asking context asked).roots pointer schema ∧
        schema.isComposite = true ∧ composite.origin = pointer.text ∧
        Described context s.catalog s.typeOf? False schema pointer composite := by
  have hfilled := h.filled composite (List.mem_of_getElem? hc)
  obtain ⟨schema, pointer, hs, hshape, ho, hd⟩ := h.inv.described hc (by rw [hfilled]; nofun)
  exact ⟨schema, pointer, hs, hshape, ho, hd.mono (.refl _) (fun ht => ht) fun hm =>
    hm.elim (fun hf => hf) (absurd h.defects)⟩

end Faultless

end Resolution

open Resolution

/-- A schema that refers to a definition is asked for, and later another one that refers to the same
definition. If the first has left the definition without a type, both are refused. If the definition
has a type, the later one is answered with it, even if the first was refused for a defect. Only in
this way is a failure forgotten; and while no schema is refused, every composite says all that its
schema declares, unless the document has malformed definitions. -/
theorem failures_stick (context : Context) (before between : List (Schema × String))
    (first later : Schema × String) (canonical : String)
    (hfirst : first.1.RefersTo context.document canonical)
    (hlater : later.1.RefersTo context.document canonical) :
    ∃ given s answer t given' u answer' v,
      resolveSchemas context before {} = some (given, s) ∧
      resolveSchema context first.1 first.2 s = some (answer, t) ∧
      resolveSchemas context between t = some (given', u) ∧
      resolveSchema context later.1 later.2 u = some (answer', v) ∧
      (t.known? canonical = none → answer.isOk = false ∧ answer'.isOk = false) ∧
      (∀ type, t.known? canonical = some type → answer' = .ok type) ∧
      (∀ type, answer = .ok type → answer' = .ok type) ∧
      (context.document.malformed = [] → (∀ a ∈ given ++ [answer], a.isOk = true) →
        ∀ id composite, t.catalog.composite? id = some composite → ∃ schema pointer,
          Stands context.document (asking context (before ++ [first])).roots pointer schema ∧
            schema.isComposite = true ∧ composite.origin = pointer.text ∧
            Described context t.catalog t.typeOf? False schema pointer composite) := by
  obtain ⟨given, s, hs, hready, -⟩ := (Ready.empty context).schemas before
  obtain ⟨type, w, ht, hready, hdecided⟩ := hready.reference hfirst
  obtain ⟨given', u, hu, hready', hretains⟩ := hready.schemas between
  obtain ⟨answer', v, hv, hanswer⟩ := hready'.again hlater (hdecided.mono hretains)
  have hknown := hdecided.known?_eq hready.consistent
  refine ⟨given, s, _, _, given', u, answer', v, hs, ht, hu, hv, ?_, ?_, ?_, ?_⟩
  · intro hk
    obtain rfl : type = none := hknown.symm.trans hk
    constructor
    · apply isOk_eq_false
      intro x hx
      cases (answerOf_eq_ok.mp hx).1
    · apply isOk_eq_false
      intro x hx
      cases (hanswer x).mp hx
  · intro x hk
    exact (hanswer x).mpr (hknown.symm.trans hk)
  · intro x hx
    exact (hanswer x).mpr (answerOf_eq_ok.mp hx).1
  · intro hm ha id composite hc
    have hsubset : before ⊆ before ++ [first] := List.subset_append_left ..
    have hbefore := (Faultless.empty hm (before ++ [first])).schemas hsubset
      (fun a hg => ha a (List.mem_append_left _ hg)) hs
    obtain ⟨x, hx⟩ := exists_of_isOk (ha _ (List.mem_append_right _ (List.mem_singleton_self _)))
    rw [hx] at ht
    exact (hbefore.schema (by simp) ht).described hc

def farmyard : Document where
  definitions := [
    ("Cart", {
      properties := [("load", .typed "string" none), ("wheel", .referenceTo "Wheel")] }),
    ("Wheels", { typeName := some "array", items := some (.referenceTo "Wheel") })]

theorem refersTo_farmyard {name : String} {schema : Schema}
    (hp : Reference.parse? ("#/definitions/" ++ name) = some ⟨.definitions, name⟩)
    (hd : farmyard.definition? name = some (name, schema)) :
    (Schema.referenceTo name).RefersTo farmyard name :=
  ⟨_, name, schema, rfl, hp, hd⟩

theorem failures_stick_wheels : ∃ answer t answer' v,
    resolveSchema ⟨farmyard, {}⟩ (.referenceTo "Wheels") "First" {} = some (answer, t) ∧
      answer.isOk = false ∧
      resolveSchema ⟨farmyard, {}⟩ (.referenceTo "Wheels") "Second" t = some (answer', v) ∧
      answer'.isOk = false := by
  have hwheels : (Schema.referenceTo "Wheels").RefersTo farmyard "Wheels" :=
    refersTo_farmyard (by decide) rfl
  obtain ⟨_, _, answer, t, _, _, answer', v, hs, ht, hu, hv, hfail, -⟩ :=
    failures_stick ⟨farmyard, {}⟩ [] [] (.referenceTo "Wheels", "First")
      (.referenceTo "Wheels", "Second") "Wheels" hwheels hwheels
  cases hs
  cases hu
  have hknown : (resolveSchema ⟨farmyard, {}⟩ (.referenceTo "Wheels") "First" {}).map
      (fun p => p.2.known? "Wheels") = some none := by decide +kernel
  rw [ht] at hknown
  obtain ⟨hfirst, hsecond⟩ := hfail (Option.some.inj hknown)
  exact ⟨answer, t, answer', v, ht, hfirst, hv, hsecond⟩

/-- A definition is refused when it is first asked for, because it refers to one that is missing.
The second time it is handed out, without the property that is missing. -/
theorem failure_forgotten :
    (Schema.referenceTo "Cart").RefersTo farmyard "Cart" ∧
      (resolveSchemas ⟨farmyard, {}⟩
        [(.referenceTo "Cart", "First"), (.referenceTo "Cart", "Second")] {}).map
          (fun p => (p.1.map (·.toOption),
            p.2.catalog.composites.map fun c => (c.name, c.properties.map (·.name)))) =
        some ([none, some (.composite ⟨0⟩)], [("Cart", ["load"])]) :=
  ⟨refersTo_farmyard (by decide) rfl, by decide +kernel⟩

end ApiModel
