import ApiModel.Grammars
import ApiModel.Proofs.Course
import ApiModel.Proofs.Positions
import ApiModel.Proofs.ClosedModel

/-! # No two object types become one

The place of an object type is its origin, and a composite is shared by calls of one origin only.
So object types at different positions are different composites, and where two of them would have
to share a name there is a defect of the schema instead of a model.
-/

namespace ApiModel

open Text (caseKey)

namespace Resolution

variable {S : Scene} {context : Context} {r : Resolver} {s t u last : State}

def State.Blames (s : State) : Prop := ∃ d ∈ s.defects, d.kind = .schema

theorem State.Blames.mono (h : s.Blames) (hd : s.defects <+: t.defects) : t.Blames := by
  obtain ⟨d, hm, hk⟩ := h
  exact ⟨d, hd.subset hm, hk⟩

theorem blames_report {d : Defect} (h : d.kind = .schema) (s : State) :
    (report d s).2.Blames := ⟨d, by simp, h⟩

namespace Scene

/-- A key belongs to a definition, and if that is an object type a defect of a schema has been
found. -/
def Excused (S : Scene) (s : State) (key : String) : Prop :=
  ∃ name schema, Fields.get? s.claimed key = some name ∧ caseKey name = key ∧
    Fields.get? S.context.document.definitions name = some schema ∧
    (schema.isComposite = true → s.Blames)

def Excuses (S : Scene) (s : State) : Prop := ∀ key ∈ s.failed, S.Excused s key

theorem Excused.grow {key : String} (h : S.Excused s key)
    (hc : ∀ {key name}, Fields.get? s.claimed key = some name →
      Fields.get? t.claimed key = some name) (hd : s.defects <+: t.defects) : S.Excused t key := by
  obtain ⟨name, schema, hcl, hk, hget, hb⟩ := h
  exact ⟨name, schema, hc hcl, hk, hget, fun hs => (hb hs).mono hd⟩

namespace Excuses

theorem grow (h : S.Excuses s) (hf : t.failed = s.failed)
    (hc : ∀ {key name}, Fields.get? s.claimed key = some name →
      Fields.get? t.claimed key = some name) (hd : s.defects <+: t.defects) : S.Excuses t :=
  fun key hk => (h key (hf ▸ hk)).grow hc hd

theorem notes (h : S.Excuses s) (hn : Notes s t) : S.Excuses t :=
  h.grow hn.failed_eq (fun hc => hn.claimed_eq ▸ hc) hn.defects_kept

theorem markFailed (h : S.Excuses s) {key : String} (hk : S.Excused s key) :
    S.Excuses (markFailed key s).2 := by
  intro other ho
  rcases List.mem_cons.mp ho with rfl | ho
  · exact hk
  · exact h other ho

end Excuses

/-- Calls of the resolver only add to the state, and leave failures excused. -/
def Excusing (S : Scene) (r : Resolver) : Prop :=
  ∀ site s type t, r site s = some (type, t) → Grows s t ∧ (S.Excuses s → S.Excuses t)

section

variable {type : Option ModelType}

theorem populate_excuses (hr : S.Excusing r) {id : CompositeId} {schema : Schema}
    {pointer : Pointer} (hp : populate S.context r id schema pointer s = some ((), t))
    (h : S.Excuses s) : S.Excuses t := by
  obtain ⟨properties, base, value, u, hu, rfl⟩ := populate_induct S.Excuses
    (fun _ _ _ _ hi hc => (hr _ _ _ _ hc).2 hi) (fun hi ha => hi.notes ha.notes) h hp
  exact hu.grow rfl (fun hc => hc) (List.prefix_refl _)

theorem settles_excuses (hr : S.Excusing r) (h : S.Excuses s) {name : String} {schema : Schema}
    (hc : Fields.get? s.claimed (caseKey name) = some name)
    (hd : Fields.get? S.context.document.definitions name = some schema)
    (hs : Settles S.context r name schema s type t) : S.Excuses t := by
  cases hs with
  | remembered | failed => exact h
  | clash _ _ _ hreg =>
    have hb := blames_report (registerComposite_clash hreg).1 s
    exact (h.notes (.report _ s)).markFailed ⟨name, schema, hc, rfl, hd, fun _ => hb⟩
  | known => exact h
  | opened _ _ _ _ hp =>
    exact populate_excuses hr hp (h.grow rfl (fun hc => hc) (List.prefix_refl _))
  | round _ _ hs _ =>
    have hk : S.Excused s (caseKey name) := ⟨name, schema, hc, rfl, hd, fun ho => by simp_all⟩
    exact (h.markFailed hk).notes (.report _ _)
  | @lost t _ _ hs _ ht =>
    obtain ⟨hg, he⟩ := hr _ _ _ _ ht
    have hk : S.Excused (pop t).2 (caseKey name) :=
      ⟨name, schema, hg.claimed hc, rfl, hd, fun ho => by simp_all⟩
    exact Excuses.markFailed (he h) hk
  | found _ _ _ _ ht => exact (hr _ _ _ _ ht).2 h

theorem definition_excuses (hr : S.Excusing r) (h : S.Excuses s) {name owner : String}
    {pointer : Pointer}
    (hd : resolveDefinition S.context r name pointer owner s = some (type, t)) : S.Excuses t := by
  obtain ⟨-, -, ⟨-, rfl⟩ | rfl⟩ | ⟨canonical, schema, hfound, ⟨d, -, -, rfl⟩ | ⟨u, hk, hs⟩⟩ :=
    resolveDefinition_cases hd
  · exact h
  · exact h.notes (.report _ s)
  · exact h.notes (.report _ s)
  · have hget := get?_of_definition? hfound
    obtain ⟨hc, rfl⟩ | ⟨hc, rfl⟩ := claimed_cases hk
    · have hu : S.Excuses (claim (caseKey canonical) canonical s).2 :=
        h.grow rfl (claim_grows hc).claimed (List.prefix_refl _)
      exact settles_excuses hr hu ((Fields.get?_set ..).trans (if_pos rfl)) hget hs
    · exact settles_excuses hr h hc hget hs

theorem step_excuses (hr : S.Excusing r) (h : S.Excuses s) {site : Site}
    (ht : resolveStep S.context r site s = some (type, t)) : S.Excuses t := by
  cases resolveStep_takes ht with
  | refused hn => exact h.notes hn.notes
  | reference _ _ hd => exact definition_excuses hr h hd
  | enum _ _ hb =>
    obtain ⟨d, hb'⟩ | ⟨values, -, ⟨-, hb'⟩ | ⟨extension, -, ⟨-, hb'⟩ | ⟨id, -, -, hb'⟩⟩⟩ :=
      buildEnum_cases S.context.settings site _ s
    all_goals cases hb.symm.trans hb'
    all_goals exact h
  | sequence _ _ ht => exact (hr _ _ _ _ ht).2 (h.notes (noteClash_notes ..))
  | anything => exact h
  | dictionary _ ht => exact (hr _ _ _ _ ht).2 h
  | inline _ hb =>
    obtain ⟨d, -, -, rfl⟩ | ⟨id, -, -, -, rfl⟩ | ⟨-, -, hp⟩ := buildInline_cases hb
    · exact h.notes (.report _ s)
    · exact h
    · exact populate_excuses hr hp (h.grow rfl (fun hc => hc) (List.prefix_refl _))
  | scalar _ _ ha => exact h.notes ha.notes

end

/-- All failures of a whole run are excused. -/
theorem excuses_of_resolveAll {methods : List Method}
    (hall : Build.resolveAll context (resolveSite context) {} = some (methods, last)) :
    (ofBuild context).Excuses last := by
  refine kept_of_resolveAll (ofBuild context).Excuses
    (P := fun _ s _ t => Grows s t ∧ ((ofBuild context).Excuses s → (ofBuild context).Excuses t))
    ?_ ?_ ?_ ?_ (fun _ hk => nomatch hk) hall
  · intro site s type t hm ht
    refine (hm.induct_within hall (P := fun _ s _ t =>
      (ofBuild context).Excuses s → (ofBuild context).Excuses t) ?_ ht).imp_left
      fun hw => hw.later.toGrows
    intro r site s type t _ hr ht h
    refine step_excuses (fun _ _ _ _ hcall => ?_) h ht
    obtain ⟨-, hw, hp⟩ := hr _ _ _ _ hcall
    exact ⟨hw.later.toGrows, hp⟩
  · exact fun hp => hp.2
  · exact fun ha h => h.notes ha.notes
  · intro r name s type t hr ht h
    exact definition_excuses hr h ht

end Scene

open Scene

/-- An object type that a run resolves: its position and name, the type that it gets, and the
state afterwards. -/
inductive Resolves (context : Context) :
    Position → String → Option ModelType → State → Prop where
  | inline {site : Site} {p : Position} {type : Option ModelType} {s t : State}
      (h : Made context (.node site) s) (hs : site.schema.isComposite = true)
      (hp : p.pointer = site.pointer) (ht : resolveSite context site s = some (type, t)) :
      Resolves context p site.name type t
  | defined {name owner canonical : String} {pointer : Pointer} {schema : Schema}
      {type : Option ModelType} {s t : State}
      (h : Made context (.definition name pointer owner) s)
      (hd : context.document.definition? name = some (canonical, schema))
      (hs : schema.isComposite = true)
      (ht : resolveDefinition context (resolveSite context) name pointer owner s =
        some (type, t)) :
      Resolves context ⟨.definition canonical, []⟩ canonical type t

def Occupied (c : Catalog) (p : Position) (name : String) (id : CompositeId) : Prop :=
  ∃ composite, c.composite? id = some composite ∧ caseKey composite.name = caseKey name ∧
    composite.origin = p.pointer.text

theorem Occupied.mono {c d : Catalog} (h : c.Grows d) {p : Position} {name : String}
    {id : CompositeId} (ho : Occupied c p name id) : Occupied d p name id := by
  obtain ⟨composite, hc, hn, horigin⟩ := ho
  obtain ⟨later, hl, hn', ho'⟩ := h.composites hc
  exact ⟨later, hl, by rw [hn', hn], by rw [ho', horigin]⟩

theorem occupied_of_typed {c : Catalog} {types : String → Option ModelType} (site : Site)
    {type : ModelType} {p : Position} (hp : p.pointer = site.pointer)
    (hs : site.schema.isComposite = true) (h : HasType context c types site type) :
    ∃ id, type = .composite id ∧ Occupied c p site.name id := by
  obtain ⟨id, composite, rfl, hc, hn, ho⟩ := h.exists_composite hs
  exact ⟨id, rfl, composite, hc, hn, hp ▸ ho⟩

theorem occupied_of_registered {p : Position} {pointer : Pointer} (hp : p.pointer = pointer)
    {name : String} (hi : S.Inv s) (hg : Grows (registerComposite name pointer s).2 last) :
    last.Blames ∨ ∃ id, Occupied last.catalog p name id := by
  subst hp
  obtain ⟨-, hreg⟩ | ⟨id, hf, ho, hreg⟩ | ⟨d, hreg⟩ := registerComposite_cases name p.pointer s
  · rw [hreg] at hg
    exact .inr ⟨_, Occupied.mono hg.catalog
      ⟨_, Catalog.composite?_addComposite_self .., rfl, rfl⟩⟩
  · rw [hreg] at hg
    obtain ⟨composite, hc, hn⟩ := (hi.keyed name id).mp hf
    rw [hc] at ho
    exact .inr ⟨id, Occupied.mono hg.catalog ⟨composite, hc, hn, ho⟩⟩
  · rw [hreg] at hg
    exact .inl ((blames_report (registerComposite_clash hreg).1 s).mono hg.defects)

namespace Resolves

variable {methods : List Method} {p q : Position} {name name' : String}
  {type type' : Option ModelType}

/-- An object type that gets a type becomes the composite of its name and position. -/
theorem occupied (h : Resolves context p name type t)
    (hall : Build.resolveAll context (resolveSite context) {} = some (methods, last))
    {x : ModelType} (hx : type = some x) :
    ∃ id, x = .composite id ∧ Occupied last.catalog p name id := by
  subst hx
  cases h with
  | inline h hs hp ht =>
    obtain ⟨⟨hi, hstands⟩, hg⟩ := h.kept hall
    have hy := (resolveSite_keeps (ofBuild context) last _ _ ⟨hstands, hi⟩).holds ht
    obtain ⟨id, rfl, ho⟩ := occupied_of_typed _ hp hs (hy.holds rfl)
    exact ⟨id, rfl, ho.mono (hg (map_found ht)).catalog⟩
  | @defined found _ _ pointer schema _ _ _ h hd hs ht =>
    obtain ⟨⟨hi, -⟩, hg⟩ := h.kept hall
    have hy := (resolveDefinition_keeps (resolveSite_keeps (ofBuild context) last) hi _ _ _).holds
      ht
    obtain ⟨canonical', schema', hd', hx, hc⟩ := hy.holds rfl
    obtain ⟨rfl, rfl⟩ := Prod.mk.inj (Option.some.inj (hd.symm.trans hd'))
    have htyped := hy.reaches.inv.typed_of_claimed hc (get?_of_definition? hd) hx
    obtain ⟨id, rfl, ho⟩ := occupied_of_typed (definitionSite name schema)
      (p := ⟨.definition name, []⟩) (Position.pointer_root _) hs htyped
    exact ⟨id, rfl, ho.mono (hg (map_found ht)).catalog⟩

/-- Whether an object type gets a type or not, its name is taken for its position in the end, or a
defect of a schema has been found. -/
theorem occupied_or_blames (h : Resolves context p name type t)
    (hall : Build.resolveAll context (resolveSite context) {} = some (methods, last)) :
    last.Blames ∨ ∃ id, Occupied last.catalog p name id := by
  have h' := h
  cases h with
  | inline h hs hp _ =>
    obtain ⟨⟨hi, -⟩, hg⟩ := (h.inline hs).kept hall
    exact occupied_of_registered hp hi (hg rfl)
  | @defined found owner _ pointer schema _ s t h hd hs ht =>
    obtain ⟨⟨hi, -⟩, hg⟩ := h.kept hall
    have hgrows := hg (map_found ht)
    obtain ⟨hnone, -⟩ | ⟨canonical', schema', hd', ⟨d, hk, -, rfl⟩ | ⟨u, hk, hsettles⟩⟩ :=
      resolveDefinition_cases ht
    · cases hd.symm.trans hnone
    · exact .inl ((blames_report (claimKey_clash hk).1 s).mono hgrows.defects)
    obtain ⟨rfl, rfl⟩ := Prod.mk.inj (Option.some.inj (hd.symm.trans hd'))
    obtain ⟨hiu, hc⟩ := inv_of_claimKey hi hk
    -- Where the definition is new its registration is a call of the run.
    have hregistered : u.typeOf? name = none → caseKey name ∉ u.failed →
        last.Blames ∨ ∃ id, Occupied last.catalog ⟨.definition name, []⟩ name id := by
      intro hn hf
      obtain ⟨⟨hi', -⟩, hg'⟩ := (h.defined hd hk hn hf hs).kept hall
      exact occupied_of_registered (p := ⟨.definition name, []⟩) (Position.pointer_root _) hi'
        (hg' rfl)
    cases hsettles with
    | remembered hx =>
      obtain ⟨id, -, ho⟩ := h'.occupied hall rfl
      exact .inr ⟨id, ho⟩
    | failed _ hf =>
      obtain ⟨name', schema', hc', -, hget, hblames⟩ :=
        excuses_of_resolveAll hall _ (hgrows.failed hf)
      obtain rfl := Option.some.inj ((hgrows.claimed hc).symm.trans hc')
      obtain rfl := Option.some.inj ((get?_of_definition? hd).symm.trans hget)
      exact .inl (hblames hs)
    | clash hn hf | known hn hf | opened hn hf => exact hregistered hn hf
    | round _ _ ho | lost _ _ ho | found _ _ ho => simp_all

end Resolves

theorem conclude_blames {methods : List Method} (h : t.Blames) : ∃ found,
    (Build.conclude context methods t).result = .error (.defects found) ∧
      ∃ d ∈ found, d.kind = .schema := by
  obtain ⟨d, hd, hk⟩ := h
  obtain ⟨found, hr, hm⟩ := Scene.conclude_reports_iff.mpr (.inl hd)
  exact ⟨found, hr, d, hm, hk⟩

end Resolution

open Resolution

/-- Pointers tell positions apart whatever the names in them are, and every schema that a run
resolves is at the position that its pointer writes. So object types at different positions become
different composites, and where a run resolves two of them whose names are equal up to case there
is no model, but a defect of a schema. -/
theorem positions_kept_apart (context : Context) :
    (∀ p q : Position, p.pointer.text = q.pointer.text → p = q) ∧
    (∀ site s, Made context (.node site) s →
      ∃ p : Position, p.pointer = site.pointer ∧ context.document.Holds p site.schema) ∧
    (∀ p q name name' id t u, Resolves context p name (some (.composite id)) t →
      Resolves context q name' (some (.composite id)) u → p = q) ∧
    (∀ p q name name' type type' t u, Resolves context p name type t →
      Resolves context q name' type' u → p ≠ q → caseKey name = caseKey name' →
        ∃ found, (Build.run context).result = .error (.defects found) ∧
          ∃ d ∈ found, d.kind = .schema) := by
  obtain ⟨methods, last, hall, hrun⟩ := run_eq_conclude context
  refine ⟨fun p q h => Position.text_injective h, ?_, ?_, ?_⟩
  · intro site s h
    exact Document.exists_position (h.kept hall).1.2
  · intro p q name name' id t u hp hq
    obtain ⟨_, ⟨⟩, x, hx, -, hxo⟩ := hp.occupied hall rfl
    obtain ⟨_, ⟨⟩, y, hy, -, hyo⟩ := hq.occupied hall rfl
    cases hx.symm.trans hy
    exact Position.text_injective (hxo.symm.trans hyo)
  · intro p q name name' type type' t u hp hq hne hk
    have hblames : last.Blames := by
      rcases hp.occupied_or_blames hall with hb | ⟨a, x, hx, hxn, hxo⟩
      · exact hb
      rcases hq.occupied_or_blames hall with hb | ⟨b, y, hy, hyn, hyo⟩
      · exact hb
      have hi := (Scene.resolveAll_keeps
        (Scene.resolveSite_keeps (Scene.ofBuild context) last)).holds hall
      obtain rfl := hi.inv.keyed.id_eq hx hy (hxn.trans (hk.trans hyn.symm))
      cases hx.symm.trans hy
      exact absurd (Position.text_injective (hxo.symm.trans hyo)) hne
    rw [hrun]
    exact conclude_blames hblames

def litter : Document where
  definitions := [
    ("Names", { typeName := some "array", items := some { typeName := some "string" } }),
    ("Pet", { properties := [("name", { typeName := some "string" })] }),
    ("pet", { properties := [("tag", { typeName := some "integer" })] })]

theorem positions_kept_apart_litter :
    (∃ p : Position, p.pointer = Pointer.definition "Names" ∧
      ∃ s, litter.Holds p s ∧ s.isArray = true) ∧
    (∀ q name u, Resolves ⟨litter, {}⟩ q name (some (.composite ⟨0⟩)) u →
      q = ⟨.definition "Pet", []⟩) ∧
    ∃ found, (Build.run ⟨litter, {}⟩).result = .error (.defects found) ∧
      ∃ d ∈ found, d.kind = .schema := by
  let context : Context := ⟨litter, {}⟩
  have hkeys : Fields.keys litter.definitions = [] ++ "Names" :: ["Pet", "pet"] := rfl
  have hkeys' : Fields.keys litter.definitions = ["Names"] ++ "Pet" :: ["pet"] := rfl
  have hkeys'' : Fields.keys litter.definitions = ["Names", "Pet"] ++ "pet" :: [] := rfl
  have hnames : Made context (.definition "Names" (Pointer.definition "Names") "Names") {} :=
    .definition hkeys rfl
  -- The array comes first, so its call is known outright.
  have harray := hnames.aliased rfl (show claimKey "Names" {} = (true, _) from rfl) rfl
    (by decide) rfl rfl
  have hpet : ((resolveDefinitions context (resolveSite context) ["Names"] {}).bind fun p =>
      resolveTop context (resolveSite context) "Pet" p.2).map Prod.fst =
        some (some (.composite ⟨0⟩)) := by decide +kernel
  obtain ⟨⟨_, t⟩, ht, rfl⟩ := Option.map_eq_some_iff.mp hpet
  obtain ⟨⟨⟨⟩, s⟩, hs, ht⟩ := Option.bind_eq_some_iff.mp ht
  have hfirst : Resolves context ⟨.definition "Pet", []⟩ "Pet" (some (.composite ⟨0⟩)) t :=
    .defined (.definition hkeys' hs) rfl rfl ht
  have hs' : resolveDefinitions context (resolveSite context) ["Names", "Pet"] {} =
      some ((), t) := by
    obtain ⟨type, u, hu, hnil⟩ := resolveDefinitions_cons.mp hs
    cases hnil
    exact resolveDefinitions_cons.mpr ⟨type, _, hu, resolveDefinitions_cons.mpr ⟨_, _, ht, rfl⟩⟩
  obtain ⟨type, u, hu⟩ := Ends.resolveDefinition (resolveSite_total context) context "pet"
    (Pointer.definition "pet") "pet" t
  have hsecond : Resolves context ⟨.definition "pet", []⟩ "pet" type u :=
    .defined (.definition hkeys'' hs') rfl rfl hu
  obtain ⟨-, hplaces, happart, hclash⟩ := positions_kept_apart context
  refine ⟨?_, fun q name u hq => happart _ _ _ _ _ _ _ hq hfirst, ?_⟩
  · obtain ⟨p, hp, hholds⟩ := hplaces _ _ harray
    exact ⟨p, hp, _, hholds, rfl⟩
  · exact hclash _ _ _ _ _ _ _ _ hfirst hsecond (by decide) (by decide +kernel)

end ApiModel
