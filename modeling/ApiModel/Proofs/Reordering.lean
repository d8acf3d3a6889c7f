import ApiModel.Grammars
import ApiModel.Proofs.Anonymous
import ApiModel.Proofs.Correspondence
import ApiModel.Proofs.Equivariance
import ApiModel.Proofs.Lineage
import ApiModel.Proofs.Reading

/-! # The order of the definitions

A document and the same document with its definitions in another order have the same model up to
indices, or neither has one. Once it is known that the definitions are in order, a build of the
one is a build of the other that takes them in another order.
-/

namespace ApiModel

open Text (caseKey)
open Resolution

/-- The same document with its definitions in another order. -/
structure Document.Reordered (d e : Document) : Prop where
  definitions : e.definitions.Perm d.definitions
  malformed : e.malformed.Perm d.malformed
  rest : e = { d with definitions := e.definitions, malformed := e.malformed }

namespace Document

def definitionOf? (m : String × Json) : Option (String × Schema) :=
  (Schema.read m.2).toOption.map fun s => (m.1, s)

def malformedOf? (m : String × Json) : Option (String × Mismatch) :=
  match Schema.read m.2 with
  | .ok _ => none
  | .error reason => some (m.1, reason)

theorem foldl_addDefinition (members : List (String × Json)) (d : Document) :
    members.foldl (fun d m => d.addDefinition m.1 m.2) d =
      { d with
        definitions := d.definitions ++ members.filterMap definitionOf?
        malformed := d.malformed ++ members.filterMap malformedOf? } := by
  induction members generalizing d with
  | nil => simp
  | cons m rest ih =>
    rw [List.foldl_cons, ih, addDefinition]
    cases hr : Schema.read m.2 <;>
      simp [definitionOf?, malformedOf?, hr, Except.toOption]

/-- Where the members of `definitions` are in another order the same document is read, with its
definitions in another order. -/
theorem read_reordered {members definitions definitions' : List (String × Json)} {d : Document}
    (hm : Fields.get? members "definitions" = some (.obj definitions))
    (hp : definitions'.Perm definitions) (h : read (.obj members) = .ok d) :
    ∃ e, read (.obj (Fields.set members "definitions" (.obj definitions'))) = .ok e ∧
      d.Reordered e := by
  have hkey : "definitions" ∈ Fields.keys members := by
    rw [← Fields.get?_isSome_iff, hm]
    rfl
  have hversion : versionOf (.obj (Fields.set members "definitions" (.obj definitions'))) =
      versionOf (.obj members) := by
    simp [versionOf, Json.get?]
  have hframe : ∀ version, frame version (Fields.set members "definitions" (.obj definitions')) =
      frame version members := by
    intro version
    unfold frame
    rw [Fields.set_comm hkey (by decide), Fields.eraseSwap_set]
    rw [Fields.keys_set]
    split
    · exact hkey
    · exact List.mem_append_left _ hkey
  unfold read at h ⊢
  rw [hversion]
  simp only [hframe, hm, Fields.get?_set] at h ⊢
  cases hv : versionOf (.obj members) with
  | error fault =>
    rw [hv] at h
    cases h
  | ok version =>
    rw [hv] at h
    simp only [bind, Except.bind] at h ⊢
    generalize Except.mapError Fault.mismatch _ = read at h ⊢
    cases read with
    | error fault => cases h
    | ok base =>
      simp only [foldl_addDefinition, definitionsOf] at h ⊢
      cases h
      exact ⟨_, rfl, (hp.filterMap _).append_left _, (hp.filterMap _).append_left _, rfl⟩

end Document

theorem find?_eq_of_perm {α : Type} {l l' : List α} {p : α → Bool} (h : l'.Perm l)
    (hone : ∀ x ∈ l, ∀ y ∈ l, p x = true → p y = true → x = y) : l'.find? p = l.find? p := by
  cases hx : l'.find? p with
  | none =>
    have hnone := List.find?_eq_none.mp hx
    exact (List.find?_eq_none.mpr fun x hm => hnone x (h.mem_iff.mpr hm)).symm
  | some x =>
    have hm := h.mem_iff.mp (List.mem_of_find?_eq_some hx)
    cases hy : l.find? p with
    | none => exact absurd (List.find?_some hx) (List.find?_eq_none.mp hy x hm)
    | some y =>
      rw [hone x hm y (List.mem_of_find?_eq_some hy) (List.find?_some hx) (List.find?_some hy)]

namespace Document.Reordered

variable {d e : Document} {settings : Settings} {grammars : Grammars}

theorem symm (h : d.Reordered e) : e.Reordered d where
  definitions := h.definitions.symm
  malformed := h.malformed.symm
  rest := by rw [h.rest]

theorem namesOnce (h : d.Reordered e) (hn : d.NamesOnce) : e.NamesOnce := by
  have hpaths : e.paths = d.paths := by rw [h.rest]
  have hparameters : e.parameters = d.parameters := by rw [h.rest]
  refine ⟨(h.definitions.map Prod.fst).nodup_iff.mpr hn.definitions, hpaths ▸ hn.paths,
    hpaths ▸ hn.responses, ?_⟩
  have hall := hn.properties
  unfold Document.all at hall ⊢
  rw [hpaths, hparameters, h.definitions.all_eq]
  exact hall

section Lookup

variable (h : d.Reordered e) (hn : d.NamesOnce)
include h hn

theorem get?_eq (name : String) :
    Fields.get? e.definitions name = Fields.get? d.definitions name :=
  Fields.get?_of_perm hn.definitions h.definitions name

theorem definition?_eq (hl : Lawful ⟨d, settings⟩ d.HasSite) (name : String) :
    e.definition? name = d.definition? name := by
  unfold Document.definition?
  rw [h.get?_eq hn]
  cases Fields.get? d.definitions name with
  | some s => rfl
  | none =>
    refine find?_eq_of_perm h.definitions fun x hx y hy hkx hky => ?_
    obtain ⟨n, s⟩ := x
    obtain ⟨n', s'⟩ := y
    have hs := Fields.get?_of_mem hn.definitions hx
    have hs' := Fields.get?_of_mem hn.definitions hy
    obtain rfl := hl.keys hs hs' ((beq_iff_eq.mp hkx).trans (beq_iff_eq.mp hky).symm)
    cases hs.symm.trans hs'
    rfl

theorem allowsOneValue_eq (s : Schema) : allowsOneValue e s = allowsOneValue d s := by
  unfold allowsOneValue
  simp only [h.get?_eq hn]

omit hn in
theorem fuelFor_eq (s : Schema) : fuelFor e s = fuelFor d s := by
  have hsize : ∀ {l l' : List (String × Schema)}, l.Perm l' →
      Schema.propertySize l = Schema.propertySize l' := by
    intro l l' hp
    induction hp with
    | nil => rfl
    | cons x _ ih => simp only [Schema.propertySize, ih]
    | swap x y l =>
      simp only [Schema.propertySize]
      omega
    | trans _ _ ih ih' => exact ih.trans ih'
  unfold fuelFor
  rw [hsize h.definitions]

end Lookup

section Resolution

variable (h : d.Reordered e) (hn : d.NamesOnce) (hl : Lawful ⟨d, settings⟩ d.HasSite)
include h hn hl

omit hl in
theorem populate_eq : populate ⟨e, settings⟩ = populate ⟨d, settings⟩ := by
  unfold populate resolveMembers resolveMember
  simp only [h.allowsOneValue_eq hn]

theorem resolveDefinition_eq :
    resolveDefinition ⟨e, settings⟩ = resolveDefinition ⟨d, settings⟩ := by
  have hmalformed : ∀ name, e.isMalformed name = d.isMalformed name := fun name =>
    h.malformed.any_eq
  unfold resolveDefinition resolveClaimed buildDefined
  simp only [h.populate_eq hn, hmalformed, h.definition?_eq hn hl]

theorem resolveStep_eq : resolveStep ⟨e, settings⟩ = resolveStep ⟨d, settings⟩ := by
  unfold resolveStep resolveReference buildInline
  simp only [h.populate_eq hn, h.resolveDefinition_eq hn hl]

theorem resolveSite_eq : resolveSite ⟨e, settings⟩ = resolveSite ⟨d, settings⟩ := by
  have hresolve : ∀ n, resolve ⟨e, settings⟩ n = resolve ⟨d, settings⟩ n := fun n => by
    induction n with
    | zero => rfl
    | succ n ih =>
      funext site
      show resolveStep _ (resolve _ n) site = resolveStep _ (resolve _ n) site
      rw [h.resolveStep_eq hn hl, ih]
  funext site
  unfold resolveSite
  rw [hresolve, h.fuelFor_eq]

theorem resolveDefinitions_eq (names : List String) :
    resolveDefinitions ⟨e, settings⟩ (resolveSite ⟨e, settings⟩) names =
      resolveDefinitions ⟨d, settings⟩ (resolveSite ⟨d, settings⟩) names := by
  unfold resolveDefinitions resolveTop
  rw [h.resolveSite_eq hn hl, h.resolveDefinition_eq hn hl]

theorem buildMethods_eq :
    buildMethods ⟨e, settings⟩ (resolveSite ⟨e, settings⟩) (operationsOf e) =
      buildMethods ⟨d, settings⟩ (resolveSite ⟨d, settings⟩) (operationsOf d) := by
  rw [h.resolveSite_eq hn hl, h.rest]
  rfl

end Resolution

end Document.Reordered

namespace Build

variable {context : Context} {methods : List Method} {t : State}

def modelOf (context : Context) (url : Option String) (methods : List Method) (t : State) :
    ClientModel where
  name := clientName context
  apiVersion := context.document.info.version
  baseUrl := url
  description := context.document.info.description
  catalog := Hierarchy.settled t.catalog
  methods := methods

theorem conclude_eq_ok_iff {m : ClientModel} : (conclude context methods t).result = .ok m ↔
    t.defects = [] ∧ Hierarchy.defects t.catalog = [] ∧
      ∃ url, baseUrl context = .ok url ∧ m = modelOf context url methods t := by
  unfold conclude
  cases baseUrl context with
  | error d => simp
  | ok url =>
    dsimp only
    split
    · rename_i hempty
      obtain ⟨hd, hh⟩ := List.append_eq_nil_iff.mp (List.isEmpty_iff.mp hempty)
      constructor
      · rintro ⟨⟩
        exact ⟨hd, hh, url, rfl, rfl⟩
      · rintro ⟨-, -, _, ⟨⟩, rfl⟩
        rfl
    · rename_i hne
      refine iff_of_false nofun ?_
      rintro ⟨hd, hh, -⟩
      simp [hd, hh] at hne

theorem run_cases (context : Context) : (∃ m, (run context).result = .ok m) ∨
    ∃ found, found ≠ [] ∧ (run context).result = .error (.defects found) := by
  obtain ⟨methods, t, -, hrun⟩ := run_eq_conclude context
  rw [hrun]
  unfold conclude
  cases baseUrl context with
  | ok url =>
    dsimp only
    split
    · exact .inl ⟨_, rfl⟩
    · rename_i hne
      exact .inr ⟨_, fun hnil => hne (List.isEmpty_iff.mpr hnil), rfl⟩
  | error d =>
    dsimp only
    rw [if_neg (by simp)]
    exact .inr ⟨_, by simp, rfl⟩

end Build

namespace Resolution

variable {context : Context} {t : State}

theorem mem_keys_iff {d : Document} {names : List String}
    (h : names.Perm (Fields.keys d.definitions)) (name : String) :
    name ∈ names ↔ ∃ schema, Fields.get? d.definitions name = some schema := by
  rw [h.mem_iff, ← Fields.get?_isSome_iff, Option.isSome_iff_exists]

/-- The definitions of a lawful document are in order, however they are taken. -/
theorem concluded_of_lawful (hl : Lawful context context.document.HasSite)
    (hn : context.document.NamesOnce) {names : List String}
    (hnames : names.Perm (Fields.keys context.document.definitions))
    (h : resolveDefinitions context (resolveSite context) names
      (Build.reportMalformed context.document {}).2 = some ((), t)) : Concluded context t := by
  have hi := Scene.inv_reportMalformed context
  have hframes := (Scene.reportMalformed_notes context.document {}).frames_eq
  have hclean : (Build.reportMalformed context.document {}).2.defects = [] := by
    rw [Build.reportMalformed, Build.malformedDefects, hl.malformed]
    rfl
  have hd := definitions_clean hl hn.region (fun name hm => (mem_keys_iff hnames name).mp hm) hi
    (fits_reportMalformed context) hclean hframes h
  have hc := complete_of_resolveDefinitions hn.region (mem_keys_iff hnames) hd h
  exact { hc with
    originsOnce := originsOnce_of_resolveDefinitions hn hc.fits h
    frames := (resolveDefinitions_reaches hi h).later.frames.trans hframes }

end Resolution

open Build

namespace Document.Reordered

variable {d e : Document} {settings : Settings} {grammars : Grammars}

/-- A model of a document corresponds to one of the reordered document. -/
theorem exists_renumbered (h : d.Reordered e) (hn : d.NamesOnce) {m : ClientModel}
    (hm : (run ⟨d, settings⟩).result = .ok m) :
    ∃ m' ρ, (run ⟨e, settings⟩).result = .ok m' ∧ m.Renumbered ρ m' := by
  obtain ⟨methods, t, ht, hrun⟩ := run_eq_conclude ⟨d, settings⟩
  obtain ⟨methods', t', ht', hrun'⟩ := run_eq_conclude ⟨e, settings⟩
  rw [hrun] at hm
  rw [hrun']
  obtain ⟨hd, hh, url, hurl, rfl⟩ := conclude_eq_ok_iff.mp hm
  obtain ⟨s, hs, hmethods⟩ := resolveAll_eq_some ht
  obtain ⟨s', hs', hmethods'⟩ := resolveAll_eq_some ht'
  have hi := (resolveDefinitions_reaches (Scene.inv_reportMalformed _) hs).inv
  have hclean := (buildMethods_reaches hi (List.Subset.refl _) hmethods).later.toGrows.clean hd
  -- The first run shows that the document is lawful, so the second one has to succeed too.
  have hcomplete := complete_of_resolveDefinitions hn.region (mem_keys_iff (.refl _)) hclean hs
  have hl := hcomplete.lawful hn.region (fun ho => hcomplete.covers hn.region ho)
  have hc := concluded_of_lawful hl hn (.refl _) hs
  have hstart : (reportMalformed e {}).2 = (reportMalformed d {}).2 := by
    have hmalformed : d.malformed = [] := hl.malformed
    have hmalformed' : e.malformed = [] := List.perm_nil.mp (hmalformed ▸ h.malformed)
    rw [reportMalformed, reportMalformed, malformedDefects, malformedDefects, hmalformed,
      hmalformed']
  rw [h.resolveDefinitions_eq hn hl, hstart] at hs'
  have hc' := concluded_of_lawful hl hn (h.definitions.map Prod.fst) hs'
  obtain ⟨ρ, hlike⟩ := exists_like hc hc' hn
  rw [h.buildMethods_eq hn hl] at hmethods'
  have hlockstep : Lockstep (Like ρ) (Tracks (List.map ρ.method))
      (buildMethods ⟨d, settings⟩ (resolveSite ⟨d, settings⟩) (operationsOf d)) _ :=
    .buildMethods (.resolveSite ρ ⟨d, settings⟩) (operationsOf d)
  have hstep := hlockstep s s' hlike
  rw [hmethods, hmethods'] at hstep
  cases hstep with
  | some hstep =>
    obtain ⟨hmapped, hlike⟩ := hstep
    have hurl' : baseUrl ⟨e, settings⟩ = .ok url := by
      rw [h.rest]
      exact hurl
    refine ⟨modelOf ⟨e, settings⟩ url methods' t', ρ, conclude_eq_ok_iff.mpr
      ⟨hlike.defects.mpr hd, (Hierarchy.defects_renumbered hlike.catalog).mpr hh, url, hurl', rfl⟩,
      ?_⟩
    have hinfo : e.info = d.info := by rw [h.rest]
    refine ⟨?_, congrArg ApiInfo.version hinfo, rfl, congrArg ApiInfo.description hinfo,
      Hierarchy.settled_renumbered hlike.catalog, hmapped⟩
    show clientName ⟨e, settings⟩ = clientName ⟨d, settings⟩
    simp only [clientName, hinfo]

theorem stands (h : d.Reordered e) (hn : d.NamesOnce) {pointer : Pointer} {s : Schema}
    (hs : Resolution.Stands e (operationRoots e) pointer s) :
    Resolution.Stands d (operationRoots d) pointer s := by
  have hroots : operationRoots e = operationRoots d := by
    rw [h.rest]
    rfl
  induction hs with
  | root hr => exact .root (hroots ▸ hr)
  | definition hd => exact .definition (h.get?_eq hn _ ▸ hd)
  | items _ hi ih => exact .items ih hi
  | value _ hv ih => exact .value ih hv
  | property _ hm ih => exact .property ih hm
  | part _ hp ih => exact .part ih hp

end Document.Reordered

/-- An enum is listed by a schema of the document, which is its origin and gives it its name. -/
def EnumType.OccursIn (context : Context) (e : EnumType) : Prop :=
  ∃ schema pointer, (Scene.ofBuild context).Lists schema pointer e

theorem occursIn_of_run {context : Context} {m : ClientModel} (h : (run context).result = .ok m) :
    ∀ e ∈ m.catalog.enums, e.OccursIn context := by
  obtain ⟨t, -, hf, -, -, hcatalog⟩ := Scene.finished_of_run h
  intro e he
  rw [hcatalog] at he
  obtain ⟨i, hi⟩ := List.mem_iff_getElem?.mp he
  exact hf.inv.listed (show t.catalog.enum? ⟨i⟩ = some e from hi)

theorem Document.Reordered.occursIn [Grammars] {d e : Document} {settings : Settings}
    (h : d.Reordered e) (hn : d.NamesOnce) {x : EnumType} (hx : x.OccursIn ⟨e, settings⟩) :
    x.OccursIn ⟨d, settings⟩ := by
  obtain ⟨schema, pointer, hl⟩ := hx
  exact ⟨schema, pointer, { hl with stands := h.stands hn hl.stands }⟩

/-- Of a document and the same document with its definitions in another order both have a model or
neither has one. The models are the same up to indices, but for the spelling and the origin of an
enum that has a name: each has those of an occurrence of the enum in the document. -/
theorem run_reordered [Grammars] (settings : Settings) {d e : Document} (hn : d.NamesOnce)
    (h : d.Reordered e) :
    (∃ m m' ρ, (run ⟨d, settings⟩).result = .ok m ∧ (run ⟨e, settings⟩).result = .ok m' ∧
      m.Renumbered ρ m' ∧ (∀ x ∈ m.catalog.enums, x.OccursIn ⟨d, settings⟩) ∧
      ∀ x ∈ m'.catalog.enums, x.OccursIn ⟨d, settings⟩) ∨
    ∃ found found', found ≠ [] ∧ found' ≠ [] ∧
      (run ⟨d, settings⟩).result = .error (.defects found) ∧
      (run ⟨e, settings⟩).result = .error (.defects found') := by
  obtain ⟨m, hm⟩ | ⟨found, hne, herror⟩ := run_cases ⟨d, settings⟩
  · obtain ⟨m', ρ, hm', hr⟩ := h.exists_renumbered hn hm
    exact .inl ⟨m, m', ρ, hm, hm', hr, occursIn_of_run hm,
      fun x hx => h.occursIn hn (occursIn_of_run hm' x hx)⟩
  · obtain ⟨m', hm'⟩ | ⟨found', hne', herror'⟩ := run_cases ⟨e, settings⟩
    · obtain ⟨m, _, hm, -⟩ := h.symm.exists_renumbered (h.namesOnce hn) hm'
      cases herror.symm.trans hm
    · exact .inr ⟨found, found', hne, hne', herror, herror'⟩

def menagerie : Document where
  info := { title := "Menagerie", version := "1" }
  definitions := [
    ("Cat", { properties := [("size", {
      typeName := some "string"
      enumeration := some [.str "small", .str "large"]
      extensions := [("x-ms-enum", .str "Size")] })] }),
    ("Dog", { properties := [("size", {
      typeName := some "string"
      enumeration := some [.str "small", .str "large"]
      extensions := [("x-ms-enum", .str "SIZE")] })] })]

theorem run_reordered_menagerie :
    ∃ m m' ρ, (run ⟨menagerie, {}⟩).result = .ok m ∧
      (run ⟨{ menagerie with definitions := menagerie.definitions.reverse }, {}⟩).result = .ok m' ∧
      m.Renumbered ρ m' ∧ m.catalog.enums.map (·.name) = [some "Size"] ∧
      m'.catalog.enums.map (·.name) = [some "SIZE"] := by
  have hnames : (run ⟨menagerie, {}⟩).result.toOption.map
      (fun m => m.catalog.enums.map (·.name)) = some [some "Size"] := by decide +kernel
  have hnames' : (run ⟨{ menagerie with definitions := menagerie.definitions.reverse }, {}⟩
      ).result.toOption.map (fun m => m.catalog.enums.map (·.name)) = some [some "SIZE"] := by
    decide +kernel
  obtain ⟨m, m', ρ, hm, hm', hr, -⟩ | ⟨found, found', -, -, herror, -⟩ :=
    run_reordered {} (d := menagerie)
      (e := { menagerie with definitions := menagerie.definitions.reverse }) (by decide)
      ⟨List.reverse_perm _, .refl _, rfl⟩
  · rw [hm] at hnames
    rw [hm'] at hnames'
    exact ⟨m, m', ρ, hm, hm', hr, Option.some.inj hnames, Option.some.inj hnames'⟩
  · rw [herror] at hnames
    cases hnames

end ApiModel
