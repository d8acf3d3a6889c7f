import ApiModel.Resolution.Resolver
import ApiModel.Proofs.Catalog
import Mathlib.Tactic.SplitIfs

/-! # Small steps of a resolution

What the steps that call no resolver do to the state. Most of them only note defects and log
entries; the outcome of each is a function of its arguments, and it is nothing only where a
defect has been noted.
-/

namespace ApiModel

open Text (caseKey)

def Defect.isFormat : Defect → Bool
  | .schema _ (.unknownScalar (.format ..) _) => true
  | _ => false

/-- Whether a defect is neither a conflict between enums nor about a discriminator nor a definition
that comes round to itself nor about a format. -/
def Defect.isPlain : Defect → Bool
  | .enumConflict .. | .discriminator .. | .schema _ (.selfReference _) => false
  | d => !d.isFormat

theorem Defect.isFormat_of_isPlain {d : Defect} (h : d.isPlain = true) : d.isFormat = false := by
  unfold isPlain at h
  split at h
  · cases h
  · cases h
  · cases h
  · rwa [Bool.not_eq_true'] at h

theorem Defect.kind_ne_of_isPlain {d : Defect} (h : d.isPlain = true) :
    d.kind ≠ .discriminator := by
  cases d with
  | discriminator => cases h
  | _ => exact nofun

namespace Resolution

variable {α β : Type} {grammars : Grammars} {s t u : State}

theorem step_bind (x : Step α) (f : α → Step β) (s : State) :
    (x >>= f) s = f (x s).1 (x s).2 := rfl

theorem step_get (s : State) : (get : Step State) s = (s, s) := rfl

theorem step_modifyGet (f : State → α × State) (s : State) :
    (modifyGet f : Step α) s = f s := rfl

/-- Defects and log entries were added, and nothing else happened. -/
def Notes (s t : State) : Prop :=
  ∃ defects log, t = { s with defects := s.defects ++ defects, log := s.log ++ log }

namespace Notes

theorem refl (s : State) : Notes s s := ⟨[], [], by simp⟩

theorem trans (h : Notes s t) (h' : Notes t u) : Notes s u := by
  obtain ⟨ds, es, rfl⟩ := h
  obtain ⟨ds', es', rfl⟩ := h'
  exact ⟨ds ++ ds', es ++ es', by simp⟩

theorem report (d : Defect) (s : State) : Notes s (report d s).2 :=
  ⟨[d], [], by simp [Resolution.report]; rfl⟩

theorem catalog_eq (h : Notes s t) : t.catalog = s.catalog := by
  obtain ⟨ds, es, rfl⟩ := h; rfl

theorem frames_eq (h : Notes s t) : t.frames = s.frames := by
  obtain ⟨ds, es, rfl⟩ := h; rfl

theorem resolved_eq (h : Notes s t) : t.resolved = s.resolved := by
  obtain ⟨ds, es, rfl⟩ := h; rfl

theorem failed_eq (h : Notes s t) : t.failed = s.failed := by
  obtain ⟨ds, es, rfl⟩ := h; rfl

theorem claimed_eq (h : Notes s t) : t.claimed = s.claimed := by
  obtain ⟨ds, es, rfl⟩ := h; rfl

theorem defects_kept (h : Notes s t) : s.defects <+: t.defects := by
  obtain ⟨ds, es, rfl⟩ := h; exact List.prefix_append _ _

theorem defects_ne_nil (h : Notes s t) (hs : s.defects ≠ []) : t.defects ≠ [] := by
  obtain ⟨ds, es, rfl⟩ := h
  simp [hs]

end Notes

@[simp] theorem report_defects (d : Defect) (s : State) :
    (report d s).2.defects = s.defects ++ [d] := rfl

@[simp] theorem fail_fst (d : Defect) (s : State) :
    (fail d s : Option α × State).1 = none := rfl

@[simp] theorem fail_snd (d : Defect) (s : State) :
    (fail d s : Option α × State).2 = (report d s).2 := rfl

theorem eq_of_added {d d' : Defect} {p q : α × State} (h : p = q)
    (hp : p.2.defects = s.defects ++ [d]) (hq : q.2.defects = s.defects ++ [d']) : d = d' := by
  rw [h, hq] at hp
  exact (List.singleton_inj.mp (List.append_cancel_left hp)).symm

theorem fail_notes (d : Defect) (s : State) :
    Notes s (fail d s : Option α × State).2 := Notes.report d s

theorem fail_defects (d : Defect) (s : State) :
    (fail d s : Option α × State).2.defects ≠ [] := by simp

/-- Plain defects and log entries were added, and nothing else happened. -/
def Asides (s t : State) : Prop :=
  ∃ defects log, t = { s with defects := s.defects ++ defects, log := s.log ++ log } ∧
    ∀ d ∈ defects, d.isPlain = true

namespace Asides

theorem notes (h : Asides s t) : Notes s t := by
  obtain ⟨ds, es, ht, -⟩ := h
  exact ⟨ds, es, ht⟩

theorem refl (s : State) : Asides s s := ⟨[], [], by simp, nofun⟩

theorem trans (h : Asides s t) (h' : Asides t u) : Asides s u := by
  obtain ⟨ds, es, rfl, hd⟩ := h
  obtain ⟨ds', es', rfl, hd'⟩ := h'
  refine ⟨ds ++ ds', es ++ es', by simp, fun d hm => ?_⟩
  rcases List.mem_append.mp hm with hm | hm
  · exact hd d hm
  · exact hd' d hm

theorem report {d : Defect} (hd : d.isPlain = true) (s : State) :
    Asides s (Resolution.report d s).2 := by
  refine ⟨[d], [], by simp [Resolution.report]; rfl, fun d' hm => ?_⟩
  rwa [List.mem_singleton.mp hm]

theorem warn (message : String) (s : State) : Asides s (Resolution.warn message s).2 :=
  ⟨[], [⟨.warning, message⟩], by simp [Resolution.warn]; rfl, nofun⟩

theorem forM {l : List α} {f : α → Step Unit} (hf : ∀ a s, Asides s (f a s).2) (s : State) :
    Asides s ((l.forM f) s).2 := by
  induction l generalizing s with
  | nil => exact refl s
  | cons a l ih => exact (hf a s).trans (ih _)

end Asides

theorem Asides.baseOf (name : String) (part : BasePart) (type : Option ModelType) (s : State) :
    Asides s (Resolution.baseOf name part type s).2 := by
  unfold Resolution.baseOf
  split
  · exact refl s
  · exact report rfl s
  · exact report rfl s
  · exact refl s

theorem baseOf_notes (name : String) (part : BasePart) (type : Option ModelType) (s : State) :
    Notes s (baseOf name part type s).2 := (Asides.baseOf name part type s).notes

@[simp] theorem baseOf_fst (name : String) (part : BasePart) (type : Option ModelType)
    (s : State) : (baseOf name part type s).1 = type.bind ModelType.composite? := by
  unfold baseOf
  split
  · rfl
  · rfl
  · rename_i other hc _
    cases other with
    | composite id => exact (hc id rfl).elim
    | _ => rfl
  · rfl

theorem baseOf_defects {name : String} {part : BasePart} {type : Option ModelType} {s : State}
    (h : (baseOf name part type s).1 = none) (ht : type ≠ none) :
    (baseOf name part type s).2.defects ≠ [] := by
  rw [baseOf_fst] at h
  unfold baseOf
  split
  · cases h
  · exact fail_defects _ s
  · exact fail_defects _ s
  · exact absurd rfl ht

theorem Asides.reportSecondBases (name : String) (parts : List BasePart) (s : State) :
    Asides s (Resolution.reportSecondBases name parts s).2 := forM (fun _ s => report rfl s) s

theorem reportSecondBases_notes (name : String) (parts : List BasePart) (s : State) :
    Notes s (reportSecondBases name parts s).2 := (Asides.reportSecondBases name parts s).notes

theorem reportSecondBases_defects {name : String} {parts : List BasePart} {s : State}
    (h : parts ≠ []) : (reportSecondBases name parts s).2.defects ≠ [] := by
  cases parts with
  | nil => exact absurd rfl h
  | cons part rest =>
    let d := Defect.schema name (.secondBase part.reference part.pointer)
    exact (reportSecondBases_notes name rest (report d s).2).defects_ne_nil (by simp)

theorem constraints_ok {facets : Facets} {pointer : Pointer} {owner : String} {c : Constraints}
    (h : constraintsOf grammars facets pointer = .ok c) (s : State) :
    constraints grammars facets pointer owner s = (some c, s) := by
  unfold constraints
  rw [h]; rfl

theorem constraints_error {facets : Facets} {pointer : Pointer} {owner : String}
    {fault : SchemaFault} (h : constraintsOf grammars facets pointer = .error fault) (s : State) :
    constraints grammars facets pointer owner s = fail (.schema owner fault) s := by
  unfold constraints
  rw [h]

theorem exists_of_constraintsOf_error {facets : Facets} {pointer : Pointer} {fault : SchemaFault}
    (h : constraintsOf grammars facets pointer = .error fault) :
    ∃ pattern, fault = .invalidPattern pattern pointer := by
  unfold constraintsOf at h
  cases hp : facets.pattern with
  | none =>
    rw [hp] at h
    cases h
  | some pattern =>
    rw [hp] at h
    dsimp only at h
    split_ifs at h
    cases h
    exact ⟨pattern, rfl⟩

theorem Asides.constraints (grammars : Grammars) (facets : Facets) (pointer : Pointer)
    (owner : String) (s : State) :
    Asides s (Resolution.constraints grammars facets pointer owner s).2 := by
  cases h : constraintsOf grammars facets pointer with
  | ok c =>
    rw [constraints_ok h]
    exact refl s
  | error fault =>
    rw [constraints_error h]
    obtain ⟨pattern, rfl⟩ := exists_of_constraintsOf_error h
    exact report rfl s

theorem constraints_notes (grammars : Grammars) (facets : Facets) (pointer : Pointer)
    (owner : String) (s : State) : Notes s (constraints grammars facets pointer owner s).2 :=
  (Asides.constraints grammars facets pointer owner s).notes

theorem addProperty_new {owner : String} {properties : List Property} {p : Property}
    (h : properties.find? (·.name == p.name) = none) (s : State) :
    addProperty owner properties p s = (properties ++ [p], s) := by
  unfold addProperty
  rw [h]; rfl

def redeclaration (c : Catalog) (owner : String) (p q : Property) : Defect :=
  .propertyConflict owner (.redeclared q.name (c.describe p.type) (c.describe q.type))

theorem addProperty_again {owner : String} {properties : List Property} {p q : Property}
    (h : properties.find? (·.name == q.name) = some p) (s : State) :
    addProperty owner properties q s = (properties,
      if s.catalog.compatible p.type q.type then s
      else (report (redeclaration s.catalog owner p q) s).2) := by
  unfold addProperty
  rw [h]
  show (if (!s.catalog.compatible p.type q.type) = true then
    (do report (redeclaration s.catalog owner p q); return properties) else pure properties :
      Step (List Property)) s = _
  cases s.catalog.compatible p.type q.type <;> rfl

theorem Asides.addProperty (owner : String) (properties : List Property) (p : Property)
    (s : State) : Asides s (Resolution.addProperty owner properties p s).2 := by
  cases h : properties.find? (·.name == p.name) with
  | none =>
    rw [addProperty_new h]
    exact refl s
  | some existing =>
    rw [addProperty_again h]
    dsimp only
    split_ifs
    · exact refl s
    · exact report rfl s

theorem addProperty_notes (owner : String) (properties : List Property) (p : Property)
    (s : State) : Notes s (addProperty owner properties p s).2 :=
  (Asides.addProperty owner properties p s).notes

theorem Asides.warnUndeclared (owner : String) (members : List Member) (required : List String)
    (s : State) : Asides s (Resolution.warnUndeclared owner members required s).2 :=
  forM (fun _ => warn _) s

theorem warnUndeclared_notes (owner : String) (members : List Member) (required : List String)
    (s : State) : Notes s (warnUndeclared owner members required s).2 :=
  (Asides.warnUndeclared owner members required s).notes

def declaredValue (settings : Settings) (owner : String) (s : Schema) : String :=
  match s.extension? settings.discriminatorValueExtension with
  | some (.str value) => value
  | _ => owner

theorem discriminatorValue_fst (settings : Settings) (owner : String) (schema : Schema)
    (s : State) : (discriminatorValue settings owner schema s).1 =
      declaredValue settings owner schema := by
  unfold discriminatorValue declaredValue
  cases schema.extension? settings.discriminatorValueExtension with
  | none => rfl
  | some value => cases value <;> rfl

theorem Asides.discriminatorValue (settings : Settings) (owner : String) (schema : Schema)
    (s : State) : Asides s (Resolution.discriminatorValue settings owner schema s).2 := by
  unfold Resolution.discriminatorValue
  cases schema.extension? settings.discriminatorValueExtension with
  | none => exact refl s
  | some value =>
    cases value with
    | str text => exact refl s
    | _ => exact report rfl s

theorem discriminatorValue_notes (settings : Settings) (owner : String) (schema : Schema)
    (s : State) : Notes s (discriminatorValue settings owner schema s).2 :=
  (Asides.discriminatorValue settings owner schema s).notes

theorem discriminatorValue_defects {settings : Settings} {owner : String} {schema : Schema}
    {value : Json} (hx : schema.extension? settings.discriminatorValueExtension = some value)
    (hv : ∀ text, value ≠ .str text) (s : State) :
    (discriminatorValue settings owner schema s).2.defects ≠ [] := by
  unfold discriminatorValue
  rw [hx]
  cases value with
  | str text => exact absurd rfl (hv text)
  | _ => exact fun h => List.append_ne_nil_of_right_ne_nil s.defects (List.cons_ne_nil _ []) h

/-- The kind of a schema without parts, formats that are not known taken as the settings say. -/
def scalarOf? (settings : Settings) (s : Schema) : Option Scalar :=
  match Scalar.find s.typeName s.format with
  | .ok kind => some kind
  | .error (.format _ _ fallback) => if settings.allowUnknownFormats then some fallback else none
  | .error (.type _) => none

theorem buildScalar_cases (settings : Settings) (site : Site) (s : State) :
    (∃ kind, scalarOf? settings site.schema = some kind ∧
      (buildScalar settings site s).1 = some (.scalar kind) ∧
      Asides s (buildScalar settings site s).2) ∨
    ∃ reason, scalarOf? settings site.schema = none ∧
      Scalar.find site.schema.typeName site.schema.format = .error reason ∧
      buildScalar settings site s =
        fail (.schema site.owner (.unknownScalar reason site.pointer)) s := by
  unfold buildScalar scalarOf?
  cases Scalar.find site.schema.typeName site.schema.format with
  | ok kind => exact .inl ⟨kind, rfl, rfl, .refl s⟩
  | error reason =>
    cases reason with
    | type name => exact .inr ⟨_, rfl, rfl, rfl⟩
    | format typeName format fallback =>
      cases settings.allowUnknownFormats with
      | true => exact .inl ⟨fallback, rfl, rfl, .warn _ s⟩
      | false => exact .inr ⟨_, rfl, rfl, rfl⟩

theorem exists_type_of_scalarOf?_eq_none {settings : Settings} {schema : Schema}
    {reason : Scalar.Unknown} (hl : settings.allowUnknownFormats = true)
    (hk : scalarOf? settings schema = none)
    (hf : Scalar.find schema.typeName schema.format = .error reason) :
    ∃ name, reason = .type name := by
  unfold scalarOf? at hk
  rw [hf] at hk
  cases reason with
  | type name => exact ⟨name, rfl⟩
  | format typeName format fallback =>
    rw [hl] at hk
    cases hk

theorem buildScalar_notes (settings : Settings) (site : Site) (s : State) :
    Notes s (buildScalar settings site s).2 := by
  obtain ⟨_, -, -, ha⟩ | ⟨reason, -, -, hb⟩ := buildScalar_cases settings site s
  · exact ha.notes
  · rw [hb]
    exact fail_notes _ s

theorem buildScalar_fst (settings : Settings) (site : Site) (s : State) :
    (buildScalar settings site s).1 = (scalarOf? settings site.schema).map .scalar := by
  obtain ⟨kind, hk, hb, -⟩ | ⟨reason, hk, -, hb⟩ := buildScalar_cases settings site s
  · rw [hk, hb]
    rfl
  · rw [hk, hb]
    rfl

theorem buildScalar_defects {settings : Settings} {site : Site} {s : State}
    (h : (buildScalar settings site s).1 = none) :
    (buildScalar settings site s).2.defects ≠ [] := by
  obtain ⟨kind, -, hb, -⟩ | ⟨reason, -, -, hb⟩ := buildScalar_cases settings site s
  · cases hb.symm.trans h
  · rw [hb]
    exact fail_defects _ s

def State.withStub (s : State) (name : String) (pointer : Pointer) : State :=
  { s with catalog := s.catalog.addComposite name (.stub name pointer.text) }

theorem composite?_withStub {name : String} {pointer : Pointer} {id : CompositeId}
    {composite : Composite}
    (h : (s.withStub name pointer).catalog.composite? id = some composite) :
    (id.index = s.catalog.composites.length ∧ composite = .stub name pointer.text) ∨
      s.catalog.composite? id = some composite := by
  rw [State.withStub, Catalog.composite?_addComposite] at h
  split at h
  · rename_i hid
    cases h
    exact .inl ⟨hid, rfl⟩
  · exact .inr h

theorem get?_remember {key other : String} {type old : ModelType}
    (h : Fields.get? (remember key type s).2.resolved other = some old) :
    (other = key ∧ old = type) ∨ Fields.get? s.resolved other = some old := by
  have h : Fields.get? (Fields.set s.resolved key type) other = some old := h
  rw [Fields.get?_set] at h
  split at h
  · rename_i hkey
    cases h
    exact .inl ⟨hkey.symm, rfl⟩
  · exact .inr h

/-- What a registration can do: make a stub, find the composite of the same node, or clash. -/
theorem registerComposite_cases (name : String) (pointer : Pointer) (s : State) :
    (s.catalog.findComposite? name = none ∧ registerComposite name pointer s =
      (some ⟨⟨s.catalog.composites.length⟩, true⟩, s.withStub name pointer)) ∨
    (∃ id, s.catalog.findComposite? name = some id ∧
      (s.catalog.composite? id).elim "" (·.origin) = pointer.text ∧
      registerComposite name pointer s = (some ⟨id, false⟩, s)) ∨
    ∃ d, registerComposite name pointer s = fail d s := by
  unfold registerComposite State.withStub
  cases hf : s.catalog.findComposite? name with
  | none =>
    refine .inl ⟨rfl, ?_⟩
    simp only [step_bind, step_modifyGet, Catalog.internComposite, hf]
    rfl
  | some id =>
    right
    simp only [step_bind, step_modifyGet, Catalog.internComposite, hf]
    by_cases ho : (s.catalog.composite? id).elim "" (·.origin) = pointer.text
    · exact .inl ⟨id, rfl, ho, congrFun (if_pos ho) s⟩
    · exact .inr ⟨_, congrFun (if_neg ho) s⟩

/-- A name that is taken by another node is a defect of the schema. -/
theorem registerComposite_clash {name : String} {pointer : Pointer} {d : Defect}
    (h : registerComposite name pointer s = fail d s) :
    d.kind = .schema ∧ d.isPlain = true := by
  unfold registerComposite at h
  cases hf : s.catalog.findComposite? name with
  | none =>
    simp only [step_bind, step_modifyGet, Catalog.internComposite, hf] at h
    cases h
  | some id =>
    simp only [step_bind, step_modifyGet, Catalog.internComposite, hf] at h
    change (if (s.catalog.composite? id).elim "" (·.origin) = pointer.text then _ else _ :
      Step (Option (Interned CompositeId))) s = _ at h
    split_ifs at h
    · cases h
    · obtain rfl := eq_of_added h rfl rfl
      exact ⟨rfl, rfl⟩

/-- What claiming a key can do: the key is free or was claimed by the same name, or it clashes. -/
theorem claimKey_cases (name : String) (s : State) :
    (Fields.get? s.claimed (caseKey name) = none ∧ claimKey name s =
      (true, (claim (caseKey name) name s).2)) ∨
    (Fields.get? s.claimed (caseKey name) = some name ∧ claimKey name s = (true, s)) ∨
    ∃ d, claimKey name s = (false, (report d s).2) := by
  unfold claimKey
  simp only [step_bind, step_get]
  cases hf : Fields.get? s.claimed (caseKey name) with
  | none => exact .inl ⟨rfl, rfl⟩
  | some first =>
    right
    by_cases hn : first = name
    · subst hn
      refine .inl ⟨rfl, ?_⟩
      simp only [if_pos]
      rfl
    · refine .inr ⟨.schema name (.caseClash name first), ?_⟩
      simp only [if_neg hn]
      rfl

theorem claimKey_clash {name : String} {d : Defect}
    (h : claimKey name s = (false, (report d s).2)) : d.kind = .schema ∧ d.isPlain = true := by
  unfold claimKey at h
  simp only [step_bind, step_get] at h
  cases hf : Fields.get? s.claimed (caseKey name) with
  | none =>
    rw [hf] at h
    cases h
  | some first =>
    rw [hf] at h
    dsimp only at h
    split_ifs at h
    · cases h
    · obtain rfl := eq_of_added h rfl rfl
      exact ⟨rfl, rfl⟩

theorem claimed_cases {name : String} (h : claimKey name s = (true, t)) :
    (Fields.get? s.claimed (caseKey name) = none ∧ t = (claim (caseKey name) name s).2) ∨
      Fields.get? s.claimed (caseKey name) = some name ∧ t = s := by
  obtain ⟨hn, hk⟩ | ⟨hc, hk⟩ | ⟨d, hk⟩ := claimKey_cases name s
  · cases hk.symm.trans h
    exact .inl ⟨hn, rfl⟩
  · cases hk.symm.trans h
    exact .inr ⟨hc, rfl⟩
  · cases hk.symm.trans h

theorem claimKey_kept {name : String} (h : claimKey name s = (true, t)) :
    t.frames = s.frames ∧ t.resolved = s.resolved ∧ t.failed = s.failed := by
  obtain ⟨-, rfl⟩ | ⟨-, rfl⟩ := claimed_cases h
  · exact ⟨rfl, rfl, rfl⟩
  · exact ⟨rfl, rfl, rfl⟩

theorem claimed_of_claimKey {name : String} (h : claimKey name s = (true, t)) :
    Fields.get? t.claimed (caseKey name) = some name := by
  obtain ⟨-, rfl⟩ | ⟨hc, rfl⟩ := claimed_cases h
  · exact (Fields.get?_set ..).trans (if_pos rfl)
  · exact hc

theorem claimKey_taken {name : String} (h : claimKey name s = (false, t)) :
    ∃ first, Fields.get? s.claimed (caseKey name) = some first ∧ first ≠ name := by
  unfold claimKey at h
  simp only [step_bind, step_get] at h
  cases hf : Fields.get? s.claimed (caseKey name) with
  | none =>
    rw [hf] at h
    cases h
  | some first =>
    rw [hf] at h
    dsimp only at h
    split_ifs at h with hn
    · cases h
    · exact ⟨first, rfl, hn⟩

def State.withEnum (s : State) (e : EnumType) : State :=
  { s with catalog := s.catalog.addEnum e }

def State.withNamedEnum (s : State) (name : String) (e : EnumType) : State :=
  { s with catalog := s.catalog.addNamedEnum name e }

theorem internEnum_cases (e : EnumType) {name : String} (he : e.name = some name) (s : State) :
    (s.catalog.findEnum? name = none ∧
      internEnum e s = (some ⟨s.catalog.enums.length⟩, s.withNamedEnum name e)) ∨
    (∃ id, s.catalog.findEnum? name = some id ∧
      (∀ old, s.catalog.enum? id = some old → old.values = e.values) ∧
      internEnum e s = (some id, s)) ∨
    ∃ id old, s.catalog.findEnum? name = some id ∧ s.catalog.enum? id = some old ∧
      old.values ≠ e.values ∧
      internEnum e s = fail (.enumConflict (old.name.getD name) old.origin e.origin) s := by
  unfold internEnum State.withNamedEnum
  simp only [Catalog.internEnum, he, Catalog.addAnonymousEnum]
  cases hf : s.catalog.findEnum? name with
  | none => exact .inl ⟨rfl, rfl⟩
  | some id =>
    right
    cases ho : s.catalog.enum? id with
    | none => exact .inl ⟨id, rfl, fun old h => by simp [ho] at h, by simp only [ho]⟩
    | some old =>
      by_cases hv : old.values = e.values
      · refine .inl ⟨id, rfl, fun other h => ?_, by simp only [ho, if_pos hv]⟩
        obtain rfl := Option.some.inj (ho.symm.trans h)
        exact hv
      · exact .inr ⟨id, old, rfl, ho, hv, by simp only [ho, if_neg hv]⟩

theorem buildEnum_cases (settings : Settings) (site : Site) (listed : List Json) (s : State) :
    (∃ d, buildEnum settings site listed s = fail d s) ∨
    ∃ values, Enumeration.valuesFrom site.pointer [] listed = .ok values ∧
      ((site.schema.extension? settings.enumExtension = none ∧
        buildEnum settings site listed s = (some (.enum ⟨s.catalog.enums.length⟩),
          s.withEnum ⟨none, values, true, site.pointer.text⟩)) ∨
      ∃ extension, site.schema.extension? settings.enumExtension = some extension ∧
        ((s.catalog.findEnum? (Enumeration.nameOf extension) = none ∧
          buildEnum settings site listed s = (some (.enum ⟨s.catalog.enums.length⟩),
            s.withNamedEnum (Enumeration.nameOf extension)
              ⟨some (Enumeration.nameOf extension), values, false, site.pointer.text⟩)) ∨
        ∃ id, s.catalog.findEnum? (Enumeration.nameOf extension) = some id ∧
          (∀ old, s.catalog.enum? id = some old → old.values = values) ∧
          buildEnum settings site listed s = (some (.enum id), s))) := by
  unfold buildEnum
  cases hv : Enumeration.valuesFrom site.pointer [] listed with
  | error fault => exact .inl ⟨_, rfl⟩
  | ok values =>
    cases hx : site.schema.extension? settings.enumExtension with
    | none => exact .inr ⟨values, rfl, .inl ⟨rfl, rfl⟩⟩
    | some extension =>
      by_cases hb : Text.isBlankText (Enumeration.nameOf extension)
      · exact .inl ⟨_, by simp only [if_pos hb]; rfl⟩
      · simp only [if_neg hb]
        obtain ⟨hn, hi⟩ | ⟨id, hn, ho, hi⟩ | ⟨id, old, -, -, -, hi⟩ := internEnum_cases
          ⟨some (Enumeration.nameOf extension), values, false, site.pointer.text⟩ rfl s
        · refine .inr ⟨values, rfl, .inr ⟨extension, rfl, .inl ⟨hn, ?_⟩⟩⟩
          rw [step_bind, hi]; rfl
        · refine .inr ⟨values, rfl, .inr ⟨extension, rfl, .inr ⟨id, hn, ho, ?_⟩⟩⟩
          rw [step_bind, hi]; rfl
        · refine .inl ⟨.enumConflict (old.name.getD (Enumeration.nameOf extension)) old.origin
            site.pointer.text, ?_⟩
          rw [step_bind, hi]; rfl

theorem isPlain_of_valuesFrom {pointer : Pointer} {values : List EnumValue} {listed : List Json}
    {fault : SchemaFault} (h : Enumeration.valuesFrom pointer values listed = .error fault)
    (owner : String) : (Defect.schema owner fault).isPlain = true := by
  induction listed generalizing values with
  | nil => cases h
  | cons value rest ih =>
    unfold Enumeration.valuesFrom at h
    cases value with
    | str wire =>
      dsimp only at h
      split_ifs at h
      · cases h
        rfl
      · exact ih h
    | _ =>
      cases h
      rfl

theorem buildEnum_clash {settings : Settings} {site : Site} {listed : List Json} {d : Defect}
    (h : buildEnum settings site listed s = fail d s) :
    d.kind = .enumConflict ∨ d.isPlain = true := by
  unfold buildEnum at h
  cases hv : Enumeration.valuesFrom site.pointer [] listed with
  | error fault =>
    rw [hv] at h
    obtain rfl := eq_of_added h rfl rfl
    exact .inr (isPlain_of_valuesFrom hv _)
  | ok values =>
    simp only [hv] at h
    cases hx : site.schema.extension? settings.enumExtension with
    | none =>
      rw [hx] at h
      cases h
    | some extension =>
      simp only [hx] at h
      by_cases hb : Text.isBlankText (Enumeration.nameOf extension)
      · simp only [if_pos hb] at h
        obtain rfl := eq_of_added h rfl rfl
        exact .inr rfl
      · simp only [if_neg hb] at h
        obtain ⟨-, hi⟩ | ⟨id, -, -, hi⟩ | ⟨id, old, -, -, -, hi⟩ := internEnum_cases
          ⟨some (Enumeration.nameOf extension), values, false, site.pointer.text⟩ rfl s
        · rw [step_bind, hi] at h
          cases h
        · rw [step_bind, hi] at h
          cases h
        · rw [step_bind, hi] at h
          obtain rfl := eq_of_added h rfl rfl
          exact .inl rfl

end Resolution

end ApiModel
