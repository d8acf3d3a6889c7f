import ApiModel.Proofs.Lockstep
import ApiModel.Proofs.Spelling

/-! # States that agree

States of two runs that are the same but for the wording of defects and, unless flags matter, for
whether properties are constant. Small steps keep them so, whatever the references of the schemas
are that they look at.
-/

namespace ApiModel

open Text (caseKey)

variable {flags : Bool}

/-- The property without whether it is constant, unless flags matter. -/
def Property.mask (flags : Bool) (p : Property) : Property :=
  { p with constant := flags && p.constant }

def Composite.mask (flags : Bool) (c : Composite) : Composite :=
  { c with properties := c.properties.map (Property.mask flags) }

def Catalog.mask (flags : Bool) (c : Catalog) : Catalog :=
  { c with composites := c.composites.map (Composite.mask flags) }

def ClientModel.mask (flags : Bool) (m : ClientModel) : ClientModel :=
  { m with catalog := m.catalog.mask flags }

def SameBy {α β : Type} (g : α → β) (a b : α) : Prop := g b = g a

theorem Property.name_eq_of_mask {p q : Property} (h : SameBy (mask flags) p q) :
    q.name = p.name := by
  have hname := congrArg Property.name h
  exact hname

theorem Property.type_eq_of_mask {p q : Property} (h : SameBy (mask flags) p q) :
    q.type = p.type := by
  have htype := congrArg Property.type h
  exact htype

@[simp] theorem Property.mask_true (p : Property) : p.mask true = p := rfl

theorem Composite.eq_of_mask {a b : Composite} (h : SameBy (mask flags) a b) :
    b.name = a.name ∧ b.origin = a.origin ∧ b.derived = a.derived := by
  have hname := congrArg Composite.name h
  have horigin := congrArg Composite.origin h
  have hderived := congrArg Composite.derived h
  exact ⟨hname, horigin, hderived⟩

@[simp] theorem Composite.mask_true (c : Composite) : c.mask true = c := by
  show { c with properties := c.properties.map fun p => p } = c
  rw [List.map_id']

@[simp] theorem Catalog.mask_true (c : Catalog) : c.mask true = c := by
  show { c with composites := c.composites.map (Composite.mask true) } = c
  rw [show Composite.mask true = id from funext Composite.mask_true, List.map_id]

@[simp] theorem ClientModel.mask_true (m : ClientModel) : m.mask true = m := by
  rw [mask, Catalog.mask_true]

namespace Catalog

@[simp] theorem composite?_mask (c : Catalog) (id : CompositeId) :
    (c.mask flags).composite? id = (c.composite? id).map (Composite.mask flags) :=
  List.getElem?_map ..

@[simp] theorem compositeIds_mask (c : Catalog) : (c.mask flags).compositeIds = c.compositeIds := by
  simp only [compositeIds, mask, List.length_map]

@[simp] theorem nameOf_mask (c : Catalog) (id : CompositeId) :
    (c.mask flags).nameOf id = c.nameOf id := by
  rw [nameOf, nameOf, composite?_mask, Option.elim_map]
  rfl

@[simp] theorem baseOf?_mask (c : Catalog) (id : CompositeId) :
    (c.mask flags).baseOf? id = c.baseOf? id := by
  rw [baseOf?, baseOf?, composite?_mask, Option.bind_map]
  rfl

@[simp] theorem compatible_mask (c : Catalog) (x y : ModelType) :
    (c.mask flags).compatible x y = c.compatible x y := by
  induction x generalizing y with
  | sequence element ih => cases y <;> simp [compatible, ih]
  | dictionary value ih => cases y <;> simp [compatible, ih]
  | _ => cases y <;> rfl

@[simp] theorem describe_mask (c : Catalog) (x : ModelType) :
    (c.mask flags).describe x = c.describe x := by
  induction x with
  | composite id => exact c.nameOf_mask id
  | sequence element ih => simp only [describe, ih]
  | dictionary value ih => simp only [describe, ih]
  | _ => rfl

/-- The catalogs are the same but for what masks hide. -/
structure SameMask (flags : Bool) (c d : Catalog) : Prop where
  composites : SameBy (List.map (Composite.mask flags)) c.composites d.composites
  enums : d.enums = c.enums
  compositeKeys : d.compositeKeys = c.compositeKeys
  enumKeys : d.enumKeys = c.enumKeys

namespace SameMask

variable {c d : Catalog} (h : c.SameMask flags d)
include h

theorem mask_eq : d.mask flags = c.mask flags := by
  unfold mask
  rw [show d.composites.map _ = c.composites.map _ from h.composites, h.enums, h.compositeKeys,
    h.enumKeys]

theorem length_composites : d.composites.length = c.composites.length := by
  simpa using congrArg List.length h.composites

theorem findComposite? (name : String) : d.findComposite? name = c.findComposite? name := by
  simp only [Catalog.findComposite?, h.compositeKeys]

theorem findEnum? (name : String) : d.findEnum? name = c.findEnum? name := by
  simp only [Catalog.findEnum?, h.enumKeys]

theorem enum? (id : EnumId) : d.enum? id = c.enum? id := by
  simp only [Catalog.enum?, h.enums]

theorem composite? (id : CompositeId) :
    SameBy (Option.map (Composite.mask flags)) (c.composite? id) (d.composite? id) := by
  show (d.composites[id.index]?).map _ = (c.composites[id.index]?).map _
  rw [← List.getElem?_map, ← List.getElem?_map, h.composites]

theorem eq_of_mask {α : Type} (g : Catalog → α) (hg : ∀ x : Catalog, g (x.mask flags) = g x) :
    g d = g c := by
  rw [← hg d, h.mask_eq, hg c]

theorem nameOf (id : CompositeId) : d.nameOf id = c.nameOf id :=
  h.eq_of_mask (·.nameOf id) fun x => x.nameOf_mask id

theorem compatible (x y : ModelType) : d.compatible x y = c.compatible x y :=
  h.eq_of_mask (·.compatible x y) fun c => c.compatible_mask x y

theorem addComposite (name : String) (composite : Composite) :
    (c.addComposite name composite).SameMask flags (d.addComposite name composite) where
  composites := by
    show List.map _ (d.composites ++ [composite]) = List.map _ (c.composites ++ [composite])
    rw [List.map_append, List.map_append, show d.composites.map _ = _ from h.composites]
  enums := h.enums
  compositeKeys := by
    simp only [Catalog.addComposite, h.compositeKeys, h.length_composites]
  enumKeys := h.enumKeys

theorem addEnum (e : EnumType) : (c.addEnum e).SameMask flags (d.addEnum e) :=
  { h with enums := congrArg (· ++ [e]) h.enums }

theorem addNamedEnum (name : String) (e : EnumType) :
    (c.addNamedEnum name e).SameMask flags (d.addNamedEnum name e) :=
  { h.addEnum e with
    enumKeys := by simp only [Catalog.addNamedEnum, Catalog.addEnum, h.enumKeys, h.enums] }

theorem modifyComposite (id : CompositeId) {g g' : Composite → Composite}
    (hg : ∀ {a b}, SameBy (Composite.mask flags) a b →
      SameBy (Composite.mask flags) (g a) (g' b)) :
    (c.modifyComposite id g).SameMask flags (d.modifyComposite id g') :=
  { h with
    composites := by
      refine List.ext_getElem? fun i => ?_
      have hi : (d.composites[i]?).map (Composite.mask flags) =
          (c.composites[i]?).map (Composite.mask flags) := h.composite? ⟨i⟩
      simp only [Catalog.modifyComposite, List.getElem?_map, List.getElem?_modify]
      cases hc : c.composites[i]? with
      | none =>
        simp only [hc, Option.map_none, Option.map_eq_none_iff] at hi
        rw [hi]
        rfl
      | some x =>
        simp only [hc, Option.map_some, Option.map_eq_some_iff] at hi
        obtain ⟨y, hy, hxy⟩ := hi
        rw [hy]
        refine congrArg some ?_
        dsimp only
        split
        · exact hg hxy
        · exact hxy }

end SameMask

end Catalog

theorem Composite.property?_mask (composite : Composite) (name : String) :
    (composite.mask flags).property? name =
      (composite.property? name).map (Property.mask flags) := by
  simp only [property?, mask, List.find?_map]
  rfl

namespace Hierarchy

variable (c : Catalog)

@[simp] theorem chain?_mask (n : Nat) (id : CompositeId) :
    chain? (c.mask flags) n id = chain? c n id := by
  induction n generalizing id with
  | zero => rw [chain?, chain?, Catalog.baseOf?_mask]
  | succ n ih =>
    rw [chain?, chain?, Catalog.baseOf?_mask]
    simp only [ih]

@[simp] theorem walkFrom_mask (s : Survey) (n : Nat) (path : List CompositeId)
    (id : CompositeId) : s.walkFrom (c.mask flags) n path id = s.walkFrom c n path id := by
  induction n generalizing path id with
  | zero => rfl
  | succ n ih =>
    rw [Survey.walkFrom, Survey.walkFrom, Catalog.baseOf?_mask]
    simp only [ih]

@[simp] theorem survey_mask : survey (c.mask flags) = survey c := by
  have hlength : (c.mask flags).composites.length = c.composites.length := by
    simp only [Catalog.mask, List.length_map]
  have hwalk : Survey.walk (c.mask flags) = Survey.walk c := by
    funext s id
    simp only [Survey.walk, walkFrom_mask, hlength]
  rw [survey, survey, Catalog.compositeIds_mask, hwalk, hlength]

@[simp] theorem chains_mask : chains (c.mask flags) = chains c := by
  simp only [chains, ancestors?, Catalog.compositeIds_mask, survey_mask, chain?_mask]
  simp only [Catalog.mask, List.length_map]

@[simp] theorem cycles_mask : cycles (c.mask flags) = cycles c := by
  rw [cycles, cycles, survey_mask]

@[simp] theorem cycleDefect_mask (cycle : List CompositeId) :
    cycleDefect (c.mask flags) cycle = cycleDefect c cycle := by
  simp only [cycleDefect, show (c.mask flags).nameOf = c.nameOf from funext c.nameOf_mask]

theorem nearest?_mask (name : String) (ids : List CompositeId) :
    nearest? (c.mask flags) name ids =
      (nearest? c name ids).map (Prod.map id (Property.mask flags)) := by
  induction ids with
  | nil => rfl
  | cons id rest ih =>
    rw [nearest?, nearest?, Catalog.composite?_mask, ih]
    cases c.composite? id with
    | none => rfl
    | some composite =>
      simp only [Option.map_some, Option.bind_some, Composite.property?_mask]
      cases composite.property? name <;> rfl

theorem overrideDefect?_mask (owner : String) (ancestors : List CompositeId) (p : Property) :
    overrideDefect? (c.mask flags) owner ancestors (p.mask flags) =
      overrideDefect? c owner ancestors p := by
  unfold overrideDefect?
  rw [nearest?_mask, show (p.mask flags).name = p.name from rfl]
  cases nearest? c p.name ancestors with
  | none => rfl
  | some found => simp [Property.mask]

theorem overrideDefects_mask : overrideDefects (c.mask flags) = overrideDefects c := by
  unfold overrideDefects
  rw [chains_mask]
  refine congrArg (List.flatMap · (chains c)) (funext fun chain => ?_)
  dsimp only
  rw [Catalog.composite?_mask]
  cases c.composite? chain.1 with
  | none => rfl
  | some composite =>
    simp only [Option.map_some, Composite.mask, List.filterMap_map, Function.comp_def,
      overrideDefect?_mask]

theorem valueOf_mask (id : CompositeId) : valueOf (c.mask flags) id = valueOf c id := by
  rw [valueOf, valueOf, Catalog.composite?_mask, Option.elim_map]
  rfl

theorem repeatedValues_mask (root : String) (seen ids : List CompositeId) :
    repeatedValues (c.mask flags) root seen ids = repeatedValues c root seen ids := by
  induction ids generalizing seen with
  | nil => rfl
  | cons id rest ih => simp only [repeatedValues, valueOf_mask, Catalog.nameOf_mask, ih]

theorem discriminatorDefects_mask :
    discriminatorDefects (c.mask flags) = discriminatorDefects c := by
  unfold discriminatorDefects
  rw [chains_mask]
  refine congrArg (List.flatMap · (chains c)) (funext fun chain => ?_)
  unfold discriminatorDefectsOf
  rw [Catalog.composite?_mask]
  cases c.composite? chain.1 with
  | none => rfl
  | some root =>
    dsimp only [Option.map_some, Composite.mask]
    cases root.discriminator with
    | none => rfl
    | some property =>
      dsimp only
      rw [nearest?_mask]
      cases nearest? c property (chain.1 :: chain.2) with
      | none => rfl
      | some found => simp [Property.mask, repeatedValues_mask]

theorem defects_mask : defects (c.mask flags) = defects c := by
  rw [defects, defects, overrideDefects_mask, discriminatorDefects_mask, cycles_mask,
    show cycleDefect (c.mask flags) = cycleDefect c from funext (cycleDefect_mask c)]

theorem settled_mask : settled (c.mask flags) = (settled c).mask flags := by
  have hsettle : List.mapIdx (fun i => settle (chains c) ⟨i⟩) (c.composites.map (.mask flags)) =
      (List.mapIdx (fun i => settle (chains c) ⟨i⟩) c.composites).map (.mask flags) := by
    refine List.ext_getElem? fun i => ?_
    simp only [List.getElem?_map, List.getElem?_mapIdx]
    cases c.composites[i]? <;> rfl
  unfold settled
  rw [chains_mask]
  exact congrArg (fun composites => { c with composites }) hsettle

end Hierarchy

namespace Resolution

variable {α β : Type} {f : String → String} {context : Context} {r r' : Resolver} {s t : State}

/-- The states are the same but for what masks hide and for how defects are worded. -/
structure Agree (flags : Bool) (s t : State) : Prop where
  catalog : s.catalog.SameMask flags t.catalog
  resolved : t.resolved = s.resolved
  failed : t.failed = s.failed
  claimed : t.claimed = s.claimed
  frames : t.frames = s.frames
  defects : t.defects = [] ↔ s.defects = []

namespace Agree

theorem refl (s : State) : Agree flags s s :=
  ⟨⟨rfl, rfl, rfl, rfl⟩, rfl, rfl, rfl, rfl, .rfl⟩

theorem report (h : Agree flags s t) (d e : Defect) :
    Agree flags (report d s).2 (Resolution.report e t).2 :=
  { h with defects := by simp }

theorem with_catalog (h : Agree flags s t) {c d : Catalog} (hcd : c.SameMask flags d) :
    Agree flags { s with catalog := c } { t with catalog := d } :=
  { h with catalog := hcd }

theorem inStep_report (d e : Defect) :
    InStep (Agree flags) Eq (Resolution.report d) (Resolution.report e) :=
  fun _ _ hst => ⟨rfl, hst.report d e⟩

theorem inStep_fail {R : Option α → Option β → Prop} (hR : R none none) (d e : Defect) :
    InStep (Agree flags) R (fail d) (fail e) := fun _ _ hst => ⟨hR, hst.report d e⟩

theorem inStep_warn (message : String) : InStep (Agree flags) Eq (warn message) (warn message) :=
  fun _ _ hst => ⟨rfl, { hst with }⟩

theorem inStep_push (frame : Frame) : InStep (Agree flags) Eq (push frame) (push frame) :=
  fun _ _ hst => ⟨rfl, { hst with frames := congrArg (frame :: ·) hst.frames }⟩

theorem inStep_pop : InStep (Agree flags) Eq pop pop :=
  fun _ _ hst => ⟨rfl, { hst with frames := congrArg List.tail hst.frames }⟩

theorem inStep_remember (key : String) (x : ModelType) :
    InStep (Agree flags) Eq (remember key x) (remember key x) :=
  fun _ _ hst => ⟨rfl, { hst with resolved := congrArg (Fields.set · key x) hst.resolved }⟩

theorem inStep_markFailed (key : String) :
    InStep (Agree flags) Eq (markFailed key) (markFailed key) :=
  fun _ _ hst => ⟨rfl, { hst with failed := congrArg (key :: ·) hst.failed }⟩

theorem inStep_claimKey (name : String) :
    InStep (Agree flags) Eq (claimKey name) (claimKey name) := by
  intro s t hst
  unfold claimKey
  simp only [step_bind, step_get, hst.claimed]
  cases Fields.get? s.claimed (caseKey name) with
  | none => exact ⟨rfl, { hst with claimed := congrArg (Fields.set · _ name) hst.claimed }⟩
  | some first =>
    dsimp only
    split_ifs
    · exact ⟨rfl, hst⟩
    · exact ⟨rfl, hst.report _ _⟩

theorem inStep_registerComposite (name : String) (pointer : Pointer) :
    InStep (Agree flags) Eq (registerComposite name pointer) (registerComposite name pointer) := by
  intro s t hst
  have hfind := hst.catalog.findComposite? name
  cases hs : s.catalog.findComposite? name with
  | none =>
    rw [hs] at hfind
    rw [registerComposite_new hs, registerComposite_new hfind, hst.catalog.length_composites]
    exact ⟨rfl, hst.with_catalog (hst.catalog.addComposite ..)⟩
  | some id =>
    rw [hs] at hfind
    have horigin : (t.catalog.composite? id).elim "" (·.origin) =
        (s.catalog.composite? id).elim "" (·.origin) :=
      hst.catalog.eq_of_mask (fun c => (c.composite? id).elim "" (·.origin)) fun c => by
        rw [Catalog.composite?_mask, Option.elim_map]
        rfl
    by_cases ho : (s.catalog.composite? id).elim "" (·.origin) = pointer.text
    · rw [registerComposite_known hs ho, registerComposite_known hfind (horigin.trans ho)]
      exact ⟨rfl, hst⟩
    · have ho' : (t.catalog.composite? id).elim "" (·.origin) ≠ pointer.text := horigin ▸ ho
      rw [registerComposite_refused hs ho, registerComposite_refused hfind ho']
      exact ⟨rfl, hst.report _ _⟩

theorem inStep_internEnum (e : EnumType) {name : String} (he : e.name = some name) :
    InStep (Agree flags) Eq (internEnum e) (internEnum e) := by
  intro s t hst
  unfold internEnum
  simp only [Catalog.internEnum, he, Catalog.addAnonymousEnum, hst.catalog.findEnum? name,
    hst.catalog.enum?]
  cases s.catalog.findEnum? name with
  | none =>
    exact ⟨congrArg (fun l : List EnumType => some (EnumId.mk l.length)) hst.catalog.enums.symm,
      hst.with_catalog (hst.catalog.addNamedEnum name e)⟩
  | some id =>
    dsimp only
    cases s.catalog.enum? id with
    | none => exact ⟨rfl, hst⟩
    | some old =>
      dsimp only
      split_ifs
      · exact ⟨rfl, hst⟩
      · exact ⟨rfl, hst.report _ _⟩

theorem inStep_buildEnum (settings : Settings) (site : Site) (listed : List Json) :
    InStep (Agree flags) Eq (buildEnum settings site listed)
      (buildEnum settings (site.respell f) listed) := by
  unfold buildEnum
  simp only [Site.respell, Schema.extension?_respell]
  cases Enumeration.valuesFrom site.pointer [] listed with
  | error fault => exact inStep_fail rfl _ _
  | ok values =>
    cases site.schema.extension? settings.enumExtension with
    | none =>
      refine .bind (R := Eq) (fun s t hst => ?_) fun id _ hid => ?_
      · exact ⟨congrArg (fun l : List EnumType => EnumId.mk l.length) hst.catalog.enums.symm,
          hst.with_catalog (hst.catalog.addEnum _)⟩
      · cases hid
        exact .pure rfl
    | some extension =>
      dsimp only
      split_ifs
      · exact inStep_fail rfl _ _
      · refine .bind (inStep_internEnum _ rfl) fun id _ hid => ?_
        cases hid
        exact .pure rfl

theorem inStep_buildScalar (settings : Settings) (site : Site) :
    InStep (Agree flags) Eq (buildScalar settings site)
      (buildScalar settings (site.respell f)) := by
  have htype : (site.respell f).schema.typeName = site.schema.typeName :=
    by rw [Site.respell, Schema.toKeywords_respell]
  have hformat : (site.respell f).schema.format = site.schema.format :=
    by rw [Site.respell, Schema.toKeywords_respell]
  unfold buildScalar
  rw [htype, hformat]
  cases Scalar.find site.schema.typeName site.schema.format with
  | ok kind => exact .pure rfl
  | error reason =>
    cases reason with
    | type name => exact inStep_fail rfl _ _
    | format typeName format fallback =>
      dsimp only
      split_ifs
      · exact .bind (inStep_warn _) fun _ _ _ => .pure rfl
      · exact inStep_fail rfl _ _

theorem inStep_constraints (facets : Facets) (pointer : Pointer) (owner : String) :
    InStep (Agree flags) Eq (constraints context.grammars facets pointer owner)
      (constraints context.grammars facets pointer owner) := by
  unfold constraints
  cases constraintsOf context.grammars facets pointer with
  | ok c => exact .pure rfl
  | error fault => exact inStep_fail rfl _ _

theorem inStep_baseOf (name : String) (part : BasePart) (type : Option ModelType) :
    InStep (Agree flags) Eq (baseOf name part type) (baseOf name (part.respell f) type) := by
  cases type with
  | none => exact .pure rfl
  | some x =>
    cases x with
    | composite id => exact .pure rfl
    | scalar kind => cases kind <;> exact inStep_fail rfl _ _
    | _ => exact inStep_fail rfl _ _

theorem inStep_reportSecondBases (name : String) (parts : List BasePart) :
    InStep (Agree flags) Eq (reportSecondBases name parts)
      (reportSecondBases name (parts.map (BasePart.respell f))) := by
  induction parts with
  | nil => exact .pure rfl
  | cons part rest ih => exact .bind (inStep_report _ _) fun _ _ _ => ih

theorem inStep_warnUndeclared (owner : String) (members : List Member) (required : List String) :
    InStep (Agree flags) Eq (warnUndeclared owner members required)
      (warnUndeclared owner (members.map (Member.respell f)) required) := by
  unfold warnUndeclared
  simp only [List.any_map, Function.comp_def, Member.respell]
  generalize required.filter (fun name => !members.any (·.name == name)) = names
  induction names with
  | nil => exact .pure rfl
  | cons name rest ih => exact .bind (inStep_warn _) fun _ _ _ => ih

theorem inStep_discriminatorValue (settings : Settings) (owner : String) (schema : Schema) :
    InStep (Agree flags) Eq (discriminatorValue settings owner schema)
      (discriminatorValue settings owner (schema.respell f)) := by
  unfold discriminatorValue
  simp only [Schema.extension?_respell]
  cases schema.extension? settings.discriminatorValueExtension with
  | none => exact .pure rfl
  | some value =>
    cases value with
    | str text => exact .pure rfl
    | _ => exact .bind (inStep_report _ _) fun _ _ _ => .pure rfl

theorem inStep_addProperty (owner : String) {properties properties' : List Property}
    {p q : Property} (hs : SameBy (List.map (Property.mask flags)) properties properties')
    (hp : SameBy (Property.mask flags) p q) :
    InStep (Agree flags) (SameBy (List.map (Property.mask flags)))
      (addProperty owner properties p) (addProperty owner properties' q) := by
  intro s t hst
  have hname : q.name = p.name := Property.name_eq_of_mask hp
  have hfind : (properties'.find? (·.name == q.name)).map (Property.mask flags) =
      (properties.find? (·.name == p.name)).map (Property.mask flags) := by
    have hmap : ∀ l : List Property, (l.find? (·.name == p.name)).map (Property.mask flags) =
        (l.map (Property.mask flags)).find? (·.name == p.name) := fun l => by
      rw [List.find?_map]
      rfl
    rw [hname, hmap, hmap, hs]
  cases hold : properties.find? (·.name == p.name) with
  | none =>
    rw [hold, Option.map_none, Option.map_eq_none_iff] at hfind
    rw [addProperty_new hold, addProperty_new hfind]
    refine ⟨?_, hst⟩
    show List.map _ (properties' ++ [q]) = List.map _ (properties ++ [p])
    rw [List.map_append, List.map_append, hs]
    exact congrArg (_ ++ [·]) hp
  | some old =>
    rw [hold, Option.map_some, Option.map_eq_some_iff] at hfind
    obtain ⟨other, hother, hsame⟩ := hfind
    rw [addProperty_again hold, addProperty_again hother]
    refine ⟨hs, ?_⟩
    dsimp only
    rw [Property.type_eq_of_mask hsame, Property.type_eq_of_mask hp, hst.catalog.compatible]
    split
    · exact hst
    · exact hst.report _ _

end Agree

end Resolution

end ApiModel
