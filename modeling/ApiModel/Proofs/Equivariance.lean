import ApiModel.Proofs.Lockstep

/-! # Resolution does not look at indices

In states that differ in the indices of what has been registered every part of a resolution does
the same, and its outcomes differ in these indices only.
-/

namespace ApiModel.Resolution

open Text (caseKey)

variable {ρ : Renumbering} {context : Context} {r r' : Resolver}

/-- Calls of two resolvers go on in step. -/
def Tracking (ρ : Renumbering) (r r' : Resolver) : Prop :=
  ∀ site, Lockstep (Like ρ) (Tracks (Option.map ρ.type)) (r site) (r' site)

theorem InStep.baseOf (name : String) (part : BasePart) (type : Option ModelType) :
    InStep (Like ρ) (Tracks (Option.map ρ.composite)) (Resolution.baseOf name part type)
      (Resolution.baseOf name part (type.map ρ.type)) := by
  cases type with
  | none => exact .pure rfl
  | some x =>
    cases x with
    | composite id => exact .pure rfl
    | scalar kind => cases kind <;> exact .fail _ _
    | _ => exact .fail _ _

theorem InStep.reportSecondBases (name : String) (parts : List BasePart) :
    InStep (Like ρ) Eq (Resolution.reportSecondBases name parts)
      (Resolution.reportSecondBases name parts) := by
  induction parts with
  | nil => exact .pure rfl
  | cons part rest ih => exact .bind (.report _ _) fun _ _ _ => ih

theorem InStep.constraints (grammars : Grammars) (facets : Facets) (pointer : Pointer)
    (owner : String) :
    InStep (Like ρ) Eq (Resolution.constraints grammars facets pointer owner)
      (Resolution.constraints grammars facets pointer owner) := by
  unfold Resolution.constraints
  cases constraintsOf grammars facets pointer with
  | ok c => exact .pure rfl
  | error fault => exact fun _ _ hst => ⟨rfl, hst.report _ _⟩

theorem InStep.addProperty (owner : String) (properties : List Property) (p : Property) :
    InStep (Like ρ) (Tracks (List.map ρ.property)) (Resolution.addProperty owner properties p)
      (Resolution.addProperty owner (properties.map ρ.property) (ρ.property p)) := by
  intro s t hst
  have hfind : (properties.map ρ.property).find? (·.name == (ρ.property p).name) =
      (properties.find? (·.name == p.name)).map ρ.property := List.find?_map ..
  cases hf : properties.find? (·.name == p.name) with
  | none =>
    rw [hf] at hfind
    rw [addProperty_new hf, addProperty_new hfind]
    exact ⟨by simp [Tracks], hst⟩
  | some old =>
    rw [hf] at hfind
    rw [addProperty_again hf, addProperty_again hfind]
    refine ⟨rfl, ?_⟩
    have hcompatible := hst.catalog.compatible old.type p.type
    rw [Renumbering.property_type, Renumbering.property_type, hcompatible]
    split
    · exact hst
    · exact hst.report _ _

theorem InStep.warnUndeclared (owner : String) (members : List Member) (required : List String) :
    InStep (Like ρ) Eq (Resolution.warnUndeclared owner members required)
      (Resolution.warnUndeclared owner members required) := by
  unfold Resolution.warnUndeclared
  generalize required.filter (fun name => !members.any (·.name == name)) = names
  induction names with
  | nil => exact .pure rfl
  | cons name rest ih => exact .bind (.warn _) fun _ _ _ => ih

theorem InStep.discriminatorValue (settings : Settings) (owner : String) (s : Schema) :
    InStep (Like ρ) Eq (Resolution.discriminatorValue settings owner s)
      (Resolution.discriminatorValue settings owner s) := by
  unfold Resolution.discriminatorValue
  dsimp only
  cases s.extension? settings.discriminatorValueExtension with
  | none => exact .pure rfl
  | some value =>
    cases value with
    | str text => exact .pure rfl
    | _ => exact .bind (.report _ _) fun _ _ _ => .pure rfl

namespace Lockstep

variable (hr : Tracking ρ r r')
include hr

theorem resolveBase (name : String) (parts : List BasePart) :
    Lockstep (Like ρ) (Tracks (Option.map ρ.composite)) (Resolution.resolveBase r name parts)
      (Resolution.resolveBase r' name parts) := by
  cases parts with
  | nil => exact .pure rfl
  | cons part others =>
    refine .bind (hr _) fun type _ htype => ?_
    cases htype
    exact .bind (.lift (.baseOf name part type)) fun base _ hb =>
      .bind (.lift (.reportSecondBases name others)) fun _ _ _ => .pure hb

theorem resolveMember (owner : String) (required : List String) (m : Member) :
    Lockstep (Like ρ) (Tracks (Option.map ρ.property))
      (Resolution.resolveMember context r owner required m)
      (Resolution.resolveMember context r' owner required m) := by
  refine .bind (hr _) fun type _ htype => ?_
  cases htype
  cases type with
  | none => exact .pure rfl
  | some type =>
    refine .bind (.lift (.constraints _ _ _ _)) fun c _ hc => ?_
    cases hc
    cases c with
    | none => exact .pure rfl
    | some c => exact .pure rfl

theorem resolveMembers (owner : String) (required : List String) (members : List Member) :
    Lockstep (Like ρ) (Tracks (List.map ρ.property))
      (Resolution.resolveMembers context r owner required members)
      (Resolution.resolveMembers context r' owner required members) := by
  refine .foldlM (fun properties _ m hp => ?_) members rfl
  cases hp
  refine .bind (.resolveMember hr owner required m) fun p _ hp => ?_
  cases hp
  cases p with
  | none => exact .pure rfl
  | some p => exact .lift (.addProperty owner properties p)

theorem populate (id : CompositeId) (s : Schema) (pointer : Pointer) :
    Lockstep (Like ρ) Eq (Resolution.populate context r id s pointer)
      (Resolution.populate context r' (ρ.composite id) s pointer) := by
  refine .bind (.lift (.push _)) fun _ _ _ => .bind .get fun a b hab => ?_
  dsimp only
  rw [hab.catalog.nameOf id]
  generalize a.catalog.nameOf id = name
  refine .bind (.resolveBase hr name _) fun base _ hbase =>
    .bind (.resolveMembers hr name _ _) fun properties _ hproperties =>
      .bind (.lift (.warnUndeclared _ _ _)) fun _ _ _ =>
        .bind (.lift (.discriminatorValue _ _ _)) fun value _ hvalue =>
          .bind (R := Eq) ?_ fun _ _ _ => .lift .pop
  cases hbase
  cases hproperties
  cases hvalue
  intro s t hst
  refine .some ⟨rfl, hst.modifyComposite id fun {a b} hab => ?_⟩
  exact { hab with
    description := rfl, properties := rfl, base := rfl, discriminator := rfl
    discriminatorValue := rfl, progress := rfl }

end Lockstep

theorem InStep.registerComposite (name : String) (pointer : Pointer) :
    InStep (Like ρ) (Tracks (Option.map fun i => ⟨ρ.composite i.id, i.created⟩))
      (Resolution.registerComposite name pointer) (Resolution.registerComposite name pointer) := by
  intro s t hst
  have hfind := hst.catalog.findComposite name
  cases hs : s.catalog.findComposite? name with
  | none =>
    rw [hs] at hfind
    rw [registerComposite_new hs, registerComposite_new hfind]
    exact ⟨by simp [Tracks, hst.composite_next], hst.withStub name pointer⟩
  | some id =>
    rw [hs] at hfind
    have horigin : (t.catalog.composite? (ρ.composite id)).elim "" (·.origin) =
        (s.catalog.composite? id).elim "" (·.origin) := by
      cases hc : s.catalog.composite? id with
      | none => rw [hst.catalog.composite?_eq_none hc]
      | some composite =>
        obtain ⟨other, hd, hr⟩ := hst.catalog.exists_composite hc
        rw [hd]
        exact hr.origin
    by_cases ho : (s.catalog.composite? id).elim "" (·.origin) = pointer.text
    · rw [registerComposite_known hs ho, registerComposite_known hfind (horigin.trans ho)]
      exact ⟨rfl, hst⟩
    · have ho' : (t.catalog.composite? (ρ.composite id)).elim "" (·.origin) ≠ pointer.text := horigin ▸ ho
      rw [registerComposite_refused hs ho, registerComposite_refused hfind ho']
      exact ⟨rfl, hst.report _ _⟩

theorem InStep.claimKey (name : String) :
    InStep (Like ρ) Eq (Resolution.claimKey name) (Resolution.claimKey name) := by
  intro s t hst
  unfold Resolution.claimKey
  simp only [step_bind, step_get, hst.claimed]
  cases Fields.get? s.claimed (caseKey name) with
  | none => exact ⟨rfl, hst.claim _ _⟩
  | some first =>
    dsimp only
    split_ifs
    · exact ⟨rfl, hst⟩
    · exact ⟨rfl, hst.report _ _⟩

theorem InStep.internEnum (e : EnumType) {name : String} (he : e.name = some name) :
    InStep (Like ρ) (Tracks (Option.map ρ.enum)) (Resolution.internEnum e)
      (Resolution.internEnum e) := by
  intro s t hst
  have hfind := hst.catalog.findEnum name
  unfold Resolution.internEnum
  simp only [Catalog.internEnum, he, Catalog.addAnonymousEnum, hfind]
  cases hs : s.catalog.findEnum? name with
  | none => exact ⟨congrArg some hst.enum_next.symm, hst.withNamedEnum name e⟩
  | some id =>
    simp only [Option.map_some]
    cases hold : s.catalog.enum? id with
    | none =>
      simp only [hst.catalog.enum?_eq_none hold]
      exact ⟨rfl, hst⟩
    | some old =>
      obtain ⟨other, hother, hr⟩ := hst.catalog.exists_enum hold
      simp only [hother, hr.values]
      split_ifs
      · exact ⟨rfl, hst⟩
      · exact ⟨rfl, hst.report _ _⟩

theorem InStep.buildEnum (settings : Settings) (site : Site) (listed : List Json) :
    InStep (Like ρ) (Tracks (Option.map ρ.type)) (Resolution.buildEnum settings site listed)
      (Resolution.buildEnum settings site listed) := by
  unfold Resolution.buildEnum
  cases Enumeration.valuesFrom site.pointer [] listed with
  | error fault => exact .fail _ _
  | ok values =>
    cases site.schema.extension? settings.enumExtension with
    | none =>
      refine .bind (R := Tracks ρ.enum) (fun s t hst => ?_) fun id _ hid => ?_
      · exact ⟨hst.enum_next.symm, hst.withEnum _⟩
      · cases hid
        exact .pure rfl
    | some extension =>
      dsimp only
      split_ifs
      · exact .fail _ _
      · refine .bind (.internEnum _ rfl) fun id _ hid => ?_
        cases hid
        cases id <;> exact .pure rfl

theorem InStep.buildScalar (settings : Settings) (site : Site) :
    InStep (Like ρ) (Tracks (Option.map ρ.type)) (Resolution.buildScalar settings site)
      (Resolution.buildScalar settings site) := by
  unfold Resolution.buildScalar
  cases Scalar.find site.schema.typeName site.schema.format with
  | ok kind => exact .pure rfl
  | error reason =>
    cases reason with
    | type name => exact .fail _ _
    | format typeName format fallback =>
      dsimp only
      split_ifs
      · exact .bind (.warn _) fun _ _ _ => .pure rfl
      · exact .fail _ _

namespace Lockstep

section Steps

variable (hr : Tracking ρ r r')
include hr

theorem buildInline (site : Site) :
    Lockstep (Like ρ) (Tracks (Option.map ρ.type)) (Resolution.buildInline context r site)
      (Resolution.buildInline context r' site) := by
  refine .bind (.lift (.registerComposite site.name site.pointer)) fun interned _ hi => ?_
  cases hi
  cases interned with
  | none => exact .pure rfl
  | some interned =>
    dsimp only [Option.map_some]
    split
    · exact .bind (.populate hr _ _ _) fun _ _ _ => .pure rfl
    · exact .pure rfl

theorem buildDefined (name : String) (schema : Schema) :
    Lockstep (Like ρ) (Tracks (Option.map ρ.type)) (Resolution.buildDefined context r name schema)
      (Resolution.buildDefined context r' name schema) := by
  refine .bind (.lift (.registerComposite name _)) fun interned _ hi => ?_
  cases hi
  cases interned with
  | none => exact .bind (.lift (.markFailed _)) fun _ _ _ => .pure rfl
  | some interned =>
    refine .bind (.lift (.remember _ (.composite interned.id))) fun _ _ _ => ?_
    dsimp only [Option.map_some]
    split
    · exact .bind (.populate hr _ _ _) fun _ _ _ => .pure rfl
    · exact .pure rfl

theorem buildAliased (name : String) (schema : Schema) :
    Lockstep (Like ρ) (Tracks (Option.map ρ.type)) (Resolution.buildAliased r name schema)
      (Resolution.buildAliased r' name schema) := by
  refine .bind .get fun a b hab => ?_
  dsimp only
  rw [hab.frames]
  split
  · exact .bind (.lift (.markFailed _)) fun _ _ _ => .lift (.fail _ _)
  · refine .bind (.lift (.push _)) fun _ _ _ => .bind (hr _) fun type _ htype =>
      .bind (.lift .pop) fun _ _ _ => ?_
    cases htype
    cases type with
    | none => exact .bind (.lift (.markFailed _)) fun _ _ _ => .pure rfl
    | some type => exact .bind (.lift (.remember _ type)) fun _ _ _ => .pure rfl

theorem resolveClaimed (name : String) (schema : Schema) :
    Lockstep (Like ρ) (Tracks (Option.map ρ.type)) (Resolution.resolveClaimed context r name schema)
      (Resolution.resolveClaimed context r' name schema) := by
  refine .bind .get fun a b hab => ?_
  dsimp only
  rw [hab.resolved]
  cases Fields.get? a.resolved (caseKey name) with
  | some type => exact .pure rfl
  | none =>
    have hfailed : b.failed.contains (caseKey name) = a.failed.contains (caseKey name) := by
      rw [Bool.eq_iff_iff, List.contains_iff_mem, List.contains_iff_mem, hab.failed]
    rw [hfailed]
    dsimp only [Option.map_none]
    split_ifs
    · exact .pure rfl
    · exact .buildDefined hr name schema
    · exact .buildAliased hr name schema

theorem resolveDefinition (name : String) (pointer : Pointer) (owner : String) :
    Lockstep (Like ρ) (Tracks (Option.map ρ.type))
      (Resolution.resolveDefinition context r name pointer owner)
      (Resolution.resolveDefinition context r' name pointer owner) := by
  unfold Resolution.resolveDefinition
  cases context.document.definition? name with
  | none =>
    dsimp only
    split_ifs
    · exact .pure rfl
    · exact .lift (.fail _ _)
  | some found =>
    obtain ⟨canonical, schema⟩ := found
    refine .bind (.lift (.claimKey canonical)) fun claimed _ hclaimed => ?_
    cases hclaimed
    cases claimed
    · exact .pure rfl
    · exact .resolveClaimed hr canonical schema

theorem resolveReference (text : String) (site : Site) :
    Lockstep (Like ρ) (Tracks (Option.map ρ.type)) (Resolution.resolveReference context r text site)
      (Resolution.resolveReference context r' text site) := by
  unfold Resolution.resolveReference
  split
  · exact .resolveDefinition hr _ _ _
  · exact .lift (.fail _ _)

theorem buildSequence (site : Site) :
    Lockstep (Like ρ) (Tracks (Option.map ρ.type)) (Resolution.buildSequence r site)
      (Resolution.buildSequence r' site) := by
  unfold Resolution.buildSequence
  cases site.schema.items with
  | none => exact .lift (.fail _ _)
  | some items =>
    refine .bind (hr _) fun element _ he => ?_
    cases he
    cases element <;> exact .pure rfl

theorem buildDictionary (site : Site) (value : Option Schema) :
    Lockstep (Like ρ) (Tracks (Option.map ρ.type)) (Resolution.buildDictionary r site value)
      (Resolution.buildDictionary r' site value) := by
  cases value with
  | none => exact .pure rfl
  | some schema =>
    refine .bind (hr _) fun value _ hv => ?_
    cases hv
    cases value <;> exact .pure rfl

theorem resolveStep :
    Tracking ρ (Resolution.resolveStep context r) (Resolution.resolveStep context r') := by
  intro site
  unfold Resolution.resolveStep
  cases site.schema.route with
  | reference text => exact .resolveReference hr text site
  | enumeration listed => exact .lift (.buildEnum _ _ _)
  | malformed value => exact .lift (.fail _ _)
  | array clash =>
    cases clash
    · exact .buildSequence hr site
    · exact .bind (.lift (.report _ _)) fun _ _ _ => .buildSequence hr site
  | dictionary value => exact .buildDictionary hr site value
  | composite => exact .buildInline hr site
  | scalar => exact .lift (.buildScalar _ _)

end Steps

theorem resolveSite (ρ : Renumbering) (context : Context) :
    Tracking ρ (Resolution.resolveSite context) (Resolution.resolveSite context) := by
  have hall : ∀ n, Tracking ρ (resolve context n) (resolve context n) := fun n => by
    induction n with
    | zero => exact fun site s t _ => .none
    | succ n ih => exact resolveStep ih
  exact fun site => hall _ site

end Lockstep

def responsesIn (ρ : Renumbering) (r : Responses) : Responses :=
  { r with
    byStatus := r.byStatus.map fun n => (n.1, ρ.response n.2)
    otherwise := r.otherwise.map ρ.response }

theorem responsesIn_add (responses : Responses) (status : String) (response : Response) :
    responsesIn ρ (responses.add status response) =
      (responsesIn ρ responses).add status (ρ.response response) := by
  have hset : ∀ fields : List (String × Response), (Fields.set fields status response).map
      (fun n => (n.1, ρ.response n.2)) =
        Fields.set (fields.map fun n => (n.1, ρ.response n.2)) status (ρ.response response) := by
    intro fields
    induction fields with
    | nil => rfl
    | cons n rest ih =>
      simp only [Fields.set, List.map_cons]
      split
      · rfl
      · rw [List.map_cons, ih]
  unfold Responses.add
  split
  · rfl
  · simp only [responsesIn, hset]

theorem InStep.mergeParameters (document : Document) (owner : String) (declared : List Declared) :
    InStep (Like ρ) Eq (Resolution.mergeParameters document owner declared)
      (Resolution.mergeParameters document owner declared) := by
  refine .foldlM (fun merged _ d hm => ?_) declared rfl
  cases hm
  split
  · exact .pure rfl
  · exact .bind (.report _ _) fun _ _ _ => .pure rfl

namespace Lockstep

section Operations

variable (hr : Tracking ρ r r')
include hr

theorem buildParameter (owner typePrefix : String) (d : Declared) :
    Lockstep (Like ρ) (Tracks (Option.map ρ.parameter))
      (Resolution.buildParameter context r owner typePrefix d)
      (Resolution.buildParameter context r' owner typePrefix d) := by
  unfold Resolution.buildParameter
  split
  · exact .lift (.fail _ _)
  split
  · exact .lift (.fail _ _)
  split
  · exact .lift (.fail _ _)
  refine .bind (hr _) fun type _ htype => ?_
  cases htype
  cases type with
  | none => exact .pure rfl
  | some type =>
    refine .bind (.lift (.constraints _ _ _ _)) fun c _ hc => ?_
    cases hc
    cases c with
    | none => exact .pure rfl
    | some c =>
      dsimp only [Option.map_some]
      split
      · exact .lift (.fail _ _)
      · exact .pure rfl

theorem buildParameters (owner typePrefix : String) (merged : List Declared) :
    Lockstep (Like ρ) (Tracks (List.map ρ.parameter))
      (Resolution.buildParameters context r owner typePrefix merged)
      (Resolution.buildParameters context r' owner typePrefix merged) := by
  refine .foldlM (fun parameters _ d hp => ?_) merged rfl
  cases hp
  refine .bind (.buildParameter hr owner typePrefix d) fun p _ hp => .pure ?_
  cases hp
  cases p <;> simp [Tracks]

theorem addResponse (owner typePrefix : String) (pointer : Pointer) (responses : Responses)
    (status : String) (node : ResponseNode) : Lockstep (Like ρ) (Tracks (responsesIn ρ))
      (Resolution.addResponse r owner typePrefix pointer responses status node)
      (Resolution.addResponse r' owner typePrefix pointer (responsesIn ρ responses) status
        node) := by
  unfold Resolution.addResponse
  cases node.schema with
  | none => exact .pure (responsesIn_add responses status ⟨node.description, none⟩).symm
  | some schema =>
    refine .bind (hr _) fun body _ hb => ?_
    cases hb
    cases body with
    | none =>
      refine .pure ?_
      split <;> rfl
    | some body =>
      refine .pure ((responsesIn_add ..).trans ?_).symm
      split <;> rfl

theorem buildResponses (owner typePrefix : String) (pointer : Pointer)
    (nodes : List (String × ResponseNode)) : Lockstep (Like ρ) (Tracks (responsesIn ρ))
      (Resolution.buildResponses r owner typePrefix pointer nodes)
      (Resolution.buildResponses r' owner typePrefix pointer nodes) := by
  refine .foldlM (fun responses _ n hp => ?_) nodes rfl
  cases hp
  exact .addResponse hr owner typePrefix pointer responses n.1 n.2

theorem buildSelected (o : Operation) (id : String) : Lockstep (Like ρ) (Tracks ρ.method)
    (Resolution.buildSelected context r o id) (Resolution.buildSelected context r' o id) := by
  refine .bind (.lift (.mergeParameters _ _ _)) fun merged _ hm => ?_
  cases hm
  refine .bind (.buildParameters hr _ _ _) fun parameters _ hp =>
    .bind (.buildResponses hr _ _ _ _) fun responses _ hres => .pure ?_
  cases hp
  cases hres
  rfl

theorem buildMethod (o : Operation) : Lockstep (Like ρ) (Tracks (Option.map ρ.method))
    (Resolution.buildMethod context r o) (Resolution.buildMethod context r' o) := by
  unfold Resolution.buildMethod
  cases o.node.operationId with
  | none => exact .lift (.fail _ _)
  | some id =>
    dsimp only
    split_ifs
    · refine .bind (.buildSelected hr o id) fun method _ hm => .pure ?_
      cases hm
      rfl
    · exact .pure rfl

theorem buildMethods (operations : List Operation) : Lockstep (Like ρ) (Tracks (List.map ρ.method))
    (Resolution.buildMethods context r operations)
    (Resolution.buildMethods context r' operations) := by
  refine .foldlM (fun methods _ o hp => ?_) operations rfl
  cases hp
  refine .bind (.buildMethod hr o) fun method _ hm => .pure ?_
  cases hm
  cases method <;> simp [Tracks]

end Operations

end Lockstep

end ApiModel.Resolution
