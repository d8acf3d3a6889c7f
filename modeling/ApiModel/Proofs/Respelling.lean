import ApiModel.Proofs.Masks

/-! # Resolution of respelled references

Documents that differ in the spelling of their references are resolved in step: what is registered,
remembered and found is the same. Only whether a property is constant may depend on the spelling,
since the definition that it refers to is looked up by its exact name for that.
-/

namespace ApiModel

open Text (caseKey)

variable {flags : Bool} {f : String → String}

namespace Reference.SameUpToCase

variable {text text' name : String}

theorem definition (h : SameUpToCase text text') (hp : parse? text = some ⟨.definitions, name⟩) :
    ∃ name', parse? text' = some ⟨.definitions, name'⟩ ∧ caseKey name = caseKey name' := by
  obtain rfl | ⟨a, b, ha, hb, hk⟩ := h
  · exact ⟨name, hp, rfl⟩
  · cases hp.symm.trans ha
    exact ⟨b, hb, hk⟩

theorem eq_of_other (h : SameUpToCase text text')
    (hp : ∀ name, parse? text ≠ some ⟨.definitions, name⟩) : text' = text := by
  obtain rfl | ⟨a, -, ha, -, -⟩ := h
  · rfl
  · exact absurd ha (hp a)

end Reference.SameUpToCase

namespace Resolution

variable {document : Document} {settings : Settings} {grammars : Grammars} {r r' : Resolver}

/-- References to definitions are respelled without becoming others, and where flags matter it is
found of as many schemas as before that they allow one value only. -/
structure Neutral (flags : Bool) (f : String → String) (d : Document) : Prop where
  names : d.CaseDistinct
  same : ∀ text, Reference.SameUpToCase text (f text)
  constants : flags = true → ∀ s : Schema,
    allowsOneValue (d.respell f) (s.respell f) = allowsOneValue d s

/-- Calls of two resolvers go on in step, the one for schemas with other references. -/
def Respells (flags : Bool) (f : String → String) (r r' : Resolver) : Prop :=
  ∀ site : Site, Lockstep (Agree flags) Eq (r site) (r' (site.respell f))

namespace Respells

variable (hn : Neutral flags f document) (hr : Respells flags f r r')

section Members

include hr

theorem resolveBase (name : String) (parts : List BasePart) :
    Lockstep (Agree flags) Eq (Resolution.resolveBase r name parts)
      (Resolution.resolveBase r' name (parts.map (BasePart.respell f))) := by
  cases parts with
  | nil => exact .pure rfl
  | cons part others =>
    refine .bind (hr _) fun type _ htype => ?_
    cases htype
    exact .bind (.lift (Agree.inStep_baseOf name part type)) fun base _ hb =>
      .bind (.lift (Agree.inStep_reportSecondBases name others)) fun _ _ _ => .pure hb

include hn

theorem resolveMember (owner : String) (required : List String) (m : Member) :
    Lockstep (Agree flags) (SameBy (Option.map (Property.mask flags)))
      (Resolution.resolveMember ⟨document, settings⟩ r owner required m)
      (Resolution.resolveMember ⟨document.respell f, settings⟩ r' owner required
        (m.respell f)) := by
  refine .bind (hr _) fun type _ htype => ?_
  cases htype
  cases type with
  | none => exact .pure rfl
  | some type =>
    rw [show (m.respell f).schema.facets = m.schema.facets by
      rw [Member.respell, Schema.toKeywords_respell]]
    refine .bind (.lift (Agree.inStep_constraints _ _ _)) fun c _ hc => ?_
    cases hc
    cases c with
    | none => exact .pure rfl
    | some c =>
      refine .pure ?_
      have hconstant : (flags && (required.contains m.name &&
          allowsOneValue (document.respell f) (m.schema.respell f))) =
            (flags && (required.contains m.name && allowsOneValue document m.schema)) := by
        cases flags with
        | false => rfl
        | true => rw [hn.constants rfl]
      simp only [SameBy, Option.map_some, Property.mask, Member.respell,
        Schema.toKeywords_respell, hconstant]

theorem resolveMembers (owner : String) (required : List String) (members : List Member) :
    Lockstep (Agree flags) (SameBy (List.map (Property.mask flags)))
      (Resolution.resolveMembers ⟨document, settings⟩ r owner required members)
      (Resolution.resolveMembers ⟨document.respell f, settings⟩ r' owner required
        (members.map (Member.respell f))) := by
  refine .foldlM_map _ (fun properties properties' m hs => ?_) members rfl
  refine .bind (resolveMember hn hr owner required m) fun p q hp => ?_
  cases p with
  | none =>
    obtain rfl : q = none := Option.map_eq_none_iff.mp hp
    exact .pure hs
  | some p =>
    obtain ⟨q, rfl, hpq⟩ := Option.map_eq_some_iff.mp hp
    exact .lift (Agree.inStep_addProperty owner hs hpq)

theorem populate (id : CompositeId) (s : Schema) (pointer : Pointer) :
    Lockstep (Agree flags) Eq (Resolution.populate ⟨document, settings⟩ r id s pointer)
      (Resolution.populate ⟨document.respell f, settings⟩ r' id (s.respell f) pointer) := by
  refine .bind (.lift (Agree.inStep_push _)) fun _ _ _ => .bind .get fun a b hab => ?_
  dsimp only
  rw [hab.catalog.nameOf id, Schema.declaredMembers_respell, Schema.declaredRequired_respell,
    Schema.baseParts_respell, Schema.declaredDiscriminator_respell]
  generalize a.catalog.nameOf id = name
  refine .bind (resolveBase hr name _) fun base _ hbase =>
    .bind (resolveMembers hn hr name _ _) fun properties properties' hproperties =>
      .bind (.lift (Agree.inStep_warnUndeclared _ _ _)) fun _ _ _ =>
        .bind (.lift (Agree.inStep_discriminatorValue _ _ _)) fun value _ hvalue =>
          .bind (R := Eq) ?_ fun _ _ _ => .lift Agree.inStep_pop
  cases hbase
  cases hvalue
  intro u v huv
  refine .some ⟨rfl, huv.with_catalog (huv.catalog.modifyComposite id fun {x y} hxy => ?_)⟩
  obtain ⟨hname, horigin, hderived⟩ := Composite.eq_of_mask hxy
  simp only [SameBy, Composite.mask, Schema.toKeywords_respell, hname, horigin, hderived]
  rw [show List.map _ properties' = _ from hproperties]

theorem buildInline (site : Site) :
    Lockstep (Agree flags) Eq (Resolution.buildInline ⟨document, settings⟩ r site)
      (Resolution.buildInline ⟨document.respell f, settings⟩ r' (site.respell f)) := by
  refine .bind (.lift (Agree.inStep_registerComposite _ _)) fun interned _ hi => ?_
  cases hi
  cases interned with
  | none => exact .pure rfl
  | some interned =>
    dsimp only
    split
    · exact .bind (populate hn hr _ _ _) fun _ _ _ => .pure rfl
    · exact .pure rfl

theorem buildDefined (name : String) (schema : Schema) :
    Lockstep (Agree flags) Eq (Resolution.buildDefined ⟨document, settings⟩ r name schema)
      (Resolution.buildDefined ⟨document.respell f, settings⟩ r' name (schema.respell f)) := by
  refine .bind (.lift (Agree.inStep_registerComposite name _)) fun interned _ hi => ?_
  cases hi
  cases interned with
  | none => exact .bind (.lift (Agree.inStep_markFailed _)) fun _ _ _ => .pure rfl
  | some interned =>
    refine .bind (.lift (Agree.inStep_remember _ (.composite interned.id))) fun _ _ _ => ?_
    dsimp only
    split
    · exact .bind (populate hn hr _ _ _) fun _ _ _ => .pure rfl
    · exact .pure rfl

omit hn in
theorem buildAliased (name : String) (schema : Schema) :
    Lockstep (Agree flags) Eq (Resolution.buildAliased r name schema)
      (Resolution.buildAliased r' name (schema.respell f)) := by
  refine .bind .get fun a b hab => ?_
  dsimp only
  rw [hab.frames]
  split
  · exact .bind (.lift (Agree.inStep_markFailed _)) fun _ _ _ =>
      .lift (Agree.inStep_fail rfl _ _)
  · refine .bind (.lift (Agree.inStep_push _)) fun _ _ _ => .bind (hr _) fun type _ htype =>
      .bind (.lift Agree.inStep_pop) fun _ _ _ => ?_
    cases htype
    cases type with
    | none => exact .bind (.lift (Agree.inStep_markFailed _)) fun _ _ _ => .pure rfl
    | some type => exact .bind (.lift (Agree.inStep_remember _ type)) fun _ _ _ => .pure rfl

theorem resolveClaimed (name : String) (schema : Schema) :
    Lockstep (Agree flags) Eq (Resolution.resolveClaimed ⟨document, settings⟩ r name schema)
      (Resolution.resolveClaimed ⟨document.respell f, settings⟩ r' name (schema.respell f)) := by
  refine .bind .get fun a b hab => ?_
  dsimp only
  rw [hab.resolved, hab.failed, Schema.isComposite_respell]
  cases Fields.get? a.resolved (caseKey name) with
  | some type => exact .pure rfl
  | none =>
    dsimp only
    split_ifs
    · exact .pure rfl
    · exact buildDefined hn hr name schema
    · exact buildAliased hr name schema

theorem resolveDefinition {name name' : String} (hk : caseKey name = caseKey name')
    (pointer : Pointer) (owner : String) :
    Lockstep (Agree flags) Eq
      (Resolution.resolveDefinition ⟨document, settings⟩ r name pointer owner)
      (Resolution.resolveDefinition ⟨document.respell f, settings⟩ r' name' pointer owner) := by
  unfold Resolution.resolveDefinition
  dsimp only
  rw [Document.definition?_respell, ← hn.names.definition?_congr hk]
  cases document.definition? name with
  | none =>
    dsimp only [Option.map_none]
    rw [show (document.respell f).isMalformed name' = document.isMalformed name from
      (Document.isMalformed_congr hk).symm]
    split_ifs
    · exact .pure rfl
    · exact .lift (Agree.inStep_fail rfl _ _)
  | some found =>
    obtain ⟨canonical, schema⟩ := found
    refine .bind (.lift (Agree.inStep_claimKey canonical)) fun claimed _ hclaimed => ?_
    cases hclaimed
    cases claimed
    · exact .pure rfl
    · exact resolveClaimed hn hr canonical schema

theorem resolveReference (text : String) (site : Site) :
    Lockstep (Agree flags) Eq (Resolution.resolveReference ⟨document, settings⟩ r text site)
      (Resolution.resolveReference ⟨document.respell f, settings⟩ r' (f text)
        (site.respell f)) := by
  unfold Resolution.resolveReference
  by_cases hp : ∃ name, Reference.parse? text = some ⟨.definitions, name⟩
  · obtain ⟨name, hp⟩ := hp
    obtain ⟨name', hp', hk⟩ := (hn.same text).definition hp
    simp only [hp, hp']
    exact resolveDefinition hn hr hk _ _
  · have hp := not_exists.mp hp
    rw [(hn.same text).eq_of_other hp]
    split
    · rename_i name hname
      exact absurd hname (hp name)
    · exact .lift (Agree.inStep_fail rfl _ _)

omit hn in
theorem buildSequence (site : Site) :
    Lockstep (Agree flags) Eq (Resolution.buildSequence r site)
      (Resolution.buildSequence r' (site.respell f)) := by
  unfold Resolution.buildSequence
  rw [Site.respell, Schema.items_respell]
  cases site.schema.items with
  | none => exact .lift (Agree.inStep_fail rfl _ _)
  | some items =>
    refine .bind (hr _) fun element _ he => ?_
    cases he
    exact .pure rfl

omit hn in
theorem buildDictionary (site : Site) (value : Option Schema) :
    Lockstep (Agree flags) Eq (Resolution.buildDictionary r site value)
      (Resolution.buildDictionary r' (site.respell f) (value.map (Schema.respell f))) := by
  cases value with
  | none => exact .pure rfl
  | some schema =>
    refine .bind (hr _) fun value _ hv => ?_
    cases hv
    exact .pure rfl

theorem resolveStep :
    Respells flags f (Resolution.resolveStep ⟨document, settings⟩ r)
      (Resolution.resolveStep ⟨document.respell f, settings⟩ r') := by
  intro site
  unfold Resolution.resolveStep
  rw [show (site.respell f).schema.route = site.schema.route.respell f from
    Schema.route_respell ..]
  cases site.schema.route with
  | reference text => exact resolveReference hn hr text site
  | enumeration listed => exact .lift (Agree.inStep_buildEnum _ _ _)
  | malformed value => exact .lift (Agree.inStep_fail rfl _ _)
  | array clash =>
    cases clash
    · exact buildSequence hr site
    · exact .bind (.lift (Agree.inStep_report _ _)) fun _ _ _ => buildSequence hr site
  | dictionary value => exact buildDictionary hr site value
  | composite => exact buildInline hn hr site
  | scalar => exact .lift (Agree.inStep_buildScalar _ _)

end Members

variable (settings grammars) in
include hn in
theorem resolveSite : Respells flags f (Resolution.resolveSite ⟨document, settings⟩)
    (Resolution.resolveSite ⟨document.respell f, settings⟩) := by
  have hall : ∀ n, Respells flags f (resolve ⟨document, settings⟩ n)
      (resolve ⟨document.respell f, settings⟩ n) := fun n => by
    induction n with
    | zero => exact fun site s t _ => .none
    | succ n ih => exact resolveStep hn ih
  intro site
  unfold Resolution.resolveSite
  have hfuel : fuelFor (document.respell f) (site.respell f).schema =
      fuelFor document site.schema := by
    unfold fuelFor
    rw [Document.propertySize_definitions_respell, Site.respell, Schema.size_respell]
  rw [hfuel]
  exact hall _ site

end Respells

def Declared.respell (f : String → String) (d : Declared) : Declared :=
  { d with node := d.node.respell f }

def Operation.respell (f : String → String) (o : Operation) : Operation :=
  { o with item := o.item.respell f, node := o.node.respell f }

theorem listedAt_respell (pointer : Pointer) (nodes : List ParameterNode) :
    listedAt pointer (nodes.map (ParameterNode.respell f)) =
      (listedAt pointer nodes).map (Declared.respell f) := by
  simp [listedAt, List.zipIdx_map, Function.comp_def, Declared.respell]

theorem Operation.declared_respell (o : Operation) :
    (o.respell f).declared = o.declared.map (Declared.respell f) := by
  simp only [Operation.declared, Operation.respell, PathItem.respell, OperationNode.respell,
    Operation.pointer, listedAt_respell, List.map_append]

theorem operationsOf_respell :
    operationsOf (document.respell f) = (operationsOf document).map (Operation.respell f) := by
  simp only [operationsOf, Document.respell, List.flatMap_map, List.map_flatMap,
    PathItem.operations_respell, List.map_map, Function.comp_def, Operation.respell]

theorem dereference_respell (d : Declared) :
    dereference (document.respell f) (d.respell f) =
      (dereference document d).map (Declared.respell f) := by
  unfold dereference
  have hget : ∀ name, Fields.get? (document.respell f).parameters name =
      (Fields.get? document.parameters name).map (ParameterNode.respell f) :=
    fun name => Fields.get?_map ..
  simp only [hget, show (d.respell f).node.reference = d.node.reference from rfl]
  cases d.node.reference with
  | none => rfl
  | some reference =>
    dsimp only
    split
    · rename_i name hname
      cases Fields.get? document.parameters name with
      | none => rfl
      | some shared =>
        simp only [Option.map_some, ParameterNode.respell]
        split_ifs <;> rfl
    · rfl

theorem putParameter_respell (merged : List Declared) (d : Declared) :
    putParameter (merged.map (Declared.respell f)) (d.respell f) =
      (putParameter merged d).map (Declared.respell f) := by
  induction merged with
  | nil => rfl
  | cons e rest ih =>
    simp only [putParameter, List.map_cons, ih]
    have hkey : ∀ x : Declared, (x.respell f).key = x.key := fun _ => rfl
    rw [hkey, hkey]
    split <;> rfl

theorem Agree.inStep_mergeParameters (owner : String) (declared : List Declared) :
    InStep (Agree flags) (Tracks (List.map (Declared.respell f)))
      (mergeParameters document owner declared)
      (mergeParameters (document.respell f) owner (declared.map (Declared.respell f))) := by
  refine .foldlM_map _ (fun merged _ d hm => ?_) declared rfl
  cases hm
  rw [dereference_respell]
  cases dereference document d with
  | ok d => exact .pure (putParameter_respell merged d)
  | error fault => exact .bind (inStep_report _ _) fun _ _ _ => .pure rfl

theorem valueSchema_respell (d : Declared) (name : String) (location : Location) :
    valueSchema (d.respell f) name location =
      (valueSchema d name location).map fun p => (p.1.respell f, p.2) := by
  unfold valueSchema
  simp only [show (d.respell f).node = d.node.respell f from rfl,
    show (d.respell f).pointer = d.pointer from rfl, ParameterNode.asSchema_respell,
    show (d.node.respell f).typeName = d.node.typeName from rfl]
  split_ifs
  · simp only [ParameterNode.respell]
    cases d.node.schema <;> rfl
  · rfl
  · rfl

namespace Respells

variable (hn : Neutral flags f document) (hr : Respells flags f r r')
include hr

theorem buildParameter (owner typePrefix : String) (d : Declared) :
    Lockstep (Agree flags) Eq (Resolution.buildParameter context r owner typePrefix d)
      (Resolution.buildParameter context r' owner typePrefix (d.respell f)) := by
  unfold Resolution.buildParameter
  simp only [show (d.respell f).node.name = d.node.name from rfl,
    show (d.respell f).node.location = d.node.location from rfl, valueSchema_respell]
  cases d.node.name with
  | none => exact .lift (Agree.inStep_fail rfl _ _)
  | some name =>
    dsimp only
    cases d.node.location.bind Location.ofName? with
    | none => exact .lift (Agree.inStep_fail rfl _ _)
    | some location =>
      dsimp only
      cases valueSchema d name location with
      | error fault => exact .lift (Agree.inStep_fail rfl _ _)
      | ok found =>
        obtain ⟨schema, pointer⟩ := found
        refine .bind (hr _) fun type _ htype => ?_
        cases htype
        cases type with
        | none => exact .pure rfl
        | some type =>
          dsimp only
          rw [Schema.toKeywords_respell]
          refine .bind (.lift (Agree.inStep_constraints _ _ _)) fun c _ hc => ?_
          cases hc
          cases c with
          | none => exact .pure rfl
          | some c =>
            rw [show collectionFormatOf (d.respell f) name location =
              collectionFormatOf d name location from rfl]
            cases collectionFormatOf d name location with
            | error fault => exact .lift (Agree.inStep_fail rfl _ _)
            | ok format => exact .pure rfl

theorem buildParameters (owner typePrefix : String) (merged : List Declared) :
    Lockstep (Agree flags) Eq (Resolution.buildParameters context r owner typePrefix merged)
      (Resolution.buildParameters context r' owner typePrefix (merged.map (Declared.respell f))) := by
  refine .foldlM_map _ (fun parameters _ d hp => ?_) merged rfl
  cases hp
  refine .bind (buildParameter hr owner typePrefix d) fun p _ hp => ?_
  cases hp
  exact .pure rfl

theorem addResponse (owner typePrefix : String) (pointer : Pointer) (responses : Responses)
    (status : String) (node : ResponseNode) : Lockstep (Agree flags) Eq
      (Resolution.addResponse r owner typePrefix pointer responses status node)
      (Resolution.addResponse r' owner typePrefix pointer responses status (node.respell f)) := by
  unfold Resolution.addResponse
  rw [show (node.respell f).schema = node.schema.map (Schema.respell f) from rfl]
  cases node.schema with
  | none => exact .pure rfl
  | some schema =>
    have hreference : (schema.respell f).reference = schema.reference.map f := by
      rw [Schema.toKeywords_respell]
    have hname : bodyName typePrefix status (schema.respell f) responses.inlineBodies =
        bodyName typePrefix status schema responses.inlineBodies := by
      simp only [bodyName, hreference, Option.isSome_map]
    simp only [Option.map_some, hname, hreference, Option.isNone_map]
    refine .bind (hr _) fun body _ hb => ?_
    cases hb
    cases body <;> exact .pure rfl

theorem buildResponses (owner typePrefix : String) (pointer : Pointer)
    (nodes : List (String × ResponseNode)) : Lockstep (Agree flags) Eq
      (Resolution.buildResponses r owner typePrefix pointer nodes)
      (Resolution.buildResponses r' owner typePrefix pointer
        (nodes.map fun n => (n.1, n.2.respell f))) := by
  refine .foldlM_map _ (fun responses _ n hp => ?_) nodes rfl
  cases hp
  exact addResponse hr owner typePrefix pointer responses n.1 n.2

theorem buildSelected (o : Operation) (id : String) : Lockstep (Agree flags) Eq
    (Resolution.buildSelected ⟨document, settings⟩ r o id)
    (Resolution.buildSelected ⟨document.respell f, settings⟩ r' (o.respell f) id) := by
  unfold Resolution.buildSelected
  rw [Operation.declared_respell]
  refine .bind (.lift (Agree.inStep_mergeParameters id o.declared)) fun merged _ hm => ?_
  cases hm
  refine .bind (buildParameters hr _ _ _) fun parameters _ hp =>
    .bind (buildResponses hr _ _ _ _) fun responses _ hres => ?_
  cases hp
  cases hres
  exact .pure rfl

theorem buildMethod (o : Operation) : Lockstep (Agree flags) Eq
    (Resolution.buildMethod ⟨document, settings⟩ r o)
    (Resolution.buildMethod ⟨document.respell f, settings⟩ r' (o.respell f)) := by
  unfold Resolution.buildMethod
  rw [show (o.respell f).node.operationId = o.node.operationId from rfl]
  cases o.node.operationId with
  | none => exact .lift (Agree.inStep_fail rfl _ _)
  | some id =>
    dsimp only
    split_ifs
    · refine .bind (buildSelected hr o id) fun method _ hm => ?_
      cases hm
      exact .pure rfl
    · exact .pure rfl

theorem buildMethods (operations : List Operation) : Lockstep (Agree flags) Eq
    (Resolution.buildMethods ⟨document, settings⟩ r operations)
    (Resolution.buildMethods ⟨document.respell f, settings⟩ r'
      (operations.map (Operation.respell f))) := by
  refine .foldlM_map _ (fun methods _ o hp => ?_) operations rfl
  cases hp
  refine .bind (buildMethod hr o) fun method _ hm => ?_
  cases hm
  exact .pure rfl

end Respells

theorem Agree.inStep_reportMalformed (document : Document) :
    InStep (Agree flags) Eq (Build.reportMalformed document)
      (Build.reportMalformed (document.respell f)) := by
  unfold Build.reportMalformed
  rw [show Build.malformedDefects (document.respell f) = Build.malformedDefects document from rfl]
  induction Build.malformedDefects document with
  | nil => exact .pure rfl
  | cons defect rest ih => exact .bind (inStep_report defect defect) fun _ _ _ => ih

namespace Respells

variable (hn : Neutral flags f document)
include hn

theorem resolveDefinitions (hr : Respells flags f r r') (names : List String) :
    Lockstep (Agree flags) Eq (Resolution.resolveDefinitions ⟨document, settings⟩ r names)
      (Resolution.resolveDefinitions ⟨document.respell f, settings⟩ r' names) := by
  induction names with
  | nil => exact .pure rfl
  | cons name rest ih =>
    exact .bind (R := Eq) (.bind (resolveDefinition hn hr rfl _ _) fun _ _ _ => .pure rfl)
      fun _ _ _ => ih

variable (settings grammars) in
theorem resolveAll : Lockstep (Agree flags) Eq
    (Build.resolveAll ⟨document, settings⟩ (Resolution.resolveSite ⟨document, settings⟩))
    (Build.resolveAll ⟨document.respell f, settings⟩
      (Resolution.resolveSite ⟨document.respell f, settings⟩)) := by
  have hr := resolveSite settings grammars hn
  have hnames : (document.respell f).definitions.map Prod.fst =
      document.definitions.map Prod.fst := Document.keys_definitions_respell f document
  unfold Build.resolveAll
  dsimp only
  rw [hnames, operationsOf_respell]
  exact .bind (.lift (Agree.inStep_reportMalformed document)) fun _ _ _ =>
    .bind (resolveDefinitions hn hr _) fun _ _ _ => buildMethods hr _

end Respells

end Resolution

end ApiModel
