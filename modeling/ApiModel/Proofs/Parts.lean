import ApiModel.Proofs.Alike
import ApiModel.Proofs.Steps
import ApiModel.Resolution.Build

/-! # Parts of a resolution

The parts of a resolution are put together from steps that call no resolver, calls of the resolver,
and what goes on with their answers. A property that the steps and the calls preserve is preserved
by the part. No part but an enumeration touches the enums.
-/

namespace ApiModel.Resolution

variable {α β : Type} {context : Context} {s t u : State}

theorem foldlM_rel {R : State → State → Prop} (hrefl : ∀ s, R s s)
    (htrans : ∀ {s t u}, R s t → R t u → R s u) {f : β → α → Step β}
    (hf : ∀ b a s, R s (f b a s).2) (l : List α) (b : β) (s : State) :
    R s (l.foldlM f b s).2 := by
  induction l generalizing b s with
  | nil => exact hrefl s
  | cons a rest ih =>
    rw [List.foldlM_cons, step_bind]
    exact htrans (hf b a s) (ih _ _)

/-- The enums stay as they are, and no conflict between enums is found. -/
structure Calm (s t : State) : Prop where
  enums : t.catalog.enums = s.catalog.enums
  defects : ∀ d ∈ t.defects, d.kind = .enumConflict → d ∈ s.defects

namespace Calm

theorem of_eq (he : t.catalog.enums = s.catalog.enums) (hd : t.defects = s.defects) : Calm s t :=
  ⟨he, fun _ hm _ => hd ▸ hm⟩

theorem of_asides (h : Asides s t) : Calm s t := by
  obtain ⟨ds, es, rfl, hd⟩ := h
  refine ⟨rfl, fun d hm hk => ?_⟩
  rcases List.mem_append.mp hm with hm | hm
  · exact hm
  · cases d with
    | enumConflict => cases hd _ hm
    | _ => cases hk

theorem report {d : Defect} (hd : d.kind ≠ .enumConflict) (s : State) :
    Calm s (Resolution.report d s).2 := by
  refine ⟨rfl, fun d' hm hk => ?_⟩
  rcases List.mem_append.mp hm with hm | hm
  · exact hm
  · rw [List.mem_singleton.mp hm] at hk
    exact absurd hk hd

end Calm

/-- The enums stay as they are, and neither a conflict between enums nor an unknown format is
found. -/
structure Steady (s t : State) : Prop extends Calm s t where
  formats : ∀ d ∈ t.defects, d.isFormat = true → d ∈ s.defects

namespace Steady

theorem of_eq (he : t.catalog.enums = s.catalog.enums) (hd : t.defects = s.defects) :
    Steady s t := ⟨.of_eq he hd, fun _ hm _ => hd ▸ hm⟩

theorem refl (s : State) : Steady s s := of_eq rfl rfl

theorem of_asides (h : Asides s t) : Steady s t := by
  refine ⟨.of_asides h, fun d hm hf => ?_⟩
  obtain ⟨ds, es, rfl, hd⟩ := h
  rcases List.mem_append.mp hm with hm | hm
  · exact hm
  · cases (Defect.isFormat_of_isPlain (hd d hm)).symm.trans hf

theorem report {d : Defect} (hd : d.kind ≠ .enumConflict) (hf : d.isFormat = false) (s : State) :
    Steady s (Resolution.report d s).2 := by
  refine ⟨.report hd s, fun d' hm hf' => ?_⟩
  rcases List.mem_append.mp hm with hm | hm
  · exact hm
  · rw [List.mem_singleton.mp hm, hf] at hf'
    cases hf'

theorem registerComposite (name : String) (pointer : Pointer) (s : State) :
    Steady s (Resolution.registerComposite name pointer s).2 := by
  obtain ⟨-, hr⟩ | ⟨id, -, -, hr⟩ | ⟨d, hr⟩ := registerComposite_cases name pointer s
  · rw [hr]
    exact of_eq rfl rfl
  · rw [hr]
    exact refl s
  · rw [hr]
    exact of_asides (.report (registerComposite_clash hr).2 s)

theorem claimKey (name : String) (s : State) : Steady s (Resolution.claimKey name s).2 := by
  obtain ⟨-, hk⟩ | ⟨-, hk⟩ | ⟨d, hk⟩ := claimKey_cases name s
  · rw [hk]
    exact of_eq rfl rfl
  · rw [hk]
    exact refl s
  · rw [hk]
    exact of_asides (.report (claimKey_clash hk).2 s)

end Steady

theorem isPlain_of_dereference {document : Document} {d : Declared} {fault : SchemaFault}
    (h : dereference document d = .error fault) (owner : String) :
    (Defect.schema owner fault).isPlain = true := by
  unfold dereference at h
  split at h
  · cases h
  · split at h
    · split at h
      · split_ifs at h
        cases h
        rfl
      · cases h
        rfl
    · cases h
      rfl

theorem isPlain_of_valueSchema {d : Declared} {name : String} {location : Location}
    {fault : SchemaFault} (h : valueSchema d name location = .error fault) (owner : String) :
    (Defect.schema owner fault).isPlain = true := by
  unfold valueSchema at h
  split_ifs at h
  · split at h
    · cases h
    · cases h
      rfl
  · cases h
    rfl

theorem isPlain_of_collectionFormatOf {d : Declared} {name : String} {location : Location}
    {fault : SchemaFault} (h : collectionFormatOf d name location = .error fault)
    (owner : String) : (Defect.schema owner fault).isPlain = true := by
  unfold collectionFormatOf at h
  split_ifs at h
  split at h
  · cases h
  · split at h
    · cases h
    · cases h
      rfl

namespace Asides

theorem mergeParameters (document : Document) (owner : String) (declared : List Declared)
    (s : State) : Asides s (Resolution.mergeParameters document owner declared s).2 := by
  refine foldlM_rel refl trans (fun merged d s => ?_) declared [] s
  cases h : Resolution.dereference document d with
  | ok d => exact refl s
  | error fault => exact report (isPlain_of_dereference h owner) s

theorem reportMalformed (document : Document) (s : State) :
    Asides s (Build.reportMalformed document s).2 := by
  unfold Build.reportMalformed Build.malformedDefects
  induction document.malformed generalizing s with
  | nil => exact refl s
  | cons m rest ih => exact (report rfl s).trans (ih _)

end Asides

theorem foldlM_notes {f : β → α → Step β} (hf : ∀ b a s, Notes s (f b a s).2) (l : List α) (b : β)
    (s : State) : Notes s (l.foldlM f b s).2 :=
  foldlM_rel .refl .trans hf l b s

theorem mergeParameters_notes (document : Document) (owner : String) (declared : List Declared)
    (s : State) : Notes s (mergeParameters document owner declared s).2 :=
  (Asides.mergeParameters document owner declared s).notes

theorem bind_eq_some {m : Run α} {f : α → Run β} {p : β × State} :
    (m >>= f) s = some p ↔ ∃ a t, m s = some (a, t) ∧ f a t = some p := by
  show (m s).bind (fun q => f q.1 q.2) = some p ↔ _
  rw [Option.bind_eq_some_iff]
  exact ⟨fun ⟨⟨a, t⟩, h⟩ => ⟨a, t, h⟩, fun ⟨a, t, h⟩ => ⟨(a, t), h⟩⟩

theorem get_bind (f : State → Run β) (s : State) : (MonadState.get >>= f) s = f s s := rfl

/-- The part is made of calls of the resolver and of steps that each keep to a relation. -/
inductive Composed (R : State → State → Prop) : {α : Type} → (Resolver → Run α) → Prop where
  | pure {α : Type} (a : α) : Composed R fun _ => (Pure.pure a : Run α)
  | get : Composed R fun _ => (MonadState.get : Run State)
  | lift {α : Type} {x : Step α} (h : ∀ s, R s (x s).2) : Composed R fun _ => (liftM x : Run α)
  | call (site : Site) : Composed R fun r => r site
  | bind {α β : Type} {part : Resolver → Run α} {f : Resolver → α → Run β} (h : Composed R part)
      (hf : ∀ a, Composed R fun r => f r a) : Composed R fun r => part r >>= f r

namespace Composed

variable {R R' : State → State → Prop}

theorem mono (hR : ∀ s t, R s t → R' s t) {part : Resolver → Run α} (h : Composed R part) :
    Composed R' part := by
  induction h with
  | pure a => exact .pure a
  | get => exact .get
  | lift h => exact .lift fun s => hR s _ (h s)
  | call site => exact .call site
  | bind _ _ ih ihf => exact .bind ih ihf

theorem steady {part : Resolver → Run α} (h : Composed Asides part) : Composed Steady part :=
  h.mono fun _ _ => .of_asides

theorem calm {part : Resolver → Run α} (h : Composed Steady part) : Composed Calm part :=
  h.mono fun _ _ => Steady.toCalm

/-- What the steps and the calls preserve is preserved by the part. -/
theorem preserves {part : Resolver → Run α} (h : Composed R part) {I : State → Prop} {r : Resolver}
    (hstep : ∀ {s t}, R s t → I s → I t)
    (hcall : ∀ {site s type t}, r site s = some (type, t) → I s → I t)
    {a : α} (hs : I s) (hp : part r s = some (a, t)) : I t := by
  induction h generalizing s t with
  | pure a =>
    cases hp
    exact hs
  | get =>
    cases hp
    exact hs
  | @lift _ x h =>
    obtain rfl : (x s).2 = t := (Prod.mk.inj (Option.some.inj hp)).2
    exact hstep (h s) hs
  | call site => exact hcall hp hs
  | bind _ _ ih ihf =>
    obtain ⟨a, u, hu, hp⟩ := bind_eq_some.mp hp
    exact ihf a (ih hs hu) hp

theorem update {f : State → State} (h : ∀ s, R s (f s)) :
    Composed R fun _ => (modify f : Run PUnit) :=
  show Composed R fun _ => (liftM (modify f : Step PUnit) : Run PUnit) from .lift h

theorem foldlM {f : Resolver → β → α → Run β} (hf : ∀ b a, Composed R fun r => f r b a)
    (l : List α) (b : β) : Composed R fun r => l.foldlM (f r) b := by
  induction l generalizing b with
  | nil => exact .pure b
  | cons a l ih =>
    simp only [List.foldlM_cons]
    exact .bind (hf b a) ih

theorem forM {f : Resolver → α → Run PUnit} (hf : ∀ a, Composed R fun r => f r a) (l : List α) :
    Composed R fun r => l.forM (f r) := by
  induction l with
  | nil => exact .pure _
  | cons a l ih => exact .bind (hf a) fun _ => ih

theorem fail {name : String} {fault : SchemaFault} (h : (Defect.schema name fault).isFormat = false) :
    Composed Steady fun _ =>
      (liftM (Resolution.fail (.schema name fault) : Step (Option α)) : Run (Option α)) :=
  .lift (.report nofun h)

theorem resolveBase (name : String) (parts : List BasePart) :
    Composed Asides fun r => Resolution.resolveBase r name parts := by
  cases parts with
  | nil => exact .pure _
  | cons part others =>
    exact .bind (.call _) fun type => .bind (.lift (.baseOf name part type)) fun base =>
      .bind (.lift (.reportSecondBases name others)) fun _ => .pure _

theorem resolveMember (context : Context) (owner : String) (required : List String) (m : Member) :
    Composed Asides fun r => Resolution.resolveMember context r owner required m := by
  refine .bind (.call _) fun type => ?_
  cases type with
  | none => exact .pure _
  | some type =>
    refine .bind (.lift (.constraints _ _ _ _)) fun c => ?_
    cases c with
    | none => exact .pure _
    | some c => exact .pure _

theorem resolveMembers (context : Context) (owner : String) (required : List String)
    (members : List Member) :
    Composed Asides fun r => Resolution.resolveMembers context r owner required members := by
  refine .foldlM (fun properties m => .bind (.resolveMember context owner required m) fun p => ?_)
    _ _
  cases p with
  | none => exact .pure _
  | some p => exact .lift (.addProperty owner properties p)

theorem populate (context : Context) (id : CompositeId) (s : Schema) (pointer : Pointer) :
    Composed Steady fun r => Resolution.populate context r id s pointer := by
  refine .bind (.lift fun _ => .of_eq rfl rfl) fun _ => .bind .get fun st =>
    .bind (.steady (.resolveBase _ _)) fun base =>
      .bind (.steady (.resolveMembers _ _ _ _)) fun properties =>
        .bind (.steady (.lift (.warnUndeclared _ _ _))) fun _ =>
          .bind (.steady (.lift (.discriminatorValue _ _ _))) fun value =>
            .bind (.update fun _ => .of_eq rfl rfl) fun _ => .lift fun _ => .of_eq rfl rfl

theorem buildInline (context : Context) (site : Site) :
    Composed Steady fun r => Resolution.buildInline context r site := by
  refine .bind (.lift (.registerComposite _ _)) fun interned => ?_
  cases interned with
  | none => exact .pure _
  | some interned =>
    obtain ⟨id, created⟩ := interned
    cases created with
    | true => exact .bind (.populate context _ _ _) fun _ => .pure _
    | false => exact .pure _

theorem buildDefined (context : Context) (name : String) (s : Schema) :
    Composed Steady fun r => Resolution.buildDefined context r name s := by
  refine .bind (.lift (.registerComposite _ _)) fun interned => ?_
  cases interned with
  | none => exact .bind (.lift fun _ => .of_eq rfl rfl) fun _ => .pure _
  | some interned =>
    obtain ⟨id, created⟩ := interned
    refine .bind (.lift fun _ => .of_eq rfl rfl) fun _ => ?_
    cases created with
    | true => exact .bind (.populate context _ _ _) fun _ => .pure _
    | false => exact .pure _

theorem buildAliased (name : String) (s : Schema) :
    Composed Steady fun r => Resolution.buildAliased r name s := by
  refine .bind .get fun st => ?_
  cases comesRound st.frames (Text.caseKey name) with
  | true => exact .bind (.lift fun _ => .of_eq rfl rfl) fun _ => .fail rfl
  | false =>
    refine .bind (.lift fun _ => .of_eq rfl rfl) fun _ => .bind (.call _) fun type =>
      .bind (.lift fun _ => .of_eq rfl rfl) fun _ => ?_
    cases type with
    | none => exact .bind (.lift fun _ => .of_eq rfl rfl) fun _ => .pure _
    | some type => exact .bind (.lift fun _ => .of_eq rfl rfl) fun _ => .pure _

theorem resolveClaimed (context : Context) (name : String) (s : Schema) :
    Composed Steady fun r => Resolution.resolveClaimed context r name s := by
  refine .bind .get fun st => ?_
  dsimp only
  cases Fields.get? st.resolved (Text.caseKey name) with
  | some type => exact .pure _
  | none =>
    dsimp only
    split_ifs
    · exact .pure _
    · exact .buildDefined context _ _
    · exact .buildAliased _ _

theorem resolveDefinition (context : Context) (name : String) (pointer : Pointer)
    (owner : String) :
    Composed Steady fun r => Resolution.resolveDefinition context r name pointer owner := by
  unfold Resolution.resolveDefinition
  cases context.document.definition? name with
  | none =>
    dsimp only
    split_ifs
    · exact .pure _
    · exact .fail rfl
  | some found =>
    refine .bind (.lift (.claimKey _)) fun claimed => ?_
    cases claimed with
    | true => exact .resolveClaimed context _ _
    | false => exact .pure _

theorem resolveReference (context : Context) (text : String) (site : Site) :
    Composed Steady fun r => Resolution.resolveReference context r text site := by
  unfold Resolution.resolveReference
  cases Reference.parse? text with
  | none => exact .fail rfl
  | some reference =>
    obtain ⟨target, name⟩ := reference
    cases target with
    | definitions => exact .resolveDefinition context _ _ _
    | parameters => exact .fail rfl

theorem buildSequence (site : Site) : Composed Asides fun r => Resolution.buildSequence r site := by
  unfold Resolution.buildSequence
  cases site.schema.items with
  | none => exact .lift (.report rfl)
  | some items => exact .bind (.call _) fun _ => .pure _

theorem buildDictionary (site : Site) (value : Option Schema) :
    Composed Asides fun r => Resolution.buildDictionary r site value := by
  cases value with
  | none => exact .pure _
  | some value => exact .bind (.call _) fun _ => .pure _

theorem resolveInside {site : Site} (hr : ∀ text, site.schema.route ≠ .reference text)
    (hs : site.schema.route ≠ .composite) (he : ∀ listed, site.schema.route ≠ .enumeration listed)
    (hk : site.schema.route ≠ .scalar) :
    Composed Asides fun r => Resolution.resolveStep context r site := by
  unfold Resolution.resolveStep
  cases hroute : site.schema.route with
  | reference text => exact absurd hroute (hr text)
  | enumeration listed => exact absurd hroute (he listed)
  | malformed value => exact .lift (.report rfl)
  | array clash =>
    cases clash with
    | true => exact .bind (.lift (.report rfl)) fun _ => .buildSequence _
    | false => exact .buildSequence _
  | dictionary value => exact .buildDictionary _ _
  | composite => exact absurd hroute hs
  | scalar => exact absurd hroute hk

theorem resolveSteady {site : Site} (h : ∀ listed, site.schema.route ≠ .enumeration listed)
    (hk : site.schema.route ≠ .scalar) :
    Composed Steady fun r => Resolution.resolveStep context r site := by
  cases hr : site.schema.route with
  | reference text =>
    simp only [Resolution.resolveStep, hr]
    exact .resolveReference context _ _
  | composite =>
    simp only [Resolution.resolveStep, hr]
    exact .buildInline context _
  | _ => exact .steady (.resolveInside (by simp [hr]) (by simp [hr]) h hk)

theorem resolveStep {site : Site} (h : ∀ listed, site.schema.route ≠ .enumeration listed) :
    Composed Calm fun r => Resolution.resolveStep context r site := by
  by_cases hk : site.schema.route = .scalar
  · simp only [Resolution.resolveStep, hk]
    refine .lift fun s => ?_
    obtain ⟨_, -, -, ha⟩ | ⟨reason, -, -, hb⟩ := buildScalar_cases context.settings site s
    · exact .of_asides ha
    · rw [hb]
      exact .report DefectKind.noConfusion s
  · exact (resolveSteady h hk).calm

theorem buildParameter (owner typePrefix : String) (d : Declared) :
    Composed Asides fun r => Resolution.buildParameter context r owner typePrefix d := by
  unfold Resolution.buildParameter
  cases d.node.name with
  | none => exact .lift (.report rfl)
  | some name =>
    dsimp only
    cases d.node.location.bind Location.ofName? with
    | none => exact .lift (.report rfl)
    | some location =>
      dsimp only
      cases hv : valueSchema d name location with
      | error fault => exact .lift (.report (isPlain_of_valueSchema hv owner))
      | ok found =>
        refine .bind (.call _) fun type => ?_
        cases type with
        | none => exact .pure _
        | some type =>
          refine .bind (.lift (.constraints _ _ _ _)) fun c => ?_
          cases c with
          | none => exact .pure _
          | some c =>
            dsimp only
            cases hf : collectionFormatOf d name location with
            | error fault => exact .lift (.report (isPlain_of_collectionFormatOf hf owner))
            | ok format => exact .pure _

theorem addResponse (owner typePrefix : String) (pointer : Pointer) (responses : Responses)
    (status : String) (node : ResponseNode) :
    Composed Asides fun r =>
      Resolution.addResponse r owner typePrefix pointer responses status node := by
  unfold Resolution.addResponse
  cases node.schema with
  | none => exact .pure _
  | some schema =>
    refine .bind (.call _) fun body => ?_
    cases body with
    | none => exact .pure _
    | some body => exact .pure _

theorem buildMethod (context : Context) (o : Operation) :
    Composed Asides fun r => Resolution.buildMethod context r o := by
  unfold Resolution.buildMethod
  cases o.node.operationId with
  | none => exact .lift (.report rfl)
  | some id =>
    dsimp only
    split_ifs
    · refine .bind (.bind (.lift (.mergeParameters _ _ _)) fun merged => .bind ?_
        fun parameters => .bind ?_ fun responses => .pure _) fun built => .pure _
      · exact .foldlM (fun parameters d => .bind (.buildParameter _ _ _) fun _ => .pure _) _ _
      · exact .foldlM (fun responses n => .addResponse _ _ _ _ _ _) _ _
    · exact .pure _

theorem buildMethods (context : Context) (operations : List Operation) :
    Composed Asides fun r => Resolution.buildMethods context r operations :=
  .foldlM (fun _ o => .bind (.buildMethod context o) fun _ => .pure _) _ _

theorem resolveDefinitions (context : Context) (names : List String) :
    Composed Steady fun r => Resolution.resolveDefinitions context r names :=
  .forM (fun _ => .bind (.resolveDefinition context _ _ _) fun _ => .pure _) _

end Composed

end ApiModel.Resolution
