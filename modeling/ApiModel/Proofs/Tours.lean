import ApiModel.Proofs.Regions

/-! # Methods as tours

Where nothing is wrong with an operation itself, building its method changes the state by calls of
the resolver at the sites of the operation, one after the other, and by nothing else. So what is
found on the way is right if the sites are in a region, and nothing goes wrong if that is lawful.
-/

namespace ApiModel.Resolution

variable {context : Context} {R : Site → Prop} {r : Resolver} {s t u last : State}
  {sites others : List Site}

/-- From one state to another by calls of a resolver at some sites, one after the other. -/
inductive Tour (r : Resolver) : State → List Site → State → Prop where
  | nil (s : State) : Tour r s [] s
  | cons {s t u : State} {site : Site} {sites : List Site} {type : Option ModelType}
      (hc : r site s = some (type, t)) (h : Tour r t sites u) : Tour r s (site :: sites) u

namespace Tour

theorem trans (h : Tour r s sites t) (h' : Tour r t others u) :
    Tour r s (sites ++ others) u := by
  induction h with
  | nil => exact h'
  | cons hc _ ih => exact .cons hc (ih h')

/-- A tour of a region that ends in a state without defects covers its sites. -/
theorem fits (hR : context.document.Region R)
    (h : Tour ((Scene.ofBuild context).within last) s sites t) (hsites : ∀ site ∈ sites, R site)
    (hf : Fits context R s) (hd : last.defects = []) :
    Fits context R t ∧ ∀ site ∈ sites, Covered context last site := by
  induction h with
  | nil => exact ⟨hf, List.forall_mem_nil _⟩
  | cons hc _ ih =>
    obtain ⟨hsite, hrest⟩ := List.forall_mem_cons.mp hsites
    have hw := Scene.of_within hc
    obtain ⟨hf, x, shape, -, hs, hx⟩ := fits_within hR hw hsite hf (hw.grows.clean hd)
    obtain ⟨hf, hcovered⟩ := ih hrest hf
    exact ⟨hf, List.forall_mem_cons.mpr ⟨⟨x, shape, hs, hx.mono hw.grows.catalog⟩, hcovered⟩⟩

/-- A tour of a lawful region finds no defect. -/
theorem clean (hl : Lawful context R) (hR : context.document.Region R)
    (h : Tour ((Scene.ofBuild context).within last) s sites t) (hsites : ∀ site ∈ sites, R site)
    (hf : Fits context R s) (hd : s.defects = []) (hframes : s.frames = []) : t.defects = [] := by
  induction h with
  | nil => exact hd
  | cons hc _ ih =>
    obtain ⟨hsite, hrest⟩ := List.forall_mem_cons.mp hsites
    have hw := Scene.of_within hc
    have hd := hl.clean_within hR hw hsite hf hd (.of_recent (by rw [hframes]; rfl))
    exact ih hrest (fits_within hR hw hsite hf hd).1 hd (hw.later.frames.trans hframes)

end Tour

/-- Nothing is wrong with a parameter but, maybe, with the schema of its values. -/
def Declared.Sound (grammars : Grammars) (d : Declared) : Prop :=
  ∃ name location schema pointer, d.node.name = some name ∧
    d.node.location.bind Location.ofName? = some location ∧
    valueSchema d name location = .ok (schema, pointer) ∧
    (∃ constraints, constraintsOf grammars schema.facets pointer = .ok constraints) ∧
    ∃ format, collectionFormatOf d name location = .ok format

/-- Nothing is wrong with an operation but, maybe, with its schemas. -/
structure Operation.Sound (document : Document) (grammars : Grammars) (o : Operation) : Prop where
  declared : ∀ d ∈ o.declared, ∃ e, dereference document d = .ok e
  merged : ∀ d ∈ mergedParameters document o.declared, d.Sound grammars

theorem MethodOf.sound {c : Catalog} {types : String → Option ModelType} {o : Operation}
    {m : Method} (h : MethodOf context c types o m) : o.Sound context.document context.grammars where
  declared := h.declared
  merged d hd := by
    obtain ⟨p, -, hp⟩ := exists_of_mem_forall₂ h.parameters.flip hd
    obtain ⟨schema, pointer, hv, -, hk⟩ := hp.typed
    exact ⟨_, _, schema, pointer, hp.name, hp.location, hv, ⟨_, hk⟩, _, hp.format⟩

theorem mergeParameters_snd {document : Document} {declared : List Declared}
    (h : ∀ d ∈ declared, ∃ e, dereference document d = .ok e) (owner : String) (s : State) :
    (mergeParameters document owner declared s).2 = s := by
  unfold mergeParameters
  generalize ([] : List Declared) = merged
  induction declared generalizing merged with
  | nil => rfl
  | cons d rest ih =>
    obtain ⟨⟨e, he⟩, hrest⟩ := List.forall_mem_cons.mp h
    rw [List.foldlM_cons, step_bind, he]
    exact ih hrest _

theorem buildParameter_tour {id : String} {d : Declared} (hd : d.Sound context.grammars)
    {p : Option Parameter} (h : buildParameter context r id (Naming.properCase id) d s = some (p, t)) :
    Tour r s (d.site? id).toList t := by
  obtain ⟨name, location, schema, pointer, hn, hl, hv, ⟨constraints, hk⟩, format, hf⟩ := hd
  simp only [buildParameter, hn, hl, hv] at h
  obtain ⟨type, u, hu, h⟩ := bind_eq_some.mp h
  obtain rfl : u = t := by
    cases type with
    | none =>
      cases h
      rfl
    | some type =>
      obtain ⟨_, _, hc, h⟩ := bind_eq_some.mp h
      cases hc.symm.trans (congrArg some (constraints_ok hk u))
      simp only [hf] at h
      cases h
      rfl
  rw [Declared.site?_eq_some.mpr ⟨name, location, schema, pointer, hn, hl, hv, rfl⟩]
  exact .cons hu (.nil u)

theorem buildParameters_tour {id : String} {merged : List Declared}
    (hm : ∀ d ∈ merged, d.Sound context.grammars) {parameters : List Parameter}
    (h : buildParameters context r id (Naming.properCase id) merged s = some (parameters, t)) :
    Tour r s (merged.filterMap (Declared.site? id)) t := by
  unfold buildParameters at h
  generalize ([] : List Parameter) = before at h
  induction merged generalizing before s with
  | nil =>
    cases h
    exact .nil _
  | cons d rest ih =>
    obtain ⟨hd, hrest⟩ := List.forall_mem_cons.mp hm
    rw [List.foldlM_cons] at h
    obtain ⟨_, u, hu, h⟩ := bind_eq_some.mp h
    obtain ⟨p, _, hp, hu⟩ := bind_eq_some.mp hu
    cases hu
    have hsites : (d :: rest).filterMap (Declared.site? id) =
        (d.site? id).toList ++ rest.filterMap (Declared.site? id) := by
      rw [List.filterMap_cons]
      cases d.site? id <;> rfl
    rw [hsites]
    exact (buildParameter_tour hd hp).trans (ih hrest _ h)

theorem addResponse_tour {id : String} {pointer : Pointer} {before after : Responses}
    {status : String} {node : ResponseNode} (h : addResponse r id (Naming.properCase id) pointer
      before status node s = some (after, t)) :
    match node.schema with
    | none => s = t ∧ after.inlineBodies = before.inlineBodies
    | some schema =>
      (∃ type, r ⟨schema, bodyName (Naming.properCase id) status schema before.inlineBodies,
        bodyPointer pointer status, id⟩ s = some (type, t)) ∧
      after.inlineBodies =
        if schema.reference.isNone then before.inlineBodies + 1 else before.inlineBodies := by
  have hadd : ∀ (responses : Responses) (response : Response),
      (responses.add status response).inlineBodies = responses.inlineBodies := by
    intro responses response
    unfold Responses.add
    split <;> rfl
  unfold addResponse at h
  cases hs : node.schema with
  | none =>
    simp only [hs] at h
    cases h
    exact ⟨rfl, hadd ..⟩
  | some schema =>
    simp only [hs] at h
    obtain ⟨type, u, hu, h⟩ := bind_eq_some.mp h
    have hcount : (if schema.reference.isNone then
        { before with inlineBodies := before.inlineBodies + 1 } else before).inlineBodies =
          if schema.reference.isNone then before.inlineBodies + 1 else before.inlineBodies :=
      apply_ite Responses.inlineBodies ..
    cases type with
    | none =>
      cases h
      exact ⟨⟨_, hu⟩, hcount⟩
    | some type =>
      cases h
      exact ⟨⟨_, hu⟩, (hadd ..).trans hcount⟩

theorem buildResponses_tour {id : String} {pointer : Pointer}
    {nodes : List (String × ResponseNode)} {responses : Responses}
    (h : buildResponses r id (Naming.properCase id) pointer nodes s = some (responses, t)) :
    Tour r s (bodySites id pointer 0 nodes) t := by
  unfold buildResponses at h
  rw [show (0 : Nat) = ({} : Responses).inlineBodies from rfl]
  generalize ({} : Responses) = before at h ⊢
  induction nodes generalizing before s with
  | nil =>
    cases h
    exact .nil _
  | cons n rest ih =>
    obtain ⟨status, node⟩ := n
    rw [List.foldlM_cons] at h
    obtain ⟨next, u, hu, h⟩ := bind_eq_some.mp h
    have hnext := addResponse_tour hu
    have hrest := ih next h
    unfold bodySites
    cases hs : node.schema with
    | none =>
      rw [hs] at hnext
      obtain ⟨rfl, hcount⟩ := hnext
      exact hcount ▸ hrest
    | some schema =>
      rw [hs] at hnext
      obtain ⟨⟨type, hcall⟩, hcount⟩ := hnext
      exact .cons hcall (hcount ▸ hrest)

theorem buildMethods_tour {operations : List Operation}
    (ho : ∀ o ∈ operations, o.isSelected context.settings = true ∧
      o.Sound context.document context.grammars)
    {methods : List Method} (h : buildMethods context r operations s = some (methods, t)) :
    Tour r s (context.document.sitesOf operations) t := by
  unfold buildMethods at h
  generalize ([] : List Method) = before at h
  induction operations generalizing before s with
  | nil =>
    cases h
    exact .nil _
  | cons o rest ih =>
    obtain ⟨⟨hselected, hsound⟩, hrest⟩ := List.forall_mem_cons.mp ho
    obtain ⟨id, hid, hincludes⟩ := (Option.any_eq_true _ _).mp hselected
    have he : o.isExcluded context.settings = false := by
      simp [Operation.isExcluded, hid, hincludes]
    rw [List.foldlM_cons] at h
    obtain ⟨_, u, hu, h⟩ := bind_eq_some.mp h
    obtain ⟨m, _, hm, hu⟩ := bind_eq_some.mp hu
    cases hu
    obtain ⟨parameters, v, responses, hps, hrs⟩ := buildMethod_eq_some hid he hm
    rw [mergeParameters_snd hsound.declared] at hps
    have htour := (buildParameters_tour hsound.merged hps).trans (buildResponses_tour hrs)
    have hsites : context.document.sitesOf (o :: rest) =
        o.sites context.document id ++ context.document.sitesOf rest := by
      simp only [Document.sitesOf, List.flatMap_cons, hid]
      rfl
    rw [hsites]
    exact htour.trans (ih hrest _ h)

end ApiModel.Resolution
