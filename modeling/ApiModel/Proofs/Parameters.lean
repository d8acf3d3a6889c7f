import ApiModel.Proofs.Operations

/-! # Parameters are merged

The parameters of a path and then those of its operation are merged by name and location. A merged
parameter stands where its name and location occur first, and it is the one that declares them
last, so what an operation declares overrides its path and what it does not declare is left alone.
-/

namespace ApiModel

open Resolution

namespace Resolution

variable {document : Document} {declared merged : List Declared} {d e : Declared}

/-- What a parameter that is declared leads to: itself, a shared parameter, or a fault. A shared
parameter is taken to stand where the reference to it does. -/
inductive Declared.LeadsTo (document : Document) (d : Declared) :
    Except SchemaFault Declared → Prop where
  | itself (h : d.node.reference = none) : LeadsTo document d (.ok d)
  | shared {text name : String} {node : ParameterNode} (h : d.node.reference = some text)
      (hp : Reference.parse? text = some ⟨.parameters, name⟩)
      (hs : Fields.get? document.parameters name = some node) (hn : node.reference = none) :
      LeadsTo document d (.ok ⟨node, d.pointer⟩)
  | again {text name : String} {node : ParameterNode} (h : d.node.reference = some text)
      (hp : Reference.parse? text = some ⟨.parameters, name⟩)
      (hs : Fields.get? document.parameters name = some node) (hn : node.reference ≠ none) :
      LeadsTo document d (.error (.sharedParameterIsReference name))
  | missing {text name : String} (h : d.node.reference = some text)
      (hp : Reference.parse? text = some ⟨.parameters, name⟩)
      (hs : Fields.get? document.parameters name = none) :
      LeadsTo document d (.error (.undefinedParameter text d.pointer))
  | elsewhere {text : String} (h : d.node.reference = some text)
      (hp : ∀ name, Reference.parse? text ≠ some ⟨.parameters, name⟩) :
      LeadsTo document d (.error (.unsupportedParameterReference text d.pointer))

theorem dereference_eq_iff {result : Except SchemaFault Declared} :
    dereference document d = result ↔ d.LeadsTo document result := by
  constructor
  · rintro rfl
    unfold dereference
    cases h : d.node.reference with
    | none => exact .itself h
    | some text =>
      dsimp only
      split
      · rename_i name hp
        cases hs : Fields.get? document.parameters name with
        | none => exact .missing h hp hs
        | some node =>
          dsimp only
          cases hn : node.reference with
          | none => exact .shared h hp hs hn
          | some other => exact .again h hp hs (by simp [hn])
      · rename_i hp
        exact .elsewhere h hp
  · intro h
    cases h with
    | itself h => simp [dereference, h]
    | shared h hp hs hn => simp [dereference, h, hp, hs, hn]
    | again h hp hs hn => simp [dereference, h, hp, hs, hn]
    | missing h hp hs => simp [dereference, h, hp, hs]
    | elsewhere h hp => simp only [dereference, h]

/-- Merging only adds one defect for each reference that leads to no parameter. -/
theorem exists_faults (document : Document) (owner : String) (declared : List Declared)
    (s : State) : ∃ faults,
      List.Forall₂ (fun d fault => d.LeadsTo document (.error fault))
        (declared.filter fun d => !(dereference document d).isOk) faults ∧
      (mergeParameters document owner declared s).2 =
        { s with defects := s.defects ++ faults.map (.schema owner) } := by
  unfold mergeParameters
  generalize ([] : List Declared) = merged
  induction declared generalizing merged s with
  | nil => exact ⟨[], .nil, by rw [List.map_nil, List.append_nil]; rfl⟩
  | cons d rest ih =>
    rw [List.foldlM_cons, step_bind]
    cases hd : dereference document d with
    | ok e =>
      obtain ⟨faults, hfaults, hs⟩ := ih s (putParameter merged e)
      refine ⟨faults, ?_, hs⟩
      rwa [List.filter_cons_of_neg (by simp [hd, Except.isOk, Except.toBool])]
    | error fault =>
      obtain ⟨faults, hfaults, hs⟩ := ih (report (.schema owner fault) s).2 merged
      refine ⟨fault :: faults, ?_, hs.trans ?_⟩
      · rw [List.filter_cons_of_pos (by simp [hd, Except.isOk, Except.toBool])]
        exact .cons (dereference_eq_iff.mp hd) hfaults
      · rw [List.map_cons, List.append_cons]
        rfl

def lastOf (declared : List Declared) (key : Option String × Option String) : Option Declared :=
  declared.reverse.find? (·.key = key)

theorem lastOf_append (before after : List Declared) (key : Option String × Option String) :
    lastOf (before ++ after) key = (lastOf after key).or (lastOf before key) :=
  Keyed.last?_append before after key

theorem mem_foldl_putParameter :
    e ∈ declared.foldl putParameter [] ↔ lastOf declared e.key = some e := by
  rw [putParameter_eq]
  exact Keyed.mem_foldl_put

theorem map_node_listedAt (pointer : Pointer) (nodes : List ParameterNode) :
    (listedAt pointer nodes).map (·.node) = nodes := by
  rw [listedAt, List.map_map]
  exact List.zipIdx_map_fst 0 nodes

theorem map_pointer_listedAt (pointer : Pointer) (nodes : List ParameterNode) :
    (listedAt pointer nodes).map (·.pointer) =
      (List.range nodes.length).map (pointer.child "parameters").item := by
  rw [listedAt, List.map_map, List.range_eq_range', ← List.zipIdx_map_snd 0 nodes, List.map_map]
  rfl

theorem Operation.declared_spec (o : Operation) :
    o.declared.map (·.node) = o.item.parameters ++ o.node.parameters ∧
      o.declared.map (·.pointer) =
        (List.range o.item.parameters.length).map
          ((Pointer.path o.path).child "parameters").item ++
        (List.range o.node.parameters.length).map (o.pointer.child "parameters").item := by
  simp only [declared, List.map_append, map_node_listedAt, map_pointer_listedAt, and_self]

/-- The parameters that an operation itself declares, shared ones in the place of references. -/
def Operation.own (document : Document) (o : Operation) : List Declared :=
  (listedAt o.pointer o.node.parameters).filterMap fun d => (dereference document d).toOption

def Operation.inherited (document : Document) (o : Operation) : List Declared :=
  (listedAt (Pointer.path o.path) o.item.parameters).filterMap fun d =>
    (dereference document d).toOption

theorem Operation.dereferenced_eq (document : Document) (o : Operation) :
    o.dereferenced document = o.inherited document ++ o.own document :=
  List.filterMap_append

theorem foldl_putParameter_eq (declared : List Declared) :
    declared.foldl putParameter [] =
      (declared.map Declared.key).eraseDups.filterMap (lastOf declared) := by
  rw [putParameter_eq]
  exact Keyed.foldl_put_eq Declared.key declared

end Resolution

/-- Declared for an operation are the parameters of its path and then its own. Merging leaves out
what refers to no parameter, with a defect for each such reference. Of the rest it keeps one
parameter for each name and location, in the place where these are declared first and as they are
declared last: by the operation if it declares them and by the path if not. -/
theorem parameters_merged (document : Document) (o : Operation) (owner : String) (s : State) :
    (o.declared.map (·.node) = o.item.parameters ++ o.node.parameters ∧
      o.declared.map (·.pointer) =
        (List.range o.item.parameters.length).map
          ((Pointer.path o.path).child "parameters").item ++
        (List.range o.node.parameters.length).map (o.pointer.child "parameters").item) ∧
    (∀ d result, dereference document d = result ↔ d.LeadsTo document result) ∧
    ∃ merged faults,
      mergeParameters document owner o.declared s =
        (merged, { s with defects := s.defects ++ faults.map (.schema owner) }) ∧
      List.Forall₂ (fun d fault => d.LeadsTo document (.error fault))
        (o.declared.filter fun d => !(dereference document d).isOk) faults ∧
      merged = ((o.dereferenced document).map Declared.key).eraseDups.filterMap
        (lastOf (o.dereferenced document)) ∧
      merged.map Declared.key = ((o.dereferenced document).map Declared.key).eraseDups ∧
      (merged.map Declared.key).Nodup ∧
      ∀ e, e ∈ merged ↔
        (lastOf (o.own document) e.key).or (lastOf (o.inherited document) e.key) = some e := by
  refine ⟨o.declared_spec, fun d result => dereference_eq_iff, ?_⟩
  obtain ⟨faults, hfaults, hs⟩ := exists_faults document owner o.declared s
  have hmerged : (mergeParameters document owner o.declared s).1 =
      (o.dereferenced document).foldl putParameter [] :=
    (mergeParameters_fst document owner o.declared s).trans (mergedParameters_eq document o)
  obtain ⟨hkeys, hnodup⟩ := keys_foldl_putParameter (o.dereferenced document)
  refine ⟨_, faults, Prod.ext hmerged hs, hfaults, ?_, hkeys, hnodup, fun e => ?_⟩
  · exact foldl_putParameter_eq _
  · rw [mem_foldl_putParameter, o.dereferenced_eq, lastOf_append]

end ApiModel
