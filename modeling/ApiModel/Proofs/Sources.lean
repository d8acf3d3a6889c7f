import ApiModel.Proofs.Evaluation

/-! # What documents are read from

Each part of a document stands in the value that the document is read from: a definition, a path
and a shared parameter at its name, an operation at its method, and a schema in a schema at the
keyword that holds it. Path items and responses do so where they are written as records.
-/

namespace ApiModel

open Json

namespace Schema

/-- What a member leaves as it is, whose name is not that of the field. -/
structure Untouched (key : String) (s t : Schema) : Prop where
  items : key ≠ "items" → t.items = s.items
  additional : key ≠ "additionalProperties" → t.additional = s.additional
  properties : key ≠ "properties" → t.properties = s.properties
  allOf : key ≠ "allOf" → t.allOf = s.allOf
  enumeration : key ≠ "enum" → t.enumeration = s.enumeration

theorem readKeyword_keeps (k : Keywords) (key : String) (value : Json) :
    Gives (k.readMember key value) fun k' => key ≠ "enum" → k'.enumeration = k.enumeration := by
  unfold Keywords.readMember
  split
  case h_6 => exact .keep fun _ h => absurd rfl h
  case h_12 =>
    split_ifs
    · exact .ok fun _ => rfl
    · exact .keep fun _ _ => rfl
  all_goals exact .keep fun _ _ => rfl

theorem readMember_keeps (s : Schema) (key : String) (value : Json) :
    Gives (readMember s key value) (Untouched key s) := by
  unfold readMember
  split
  · exact .keep fun _ => ⟨fun h => absurd rfl h, fun _ => rfl, fun _ => rfl, fun _ => rfl,
      fun _ => rfl⟩
  · exact .ok ⟨fun _ => rfl, fun h => absurd rfl h, fun _ => rfl, fun _ => rfl, fun _ => rfl⟩
  · exact .keep fun _ => ⟨fun _ => rfl, fun _ => rfl, fun h => absurd rfl h, fun _ => rfl,
      fun _ => rfl⟩
  · exact .keep fun _ => ⟨fun _ => rfl, fun _ => rfl, fun _ => rfl, fun h => absurd rfl h,
      fun _ => rfl⟩
  · exact .map ((readKeyword_keeps _ key value).mono fun _ hk =>
      ⟨fun _ => rfl, fun _ => rfl, fun _ => rfl, fun _ => rfl, hk⟩)

theorem readMembers_eq_foldlM (s : Schema) (members : List (String × Json)) :
    readMembers s members = members.foldlM (fun s m => readMember s m.1 m.2) s := by
  induction members generalizing s with
  | nil => rw [readMembers, List.foldlM_nil]; rfl
  | cons m rest ih =>
    rw [readMembers, List.foldlM_cons]
    cases readMember s m.1 m.2 with
    | error e => rfl
    | ok t => exact ih t

theorem readItems_eq : readItems = readOptional read := by
  funext value
  cases value <;> simp [readItems, readOptional]

theorem readAll_eq_mapM (items : List Json) : readAll items = items.mapM read := by
  induction items with
  | nil => rw [readAll, List.mapM_nil]; rfl
  | cons item rest ih =>
    rw [readAll, List.mapM_cons, ih]
    cases read item with
    | error e => rfl
    | ok s => cases rest.mapM read <;> rfl

theorem readParts_eq : readParts = readList read := by
  funext value
  cases value <;> simp [readParts, readList, readAll_eq_mapM]

theorem readNamed_eq_mapM (members : List (String × Json)) :
    readNamed members = members.mapM fun m => (read m.2).map fun s => (m.1, s) := by
  induction members with
  | nil => rw [readNamed, List.mapM_nil]; rfl
  | cons m rest ih =>
    rw [readNamed, List.mapM_cons, ih]
    cases read m.2 with
    | error e => rfl
    | ok s => cases rest.mapM fun m => (read m.2).map fun s => (m.1, s) <;> rfl

theorem readProperties_eq : readProperties = readRecord read := by
  funext value
  cases value <;> simp [readProperties, readRecord, readNamed_eq_mapM]

variable {node : Json} {s t : Schema}

theorem read_eq_readPart : read = readPart "SchemaNode" readMember {} := by
  funext value
  cases value <;> simp [read, readPart, readMembers_eq_foldlM]

theorem exists_member (key : String) {β : Type} {g : Schema → β} {Q : Json → β → Prop}
    (hother : ∀ s other t, other ≠ key → Untouched other s t → g t = g s)
    (hkey : ∀ s value, Gives (readMember s key value) fun t => Q value (g t))
    (hv : node.NamesOnce) (hr : read node = .ok s) (hs : g s ≠ g {}) :
    ∃ value, node.child? key = some value ∧ value.NamesOnce ∧ Q value (g s) := by
  rw [read_eq_readPart] at hr
  exact exists_child key (fun s m hm => (readMember_keeps s m.1 m.2).mono fun t ht =>
    hother s m.1 t hm ht) hkey hv hr hs

theorem readAt_items (hv : node.NamesOnce) (hr : read node = .ok s) (hs : s.items = some t) :
    node.ReadAt ["items"] read t := by
  obtain ⟨value, hvalue, hn, hq⟩ := exists_member "items" (g := (·.items))
    (Q := fun value items => readOptional read value = .ok items) (fun _ _ _ h ht => ht.items h)
    (fun _ _ => by
      rw [← readItems_eq]
      simp only [readMember]
      exact .set fun _ => rfl) hv hr (by simp [hs])
  exact .below hvalue (readAt_nil hn (read_of_readOptional hq hs))

theorem readAt_additional (hv : node.NamesOnce) (hr : read node = .ok s)
    (hs : s.additional = some (.schema t)) : node.ReadAt ["additionalProperties"] read t := by
  obtain ⟨value, hvalue, hn, hq⟩ := exists_member "additionalProperties" (g := (·.additional))
    (Q := fun value additional => readAdditional value = additional)
    (fun _ _ _ h ht => ht.additional h) (fun _ _ => by
      simp only [readMember]
      exact .ok rfl) hv hr (by simp [hs])
  refine .below hvalue (readAt_nil hn ?_)
  rw [hs] at hq
  unfold readAdditional at hq
  split at hq
  · cases hq
  · cases hq
  · split at hq
    · cases hq
      assumption
    · cases hq

theorem readAt_properties (hv : node.NamesOnce) (hr : read node = .ok s) {name : String}
    (hs : (name, t) ∈ s.properties) : node.ReadAt ["properties", name] read t := by
  obtain ⟨value, hvalue, hn, hq⟩ := exists_member "properties" (g := (·.properties))
    (Q := fun value properties => readRecord read value = .ok properties)
    (fun _ _ _ h ht => ht.properties h) (fun _ _ => by
      rw [← readProperties_eq]
      simp only [readMember]
      exact .set fun _ => rfl) hv hr (List.ne_nil_of_mem hs)
  exact .below hvalue (readAt_member hn hq hs)

theorem readAt_allOf (hv : node.NamesOnce) (hr : read node = .ok s) {i : Nat}
    (hs : (t, i) ∈ s.allOf.zipIdx) : node.ReadAt ["allOf", toString i] read t := by
  obtain ⟨value, hvalue, hn, hq⟩ := exists_member "allOf" (g := (·.allOf))
    (Q := fun value parts => readList read value = .ok parts) (fun _ _ _ h ht => ht.allOf h)
    (fun _ _ => by
      rw [← readParts_eq]
      simp only [readMember]
      exact .set fun _ => rfl) hv hr
    (List.ne_nil_of_mem (List.fst_mem_of_mem_zipIdx hs))
  exact .below hvalue (readAt_item hn hq hs)

theorem enum_of_read (hv : node.NamesOnce) (hr : read node = .ok s) {listed : List Json}
    (hs : s.enumeration = some listed) : node.child? "enum" = some (.arr listed) := by
  obtain ⟨value, hvalue, -, hq⟩ := exists_member "enum" (g := (·.enumeration))
    (Q := fun value enumeration => readOptional (readList .ok) value = .ok enumeration)
    (fun _ _ _ h ht => ht.enumeration h) (fun _ _ => by
      unfold readMember Keywords.readMember
      exact .map (.set fun _ => rfl)) hv hr (by simp [hs])
  rw [hvalue, eq_arr_of_readList (read_of_readOptional hq hs)]

end Schema

namespace ParameterNode

variable {node : Json} {p : ParameterNode} {s : Schema}

structure Untouched (key : String) (p q : ParameterNode) : Prop where
  reference : key ≠ "$ref" → q.reference = p.reference
  schema : key ≠ "schema" → q.schema = p.schema
  items : key ≠ "items" → q.items = p.items
  enumeration : key ≠ "enum" → q.enumeration = p.enumeration

theorem Untouched.refl (key : String) (p : ParameterNode) : Untouched key p p :=
  ⟨fun _ => rfl, fun _ => rfl, fun _ => rfl, fun _ => rfl⟩

theorem readMember_keeps (p : ParameterNode) (key : String) (value : Json) :
    Gives (readMember p key value) (Untouched key p) := by
  unfold readMember
  split
  case h_1 => exact .keep fun _ => { Untouched.refl _ p with reference := fun h => absurd rfl h }
  case h_6 => exact .keep fun _ => { Untouched.refl _ p with schema := fun h => absurd rfl h }
  case h_9 => exact .keep fun _ => { Untouched.refl _ p with items := fun h => absurd rfl h }
  case h_11 => exact .keep fun _ => { Untouched.refl _ p with enumeration := fun h => absurd rfl h }
  case h_13 =>
    split_ifs
    · exact .ok { Untouched.refl key p with }
    · exact .keep fun _ => { Untouched.refl key p with }
  all_goals exact .keep fun _ => { Untouched.refl _ p with }

theorem exists_member (key : String) {β : Type} {g : ParameterNode → β} {Q : Json → β → Prop}
    (hother : ∀ p other q, other ≠ key → Untouched other p q → g q = g p)
    (hkey : ∀ p value, Gives (readMember p key value) fun q => Q value (g q))
    (hv : node.NamesOnce) (hr : read node = .ok p) (hp : g p ≠ g {}) :
    ∃ value, node.child? key = some value ∧ value.NamesOnce ∧ Q value (g p) :=
  exists_child key (fun p m hm => (readMember_keeps p m.1 m.2).mono fun q hq =>
    hother p m.1 q hm hq) hkey hv hr hp

theorem reference_of_read (hv : node.NamesOnce) (hr : read node = .ok p) {text : String}
    (hp : p.reference = some text) : node.child? "$ref" = some (.str text) := by
  obtain ⟨value, hvalue, -, hq⟩ := exists_member "$ref" (g := (·.reference))
    (Q := fun value reference => readOptional readText value = .ok reference)
    (fun _ _ _ h hq => hq.reference h) (fun _ _ => .set fun _ => rfl) hv hr (by simp [hp])
  have htext := read_of_readOptional hq hp
  cases value with
  | str text' =>
    cases htext
    exact hvalue
  | _ => cases htext

theorem readAt_schema (hv : node.NamesOnce) (hr : read node = .ok p) (hp : p.schema = some s) :
    node.ReadAt ["schema"] Schema.read s := by
  obtain ⟨value, hvalue, hn, hq⟩ := exists_member "schema" (g := (·.schema))
    (Q := fun value schema => readOptional Schema.read value = .ok schema)
    (fun _ _ _ h hq => hq.schema h) (fun _ _ => .set fun _ => rfl) hv hr (by simp [hp])
  exact .below hvalue (readAt_nil hn (read_of_readOptional hq hp))

theorem readAt_items (hv : node.NamesOnce) (hr : read node = .ok p) (hp : p.items = some s) :
    node.ReadAt ["items"] Schema.read s := by
  obtain ⟨value, hvalue, hn, hq⟩ := exists_member "items" (g := (·.items))
    (Q := fun value items => readOptional Schema.read value = .ok items)
    (fun _ _ _ h hq => hq.items h) (fun _ _ => .set fun _ => rfl) hv hr (by simp [hp])
  exact .below hvalue (readAt_nil hn (read_of_readOptional hq hp))

theorem enum_of_read (hv : node.NamesOnce) (hr : read node = .ok p) {listed : List Json}
    (hp : p.enumeration = some listed) : node.child? "enum" = some (.arr listed) := by
  obtain ⟨value, hvalue, -, hq⟩ := exists_member "enum" (g := (·.enumeration))
    (Q := fun value enumeration => readOptional (readList .ok) value = .ok enumeration)
    (fun _ _ _ h hq => hq.enumeration h) (fun _ _ => .set fun _ => rfl) hv hr (by simp [hp])
  rw [hvalue, eq_arr_of_readList (read_of_readOptional hq hp)]

end ParameterNode

theorem ResponseNode.readAt_schema {members : List (String × Json)} {r : ResponseNode} {s : Schema}
    (hv : (Json.obj members).NamesOnce) (hr : read (.obj members) = .ok r)
    (hs : r.schema = some s) : (Json.obj members).ReadAt ["schema"] Schema.read s := by
  have hr : readPart "ResponseNode" readMember {} (.obj members) = .ok r := hr
  obtain ⟨value, hvalue, hn, hq⟩ := exists_child "schema" (g := (·.schema))
    (Q := fun value schema => readOptional Schema.read value = .ok schema)
    (fun r m hm => by
      unfold readMember
      split
      · exact .keep fun _ => rfl
      · rename_i hkey
        exact absurd hkey hm
      · exact .ok rfl)
    (fun _ _ => .set fun _ => rfl) hv hr (by simp [hs])
  exact .below hvalue (readAt_nil hn (read_of_readOptional hq hs))

namespace OperationNode

variable {node : Json} {o : OperationNode}

theorem readAt_parameters (hv : node.NamesOnce) (hr : read node = .ok o) {p : ParameterNode}
    {i : Nat} (hp : (p, i) ∈ o.parameters.zipIdx) :
    node.ReadAt ["parameters", toString i] ParameterNode.read p := by
  obtain ⟨value, hvalue, hn, hq⟩ := exists_child "parameters" (g := (·.parameters))
    (Q := fun value parameters => readList ParameterNode.read value = .ok parameters)
    (fun o m hm => by
      unfold readMember
      split
      case h_7 hkey => exact absurd hkey hm
      case h_10 => split_ifs <;> exact .ok rfl
      all_goals exact .keep fun _ => rfl)
    (fun _ _ => .set fun _ => rfl) hv hr (List.ne_nil_of_mem (List.fst_mem_of_mem_zipIdx hp))
  exact .below hvalue (readAt_item hn hq hp)

theorem readAt_responses (hv : node.NamesOnce) (hr : read node = .ok o) {status : String}
    {r : ResponseNode} (hs : (status, r) ∈ o.responses) :
    node.ReadAt ["responses", status] ResponseNode.read r := by
  obtain ⟨value, hvalue, hn, hq⟩ := exists_child "responses" (g := (·.responses))
    (Q := fun value responses => readRecord ResponseNode.read value = .ok responses)
    (fun o m hm => by
      unfold readMember
      split
      case h_8 hkey => exact absurd hkey hm
      case h_10 => split_ifs <;> exact .ok rfl
      all_goals exact .keep fun _ => rfl)
    (fun _ _ => .set fun _ => rfl) hv hr (List.ne_nil_of_mem hs)
  exact .below hvalue (readAt_member hn hq hs)

end OperationNode

namespace PathItem

variable {members : List (String × Json)} {item : PathItem}

theorem readAt_operation (hv : (Json.obj members).NamesOnce) (hr : read (.obj members) = .ok item)
    {m : HttpMethod} {o : OperationNode} (ho : item.operation? m = some o) :
    (Json.obj members).ReadAt [m.name] OperationNode.read o := by
  have hr : readPart "PathItem" readMember {} (.obj members) = .ok item := hr
  obtain ⟨value, hvalue, hn, hq⟩ := exists_child m.name (g := fun item => item.operation? m)
    (Q := fun value operation => readOptional OperationNode.read value = .ok operation)
    (fun item member hm => by
      unfold readMember
      split
      · rename_i method hmethod
        have hname : method.name = member.1 := by simpa using List.find?_some hmethod
        refine .keep fun _ => if_neg ?_
        rintro rfl
        exact hm hname.symm
      · split_ifs
        · exact .keep fun _ => rfl
        · exact .ok rfl)
    (fun item value => by
      unfold readMember
      rw [Document.find?_method]
      exact .set fun _ => if_pos rfl) hv hr (by simp [ho])
  exact .below hvalue (readAt_nil hn (read_of_readOptional hq ho))

theorem readAt_parameters (hv : (Json.obj members).NamesOnce) (hr : read (.obj members) = .ok item)
    {p : ParameterNode} {i : Nat} (hp : (p, i) ∈ item.parameters.zipIdx) :
    (Json.obj members).ReadAt ["parameters", toString i] ParameterNode.read p := by
  have hr : readPart "PathItem" readMember {} (.obj members) = .ok item := hr
  obtain ⟨value, hvalue, hn, hq⟩ := exists_child "parameters" (g := (·.parameters))
    (Q := fun value parameters => readList ParameterNode.read value = .ok parameters)
    (fun item member hm => by
      unfold readMember
      split
      · exact .keep fun _ => rfl
      · rw [if_neg hm]
        exact .ok rfl)
    (fun item value => .set fun _ => rfl) hv hr
    (List.ne_nil_of_mem (List.fst_mem_of_mem_zipIdx hp))
  exact .below hvalue (readAt_item hn hq hp)

end PathItem

theorem Fields.eraseSwap_subperm {α : Type} (fields : List (String × α)) (key : String) :
    List.Subperm (eraseSwap fields key) fields := by
  induction fields with
  | nil => exact .refl _
  | cons p rest ih =>
    obtain ⟨k, v⟩ := p
    unfold eraseSwap
    split
    · split
      · exact List.nil_subperm
      · rename_i last hlast
        have hrest : rest.dropLast ++ [last] = rest := List.dropLast_append_getLast? last hlast
        have hperm : (last :: rest.dropLast).Perm rest :=
          (List.perm_append_singleton last _).symm.trans (.of_eq hrest)
        exact hperm.subperm.trans (List.sublist_cons_self _ _).subperm
    · exact (List.subperm_cons _).mpr ih

namespace Document

/-- What a document has been read from stands where its pointers say. -/
structure ReadFrom (root : Json) (d : Document) : Prop where
  definitions : ∀ {name s}, (name, s) ∈ d.definitions →
    root.ReadAt ["definitions", name] Schema.read s
  paths : ∀ {path item}, (path, item) ∈ d.paths → root.ReadAt ["paths", path] PathItem.read item
  parameters : ∀ {name p}, (name, p) ∈ d.parameters →
    root.ReadAt ["parameters", name] ParameterNode.read p

variable {members : List (String × Json)} {d : Document}

theorem nodup_frame (h : Once members) (version : String) :
    (Fields.keys (frame version members)).Nodup := by
  have hset := Fields.nodup_keys_set h.nodup "swagger" (Json.str version)
  obtain ⟨fields, hperm, hsub⟩ := Fields.eraseSwap_subperm
    (Fields.set members "swagger" (Json.str version)) "definitions"
  exact (hperm.map Prod.fst).nodup_iff.mp ((hsub.map Prod.fst).nodup hset)

theorem get?_of_frame (h : Once members) {version key : String} {value : Json}
    (hk : key ≠ "swagger") (hv : Fields.get? (frame version members) key = some value) :
    Fields.get? members key = some value := by
  rcases Fields.mem_set (Fields.mem_of_mem_eraseSwap (Fields.mem_of_get? hv)) with hm | hm
  · exact Fields.get?_of_mem h.nodup hm
  · cases hm
    exact absurd rfl hk

theorem definitions_addDefinition (d : Document) (name : String) (value : Json) :
    (d.addDefinition name value).paths = d.paths ∧
      (d.addDefinition name value).parameters = d.parameters ∧
      ∀ p ∈ (d.addDefinition name value).definitions,
        p ∈ d.definitions ∨ p.1 = name ∧ Schema.read value = .ok p.2 := by
  unfold addDefinition
  split
  · rename_i s hs
    refine ⟨rfl, rfl, fun p hp => (List.mem_append.mp hp).imp_right fun hp => ?_⟩
    cases List.mem_singleton.mp hp
    exact ⟨rfl, hs⟩
  · exact ⟨rfl, rfl, fun p hp => .inl hp⟩

theorem addDefinitions_from (members : List (String × Json)) (d : Document) :
    (members.foldl (fun d m => d.addDefinition m.1 m.2) d).paths = d.paths ∧
      (members.foldl (fun d m => d.addDefinition m.1 m.2) d).parameters = d.parameters ∧
      ∀ p ∈ (members.foldl (fun d m => d.addDefinition m.1 m.2) d).definitions,
        p ∈ d.definitions ∨ ∃ value, (p.1, value) ∈ members ∧ Schema.read value = .ok p.2 := by
  induction members generalizing d with
  | nil => exact ⟨rfl, rfl, fun p hp => .inl hp⟩
  | cons m rest ih =>
    obtain ⟨hpaths, hparameters, hfrom⟩ := ih (d.addDefinition m.1 m.2)
    obtain ⟨hpaths', hparameters', hfrom'⟩ := definitions_addDefinition d m.1 m.2
    refine ⟨hpaths.trans hpaths', hparameters.trans hparameters', fun p hp => ?_⟩
    rcases hfrom p hp with hp | ⟨value, hm, hs⟩
    · rcases hfrom' p hp with hp | ⟨hname, hs⟩
      · exact .inl hp
      · exact .inr ⟨m.2, hname ▸ List.mem_cons_self .., hs⟩
    · exact .inr ⟨value, List.mem_cons_of_mem _ hm, hs⟩

structure Untouched (key : String) (d e : Document) : Prop where
  definitions : e.definitions = d.definitions
  paths : key ≠ "paths" → e.paths = d.paths
  parameters : key ≠ "parameters" → e.parameters = d.parameters

theorem readMember_keeps (d : Document) (key : String) (value : Json) :
    Gives (readMember d key value) (Untouched key d) := by
  unfold readMember
  split
  case h_8 => exact .keep fun _ => ⟨rfl, fun h => absurd rfl h, fun _ => rfl⟩
  case h_9 => exact .keep fun _ => ⟨rfl, fun _ => rfl, fun h => absurd rfl h⟩
  case h_10 => split_ifs <;> exact .ok ⟨rfl, fun _ => rfl, fun _ => rfl⟩
  all_goals exact .keep fun _ => ⟨rfl, fun _ => rfl, fun _ => rfl⟩

theorem readFrame_gives (h : Once members) (version : String) :
    Gives ((frame version members).foldlM (fun d m => readMember d m.1 m.2) ({} : Document))
      (ReadFrom (.obj members)) := by
  have hn := nodup_frame h version
  have hdefinitions : Gives ((frame version members).foldlM
      (fun d m => readMember d m.1 m.2) ({} : Document)) fun d => d.definitions = [] :=
    .foldlM rfl fun m _ d hd => (readMember_keeps d m.1 m.2).mono fun e he =>
      he.definitions.trans hd
  have hpaths := Gives.field "paths" (g := Document.paths)
    (Q := fun value paths => readRecord PathItem.read value = .ok paths)
    (fun d m hm => (readMember_keeps d m.1 m.2).mono fun e he => he.paths hm)
    (fun _ _ => .set fun _ => rfl) hn {}
  have hparameters := Gives.field "parameters" (g := Document.parameters)
    (Q := fun value parameters => readRecord ParameterNode.read value = .ok parameters)
    (fun d m hm => (readMember_keeps d m.1 m.2).mono fun e he => he.parameters hm)
    (fun _ _ => .set fun _ => rfl) hn {}
  intro d hd
  refine ⟨fun hm => ?_, fun hm => ?_, fun hm => ?_⟩
  · rw [hdefinitions d hd] at hm
    cases hm
  · rcases hpaths d hd with hnil | ⟨value, hvalue, hq⟩
    · exact absurd hnil (List.ne_nil_of_mem hm)
    · have hchild := get?_of_frame h (by decide) hvalue
      exact .below hchild (readAt_member (h.namesOnce.child hchild) hq hm)
  · rcases hparameters d hd with hnil | ⟨value, hvalue, hq⟩
    · exact absurd hnil (List.ne_nil_of_mem hm)
    · have hchild := get?_of_frame h (by decide) hvalue
      exact .below hchild (readAt_member (h.namesOnce.child hchild) hq hm)

theorem child_of_definitionsOf (h : Once members) {definitions : List (String × Json)}
    (hd : definitionsOf (Fields.get? members "definitions") = .ok definitions)
    (hne : definitions ≠ []) :
    (Json.obj members).child? "definitions" = some (.obj definitions) ∧
      (Fields.keys definitions).Nodup := by
  cases hvalue : Fields.get? members "definitions" with
  | none =>
    rw [hvalue] at hd
    cases hd
    exact absurd rfl hne
  | some value =>
    rw [hvalue] at hd
    cases value with
    | null =>
      cases hd
      exact absurd rfl hne
    | obj found =>
      cases hd
      exact ⟨hvalue, (h.values _ (Fields.mem_of_get? hvalue)).once.nodup⟩
    | _ => cases hd

/-- A document that has been read from a value stands in it. -/
theorem readFrom_of_read {root : Json} (hv : root.NamesOnce) :
    Gives (read root) (ReadFrom root) := by
  cases root with
  | obj members =>
    have h := hv.once
    unfold read
    refine .bind (.trivial _) fun version _ => ?_
    refine .bind (.mapError (readFrame_gives h version)) fun d hd => ?_
    refine .bind (fun definitions hdefinitions => hdefinitions) fun definitions hdefinitions => ?_
    obtain ⟨hpaths, hparameters, hfrom⟩ := addDefinitions_from definitions d
    refine .ok ⟨fun hm => ?_, fun hm => hd.paths (hpaths ▸ hm),
      fun hm => hd.parameters (hparameters ▸ hm)⟩
    rcases hfrom _ hm with hm | ⟨value, hvalue, hs⟩
    · exact hd.definitions hm
    · obtain ⟨hchild, hn⟩ := child_of_definitionsOf h hdefinitions (List.ne_nil_of_mem hvalue)
      have hmember : (Json.obj definitions).child? _ = some value := Fields.get?_of_mem hn hvalue
      exact .below hchild (.below hmember
        (readAt_nil ((h.namesOnce.child hchild).child hmember) hs))
  | _ =>
    rintro d hd
    cases hd

end Document

end ApiModel
