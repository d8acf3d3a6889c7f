import ApiModel.Proofs.Rereading

/-! # Documents are read as they are written

Reading what has been written of a document gives the document back, apart from its malformed
definitions and the order of its extensions: the last extension takes the place of the definitions,
in front of the others.
-/

namespace ApiModel

open Json

namespace ParameterNode

/-- What is written of a parameter tells what it is. -/
structure Faithful (p : ParameterNode) : Prop where
  schema : ReadsBack (readOptional Schema.read) (ofOption Schema.toJson) p.schema
  items : ReadsBack (readOptional Schema.read) (ofOption Schema.toJson) p.items
  defaultValue : p.defaultValue ≠ some .null
  extensions : AreExtensions p.extensions

theorem faithful_empty : Faithful {} := ⟨rfl, rfl, nofun, .nil⟩

theorem Faithful.readMember {p : ParameterNode} (h : p.Faithful) (key : String) (value : Json) :
    Gives (p.readMember key value) Faithful := by
  have hschema := Schema.optional_kept value
  unfold ParameterNode.readMember
  split
  case h_6 => exact .map (hschema.mono fun v hv => { h with schema := hv })
  case h_9 => exact .map (hschema.mono fun v hv => { h with items := hv })
  case h_12 =>
    exact .map ((readOptional_ne_null value).mono fun v hv => { h with defaultValue := hv })
  case h_13 =>
    split_ifs with hx
    · exact .ok { h with extensions := h.extensions.concat hx value }
    · exact .keep fun _ => { h with }
  all_goals exact .keep fun _ => { h with }

theorem readMember_extension (p : ParameterNode) {key : String} (h : isExtensionName key = true)
    (value : Json) :
    p.readMember key value = .ok { p with extensions := p.extensions ++ [(key, value)] } := by
  unfold ParameterNode.readMember
  split
  case h_13 => exact if_pos h
  all_goals exact absurd h (by decide)

theorem read_extensions {l : List (String × Json)} (h : AreExtensions l) (p : ParameterNode) :
    l.foldlM (fun p m => p.readMember m.1 m.2) p =
      .ok { p with extensions := p.extensions ++ l } :=
  h.foldlM (g := fun p l => { p with extensions := p.extensions ++ l }) (by simp) (by simp)
    (fun p m hm => p.readMember_extension hm m.2) p

theorem readMember_facet (f : Facets) : ∀ m ∈ f.members, ∀ p : ParameterNode,
    p.readMember m.1 m.2 =
      (p.facets.readMember m.1 m.2).map fun v => { p with facets := v } := by
  simp [Facets.members, ParameterNode.readMember, isExtensionName]

theorem read_facets (f : Facets) (p : ParameterNode) :
    f.members.foldlM (fun p m => p.readMember m.1 m.2) p = .ok { p with facets := f } := by
  rw [foldlM_component (g := fun f m => Facets.readMember f m.1 m.2) (p := facets)
    (s := fun p f => { p with facets := f }) (fun _ _ => rfl) (fun _ _ _ => rfl) (fun _ => rfl)
    (readMember_facet f), Facets.read_members]
  rfl

theorem Faithful.read_toJson {p : ParameterNode} (h : p.Faithful) : read p.toJson = .ok p := by
  rw [toJson, Schema.itemsJson_eq, List.append_assoc]
  refine (foldlM_append_ok (b := { p with facets := {}, extensions := [] }) ?_).trans ?_
  · simp [ParameterNode.readMember, readOptional_text, readBool, readOptional_values, h.schema,
      h.items, readOptional_value h.defaultValue]
  · exact (foldlM_append_ok (read_facets p.facets _)).trans (read_extensions h.extensions _)

theorem read_kept (value : Json) : Kept read toJson value :=
  (Gives.part faithful_empty (fun _ key value h => h.readMember key value) value).mono
    fun _ hp => hp.read_toJson

end ParameterNode

namespace ResponseNode

def Faithful (r : ResponseNode) : Prop :=
  ReadsBack (readOptional Schema.read) (ofOption Schema.toJson) r.schema

theorem faithful_empty : Faithful {} := rfl

theorem Faithful.readMember {r : ResponseNode} (h : r.Faithful) (key : String) (value : Json) :
    Gives (r.readMember key value) Faithful := by
  unfold ResponseNode.readMember
  split
  · exact .keep fun _ => h
  · exact .map (Schema.optional_kept value)
  · exact .ok h

theorem Faithful.read_toJson {r : ResponseNode} (h : r.Faithful) : read r.toJson = .ok r := by
  have h : readOptional Schema.read (ofOption Schema.toJson r.schema) = .ok r.schema := h
  rw [toJson, Schema.itemsJson_eq]
  simp [read, readPart, ResponseNode.readMember, readText, h]

/-- Also what is written as a list is read back, from a record. -/
theorem read_kept (value : Json) : Kept read toJson value := by
  refine Gives.mono (P := Faithful) ?_ fun r hr => hr.read_toJson
  unfold read
  split
  · rename_i items
    refine .bind (.trivial _) fun description _ => ?_
    refine .bind (Q := ReadsBack (readOptional Schema.read) (ofOption Schema.toJson)) ?_
      fun schema hs => ?_
    · cases items[1]? with
      | none => exact .error _
      | some item => exact Schema.optional_kept item
    · split_ifs
      · exact .ok hs
      · exact .error _
  · exact .part faithful_empty (fun _ key value h => h.readMember key value) _

end ResponseNode

namespace OperationNode

structure Faithful (o : OperationNode) : Prop where
  parameters : ReadsBack (readList ParameterNode.read)
    (fun l => .arr (l.map ParameterNode.toJson)) o.parameters
  responses : ReadsBack (readRecord ResponseNode.read)
    (fun fields => .obj (fields.map fun m => (m.1, m.2.toJson))) o.responses
  extensions : AreExtensions o.extensions

theorem faithful_empty : Faithful {} := ⟨rfl, rfl, .nil⟩

theorem Faithful.readMember {o : OperationNode} (h : o.Faithful) (key : String) (value : Json) :
    Gives (o.readMember key value) Faithful := by
  unfold OperationNode.readMember
  split
  case h_7 =>
    exact .map ((Kept.list fun part _ => ParameterNode.read_kept part).mono fun v hv =>
      { h with parameters := hv })
  case h_8 =>
    exact .map ((Kept.record fun part _ => ResponseNode.read_kept part).mono fun v hv =>
      { h with responses := hv })
  case h_10 =>
    split_ifs with hx
    · exact .ok { h with extensions := h.extensions.concat hx value }
    · exact .ok h
  all_goals exact .keep fun _ => { h with }

theorem readMember_extension (o : OperationNode) {key : String} (h : isExtensionName key = true)
    (value : Json) :
    o.readMember key value = .ok { o with extensions := o.extensions ++ [(key, value)] } := by
  unfold OperationNode.readMember
  split
  case h_10 => exact if_pos h
  all_goals exact absurd h (by decide)

theorem read_extensions {l : List (String × Json)} (h : AreExtensions l) (o : OperationNode) :
    l.foldlM (fun o m => o.readMember m.1 m.2) o =
      .ok { o with extensions := o.extensions ++ l } :=
  h.foldlM (g := fun o l => { o with extensions := o.extensions ++ l }) (by simp) (by simp)
    (fun o m hm => o.readMember_extension hm m.2) o

theorem Faithful.read_toJson {o : OperationNode} (h : o.Faithful) : read o.toJson = .ok o := by
  rw [toJson]
  refine (foldlM_append_ok (b := { o with extensions := [] }) ?_).trans
    (read_extensions h.extensions _)
  simp [OperationNode.readMember, readOptional_text, readBool, readList_strings,
    readOptional_strings, h.parameters, h.responses]

theorem read_kept (value : Json) : Kept read toJson value :=
  (Gives.part faithful_empty (fun _ key value h => h.readMember key value) value).mono
    fun _ ho => ho.read_toJson

end OperationNode

namespace PathItem

structure Faithful (item : PathItem) : Prop where
  operations : ∀ m, ReadsBack (readOptional OperationNode.read) (ofOption OperationNode.toJson)
    (item.operation? m)
  parameters : ReadsBack (readList ParameterNode.read)
    (fun l => .arr (l.map ParameterNode.toJson)) item.parameters

theorem faithful_empty : Faithful {} := ⟨fun _ => rfl, rfl⟩

theorem operation_kept (value : Json) :
    Kept (readOptional OperationNode.read) (ofOption OperationNode.toJson) value :=
  .optional (fun _ => nofun) (OperationNode.read_kept value)

theorem parameters_kept (value : Json) : Kept (readList ParameterNode.read)
    (fun l => .arr (l.map ParameterNode.toJson)) value :=
  .list fun part _ => ParameterNode.read_kept part

theorem Faithful.setOperation {item : PathItem} (h : item.Faithful) (method : HttpMethod)
    {operation : Option OperationNode}
    (ho : ReadsBack (readOptional OperationNode.read) (ofOption OperationNode.toJson) operation) :
    (item.setOperation method operation).Faithful where
  operations m := by
    unfold PathItem.setOperation
    dsimp only
    split_ifs
    · exact ho
    · exact h.operations m
  parameters := h.parameters

theorem Faithful.readMember {item : PathItem} (h : item.Faithful) (key : String) (value : Json) :
    Gives (item.readMember key value) Faithful := by
  unfold PathItem.readMember
  split
  · rename_i method _
    exact .map ((operation_kept value).mono fun _ ho => h.setOperation method ho)
  · split_ifs
    · exact .map ((parameters_kept value).mono fun l hl => { h with parameters := hl })
    · exact .ok h

theorem Faithful.read_operations {item : PathItem} (h : item.Faithful) (methods : List HttpMethod)
    (start : PathItem) :
    (methods.map fun m => (m.name, ofOption OperationNode.toJson (item.operation? m))).foldlM
        (fun item m => PathItem.readMember item m.1 m.2) start =
      .ok { start with operation? := fun m =>
        if m ∈ methods then item.operation? m else start.operation? m } := by
  induction methods generalizing start with
  | nil => simp
  | cons method rest ih =>
    have hmethod : start.readMember method.name
        (ofOption OperationNode.toJson (item.operation? method)) =
          .ok (start.setOperation method (item.operation? method)) := by
      rw [PathItem.readMember, Document.find?_method]
      dsimp only
      rw [h.operations method]
      rfl
    rw [List.map_cons, List.foldlM_cons, hmethod]
    refine (ih _).trans (congrArg Except.ok ?_)
    unfold PathItem.setOperation
    congr 1
    funext m
    by_cases hm : m = method <;> simp [hm]

theorem Faithful.read_toJson {item : PathItem} (h : item.Faithful) :
    read item.toJson = .ok item := by
  rw [toJson]
  refine (foldlM_append_ok (h.read_operations HttpMethod.all {})).trans ?_
  have hparameters : HttpMethod.all.find? (·.name == "parameters") = none := rfl
  simp [HttpMethod.mem_all, PathItem.readMember, hparameters, h.parameters]

theorem read_kept (value : Json) : Kept read toJson value := by
  refine Gives.mono (P := Faithful) ?_ fun item hi => hi.read_toJson
  unfold read
  split
  · rename_i items
    refine .bind (.foldlM (P := Faithful) faithful_empty fun method _ item h => ?_) fun item h => ?_
    · split
      · exact .map ((operation_kept _).mono fun _ ho => h.setOperation method.1 ho)
      · exact .error _
    · refine .bind (Q := ReadsBack (readList ParameterNode.read)
        (fun l => .arr (l.map ParameterNode.toJson))) ?_ fun l hl => ?_
      · cases items[7]? with
        | none => exact .ok rfl
        | some item => exact parameters_kept item
      · split_ifs
        · exact .ok { h with parameters := hl }
        · exact .error _
  · exact .part faithful_empty (fun _ key value h => h.readMember key value) _

end PathItem

namespace Fields

variable {α : Type}

def lastFirst (fields : List (String × α)) : List (String × α) :=
  fields.getLast?.toList ++ fields.dropLast

theorem lastFirst_perm (fields : List (String × α)) : (lastFirst fields).Perm fields := by
  unfold lastFirst
  cases h : fields.getLast? with
  | none =>
    rw [List.getLast?_eq_none_iff.mp h]
    exact .refl _
  | some last =>
    have hfields := List.dropLast_append_getLast? last h
    exact (List.perm_append_singleton last fields.dropLast).symm.trans (.of_eq hfields)

theorem lastFirst_of_length_le_one {fields : List (String × α)} (h : fields.length ≤ 1) :
    lastFirst fields = fields := by
  match fields, h with
  | [], _ => rfl
  | [_], _ => rfl

theorem lastFirst_cons (p : String × α) (fields : List (String × α)) :
    lastFirst (p :: fields) = fields.getLast?.toList ++ p :: fields.dropLast := by
  cases fields with
  | nil => rfl
  | cons q rest => simp [lastFirst, List.getLast?_cons_cons]

theorem eraseSwap_cons (k : String) (v : α) (rest : List (String × α)) (key : String) :
    eraseSwap ((k, v) :: rest) key =
      if k = key then lastFirst rest else (k, v) :: eraseSwap rest key := by
  rw [eraseSwap, lastFirst]
  cases hlast : rest.getLast? with
  | none =>
    rw [List.getLast?_eq_none_iff.mp hlast]
    rfl
  | some last => rfl

theorem mem_eraseSwap {fields : List (String × α)} {key : String} {p : String × α} (h : p ∈ fields)
    (hp : p.1 ≠ key) : p ∈ eraseSwap fields key := by
  induction fields with
  | nil => cases h
  | cons q rest ih =>
    obtain ⟨k, v⟩ := q
    rw [eraseSwap_cons]
    split
    · rename_i hk
      refine (lastFirst_perm rest).mem_iff.mpr ((List.mem_cons.mp h).resolve_left ?_)
      rintro rfl
      exact hp hk
    · exact List.mem_cons.mpr ((List.mem_cons.mp h).imp_right ih)

end Fields

theorem ApiInfo.read_toJson (i : ApiInfo) : read i.toJson = .ok i := by
  rw [toJson]
  simp [read, readPart, readMember, readText, readOptional_text]

namespace Document

/-- What is written of a document tells what it is, apart from its malformed definitions. -/
structure Faithful (d : Document) : Prop where
  paths : ReadsBack (readRecord PathItem.read)
    (fun fields => .obj (fields.map fun m => (m.1, m.2.toJson))) d.paths
  definitions : ∀ m ∈ d.definitions, ReadsBack Schema.read Schema.toJson m.2
  parameters : ReadsBack (readRecord ParameterNode.read)
    (fun fields => .obj (fields.map fun m => (m.1, m.2.toJson))) d.parameters
  extensions : AreExtensions d.extensions

theorem faithful_empty : Faithful {} := ⟨rfl, List.forall_mem_nil _, rfl, .nil⟩

variable {d : Document} {value : Json} {members : List (String × Json)}

theorem Faithful.readMember (h : d.Faithful) (key : String) (value : Json) :
    Gives (d.readMember key value) Faithful := by
  unfold Document.readMember
  split
  case h_8 =>
    exact .map ((Kept.record fun part _ => PathItem.read_kept part).mono fun v hv =>
      { h with paths := hv })
  case h_9 =>
    exact .map ((Kept.record fun part _ => ParameterNode.read_kept part).mono fun v hv =>
      { h with parameters := hv })
  case h_10 =>
    split_ifs with hx
    · exact .ok { h with extensions := h.extensions.concat hx value }
    · exact .ok h
  all_goals exact .keep fun _ => { h with }

theorem Faithful.addDefinition (h : d.Faithful) (name : String) (value : Json) :
    (d.addDefinition name value).Faithful := by
  unfold Document.addDefinition
  split
  · rename_i s hs
    refine { h with definitions := List.forall_mem_append.mpr ⟨h.definitions, ?_⟩ }
    rintro _ hm
    cases List.mem_singleton.mp hm
    exact Schema.read_kept value s hs
  · exact { h with }

theorem read_faithful (value : Json) : Gives (read value) Faithful := by
  unfold read
  refine .bind (.trivial _) fun version _ => ?_
  refine .bind (.mapError (.foldlM faithful_empty fun m _ d hd => hd.readMember m.1 m.2))
    fun d hd => ?_
  refine .bind (.trivial _) fun definitions _ => .ok ?_
  exact List.foldlRecOn (motive := Faithful) definitions _ hd fun d hd m _ =>
    hd.addDefinition m.1 m.2

theorem readMember_extension (d : Document) {key : String} (h : isExtensionName key = true)
    (value : Json) :
    d.readMember key value = .ok { d with extensions := d.extensions ++ [(key, value)] } := by
  unfold Document.readMember
  split
  case h_10 => exact if_pos h
  all_goals exact absurd h (by decide)

theorem read_extensions {l : List (String × Json)} (h : AreExtensions l) (d : Document) :
    l.foldlM (fun d m => d.readMember m.1 m.2) d =
      .ok { d with extensions := d.extensions ++ l } :=
  h.foldlM (g := fun d l => { d with extensions := d.extensions ++ l }) (by simp) (by simp)
    (fun d m hm => d.readMember_extension hm m.2) d

theorem versionOf_gives (value : Json) : Gives (versionOf value) (· = "2.0") := by
  have hcheck : ∀ v, Gives (versionOf.check v) (· = "2.0") := by
    intro v
    unfold versionOf.check
    split_ifs with hv
    · exact .ok hv
    · exact .error _
  unfold versionOf
  split
  · exact .error _
  · split
    · exact hcheck _
    · exact hcheck _
    · exact .error _

/-- What a member adds to a document: itself if it is an extension. The version marker is only set
by the member of its name. -/
theorem readMember_adds (d : Document) (key : String) (value : Json) :
    Gives (d.readMember key value) fun e => (key ≠ "swagger" → e.swagger = d.swagger) ∧
      ∃ added, e.extensions = d.extensions ++ added ∧ List.Sublist added [(key, value)] := by
  have hnone : ∃ added, d.extensions = d.extensions ++ added ∧
      List.Sublist added [(key, value)] :=
    ⟨[], (List.append_nil _).symm, List.nil_sublist _⟩
  unfold Document.readMember
  split
  case h_1 => exact .keep fun _ => ⟨fun h => absurd rfl h, hnone⟩
  case h_10 =>
    split_ifs
    · exact .ok ⟨fun _ => rfl, _, rfl, .refl _⟩
    · exact .ok ⟨fun _ => rfl, hnone⟩
  all_goals exact .keep fun _ => ⟨fun _ => rfl, hnone⟩

theorem readMembers_adds (l : List (String × Json)) (d : Document) :
    Gives (l.foldlM (fun d m => d.readMember m.1 m.2) d) fun e =>
      ∃ added, e.extensions = d.extensions ++ added ∧ List.Sublist added l := by
  induction l generalizing d with
  | nil => exact .ok ⟨[], (List.append_nil _).symm, .refl _⟩
  | cons m rest ih =>
    rw [List.foldlM_cons]
    refine .bind (readMember_adds d m.1 m.2) fun e he => (ih e).mono fun f hf => ?_
    obtain ⟨-, added, hadded, hm⟩ := he
    obtain ⟨others, hothers, hrest⟩ := hf
    exact ⟨added ++ others, by rw [hothers, hadded, List.append_assoc], hm.append hrest⟩

theorem swagger_of_frame (h : Once members) (version : String) :
    Gives ((frame version members).foldlM (fun d m => readMember d m.1 m.2) ({} : Document))
      (·.swagger = version) := by
  have hn := nodup_frame h version
  have hmem : ("swagger", Json.str version) ∈ frame version members :=
    Fields.mem_eraseSwap (Fields.mem_of_get? (by simp)) (show "swagger" ≠ "definitions" by decide)
  obtain ⟨before, after, hl⟩ := List.append_of_mem hmem
  have hmarker : ∀ m ∈ after, m.1 = "swagger" → m.2 = .str version := by
    rintro ⟨key, v⟩ hm rfl
    have hm := hl ▸ List.mem_append_right before (List.mem_cons_of_mem _ hm)
    exact Option.some.inj ((Fields.get?_of_mem hn hm).symm.trans (Fields.get?_of_mem hn hmem))
  rw [hl, List.foldlM_append]
  refine .bind (.trivial _) fun d _ => ?_
  rw [List.foldlM_cons]
  refine .bind (Q := (·.swagger = version)) (.ok rfl) fun d hd => .foldlM hd fun m hm d hd => ?_
  by_cases hk : m.1 = "swagger"
  · rw [hk, hmarker m hm hk]
    exact .ok rfl
  · exact (readMember_adds d m.1 m.2).mono fun e he => (he.1 hk).trans hd

structure Marked (d : Document) : Prop where
  swagger : d.swagger = "2.0"
  extensions : (Fields.keys d.extensions).Nodup

theorem Marked.addDefinition (h : d.Marked) (name : String) (value : Json) :
    (d.addDefinition name value).Marked := by
  unfold Document.addDefinition
  split <;> exact ⟨h.swagger, h.extensions⟩

theorem read_marked (hv : value.NamesOnce) : Gives (read value) Marked := by
  have hmembers := once_members value hv
  unfold read
  refine .bind (versionOf_gives value) fun version hversion => ?_
  refine .bind (.mapError (P := Marked) fun d hd => ⟨?_, ?_⟩) fun d hd => ?_
  · exact (swagger_of_frame hmembers version d hd).trans hversion
  · obtain ⟨added, hadded, hsub⟩ := readMembers_adds _ _ d hd
    rw [hadded, List.nil_append]
    exact (hsub.map Prod.fst).nodup (nodup_frame hmembers version)
  · refine .bind (.trivial _) fun definitions _ => .ok ?_
    exact List.foldlRecOn (motive := Marked) definitions _ hd fun d hd m _ =>
      hd.addDefinition m.1 m.2

theorem addDefinitions_toJson {l : List (String × Schema)}
    (h : ∀ m ∈ l, ReadsBack Schema.read Schema.toJson m.2) (d : Document) :
    (l.map fun m => (m.1, m.2.toJson)).foldl (fun d m => d.addDefinition m.1 m.2) d =
      { d with definitions := d.definitions ++ l } := by
  induction l generalizing d with
  | nil => simp
  | cons m rest ih =>
    obtain ⟨hm, hr⟩ := List.forall_mem_cons.mp h
    have hm : Schema.read m.2.toJson = .ok m.2 := hm
    rw [List.map_cons, List.foldl_cons, addDefinition, hm, ih hr]
    simp

theorem versionOf_toJson (h : AreExtensions d.extensions) (hs : d.swagger = "2.0") :
    versionOf d.toJson = .ok "2.0" := by
  have hopenApi : Fields.get? d.extensions "openapi" = none := by
    rw [← Option.not_isSome_iff_eq_none, Fields.get?_isSome_iff]
    intro hm
    obtain ⟨m, hm, hkey⟩ := List.mem_map.mp hm
    have hx := h m hm
    rw [hkey] at hx
    cases hx
  simp [versionOf, toJson, heading, Json.get?, Fields.get?_cons, hopenApi, hs, versionOf.check]

/-- The last extension comes to stand where the definitions stood. -/
theorem frame_toJson (d : Document) (definitions parameters : Json) :
    frame d.swagger (d.heading ++
        [("definitions", definitions), ("parameters", parameters)] ++ d.extensions) =
      d.heading ++ (d.extensions.getLast?.toList ++
        ("parameters", parameters) :: d.extensions.dropLast) := by
  rw [← Fields.lastFirst_cons]
  simp [frame, heading, Fields.set, Fields.eraseSwap_cons]

theorem Faithful.read_heading (h : d.Faithful) :
    d.heading.foldlM (fun d m => d.readMember m.1 m.2) ({} : Document) = .ok
      { d with definitions := [], malformed := [], parameters := [], extensions := [] } := by
  simp [heading, Document.readMember, ApiInfo.read_toJson, readText, readOptional_text,
    readList_strings, h.paths]

theorem Faithful.read_frame (h : d.Faithful) :
    (d.heading ++ (d.extensions.getLast?.toList ++
        ("parameters", .obj (d.parameters.map fun m => (m.1, m.2.toJson))) ::
          d.extensions.dropLast)).foldlM (fun d m => d.readMember m.1 m.2) ({} : Document) =
      .ok { d with
        definitions := [], malformed := [], extensions := Fields.lastFirst d.extensions } := by
  have hlast : AreExtensions d.extensions.getLast?.toList := fun m hm =>
    h.extensions m (List.mem_of_getLast? (Option.mem_toList.mp hm))
  have hrest : AreExtensions d.extensions.dropLast := fun m hm =>
    h.extensions m (List.dropLast_subset _ hm)
  refine (foldlM_append_ok h.read_heading).trans ?_
  refine (foldlM_append_ok (read_extensions hlast _)).trans ?_
  rw [List.foldlM_cons]
  have hp : ∀ e : Document, e.readMember "parameters"
      (.obj (d.parameters.map fun m => (m.1, m.2.toJson))) =
        .ok { e with parameters := d.parameters } := by
    intro e
    simp [Document.readMember, h.parameters]
  rw [hp]
  exact read_extensions hrest _

/-- The definitions stand where they have been written. -/
theorem definitionsOf_toJson (d : Document) (parameters : Json) :
    definitionsOf (Fields.get? (d.heading ++
        [("definitions", .obj (Schema.namedJson d.definitions)), ("parameters", parameters)] ++
          d.extensions) "definitions") =
      .ok (d.definitions.map fun m => (m.1, m.2.toJson)) := by
  simp [heading, Fields.get?_cons, Schema.namedJson_eq, definitionsOf]

theorem Faithful.read_toJson (h : d.Faithful) (hs : d.swagger = "2.0") : read d.toJson =
    .ok { d with malformed := [], extensions := Fields.lastFirst d.extensions } := by
  have hversion := versionOf_toJson h.extensions hs
  unfold read
  rw [hversion, ← hs, toJson]
  dsimp only [ok_bind]
  rw [frame_toJson, h.read_frame, definitionsOf_toJson]
  exact congrArg Except.ok (addDefinitions_toJson h.definitions _)

/-- What has been read from a value is read again from what is written of it: all keywords of all
parts, in the same order everywhere, but for the extensions of the document itself. Each of them
keeps its value, and the last one comes first. -/
theorem read_back {value : Json} (hv : value.NamesOnce) {d : Document} (hr : read value = .ok d)
    (hm : d.malformed = []) :
    read d.toJson = .ok { d with extensions := Fields.lastFirst d.extensions } ∧
      (∀ name, Fields.get? (Fields.lastFirst d.extensions) name = Fields.get? d.extensions name) ∧
      (d.extensions.length ≤ 1 → read d.toJson = .ok d) := by
  have hmarked := read_marked hv d hr
  have hback := (read_faithful value d hr).read_toJson hmarked.swagger
  rw [← hm] at hback
  refine ⟨hback, Fields.get?_of_perm hmarked.extensions (Fields.lastFirst_perm _), ?_⟩
  intro hlength
  rwa [Fields.lastFirst_of_length_le_one hlength] at hback

def stalls : Json :=
  .obj [
    ("swagger", .str "2.0"),
    ("x-farm", .str "North"),
    ("info", .arr [.str "Stalls", .str "1", .null]),
    ("definitions", .obj [
      ("Stall", .obj [("minimum", .num (.int 1)), ("additionalProperties", .str "any")])]),
    ("paths", .obj [
      ("/stalls", .obj [
        ("get", .obj [("responses", .obj [("200", .arr [.str "The stalls", .null])])])])])]

def stallsDocument : Document where
  swagger := "2.0"
  info := { title := "Stalls", version := "1" }
  paths := [("/stalls", ({} : PathItem).setOperation .get (some {
    responses := [("200", { description := "The stalls" })] }))]
  definitions := [("Stall", {
    facets := { minimum := some (Number.int 1).toDouble }
    additional := some (.malformed (.str "any")) })]
  extensions := [("x-farm", .str "North")]

theorem read_stalls : read stalls = .ok stallsDocument := by
  let stall : Json := .obj [("minimum", .num (.int 1)), ("additionalProperties", .str "any")]
  have hstall : Schema.read stall = .ok {
      facets := { minimum := some (Number.int 1).toDouble }
      additional := some (.malformed (.str "any")) } := by
    simp [stall, Schema.read, Schema.readMembers, Schema.readMember, Schema.readAdditional,
      Keywords.readMember, Facets.readMember, isExtensionName, readOptional, readDouble]
  have hframe : read stalls =
      .ok (addDefinition { stallsDocument with definitions := [] } "Stall" stall) := rfl
  rw [hframe, addDefinition, hstall]
  rfl

theorem namesOnce_stalls : stalls.NamesOnce := by
  simp [stalls, namesOnce_obj_iff, namesOnce_arr_iff, NamesOnce.str, NamesOnce.num, NamesOnce.null,
    Fields.keys]

theorem read_back_stalls :
    stalls.NamesOnce ∧ read stalls = .ok stallsDocument ∧ stallsDocument.malformed = [] ∧
      stallsDocument.extensions.length ≤ 1 ∧ read stallsDocument.toJson = .ok stallsDocument :=
  ⟨namesOnce_stalls, read_stalls, rfl, by decide,
    (read_back namesOnce_stalls read_stalls rfl).2.2 (by decide)⟩

def tagged : Json := .obj [("swagger", .str "2.0"), ("x-first", .null), ("x-second", .null)]

def taggedDocument : Document where
  swagger := "2.0"
  extensions := [("x-first", .null), ("x-second", .null)]

/-- The two extensions of a document change places when it is written and read again. -/
theorem extensions_change_places :
    tagged.NamesOnce ∧ read tagged = .ok taggedDocument ∧ taggedDocument.malformed = [] ∧
      ∃ d, read taggedDocument.toJson = .ok d ∧
        Fields.keys taggedDocument.extensions = ["x-first", "x-second"] ∧
        Fields.keys d.extensions = ["x-second", "x-first"] := by
  refine ⟨?_, rfl, rfl, _, rfl, rfl, rfl⟩
  simp [tagged, namesOnce_obj_iff, NamesOnce.str, NamesOnce.null, Fields.keys]

end Document

end ApiModel
