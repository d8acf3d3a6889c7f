import ApiModel.Loading
import ApiModel.Proofs.Names
import ApiModel.Proofs.Nesting

/-! # Documents name nothing twice

Records keep the names that they are read from, and the definitions that are schemas keep their
order. So no record of a document that has been read from a text has two members of one name.
-/

namespace ApiModel

def ParameterNode.all (p : Schema → Bool) (node : ParameterNode) : Bool :=
  node.asSchema.all p && node.schema.all fun s => s.all p

namespace Document

def all (p : Schema → Bool) (d : Document) : Bool :=
  (d.definitions.all fun m => m.2.all p) && (d.parameters.all fun m => m.2.all p) &&
    d.paths.all fun m => (m.2.parameters.all fun node => node.all p) &&
      m.2.operations.all fun o => (o.2.parameters.all fun node => node.all p) &&
        o.2.responses.all fun response => response.2.schema.all fun s => s.all p

/-- No record of the document has two members of one name. -/
structure NamesOnce (d : Document) : Prop where
  definitions : (Fields.keys d.definitions).Nodup
  paths : (Fields.keys d.paths).Nodup
  responses : ∀ m ∈ d.paths, ∀ o ∈ m.2.operations, (Fields.keys o.2.responses).Nodup
  properties : d.all (fun s => decide (Fields.keys s.properties).Nodup) = true

instance (d : Document) : Decidable d.NamesOnce :=
  decidable_of_iff ((Fields.keys d.definitions).Nodup ∧ (Fields.keys d.paths).Nodup ∧
      (∀ m ∈ d.paths, ∀ o ∈ m.2.operations, (Fields.keys o.2.responses).Nodup) ∧
      d.all (fun s => decide (Fields.keys s.properties).Nodup) = true)
    ⟨fun ⟨h₁, h₂, h₃, h₄⟩ => ⟨h₁, h₂, h₃, h₄⟩, fun h => ⟨h.1, h.2, h.3, h.4⟩⟩

end Document

variable {ε α β : Type} {P Q : α → Prop}

/-- What a reading gives, if it gives anything, has a property. -/
def Gives (x : Except ε α) (P : α → Prop) : Prop := ∀ a, x = .ok a → P a

namespace Gives

variable {x : Except ε α}

theorem ok {a : α} (h : P a) : Gives (.ok a : Except ε α) P := by
  rintro _ ⟨⟩
  exact h

theorem error (e : ε) : Gives (.error e) P := by
  rintro _ ⟨⟩

theorem trivial (x : Except ε α) : Gives x fun _ => True := fun _ _ => True.intro

theorem mono (h : Gives x P) (hpq : ∀ a, P a → Q a) : Gives x Q := fun a ha => hpq a (h a ha)

theorem map {P : β → Prop} {f : α → β} (h : Gives x fun a => P (f a)) : Gives (x.map f) P := by
  cases x with
  | error e => exact error e
  | ok a => exact ok (h a rfl)

theorem bind {P : β → Prop} {f : α → Except ε β} (hx : Gives x Q) (hf : ∀ a, Q a → Gives (f a) P) :
    Gives (x >>= f) P := by
  cases x with
  | error e => exact error e
  | ok a => exact hf a (hx a rfl)

theorem mapError {δ : Type} {f : ε → δ} (h : Gives x P) : Gives (x.mapError f) P := by
  cases x with
  | error e => exact error (f e)
  | ok a => exact ok (h a rfl)

theorem foldlM {P : β → Prop} {f : β → α → Except ε β} {l : List α} {b : β} (h : P b)
    (hf : ∀ a ∈ l, ∀ b, P b → Gives (f b a) P) : Gives (l.foldlM f b) P := by
  induction l generalizing b with
  | nil => exact ok h
  | cons a rest ih =>
    rw [List.foldlM_cons]
    refine bind (hf a (List.mem_cons_self ..) b h) fun c hc => ?_
    exact ih hc fun a ha => hf a (List.mem_cons_of_mem _ ha)

theorem mapM {γ : Type} {P : β → Prop} {j : α → γ} {k : β → γ} {f : α → Except ε β} {l : List α}
    (hf : ∀ a ∈ l, Gives (f a) fun b => k b = j a ∧ P b) :
    Gives (l.mapM f) fun bs => bs.map k = l.map j ∧ ∀ b ∈ bs, P b := by
  induction l with
  | nil => exact ok ⟨rfl, List.forall_mem_nil _⟩
  | cons a rest ih =>
    rw [List.mapM_cons]
    refine bind (hf a (List.mem_cons_self ..)) fun b hb => ?_
    refine bind (ih fun a ha => hf a (List.mem_cons_of_mem _ ha)) fun bs hbs => ok ⟨?_, ?_⟩
    · rw [List.map_cons, List.map_cons, hb.1, hbs.1]
    · exact List.forall_mem_cons.mpr ⟨hb.2, hbs.2⟩

end Gives

/-- Whatever is read from a value that has each member once has a property. -/
def Reads (read : Json → Except Mismatch α) (P : α → Prop) : Prop :=
  ∀ {value : Json}, value.NamesOnce → Gives (read value) P

def FieldsOnce (P : α → Prop) (fields : List (String × α)) : Prop :=
  (Fields.keys fields).Nodup ∧ ∀ m ∈ fields, P m.2

namespace Reads

open Json

variable {read : Json → Except Mismatch α}

theorem optional (h : Reads read P) : Reads (readOptional read) fun o => ∀ a ∈ o, P a := by
  intro value hv
  unfold readOptional
  split
  · exact .ok (by simp)
  · refine .map ((h hv).mono fun a ha => ?_)
    rintro _ ⟨⟩
    exact ha

theorem list (h : Reads read P) : Reads (readList read) fun l => ∀ a ∈ l, P a := by
  intro value hv
  unfold readList
  split
  · have hl := Gives.mapM (j := fun _ => ()) (k := fun _ => ()) fun item hm =>
      (h (hv.items item hm)).mono fun a ha => ⟨rfl, ha⟩
    exact hl.mono fun l hl => hl.2
  · exact .error _

theorem record (h : Reads read P) : Reads (readRecord read) (FieldsOnce P) := by
  intro value hv
  unfold readRecord
  split
  · have hl := Gives.mapM (P := fun field : String × α => P field.2) (j := Prod.fst)
      (k := Prod.fst) fun m hm =>
        Gives.map (f := fun a => (m.1, a)) ((h (hv.once.values m hm)).mono fun a ha => ⟨rfl, ha⟩)
    refine hl.mono fun fields hf => ⟨?_, hf.2⟩
    rw [Fields.keys, hf.1]
    exact hv.once.nodup
  · exact .error _

theorem part {name : String} {readMember : α → String → Json → Except Mismatch α} {empty : α}
    (h : P empty) (hm : ∀ part key, P part → Reads (readMember part key) P) :
    Reads (readPart name readMember empty) P := by
  intro value hv
  unfold readPart
  split
  · exact .foldlM h fun m hmem part hp => hm part m.1 hp (hv.once.values m hmem)
  · exact .error _

end Reads

namespace Schema

abbrev NamesOnce (s : Schema) : Prop :=
  s.all (fun s => decide (Fields.keys s.properties).Nodup) = true

structure PartsOnce (s : Schema) : Prop where
  items : ∀ i ∈ s.items, i.NamesOnce
  additional : ∀ v, s.additional = some (.schema v) → v.NamesOnce
  properties : FieldsOnce NamesOnce s.properties
  allOf : ∀ part ∈ s.allOf, part.NamesOnce

theorem namesOnce_iff {s : Schema} : s.NamesOnce ↔ s.PartsOnce := by
  obtain ⟨k, items, additional, properties, allOf⟩ := s
  have hi : optionAll (fun s => decide (Fields.keys s.properties).Nodup) items = true ↔
      ∀ i ∈ items, i.NamesOnce := by
    cases items <;> simp [optionAll]
  have ha : additionalAll (fun s => decide (Fields.keys s.properties).Nodup) additional = true ↔
      ∀ v, additional = some (.schema v) → v.NamesOnce := by
    rcases additional with _ | (_ | _) | _ | _ <;> simp [additionalAll]
  simp only [NamesOnce, all, propertiesAll_eq, listAll_eq, Bool.and_eq_true, hi, ha,
    decide_eq_true_eq, List.all_eq_true]
  constructor
  · rintro ⟨⟨⟨⟨hn, hi⟩, ha⟩, hp⟩, hl⟩
    exact ⟨hi, ha, ⟨hn, hp⟩, hl⟩
  · rintro ⟨hi, ha, ⟨hn, hp⟩, hl⟩
    exact ⟨⟨⟨⟨hn, hi⟩, ha⟩, hp⟩, hl⟩

theorem namesOnce_empty : NamesOnce {} :=
  namesOnce_iff.mpr
    { items := by simp, additional := by simp, allOf := List.forall_mem_nil _,
      properties := ⟨List.nodup_nil, List.forall_mem_nil _⟩ }

variable {s : Schema} {value : Json} {items : List Json} {members : List (String × Json)}

theorem readAll_gives (h : ∀ item ∈ items, Gives (read item) NamesOnce) :
    Gives (readAll items) fun parts => ∀ part ∈ parts, part.NamesOnce := by
  induction items with
  | nil =>
    rw [readAll]
    exact .ok (List.forall_mem_nil _)
  | cons item rest ih =>
    obtain ⟨hi, hr⟩ := List.forall_mem_cons.mp h
    rw [readAll]
    split
    · rename_i s hs
      exact .map ((ih hr).mono fun parts hp => List.forall_mem_cons.mpr ⟨hi s hs, hp⟩)
    · exact .error _

theorem readNamed_gives (h : ∀ m ∈ members, Gives (read m.2) NamesOnce) :
    Gives (readNamed members) fun properties =>
      Fields.keys properties = Fields.keys members ∧ ∀ m ∈ properties, m.2.NamesOnce := by
  induction members with
  | nil =>
    rw [readNamed]
    exact .ok ⟨rfl, List.forall_mem_nil _⟩
  | cons m rest ih =>
    obtain ⟨hm, hr⟩ := List.forall_mem_cons.mp h
    rw [readNamed]
    split
    · rename_i s hs
      refine .map ((ih hr).mono fun properties hp => ⟨?_, ?_⟩)
      · exact congrArg (m.1 :: ·) hp.1
      · exact List.forall_mem_cons.mpr ⟨hm s hs, hp.2⟩
    · exact .error _

/-- What a value is read as where a schema, a record of schemas or a list of them is expected. -/
structure ReadsOnce (value : Json) : Prop where
  schema : Gives (read value) NamesOnce
  properties : Gives (readProperties value) (FieldsOnce NamesOnce)
  parts : Gives (readParts value) fun parts => ∀ part ∈ parts, part.NamesOnce

theorem readItems_gives (h : Gives (read value) NamesOnce) :
    Gives (readItems value) fun items => ∀ i ∈ items, i.NamesOnce := by
  unfold readItems
  split
  · exact .ok (by simp)
  · refine .map (h.mono fun s hs => ?_)
    rintro _ ⟨⟩
    exact hs

theorem namesOnce_of_readAdditional (h : Gives (read value) NamesOnce)
    (hs : readAdditional value = some (.schema s)) : s.NamesOnce := by
  unfold readAdditional at hs
  split at hs
  · cases hs
  · cases hs
  · split at hs
    · rename_i t ht
      cases hs
      exact h _ ht
    · cases hs

theorem readMember_gives (hs : s.NamesOnce) (key : String) (h : ReadsOnce value) :
    Gives (readMember s key value) NamesOnce := by
  have hp := namesOnce_iff.mp hs
  unfold readMember
  split
  · exact .map ((readItems_gives h.schema).mono fun i hi =>
      namesOnce_iff.mpr { hp with items := hi })
  · exact .ok (namesOnce_iff.mpr
      { hp with additional := fun v hv => namesOnce_of_readAdditional h.schema hv })
  · exact .map (h.properties.mono fun properties hproperties =>
      namesOnce_iff.mpr { hp with properties := hproperties })
  · exact .map (h.parts.mono fun parts hparts => namesOnce_iff.mpr { hp with allOf := hparts })
  · exact .map ((Gives.trivial _).mono fun k _ => namesOnce_iff.mpr { hp with })

theorem readMembers_gives (hs : s.NamesOnce) (h : ∀ m ∈ members, ReadsOnce m.2) :
    Gives (readMembers s members) NamesOnce := by
  induction members generalizing s with
  | nil =>
    rw [readMembers]
    exact .ok hs
  | cons m rest ih =>
    obtain ⟨hm, hr⟩ := List.forall_mem_cons.mp h
    rw [readMembers]
    split
    · rename_i t ht
      exact ih (readMember_gives hs m.1 hm t ht) hr
    · exact .error _

theorem readsOnce (hv : value.NamesOnce) : ReadsOnce value := by
  induction hv with
  | @obj members hn _ ih =>
    refine ⟨?_, ?_, by simp [readParts, Gives]⟩
    · rw [read]
      exact readMembers_gives namesOnce_empty ih
    · rw [readProperties]
      refine (readNamed_gives fun m hm => (ih m hm).schema).mono fun properties hp => ⟨?_, hp.2⟩
      rw [hp.1]
      exact hn
  | @arr items _ ih =>
    refine ⟨by simp [read, Gives], by simp [readProperties, Gives], ?_⟩
    rw [readParts]
    exact readAll_gives fun item hi => (ih item hi).schema
  | _ => exact ⟨by simp [read, Gives], by simp [readProperties, Gives], by simp [readParts, Gives]⟩

theorem reads_namesOnce : Reads read NamesOnce := fun hv => (readsOnce hv).schema

end Schema

open Json

structure ParameterNode.NamesOnce (node : ParameterNode) : Prop where
  schema : ∀ s ∈ node.schema, s.NamesOnce
  items : ∀ s ∈ node.items, s.NamesOnce

def ResponseNode.NamesOnce (node : ResponseNode) : Prop := ∀ s ∈ node.schema, s.NamesOnce

structure OperationNode.NamesOnce (node : OperationNode) : Prop where
  parameters : ∀ p ∈ node.parameters, p.NamesOnce
  responses : FieldsOnce ResponseNode.NamesOnce node.responses

structure PathItem.NamesOnce (item : PathItem) : Prop where
  parameters : ∀ p ∈ item.parameters, p.NamesOnce
  operations : ∀ method, ∀ node ∈ item.operation? method, node.NamesOnce

theorem ParameterNode.NamesOnce.all {node : ParameterNode} (h : node.NamesOnce) :
    node.all (fun s => decide (Fields.keys s.properties).Nodup) = true := by
  rw [ParameterNode.all, Bool.and_eq_true, Option.all_eq_true]
  refine ⟨?_, h.schema⟩
  exact Schema.namesOnce_iff.mpr
    { items := h.items, additional := by simp [asSchema], allOf := List.forall_mem_nil _,
      properties := ⟨List.nodup_nil, List.forall_mem_nil _⟩ }

theorem ParameterNode.namesOnce_empty : NamesOnce {} := ⟨by simp, by simp⟩

theorem ParameterNode.reads_namesOnce : Reads ParameterNode.read NamesOnce := by
  intro value hv
  refine Reads.part (P := NamesOnce) namesOnce_empty (fun node key h value hv => ?_) hv
  unfold readMember
  split
  case h_6 =>
    exact .map ((Reads.optional Schema.reads_namesOnce hv).mono fun s hs => ⟨hs, h.items⟩)
  case h_9 =>
    exact .map ((Reads.optional Schema.reads_namesOnce hv).mono fun s hs => ⟨h.schema, hs⟩)
  case h_13 =>
    split_ifs
    · exact .ok ⟨h.schema, h.items⟩
    · exact .map ((Gives.trivial _).mono fun _ _ => ⟨h.schema, h.items⟩)
  all_goals exact .map ((Gives.trivial _).mono fun _ _ => ⟨h.schema, h.items⟩)

theorem ResponseNode.NamesOnce.readMember {node : ResponseNode} (h : node.NamesOnce) (key : String)
    {value : Json} (hv : value.NamesOnce) : Gives (node.readMember key value) NamesOnce := by
  unfold ResponseNode.readMember
  split
  · exact .map ((Gives.trivial _).mono fun _ _ => h)
  · exact .map (Reads.optional Schema.reads_namesOnce hv)
  · exact .ok h

theorem ResponseNode.reads_namesOnce : Reads ResponseNode.read NamesOnce := by
  intro value hv
  unfold ResponseNode.read
  split
  · rename_i items
    refine .bind (.trivial _) fun description _ => ?_
    refine .bind (Q := fun schema : Option Schema => ∀ s ∈ schema, s.NamesOnce) ?_
      fun schema hs => ?_
    · cases hi : items[1]? with
      | none => exact .error _
      | some item =>
        exact Reads.optional Schema.reads_namesOnce (hv.items item (List.mem_of_getElem? hi))
    · split_ifs
      · exact .ok hs
      · exact .error _
  · exact Reads.part (P := NamesOnce) (by rintro _ ⟨⟩)
      (fun node key h _ hv => h.readMember key hv) hv

theorem OperationNode.namesOnce_empty : NamesOnce {} :=
  ⟨List.forall_mem_nil _, List.nodup_nil, List.forall_mem_nil _⟩

theorem OperationNode.reads_namesOnce : Reads OperationNode.read NamesOnce := by
  intro value hv
  refine Reads.part (P := NamesOnce) namesOnce_empty (fun node key h value hv => ?_) hv
  unfold readMember
  split
  case h_7 =>
    exact .map ((Reads.list ParameterNode.reads_namesOnce hv).mono fun l hl => ⟨hl, h.responses⟩)
  case h_8 =>
    exact .map ((Reads.record ResponseNode.reads_namesOnce hv).mono fun l hl => ⟨h.parameters, hl⟩)
  case h_10 =>
    split_ifs
    · exact .ok ⟨h.parameters, h.responses⟩
    · exact .ok h
  all_goals exact .map ((Gives.trivial _).mono fun _ _ => ⟨h.parameters, h.responses⟩)

theorem PathItem.NamesOnce.setOperation {item : PathItem} (h : item.NamesOnce) (method : HttpMethod)
    {operation : Option OperationNode} (ho : ∀ node ∈ operation, node.NamesOnce) :
    (item.setOperation method operation).NamesOnce := by
  refine ⟨h.parameters, fun m => ?_⟩
  unfold PathItem.setOperation
  dsimp only
  split_ifs
  · exact ho
  · exact h.operations m

theorem PathItem.NamesOnce.readMember {item : PathItem} (h : item.NamesOnce) (key : String)
    {value : Json} (hv : value.NamesOnce) : Gives (item.readMember key value) NamesOnce := by
  unfold PathItem.readMember
  split
  · rename_i method _
    exact .map ((Reads.optional OperationNode.reads_namesOnce hv).mono fun _ ho =>
      h.setOperation method ho)
  · split_ifs
    · exact .map ((Reads.list ParameterNode.reads_namesOnce hv).mono fun l hl => ⟨hl, h.operations⟩)
    · exact .ok h

theorem PathItem.namesOnce_empty : NamesOnce {} := ⟨List.forall_mem_nil _, by simp⟩

theorem PathItem.reads_namesOnce : Reads PathItem.read NamesOnce := by
  intro value hv
  unfold PathItem.read
  split
  · rename_i items
    refine .bind (.foldlM (P := NamesOnce) namesOnce_empty fun method _ item h => ?_)
      fun item h => ?_
    · split
      · rename_i hi
        exact .map ((Reads.optional OperationNode.reads_namesOnce
          (hv.items _ (List.mem_of_getElem? hi))).mono fun _ ho => h.setOperation method.1 ho)
      · exact .error _
    · refine .bind (Q := fun l : List ParameterNode => ∀ p ∈ l, p.NamesOnce) ?_ fun l hl => ?_
      · cases hi : items[7]? with
        | none => exact .ok (List.forall_mem_nil _)
        | some item =>
          exact Reads.list ParameterNode.reads_namesOnce (hv.items item (List.mem_of_getElem? hi))
      · split_ifs
        · exact .ok ⟨hl, h.operations⟩
        · exact .error _
  · exact Reads.part (P := NamesOnce) namesOnce_empty
      (fun item key h _ hv => h.readMember key hv) hv

namespace Document

variable {d : Document} {value : Json} {members : List (String × Json)}

structure ReadOnce (names : List String) (d : Document) : Prop where
  definitions : (Fields.keys d.definitions).Sublist names
  schemas : ∀ m ∈ d.definitions, m.2.NamesOnce
  paths : FieldsOnce PathItem.NamesOnce d.paths
  parameters : FieldsOnce ParameterNode.NamesOnce d.parameters

theorem readOnce_empty : ReadOnce [] {} where
  definitions := List.Sublist.slnil
  schemas := List.forall_mem_nil _
  paths := ⟨List.nodup_nil, List.forall_mem_nil _⟩
  parameters := ⟨List.nodup_nil, List.forall_mem_nil _⟩

variable {names : List String}

theorem ReadOnce.readMember (h : d.ReadOnce names) (key : String) (hv : value.NamesOnce) :
    Gives (d.readMember key value) (ReadOnce names) := by
  unfold Document.readMember
  split
  case h_8 =>
    exact .map ((Reads.record PathItem.reads_namesOnce hv).mono fun l hl => { h with paths := hl })
  case h_9 =>
    exact .map ((Reads.record ParameterNode.reads_namesOnce hv).mono fun l hl =>
      { h with parameters := hl })
  case h_10 =>
    split_ifs
    · exact .ok { h with }
    · exact .ok h
  all_goals exact .map ((Gives.trivial _).mono fun _ _ => { h with })

theorem ReadOnce.addDefinition (h : d.ReadOnce names) (name : String) (hv : value.NamesOnce) :
    (d.addDefinition name value).ReadOnce (names ++ [name]) := by
  unfold Document.addDefinition
  split
  · rename_i s hs
    refine { h with definitions := ?_, schemas := fun m hm => ?_ }
    · rw [Fields.keys, List.map_append]
      exact h.definitions.append (.refl _)
    · rcases List.mem_append.mp hm with hm | hm
      · exact h.schemas m hm
      · cases List.mem_singleton.mp hm
        exact Schema.reads_namesOnce hv s hs
  · exact { h with definitions := h.definitions.trans (List.sublist_append_left _ _) }

theorem ReadOnce.addDefinitions (h : d.ReadOnce names) (hm : ∀ m ∈ members, m.2.NamesOnce) :
    (members.foldl (fun d m => d.addDefinition m.1 m.2) d).ReadOnce
      (names ++ Fields.keys members) := by
  induction members generalizing d names with
  | nil => simpa [Fields.keys] using h
  | cons m rest ih =>
    obtain ⟨hm, hr⟩ := List.forall_mem_cons.mp hm
    simpa [Fields.keys] using ih (h.addDefinition m.1 hm) hr

theorem ReadOnce.namesOnce (h : d.ReadOnce names) (hn : names.Nodup) : d.NamesOnce := by
  have hitem : ∀ m ∈ d.paths, ∀ o ∈ m.2.operations, o.2.NamesOnce := by
    intro m hm o ho
    obtain ⟨method, -, ho⟩ := List.mem_filterMap.mp ho
    obtain ⟨node, hnode, rfl⟩ := Option.map_eq_some_iff.mp ho
    exact (h.paths.2 m hm).operations method node hnode
  refine ⟨h.definitions.nodup hn, h.paths.1, fun m hm o ho => (hitem m hm o ho).responses.1, ?_⟩
  simp only [all, Bool.and_eq_true, List.all_eq_true, Option.all_eq_true]
  refine ⟨⟨h.schemas, fun m hm => (h.parameters.2 m hm).all⟩, fun m hm => ⟨?_, ?_⟩⟩
  · exact fun node hnode => ((h.paths.2 m hm).parameters node hnode).all
  · intro o ho
    have hnode := hitem m hm o ho
    exact ⟨fun p hp => (hnode.parameters p hp).all, fun r hr => hnode.responses.2 r hr⟩

theorem once_members (value : Json) : value.NamesOnce →
    Json.Once (match value with | .obj members => members | _ => []) := by
  intro hv
  split
  · exact hv.once
  · exact .nil

theorem once_frame (h : Json.Once members) (version : String) :
    ∀ m ∈ frame version members, m.2.NamesOnce := fun m hm =>
  (h.set "swagger" (.str version)).values m (Fields.mem_of_mem_eraseSwap hm)

theorem once_definitionsOf {definitions : Option Json} (h : ∀ v ∈ definitions, v.NamesOnce) :
    Gives (definitionsOf definitions) Json.Once := by
  unfold definitionsOf
  split
  · exact .ok .nil
  · exact .ok .nil
  · exact .ok (h _ rfl).once
  · exact .error _

/-- A document that is read from a value without repeated members names nothing twice. -/
theorem namesOnce_of_read (hv : value.NamesOnce) : Gives (read value) NamesOnce := by
  have hmembers := once_members value hv
  unfold read
  refine .bind (.trivial _) fun version _ => ?_
  refine .bind (.mapError (.foldlM readOnce_empty fun m hm d hd =>
    hd.readMember m.1 (once_frame hmembers version m hm))) fun d hd => ?_
  refine .bind (once_definitionsOf fun v hv => ?_) fun definitions hdefinitions => ?_
  · exact hmembers.values _ (Fields.mem_of_get? hv)
  · exact .ok ((hd.addDefinitions hdefinitions.values).namesOnce hdefinitions.nodup)

end Document

/-- Every document that a text writes names nothing twice. -/
theorem Loading.namesOnce_of_ofText {name text : String} :
    Gives (ofText name text) (·.NamesOnce) := by
  refine .bind (.mapError fun value hv => namesOnce_of_decode hv) fun value hv => ?_
  exact .mapError (Document.namesOnce_of_read hv)

end ApiModel
