import ApiModel.Proofs.Pointers

/-! # Positions of schemas

A position says where a schema is, independently of how places are written: a root of the document
and the branches taken from there. Each position is written as one pointer and no two as the same,
whatever the names on the way to them are, and every schema that stands somewhere has a position.
-/

namespace ApiModel

theorem repr_injective : Function.Injective Nat.repr := toString_injective

/-- A list of parameters: that of a path, or that of one of its operations. -/
structure Place where
  path : String
  method : Option HttpMethod
  deriving DecidableEq

/-- Where a schema is that is part of no other schema. -/
inductive Root where
  | definition (name : String)
  /-- The values of a parameter outside the body. -/
  | parameter (place : Place) (index : Nat)
  | body (place : Place) (index : Nat)
  | response (path : String) (method : HttpMethod) (status : String)
  deriving DecidableEq

/-- A way from a schema to one that is part of it. -/
inductive Branch where
  | items
  | value
  | property (name : String)
  | part (index : Nat)
  deriving DecidableEq

structure Position where
  root : Root
  path : List Branch
  deriving DecidableEq

namespace Branch

def segments : Branch → List String
  | items => ["items"]
  | value => ["additionalProperties"]
  | property name => ["properties", name]
  | part index => ["allOf", toString index]

theorem segments_append_inj {b c : Branch} {x y : List String}
    (h : b.segments ++ x = c.segments ++ y) : b = c ∧ x = y := by
  cases b <;> cases c <;> simp_all [segments, repr_injective.eq_iff]

theorem flatMap_segments_injective : Function.Injective (List.flatMap segments) := by
  intro bs
  induction bs with
  | nil =>
    intro cs h
    cases cs with
    | nil => rfl
    | cons c cs => cases c <;> cases h
  | cons b bs ih =>
    intro cs h
    cases cs with
    | nil => cases b <;> cases h
    | cons c cs =>
      obtain ⟨rfl, hr⟩ := segments_append_inj h
      rw [ih hr]

theorem flatMap_segments_ne_schema (bs : List Branch) (rest : List String) :
    bs.flatMap segments ≠ "schema" :: rest := by
  cases bs with
  | nil => nofun
  | cons b bs => cases b <;> simp [segments]

end Branch

namespace Place

def pointer (p : Place) : Pointer :=
  match p.method with
  | none => Pointer.path p.path
  | some m => (Pointer.path p.path).child m.name

def item (p : Place) (index : Nat) : Pointer := (p.pointer.child "parameters").item index

end Place

theorem HttpMethod.name_injective : Function.Injective name := by
  intro m n h
  cases m <;> cases n <;> first | rfl | exact absurd h (by decide)

theorem HttpMethod.name_ne_parameters (m : HttpMethod) : m.name ≠ "parameters" := by
  cases m <;> decide

theorem Place.segments_append_inj {p q : Place} {i j : Nat} {x y : List String}
    (h : (p.item i).segments ++ x = (q.item j).segments ++ y) : p = q ∧ i = j ∧ x = y := by
  obtain ⟨path, method⟩ := p
  obtain ⟨path', method'⟩ := q
  cases method with
  | none =>
    cases method' with
    | none => simp_all [Place.item, Place.pointer, Pointer.item, Pointer.path,
        repr_injective.eq_iff]
    | some m' =>
      have := m'.name_ne_parameters
      simp_all [Place.item, Place.pointer, Pointer.item, Pointer.path, eq_comm]
  | some m =>
    cases method' with
    | none =>
      have := m.name_ne_parameters
      simp_all [Place.item, Place.pointer, Pointer.item, Pointer.path]
    | some m' => simp_all [Place.item, Place.pointer, Pointer.item, Pointer.path,
        repr_injective.eq_iff, HttpMethod.name_injective.eq_iff]

namespace Root

def pointer : Root → Pointer
  | definition name => Pointer.definition name
  | parameter place index => place.item index
  | body place index => (place.item index).child "schema"
  | response path method status =>
    Resolution.bodyPointer ((Pointer.path path).child method.name) status

def isDefinition : Root → Bool
  | definition _ => true
  | _ => false

end Root

namespace Position

def pointer (p : Position) : Pointer := ⟨p.root.pointer.segments ++ p.path.flatMap Branch.segments⟩

def child (p : Position) (b : Branch) : Position := ⟨p.root, p.path ++ [b]⟩

theorem pointer_root (root : Root) : pointer ⟨root, []⟩ = root.pointer := by
  simp [pointer]

theorem segments_child (p : Position) (b : Branch) :
    (p.child b).pointer.segments = p.pointer.segments ++ b.segments := by
  simp [pointer, child]

theorem pointer_items (p : Position) : (p.child .items).pointer = p.pointer.child "items" :=
  congrArg Pointer.mk (p.segments_child .items)

theorem pointer_value (p : Position) :
    (p.child .value).pointer = p.pointer.child "additionalProperties" :=
  congrArg Pointer.mk (p.segments_child .value)

theorem pointer_property (p : Position) (name : String) :
    (p.child (.property name)).pointer = (p.pointer.child "properties").child name :=
  (congrArg Pointer.mk (p.segments_child (.property name))).trans (by simp [Pointer.child]; rfl)

theorem pointer_part (p : Position) (index : Nat) :
    (p.child (.part index)).pointer = (p.pointer.child "allOf").item index :=
  (congrArg Pointer.mk (p.segments_child (.part index))).trans
    (by simp [Pointer.child, Pointer.item]; rfl)

theorem response_ne_parameter {path status : String} {method : HttpMethod} {place : Place}
    {index : Nat} {x y : List String} :
    (Root.response path method status).pointer.segments ++ x ≠
      (place.item index).segments ++ y := by
  obtain ⟨path', method'⟩ := place
  cases method' with
  | none =>
    have := method.name_ne_parameters
    simp [Root.pointer, Resolution.bodyPointer, Place.item, Place.pointer, Pointer.item,
      Pointer.path, this]
  | some m =>
    simp [Root.pointer, Resolution.bodyPointer, Place.item, Place.pointer, Pointer.item,
      Pointer.path]

theorem definition_ne {name : String} (root : Root) (h : root.isDefinition = false)
    {x y : List String} : (Pointer.definition name).segments ++ x ≠ root.pointer.segments ++ y := by
  cases root with
  | definition other => cases h
  | parameter place index | body place index =>
    obtain ⟨path, method⟩ := place
    cases method <;> simp [Root.pointer, Place.item, Place.pointer, Pointer.item, Pointer.path,
      Pointer.definition]
  | response path method status =>
    simp [Root.pointer, Resolution.bodyPointer, Pointer.path, Pointer.definition]

/-- Different positions have different pointers. -/
theorem pointer_injective : Function.Injective pointer := by
  rintro ⟨root, path⟩ ⟨root', path'⟩ h
  have h : root.pointer.segments ++ path.flatMap Branch.segments =
      root'.pointer.segments ++ path'.flatMap Branch.segments := Pointer.mk.inj h
  have hpath : ∀ {bs cs : List Branch}, bs.flatMap Branch.segments = cs.flatMap Branch.segments →
      bs = cs := fun hs => Branch.flatMap_segments_injective hs
  cases root with
  | definition name =>
    cases root' with
    | definition name' =>
      simp only [Root.pointer, Pointer.definition, List.cons_append, List.nil_append,
        List.cons.injEq, true_and] at h
      rw [h.1, hpath h.2]
    | _ => exact absurd h (definition_ne _ rfl)
  | parameter place index =>
    cases root' with
    | definition name' => exact absurd h.symm (definition_ne _ rfl)
    | parameter place' index' =>
      obtain ⟨rfl, rfl, hs⟩ := Place.segments_append_inj h
      rw [hpath hs]
    | body place' index' =>
      simp only [Root.pointer, Pointer.segments_child, List.append_assoc] at h
      exact absurd (Place.segments_append_inj h).2.2 (Branch.flatMap_segments_ne_schema _ _)
    | response path method status => exact absurd h.symm response_ne_parameter
  | body place index =>
    simp only [Root.pointer, Pointer.segments_child, List.append_assoc] at h
    cases root' with
    | definition name' => exact absurd h.symm (definition_ne (.parameter place index) rfl)
    | parameter place' index' =>
      exact absurd (Place.segments_append_inj h).2.2.symm (Branch.flatMap_segments_ne_schema _ _)
    | body place' index' =>
      simp only [Pointer.segments_child, List.append_assoc] at h
      obtain ⟨rfl, rfl, hs⟩ := Place.segments_append_inj h
      rw [hpath (List.append_cancel_left hs)]
    | response path method status => exact absurd h.symm response_ne_parameter
  | response path method status =>
    cases root' with
    | definition name' => exact absurd h.symm (definition_ne _ rfl)
    | parameter place' index' => exact absurd h response_ne_parameter
    | body place' index' =>
      simp only [Root.pointer, Pointer.segments_child, List.append_assoc] at h
      exact absurd h response_ne_parameter
    | response path' method' status' =>
      simp only [Root.pointer, Resolution.bodyPointer, Pointer.path, Pointer.segments_child,
        List.cons_append, List.nil_append, List.cons.injEq, true_and] at h
      obtain ⟨rfl, hm, rfl, hs⟩ := h
      rw [HttpMethod.name_injective hm, hpath hs]

/-- Not even the texts of their pointers are the same. -/
theorem text_injective : Function.Injective fun p : Position => p.pointer.text :=
  Pointer.text_injective.comp pointer_injective

end Position

open Resolution

inductive Document.Lists (d : Document) : Place → List ParameterNode → Prop where
  | path {o : Operation} (h : o ∈ operationsOf d) : Lists d ⟨o.path, none⟩ o.item.parameters
  | operation {o : Operation} (h : o ∈ operationsOf d) :
      Lists d ⟨o.path, some o.method⟩ o.node.parameters

def Document.Means (d : Document) (node shared : ParameterNode) : Prop :=
  ∃ e, dereference d ⟨node, ⟨[]⟩⟩ = .ok e ∧ e.node = shared

/-- The schemas at a position. A shared parameter is where it is referred to. -/
inductive Document.Holds (d : Document) : Position → Schema → Prop where
  | definition {name : String} {s : Schema} (h : Fields.get? d.definitions name = some s) :
      Holds d ⟨.definition name, []⟩ s
  | parameter {place : Place} {nodes : List ParameterNode} {node shared : ParameterNode}
      {index : Nat} (hl : d.Lists place nodes) (hi : (node, index) ∈ nodes.zipIdx)
      (hm : d.Means node shared) : Holds d ⟨.parameter place index, []⟩ shared.asSchema
  | body {place : Place} {nodes : List ParameterNode} {node shared : ParameterNode} {index : Nat}
      {s : Schema} (hl : d.Lists place nodes) (hi : (node, index) ∈ nodes.zipIdx)
      (hm : d.Means node shared) (hs : shared.schema = some s) :
      Holds d ⟨.body place index, []⟩ s
  | response {o : Operation} {status : String} {node : ResponseNode} {s : Schema}
      (ho : o ∈ operationsOf d) (hr : (status, node) ∈ o.node.responses)
      (hs : node.schema = some s) : Holds d ⟨.response o.path o.method status, []⟩ s
  | items {p : Position} {s i : Schema} (h : Holds d p s) (hi : s.items = some i) :
      Holds d (p.child .items) i
  | value {p : Position} {s v : Schema} (h : Holds d p s)
      (hv : s.dictionary? = some (some v)) : Holds d (p.child .value) v
  | property {p : Position} {s m : Schema} {name : String} (h : Holds d p s)
      (hm : (name, m) ∈ s.properties) : Holds d (p.child (.property name)) m
  | part {p : Position} {s part : Schema} {index : Nat} (h : Holds d p s)
      (hp : (part, index) ∈ s.allOf.zipIdx) : Holds d (p.child (.part index)) part

namespace Document

variable {d : Document} {pointer : Pointer} {s : Schema}

theorem holds_of_values {place : Place} {nodes : List ParameterNode} (hl : d.Lists place nodes)
    {e f : Declared} (he : e ∈ listedAt place.pointer nodes) (hf : dereference d e = .ok f)
    (hv : f.Values s pointer) : ∃ p : Position, p.pointer = pointer ∧ d.Holds p s := by
  obtain ⟨⟨node, index⟩, hi, rfl⟩ := List.mem_map.mp he
  obtain ⟨hp, hd⟩ := dereference_ok hf
  have hm : d.Means node f.node := ⟨_, hd ⟨[]⟩, rfl⟩
  rcases hv.cases with ⟨hs, rfl⟩ | ⟨rfl, rfl⟩
  · refine ⟨⟨.body place index, []⟩, ?_, .body hl hi hm hs⟩
    rw [Position.pointer_root, hp]
    rfl
  · refine ⟨⟨.parameter place index, []⟩, ?_, .parameter hl hi hm⟩
    rw [Position.pointer_root, hp]
    rfl

theorem holds_of_operationRoots (h : operationRoots d pointer s) :
    ∃ p : Position, p.pointer = pointer ∧ d.Holds p s := by
  obtain ⟨o, ho, ⟨e, he, f, hf, hv⟩ | ⟨status, node, hr, hs, rfl⟩⟩ := h
  · rcases List.mem_append.mp he with he | he
    · exact holds_of_values (.path ho) he hf hv
    · exact holds_of_values (.operation ho) he hf hv
  · exact ⟨⟨.response o.path o.method status, []⟩, Position.pointer_root _, .response ho hr hs⟩

theorem exists_position (h : d.Stands pointer s) :
    ∃ p : Position, p.pointer = pointer ∧ d.Holds p s := by
  induction h with
  | root h => exact holds_of_operationRoots h
  | definition h => exact ⟨⟨.definition _, []⟩, Position.pointer_root _, .definition h⟩
  | items _ hi ih =>
    obtain ⟨p, rfl, hp⟩ := ih
    exact ⟨_, p.pointer_items, hp.items hi⟩
  | value _ hv ih =>
    obtain ⟨p, rfl, hp⟩ := ih
    exact ⟨_, p.pointer_value, hp.value hv⟩
  | property _ hm ih =>
    obtain ⟨p, rfl, hp⟩ := ih
    exact ⟨_, p.pointer_property _, hp.property hm⟩
  | part _ hi ih =>
    obtain ⟨p, rfl, hp⟩ := ih
    exact ⟨_, p.pointer_part _, hp.part hi⟩

end Document

end ApiModel
