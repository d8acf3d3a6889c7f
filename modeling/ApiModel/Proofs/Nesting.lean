import ApiModel.Resolution.Composite
import Mathlib.Algebra.Order.BigOperators.Group.List
import Mathlib.Algebra.Order.Ring.Nat

/-! # Nested schemas

The schemas right below a schema, with the names that anonymous types take there. A schema has as
many names in it as it has schemas, which bounds the object types it can lead to.
-/

namespace ApiModel.Schema

/-- The schemas below one that is called `name`, with their own names. The parts of an `allOf`
declare members of the same type. -/
def inner (name : String) (s : Schema) : List (String × Schema) :=
  (s.items.toList.map fun i => (Naming.nested name "Item", i)) ++
    ((s.dictionary?.join).toList.map fun v => (Naming.nested name "Value", v)) ++
    (s.properties.map fun p => (Naming.nested name p.1, p.2)) ++
    s.allOf.map fun part => (name, part)

theorem propertySize_eq_sum (properties : List (String × Schema)) :
    propertySize properties = (properties.map fun p => p.2.size).sum := by
  induction properties with
  | nil => rfl
  | cons p rest ih => simp [propertySize, ih]

theorem listSize_eq_sum (schemas : List Schema) :
    listSize schemas = (schemas.map fun s => s.size).sum := by
  induction schemas with
  | nil => rfl
  | cons s rest ih => simp [listSize, ih]

theorem size_eq (name : String) (s : Schema) :
    s.size = 1 + ((s.inner name).map fun c => c.2.size).sum := by
  obtain ⟨k, items, additional, properties, allOf⟩ := s
  have hi : optionSize items = (items.toList.map fun i => i.size).sum := by
    cases items <;> simp [optionSize]
  have ha : additionalSize additional =
      ((dictionary? ⟨k, items, additional, properties, allOf⟩).join.toList.map
        fun v => v.size).sum := by
    rcases additional with _ | (_ | _) | _ | _ <;> simp [additionalSize, dictionary?]
  simp only [size, inner, hi, ha, propertySize_eq_sum, listSize_eq_sum, List.map_append,
    List.map_map, List.sum_append, Function.comp_def]
  omega

theorem size_lt_of_mem_inner {name : String} {s : Schema} {c : String × Schema}
    (h : c ∈ s.inner name) : c.2.size < s.size := by
  have hle := List.single_le_sum (l := (s.inner name).map fun c => c.2.size) (by simp) c.2.size
    (List.mem_map.mpr ⟨c, h, rfl⟩)
  rw [size_eq name s]
  omega

theorem size_pos (s : Schema) : 0 < s.size := by
  rw [size_eq "" s]; omega

def typeNames (name : String) (s : Schema) : List String :=
  name :: (s.inner name).attach.flatMap fun c => typeNames c.1.1 c.1.2
termination_by s.size
decreasing_by exact size_lt_of_mem_inner c.2

theorem typeNames_eq (name : String) (s : Schema) :
    s.typeNames name = name :: (s.inner name).flatMap fun c => c.2.typeNames c.1 := by
  rw [typeNames, List.flatMap_subtype (g := fun c => c.2.typeNames c.1) (by simp)]
  simp

theorem self_mem_typeNames (name : String) (s : Schema) : name ∈ s.typeNames name := by
  rw [typeNames_eq]; exact List.mem_cons_self ..

theorem typeNames_subset {name : String} {s : Schema} {c : String × Schema}
    (h : c ∈ s.inner name) : c.2.typeNames c.1 ⊆ s.typeNames name := by
  rw [typeNames_eq name s]
  exact fun n hn => List.mem_cons_of_mem _ (List.mem_flatMap.mpr ⟨c, h, hn⟩)

theorem length_typeNames (name : String) (s : Schema) : (s.typeNames name).length = s.size := by
  rw [typeNames_eq, size_eq name s, List.length_cons, List.length_flatMap, Nat.add_comm]
  congr 2
  refine List.map_congr_left fun c hc => ?_
  have := size_lt_of_mem_inner hc
  exact length_typeNames c.1 c.2
termination_by s.size

mutual

def all (p : Schema → Bool) : Schema → Bool
  | ⟨k, items, additional, properties, allOf⟩ =>
    p ⟨k, items, additional, properties, allOf⟩ && optionAll p items &&
      additionalAll p additional && propertiesAll p properties && listAll p allOf

def optionAll (p : Schema → Bool) : Option Schema → Bool
  | none => true
  | some s => all p s

def additionalAll (p : Schema → Bool) : Option (Additional Schema) → Bool
  | some (.schema s) => all p s
  | _ => true

def propertiesAll (p : Schema → Bool) : List (String × Schema) → Bool
  | [] => true
  | (_, s) :: rest => all p s && propertiesAll p rest

def listAll (p : Schema → Bool) : List Schema → Bool
  | [] => true
  | s :: rest => all p s && listAll p rest

end

variable {p : Schema → Bool}

theorem propertiesAll_eq (properties : List (String × Schema)) :
    propertiesAll p properties = properties.all fun m => m.2.all p := by
  induction properties with
  | nil => rfl
  | cons m rest ih => simp [propertiesAll, ih]

theorem listAll_eq (schemas : List Schema) : listAll p schemas = schemas.all fun s => s.all p := by
  induction schemas with
  | nil => rfl
  | cons s rest ih => simp [listAll, ih]

theorem all_eq (name : String) (s : Schema) :
    s.all p = (p s && (s.inner name).all fun c => c.2.all p) := by
  obtain ⟨k, items, additional, properties, allOf⟩ := s
  have hi : optionAll p items = items.toList.all fun i => i.all p := by
    cases items <;> simp [optionAll]
  have ha : additionalAll p additional =
      (dictionary? ⟨k, items, additional, properties, allOf⟩).join.toList.all fun v => v.all p := by
    rcases additional with _ | (_ | _) | _ | _ <;> simp [additionalAll, dictionary?]
  simp only [all, inner, hi, ha, propertiesAll_eq, listAll_eq, List.all_append, List.all_map,
    Function.comp_def, Bool.and_assoc]

theorem of_all {s : Schema} (h : s.all p = true) : p s = true := by
  rw [all_eq "", Bool.and_eq_true] at h
  exact h.1

theorem all_of_mem_inner {name : String} {s : Schema} {c : String × Schema} (h : s.all p = true)
    (hc : c ∈ s.inner name) : c.2.all p = true := by
  rw [all_eq name, Bool.and_eq_true] at h
  exact List.all_eq_true.mp h.2 c hc

theorem items_mem_inner (name : String) {s i : Schema} (h : s.items = some i) :
    (Naming.nested name "Item", i) ∈ s.inner name := by
  simp [inner, h]

theorem value_mem_inner (name : String) {s v : Schema} (h : s.dictionary? = some (some v)) :
    (Naming.nested name "Value", v) ∈ s.inner name := by
  simp [inner, h]

theorem property_mem_inner (name : String) {s m : Schema} {property : String}
    (h : (property, m) ∈ s.properties) : (Naming.nested name property, m) ∈ s.inner name := by
  simp only [inner, List.mem_append, List.mem_map]
  exact .inl (.inr ⟨_, h, rfl⟩)

theorem part_mem_inner (name : String) {s part : Schema} (h : part ∈ s.allOf) :
    (name, part) ∈ s.inner name := by
  simp [inner, h]

theorem mem_parts {s : Schema} {pointer : Pointer} {p : Schema × Pointer}
    (h : p ∈ s.parts pointer) : p.1 ∈ s.allOf := by
  obtain ⟨q, hq, rfl⟩ := List.mem_map.mp h
  exact List.fst_mem_of_mem_zipIdx hq

theorem base_mem_inner (name : String) {s : Schema} {pointer : Pointer} {part : BasePart}
    (h : part ∈ s.baseParts pointer) : (name, part.schema) ∈ s.inner name := by
  obtain ⟨p, hp, hr⟩ := List.mem_filterMap.mp h
  obtain ⟨r, -, rfl⟩ := Option.map_eq_some_iff.mp hr
  exact part_mem_inner name (mem_parts hp)

theorem member_inner (name : String) {s : Schema} {pointer : Pointer} {m : Member}
    (h : m ∈ s.declaredMembers pointer) :
    (Naming.nested name m.name, m.schema) ∈ s.inner name ∨
      ∃ part, (name, part) ∈ s.inner name ∧
        (Naming.nested name m.name, m.schema) ∈ part.inner name := by
  have hmem : ∀ {t : Schema} {p : Pointer}, m ∈ t.members p →
      (Naming.nested name m.name, m.schema) ∈ t.inner name := by
    intro t p hm
    obtain ⟨q, hq, rfl⟩ := List.mem_map.mp hm
    exact property_mem_inner name hq
  rcases List.mem_append.mp h with h | h
  · exact .inl (hmem h)
  · obtain ⟨p, hp, hm⟩ := List.mem_flatMap.mp h
    exact .inr ⟨p.1, part_mem_inner name (mem_parts (List.mem_of_mem_filter hp)), hmem hm⟩

end ApiModel.Schema
