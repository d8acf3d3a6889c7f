import ApiModel.Proofs.Occurrences
import ApiModel.Proofs.Pointers

/-! # Inheritance in a document

An object type inherits from those that the references of its `allOf` lead to, each by way of
definitions that are references themselves. A reference leads to one object type, and that one is a
definition, which no other schema shares its pointer with.
-/

namespace ApiModel

open Resolution

structure Located where
  pointer : Pointer
  schema : Schema

def Located.members (x : Located) : List Member := x.schema.declaredMembers x.pointer

def Located.bases (x : Located) : List BasePart := x.schema.baseParts x.pointer

def Member.located (m : Member) : Located := ⟨m.pointer, m.schema⟩

def BasePart.located (part : BasePart) : Located := ⟨part.pointer, part.schema⟩

def Site.located (site : Site) : Located := ⟨site.pointer, site.schema⟩

namespace Document

variable {d : Document} {x y z : Located}

/-- A schema is an object type, or it refers to a definition that leads to one. -/
inductive Leads (d : Document) : Located → Located → Prop where
  | itself {x : Located} (hs : x.schema.isComposite = true) : Leads d x x
  | referred {x y : Located} {text name canonical : String} {schema : Schema}
      (hr : x.schema.reference = some text)
      (hp : Reference.parse? text = some ⟨.definitions, name⟩)
      (hd : d.definition? name = some (canonical, schema))
      (h : Leads d ⟨Pointer.definition canonical, schema⟩ y) : Leads d x y

/-- A reference in the `allOf` of an object type leads to another one. -/
def Inherits (d : Document) (x y : Located) : Prop := ∃ part ∈ x.bases, d.Leads part.located y

namespace Leads

theorem unique (h : d.Leads x y) (h' : d.Leads x z) : y = z := by
  induction h with
  | itself hs =>
    cases h' with
    | itself => rfl
    | referred hr => simp [Schema.isComposite, hr] at hs
  | referred hr hp hd _ ih =>
    cases h' with
    | itself hs => simp [Schema.isComposite, hr] at hs
    | referred hr' hp' hd' h' =>
      cases hr.symm.trans hr'
      cases hp.symm.trans hp'
      cases hd.symm.trans hd'
      exact ih h'

theorem definition (h : d.Leads x y) (hr : x.schema.reference ≠ none) :
    ∃ name, y.pointer = Pointer.definition name ∧
      Fields.get? d.definitions name = some y.schema := by
  induction h with
  | itself hs => simp [Schema.isComposite, hr] at hs
  | referred _ _ hd h ih =>
    cases h with
    | itself => exact ⟨_, rfl, Scene.get?_of_definition? hd⟩
    | referred hr' => exact ih (Option.ne_none_iff_exists'.mpr ⟨_, hr'⟩)

theorem route_eq (h : d.Leads x y) :
    (∃ text, x.schema.route = .reference text) ∨ x.schema.route = .composite := by
  cases h with
  | itself hs => exact .inr (Schema.route_eq_composite_iff.mpr hs)
  | referred hr => exact .inl ⟨_, Schema.route_of_reference hr⟩

end Leads

theorem Inherits.definition (h : d.Inherits x y) : ∃ name, y.pointer = Pointer.definition name ∧
    Fields.get? d.definitions name = some y.schema := by
  obtain ⟨part, hp, hl⟩ := h
  exact hl.definition (Schema.reference_of_mem_baseParts hp)

theorem segments_of_operationRoots {pointer : Pointer} {s : Schema}
    (h : operationRoots d pointer s) : ∃ rest, pointer.segments = "paths" :: rest := by
  obtain ⟨o, -, ⟨e, he, f, hf, hv⟩ | ⟨status, node, -, -, rfl⟩⟩ := h
  · have hplace : ∃ rest, f.pointer.segments = "paths" :: rest := by
      rw [(dereference_ok hf).1]
      rcases List.mem_append.mp he with he | he
      all_goals
        obtain ⟨q, -, rfl⟩ := List.mem_map.mp he
        exact ⟨_, rfl⟩
    obtain ⟨rest, hrest⟩ := hplace
    rcases hv.cases with ⟨-, rfl⟩ | ⟨-, rfl⟩
    · exact ⟨rest ++ ["schema"], by simp [hrest]⟩
    · exact ⟨rest, hrest⟩
  · exact ⟨_, rfl⟩

/-- A schema stands below a path or below a definition, or it is a definition. -/
theorem Stands.segments {pointer : Pointer} {s : Schema} (h : d.Stands pointer s) :
    (∃ rest, pointer.segments = "paths" :: rest) ∨ ∃ name rest,
      pointer.segments = "definitions" :: name :: rest ∧
        (rest = [] → Fields.get? d.definitions name = some s) := by
  induction h with
  | root hr => exact .inl (segments_of_operationRoots hr)
  | @definition name s hd => exact .inr ⟨name, [], rfl, fun _ => hd⟩
  | items _ _ ih | value _ _ ih | property _ _ ih | part _ _ ih =>
    rcases ih with ⟨rest, hp⟩ | ⟨name, rest, hp, -⟩
    · exact .inl ⟨_, by simp only [Pointer.item, Pointer.segments_child, hp]; rfl⟩
    · refine .inr ⟨name, _, by simp only [Pointer.item, Pointer.segments_child, hp]; rfl, ?_⟩
      simp

theorem get?_of_stands {name : String} {s : Schema} (h : d.Stands (Pointer.definition name) s) :
    Fields.get? d.definitions name = some s := by
  obtain ⟨rest, hp⟩ | ⟨other, rest, hp, hd⟩ := Stands.segments h
  · simp [Pointer.definition] at hp
  · cases hp
    exact hd rfl

end Document

end ApiModel
