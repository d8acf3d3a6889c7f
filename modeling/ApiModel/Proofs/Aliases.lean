import ApiModel.Proofs.Inversion

/-! # Aliases

A definition that is no object type may say no more than that it is an array, a dictionary or a
plain copy of what another definition says. It is an alias of that one then. Each definition is an
alias of at most one, so the cycles of aliases do not meet.
-/

namespace ApiModel

open Relation (ReflTransGen TransGen)

namespace Document

variable {d : Document} {s : Schema} {a b c name name' : String}

/-- The definition that a schema leads to through items and values and then one reference. There is
no enum, no object type and no malformed schema on the way. -/
inductive Points (d : Document) : Schema → String → Prop where
  | reference {s schema : Schema} {text name canonical : String} (hr : s.reference = some text)
      (hp : Reference.parse? text = some ⟨.definitions, name⟩)
      (hd : d.definition? name = some (canonical, schema)) : Points d s canonical
  | items {s items : Schema} {name : String} (hs : s.IsPlain)
      (ha : ∀ value, s.additional ≠ some (.malformed value)) (hi : s.items = some items)
      (h : Points d items name) : Points d s name
  | value {s value : Schema} {name : String} (hs : s.IsPlain) (ha : s.isArray = false)
      (hv : s.additional = some (.schema value)) (h : Points d value name) : Points d s name

/-- A definition that is no object type leads to another one. -/
def Alias (d : Document) (a b : String) : Prop :=
  ∃ schema, Fields.get? d.definitions a = some schema ∧ schema.isComposite = false ∧
    d.Points schema b

def SameCycle (d : Document) (a b : String) : Prop :=
  TransGen d.Alias a b ∧ TransGen d.Alias b a

theorem additional_of_dictionary? {value : Schema} (h : s.dictionary? = some (some value)) :
    s.additional = some (.schema value) := by
  unfold Schema.dictionary? at h
  split at h
  · cases h
  · cases h
    assumption
  · cases h

section Sites

variable {site site' : Site}

/-- A schema that leads to a definition is not resolved by itself. -/
theorem Points.exists_next (h : d.Points site.schema name) :
    ∃ site', site.next? d = some site' := by
  cases h with
  | reference hr hp hd => exact ⟨_, by rw [Site.next?_reference hr hp, hd]; rfl⟩
  | items hs ha hi =>
    have hroute : site.schema.route = .array site.schema.dictionary?.isSome := by
      rw [hs.route_eq ha, if_pos (by simp [Schema.isArray, hi])]
    exact ⟨_, Site.next?_array hroute hi⟩
  | @value _ value _ hs ha hv =>
    have hroute : site.schema.route = .dictionary (some value) := by
      rw [hs.route_eq (by simp [hv])]
      simp [ha, Schema.dictionary?, hv]
    exact ⟨_, Site.next?_dictionary hroute⟩

theorem points_iff_of_next (hr : site.schema.reference = none) (hx : site.next? d = some site') :
    d.Points site.schema name ↔ d.Points site'.schema name := by
  cases hroute : site.schema.route with
  | reference text => cases hr.symm.trans (Schema.reference_of_route hroute)
  | array clash =>
    obtain ⟨hs, ha, -⟩ := Schema.array_of_route hroute
    have hm : ∀ value, site.schema.additional ≠ some (.malformed value) := fun value hv => by
      cases hroute.symm.trans (hs.route_of_malformed hv)
    simp only [Site.next?, hroute, Option.map_eq_some_iff] at hx
    obtain ⟨items, hi, rfl⟩ := hx
    constructor
    · intro h
      cases h with
      | reference hr' => cases hr.symm.trans hr'
      | items _ _ hi' h =>
        cases hi.symm.trans hi'
        exact h
      | value _ ha' => cases ha.symm.trans ha'
    · exact .items hs hm hi
  | dictionary value =>
    obtain ⟨hs, ha, hd⟩ := Schema.dictionary_of_route hroute
    cases value with
    | none => simp [Site.next?, hroute] at hx
    | some value =>
      simp only [Site.next?, hroute] at hx
      cases hx
      have hv := additional_of_dictionary? hd
      constructor
      · intro h
        cases h with
        | reference hr' => cases hr.symm.trans hr'
        | items _ _ hi => simp [Schema.isArray, hi] at ha
        | value _ _ hv' h =>
          cases hv.symm.trans hv'
          exact h
      · exact .value hs ha hv
  | _ => simp [Site.next?, hroute] at hx

theorem points_iff_of_reference {text : String} (hr : s.reference = some text)
    (hp : Reference.parse? text = some ⟨.definitions, name⟩) :
    d.Points s a ↔ ∃ schema, d.definition? name = some (a, schema) := by
  constructor
  · intro h
    cases h with
    | reference hr' hp' hd =>
      cases hr.symm.trans hr'
      cases hp.symm.trans hp'
      exact ⟨_, hd⟩
    | items hs | value hs => cases hr.symm.trans hs.reference
  · rintro ⟨schema, hd⟩
    exact .reference hr hp hd

end Sites

theorem Points.unique (h : d.Points s a) (h' : d.Points s b) : a = b := by
  induction h with
  | reference hr hp hd =>
    obtain ⟨schema, hd'⟩ := (points_iff_of_reference hr hp).mp h'
    cases hd.symm.trans hd'
    rfl
  | items hs _ hi _ ih =>
    cases h' with
    | reference hr => cases hr.symm.trans hs.reference
    | items _ _ hi' h' =>
      cases hi.symm.trans hi'
      exact ih h'
    | value _ ha => simp [Schema.isArray, hi] at ha
  | value hs ha hv _ ih =>
    cases h' with
    | reference hr => cases hr.symm.trans hs.reference
    | items _ _ hi => simp [Schema.isArray, hi] at ha
    | value _ _ hv' h' =>
      cases hv.symm.trans hv'
      exact ih h'

theorem Alias.unique (h : d.Alias a b) (h' : d.Alias a c) : b = c := by
  obtain ⟨s, hs, -, hp⟩ := h
  obtain ⟨s', hs', -, hp'⟩ := h'
  cases hs.symm.trans hs'
  exact hp.unique hp'

namespace SameCycle

theorem symm (h : d.SameCycle a b) : d.SameCycle b a := ⟨h.2, h.1⟩

theorem trans (h : d.SameCycle a b) (h' : d.SameCycle b c) : d.SameCycle a c :=
  ⟨h.1.trans h'.1, h'.2.trans h.2⟩

theorem refl_left (h : d.SameCycle a b) : d.SameCycle a a := h.trans h.symm

theorem next (h : d.SameCycle a a) (hab : d.Alias a b) : d.SameCycle a b := by
  refine ⟨.single hab, ?_⟩
  obtain ⟨c, hac, hca⟩ := TransGen.head'_iff.mp h.1
  obtain rfl := hab.unique hac
  exact TransGen.trans_right hca h.1

theorem exists_next (h : d.SameCycle a a) : ∃ b, d.Alias a b ∧ d.SameCycle a b := by
  obtain ⟨b, hab, -⟩ := TransGen.head'_iff.mp h.1
  exact ⟨b, hab, h.next hab⟩

section

variable {schema : Schema} (hs : Fields.get? d.definitions a = some schema)
include hs

theorem exists_points (h : d.SameCycle a a) : ∃ b, d.Points schema b ∧ d.SameCycle a b := by
  obtain ⟨b, ⟨schema', hs', -, hpoints⟩, hab⟩ := h.exists_next
  cases hs.symm.trans hs'
  exact ⟨b, hpoints, hab⟩

theorem isComposite_eq (h : d.SameCycle a a) : schema.isComposite = false := by
  obtain ⟨b, ⟨schema', hs', hc, -⟩, -⟩ := h.exists_next
  cases hs.symm.trans hs'
  exact hc

end

end SameCycle

end Document

end ApiModel
