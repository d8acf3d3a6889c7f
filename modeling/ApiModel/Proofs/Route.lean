import ApiModel.Resolution.Route
import Mathlib.Tactic.ByContra

/-! # What a route says

A schema takes a route exactly because of its keywords: each route is inverted into the keywords
that lead to it, those that would have come first being absent.
-/

namespace ApiModel.Schema

variable {s : Schema}

structure IsPlain (s : Schema) : Prop where
  reference : s.reference = none
  stringEnum : s.stringEnum? = none

theorem route_of_reference {text : String} (h : s.reference = some text) :
    s.route = .reference text := by
  simp [route, h]

theorem route_of_enumeration {listed : List Json} (hr : s.reference = none)
    (he : s.stringEnum? = some listed) : s.route = .enumeration listed := by
  simp [route, hr, he]

theorem IsPlain.route_of_malformed (h : s.IsPlain) {value : Json}
    (ha : s.additional = some (.malformed value)) : s.route = .malformed value := by
  simp [route, h.reference, h.stringEnum, ha]

theorem IsPlain.route_eq (h : s.IsPlain) (ha : ∀ value, s.additional ≠ some (.malformed value)) :
    s.route = if s.isArray then .array s.dictionary?.isSome
      else match s.dictionary? with
        | some value => .dictionary value
        | none => if s.hasObjectStructure then .composite else .scalar := by
  unfold route
  rw [h.reference, h.stringEnum]
  cases hs : s.additional with
  | none => rfl
  | some additional =>
    cases additional with
    | malformed value => exact absurd hs (ha value)
    | flag allowed => rfl
    | schema value => rfl

theorem marksDictionary_eq_false_iff : s.marksDictionary = false ↔
    (∀ value, s.additional ≠ some (.malformed value)) ∧ s.dictionary? = none := by
  rcases h : s.additional with _ | (_ | _) | _ | _ <;> simp [marksDictionary, dictionary?, h]

theorem marksDictionary_of_dictionary {value : Option Schema} (h : s.dictionary? = some value) :
    s.marksDictionary = true := by
  by_contra hm
  simp_all [marksDictionary_eq_false_iff]

theorem isComposite_iff : s.isComposite = true ↔ s.IsPlain ∧ s.isArray = false ∧
    s.marksDictionary = false ∧ s.hasObjectStructure = true := by
  simp only [isComposite, Bool.and_eq_true, Option.isNone_iff_eq_none, Bool.not_eq_true']
  constructor
  · rintro ⟨⟨⟨⟨hr, he⟩, ha⟩, hm⟩, ho⟩
    exact ⟨⟨hr, he⟩, ha, hm, ho⟩
  · rintro ⟨⟨hr, he⟩, ha, hm, ho⟩
    exact ⟨⟨⟨⟨hr, he⟩, ha⟩, hm⟩, ho⟩

/-- The keywords that lead to each route. -/
inductive Routed (s : Schema) : Route → Prop where
  | reference {text : String} (hr : s.reference = some text) : Routed s (.reference text)
  | enumeration {listed : List Json} (hr : s.reference = none) (he : s.stringEnum? = some listed) :
      Routed s (.enumeration listed)
  | malformed {value : Json} (hp : s.IsPlain) (hm : s.additional = some (.malformed value)) :
      Routed s (.malformed value)
  | array (hp : s.IsPlain) (ha : s.isArray = true) : Routed s (.array s.dictionary?.isSome)
  | dictionary {value : Option Schema} (hp : s.IsPlain) (ha : s.isArray = false)
      (hd : s.dictionary? = some value) : Routed s (.dictionary value)
  | composite (hs : s.isComposite = true) : Routed s .composite
  | scalar (hp : s.IsPlain) (ha : s.isArray = false) (hm : s.marksDictionary = false)
      (ho : s.hasObjectStructure = false) : Routed s .scalar

theorem routed (s : Schema) : s.Routed s.route := by
  cases hr : s.reference with
  | some text =>
    rw [route_of_reference hr]
    exact .reference hr
  | none =>
    cases he : s.stringEnum? with
    | some listed =>
      rw [route_of_enumeration hr he]
      exact .enumeration hr he
    | none =>
      have hp : s.IsPlain := ⟨hr, he⟩
      by_cases hm : ∃ value, s.additional = some (.malformed value)
      · obtain ⟨value, hm⟩ := hm
        rw [hp.route_of_malformed hm]
        exact .malformed hp hm
      · have hm := not_exists.mp hm
        rw [hp.route_eq hm]
        split
        · rename_i ha
          exact .array hp ha
        · rename_i ha
          have ha : s.isArray = false := Bool.eq_false_iff.mpr ha
          split
          · rename_i value hd
            exact .dictionary hp ha hd
          · rename_i hd
            have hmark := marksDictionary_eq_false_iff.mpr ⟨hm, hd⟩
            split
            · rename_i ho
              exact .composite (isComposite_iff.mpr ⟨hp, ha, hmark, ho⟩)
            · rename_i ho
              exact .scalar hp ha hmark (Bool.eq_false_iff.mpr ho)

theorem reference_of_route {text : String} (h : s.route = .reference text) :
    s.reference = some text := by
  have hs := h ▸ s.routed
  cases hs with
  | reference hr => exact hr

theorem enumeration_of_route {listed : List Json} (h : s.route = .enumeration listed) :
    s.reference = none ∧ s.stringEnum? = some listed := by
  have hs := h ▸ s.routed
  cases hs with
  | enumeration hr he => exact ⟨hr, he⟩

theorem array_of_route {clash : Bool} (h : s.route = .array clash) :
    s.IsPlain ∧ s.isArray = true ∧ clash = s.dictionary?.isSome := by
  have hs := h ▸ s.routed
  cases hs with
  | array hp ha => exact ⟨hp, ha, rfl⟩

theorem dictionary_of_route {value : Option Schema} (h : s.route = .dictionary value) :
    s.IsPlain ∧ s.isArray = false ∧ s.dictionary? = some value := by
  have hs := h ▸ s.routed
  cases hs with
  | dictionary hp ha hd => exact ⟨hp, ha, hd⟩

theorem scalar_of_route (h : s.route = .scalar) :
    s.IsPlain ∧ s.isArray = false ∧ s.marksDictionary = false ∧ s.hasObjectStructure = false := by
  have hs := h ▸ s.routed
  cases hs with
  | scalar hp ha hm ho => exact ⟨hp, ha, hm, ho⟩

/-- A schema takes the composite route exactly if it declares an object type of its own. -/
theorem route_eq_composite_iff : s.route = .composite ↔ s.isComposite = true := by
  constructor
  · intro h
    have hs := h ▸ s.routed
    cases hs with
    | composite hs => exact hs
  · intro h
    obtain ⟨hp, ha, hm, ho⟩ := isComposite_iff.mp h
    obtain ⟨hadditional, hd⟩ := marksDictionary_eq_false_iff.mp hm
    rw [hp.route_eq hadditional, hd]
    simp [ha, ho]

end ApiModel.Schema
