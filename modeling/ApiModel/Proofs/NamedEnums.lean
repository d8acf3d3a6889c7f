import ApiModel.Proofs.Calls

/-! # Named enums

The values of an enum follow from the texts that it lists, so enums are equal where their texts
are. A named one is stored, or found with the same texts, or in conflict with what has been stored
under its name.
-/

namespace ApiModel.Resolution

open Text (caseKey)

namespace Enumeration

variable {pointer : Pointer} {values result : List EnumValue} {listed : List Json}
  {wires wires' : List String}

@[simp] theorem map_wire_addValue (values : List EnumValue) (wire : String) :
    (addValue values wire).map (·.wire) = values.map (·.wire) ++ [wire] := by
  simp [addValue]

def valuesOf (wires : List String) : List EnumValue := wires.foldl addValue []

theorem map_wire_foldl (wires : List String) (values : List EnumValue) :
    (wires.foldl addValue values).map (·.wire) = values.map (·.wire) ++ wires := by
  induction wires generalizing values with
  | nil => simp
  | cons wire rest ih => simp [ih]

theorem map_wire_valuesOf (wires : List String) : (valuesOf wires).map (·.wire) = wires :=
  map_wire_foldl wires []

theorem valuesOf_inj : valuesOf wires = valuesOf wires' ↔ wires = wires' := by
  constructor
  · intro h
    rw [← map_wire_valuesOf wires, h, map_wire_valuesOf]
  · rintro rfl
    rfl

theorem valuesFrom_texts (h : (values.map (·.wire) ++ wires).Nodup) :
    valuesFrom pointer values (wires.map .str) = .ok (wires.foldl addValue values) := by
  induction wires generalizing values with
  | nil => rfl
  | cons wire rest ih =>
    have hnew : wire ∉ values.map (·.wire) := by
      intro hm
      exact (List.nodup_append.mp h).2.2 wire hm wire (List.mem_cons_self ..) rfl
    have hany : values.any (·.wire == wire) = false := by
      simpa [List.any_eq_false] using hnew
    rw [List.map_cons, valuesFrom, hany, if_neg Bool.false_ne_true]
    exact ih (by simpa using h)

theorem texts_of_valuesFrom (h : valuesFrom pointer values listed = .ok result)
    (hn : (values.map (·.wire)).Nodup) : ∃ wires, listed = wires.map .str ∧
      (values.map (·.wire) ++ wires).Nodup ∧ result = wires.foldl addValue values := by
  induction listed generalizing values with
  | nil =>
    cases h
    exact ⟨[], rfl, by simpa using hn, rfl⟩
  | cons value rest ih =>
    cases value with
    | str wire =>
      rw [valuesFrom] at h
      split at h
      · cases h
      · rename_i hany
        have hnew : wire ∉ values.map (·.wire) := by
          simpa [List.any_eq_true] using hany
        have hn' : ((addValue values wire).map (·.wire)).Nodup := by
          rw [map_wire_addValue, List.nodup_append]
          refine ⟨hn, List.pairwise_singleton _ wire, ?_⟩
          rintro other hother _ hwire rfl
          exact hnew (List.mem_singleton.mp hwire ▸ hother)
        obtain ⟨wires, rfl, hall, rfl⟩ := ih h hn'
        exact ⟨wire :: wires, rfl, by simpa using hall, rfl⟩
    | _ => cases h

theorem valuesFrom_eq_ok_iff : valuesFrom pointer [] listed = .ok result ↔
    ∃ wires, listed = wires.map .str ∧ wires.Nodup ∧ result = valuesOf wires := by
  constructor
  · intro h
    exact texts_of_valuesFrom h List.nodup_nil
  · rintro ⟨wires, rfl, hn, rfl⟩
    exact valuesFrom_texts hn

/-- The name that an extension gives: the extension itself, or its member `name`. -/
inductive Gives : Json → String → Prop where
  | text (name : String) : Gives (.str name) name
  | member {members : List (String × Json)} {name : String}
      (h : Fields.get? members "name" = some (.str name)) : Gives (.obj members) name

theorem Gives.nameOf_eq {extension : Json} {name : String} (h : Gives extension name) :
    nameOf extension = name := by
  cases h with
  | text name => rfl
  | member h => simp only [nameOf, h]

theorem gives_nameOf {extension : Json} (h : Text.isBlankText (nameOf extension) = false) :
    Gives extension (nameOf extension) := by
  have hblank : Text.isBlankText "" = true := rfl
  cases extension with
  | str name => exact .text name
  | obj members =>
    cases hm : Fields.get? members "name" with
    | none => simp [nameOf, hm, hblank] at h
    | some value =>
      cases value with
      | str name => simpa only [nameOf, hm] using Gives.member hm
      | _ => simp [nameOf, hm, hblank] at h
  | _ => simp [nameOf, hblank] at h

end Enumeration

open Enumeration

/-- The schema is an enumeration of texts that all differ. -/
structure ListsTexts (s : Schema) (wires : List String) : Prop where
  reference : s.reference = none
  listed : s.stringEnum? = some (wires.map .str)
  distinct : wires.Nodup

/-- An extension of the schema gives the name for its enum, and it is not blank. -/
structure CarriesName (settings : Settings) (s : Schema) (name : String) : Prop where
  given : ∃ extension, s.extension? settings.enumExtension = some extension ∧
    Gives extension name
  visible : Text.isBlankText name = false

theorem ListsTexts.unique {s : Schema} {wires wires' : List String} (h : ListsTexts s wires)
    (h' : ListsTexts s wires') : wires = wires' := by
  have hinj : Function.Injective Json.str := fun _ _ => Json.str.inj
  exact List.map_injective_iff.mpr hinj (Option.some.inj (h.listed.symm.trans h'.listed))

theorem CarriesName.unique {settings : Settings} {s : Schema} {name name' : String}
    (h : CarriesName settings s name) (h' : CarriesName settings s name') : name = name' := by
  obtain ⟨extension, hx, hg⟩ := h.given
  obtain ⟨extension', hx', hg'⟩ := h'.given
  obtain rfl := Option.some.inj (hx.symm.trans hx')
  exact hg.nameOf_eq.symm.trans hg'.nameOf_eq

/-- What becomes of an enumeration: it lists no texts that all differ, or its name is blank, or it
is stored without a name or with one, or found under its name, or refused for the values that are
found there. -/
inductive Enumerates (settings : Settings) (site : Site) (s : State) :
    Option ModelType → State → Prop where
  | unlisted {d : Defect} (hd : d.kind = .schema) (hl : ∀ wires, ¬ListsTexts site.schema wires) :
      Enumerates settings site s none (report d s).2
  | blank {d : Defect} (hd : d.kind = .schema)
      (hn : site.schema.extension? settings.enumExtension ≠ none)
      (hb : ∀ name, ¬CarriesName settings site.schema name) :
      Enumerates settings site s none (report d s).2
  | unnamed {wires : List String} (h : ListsTexts site.schema wires)
      (hx : site.schema.extension? settings.enumExtension = none) :
      Enumerates settings site s (some (.enum ⟨s.catalog.enums.length⟩))
        (s.withEnum ⟨none, valuesOf wires, true, site.pointer.text⟩)
  | stored {name : String} {wires : List String} (h : ListsTexts site.schema wires)
      (hn : CarriesName settings site.schema name) (hf : s.catalog.findEnum? name = none) :
      Enumerates settings site s (some (.enum ⟨s.catalog.enums.length⟩))
        (s.withNamedEnum name ⟨some name, valuesOf wires, false, site.pointer.text⟩)
  | found {name : String} {wires : List String} {id : EnumId}
      (h : ListsTexts site.schema wires) (hn : CarriesName settings site.schema name)
      (hf : s.catalog.findEnum? name = some id)
      (hv : ∀ old, s.catalog.enum? id = some old → old.values = valuesOf wires) :
      Enumerates settings site s (some (.enum id)) s
  | conflict {name : String} {wires : List String} {id : EnumId} {old : EnumType}
      (h : ListsTexts site.schema wires) (hn : CarriesName settings site.schema name)
      (hf : s.catalog.findEnum? name = some id)
      (ho : s.catalog.enum? id = some old) (hv : old.values ≠ valuesOf wires) :
      Enumerates settings site s none
        (report (.enumConflict (old.name.getD name) old.origin site.pointer.text) s).2

theorem buildEnum_enumerates {settings : Settings} {site : Site} {listed : List Json}
    (hr : site.schema.reference = none) (hl : site.schema.stringEnum? = some listed) (s : State) :
    Enumerates settings site s (buildEnum settings site listed s).1
      (buildEnum settings site listed s).2 := by
  unfold buildEnum
  cases hv : valuesFrom site.pointer [] listed with
  | error fault =>
    refine .unlisted rfl fun wires h => ?_
    obtain rfl := Option.some.inj (hl.symm.trans h.listed)
    cases hv.symm.trans (valuesFrom_texts h.distinct)
  | ok values =>
    obtain ⟨wires, rfl, hn, rfl⟩ := valuesFrom_eq_ok_iff.mp hv
    have hlists : ListsTexts site.schema wires := ⟨hr, hl, hn⟩
    dsimp only
    cases hx : site.schema.extension? settings.enumExtension with
    | none => exact .unnamed hlists hx
    | some extension =>
      dsimp only
      cases hb : Text.isBlankText (nameOf extension) with
      | true =>
        rw [if_pos rfl]
        refine .blank rfl (by simp [hx]) fun name hn => ?_
        obtain ⟨extension', hx', hg⟩ := hn.given
        obtain rfl := Option.some.inj (hx.symm.trans hx')
        rw [hg.nameOf_eq, hn.visible] at hb
        cases hb
      | false =>
        have hnames : CarriesName settings site.schema (nameOf extension) :=
          ⟨⟨extension, hx, gives_nameOf hb⟩, hb⟩
        rw [if_neg Bool.false_ne_true, step_bind]
        obtain ⟨hf, hi⟩ | ⟨id, hf, hv, hi⟩ | ⟨id, old, hf, ho, hv, hi⟩ := internEnum_cases
          ⟨some (nameOf extension), valuesOf wires, false, site.pointer.text⟩ rfl s
        · rw [hi]
          exact .stored hlists hnames hf
        · rw [hi]
          exact .found hlists hnames hf hv
        · rw [hi]
          exact .conflict hlists hnames hf ho hv

end ApiModel.Resolution
