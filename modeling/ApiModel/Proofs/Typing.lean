import ApiModel.Proofs.Keywords

/-! # Types of schemas

What type a schema has at its site, given the types of the definitions. A reference has the type of
the definition it names, an object type is known by its name and its place alone, so a type is
found without going round in a cyclic document.
-/

namespace ApiModel

open Text (caseKey)

namespace ModelType

def endsInEnum : ModelType → Bool
  | .enum _ => true
  | .sequence element => element.endsInEnum
  | .dictionary value => value.endsInEnum
  | _ => false

/-- Every index in the type is in use. -/
def Within (c : Catalog) : ModelType → Prop
  | .scalar _ => True
  | .enum id => id.index < c.enums.length
  | .sequence element => element.Within c
  | .dictionary value => value.Within c
  | .composite id => id.index < c.composites.length

theorem Within.mono {c d : Catalog} (h : c.Grows d) {type : ModelType} (hw : type.Within c) :
    type.Within d := by
  induction type with
  | scalar kind => trivial
  | enum id => exact h.enum_index_lt hw
  | sequence element ih => exact ih hw
  | dictionary value ih => exact ih hw
  | composite id => exact h.index_lt hw

end ModelType

/-- An enum is named and closed exactly if there is an extension to say so. -/
def EnumType.Follows (e : EnumType) : Option Json → Prop
  | none => e.name = none ∧ e.expandable = true
  | some extension => e.expandable = false ∧ ∃ given, e.name = some given ∧
      caseKey given = caseKey (Resolution.Enumeration.nameOf extension)

def Site.inside (site : Site) (s : Schema) (name segment : String) : Site :=
  ⟨s, Naming.nested site.name name, site.pointer.child segment, site.owner⟩

namespace Resolution

theorem wires_of_valuesFrom {pointer : Pointer} {listed : List Json}
    {before values : List EnumValue}
    (h : Enumeration.valuesFrom pointer before listed = .ok values) :
    values.map (fun v => Json.str v.wire) = before.map (fun v => Json.str v.wire) ++ listed := by
  induction listed generalizing before with
  | nil =>
    cases h
    simp
  | cons value rest ih =>
    cases value with
    | str wire =>
      unfold Enumeration.valuesFrom at h
      split at h
      · cases h
      · simp [ih h, Enumeration.addValue]
    | _ => cases h

/-- The type that a schema has at its site, the rules in the order in which they apply. -/
inductive HasType (context : Context) (c : Catalog) (types : String → Option ModelType) :
    Site → ModelType → Prop where
  | reference {site : Site} {text name canonical : String} {s : Schema} {type : ModelType}
      (hr : site.schema.reference = some text)
      (hp : Reference.parse? text = some ⟨.definitions, name⟩)
      (hd : context.document.definition? name = some (canonical, s))
      (ht : types canonical = some type) :
      HasType context c types site type
  | enum {site : Site} {listed : List Json} {id : EnumId} {e : EnumType}
      (hr : site.schema.reference = none) (hl : site.schema.stringEnum? = some listed)
      (he : c.enum? id = some e) (hw : e.values.map (fun v => Json.str v.wire) = listed)
      (hx : e.Follows (site.schema.extension? context.settings.enumExtension)) :
      HasType context c types site (.enum id)
  | sequence {site : Site} {items : Schema} {element : ModelType}
      (hp : site.schema.IsPlain) (ha : site.schema.isArray = true)
      (hi : site.schema.items = some items)
      (ht : HasType context c types (site.inside items "Item" "items") element) :
      HasType context c types site (.sequence element)
  | anything {site : Site}
      (hp : site.schema.IsPlain) (ha : site.schema.isArray = false)
      (hd : site.schema.dictionary? = some none) :
      HasType context c types site (.dictionary (.scalar .object))
  | dictionary {site : Site} {s : Schema} {value : ModelType}
      (hp : site.schema.IsPlain) (ha : site.schema.isArray = false)
      (hd : site.schema.dictionary? = some (some s))
      (ht : HasType context c types (site.inside s "Value" "additionalProperties") value) :
      HasType context c types site (.dictionary value)
  | composite {site : Site} {id : CompositeId} {composite : Composite}
      (hs : site.schema.isComposite = true) (hc : c.composite? id = some composite)
      (hn : caseKey composite.name = caseKey site.name)
      (ho : composite.origin = site.pointer.text) :
      HasType context c types site (.composite id)
  | scalar {site : Site} {kind : Scalar}
      (hp : site.schema.IsPlain) (ha : site.schema.isArray = false)
      (hm : site.schema.marksDictionary = false) (ho : site.schema.hasObjectStructure = false)
      (hk : scalarOf? context.settings site.schema = some kind) :
      HasType context c types site (.scalar kind)

namespace HasType

variable {context : Context} {c d : Catalog} {types types' : String → Option ModelType}
  {site : Site} {type type' : ModelType}

theorem mono (hc : c.Grows d) (ht : ∀ {name type}, types name = some type →
    types' name = some type) (h : HasType context c types site type) :
    HasType context d types' site type := by
  induction h with
  | reference hr hp hd hn => exact .reference hr hp hd (ht hn)
  | enum hr hl he hw hx => exact .enum hr hl (hc.enums he) hw hx
  | sequence hp ha hi _ ih => exact .sequence hp ha hi ih
  | anything hp ha hd => exact .anything hp ha hd
  | dictionary hp ha hd _ ih => exact .dictionary hp ha hd ih
  | composite hs hi hn ho =>
    obtain ⟨later, hl, hn', ho'⟩ := hc.composites hi
    exact .composite hs hl (by rw [hn', hn]) (by rw [ho', ho])
  | scalar hp ha hm ho hk => exact .scalar hp ha hm ho hk

theorem within (ht : ∀ {name type}, types name = some type → type.Within c)
    (h : HasType context c types site type) : type.Within c := by
  induction h with
  | reference _ _ _ hn => exact ht hn
  | enum _ _ he _ _ => exact Catalog.enum_index_lt he
  | sequence _ _ _ _ ih => exact ih
  | anything _ _ _ => trivial
  | dictionary _ _ _ _ ih => exact ih
  | composite _ hc _ _ => exact Catalog.index_lt hc
  | scalar _ _ _ _ _ => trivial

theorem exists_composite (hs : site.schema.isComposite = true)
    (h : HasType context c types site type) : ∃ id composite, type = .composite id ∧
      c.composite? id = some composite ∧ caseKey composite.name = caseKey site.name ∧
        composite.origin = site.pointer.text := by
  obtain ⟨hp, ha, hm, ho⟩ := Schema.isComposite_iff.mp hs
  cases h with
  | reference hr => cases hr.symm.trans hp.reference
  | enum _ hl => cases hl.symm.trans hp.stringEnum
  | sequence _ ha' => cases ha.symm.trans ha'
  | anything _ _ hd | dictionary _ _ hd =>
    cases hm.symm.trans (Schema.marksDictionary_of_dictionary hd)
  | composite _ hc hn ho => exact ⟨_, _, rfl, hc, hn, ho⟩
  | scalar _ _ _ ho' => cases ho.symm.trans ho'

theorem exists_enum (hr : site.schema.reference = none) {listed : List Json}
    (he : site.schema.enumeration = some listed)
    (hn : site.schema.typeName = none ∨ site.schema.typeName = some "string")
    (h : HasType context c types site type) : ∃ id e, type = .enum id ∧ c.enum? id = some e ∧
      e.values.map (fun v => Json.str v.wire) = listed ∧
      e.Follows (site.schema.extension? context.settings.enumExtension) := by
  have hl := Schema.stringEnum?_eq_some_iff.mpr ⟨he, hn⟩
  cases h with
  | reference hr' => cases hr.symm.trans hr'
  | @enum _ listed' id e _ hl' he hw hx =>
    obtain rfl := Option.some.inj (hl.symm.trans hl')
    exact ⟨id, e, rfl, he, hw, hx⟩
  | composite hs => cases hl.symm.trans (Schema.isComposite_iff.mp hs).1.stringEnum
  | sequence hp | anything hp | dictionary hp | scalar hp => cases hl.symm.trans hp.stringEnum

theorem exists_scalar (hp : site.schema.IsPlain) (ha : site.schema.isArray = false)
    (hm : site.schema.marksDictionary = false) (ho : site.schema.hasObjectStructure = false)
    (h : HasType context c types site type) : ∃ kind, type = .scalar kind ∧
      ((site.schema.typeName, site.schema.format, kind) ∈ Scalar.table ∨
        context.settings.allowUnknownFormats = true ∧ site.schema.typeName ≠ none ∧
          (site.schema.typeName, none, kind) ∈ Scalar.table ∧
          ∀ other, (site.schema.typeName, site.schema.format, other) ∉ Scalar.table) := by
  cases h with
  | reference hr => cases hr.symm.trans hp.reference
  | enum _ hl => cases hl.symm.trans hp.stringEnum
  | sequence _ ha' => cases ha.symm.trans ha'
  | anything _ _ hd | dictionary _ _ hd =>
    cases hm.symm.trans (Schema.marksDictionary_of_dictionary hd)
  | composite hs => cases ho.symm.trans (Schema.isComposite_iff.mp hs).2.2.2
  | scalar _ _ _ _ hk => exact ⟨_, rfl, scalarOf?_eq_some_iff.mp hk⟩

/-- A schema has one type, but for enums that are made anew wherever they are met. -/
theorem agree (hk : c.Keyed) (h : HasType context c types site type)
    (h' : HasType context c types site type') :
    type = type' ∨ type.endsInEnum = true ∧ type'.endsInEnum = true := by
  induction h generalizing type' with
  | reference hr hp hd hn =>
    cases h' with
    | reference hr' hp' hd' hn' =>
      cases hr.symm.trans hr'
      cases hp.symm.trans hp'
      cases hd.symm.trans hd'
      exact .inl (Option.some.inj (hn.symm.trans hn'))
    | enum hr' => cases hr.symm.trans hr'
    | composite hs => cases hr.symm.trans (Schema.isComposite_iff.mp hs).1.reference
    | sequence hp' | anything hp' | dictionary hp' | scalar hp' => cases hr.symm.trans hp'.reference
  | enum hr hl =>
    cases h' with
    | reference hr' => cases hr.symm.trans hr'
    | enum => exact .inr ⟨rfl, rfl⟩
    | composite hs => cases hl.symm.trans (Schema.isComposite_iff.mp hs).1.stringEnum
    | sequence hp' | anything hp' | dictionary hp' | scalar hp' =>
      cases hl.symm.trans hp'.stringEnum
  | sequence hp ha hi _ ih =>
    cases h' with
    | reference hr' => cases hr'.symm.trans hp.reference
    | enum _ hl' => cases hl'.symm.trans hp.stringEnum
    | sequence _ _ hi' ht' =>
      obtain rfl := Option.some.inj (hi.symm.trans hi')
      exact (ih ht').imp_left (congrArg _)
    | composite hs => cases ha.symm.trans (Schema.isComposite_iff.mp hs).2.1
    | anything _ ha' | dictionary _ ha' | scalar _ ha' => cases ha.symm.trans ha'
  | anything hp ha hd =>
    have hm := Schema.marksDictionary_of_dictionary hd
    cases h' with
    | reference hr' => cases hr'.symm.trans hp.reference
    | enum _ hl' => cases hl'.symm.trans hp.stringEnum
    | sequence _ ha' => cases ha.symm.trans ha'
    | anything => exact .inl rfl
    | dictionary _ _ hd' => cases hd.symm.trans hd'
    | composite hs => cases hm.symm.trans (Schema.isComposite_iff.mp hs).2.2.1
    | scalar _ _ hm' => cases hm.symm.trans hm'
  | dictionary hp ha hd _ ih =>
    have hm := Schema.marksDictionary_of_dictionary hd
    cases h' with
    | reference hr' => cases hr'.symm.trans hp.reference
    | enum _ hl' => cases hl'.symm.trans hp.stringEnum
    | sequence _ ha' => cases ha.symm.trans ha'
    | anything _ _ hd' => cases hd.symm.trans hd'
    | dictionary _ _ hd' ht' =>
      obtain rfl := Option.some.inj (Option.some.inj (hd.symm.trans hd'))
      exact (ih ht').imp_left (congrArg _)
    | composite hs => cases hm.symm.trans (Schema.isComposite_iff.mp hs).2.2.1
    | scalar _ _ hm' => cases hm.symm.trans hm'
  | composite hs hc hn ho =>
    obtain ⟨other, composite, rfl, hc', hn', -⟩ := h'.exists_composite hs
    exact .inl (congrArg _ (hk.id_eq hc hc' (hn.trans hn'.symm)))
  | scalar hp ha hm ho hk' =>
    cases h' with
    | reference hr' => cases hr'.symm.trans hp.reference
    | enum _ hl' => cases hl'.symm.trans hp.stringEnum
    | sequence _ ha' => cases ha.symm.trans ha'
    | anything _ _ hd' | dictionary _ _ hd' =>
      cases hm.symm.trans (Schema.marksDictionary_of_dictionary hd')
    | composite hs => cases ho.symm.trans (Schema.isComposite_iff.mp hs).2.2.2
    | scalar _ _ _ _ hk => exact .inl (congrArg _ (Option.some.inj (hk'.symm.trans hk)))

end HasType

end Resolution

end ApiModel
