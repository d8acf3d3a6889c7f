import ApiModel.Proofs.Occurrences
import ApiModel.Proofs.Failures
import ApiModel.Proofs.Overrides

/-! # Shapes

The shape of a schema is its type with composites told by name and origin and enums by key or
origin, instead of by their indices in a catalog. It depends on nothing but the document, so it is
what two resolutions in different orders have in common. A type denotes a shape in a catalog.
-/

namespace ApiModel

open Text (caseKey)
open Resolution
open Relation (TransGen)

/-- A type without indices. -/
inductive Shape where
  | scalar (kind : Scalar)
  /-- An enum that is found under a case key. -/
  | named (key : String) (values : List EnumValue)
  | anonymous (origin : String) (values : List EnumValue)
  | sequence (element : Shape)
  | dictionary (value : Shape)
  | composite (name origin : String)

/-- The shape with enums told by their values alone. -/
def Shape.bare : Shape → Shape
  | named _ values | anonymous _ values => anonymous "" values
  | sequence element => sequence element.bare
  | dictionary value => dictionary value.bare
  | scalar kind => scalar kind
  | composite name origin => composite name origin

/-- The shape of a schema at its site. A schema has none if it is malformed, or if going on from it
never comes to an end. -/
inductive Shaped (context : Context) : Site → Shape → Prop where
  | reference {site : Site} {text name canonical : String} {s : Schema} {shape : Shape}
      (hr : site.schema.route = .reference text)
      (hp : Reference.parse? text = some ⟨.definitions, name⟩)
      (hd : context.document.definition? name = some (canonical, s))
      (h : Shaped context (definitionSite canonical s) shape) : Shaped context site shape
  | anonymous {site : Site} {listed : List Json} {values : List EnumValue}
      (hr : site.schema.route = .enumeration listed)
      (hv : Enumeration.valuesFrom site.pointer [] listed = .ok values)
      (hx : site.schema.extension? context.settings.enumExtension = none) :
      Shaped context site (.anonymous site.pointer.text values)
  | named {site : Site} {listed : List Json} {values : List EnumValue} {extension : Json}
      (hr : site.schema.route = .enumeration listed)
      (hv : Enumeration.valuesFrom site.pointer [] listed = .ok values)
      (hx : site.schema.extension? context.settings.enumExtension = some extension)
      (hb : Text.isBlankText (Enumeration.nameOf extension) = false) :
      Shaped context site (.named (caseKey (Enumeration.nameOf extension)) values)
  | sequence {site : Site} {items : Schema} {element : Shape}
      (hr : site.schema.route = .array false) (hi : site.schema.items = some items)
      (h : Shaped context (site.inside items "Item" "items") element) :
      Shaped context site (.sequence element)
  | anything {site : Site} (hr : site.schema.route = .dictionary none) :
      Shaped context site (.dictionary (.scalar .object))
  | dictionary {site : Site} {s : Schema} {value : Shape}
      (hr : site.schema.route = .dictionary (some s))
      (h : Shaped context (site.inside s "Value" "additionalProperties") value) :
      Shaped context site (.dictionary value)
  | composite {site : Site} (hr : site.schema.route = .composite) :
      Shaped context site (.composite site.name site.pointer.text)
  | scalar {site : Site} {kind : Scalar} (hr : site.schema.route = .scalar)
      (hk : scalarOf? context.settings site.schema = some kind) :
      Shaped context site (.scalar kind)

namespace Shaped

variable {context : Context} {site : Site} {a b : Shape}

theorem unique (h : Shaped context site a) (h' : Shaped context site b) : a = b := by
  induction h generalizing b with
  | reference hr hp hd _ ih =>
    cases h' with
    | reference hr' hp' hd' h' =>
      cases hr.symm.trans hr'
      cases hp.symm.trans hp'
      cases hd.symm.trans hd'
      exact ih h'
    | _ hr' => cases hr.symm.trans hr'
  | anonymous hr hv hx =>
    cases h' with
    | anonymous hr' hv' =>
      cases hr.symm.trans hr'
      cases hv.symm.trans hv'
      rfl
    | named _ _ hx' => cases hx.symm.trans hx'
    | _ hr' => cases hr.symm.trans hr'
  | named hr hv hx hb =>
    cases h' with
    | anonymous _ _ hx' => cases hx.symm.trans hx'
    | named hr' hv' hx' =>
      cases hr.symm.trans hr'
      cases hv.symm.trans hv'
      cases hx.symm.trans hx'
      rfl
    | _ hr' => cases hr.symm.trans hr'
  | sequence hr hi _ ih =>
    cases h' with
    | sequence _ hi' h' =>
      cases hi.symm.trans hi'
      rw [ih h']
    | _ hr' => cases hr.symm.trans hr'
  | anything hr =>
    cases h' with
    | anything => rfl
    | _ hr' => cases hr.symm.trans hr'
  | dictionary hr _ ih =>
    cases h' with
    | dictionary hr' h' =>
      cases hr.symm.trans hr'
      rw [ih h']
    | _ hr' => cases hr.symm.trans hr'
  | composite hr =>
    cases h' with
    | composite => rfl
    | _ hr' => cases hr.symm.trans hr'
  | scalar hr hk =>
    cases h' with
    | scalar _ hk' =>
      cases hk.symm.trans hk'
      rfl
    | _ hr' => cases hr.symm.trans hr'

theorem eq_of_composite (h : Shaped context site a) (hs : site.schema.isComposite = true) :
    a = .composite site.name site.pointer.text :=
  h.unique (.composite (Schema.route_eq_composite_iff.mpr hs))

theorem not_round (h : Shaped context site a) :
    ¬ TransGen (fun x y => Site.next? context.document x = some y) site site := by
  have hstep : ∀ {x y : Site}, x.next? context.document = some y →
      TransGen (fun x y => Site.next? context.document x = some y) x x →
      TransGen (fun x y => Site.next? context.document x = some y) y y := by
    intro x y hx hround
    obtain ⟨z, hz, hback⟩ := TransGen.head'_iff.mp hround
    obtain rfl := Option.some.inj (hx.symm.trans hz)
    exact TransGen.tail' hback hx
  have hend : ∀ {x : Site}, x.next? context.document = none →
      ¬ TransGen (fun x y => Site.next? context.document x = some y) x x := by
    intro x hx hround
    obtain ⟨z, hz, -⟩ := TransGen.head'_iff.mp hround
    exact nomatch hx.symm.trans hz
  induction h with
  | reference hr hp hd _ ih =>
    refine fun hround => ih (hstep ?_ hround)
    rw [Site.next?_reference (Schema.reference_of_route hr) hp, hd]
    rfl
  | sequence hr hi _ ih => exact fun hround => ih (hstep (Site.next?_array hr hi) hround)
  | dictionary hr _ ih => exact fun hround => ih (hstep (Site.next?_dictionary hr) hround)
  | anonymous hr | named hr | anything hr | composite hr | scalar hr =>
    exact hend (by simp [Site.next?, hr])

end Shaped

inductive Denotes (c : Catalog) : ModelType → Shape → Prop where
  | scalar (kind : Scalar) : Denotes c (.scalar kind) (.scalar kind)
  | named {id : EnumId} {e : EnumType} {given : String} (he : c.enum? id = some e)
      (hn : e.name = some given) : Denotes c (.enum id) (.named (caseKey given) e.values)
  | anonymous {id : EnumId} {e : EnumType} (he : c.enum? id = some e) (hn : e.name = none) :
      Denotes c (.enum id) (.anonymous e.origin e.values)
  | sequence {type : ModelType} {shape : Shape} (h : Denotes c type shape) :
      Denotes c (.sequence type) (.sequence shape)
  | dictionary {type : ModelType} {shape : Shape} (h : Denotes c type shape) :
      Denotes c (.dictionary type) (.dictionary shape)
  | composite {id : CompositeId} {composite : Composite} (hc : c.composite? id = some composite) :
      Denotes c (.composite id) (.composite composite.name composite.origin)

namespace Denotes

variable {c d : Catalog} {type other : ModelType} {a b : Shape}

theorem mono (h : Denotes c type a) (hg : c.Grows d) : Denotes d type a := by
  induction h with
  | scalar kind => exact .scalar kind
  | named he hn => exact .named (hg.enums he) hn
  | anonymous he hn => exact .anonymous (hg.enums he) hn
  | sequence _ ih => exact .sequence ih
  | dictionary _ ih => exact .dictionary ih
  | composite hc =>
    obtain ⟨later, hl, hn, ho⟩ := hg.composites hc
    rw [← hn, ← ho]
    exact .composite hl

theorem shape_unique (h : Denotes c type a) (h' : Denotes c type b) : a = b := by
  induction h generalizing b with
  | scalar => cases h'; rfl
  | named he hn =>
    cases h' with
    | named he' hn' =>
      cases he.symm.trans he'
      cases hn.symm.trans hn'
      rfl
    | anonymous he' hn' =>
      cases he.symm.trans he'
      cases hn.symm.trans hn'
  | anonymous he hn =>
    cases h' with
    | named he' hn' =>
      cases he.symm.trans he'
      cases hn.symm.trans hn'
    | anonymous he' =>
      cases he.symm.trans he'
      rfl
  | sequence _ ih => cases h' with | sequence h' => rw [ih h']
  | dictionary _ ih => cases h' with | dictionary h' => rw [ih h']
  | composite hc =>
    cases h' with
    | composite hc' =>
      cases hc.symm.trans hc'
      rfl

theorem exists_composite {name origin : String} (h : Denotes c type (.composite name origin)) :
    ∃ id composite, type = .composite id ∧ c.composite? id = some composite ∧
      composite.name = name ∧ composite.origin = origin := by
  cases h with
  | composite hc => exact ⟨_, _, rfl, hc, rfl, rfl⟩

theorem exists_named {key : String} {values : List EnumValue}
    (h : Denotes c type (.named key values)) : ∃ id e given, type = .enum id ∧
      c.enum? id = some e ∧ e.name = some given ∧ caseKey given = key ∧ e.values = values := by
  cases h with
  | named he hn => exact ⟨_, _, _, rfl, he, hn, rfl, rfl⟩

theorem exists_anonymous {origin : String} {values : List EnumValue}
    (h : Denotes c type (.anonymous origin values)) : ∃ id e, type = .enum id ∧
      c.enum? id = some e ∧ e.name = none ∧ e.origin = origin ∧ e.values = values := by
  cases h with
  | anonymous he hn => exact ⟨_, _, rfl, he, hn, rfl, rfl⟩

theorem within (h : Denotes c type a) : type.Within c := by
  induction h with
  | scalar => trivial
  | named he | anonymous he => exact Catalog.enum_index_lt he
  | sequence _ ih | dictionary _ ih => exact ih
  | composite hc => exact Catalog.index_lt hc

/-- Types are compatible if their shapes differ in nothing but the names and origins of enums. -/
theorem compatible_iff (hk : c.Keyed) (h : Denotes c type a) (h' : Denotes c other b) :
    c.compatible type other = true ↔ a.bare = b.bare := by
  rw [Catalog.compatible_iff h.within h'.within]
  constructor
  · intro hc
    induction hc generalizing a b with
    | scalar => rw [h.shape_unique h']
    | enum hx hy hv =>
      cases h with
      | named he | anonymous he =>
        cases hx.symm.trans he
        cases h' with
        | named he' | anonymous he' =>
          cases hy.symm.trans he'
          exact congrArg (Shape.anonymous "") hv
    | composite => rw [h.shape_unique h']
    | sequence _ ih =>
      cases h with
      | sequence h =>
        cases h' with
        | sequence h' => exact congrArg Shape.sequence (ih h h')
    | dictionary _ ih =>
      cases h with
      | dictionary h =>
        cases h' with
        | dictionary h' => exact congrArg Shape.dictionary (ih h h')
  · intro hs
    induction h generalizing other b with
    | scalar kind =>
      cases h' with
      | scalar kind' =>
        cases hs
        exact .scalar kind
      | _ => cases hs
    | named he | anonymous he =>
      cases h' with
      | named he' | anonymous he' => exact .enum he he' (Shape.anonymous.inj hs).2
      | _ => cases hs
    | sequence _ ih =>
      cases h' with
      | sequence h' => exact .sequence (ih h' (Shape.sequence.inj hs))
      | _ => cases hs
    | dictionary _ ih =>
      cases h' with
      | dictionary h' => exact .dictionary (ih h' (Shape.dictionary.inj hs))
      | _ => cases hs
    | composite hc =>
      cases h' with
      | composite hc' =>
        rw [hk.id_eq hc hc' (congrArg caseKey (Shape.composite.inj hs).1)]
        exact .composite _
      | _ => cases hs

end Denotes

namespace Catalog

theorem EnumsKeyed.named_unique {c : Catalog} (h : c.EnumsKeyed) {type other : ModelType}
    {key : String} {values values' : List EnumValue} (hx : Denotes c type (.named key values))
    (hy : Denotes c other (.named key values')) : type = other ∧ values = values' := by
  obtain ⟨i, e, given, rfl, he, hn, hk, rfl⟩ := hx.exists_named
  obtain ⟨j, e', given', rfl, he', hn', hk', rfl⟩ := hy.exists_named
  obtain rfl := h.id_eq he he' hn hn' (hk.trans hk'.symm)
  cases he.symm.trans he'
  exact ⟨rfl, rfl⟩

def OriginsOnce (c : Catalog) : Prop :=
  ∀ {i j : EnumId} {x y : EnumType}, c.enum? i = some x → c.enum? j = some y → x.name = none →
    y.name = none → x.origin = y.origin → i = j

theorem OriginsOnce.type_unique {c : Catalog} (ho : c.OriginsOnce) (hk : c.Keyed)
    (he : c.EnumsKeyed) {type other : ModelType} {shape : Shape} (h : Denotes c type shape)
    (h' : Denotes c other shape) : type = other := by
  induction h generalizing other with
  | scalar =>
    cases h'
    rfl
  | named hx hn => exact (he.named_unique (.named hx hn) h').1
  | anonymous hx hn =>
    obtain ⟨j, y, rfl, hy, hn', horigin, -⟩ := h'.exists_anonymous
    rw [ho hx hy hn hn' horigin.symm]
  | sequence _ ih =>
    cases h' with
    | sequence h' => rw [ih h']
  | dictionary _ ih =>
    cases h' with
    | dictionary h' => rw [ih h']
  | composite hx =>
    obtain ⟨j, y, rfl, hy, hname, -⟩ := h'.exists_composite
    rw [hk.id_eq hx hy (congrArg caseKey hname.symm)]

end Catalog

end ApiModel
