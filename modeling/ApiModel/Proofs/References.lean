import ApiModel.Grammars
import ApiModel.Proofs.Answers

/-! # References and pointers

A reference takes the name of a definition as it is, and a pointer escapes it. So the text of a
pointer to a definition is a reference to the definition as long as nothing in the name has to be
escaped. Otherwise it is a reference to a definition of another name.
-/

namespace ApiModel

namespace Pointer

theorem length_le_flatMap_escapedChar (cs : List Char) :
    cs.length ≤ (cs.flatMap escapedChar).length := by
  have hpos : ∀ c, 1 ≤ (escapedChar c).length := fun c => by unfold escapedChar; split_ifs <;> simp
  induction cs with
  | nil => exact Nat.zero_le _
  | cons c cs ih =>
    have hc := hpos c
    simp only [List.flatMap_cons, List.length_append, List.length_cons]
    omega

def IsPlain (name : String) : Prop := '~' ∉ name.toList ∧ '/' ∉ name.toList

instance (name : String) : Decidable (IsPlain name) := inferInstanceAs (Decidable (_ ∧ _))

theorem escaped_eq_self {name : String} : escaped name = name ↔ IsPlain name := by
  suffices h : ∀ cs : List Char, cs.flatMap escapedChar = cs ↔ '~' ∉ cs ∧ '/' ∉ cs by
    rw [← String.toList_inj, escaped, String.toList_ofList]
    exact h _
  intro cs
  induction cs with
  | nil => simp
  | cons c cs ih =>
    have hlength := length_le_flatMap_escapedChar cs
    have hlonger (d : Char) : d :: cs.flatMap escapedChar ≠ cs := fun h => by
      have := congrArg List.length h
      simp only [List.length_cons] at this
      omega
    simp only [List.flatMap_cons, escapedChar, List.mem_cons, not_or]
    split_ifs with ht hs
    · subst ht
      simp [hlonger]
    · subst hs
      simp
    · simp [ih, Ne.symm ht, Ne.symm hs]

theorem text_definition (name : String) :
    (definition name).text = Reference.text ⟨.definitions, escaped name⟩ := by
  have hsection : escaped "definitions" = "definitions" := escaped_eq_self.mpr (by decide)
  simp [text, definition, hsection, String.join, Reference.text, Reference.sectionText,
    ← String.append_assoc]

theorem isName_escaped {name : String} (h : Reference.isName name.toList = true) :
    Reference.isName (escaped name).toList = true := by
  have hfeed {c : Char} (hc : '\n' ∈ escapedChar c) : c = '\n' := by
    unfold escapedChar at hc
    split_ifs at hc
    · simp at hc
    · simp at hc
    · exact (List.mem_singleton.mp hc).symm
  have hlength := length_le_flatMap_escapedChar name.toList
  simp only [Reference.isName, Bool.and_eq_true, Bool.not_eq_true', List.isEmpty_eq_false_iff,
    List.contains_eq_mem, decide_eq_false_iff_not, escaped, String.toList_ofList] at h ⊢
  obtain ⟨hsome, hnofeed⟩ := h
  constructor
  · intro hempty
    rw [hempty] at hlength
    exact hsome (List.eq_nil_of_length_eq_zero (Nat.le_zero.mp hlength))
  · intro hm
    obtain ⟨c, hc, hm⟩ := List.mem_flatMap.mp hm
    rw [hfeed hm] at hc
    exact hnofeed hc

theorem parse?_text_definition {name : String} (h : Reference.isName name.toList = true) :
    Reference.parse? (definition name).text = some ⟨.definitions, escaped name⟩ :=
  Reference.parse?_eq_some.mpr ⟨text_definition name, isName_escaped h⟩

end Pointer

namespace Resolution

variable {context : Context} {name canonical : String} {schema : Schema}

/-- Where a definition is resolved from makes no difference to it. -/
theorem resolveDefinition_eq_resolveTop (r : Resolver) (pointer : Pointer) (owner : String)
    (hd : context.document.definition? name = some (canonical, schema)) :
    resolveDefinition context r name pointer owner = resolveTop context r name := by
  simp only [resolveTop, resolveDefinition, hd]

end Resolution

open Resolution

/-- The pointer to a definition, taken as a reference, is one to the definition whose name is the
escaped name. If nothing had to be escaped, any schema with this reference is resolved as the
definition itself is, and then it is decided what has become of the definition. -/
theorem pointer_refers (context : Context) {name : String}
    (hname : Reference.isName name.toList = true) :
    Reference.parse? (Pointer.definition name).text =
        some ⟨.definitions, Pointer.escaped name⟩ ∧
      (Pointer.escaped name = name ↔ Pointer.IsPlain name) ∧
      (Pointer.IsPlain name → name ∈ Fields.keys context.document.definitions →
        ∀ site : Site, site.schema.reference = some (Pointer.definition name).text →
          (∀ s, resolveSite context site s =
            resolveTop context (resolveSite context) name s) ∧
          ∀ s, Idle context s → ∃ type t,
            resolveSite context site s = some (type, t) ∧ Decided t name type) := by
  have hparse := Pointer.parse?_text_definition hname
  refine ⟨hparse, Pointer.escaped_eq_self, ?_⟩
  intro hplain hm site hr
  rw [Pointer.escaped_eq_self.mpr hplain] at hparse
  obtain ⟨schema, hget⟩ := Option.isSome_iff_exists.mp (Fields.get?_isSome_iff.mpr hm)
  have hd := Scene.definition?_of_get? hget
  have heq : resolveSite context site =
      resolveDefinition context (resolveSite context) name site.pointer site.owner :=
    resolveSite_reference hr hparse
  constructor
  · intro s
    rw [heq, resolveDefinition_eq_resolveTop _ _ _ hd]
  · intro s hs
    obtain ⟨type, t, ht, -⟩ := hs.site site
    have hdefinition := ht
    rw [heq] at hdefinition
    exact ⟨type, t, ht, hs.decided hd hdefinition⟩

def chair : Document where
  definitions := [
    ("seat", { typeName := some "array", items := some (.typed "string" none) }),
    ("legs/front", .typed "string" none)]

theorem pointer_refers_seat :
    Reference.isName "seat".toList = true ∧ Pointer.IsPlain "seat" ∧
      "seat" ∈ Fields.keys chair.definitions ∧
      Reference.parse? (Pointer.definition "seat").text = some ⟨.definitions, "seat"⟩ ∧
      ∃ type t, resolveSite ⟨chair, {}⟩
          ⟨{ reference := some "#/definitions/seat" }, "Seat", ⟨[]⟩, "Seat"⟩ {} = some (type, t) ∧
        Decided t "seat" type := by
  have hname : Reference.isName "seat".toList = true := by decide
  have hplain : Pointer.IsPlain "seat" := by decide
  have hm : "seat" ∈ Fields.keys chair.definitions := by decide
  have htext : (Pointer.definition "seat").text = "#/definitions/seat" := by decide
  obtain ⟨hparse, hescaped, hresolves⟩ := pointer_refers ⟨chair, {}⟩ hname
  obtain ⟨-, hdecides⟩ := hresolves hplain hm
    ⟨{ reference := some "#/definitions/seat" }, "Seat", ⟨[]⟩, "Seat"⟩ (by rw [htext])
  rw [hescaped.mpr hplain] at hparse
  exact ⟨hname, hplain, hm, hparse, hdecides {} (idle_empty _)⟩

/-- The pointer to a definition with a slash in its name is no reference to it: the schema that
has it is refused, although the definition has a type. -/
theorem slash_escaped_in_pointer :
    Reference.isName "legs/front".toList = true ∧
      "legs/front" ∈ Fields.keys chair.definitions ∧
      Reference.parse? (Pointer.definition "legs/front").text =
        some ⟨.definitions, "legs~1front"⟩ ∧
      (resolveTop ⟨chair, {}⟩ (resolveSite ⟨chair, {}⟩) "legs/front" {}).map Prod.fst =
        some (some (.scalar .string)) ∧
      (resolveSchema ⟨chair, {}⟩ { reference := some (Pointer.definition "legs/front").text }
        "Leg" {}).map (fun p => p.1.toOption) = some none :=
  ⟨by decide, by decide, by decide, by decide +kernel, by decide +kernel⟩

end ApiModel
