import ApiModel.Proofs.Origins
import ApiModel.Proofs.Reordering
import ApiModel.Proofs.Rereading
import Mathlib.Logic.Relation

/-! # Malformed definitions are isolated

Each keyword of a schema asks for a form. A definition is malformed if a value in it is not of the
form that is asked for, unless the value stands below `additionalProperties` or an extension. This
decides about the definition and about nothing else in the document.
-/

namespace ApiModel

open Json
open Relation (ReflTransGen)

inductive Form where
  | anything
  | text
  | boolean
  | count
  | double
  | schema
  | list (item : Form)
  | record (member : Form)
  | optional (form : Form)

namespace Form

/-- Whether a value is of the right kind, whatever it contains. -/
def admits : Form → Json → Bool
  | anything, _ => true
  | text, .str _ => true
  | boolean, .bool _ => true
  | count, .num (.int n) => 0 ≤ n
  | double, .num _ => true
  | schema, .obj _ => true
  | list _, .arr _ => true
  | record _, .obj _ => true
  | optional _, .null => true
  | optional form, value => form.admits value
  | _, _ => false

def ofFacet : String → Option Form
  | "minimum" | "maximum" | "multipleOf" => some (optional double)
  | "exclusiveMinimum" | "exclusiveMaximum" | "uniqueItems" => some (optional boolean)
  | "minLength" | "maxLength" | "minItems" | "maxItems" => some (optional count)
  | "pattern" => some (optional text)
  | _ => none

/-- The form that a keyword asks for. Nothing is asked of `additionalProperties`, of extensions
and of members that are no keywords. -/
def ofKeyword : String → Option Form
  | "$ref" | "type" | "format" | "title" | "description" | "discriminator" => some (optional text)
  | "enum" => some (optional (list anything))
  | "required" => some (list text)
  | "readOnly" => some (optional boolean)
  | "default" | "example" => some (optional anything)
  | "items" => some (optional schema)
  | "properties" => some (record schema)
  | "allOf" => some (list schema)
  | key => ofFacet key

end Form

structure Slot where
  form : Form
  value : Json

namespace Slot

inductive Holds : Slot → Slot → Prop where
  | present {form : Form} {value : Json} (h : value ≠ .null) :
      Holds ⟨.optional form, value⟩ ⟨form, value⟩
  | item {form : Form} {items : List Json} {value : Json} (h : value ∈ items) :
      Holds ⟨.list form, .arr items⟩ ⟨form, value⟩
  | member {form : Form} {members : List (String × Json)} {m : String × Json}
      (h : m ∈ members) : Holds ⟨.record form, .obj members⟩ ⟨form, m.2⟩
  | keyword {form : Form} {members : List (String × Json)} {m : String × Json}
      (h : m ∈ members) (hs : Form.ofKeyword m.1 = some form) :
      Holds ⟨.schema, .obj members⟩ ⟨form, m.2⟩

/-- A place with a value of the wrong form in it. -/
def Misfit (p : Slot) : Prop :=
  ∃ q, ReflTransGen Holds p q ∧ q.form.admits q.value = false

variable {p : Slot} {form : Form} {value : Json}

theorem misfit_iff :
    p.Misfit ↔ p.form.admits p.value = false ∨ ∃ q, p.Holds q ∧ q.Misfit := by
  constructor
  · rintro ⟨q, hq, ha⟩
    rcases hq.cases_head with rfl | ⟨r, hr, hq⟩
    · exact .inl ha
    · exact .inr ⟨r, hr, q, hq, ha⟩
  · rintro (ha | ⟨r, hr, q, hq, ha⟩)
    · exact ⟨p, .refl, ha⟩
    · exact ⟨q, .head hr hq, ha⟩

theorem not_misfit_iff :
    ¬p.Misfit ↔ p.form.admits p.value = true ∧ ∀ q, p.Holds q → ¬q.Misfit := by
  rw [misfit_iff]
  simp

theorem not_misfit_anything : ¬Misfit ⟨.anything, value⟩ := by
  rw [not_misfit_iff]
  constructor
  · rfl
  · rintro q ⟨⟩

theorem not_misfit_optional :
    ¬Misfit ⟨.optional form, value⟩ ↔ value = .null ∨ ¬Misfit ⟨form, value⟩ := by
  by_cases hv : value = .null
  · subst hv
    simp only [true_or, iff_true]
    rw [not_misfit_iff]
    constructor
    · cases form <;> rfl
    · rintro q ⟨hq⟩
      exact absurd rfl hq
  · rw [or_iff_right hv, not_misfit_iff]
    constructor
    · rintro ⟨-, h⟩
      exact h _ (.present hv)
    · intro h
      constructor
      · have ha := (not_misfit_iff.mp h).1
        cases value with
        | null => exact absurd rfl hv
        | _ => exact ha
      · rintro q ⟨-⟩
        exact h

theorem not_misfit_list :
    ¬Misfit ⟨.list form, value⟩ ↔
      ∃ items, value = .arr items ∧ ∀ item ∈ items, ¬Misfit ⟨form, item⟩ := by
  rw [not_misfit_iff]
  constructor
  · rintro ⟨ha, h⟩
    cases value with
    | arr items => exact ⟨items, rfl, fun item hm => h _ (.item hm)⟩
    | _ => cases ha
  · rintro ⟨items, rfl, h⟩
    constructor
    · rfl
    · rintro _ ⟨hm⟩
      exact h _ ‹_›

theorem not_misfit_record :
    ¬Misfit ⟨.record form, value⟩ ↔
      ∃ members, value = .obj members ∧ ∀ m ∈ members, ¬Misfit ⟨form, m.2⟩ := by
  rw [not_misfit_iff]
  constructor
  · rintro ⟨ha, h⟩
    cases value with
    | obj members => exact ⟨members, rfl, fun m hm => h _ (.member hm)⟩
    | _ => cases ha
  · rintro ⟨members, rfl, h⟩
    constructor
    · rfl
    · rintro _ ⟨⟩
      exact h _ ‹_›

theorem not_misfit_schema :
    ¬Misfit ⟨.schema, value⟩ ↔
      ∃ members, value = .obj members ∧ ∀ m ∈ members, ∀ form,
        Form.ofKeyword m.1 = some form → ¬Misfit ⟨form, m.2⟩ := by
  rw [not_misfit_iff]
  constructor
  · rintro ⟨ha, h⟩
    cases value with
    | obj members => exact ⟨members, rfl, fun m hm form hs => h _ (.keyword hm hs)⟩
    | _ => cases ha
  · rintro ⟨members, rfl, h⟩
    constructor
    · rfl
    · rintro _ ⟨⟩
      exact h _ ‹_› _ ‹_›

end Slot

section Except

variable {ε α β : Type}

@[simp] theorem isOk_ok (a : α) : (Except.ok a : Except ε α).isOk = true := rfl

@[simp] theorem isOk_error (e : ε) : (Except.error e : Except ε α).isOk = false := rfl

@[simp] theorem isOk_map (f : α → β) (x : Except ε α) : (x.map f).isOk = x.isOk := by
  cases x <;> rfl

theorem isOk_mapM {f : α → Except ε β} {l : List α} :
    (l.mapM f).isOk = true ↔ ∀ a ∈ l, (f a).isOk = true := by
  induction l with
  | nil => simp
  | cons a rest ih =>
    rw [List.mapM_cons, List.forall_mem_cons, ← ih]
    cases f a with
    | error e => simp [bind, Except.bind]
    | ok b => cases rest.mapM f <;> simp [bind, Except.bind, pure, Except.pure]

theorem isOk_foldlM {f : β → α → Except ε β} {P : α → Prop} {l : List α} {b : β}
    (h : ∀ a ∈ l, ∀ b, (f b a).isOk = true ↔ P a) :
    (l.foldlM f b).isOk = true ↔ ∀ a ∈ l, P a := by
  induction l generalizing b with
  | nil => simp
  | cons a rest ih =>
    obtain ⟨ha, hr⟩ := List.forall_mem_cons.mp h
    rw [List.foldlM_cons, List.forall_mem_cons, ← ha b]
    cases f b a with
    | error e => simp [bind, Except.bind]
    | ok c => simp [bind, Except.bind, ih hr]

end Except

/-- A value is read exactly if it has the form that is asked for. -/
def ReadAs {α : Type} (read : Json → Except Mismatch α) (form : Form) (value : Json) : Prop :=
  (read value).isOk = true ↔ ¬Slot.Misfit ⟨form, value⟩

namespace ReadAs

variable {α : Type} {read : Json → Except Mismatch α} {form : Form}

theorem of_admits {value : Json} (h : (read value).isOk = form.admits value)
    (hs : ∀ q, ¬Slot.Holds ⟨form, value⟩ q) : ReadAs read form value := by
  unfold ReadAs
  rw [Slot.not_misfit_iff, h]
  simp [hs]

theorem text (value : Json) : ReadAs readText .text value :=
  of_admits (by cases value <;> rfl) (by rintro q ⟨⟩)

theorem boolean (value : Json) : ReadAs readBool .boolean value :=
  of_admits (by cases value <;> rfl) (by rintro q ⟨⟩)

theorem count (value : Json) : ReadAs readCount .count value := by
  refine of_admits ?_ (by rintro q ⟨⟩)
  rcases value with _ | _ | (n | d) | _ | _ | _ <;> try rfl
  by_cases hn : 0 ≤ n <;> simp [readCount, Form.admits, hn]

theorem double (value : Json) : ReadAs readDouble .double value :=
  of_admits (by rcases value with _ | _ | (_ | _) | _ | _ | _ <;> rfl) (by rintro q ⟨⟩)

theorem anything (value : Json) : ReadAs (.ok : Json → Except Mismatch Json) .anything value := by
  simp [ReadAs, Slot.not_misfit_anything]

theorem optional {value : Json} (h : ReadAs read form value) :
    ReadAs (readOptional read) (.optional form) value := by
  unfold ReadAs at h ⊢
  rw [Slot.not_misfit_optional, ← h]
  unfold readOptional
  split
  · simp
  · rename_i hv
    rw [isOk_map, or_iff_right hv]

theorem list {value : Json} (h : ∀ part ∈ value.parts, ReadAs read form part) :
    ReadAs (readList read) (.list form) value := by
  unfold ReadAs
  rw [Slot.not_misfit_list]
  cases value with
  | arr items =>
    have hi : ∀ item ∈ items, (read item).isOk = true ↔ ¬Slot.Misfit ⟨form, item⟩ := h
    simp only [readList, isOk_mapM, Json.arr.injEq, exists_eq_left']
    exact forall₂_congr hi
  | _ => simp [readList]

theorem record {value : Json} (h : ∀ part ∈ value.parts, ReadAs read form part) :
    ReadAs (readRecord read) (.record form) value := by
  unfold ReadAs
  rw [Slot.not_misfit_record]
  cases value with
  | obj members =>
    simp only [readRecord, isOk_mapM, isOk_map, Json.obj.injEq, exists_eq_left']
    exact forall₂_congr fun m hm => h m.2 (List.mem_map_of_mem hm)
  | _ => simp [readRecord]

end ReadAs

variable {key : String} {value : Json}

def Suits (formOf : String → Option Form) (key : String) (value : Json) : Prop :=
  ∀ form, formOf key = some form → ¬Slot.Misfit ⟨form, value⟩

theorem suits_of_some {formOf : String → Option Form} {form : Form} (h : formOf key = some form) :
    Suits formOf key value ↔ ¬Slot.Misfit ⟨form, value⟩ := by
  simp [Suits, h]

theorem suits_of_none {formOf : String → Option Form} (h : formOf key = none) :
    Suits formOf key value := by
  simp [Suits, h]

theorem isOk_readFacet (f : Facets) :
    (f.readMember key value).isOk = true ↔ Suits Form.ofFacet key value := by
  unfold Facets.readMember
  split
  all_goals try rw [isOk_map, suits_of_some rfl]
  case h_1 | h_2 | h_11 => exact ReadAs.optional (.double value)
  case h_3 | h_4 | h_10 => exact ReadAs.optional (.boolean value)
  case h_5 | h_6 | h_8 | h_9 => exact ReadAs.optional (.count value)
  case h_7 => exact ReadAs.optional (.text value)
  case h_12 =>
    have hnone : Form.ofFacet key = none := by
      unfold Form.ofFacet
      split <;> first | rfl | contradiction
    simp [suits_of_none hnone]

theorem isExtensionName_eq_false_of_ofFacet {form : Form} (h : Form.ofFacet key = some form) :
    isExtensionName key = false := by
  unfold Form.ofFacet at h
  split at h
  all_goals first | rfl | cases h

theorem isOk_readKeyword (k : Keywords) (hi : key ≠ "items") (hp : key ≠ "properties")
    (ha : key ≠ "allOf") :
    (k.readMember key value).isOk = true ↔ Suits Form.ofKeyword key value := by
  unfold Keywords.readMember
  split
  all_goals try rw [isOk_map, suits_of_some rfl]
  case h_6 => exact ReadAs.optional (.list fun part _ => .anything part)
  case h_7 => exact ReadAs.list fun part _ => .text part
  case h_9 => exact ReadAs.optional (.boolean value)
  case h_10 | h_11 => exact ReadAs.optional (.anything value)
  case h_12 =>
    have hfacet : Form.ofKeyword key = Form.ofFacet key := by
      unfold Form.ofKeyword
      split <;> first | rfl | contradiction
    have hsuits : Suits Form.ofKeyword key value ↔ Suits Form.ofFacet key value := by
      rw [Suits, Suits, hfacet]
    rw [hsuits]
    split_ifs with hx
    · refine iff_of_true rfl fun form hform => ?_
      rw [isExtensionName_eq_false_of_ofFacet hform] at hx
      cases hx
    · rw [isOk_map, isOk_readFacet]
  all_goals exact ReadAs.optional (.text value)

namespace Schema

theorem isOk_readMember (s : Schema) (hv : ReadAs read .schema value)
    (hparts : ∀ part ∈ value.parts, ReadAs read .schema part) :
    (readMember s key value).isOk = true ↔ Suits Form.ofKeyword key value := by
  unfold readMember
  split
  · rw [isOk_map, suits_of_some rfl, readItems_eq]
    exact ReadAs.optional hv
  · exact iff_of_true rfl (suits_of_none rfl)
  · rw [isOk_map, suits_of_some rfl, readProperties_eq]
    exact ReadAs.record hparts
  · rw [isOk_map, suits_of_some rfl, readParts_eq]
    exact ReadAs.list hparts
  · rw [isOk_map]
    exact isOk_readKeyword _ ‹_› ‹_› ‹_›

theorem readAs (value : Json) : ReadAs read .schema value := by
  -- Under `properties` and `allOf` there are schemas two levels down, so the induction is about a
  -- value and all that stands right below it.
  suffices h : ReadAs read .schema value ∧ ∀ part ∈ value.parts, ReadAs read .schema part from h.1
  induction value using Json.induct with
  | h value ih =>
    refine ⟨?_, fun part hpart => (ih part hpart).1⟩
    unfold ReadAs
    rw [Slot.not_misfit_schema, read_eq_readPart]
    cases value with
    | obj members =>
      simp only [readPart, Json.obj.injEq, exists_eq_left']
      refine isOk_foldlM fun m hm s => ?_
      obtain ⟨hm, hparts⟩ := ih m.2 (List.mem_map_of_mem hm)
      exact isOk_readMember s hm hparts
    | _ => simp [readPart]

/-- A value is no schema exactly if there is a value of the wrong form in it. -/
theorem misfit_iff_exists_error :
    Slot.Misfit ⟨.schema, value⟩ ↔ ∃ reason, read value = .error reason := by
  have h : (read value).isOk = true ↔ ¬Slot.Misfit ⟨.schema, value⟩ := readAs value
  rw [← not_iff_not, ← h]
  cases read value <;> simp

/-- What is kept of a member `additionalProperties`: anything that is neither a flag nor a schema
stays as it is. -/
inductive Keeps : Option Json → Option (Additional Schema) → Prop where
  | absent : Keeps none none
  | null : Keeps (some .null) none
  | flag (b : Bool) : Keeps (some (.bool b)) (some (.flag b))
  | schema {value : Json} {s : Schema} (h : read value = .ok s) :
      Keeps (some value) (some (.schema s))
  | malformed {value : Json} (hn : value ≠ .null) (hb : ∀ b, value ≠ .bool b)
      (hm : Slot.Misfit ⟨.schema, value⟩) : Keeps (some value) (some (.malformed value))

theorem keeps_readAdditional (value : Json) : Keeps (some value) (readAdditional value) := by
  unfold readAdditional
  split
  · exact .null
  · exact .flag _
  · rename_i hn hb
    split
    · exact .schema ‹_›
    · exact .malformed hn hb (misfit_iff_exists_error.mpr ⟨_, ‹_›⟩)

theorem gives_member {α β : Type} (key : String) {step : α → String × Json → Except Mismatch α}
    {g : α → β} {Q : Json → β → Prop}
    (hother : ∀ a m, m.1 ≠ key → Gives (step a m) fun b => g b = g a)
    (hkey : ∀ a value, Gives (step a (key, value)) fun b => Q value (g b))
    {members : List (String × Json)} (hn : (Fields.keys members).Nodup)
    (hv : Fields.get? members key = some value) (a : α) :
    Gives (members.foldlM step a) fun b => Q value (g b) := by
  induction members generalizing a with
  | nil => cases hv
  | cons m rest ih =>
    obtain ⟨k, found⟩ := m
    obtain ⟨hk, hrest⟩ := List.nodup_cons.mp hn
    rw [Fields.get?_cons] at hv
    rw [List.foldlM_cons]
    split at hv
    · rename_i hkey'
      subst hkey'
      cases hv
      refine .bind (hkey a value) fun b hb => ?_
      refine (Gives.field k hother hkey hrest b).mono fun c hc => ?_
      rcases hc with hc | ⟨later, hlater, -⟩
      · rwa [hc]
      · exact absurd (List.mem_map_of_mem (Fields.mem_of_get? hlater)) hk
    · exact .bind (.trivial _) fun b _ => ih hrest hv b

/-- A schema is written by the members of an object that it is read from: the keywords that hold
schemas give what they are read as. -/
structure WrittenBy (members : List (String × Json)) (s : Schema) : Prop where
  items : ∀ value, Fields.get? members "items" = some value →
    readOptional read value = .ok s.items
  properties : ∀ value, Fields.get? members "properties" = some value →
    readRecord read value = .ok s.properties
  allOf : ∀ value, Fields.get? members "allOf" = some value → readList read value = .ok s.allOf
  additional : Keeps (Fields.get? members "additionalProperties") s.additional

theorem writtenBy_of_read {members : List (String × Json)} {s : Schema}
    (hn : (Fields.keys members).Nodup) (h : read (.obj members) = .ok s) : s.WrittenBy members := by
  rw [read_eq_readPart] at h
  change members.foldlM (fun s m => readMember s m.1 m.2) {} = .ok s at h
  constructor
  · intro value hvalue
    refine gives_member "items" (g := (·.items))
      (Q := fun value items => readOptional read value = .ok items)
      (fun s m hm => (readMember_keeps s m.1 m.2).mono fun _ ht => ht.items hm)
      (fun _ _ => ?_) hn hvalue {} s h
    rw [← readItems_eq]
    simp only [readMember]
    exact .set fun _ => rfl
  · intro value hvalue
    refine gives_member "properties" (g := (·.properties))
      (Q := fun value properties => readRecord read value = .ok properties)
      (fun s m hm => (readMember_keeps s m.1 m.2).mono fun _ ht => ht.properties hm)
      (fun _ _ => ?_) hn hvalue {} s h
    rw [← readProperties_eq]
    simp only [readMember]
    exact .set fun _ => rfl
  · intro value hvalue
    refine gives_member "allOf" (g := (·.allOf))
      (Q := fun value parts => readList read value = .ok parts)
      (fun s m hm => (readMember_keeps s m.1 m.2).mono fun _ ht => ht.allOf hm)
      (fun _ _ => ?_) hn hvalue {} s h
    rw [← readParts_eq]
    simp only [readMember]
    exact .set fun _ => rfl
  · have hother : ∀ s (m : String × Json), m.1 ≠ "additionalProperties" →
        Gives (readMember s m.1 m.2) fun t => t.additional = s.additional :=
      fun s m hm => (readMember_keeps s m.1 m.2).mono fun _ ht => ht.additional hm
    have hkey : ∀ s value, Gives (readMember s "additionalProperties" value) fun t =>
        Keeps (some value) t.additional := by
      intro s value
      simp only [readMember]
      exact .ok (keeps_readAdditional value)
    cases hvalue : Fields.get? members "additionalProperties" with
    | some value =>
      exact gives_member "additionalProperties" (g := (·.additional))
        (Q := fun value additional => Keeps (some value) additional) hother hkey hn hvalue {} s h
    | none =>
      rcases Gives.field "additionalProperties" (g := (·.additional))
          (Q := fun value additional => Keeps (some value) additional) hother hkey hn {} s h with
        hs | ⟨value, hs, -⟩
      · rw [hs]
        exact .absent
      · rw [hvalue] at hs
        cases hs

end Schema

theorem Fields.filter_set {fields : List (String × Json)} (name : String) (value : Json) :
    (Fields.set fields name value).filter (·.1 ≠ name) = fields.filter (·.1 ≠ name) := by
  induction fields with
  | nil => simp [Fields.set]
  | cons m rest ih =>
    obtain ⟨key, found⟩ := m
    unfold Fields.set
    by_cases hk : key = name
    · simp [hk]
    · simp only [if_neg hk, List.filter_cons, ih]

namespace Document

def written (root : Json) : List (String × Json) :=
  match root.get? "definitions" with
  | some (.obj definitions) => definitions
  | _ => []

theorem written_of_definitionsOf {members definitions : List (String × Json)}
    (h : definitionsOf (Fields.get? members "definitions") = .ok definitions) :
    written (.obj members) = definitions := by
  unfold written Json.get?
  unfold definitionsOf at h
  split at h <;> cases h <;> simp_all

def readRest (members : List (String × Json)) : Except Fault Document := do
  let version ← versionOf (.obj members)
  ((frame version members).foldlM (fun d m => readMember d m.1 m.2) {}).mapError Fault.mismatch

theorem readRest_gives (members : List (String × Json)) :
    Gives (readRest members) fun d => d.definitions = [] ∧ d.malformed = [] := by
  refine .bind (.trivial _) fun version _ => .mapError (.foldlM ⟨rfl, rfl⟩ fun m _ d hd => ?_)
  unfold readMember
  split
  case h_10 => split_ifs <;> exact .ok hd
  all_goals exact .keep fun _ => hd

theorem read_eq (members : List (String × Json)) :
    read (.obj members) = (readRest members).bind fun base =>
      (definitionsOf (Fields.get? members "definitions")).map fun definitions =>
        { base with
          definitions := definitions.filterMap definitionOf?
          malformed := definitions.filterMap malformedOf? } := by
  unfold read
  cases hv : versionOf (.obj members) with
  | error fault =>
    rw [readRest, hv]
    rfl
  | ok version =>
    have hrest : Except.mapError Fault.mismatch ((frame version members).foldlM
        (fun d m => readMember d m.1 m.2) {}) = readRest members := by
      rw [readRest, hv]
      rfl
    simp only [ok_bind, hrest]
    cases hb : readRest members with
    | error fault => rfl
    | ok base =>
      obtain ⟨hdefinitions, hmalformed⟩ := readRest_gives members base hb
      cases definitionsOf (Fields.get? members "definitions") with
      | error fault => rfl
      | ok definitions =>
        rw [ok_bind, ok_bind, foldl_addDefinition, hdefinitions, hmalformed]
        rfl

theorem of_read {root : Json} {d : Document} (h : read root = .ok d) :
    ∃ members base, root = .obj members ∧ readRest members = .ok base ∧
      definitionsOf (Fields.get? members "definitions") = .ok (written root) ∧
      d = { base with
        definitions := (written root).filterMap definitionOf?
        malformed := (written root).filterMap malformedOf? } := by
  cases root with
  | obj members =>
    rw [read_eq] at h
    cases hb : readRest members with
    | error fault =>
      rw [hb] at h
      cases h
    | ok base =>
      cases hd : definitionsOf (Fields.get? members "definitions") with
      | error fault =>
        rw [hb, hd] at h
        cases h
      | ok definitions =>
        rw [hb, hd] at h
        cases h
        rw [written_of_definitionsOf hd]
        exact ⟨members, base, rfl, hb, hd, rfl⟩
  | _ => cases h

def rewritten (root : Json) (name : String) (value : Json) : Json :=
  match root with
  | .obj members =>
    .obj (Fields.set members "definitions" (.obj (Fields.set (written root) name value)))
  | other => other

theorem readRest_set {members : List (String × Json)} (h : "definitions" ∈ Fields.keys members)
    (value : Json) :
    readRest (Fields.set members "definitions" value) = readRest members := by
  have hversion : versionOf (.obj (Fields.set members "definitions" value)) =
      versionOf (.obj members) := by
    simp [versionOf, Json.get?]
  have hframe : ∀ version, frame version (Fields.set members "definitions" value) =
      frame version members := by
    intro version
    unfold frame
    rw [Fields.set_comm h (by decide), Fields.eraseSwap_set]
    rw [Fields.keys_set]
    split
    · exact h
    · exact List.mem_append_left _ h
  simp only [readRest, hversion, hframe]

variable {root : Json} {d : Document} {name : String} {value : Json}

theorem keys_definitionOf (entries : List (String × Json)) :
    Fields.keys (entries.filterMap definitionOf?) =
      Fields.keys (entries.filter fun m => (Schema.read m.2).isOk) := by
  induction entries with
  | nil => rfl
  | cons m rest ih =>
    cases hr : Schema.read m.2 with
    | ok s =>
      rw [List.filterMap_cons_some (b := (m.1, s)) (by simp [definitionOf?, hr, Except.toOption]),
        List.filter_cons_of_pos (by simp [hr])]
      exact congrArg (m.1 :: ·) ih
    | error e =>
      rw [List.filterMap_cons_none (by simp [definitionOf?, hr, Except.toOption]),
        List.filter_cons_of_neg (by simp [hr]), ih]

theorem keys_malformedOf (entries : List (String × Json)) :
    Fields.keys (entries.filterMap malformedOf?) =
      Fields.keys (entries.filter fun m => !(Schema.read m.2).isOk) := by
  induction entries with
  | nil => rfl
  | cons m rest ih =>
    cases hr : Schema.read m.2 with
    | ok s =>
      rw [List.filterMap_cons_none (by simp [malformedOf?, hr]),
        List.filter_cons_of_neg (by simp [hr]), ih]
    | error e =>
      rw [List.filterMap_cons_some (b := (m.1, e)) (by simp [malformedOf?, hr]),
        List.filter_cons_of_pos (by simp [hr])]
      exact congrArg (m.1 :: ·) ih

theorem mem_definitionOf {entries : List (String × Json)} {s : Schema} :
    (name, s) ∈ entries.filterMap definitionOf? ↔
      ∃ value, (name, value) ∈ entries ∧ Schema.read value = .ok s := by
  rw [List.mem_filterMap]
  constructor
  · rintro ⟨⟨key, value⟩, hm, hs⟩
    cases hr : Schema.read value with
    | error e => simp [definitionOf?, hr, Except.toOption] at hs
    | ok t =>
      simp only [definitionOf?, hr, Except.toOption, Option.map_some] at hs
      cases hs
      exact ⟨value, hm, hr⟩
  · rintro ⟨value, hm, hr⟩
    exact ⟨(name, value), hm, by simp [definitionOf?, hr, Except.toOption]⟩

theorem mem_malformedOf {entries : List (String × Json)} {reason : Mismatch} :
    (name, reason) ∈ entries.filterMap malformedOf? ↔
      ∃ value, (name, value) ∈ entries ∧ Schema.read value = .error reason := by
  rw [List.mem_filterMap]
  constructor
  · rintro ⟨⟨key, value⟩, hm, hs⟩
    cases hr : Schema.read value with
    | ok t => simp [malformedOf?, hr] at hs
    | error e =>
      simp only [malformedOf?, hr] at hs
      cases hs
      exact ⟨value, hm, hr⟩
  · rintro ⟨value, hm, hr⟩
    exact ⟨(name, value), hm, by simp [malformedOf?, hr]⟩

theorem nodup_written (hv : root.NamesOnce) : (Fields.keys (written root)).Nodup := by
  cases root with
  | obj members =>
    unfold written
    split
    · rename_i definitions hd
      exact (hv.once.values _ (Fields.mem_of_get? hd)).once.nodup
    · exact List.nodup_nil
  | _ => exact List.nodup_nil

theorem exists_written_iff {P : Json → Prop} (hv : root.NamesOnce)
    (hm : (name, value) ∈ written root) :
    (∃ found, (name, found) ∈ written root ∧ P found) ↔ P value := by
  constructor
  · rintro ⟨found, hfound, hp⟩
    have hsame := (Fields.get?_of_mem (nodup_written hv) hfound).symm.trans
      (Fields.get?_of_mem (nodup_written hv) hm)
    cases hsame
    exact hp
  · intro hp
    exact ⟨value, hm, hp⟩

/-- A schema that stands in a definition is read from where it stands. -/
theorem ReadFrom.readAt (h : d.ReadFrom root) {pointer : Pointer} {s : Schema}
    (hs : Resolution.Stands d (fun _ _ => False) pointer s) :
    root.ReadAt pointer.segments Schema.read s := by
  have hbelow : ∀ {p : Pointer} {path : List String} {s t : Schema},
      root.ReadAt p.segments Schema.read s →
      (∀ node : Json, node.NamesOnce → Schema.read node = .ok s → node.ReadAt path Schema.read t) →
      root.ReadAt (p.segments ++ path) Schema.read t := by
    rintro p path s t ⟨node, hnode, hn, hr⟩ hpath
    obtain ⟨part, hpart, hread⟩ := hpath node hn hr
    exact ⟨part, (at?_append hnode).trans hpart, hread⟩
  induction hs with
  | root hr => cases hr
  | definition hd => exact h.definitions (Fields.mem_of_get? hd)
  | items _ hi ih => exact hbelow ih fun node hn hr => Schema.readAt_items hn hr hi
  | value _ hv ih =>
    exact hbelow ih fun node hn hr => Schema.WrittenAs.readAt_value (.schema hr) hn hv
  | property _ hm ih =>
    have hproperty := hbelow ih fun node hn hr => Schema.readAt_properties hn hr hm
    simpa using hproperty
  | part _ hp ih =>
    have hpart := hbelow ih fun node hn hr => Schema.readAt_allOf hn hr hp
    simpa [Pointer.item] using hpart

theorem filter_filterMap {α : Type} {f : String × Json → Option (String × α)}
    (hf : ∀ m a, f m = some a → a.1 = m.1) (entries : List (String × Json)) (name : String) :
    (entries.filterMap f).filter (·.1 ≠ name) = (entries.filter (·.1 ≠ name)).filterMap f := by
  rw [List.filter_filterMap, List.filterMap_filter]
  refine List.filterMap_congr fun m _ => ?_
  cases hm : f m with
  | none => simp
  | some a => simp [Option.filter, hf m a hm]

theorem fst_definitionOf (m : String × Json) (a : String × Schema) (h : definitionOf? m = some a) :
    a.1 = m.1 := by
  obtain ⟨s, -, rfl⟩ := Option.map_eq_some_iff.mp h
  rfl

theorem fst_malformedOf (m : String × Json) (a : String × Mismatch) (h : malformedOf? m = some a) :
    a.1 = m.1 := by
  unfold malformedOf? at h
  split at h
  · cases h
  · cases h
    rfl

theorem read_rewritten (h : read root = .ok d) (hn : name ∈ Fields.keys (written root))
    (value : Json) : ∃ e, read (rewritten root name value) = .ok e ∧
      e = { d with definitions := e.definitions, malformed := e.malformed } ∧
      e.definitions.filter (·.1 ≠ name) = d.definitions.filter (·.1 ≠ name) ∧
      e.malformed.filter (·.1 ≠ name) = d.malformed.filter (·.1 ≠ name) := by
  obtain ⟨members, base, rfl, hb, -, rfl⟩ := of_read h
  have hkey : "definitions" ∈ Fields.keys members := by
    rw [← Fields.get?_isSome_iff, Option.isSome_iff_ne_none]
    intro hnone
    rw [written, Json.get?, hnone] at hn
    cases hn
  refine ⟨{ base with
    definitions := (Fields.set (written (.obj members)) name value).filterMap definitionOf?
    malformed := (Fields.set (written (.obj members)) name value).filterMap malformedOf? },
    ?_, rfl, ?_, ?_⟩
  · rw [rewritten, read_eq, readRest_set hkey, hb, Fields.get?_set, if_pos rfl]
    rfl
  · rw [filter_filterMap fst_definitionOf, Fields.filter_set, filter_filterMap fst_definitionOf]
  · rw [filter_filterMap fst_malformedOf, Fields.filter_set, filter_filterMap fst_malformedOf]

theorem parted_of_read (h : read root = .ok d) :
    d.definitions = (written root).filterMap definitionOf? ∧
      d.malformed = (written root).filterMap malformedOf? := by
  obtain ⟨members, base, -, -, -, hd⟩ := of_read h
  exact ⟨hd ▸ rfl, hd ▸ rfl⟩

theorem keys_of_read (h : read root = .ok d) :
    (Fields.keys d.definitions).Sublist (Fields.keys (written root)) ∧
      (Fields.keys d.malformed).Sublist (Fields.keys (written root)) ∧
      (Fields.keys d.definitions ++ Fields.keys d.malformed).Perm (Fields.keys (written root)) := by
  obtain ⟨hdefinitions, hmalformed⟩ := parted_of_read h
  rw [hdefinitions, hmalformed, keys_definitionOf, keys_malformedOf]
  refine ⟨List.filter_sublist.map Prod.fst, List.filter_sublist.map Prod.fst, ?_⟩
  rw [Fields.keys, Fields.keys, ← List.map_append]
  exact (List.filter_append_perm _ _).map Prod.fst

section Entries

variable (hv : root.NamesOnce) (h : read root = .ok d) (hm : (name, value) ∈ written root)
include hv h hm

theorem mem_definitions_iff {s : Schema} :
    (name, s) ∈ d.definitions ↔ Schema.read value = .ok s := by
  rw [(parted_of_read h).1, mem_definitionOf]
  exact exists_written_iff (P := fun v => Schema.read v = .ok s) hv hm

theorem mem_malformed_iff {reason : Mismatch} :
    (name, reason) ∈ d.malformed ↔ Schema.read value = .error reason := by
  rw [(parted_of_read h).2, mem_malformedOf]
  exact exists_written_iff (P := fun v => Schema.read v = .error reason) hv hm

/-- An entry is malformed if a value in it does not have the form that its keyword asks for. -/
theorem mem_keys_malformed_iff :
    name ∈ Fields.keys d.malformed ↔ Slot.Misfit ⟨.schema, value⟩ := by
  rw [Schema.misfit_iff_exists_error, Fields.keys, List.mem_map]
  constructor
  · rintro ⟨⟨_, reason⟩, hmem, rfl⟩
    exact ⟨reason, (mem_malformed_iff hv h hm).mp hmem⟩
  · rintro ⟨reason, hr⟩
    exact ⟨_, (mem_malformed_iff hv h hm).mpr hr, rfl⟩

end Entries

theorem writtenBy_of_stands (hv : root.NamesOnce) (h : read root = .ok d) {pointer : Pointer}
    {s : Schema} (hs : Resolution.Stands d (fun _ _ => False) pointer s) : ∃ members,
      root.at? pointer.segments = some (.obj members) ∧
      Schema.read (.obj members) = .ok s ∧ s.WrittenBy members := by
  obtain ⟨node, hnode, hn, hr⟩ := (readFrom_of_read hv d h).readAt hs
  cases node with
  | obj members => exact ⟨members, hnode, hr, Schema.writtenBy_of_read hn.once.nodup hr⟩
  | _ => simp [Schema.read] at hr

end Document

/-- In a document that has been read each definition is either a schema or malformed, and which of
the two only depends on what is written of it: it is malformed if a value in it does not have the
form that its keyword asks for. What stands below `additionalProperties` is no reason; it is kept as
it is written if it is neither a flag nor a schema. -/
theorem malformed_isolated {root : Json} {d : Document} (hv : root.NamesOnce)
    (h : Document.read root = .ok d) :
    ((Fields.keys d.definitions).Sublist (Fields.keys (Document.written root)) ∧
      (Fields.keys d.malformed).Sublist (Fields.keys (Document.written root)) ∧
      (Fields.keys d.definitions ++ Fields.keys d.malformed).Perm
        (Fields.keys (Document.written root)) ∧
      (Fields.keys (Document.written root)).Nodup) ∧
    (∀ name value, (name, value) ∈ Document.written root →
      (name ∈ Fields.keys d.malformed ↔ Slot.Misfit ⟨.schema, value⟩) ∧
      (∀ s, (name, s) ∈ d.definitions ↔ Schema.read value = .ok s) ∧
      ∀ reason, (name, reason) ∈ d.malformed ↔ Schema.read value = .error reason) ∧
    (∀ pointer s, Resolution.Stands d (fun _ _ => False) pointer s → ∃ members,
      root.at? pointer.segments = some (.obj members) ∧
      Schema.read (.obj members) = .ok s ∧ s.WrittenBy members) ∧
    ∀ name value, name ∈ Fields.keys (Document.written root) → ∃ e,
      Document.read (Document.rewritten root name value) = .ok e ∧
      e = { d with definitions := e.definitions, malformed := e.malformed } ∧
      e.definitions.filter (·.1 ≠ name) = d.definitions.filter (·.1 ≠ name) ∧
      e.malformed.filter (·.1 ≠ name) = d.malformed.filter (·.1 ≠ name) := by
  obtain ⟨hdefinitions, hmalformed, hparted⟩ := Document.keys_of_read h
  refine ⟨⟨hdefinitions, hmalformed, hparted, Document.nodup_written hv⟩, ?_, ?_, ?_⟩
  · intro name value hm
    exact ⟨Document.mem_keys_malformed_iff hv h hm, fun s => Document.mem_definitions_iff hv h hm,
      fun reason => Document.mem_malformed_iff hv h hm⟩
  · intro pointer s hs
    exact Document.writtenBy_of_stands hv h hs
  · intro name value hname
    exact Document.read_rewritten h hname value

def corral : Json :=
  .obj [
    ("swagger", .str "2.0"),
    ("definitions", .obj [
      ("Horse", .obj [("properties", .obj [("name", .obj [("required", .bool true)])])]),
      ("Foal", .obj [("additionalProperties", .ofNat 3)])])]

theorem malformed_isolated_corral : corral.NamesOnce ∧ ∃ d, Document.read corral = .ok d ∧
    "Horse" ∈ Fields.keys d.malformed ∧
    (∃ s, ("Foal", s) ∈ d.definitions ∧ s.additional = some (.malformed (.ofNat 3))) ∧
    ∃ e, Document.read (Document.rewritten corral "Horse" .null) = .ok e ∧
      e.definitions.filter (·.1 ≠ "Horse") = d.definitions.filter (·.1 ≠ "Horse") := by
  have hn : corral.NamesOnce := by
    simp [corral, namesOnce_obj_iff, Fields.keys, Json.ofNat, Json.NamesOnce.str,
      Json.NamesOnce.bool, Json.NamesOnce.num]
  have hread : ∀ {ε α : Type} {x : Except ε α}, x.isOk = true → ∃ a, x = .ok a := by
    rintro ε α (e | a) hx
    · cases hx
    · exact ⟨a, rfl⟩
  obtain ⟨d, h⟩ := hread (show (Document.read corral).isOk = true by decide +kernel)
  obtain ⟨-, hclass, -, hframe⟩ := malformed_isolated hn h
  have hhorse : ("Horse", .obj [("properties", .obj [("name", .obj [("required", .bool true)])])]) ∈
      Document.written corral := List.mem_cons_self ..
  have hfoal : ("Foal", .obj [("additionalProperties", .ofNat 3)]) ∈ Document.written corral :=
    List.mem_cons_of_mem _ (List.mem_cons_self ..)
  refine ⟨hn, d, h, ?_, ?_, ?_⟩
  · have hname : Slot.Misfit ⟨.schema, .obj [("required", .bool true)]⟩ :=
      ⟨⟨.list .text, .bool true⟩, .single (.keyword (List.mem_cons_self ..) rfl), rfl⟩
    have hproperties :
        Slot.Misfit ⟨.record .schema, .obj [("name", .obj [("required", .bool true)])]⟩ :=
      Slot.misfit_iff.mpr (.inr ⟨_, .member (List.mem_cons_self ..), hname⟩)
    refine (hclass _ _ hhorse).1.mpr (Slot.misfit_iff.mpr (.inr ⟨_, ?_, hproperties⟩))
    exact .keyword (List.mem_cons_self ..) rfl
  · refine ⟨{ additional := some (.malformed (.ofNat 3)) }, ((hclass _ _ hfoal).2.1 _).mpr ?_, rfl⟩
    simp [Schema.read, Schema.readMembers, Schema.readMember, Schema.readAdditional, Json.ofNat]
  · obtain ⟨e, he, -, hdefinitions, -⟩ := hframe "Horse" .null (List.mem_cons_self ..)
    exact ⟨e, he, hdefinitions⟩

end ApiModel
