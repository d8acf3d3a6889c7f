import ApiModel.Document.Printer
import ApiModel.Proofs.Sources

/-! # Schemas are read as they are written

A schema is written with all of its keywords, absent ones as `null`. Reading what has been written
gives the schema back: numbers are written as they have been read, and what was neither a flag nor
a schema is neither when it is read again.
-/

namespace ApiModel

open Json

section Except

variable {ε α β : Type}

@[simp] theorem ok_map (f : α → β) (a : α) : (Except.ok a : Except ε α).map f = .ok (f a) := rfl

@[simp] theorem ok_bind (f : α → Except ε β) (a : α) : ((Except.ok a : Except ε α) >>= f) = f a :=
  rfl

@[simp] theorem ok_pure (a : α) : (pure a : Except ε α) = .ok a := rfl

end Except

namespace Json

def parts : Json → List Json
  | .arr items => items
  | .obj members => members.map Prod.snd
  | _ => []

theorem sizeOf_lt_of_mem_parts {value part : Json} (h : part ∈ value.parts) :
    sizeOf part < sizeOf value := by
  cases value with
  | arr items =>
    have : sizeOf part < sizeOf items := List.sizeOf_lt_of_mem h
    simp only [arr.sizeOf_spec]
    omega
  | obj members =>
    obtain ⟨m, hm, rfl⟩ := List.mem_map.mp h
    obtain ⟨key, value⟩ := m
    have := List.sizeOf_lt_of_mem hm
    simp only [Prod.mk.sizeOf_spec] at this
    simp only [obj.sizeOf_spec]
    omega
  | _ => cases h

theorem induct {P : Json → Prop} (h : ∀ value, (∀ part ∈ value.parts, P part) → P value)
    (value : Json) : P value :=
  h value fun part _ => induct h part
termination_by value
decreasing_by exact sizeOf_lt_of_mem_parts ‹_›

end Json

theorem Gives.part {α : Type} {P : α → Prop} {name : String}
    {readMember : α → String → Json → Except Mismatch α} {empty : α} (h : P empty)
    (hm : ∀ part key value, P part → Gives (readMember part key value) P) (value : Json) :
    Gives (readPart name readMember empty value) P := by
  unfold readPart
  split
  · exact .foldlM h fun m _ part hp => hm part m.1 m.2 hp
  · exact .error _

section ReadsBack

variable {α : Type} {read : Json → Except Mismatch α} {write : α → Json}

/-- Reading what a value is written as gives the value. -/
abbrev ReadsBack (read : Json → Except Mismatch α) (write : α → Json) (a : α) : Prop :=
  read (write a) = .ok a

theorem mapM_map_ok {ε β γ : Type} {f : γ → Except ε β} {g : β → γ} {l : List β}
    (h : ∀ b ∈ l, f (g b) = .ok b) : (l.map g).mapM f = .ok l := by
  induction l with
  | nil => rfl
  | cons b rest ih =>
    obtain ⟨hb, hr⟩ := List.forall_mem_cons.mp h
    rw [List.map_cons, List.mapM_cons, hb, ih hr]
    rfl

namespace ReadsBack

theorem optional {o : Option α} (hn : ∀ a, write a ≠ .null) (h : ∀ a ∈ o, ReadsBack read write a) :
    ReadsBack (readOptional read) (ofOption write) o := by
  cases o with
  | none => rfl
  | some a =>
    unfold ReadsBack ofOption readOptional
    dsimp only
    split
    · rename_i hnull
      exact absurd hnull (hn a)
    · rw [show read (write a) = .ok a from h a rfl]
      rfl

theorem list {l : List α} (h : ∀ a ∈ l, ReadsBack read write a) :
    ReadsBack (readList read) (fun l => .arr (l.map write)) l :=
  mapM_map_ok h

theorem record {fields : List (String × α)} (h : ∀ m ∈ fields, ReadsBack read write m.2) :
    ReadsBack (readRecord read) (fun fields => .obj (fields.map fun m => (m.1, write m.2)))
      fields := by
  refine mapM_map_ok fun m hm => ?_
  rw [show read (write m.2) = .ok m.2 from h m hm]
  rfl

end ReadsBack

def Kept (read : Json → Except Mismatch α) (write : α → Json) (value : Json) : Prop :=
  Gives (read value) (ReadsBack read write)

namespace Kept

variable {value : Json}

theorem optional (hn : ∀ a, write a ≠ .null) (h : Kept read write value) :
    Kept (readOptional read) (ofOption write) value := by
  unfold Kept readOptional
  split
  · exact .ok rfl
  · refine .map (h.mono fun a ha => .optional hn ?_)
    rintro _ ⟨⟩
    exact ha

theorem list (h : ∀ part ∈ value.parts, Kept read write part) :
    Kept (readList read) (fun l => .arr (l.map write)) value := by
  unfold Kept readList
  split
  · rename_i items
    have hl := Gives.mapM (j := fun _ => ()) (k := fun _ => ()) (l := items) fun item hm =>
      (h item hm).mono fun a ha => ⟨rfl, ha⟩
    exact hl.mono fun l hl => .list hl.2
  · exact .error _

theorem record (h : ∀ part ∈ value.parts, Kept read write part) :
    Kept (readRecord read) (fun fields => .obj (fields.map fun m => (m.1, write m.2))) value := by
  unfold Kept readRecord
  split
  · rename_i members
    have hl := Gives.mapM (P := fun field : String × α => ReadsBack read write field.2)
      (j := Prod.fst) (k := Prod.fst) (l := members) fun m hm =>
        Gives.map (f := fun a => (m.1, a))
          ((h m.2 (List.mem_map_of_mem hm)).mono fun a ha => ⟨rfl, ha⟩)
    exact hl.mono fun fields hf => .record hf.2
  · exact .error _

end Kept

end ReadsBack

theorem readOptional_text (o : Option String) :
    readOptional readText (ofOption .str o) = .ok o := by
  cases o <;> rfl

theorem readOptional_bool (o : Option Bool) : readOptional readBool (ofOption .bool o) = .ok o := by
  cases o <;> rfl

theorem readOptional_double (o : Option Double) :
    readOptional readDouble (ofOption ofDouble o) = .ok o := by
  cases o <;> rfl

theorem readOptional_count (o : Option Nat) :
    readOptional readCount (ofOption ofNat o) = .ok o := by
  cases o with
  | none => rfl
  | some n => simp [readOptional, ofOption, ofNat, readCount]

theorem readOptional_values (o : Option (List Json)) :
    readOptional (readList .ok) (ofOption .arr o) = .ok o := by
  cases o with
  | none => rfl
  | some l =>
    have hl : l.mapM Except.ok = (.ok l : Except Mismatch (List Json)) := by
      simpa using mapM_map_ok (g := id) fun v (_ : v ∈ l) => rfl
    simp [readOptional, ofOption, readList, hl]

theorem readOptional_value {o : Option Json} (h : o ≠ some .null) :
    readOptional .ok (ofOption id o) = (.ok o : Except Mismatch (Option Json)) := by
  rcases o with _ | (_ | _)
  case some.null => exact absurd rfl h
  all_goals rfl

theorem readOptional_ne_null (value : Json) :
    Gives (readOptional (.ok : Json → Except Mismatch Json) value) (· ≠ some .null) := by
  cases value <;> exact .ok (by simp)

theorem readList_strings (l : List String) : readList readText (strings l) = .ok l :=
  mapM_map_ok fun _ _ => rfl

theorem readOptional_strings (o : Option (List String)) :
    readOptional (readList readText) (ofOption strings o) = .ok o :=
  ReadsBack.optional (fun _ => nofun) fun l _ => readList_strings l

def AreExtensions (members : List (String × Json)) : Prop :=
  ∀ m ∈ members, isExtensionName m.1 = true

namespace AreExtensions

variable {members : List (String × Json)}

theorem nil : AreExtensions [] := List.forall_mem_nil _

theorem concat (h : AreExtensions members) {key : String} (hx : isExtensionName key = true)
    (value : Json) : AreExtensions (members ++ [(key, value)]) :=
  List.forall_mem_append.mpr ⟨h, List.forall_mem_singleton.mpr hx⟩

theorem foldlM {ε α : Type} {f : α → String × Json → Except ε α}
    {g : α → List (String × Json) → α} (hnil : ∀ a, g a [] = a)
    (happend : ∀ a l l', g (g a l) l' = g a (l ++ l'))
    (hf : ∀ a m, isExtensionName m.1 = true → f a m = .ok (g a [m]))
    (h : AreExtensions members) (a : α) : members.foldlM f a = .ok (g a members) := by
  induction members generalizing a with
  | nil => rw [hnil]; rfl
  | cons m rest ih =>
    obtain ⟨hm, hr⟩ := List.forall_mem_cons.mp h
    rw [List.foldlM_cons, hf a m hm]
    exact (ih hr (g a [m])).trans (by rw [happend, List.singleton_append])

end AreExtensions

theorem foldlM_append_ok {ε α β : Type} {f : α → β → Except ε α} {l l' : List β} {a b : α}
    (h : l.foldlM f a = .ok b) : (l ++ l').foldlM f a = l'.foldlM f b := by
  rw [List.foldlM_append, h]
  rfl

/-- Members that concern one component of a part are read into that component. -/
theorem foldlM_component {ε α β γ : Type} {f : α → γ → Except ε α} {g : β → γ → Except ε β}
    {p : α → β} {s : α → β → α} {l : List γ} (hget : ∀ a b, p (s a b) = b)
    (hset : ∀ a b c, s (s a b) c = s a c) (hself : ∀ a, s a (p a) = a)
    (h : ∀ m ∈ l, ∀ a, f a m = (g (p a) m).map (s a)) (a : α) :
    l.foldlM f a = (l.foldlM g (p a)).map (s a) := by
  induction l generalizing a with
  | nil => exact congrArg Except.ok (hself a).symm
  | cons m rest ih =>
    obtain ⟨hm, hr⟩ := List.forall_mem_cons.mp h
    rw [List.foldlM_cons, List.foldlM_cons, hm a]
    cases g (p a) m with
    | error e => rfl
    | ok b =>
      have hrest := ih hr (s a b)
      rw [hget, funext (hset a b)] at hrest
      exact hrest

theorem Facets.read_members (f g : Facets) :
    f.members.foldlM (fun f m => f.readMember m.1 m.2) g = .ok f := by
  simp [Facets.members, Facets.readMember, readOptional_text, readOptional_bool,
    readOptional_double, readOptional_count]

namespace Keywords

/-- What is written of the keywords tells what they are. -/
structure Faithful (k : Keywords) : Prop where
  defaultValue : k.defaultValue ≠ some .null
  exampleValue : k.exampleValue ≠ some .null
  extensions : AreExtensions k.extensions

theorem faithful_empty : Faithful {} := ⟨nofun, nofun, .nil⟩

theorem Faithful.readMember {k : Keywords} (h : k.Faithful) (key : String) (value : Json) :
    Gives (k.readMember key value) Faithful := by
  unfold Keywords.readMember
  split
  case h_10 =>
    exact .map ((readOptional_ne_null value).mono fun v hv => { h with defaultValue := hv })
  case h_11 =>
    exact .map ((readOptional_ne_null value).mono fun v hv => { h with exampleValue := hv })
  case h_12 =>
    split_ifs with hx
    · exact .ok { h with extensions := h.extensions.concat hx value }
    · exact .keep fun _ => { h with }
  all_goals exact .keep fun _ => { h with }

theorem readMember_extension (k : Keywords) {key : String} (h : isExtensionName key = true)
    (value : Json) :
    k.readMember key value = .ok { k with extensions := k.extensions ++ [(key, value)] } := by
  unfold Keywords.readMember
  split
  case h_12 => exact if_pos h
  all_goals exact absurd h (by decide)

theorem readMember_facet (f : Facets) : ∀ m ∈ f.members, ∀ k : Keywords, k.readMember m.1 m.2 =
    (k.facets.readMember m.1 m.2).map fun v => { k with facets := v } := by
  simp [Facets.members, Keywords.readMember, isExtensionName]

theorem read_extensions {l : List (String × Json)} (h : AreExtensions l) (k : Keywords) :
    l.foldlM (fun k m => k.readMember m.1 m.2) k =
      .ok { k with extensions := k.extensions ++ l } :=
  h.foldlM (g := fun k l => { k with extensions := k.extensions ++ l }) (by simp) (by simp)
    (fun k m hm => k.readMember_extension hm m.2) k

theorem read_facets (f : Facets) (k : Keywords) :
    f.members.foldlM (fun k m => k.readMember m.1 m.2) k = .ok { k with facets := f } := by
  rw [foldlM_component (g := fun f m => Facets.readMember f m.1 m.2) (p := Keywords.facets)
    (s := fun k f => { k with facets := f }) (fun _ _ => rfl) (fun _ _ _ => rfl) (fun _ => rfl)
    (readMember_facet f), Facets.read_members]
  rfl

theorem Faithful.read_members {k : Keywords} (h : k.Faithful) :
    k.members.foldlM (fun k m => k.readMember m.1 m.2) ({} : Keywords) =
      .ok { k with extensions := [] } := by
  rw [members]
  refine (foldlM_append_ok (b := { k with facets := {}, extensions := [] }) ?_).trans
    (read_facets k.facets _)
  simp [Keywords.readMember, readOptional_text, readOptional_bool, readOptional_values,
    readList_strings, readOptional_value h.defaultValue, readOptional_value h.exampleValue]

end Keywords

namespace Schema

theorem itemsJson_eq : itemsJson = ofOption toJson := by
  funext items
  cases items <;> simp [itemsJson, ofOption]

theorem namedJson_eq (properties : List (String × Schema)) :
    namedJson properties = properties.map fun m => (m.1, m.2.toJson) := by
  induction properties with
  | nil => simp [namedJson]
  | cons m rest ih => rw [namedJson, ih, List.map_cons]

theorem allJson_eq (parts : List Schema) : allJson parts = parts.map toJson := by
  induction parts with
  | nil => simp [allJson]
  | cons s rest ih => rw [allJson, ih, List.map_cons]

theorem toJson_ne_null (s : Schema) : s.toJson ≠ .null := by
  obtain ⟨k, items, additional, properties, allOf⟩ := s
  rw [toJson]
  nofun

structure Faithful (s : Schema) : Prop where
  keywords : s.toKeywords.Faithful
  items : ReadsBack (readOptional read) (ofOption toJson) s.items
  additional : readAdditional (additionalJson s.additional) = s.additional
  properties : ReadsBack (readRecord read)
    (fun fields => .obj (fields.map fun m => (m.1, m.2.toJson))) s.properties
  allOf : ReadsBack (readList read) (fun parts => .arr (parts.map toJson)) s.allOf

theorem faithful_empty : Faithful {} where
  keywords := Keywords.faithful_empty
  items := rfl
  additional := by rw [additionalJson, readAdditional]
  properties := rfl
  allOf := rfl

def partNames : List String := ["items", "additionalProperties", "properties", "allOf"]

theorem not_mem_partNames {key : String} (h : isExtensionName key = true) : key ∉ partNames := by
  have hnames : ∀ name ∈ partNames, isExtensionName name = false := by decide
  intro hm
  rw [hnames key hm] at h
  cases h

theorem readMember_keyword (s : Schema) {key : String} (h : key ∉ partNames) (value : Json) :
    readMember s key value =
      (s.toKeywords.readMember key value).map fun k => { s with toKeywords := k } := by
  unfold readMember
  split
  case h_5 => rfl
  all_goals exact absurd (by decide) h

theorem read_keywords {l : List (String × Json)} (h : ∀ m ∈ l, m.1 ∉ partNames) (s : Schema) :
    l.foldlM (fun s m => readMember s m.1 m.2) s =
      (l.foldlM (fun k m => Keywords.readMember k m.1 m.2) s.toKeywords).map
        fun k => { s with toKeywords := k } :=
  foldlM_component (p := toKeywords) (s := fun s k => { s with toKeywords := k })
    (fun _ _ => rfl) (fun _ _ _ => rfl) (fun s => by cases s; rfl)
    (fun m hm s => readMember_keyword s (h m hm) m.2) s

theorem Faithful.read_toJson {s : Schema} (h : s.Faithful) : read s.toJson = .ok s := by
  obtain ⟨k, items, additional, properties, allOf⟩ := s
  have hkeywords : ∀ m ∈ k.members, m.1 ∉ partNames := by
    simp [Keywords.members, Facets.members, partNames]
  have hextensions : ∀ m ∈ k.extensions, m.1 ∉ partNames := fun m hm =>
    not_mem_partNames (h.keywords.extensions m hm)
  rw [toJson, read, readMembers_eq_foldlM, List.append_assoc]
  refine (foldlM_append_ok (b := { toKeywords := { k with extensions := [] } }) ?_).trans ?_
  · rw [read_keywords hkeywords, h.keywords.read_members]
    rfl
  refine (foldlM_append_ok
    (b := ⟨{ k with extensions := [] }, items, additional, properties, allOf⟩) ?_).trans ?_
  · simp [readMember, itemsJson_eq, namedJson_eq, allJson_eq, readItems_eq, readProperties_eq,
      readParts_eq, h.items, h.additional, h.properties, h.allOf]
  · rw [read_keywords hextensions, Keywords.read_extensions h.keywords.extensions]
    rfl

variable {value : Json}

theorem readAdditional_of_ok {members : List (String × Json)} {s : Schema}
    (h : read (.obj members) = .ok s) : readAdditional (.obj members) = some (.schema s) := by
  rw [readAdditional, h] <;> simp

theorem readAdditional_of_error {members : List (String × Json)} {e : Mismatch}
    (h : read (.obj members) = .error e) :
    readAdditional (.obj members) = some (.malformed (.obj members)) := by
  rw [readAdditional, h] <;> simp

theorem readAdditional_toJson {s : Schema} (h : ReadsBack read toJson s) :
    readAdditional s.toJson = some (.schema s) := by
  obtain ⟨k, items, additional, properties, allOf⟩ := s
  have h : read (toJson _) = .ok _ := h
  rw [toJson] at h ⊢
  exact readAdditional_of_ok h

theorem additional_kept (h : Kept read toJson value) :
    readAdditional (additionalJson (readAdditional value)) = readAdditional value := by
  cases value with
  | obj members =>
    cases hs : read (.obj members) with
    | ok s =>
      rw [readAdditional_of_ok hs, additionalJson]
      exact readAdditional_toJson (h s hs)
    | error e => rw [readAdditional_of_error hs, additionalJson, readAdditional_of_error hs]
  | _ => simp [readAdditional, additionalJson, read]

theorem Faithful.readMember {s : Schema} (hs : s.Faithful) (key : String)
    (h : Kept read toJson value) (hp : ∀ part ∈ value.parts, Kept read toJson part) :
    Gives (Schema.readMember s key value) Faithful := by
  unfold Schema.readMember
  rw [readItems_eq, readProperties_eq, readParts_eq]
  split
  · exact .map ((Kept.optional toJson_ne_null h).mono fun v hv => { hs with items := hv })
  · exact .ok { hs with additional := additional_kept h }
  · exact .map ((Kept.record hp).mono fun v hv => { hs with properties := hv })
  · exact .map ((Kept.list hp).mono fun v hv => { hs with allOf := hv })
  · exact .map ((hs.keywords.readMember key value).mono fun k hk => { hs with keywords := hk })

theorem read_faithful (value : Json) : Gives (read value) Faithful := by
  -- All schemas in the schema are in the parts of the value or right below them.
  suffices h : Gives (read value) Faithful ∧ ∀ part ∈ value.parts, Kept read toJson part from h.1
  induction value using Json.induct with
  | h value ih =>
    refine ⟨?_, fun part hm => (ih part hm).1.mono fun s hs => hs.read_toJson⟩
    rw [read_eq_readPart]
    cases value with
    | obj members =>
      refine .foldlM faithful_empty fun m hm s hs => ?_
      have hm := ih m.2 (List.mem_map_of_mem hm)
      exact hs.readMember m.1 (hm.1.mono fun s hs => hs.read_toJson) hm.2
    | _ => exact .error _

theorem read_kept (value : Json) : Kept read toJson value :=
  (read_faithful value).mono fun _ hs => hs.read_toJson

theorem optional_kept (value : Json) : Kept (readOptional read) (ofOption toJson) value :=
  .optional toJson_ne_null (read_kept value)

end Schema

end ApiModel
