import ApiModel.Proofs.Positions
import ApiModel.Proofs.Inversion
import Mathlib.Data.List.DropRight

/-! # Where definitions lead

The sites below the definitions of a document, each with its position: what a resolution of all
definitions comes by, in whatever order it takes them. A position has one site, and below one that
is a definition or a member there is one way on until the next object type.
-/

namespace ApiModel

open Resolution

/-- The site that a branch leads to. A part of an `allOf` is there for its members, so they take
their names from the schema that it is a part of. -/
def Site.follow? (site : Site) : Branch → Option Site
  | .items => site.schema.items.map fun s => site.inside s "Item" "items"
  | .value => site.schema.dictionary?.join.map fun s => site.inside s "Value" "additionalProperties"
  | .property name => (Fields.get? site.schema.properties name).map fun s =>
      ⟨s, Naming.nested site.name name, (site.pointer.child "properties").child name, site.name⟩
  | .part i => site.schema.allOf[i]?.map fun s =>
      ⟨s, site.name, (site.pointer.child "allOf").item i, site.name⟩

def Document.siteAt? (d : Document) (p : Position) : Option Site :=
  match p.root with
  | .definition name => (Fields.get? d.definitions name).bind fun s =>
      p.path.foldlM Site.follow? (definitionSite name s)
  | _ => none

theorem Document.siteAt?_child {d : Document} {p : Position} {site : Site} {b : Branch}
    (h : d.siteAt? p = some site) : d.siteAt? (p.child b) = site.follow? b := by
  unfold siteAt? at h ⊢
  obtain ⟨root, path⟩ := p
  cases root with
  | definition name =>
    obtain ⟨s, hs, h⟩ := Option.bind_eq_some_iff.mp h
    simp only [Position.child, hs, Option.bind_some, List.foldlM_append, h]
    show (site.follow? b).bind (fun site => [].foldlM Site.follow? site) = _
    simp
  | _ => cases h

namespace Branch

def isInner : Branch → Bool
  | items | value => true
  | _ => false

end Branch

namespace Position

/-- The definition or member that a position is inside of, not counting arrays and dictionaries. -/
def stem (p : Position) : Position := ⟨p.root, p.path.rdropWhile Branch.isInner⟩

theorem stem_inner (p : Position) {b : Branch} (h : b.isInner = true) :
    (p.child b).stem = p.stem := by
  simp only [stem, child, List.rdropWhile_concat_pos _ _ _ h]

theorem stem_outer (p : Position) {b : Branch} (h : b.isInner = false) :
    (p.child b).stem = p.child b := by
  have hb : ¬ b.isInner = true := by simp [h]
  simp only [stem, child, List.rdropWhile_concat_neg _ _ _ hb]

theorem child_inj {p q : Position} {b c : Branch} (h : p.child b = q.child c) : p = q ∧ b = c := by
  obtain ⟨root, path⟩ := p
  obtain ⟨root', path'⟩ := q
  obtain ⟨rfl, hp⟩ := Position.mk.inj h
  obtain ⟨rfl, hb⟩ := List.append_inj' hp rfl
  exact ⟨rfl, List.singleton_inj.mp hb⟩

end Position

namespace Schema

variable {schema part s : Schema} {pointer : Pointer} {name : String} {i : Nat}

theorem property_mem_declaredMembers (h : (name, s) ∈ schema.properties) :
    (⟨name, s, (pointer.child "properties").child name⟩ : Member) ∈
      schema.declaredMembers pointer :=
  mem_declaredMembers_iff.mpr (.inl ⟨_, h, rfl⟩)

theorem partProperty_mem_declaredMembers (hp : (part, i) ∈ schema.allOf.zipIdx)
    (hr : part.reference = none) (h : (name, s) ∈ part.properties) :
    (⟨name, s, (((pointer.child "allOf").item i).child "properties").child name⟩ : Member) ∈
      schema.declaredMembers pointer :=
  mem_declaredMembers_iff.mpr (.inr ⟨part, i, hp, hr, _, h, rfl⟩)

theorem part_mem_baseParts {text : String} (hp : (part, i) ∈ schema.allOf.zipIdx)
    (hr : part.reference = some text) :
    (⟨text, part, (pointer.child "allOf").item i⟩ : BasePart) ∈ schema.baseParts pointer :=
  List.mem_filterMap.mpr ⟨(part, (pointer.child "allOf").item i),
    List.mem_map.mpr ⟨_, hp, rfl⟩, by simp [hr]⟩

theorem reference_of_mem_baseParts {base : BasePart} (h : base ∈ schema.baseParts pointer) :
    base.schema.reference ≠ none := by
  obtain ⟨⟨part, _⟩, -, hr⟩ := List.mem_filterMap.mp h
  obtain ⟨text, ht, rfl⟩ := Option.map_eq_some_iff.mp hr
  exact fun hn => nomatch hn.symm.trans ht

end Schema

/-- The sites that resolving the definitions of a document comes by. -/
inductive Document.Occurs (d : Document) : Position → Site → Prop where
  | definition {name : String} {s : Schema} (h : Fields.get? d.definitions name = some s) :
      Occurs d ⟨.definition name, []⟩ (definitionSite name s)
  | items {p : Position} {site : Site} {clash : Bool} {s : Schema} (h : Occurs d p site)
      (hr : site.schema.route = .array clash) (hi : site.schema.items = some s) :
      Occurs d (p.child .items) (site.inside s "Item" "items")
  | value {p : Position} {site : Site} {s : Schema} (h : Occurs d p site)
      (hr : site.schema.route = .dictionary (some s)) :
      Occurs d (p.child .value) (site.inside s "Value" "additionalProperties")
  | property {p : Position} {site : Site} {name : String} {s : Schema} (h : Occurs d p site)
      (hs : site.schema.isComposite = true) (hm : (name, s) ∈ site.schema.properties) :
      Occurs d (p.child (.property name))
        ⟨s, Naming.nested site.name name, (site.pointer.child "properties").child name, site.name⟩
  | partProperty {p : Position} {site : Site} {part : Schema} {i : Nat} {name : String}
      {s : Schema} (h : Occurs d p site) (hs : site.schema.isComposite = true)
      (hp : (part, i) ∈ site.schema.allOf.zipIdx) (hr : part.reference = none)
      (hm : (name, s) ∈ part.properties) :
      Occurs d ((p.child (.part i)).child (.property name))
        ⟨s, Naming.nested site.name name,
          (((site.pointer.child "allOf").item i).child "properties").child name, site.name⟩
  | base {p : Position} {site : Site} {part : Schema} {i : Nat} (h : Occurs d p site)
      (hs : site.schema.isComposite = true) (hp : (part, i) ∈ site.schema.allOf.zipIdx)
      (hr : part.reference ≠ none) :
      Occurs d (p.child (.part i)) ⟨part, site.name, (site.pointer.child "allOf").item i, site.name⟩

namespace Document.Occurs

variable {d : Document} {p q : Position} {site other : Site}

theorem pointer_eq (h : d.Occurs p site) : p.pointer = site.pointer := by
  induction h with
  | definition => exact Position.pointer_root _
  | items _ _ _ ih => rw [Position.pointer_items, ih]; rfl
  | value _ _ ih => rw [Position.pointer_value, ih]; rfl
  | property _ _ _ ih => rw [Position.pointer_property, ih]
  | partProperty _ _ _ _ _ ih => rw [Position.pointer_property, Position.pointer_part, ih]
  | base _ _ _ _ ih => rw [Position.pointer_part, ih]

theorem stands {roots : Pointer → Schema → Prop} (h : d.Occurs p site) :
    Resolution.Stands d roots site.pointer site.schema := by
  induction h with
  | definition h => exact .definition h
  | items _ _ hi ih => exact .items ih hi
  | value _ hr ih => exact .value ih (Schema.dictionary_of_route hr).2.2
  | property _ _ hm ih => exact .property ih hm
  | partProperty _ _ hp _ hm ih => exact .property (.part ih hp) hm
  | base _ _ hp _ ih => exact .part ih hp

theorem siteAt?_eq (hn : d.NamesOnce) (h : d.Occurs p site) : d.siteAt? p = some site := by
  induction h with
  | @definition name s h => simp [siteAt?, h]
  | items _ _ hi ih => rw [siteAt?_child ih, Site.follow?, hi]; rfl
  | value _ hr ih =>
    rw [siteAt?_child ih, Site.follow?, (Schema.dictionary_of_route hr).2.2]
    rfl
  | property h _ hm ih =>
    rw [siteAt?_child ih, Site.follow?, Fields.get?_of_mem (hn.nodup_properties h.stands) hm]
    rfl
  | @partProperty p site part i name s h _ hp _ hm ih =>
    have hpart : d.siteAt? (p.child (.part i)) =
        some ⟨part, site.name, (site.pointer.child "allOf").item i, site.name⟩ := by
      rw [siteAt?_child ih, Site.follow?, List.mk_mem_zipIdx_iff_getElem?.mp hp]
      rfl
    have hstands : d.Stands ((site.pointer.child "allOf").item i) part := .part h.stands hp
    rw [siteAt?_child hpart, Site.follow?, Fields.get?_of_mem (hn.nodup_properties hstands) hm]
    rfl
  | base _ _ hp _ ih =>
    rw [siteAt?_child ih, Site.follow?, List.mk_mem_zipIdx_iff_getElem?.mp hp]
    rfl

theorem unique (hn : d.NamesOnce) (h : d.Occurs p site) (h' : d.Occurs q other)
    (ho : site.pointer.text = other.pointer.text) : p = q ∧ site = other := by
  have hp : p.pointer = q.pointer := by
    rw [h.pointer_eq, h'.pointer_eq]
    exact Pointer.text_injective ho
  obtain rfl := Position.pointer_injective hp
  exact ⟨rfl, Option.some.inj ((h.siteAt?_eq hn).symm.trans (h'.siteAt?_eq hn))⟩

theorem inside (h : d.Occurs p site) (hr : site.schema.reference = none)
    (hx : site.next? d = some other) : ∃ b : Branch, b.isInner = true ∧
      d.Occurs (p.child b) other := by
  unfold Site.next? at hx
  split at hx
  · rename_i text hroute
    rw [Schema.reference_of_route hroute] at hr
    cases hr
  · rename_i clash hroute
    obtain ⟨s, hs, rfl⟩ := Option.map_eq_some_iff.mp hx
    exact ⟨.items, rfl, h.items hroute hs⟩
  · rename_i s hroute
    cases hx
    exact ⟨.value, rfl, h.value hroute⟩
  · cases hx

theorem member (h : d.Occurs p site) (hs : site.schema.isComposite = true) {m : Member}
    (hm : m ∈ site.schema.declaredMembers site.pointer) :
    d.Occurs (p.child (.property m.name)) (m.site site.name) ∨
      ∃ i, d.Occurs ((p.child (.part i)).child (.property m.name)) (m.site site.name) := by
  obtain ⟨⟨name, s⟩, hmem, rfl⟩ | ⟨part, i, hp, hr, ⟨name, s⟩, hmem, rfl⟩ :=
    Schema.mem_declaredMembers_iff.mp hm
  · exact .inl (h.property hs hmem)
  · exact .inr ⟨i, h.partProperty hs hp hr hmem⟩

theorem exists_member (h : d.Occurs p site) (hs : site.schema.isComposite = true) {m : Member}
    (hm : m ∈ site.schema.declaredMembers site.pointer) : ∃ q, d.Occurs q (m.site site.name) := by
  obtain hq | ⟨i, hq⟩ := h.member hs hm
  · exact ⟨_, hq⟩
  · exact ⟨_, hq⟩

theorem basePart (h : d.Occurs p site) (hs : site.schema.isComposite = true) {part : BasePart}
    (hp : part ∈ site.schema.baseParts site.pointer) :
    ∃ q, d.Occurs q (part.site site.name) := by
  obtain ⟨⟨schema, pointer⟩, hq, hr⟩ := List.mem_filterMap.mp hp
  obtain ⟨⟨schema, i⟩, hm, hq⟩ := List.mem_map.mp hq
  cases hq
  obtain ⟨text, ht, rfl⟩ := Option.map_eq_some_iff.mp hr
  have hne : schema.reference ≠ none := fun hn => nomatch hn.symm.trans ht
  exact ⟨_, h.base hs hm hne⟩

end Document.Occurs

/-- Sites of a document that resolving any of them does not lead out of. An object type among them
is told from the others by its name and its place; whom its defects are reported for is left
open. -/
structure Document.Region (d : Document) (R : Site → Prop) : Prop where
  definition : ∀ {name s}, Fields.get? d.definitions name = some s → R (definitionSite name s)
  items : ∀ {site clash s}, R site → site.schema.route = .array clash →
    site.schema.items = some s → R (site.inside s "Item" "items")
  value : ∀ {site s}, R site → site.schema.route = .dictionary (some s) →
    R (site.inside s "Value" "additionalProperties")
  member : ∀ {site m}, R site → site.schema.isComposite = true →
    m ∈ site.schema.declaredMembers site.pointer → R (m.site site.name)
  base : ∀ {site part}, R site → site.schema.isComposite = true →
    part ∈ site.schema.baseParts site.pointer → R (part.site site.name)
  unique : ∀ {site other}, R site → R other → site.schema.isComposite = true →
    other.schema.isComposite = true → Text.caseKey site.name = Text.caseKey other.name →
      site.pointer.text = other.pointer.text → other = { site with owner := other.owner }

def Document.HasSite (d : Document) (site : Site) : Prop := ∃ p, d.Occurs p site

/-- The sites of the definitions are in every region. -/
theorem Document.Region.of_occurs {d : Document} {R : Site → Prop} (hR : d.Region R) {p : Position}
    {site : Site} (h : d.Occurs p site) : R site := by
  induction h with
  | definition h => exact hR.definition h
  | items _ hr hi ih => exact hR.items ih hr hi
  | value _ hr ih => exact hR.value ih hr
  | property _ hs hm ih => exact hR.member ih hs (Schema.property_mem_declaredMembers hm)
  | partProperty _ hs hp hr hm ih =>
    exact hR.member ih hs (Schema.partProperty_mem_declaredMembers hp hr hm)
  | base _ hs hp hr ih =>
    obtain ⟨text, ht⟩ := Option.ne_none_iff_exists'.mp hr
    exact hR.base ih hs (Schema.part_mem_baseParts hp ht)

theorem Document.NamesOnce.region {d : Document} (hn : d.NamesOnce) : d.Region d.HasSite where
  definition h := ⟨_, .definition h⟩
  items := fun ⟨_, h⟩ hr hi => ⟨_, h.items hr hi⟩
  value := fun ⟨_, h⟩ hr => ⟨_, h.value hr⟩
  member := fun ⟨_, h⟩ hs hm => h.exists_member hs hm
  base := fun ⟨_, h⟩ hs hp => h.basePart hs hp
  unique := by
    rintro site other ⟨_, h⟩ ⟨_, h'⟩ - - - ho
    obtain ⟨-, rfl⟩ := h.unique hn h' ho
    rfl

end ApiModel
