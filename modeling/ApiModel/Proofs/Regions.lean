import ApiModel.Proofs.Lawful
import ApiModel.Proofs.Operations

/-! # Where operations lead

The sites that operations use, and the sites that those lead to. Together with the sites of the
definitions they are a region of the document, unless an object type among them is reached under
two names that differ in nothing but case.
-/

namespace ApiModel

open Resolution
open Text (caseKey)

namespace Site

variable {K L : Site → Prop} {site other : Site} {sites : List Site}

def nested (site : Site) : List Site :=
  match site.schema.route with
  | .array _ => (site.schema.items.map fun s => site.inside s "Item" "items").toList
  | .dictionary (some s) => [site.inside s "Value" "additionalProperties"]
  | .composite => (site.schema.declaredMembers site.pointer).map (·.site site.name) ++
      (site.schema.baseParts site.pointer).map (·.site site.name)
  | _ => []

theorem mem_nested : other ∈ site.nested ↔
    (∃ clash s, site.schema.route = .array clash ∧ site.schema.items = some s ∧
      other = site.inside s "Item" "items") ∨
    (∃ s, site.schema.route = .dictionary (some s) ∧
      other = site.inside s "Value" "additionalProperties") ∨
    site.schema.isComposite = true ∧
      ((∃ m ∈ site.schema.declaredMembers site.pointer, other = m.site site.name) ∨
        ∃ part ∈ site.schema.baseParts site.pointer, other = part.site site.name) := by
  rw [← Schema.route_eq_composite_iff]
  unfold nested
  split
  · rename_i hr
    simp [hr, eq_comm]
  · rename_i hr
    simp [hr]
  · rename_i hr
    simp [hr, eq_comm]
  · rename_i harray hdictionary hcomposite
    refine iff_of_false List.not_mem_nil ?_
    rintro (⟨clash, _, hr, -⟩ | ⟨s, hr, -⟩ | ⟨hr, -⟩)
    · exact harray clash hr
    · exact hdictionary s hr
    · exact hcomposite hr

/-- The sites that some sites lead to. -/
inductive Spanned (K : Site → Prop) : Site → Prop where
  | start {site : Site} (h : K site) : Spanned K site
  | nested {site other : Site} (h : Spanned K site) (hm : other ∈ site.nested) : Spanned K other

namespace Spanned

theorem mono (hK : ∀ x, K x → L x) (h : Spanned K site) : Spanned L site := by
  induction h with
  | start h => exact .start (hK _ h)
  | nested _ hm ih => exact .nested ih hm

theorem or (h : Spanned (fun x => K x ∨ L x) site) : Spanned K site ∨ Spanned L site := by
  induction h with
  | start h => exact h.imp .start .start
  | nested _ hm ih => exact ih.imp (.nested · hm) (.nested · hm)

theorem stands {d : Document} (hK : ∀ x, K x → d.Stands x.pointer x.schema)
    (h : Spanned K site) : d.Stands site.pointer site.schema := by
  induction h with
  | start h => exact hK _ h
  | nested _ hother ih =>
    obtain ⟨_, _, -, hi, rfl⟩ | ⟨_, hr, rfl⟩ | ⟨-, ⟨m, hm, rfl⟩ | ⟨part, hp, rfl⟩⟩ :=
      mem_nested.mp hother
    · exact .items ih hi
    · exact .value ih (Schema.dictionary_of_route hr).2.2
    · exact ih.member hm
    · exact ih.base hp

end Spanned

def nestedAfter : Nat → List Site → List Site
  | 0, sites => sites
  | n + 1, sites => nestedAfter n (sites.flatMap nested)

def nestedUpTo : Nat → List Site → List Site
  | 0, _ => []
  | n + 1, sites => sites ++ nestedUpTo n (sites.flatMap nested)

theorem Spanned.cases_step (h : Spanned (· ∈ sites) site) :
    site ∈ sites ∨ Spanned (· ∈ sites.flatMap Site.nested) site := by
  induction h with
  | start h => exact .inl h
  | nested _ hm ih =>
    rcases ih with hmem | hspan
    · exact .inr (.start (List.mem_flatMap.mpr ⟨_, hmem, hm⟩))
    · exact .inr (.nested hspan hm)

theorem Spanned.mem_nestedUpTo {n : Nat} (hend : nestedAfter n sites = [])
    (h : Spanned (· ∈ sites) site) : site ∈ nestedUpTo n sites := by
  induction n generalizing sites with
  | zero =>
    obtain rfl : sites = [] := hend
    induction h with
    | start h => cases h
    | nested _ _ ih => cases ih
  | succ n ih =>
    rcases h.cases_step with h | h
    · exact List.mem_append_left _ h
    · exact List.mem_append_right _ (ih hend h)

end Site

namespace Resolution

def Declared.site? (id : String) (d : Declared) : Option Site :=
  d.node.name.bind fun name => (d.node.location.bind Location.ofName?).bind fun location =>
    (valueSchema d name location).toOption.map fun values =>
      ⟨values.1, Naming.nested (Naming.properCase id) name, values.2, id⟩

def bodySites (id : String) (pointer : Pointer) : Nat → List (String × ResponseNode) → List Site
  | _, [] => []
  | n, (status, node) :: rest =>
    match node.schema with
    | none => bodySites id pointer n rest
    | some schema =>
      ⟨schema, bodyName (Naming.properCase id) status schema n, bodyPointer pointer status, id⟩ ::
        bodySites id pointer (if schema.reference.isNone then n + 1 else n) rest

/-- The sites at which an operation with an id resolves schemas, in order. -/
def Operation.sites (document : Document) (o : Operation) (id : String) : List Site :=
  (mergedParameters document o.declared).filterMap (Declared.site? id) ++
    bodySites id o.pointer 0 o.node.responses

theorem Declared.site?_eq_some {id : String} {d : Declared} {site : Site} :
    d.site? id = some site ↔ ∃ name location schema pointer, d.node.name = some name ∧
      d.node.location.bind Location.ofName? = some location ∧
      valueSchema d name location = .ok (schema, pointer) ∧
      site = ⟨schema, Naming.nested (Naming.properCase id) name, pointer, id⟩ := by
  unfold site?
  constructor
  · intro h
    obtain ⟨name, hn, h⟩ := Option.bind_eq_some_iff.mp h
    obtain ⟨location, hl, h⟩ := Option.bind_eq_some_iff.mp h
    cases hv : valueSchema d name location with
    | error fault =>
      rw [hv] at h
      cases h
    | ok values =>
      rw [hv] at h
      cases h
      exact ⟨name, location, _, _, hn, hl, hv, rfl⟩
  · rintro ⟨name, location, schema, pointer, hn, hl, hv, rfl⟩
    rw [hn, hl, Option.bind_some, Option.bind_some, hv]
    rfl

theorem exists_of_mem_bodySites {id : String} {pointer : Pointer} {site : Site} {n : Nat}
    {nodes : List (String × ResponseNode)} (h : site ∈ bodySites id pointer n nodes) :
    ∃ status node, (status, node) ∈ nodes ∧ node.schema = some site.schema ∧
      site.pointer = bodyPointer pointer status := by
  induction nodes generalizing n with
  | nil => cases h
  | cons first rest ih =>
    obtain ⟨status, node⟩ := first
    have later : ∀ {n}, site ∈ bodySites id pointer n rest → ∃ status' node',
        (status', node') ∈ (status, node) :: rest ∧ node'.schema = some site.schema ∧
          site.pointer = bodyPointer pointer status' := by
      intro n h
      obtain ⟨status', node', hm, hs⟩ := ih h
      exact ⟨status', node', List.mem_cons_of_mem _ hm, hs⟩
    unfold bodySites at h
    split at h
    · exact later h
    · rename_i schema hs
      rcases List.mem_cons.mp h with rfl | h
      · exact ⟨status, node, List.mem_cons_self .., hs, rfl⟩
      · exact later h

end Resolution

namespace Document

variable {d : Document} {operations : List Operation} {site : Site}

def sitesOf (d : Document) (operations : List Operation) : List Site :=
  operations.flatMap fun o => o.node.operationId.elim [] (o.sites d)

def definitionSites (d : Document) : List Site :=
  d.definitions.map fun p => definitionSite p.1 p.2

/-- The sites that the definitions and some operations lead to. -/
def Touches (d : Document) (operations : List Operation) : Site → Prop :=
  Site.Spanned fun site => site ∈ d.definitionSites ∨ site ∈ d.sitesOf operations

/-- No object type that the definitions and some operations lead to has two names that differ in
nothing but case. Only operations that share the parameters of a path can give it several names.
This is not only asked of types with a discriminator, whose names are values: of names that differ
in case, those of the types nested in them may differ in more than that. -/
def SpelledOnce (d : Document) (operations : List Operation) : Prop :=
  ∀ site other, d.Touches operations site → d.Touches operations other →
    site.schema.isComposite = true → other.schema.isComposite = true →
      site.pointer = other.pointer → caseKey site.name = caseKey other.name →
        site.name = other.name

theorem mem_sitesOf : site ∈ d.sitesOf operations ↔
    ∃ o ∈ operations, ∃ id, o.node.operationId = some id ∧ site ∈ o.sites d id := by
  unfold sitesOf
  rw [List.mem_flatMap]
  refine exists_congr fun o => and_congr_right fun _ => ?_
  cases o.node.operationId with
  | none => simp
  | some id => simp

theorem stands_of_mem_sitesOf (ho : operations ⊆ operationsOf d) (h : site ∈ d.sitesOf operations) :
    d.Stands site.pointer site.schema := by
  obtain ⟨o, hm, id, -, h⟩ := mem_sitesOf.mp h
  rcases List.mem_append.mp h with h | h
  · obtain ⟨declared, hd, h⟩ := List.mem_filterMap.mp h
    obtain ⟨name, location, schema, pointer, hn, hl, hv, rfl⟩ := Declared.site?_eq_some.mp h
    obtain ⟨e, he, hde⟩ := exists_of_mem_mergedParameters hd
    exact .root ⟨o, ho hm, .inl ⟨e, he, declared, hde, name, location, hn, hl, hv⟩⟩
  · obtain ⟨status, node, hn, hs, hp⟩ := exists_of_mem_bodySites h
    exact .root ⟨o, ho hm, .inr ⟨status, node, hn, hs, hp⟩⟩

theorem Touches.of_sitesOf {others : List Operation} (hsub : operations ⊆ others)
    (h : site ∈ d.sitesOf operations) : d.Touches others site := by
  obtain ⟨o, ho, hid⟩ := mem_sitesOf.mp h
  exact .start (.inr (mem_sitesOf.mpr ⟨o, hsub ho, hid⟩))

theorem Touches.stands (hn : d.NamesOnce) (ho : operations ⊆ operationsOf d)
    (h : d.Touches operations site) : d.Stands site.pointer site.schema := by
  refine Site.Spanned.stands (fun x hx => ?_) h
  obtain hx | hx := hx
  · obtain ⟨p, hp, rfl⟩ := List.mem_map.mp hx
    exact .definition (Fields.get?_of_mem hn.definitions hp)
  · exact stands_of_mem_sitesOf ho hx

/-- Where names are spelled once, what the definitions and the operations lead to is a region. -/
theorem NamesOnce.region_touches (hn : d.NamesOnce) (ho : operations ⊆ operationsOf d)
    (h : d.SpelledOnce operations) : d.Region (d.Touches operations) where
  definition hs := .start (.inl (List.mem_map_of_mem (Fields.mem_of_get? hs)))
  items h hr hi := h.nested (Site.mem_nested.mpr (.inl ⟨_, _, hr, hi, rfl⟩))
  value h hr := h.nested (Site.mem_nested.mpr (.inr (.inl ⟨_, hr, rfl⟩)))
  member h hs hm := h.nested (Site.mem_nested.mpr (.inr (.inr ⟨hs, .inl ⟨_, hm, rfl⟩⟩)))
  base h hs hp := h.nested (Site.mem_nested.mpr (.inr (.inr ⟨hs, .inr ⟨_, hp, rfl⟩⟩)))
  unique {site other} hx hy hs hs' hk htext := by
    have hschema := stands_unique hn (hx.stands hn ho) (hy.stands hn ho) htext
    have hpointer := Pointer.text_injective htext
    have hname := h site other hx hy hs hs' hpointer hk
    obtain ⟨schema, name, pointer, owner⟩ := site
    obtain ⟨schema', name', pointer', owner'⟩ := other
    cases hschema
    cases hpointer
    cases hname
    rfl

theorem spelledOnce_of_nested {n : Nat}
    (hend : Site.nestedAfter n (d.definitionSites ++ d.sitesOf operations) = [])
    (h : ∀ site ∈ Site.nestedUpTo n (d.definitionSites ++ d.sitesOf operations),
      ∀ other ∈ Site.nestedUpTo n (d.definitionSites ++ d.sitesOf operations),
        site.schema.isComposite = true → other.schema.isComposite = true →
          site.pointer = other.pointer → caseKey site.name = caseKey other.name →
            site.name = other.name) : d.SpelledOnce operations := by
  have hfound : ∀ {site}, d.Touches operations site →
      site ∈ Site.nestedUpTo n (d.definitionSites ++ d.sitesOf operations) := fun ht =>
    (ht.mono fun _ hx => List.mem_append.mpr hx).mem_nestedUpTo hend
  exact fun site other hs ho => h site (hfound hs) other (hfound ho)

end Document

end ApiModel
