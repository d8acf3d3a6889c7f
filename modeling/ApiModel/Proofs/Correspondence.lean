import ApiModel.Proofs.Lawful
import ApiModel.Proofs.Lockstep

/-! # Two resolutions of one document

Two resolutions of all definitions that find no defect have found the same, whatever the order in
which they have taken them: for each entry of the one catalog there is one of its shape in the
other, and so the states that they leave behind differ in nothing but indices.
-/

namespace ApiModel.Resolution

open Text (caseKey)

variable {context : Context} {c d : Catalog} {s t : State} {site : Site} {ρ : Renumbering}

/-- What a resolution of all definitions leaves behind if it finds no defect and starts with
nothing. -/
structure Concluded (context : Context) (t : State) : Prop extends
    Complete context context.document.HasSite t where
  originsOnce : t.catalog.OriginsOnce
  frames : t.frames = []

theorem Concluded.type_unique (h : Concluded context t) {x y : ModelType} {shape : Shape}
    (hx : Denotes t.catalog x shape) (hy : Denotes t.catalog y shape) : x = y :=
  Catalog.OriginsOnce.type_unique h.originsOnce h.inv.keyed h.inv.enums hx hy

/-- Types of two catalogs have the same shape. -/
def SameShape (c d : Catalog) (x y : ModelType) : Prop :=
  ∃ shape, Denotes c x shape ∧ Denotes d y shape

theorem SameShape.symm {x y : ModelType} (h : SameShape c d x y) : SameShape d c y x := by
  obtain ⟨shape, hx, hy⟩ := h
  exact ⟨shape, hy, hx⟩

theorem SameShape.right_unique (h : Concluded context t) {x y z : ModelType}
    (hy : SameShape c t.catalog x y) (hz : SameShape c t.catalog x z) : y = z := by
  obtain ⟨shape, hx, hy⟩ := hy
  obtain ⟨shape', hx', hz⟩ := hz
  obtain rfl := hx.shape_unique hx'
  exact h.type_unique hy hz

section Existence

variable (h : Complete context context.document.HasSite s)
  (h' : Complete context context.document.HasSite t) (hn : context.document.NamesOnce)
include h h' hn

/-- What has been found the one time has been found the other time. -/
theorem Complete.exists_denotes {x : ModelType} {shape : Shape} (hx : Denotes s.catalog x shape) :
    ∃ y, Denotes t.catalog y shape := by
  have found : ∀ {site shape}, context.document.HasSite site → Shaped context site shape →
      ∃ y, Denotes t.catalog y shape := by
    intro site shape ho hs
    obtain ⟨y, _, hs', hy⟩ := h'.covers hn.region ho
    exact ⟨y, hs'.unique hs ▸ hy⟩
  induction hx with
  | scalar kind => exact ⟨_, .scalar kind⟩
  | named he hname =>
    obtain ⟨site, shape, ho, hs, hx⟩ := h.fits.enums he
    exact found ho (hx.shape_unique (.named he hname) ▸ hs)
  | anonymous he hname =>
    obtain ⟨site, shape, ho, hs, hx⟩ := h.fits.enums he
    exact found ho (hx.shape_unique (.anonymous he hname) ▸ hs)
  | sequence _ ih =>
    obtain ⟨y, hy⟩ := ih
    exact ⟨_, .sequence hy⟩
  | dictionary _ ih =>
    obtain ⟨y, hy⟩ := ih
    exact ⟨_, .dictionary hy⟩
  | composite hc =>
    obtain ⟨site, ho, hs, hname, horigin, -⟩ := h.fits.composites hc
    rw [hname, horigin]
    exact found ho (.composite (Schema.route_eq_composite_iff.mpr hs))

end Existence

namespace SameShape

variable {y : ModelType}

theorem exists_composite {id : CompositeId} (h : SameShape c d (.composite id) y) :
    ∃ other, y = .composite other ∧ other.index < d.composites.length := by
  obtain ⟨shape, hx, hy⟩ := h
  cases hy with
  | composite hc => exact ⟨_, rfl, Catalog.index_lt hc⟩
  | _ => cases hx

theorem exists_enum {id : EnumId} (h : SameShape c d (.enum id) y) :
    ∃ other, y = .enum other ∧ other.index < d.enums.length := by
  obtain ⟨shape, hx, hy⟩ := h
  cases hy with
  | named he | anonymous he => exact ⟨_, rfl, Catalog.enum_index_lt he⟩
  | _ => cases hx

end SameShape

/-- A renumbering takes each type of a catalog to the one of its shape in another. -/
structure Carries (ρ : Renumbering) (c d : Catalog) : Prop where
  denotes : ∀ {x shape}, Denotes c x shape → Denotes d (ρ.type x) shape
  compositeCount : d.composites.length = c.composites.length
  enumCount : d.enums.length = c.enums.length
  fixedComposites : ∀ i, c.composites.length ≤ i → ρ.composites i = i
  fixedEnums : ∀ i, c.enums.length ≤ i → ρ.enums i = i

theorem exists_carries (h : Concluded context s) (h' : Concluded context t)
    (hn : context.document.NamesOnce) : ∃ ρ, Carries ρ s.catalog t.catalog := by
  have composites : ∀ {s t}, Concluded context s → Concluded context t →
      ∀ i < s.catalog.composites.length, ∃ j < t.catalog.composites.length,
        SameShape s.catalog t.catalog (.composite ⟨i⟩) (.composite ⟨j⟩) := by
    intro s t h h' i hi
    obtain ⟨composite, hc⟩ := Catalog.composite?_of_index_lt (c := s.catalog) hi
    obtain ⟨y, hy⟩ := h.toComplete.exists_denotes h'.toComplete hn (.composite hc)
    have hsame : SameShape s.catalog t.catalog (.composite ⟨i⟩) y := ⟨_, .composite hc, hy⟩
    obtain ⟨other, rfl, hlt⟩ := hsame.exists_composite
    exact ⟨other.index, hlt, hsame⟩
  have enums : ∀ {s t}, Concluded context s → Concluded context t →
      ∀ i < s.catalog.enums.length, ∃ j < t.catalog.enums.length,
        SameShape s.catalog t.catalog (.enum ⟨i⟩) (.enum ⟨j⟩) := by
    intro s t h h' i hi
    obtain ⟨e, he⟩ := Catalog.enum?_of_index_lt (c := s.catalog) hi
    obtain ⟨-, shape, -, -, hx⟩ := h.fits.enums he
    obtain ⟨y, hy⟩ := h.toComplete.exists_denotes h'.toComplete hn hx
    have hsame : SameShape s.catalog t.catalog (.enum ⟨i⟩) y := ⟨_, hx, hy⟩
    obtain ⟨other, rfl, hlt⟩ := hsame.exists_enum
    exact ⟨other.index, hlt, hsame⟩
  obtain ⟨hcount, π, hπ, hπfix⟩ := exists_perm_of_correspondence (composites h h')
    (fun j hj => (composites h' h j hj).imp fun _ ⟨hi, hs⟩ => ⟨hi, hs.symm⟩)
    (fun hj hj' => by simpa using hj.right_unique h' hj')
    (fun hi hi' => by simpa using hi.symm.right_unique h hi'.symm)
  obtain ⟨hcount', σ, hσ, hσfix⟩ := exists_perm_of_correspondence (enums h h')
    (fun j hj => (enums h' h j hj).imp fun _ ⟨hi, hs⟩ => ⟨hi, hs.symm⟩)
    (fun hj hj' => by simpa using hj.right_unique h' hj')
    (fun hi hi' => by simpa using hi.symm.right_unique h hi'.symm)
  refine ⟨⟨π, σ⟩, fun {x shape} hx => ?_, hcount, hcount', hπfix, hσfix⟩
  have same : ∀ {x y shape}, SameShape s.catalog t.catalog x y → Denotes s.catalog x shape →
      Denotes t.catalog y shape := by
    rintro x y shape ⟨shape', hx', hy⟩ hx
    exact hx'.shape_unique hx ▸ hy
  induction hx with
  | scalar kind => exact .scalar kind
  | named he hname => exact same (hσ _ (Catalog.enum_index_lt he)) (.named he hname)
  | anonymous he hname => exact same (hσ _ (Catalog.enum_index_lt he)) (.anonymous he hname)
  | sequence _ ih => exact .sequence ih
  | dictionary _ ih => exact .dictionary ih
  | composite hc => exact same (hπ _ (Catalog.index_lt hc)) (.composite hc)

theorem Gathers.forall₂ {becomes becomes' : Member → Property → Prop}
    {S : Property → Property → Prop} (hS : ∀ {m p q}, becomes m p → becomes' m q → S p q)
    (hname : ∀ {p q}, S p q → q.name = p.name) {members : List Member} {ps qs : List Property}
    (h : Gathers becomes False members ps) (h' : Gathers becomes' False members qs) :
    List.Forall₂ S ps qs := by
  induction h generalizing qs with
  | nil =>
    generalize hl : ([] : List Member) = members at h'
    cases h' with
    | nil => exact .nil
    | lost _ hlost => exact hlost.elim
    | _ => simp at hl
  | @new before ps m p _ hnew hp ih =>
    generalize hl : before ++ [m] = members at h'
    cases h' with
    | nil => simp at hl
    | new h' _ hq =>
      obtain ⟨rfl, hm⟩ := List.append_inj' hl rfl
      cases hm
      exact List.rel_append (ih h') (.cons (hS hp hq) .nil)
    | again h' hold _ =>
      obtain ⟨rfl, hm⟩ := List.append_inj' hl rfl
      cases hm
      obtain ⟨q, hq, hqm⟩ := hold
      obtain ⟨p', hp', hpq⟩ := exists_of_mem_forall₂ (ih h') hq
      exact absurd ((hname hpq).symm.trans hqm) (hnew p' hp')
    | lost _ hlost => exact hlost.elim
  | @again before ps m p _ hold _ ih =>
    generalize hl : before ++ [m] = members at h'
    cases h' with
    | nil => simp at hl
    | new h' hnew _ =>
      obtain ⟨rfl, hm⟩ := List.append_inj' hl rfl
      cases hm
      obtain ⟨p', hp', hpm⟩ := hold
      obtain ⟨q, hq, hpq⟩ := exists_of_mem_forall₂ (ih h').flip hp'
      exact absurd ((hname hpq).trans hpm) (hnew q hq)
    | again h' _ _ =>
      obtain ⟨rfl, hm⟩ := List.append_inj' hl rfl
      exact ih h'
    | lost _ hlost => exact hlost.elim
  | lost _ hlost => exact hlost.elim

/-- Where base parts have the same shapes in two catalogs, the bases correspond. -/
theorem base_eq {f : CompositeId → CompositeId} (hf : ∀ {i j shape},
      Denotes c (.composite i) shape → Denotes d (.composite j) shape → j = f i)
    {parts : List BasePart} {base base' : Option CompositeId}
    (h : List.Forall₂ (fun part id => ∃ shape, Shaped context (part.site site.name) shape ∧
      Denotes c (.composite id) shape) parts base.toList)
    (h' : List.Forall₂ (fun part id => ∃ shape, Shaped context (part.site site.name) shape ∧
      Denotes d (.composite id) shape) parts base'.toList) :
    base' = base.map f := by
  have hlen := h.length_eq.symm.trans h'.length_eq
  cases base with
  | none =>
    cases base' with
    | none => rfl
    | some id => simp at hlen
  | some id =>
    cases base' with
    | none => simp at hlen
    | some id' =>
      cases h with
      | cons hid _ =>
        cases h' with
        | cons hid' _ =>
          obtain ⟨shape, hs, hx⟩ := hid
          obtain ⟨shape', hs', hy⟩ := hid'
          obtain rfl := hs.unique hs'
          exact congrArg some (hf hx hy)

section Bodies

variable (hc : Carries ρ s.catalog t.catalog) (ht : Concluded context t)
include hc ht

theorem Carries.type_eq {x y : ModelType} {shape : Shape} (hx : Denotes s.catalog x shape)
    (hy : Denotes t.catalog y shape) : y = ρ.type x := ht.type_unique hy (hc.denotes hx)

theorem Conveys.eq_property {owner : String} {required : List String} {m : Member}
    {p q : Property} (h : Conveys context s.catalog owner required m p)
    (h' : Conveys context t.catalog owner required m q) : q = ρ.property p := by
  obtain ⟨x, shape, constraints, hs, hx, hk, rfl⟩ := h
  obtain ⟨y, shape', constraints', hs', hy, hk', rfl⟩ := h'
  obtain rfl := hs.unique hs'
  cases hk.symm.trans hk'
  rw [hc.type_eq ht hx hy]
  rfl

theorem Mirrors.renumbered {a b : Composite} (h : Mirrors context s.catalog site a)
    (h' : Mirrors context t.catalog site b) (hname : b.name = a.name)
    (horigin : b.origin = a.origin) : Composite.Renumbered ρ a b where
  name := hname
  origin := horigin
  description := h'.description.trans h.description.symm
  properties := by
    have hall : List.Forall₂ (fun p q => ρ.property p = q) a.properties b.properties :=
      h.properties.forall₂ (S := fun p q => ρ.property p = q)
        (fun hp hq => (hp.eq_property hc ht hq).symm) (fun hpq => hpq ▸ rfl) h'.properties
    exact (List.forall₂_eq_eq_eq ▸ List.forall₂_map_left_iff.mpr hall).symm
  base := base_eq (fun hx hy => ModelType.composite.inj (hc.type_eq ht hx hy)) h.base h'.base
  discriminator := h'.discriminator.trans h.discriminator.symm
  discriminatorValue := h'.value.trans h.value.symm
  derived := by
    rw [h.derived, h'.derived]
    exact .nil
  progress := h'.progress.trans h.progress.symm

end Bodies

section States

variable (h : Concluded context s) (h' : Concluded context t)
  (hc : Carries ρ s.catalog t.catalog)
include h h' hc

theorem Concluded.composites_renumbered (hn : context.document.NamesOnce) (id : CompositeId) :
    Option.Rel (Composite.Renumbered ρ) (s.catalog.composite? id)
      (t.catalog.composite? (ρ.composite id)) := by
  cases ha : s.catalog.composite? id with
  | none =>
    have hle := List.getElem?_eq_none_iff.mp ha
    have hfix : ρ.composite id = id := congrArg _ (hc.fixedComposites _ hle)
    rw [hfix, Catalog.composite?, List.getElem?_eq_none (hc.compositeCount ▸ hle)]
    exact .none
  | some a =>
    obtain ⟨site, ho, hs, hname, horigin, hstub | ⟨-, hm⟩⟩ := h.fits.composites ha
    · cases hstub.symm.trans (h.filled ha)
    · have hx := hc.denotes (.composite ha)
      rw [hname, horigin] at hx
      obtain ⟨_, b, hid, hb, hname', horigin', -, hm'⟩ := h'.mirrors_of_denotes hn.region ho hs hx
      cases hid
      rw [hb]
      exact .some (hm.renumbered hc h' hm' (hname'.trans hname.symm) (horigin'.trans horigin.symm))

theorem Concluded.enums_renumbered (id : EnumId) : Option.Rel EnumType.Renumbered
    (s.catalog.enum? id) (t.catalog.enum? (ρ.enum id)) := by
  cases ha : s.catalog.enum? id with
  | none =>
    have hle := List.getElem?_eq_none_iff.mp ha
    have hfix : ρ.enum id = id := congrArg _ (hc.fixedEnums _ hle)
    rw [hfix, Catalog.enum?, List.getElem?_eq_none (hc.enumCount ▸ hle)]
    exact .none
  | some a =>
    cases hname : a.name with
    | some given =>
      obtain ⟨_, b, given', hid, hb, hname', hk, hv⟩ :=
        (hc.denotes (.named ha hname)).exists_named
      cases hid
      rw [hb]
      refine .some ⟨hv, ?_, ?_, fun hnone => ?_⟩
      · rw [h.inv.enums.closed ha, h'.inv.enums.closed hb, hname, hname']
        rfl
      · rw [hname, hname', Option.map_some, Option.map_some, hk]
      · cases hname.symm.trans hnone
    | none =>
      obtain ⟨_, b, hid, hb, hname', ho, hv⟩ :=
        (hc.denotes (.anonymous ha hname)).exists_anonymous
      cases hid
      rw [hb]
      refine .some ⟨hv, ?_, ?_, fun _ => ho⟩
      · rw [h.inv.enums.closed ha, h'.inv.enums.closed hb, hname, hname']
      · rw [hname, hname']

theorem Concluded.resolved_eq (key : String) :
    Fields.get? t.resolved key = (Fields.get? s.resolved key).map ρ.type := by
  have hrecall : ∀ {s t : State}, Concluded context s → Concluded context t → ∀ {x},
      Fields.get? s.resolved key = some x → ∃ y, Fields.get? t.resolved key = some y ∧
        SameShape s.catalog t.catalog x y := by
    intro s t h h' x hx
    obtain ⟨name, schema, shape, rfl, -, hd, hs, hdenotes⟩ := h.fits.memo hx
    obtain ⟨-, y, shape', hy, hs', hdenotes'⟩ := h'.remembered hd
    obtain rfl := hs.unique hs'
    exact ⟨y, hy, _, hdenotes, hdenotes'⟩
  cases hx : Fields.get? s.resolved key with
  | some x =>
    obtain ⟨y, hy, shape, hdx, hdy⟩ := hrecall h h' hx
    rw [hy, hc.type_eq h' hdx hdy]
    rfl
  | none =>
    rw [Option.map_none, Option.eq_none_iff_forall_ne_some]
    intro y hy
    obtain ⟨x, hx', -⟩ := hrecall h' h hy
    cases hx.symm.trans hx'

omit hc in
theorem Concluded.claimed_eq (key : String) :
    Fields.get? t.claimed key = Fields.get? s.claimed key := by
  have claim : ∀ {s t : State}, Concluded context s → Concluded context t → ∀ {name},
      Fields.get? s.claimed key = some name → Fields.get? t.claimed key = some name := by
    intro s t h h' name hname
    obtain ⟨rfl, schema, hd⟩ := h.fits.claims hname
    exact (h'.remembered hd).1
  exact Option.ext fun name => ⟨claim h' h, claim h h'⟩

end States

/-- Two resolutions of all definitions of a document that find no defect leave behind the same up
to indices. -/
theorem exists_like (h : Concluded context s) (h' : Concluded context t)
    (hn : context.document.NamesOnce) : ∃ ρ, Like ρ s t := by
  obtain ⟨ρ, hc⟩ := exists_carries h h' hn
  have hcomposites := h.composites_renumbered h' hc hn
  have henums := h.enums_renumbered h' hc
  have hfailed := (h.inv.nothing_failed h.clean).1
  have hfailed' := (h'.inv.nothing_failed h'.clean).1
  exact ⟨ρ, {
    catalog := {
      composites := hcomposites
      enums := henums
      findComposite := Catalog.Keyed.findComposite?_eq h.inv.keyed h'.inv.keyed hcomposites
      findEnum := h.inv.enums.findEnum?_eq h'.inv.enums henums
      compositeCount := hc.compositeCount
      enumCount := hc.enumCount }
    fixedComposites := hc.fixedComposites
    fixedEnums := hc.fixedEnums
    resolved := h.resolved_eq h' hc
    claimed := h.claimed_eq h'
    failed := by simp [hfailed, hfailed']
    frames := h'.frames.trans h.frames.symm
    defects := iff_of_true h'.clean h.clean }⟩

end ApiModel.Resolution
