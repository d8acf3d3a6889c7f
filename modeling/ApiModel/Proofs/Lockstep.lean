import ApiModel.Proofs.Inversion
import ApiModel.Proofs.Renumbering

/-! # States that differ in indices

States in which what has been registered has other indices, and otherwise the same, and parts of
resolutions that keep them so. What is registered from then on gets the same index in both.
-/

namespace ApiModel.Resolution

variable {α β γ δ : Type} {ρ : Renumbering} {s t : State}

/-- The same state with other indices for what has been registered. -/
structure Like (ρ : Renumbering) (s t : State) : Prop where
  catalog : s.catalog.Renumbered ρ t.catalog
  fixedComposites : ∀ i, s.catalog.composites.length ≤ i → ρ.composites i = i
  fixedEnums : ∀ i, s.catalog.enums.length ≤ i → ρ.enums i = i
  resolved : ∀ key, Fields.get? t.resolved key = (Fields.get? s.resolved key).map ρ.type
  claimed : ∀ key, Fields.get? t.claimed key = Fields.get? s.claimed key
  failed : ∀ key, key ∈ t.failed ↔ key ∈ s.failed
  frames : t.frames = s.frames
  defects : t.defects = [] ↔ s.defects = []

def Tracks (f : α → β) (a : α) (b : β) : Prop := b = f a

namespace Like

theorem with_catalog (h : Like ρ s t) {c d : Catalog} (hcd : c.Renumbered ρ d)
    (hc : s.catalog.composites.length ≤ c.composites.length)
    (he : s.catalog.enums.length ≤ c.enums.length) :
    Like ρ { s with catalog := c } { t with catalog := d } :=
  { h with
    catalog := hcd
    fixedComposites := fun i hi => h.fixedComposites i (hc.trans hi)
    fixedEnums := fun i hi => h.fixedEnums i (he.trans hi) }

theorem composite_next (h : Like ρ s t) :
    ρ.composite ⟨s.catalog.composites.length⟩ = ⟨t.catalog.composites.length⟩ := by
  rw [Renumbering.composite, h.fixedComposites _ (Nat.le_refl _), h.catalog.compositeCount]

theorem enum_next (h : Like ρ s t) :
    ρ.enum ⟨s.catalog.enums.length⟩ = ⟨t.catalog.enums.length⟩ := by
  rw [Renumbering.enum, h.fixedEnums _ (Nat.le_refl _), h.catalog.enumCount]

theorem report (h : Like ρ s t) (d e : Defect) : Like ρ (report d s).2 (report e t).2 :=
  { h with defects := by simp }

theorem withStub (h : Like ρ s t) (name : String) (pointer : Pointer) :
    Like ρ (s.withStub name pointer) (t.withStub name pointer) := by
  have hcount := h.catalog.compositeCount
  refine h.with_catalog ⟨fun id => ?_, h.catalog.enums, fun other => ?_, h.catalog.findEnum,
    by simp [Catalog.addComposite, hcount], h.catalog.enumCount⟩
    (by simp [Catalog.addComposite]) (Nat.le_refl _)
  · rw [Catalog.composite?_addComposite, Catalog.composite?_addComposite]
    have hnext : (ρ.composite id).index = t.catalog.composites.length ↔
        id.index = s.catalog.composites.length := by
      obtain ⟨i⟩ := id
      have := h.composite_next
      rw [← CompositeId.mk.injEq, ← this, ← CompositeId.mk.injEq]
      exact Renumbering.composite_inj
    by_cases hid : id.index = s.catalog.composites.length
    · rw [if_pos hid, if_pos (hnext.mpr hid)]
      exact .some ⟨rfl, rfl, rfl, rfl, rfl, rfl, rfl, .refl _, rfl⟩
    · rw [if_neg hid, if_neg (mt hnext.mp hid)]
      exact h.catalog.composites id
  · rw [Catalog.findComposite?_addComposite, Catalog.findComposite?_addComposite,
      h.catalog.findComposite, ← h.composite_next]
    cases s.catalog.findComposite? other with
    | some id => rfl
    | none =>
      simp only [Option.map_none, Option.none_or]
      split <;> rfl

theorem enums_addEnum (h : Like ρ s t) (e : EnumType) (id : EnumId) :
    Option.Rel EnumType.Renumbered ((s.catalog.addEnum e).enum? id)
      ((t.catalog.addEnum e).enum? (ρ.enum id)) := by
  rw [Catalog.enum?_addEnum, Catalog.enum?_addEnum]
  have hnext : (ρ.enum id).index = t.catalog.enums.length ↔
      id.index = s.catalog.enums.length := by
    obtain ⟨i⟩ := id
    have := h.enum_next
    rw [← EnumId.mk.injEq, ← this, ← EnumId.mk.injEq]
    exact Renumbering.enum_inj
  by_cases hid : id.index = s.catalog.enums.length
  · rw [if_pos hid, if_pos (hnext.mpr hid)]
    exact .some ⟨rfl, rfl, rfl, fun _ => rfl⟩
  · rw [if_neg hid, if_neg (mt hnext.mp hid)]
    exact h.catalog.enums id

theorem withEnum (h : Like ρ s t) (e : EnumType) : Like ρ (s.withEnum e) (t.withEnum e) :=
  h.with_catalog ⟨h.catalog.composites, h.enums_addEnum e, h.catalog.findComposite,
    h.catalog.findEnum, h.catalog.compositeCount, by simp [Catalog.addEnum, h.catalog.enumCount]⟩
    (Nat.le_refl _) (by simp [Catalog.addEnum])

theorem withNamedEnum (h : Like ρ s t) (name : String) (e : EnumType) :
    Like ρ (s.withNamedEnum name e) (t.withNamedEnum name e) := by
  refine h.with_catalog ⟨h.catalog.composites, h.enums_addEnum e, h.catalog.findComposite,
    fun other => ?_, h.catalog.compositeCount,
    by simp [Catalog.addNamedEnum, Catalog.addEnum, h.catalog.enumCount]⟩
    (Nat.le_refl _) (by simp [Catalog.addNamedEnum, Catalog.addEnum])
  rw [Catalog.findEnum?_addNamedEnum, Catalog.findEnum?_addNamedEnum, h.catalog.findEnum,
    ← h.enum_next]
  cases s.catalog.findEnum? other with
  | some id => rfl
  | none =>
    simp only [Option.map_none, Option.none_or]
    split <;> rfl

theorem modifyComposite (h : Like ρ s t) (id : CompositeId) {f g : Composite → Composite}
    (hfg : ∀ {a b}, Composite.Renumbered ρ a b → Composite.Renumbered ρ (f a) (g b)) :
    Like ρ { s with catalog := s.catalog.modifyComposite id f }
      { t with catalog := t.catalog.modifyComposite (ρ.composite id) g } := by
  have hkeep : ∀ other, (t.catalog.modifyComposite (ρ.composite id) g).findComposite? other =
      ((s.catalog.modifyComposite id f).findComposite? other).map ρ.composite :=
    h.catalog.findComposite
  refine h.with_catalog ⟨fun other => ?_, h.catalog.enums, hkeep, h.catalog.findEnum,
    by simp [Catalog.modifyComposite, h.catalog.compositeCount], h.catalog.enumCount⟩
    (by simp [Catalog.modifyComposite]) (Nat.le_refl _)
  rw [Catalog.composite?_modifyComposite, Catalog.composite?_modifyComposite]
  have hrel := h.catalog.composites other
  by_cases hid : id = other
  · rw [if_pos hid, if_pos (congrArg ρ.composite hid)]
    generalize s.catalog.composite? other = a at hrel
    generalize t.catalog.composite? (ρ.composite other) = b at hrel
    cases hrel with
    | none => exact .none
    | some hrel => exact .some (hfg hrel)
  · rw [if_neg hid, if_neg (mt Renumbering.composite_inj.mp hid)]
    exact hrel

theorem remember (h : Like ρ s t) (key : String) (x : ModelType) :
    Like ρ (remember key x s).2 (remember key (ρ.type x) t).2 := by
  refine { h with resolved := fun other => ?_ }
  show Fields.get? (Fields.set t.resolved key (ρ.type x)) other =
    (Fields.get? (Fields.set s.resolved key x) other).map ρ.type
  rw [Fields.get?_set, Fields.get?_set, h.resolved]
  split <;> rfl

theorem claim (h : Like ρ s t) (key name : String) :
    Like ρ (claim key name s).2 (claim key name t).2 := by
  refine { h with claimed := fun other => ?_ }
  show Fields.get? (Fields.set t.claimed key name) other =
    Fields.get? (Fields.set s.claimed key name) other
  rw [Fields.get?_set, Fields.get?_set, h.claimed]

theorem markFailed (h : Like ρ s t) (key : String) :
    Like ρ (markFailed key s).2 (markFailed key t).2 := by
  refine { h with failed := fun other => ?_ }
  show other ∈ key :: t.failed ↔ other ∈ key :: s.failed
  simp only [List.mem_cons, h.failed]

end Like

/-- Two steps have corresponding results in related states, and lead to such states. -/
def InStep (L : State → State → Prop) (R : α → β → Prop) (x : Step α) (y : Step β) : Prop :=
  ∀ s t, L s t → R (x s).1 (y t).1 ∧ L (x s).2 (y t).2

/-- Two parts have corresponding outcomes in related states. -/
def Lockstep (L : State → State → Prop) (R : α → β → Prop) (x : Run α) (y : Run β) : Prop :=
  ∀ s t, L s t → Option.Rel (fun p q : _ × State => R p.1 q.1 ∧ L p.2 q.2) (x s) (y t)

namespace InStep

variable {L : State → State → Prop} {R : α → β → Prop} {Q : γ → δ → Prop}

theorem pure {a : α} {b : β} (h : R a b) : InStep L R (Pure.pure a) (Pure.pure b) :=
  fun _ _ hst => ⟨h, hst⟩

theorem bind {x : Step α} {y : Step β} {f : α → Step γ} {g : β → Step δ} (h : InStep L R x y)
    (hf : ∀ a b, R a b → InStep L Q (f a) (g b)) : InStep L Q (x >>= f) (y >>= g) := by
  intro s t hst
  obtain ⟨hr, hst⟩ := h s t hst
  exact hf _ _ hr _ _ hst

theorem foldlM_map {f : α → γ → Step α} {g : β → δ → Step β} (k : γ → δ)
    (hf : ∀ a b c, R a b → InStep L R (f a c) (g b (k c))) (l : List γ) {a : α} {b : β}
    (h : R a b) : InStep L R (l.foldlM f a) ((l.map k).foldlM g b) := by
  induction l generalizing a b with
  | nil => exact pure h
  | cons c l ih =>
    rw [List.map_cons, List.foldlM_cons, List.foldlM_cons]
    exact bind (hf a b c h) fun _ _ hab => ih hab

theorem foldlM {f : α → γ → Step α} {g : β → γ → Step β}
    (hf : ∀ a b c, R a b → InStep L R (f a c) (g b c)) (l : List γ) {a : α} {b : β} (h : R a b) :
    InStep L R (l.foldlM f a) (l.foldlM g b) := by
  have hmap := foldlM_map id hf l h
  rwa [List.map_id] at hmap

theorem report (d e : Defect) : InStep (Like ρ) Eq (Resolution.report d) (Resolution.report e) :=
  fun _ _ hst => ⟨rfl, hst.report d e⟩

theorem fail {f : α → β} (d e : Defect) :
    InStep (Like ρ) (Tracks (Option.map f)) (Resolution.fail d) (Resolution.fail e) :=
  fun _ _ hst => ⟨rfl, hst.report d e⟩

theorem warn (message : String) :
    InStep (Like ρ) Eq (Resolution.warn message) (Resolution.warn message) :=
  fun _ _ hst => ⟨rfl, { hst with }⟩

theorem push (f : Frame) : InStep (Like ρ) Eq (Resolution.push f) (Resolution.push f) :=
  fun _ _ hst => ⟨rfl, { hst with frames := congrArg (f :: ·) hst.frames }⟩

theorem pop : InStep (Like ρ) Eq Resolution.pop Resolution.pop :=
  fun _ _ hst => ⟨rfl, { hst with frames := congrArg List.tail hst.frames }⟩

theorem remember (key : String) (x : ModelType) :
    InStep (Like ρ) Eq (Resolution.remember key x) (Resolution.remember key (ρ.type x)) :=
  fun _ _ hst => ⟨rfl, hst.remember key x⟩

theorem markFailed (key : String) :
    InStep (Like ρ) Eq (Resolution.markFailed key) (Resolution.markFailed key) :=
  fun _ _ hst => ⟨rfl, hst.markFailed key⟩

end InStep

namespace Lockstep

variable {L : State → State → Prop} {R : α → β → Prop} {Q : γ → δ → Prop}

theorem pure {a : α} {b : β} (h : R a b) : Lockstep L R (Pure.pure a) (Pure.pure b) :=
  fun _ _ hst => .some ⟨h, hst⟩

theorem lift {x : Step α} {y : Step β} (h : InStep L R x y) :
    Lockstep L R (liftM x) (liftM y) := fun s t hst => .some (h s t hst)

theorem get : Lockstep L L (MonadState.get : Run State) (MonadState.get : Run State) :=
  fun _ _ hst => .some ⟨hst, hst⟩

theorem bind {x : Run α} {y : Run β} {f : α → Run γ} {g : β → Run δ} (h : Lockstep L R x y)
    (hf : ∀ a b, R a b → Lockstep L Q (f a) (g b)) : Lockstep L Q (x >>= f) (y >>= g) := by
  intro s t hst
  have hrel := h s t hst
  show Option.Rel _ ((x s).bind fun p => f p.1 p.2) ((y t).bind fun p => g p.1 p.2)
  generalize x s = p at hrel
  generalize y t = q at hrel
  cases hrel with
  | none => exact .none
  | some hrel => exact hf _ _ hrel.1 _ _ hrel.2

theorem foldlM_map {f : α → γ → Run α} {g : β → δ → Run β} (k : γ → δ)
    (hf : ∀ a b c, R a b → Lockstep L R (f a c) (g b (k c))) (l : List γ) {a : α} {b : β}
    (h : R a b) : Lockstep L R (l.foldlM f a) ((l.map k).foldlM g b) := by
  induction l generalizing a b with
  | nil => exact pure h
  | cons c l ih =>
    rw [List.map_cons, List.foldlM_cons, List.foldlM_cons]
    exact bind (hf a b c h) fun _ _ hab => ih hab

theorem foldlM {f : α → γ → Run α} {g : β → γ → Run β}
    (hf : ∀ a b c, R a b → Lockstep L R (f a c) (g b c)) (l : List γ) {a : α} {b : β}
    (h : R a b) : Lockstep L R (l.foldlM f a) (l.foldlM g b) := by
  have hmap := foldlM_map id hf l h
  rwa [List.map_id] at hmap

end Lockstep

end ApiModel.Resolution
