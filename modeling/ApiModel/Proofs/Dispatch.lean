import ApiModel.Grammars
import ApiModel.Model.Client
import ApiModel.Proofs.Discriminators

/-! # Dispatch

The concrete type of a payload is looked for below its static type, by the discriminator of the
hierarchy that the static type belongs to. The root of that hierarchy may lie above the static
type; its members then include all those below, so that no two of them have the same value.
-/

namespace ApiModel

variable {c : Catalog} {id s r a b : CompositeId} {chain order : List CompositeId}
  {name value : String} {m : ClientModel} {x : Composite} {payload : Json}

namespace Catalog

def Discriminates (c : Catalog) (id : CompositeId) (name : String) : Prop :=
  ∃ composite, c.composite? id = some composite ∧ composite.discriminator = some name

/-- The nearest of a composite and its ancestors that has a discriminator. -/
def Rooted (c : Catalog) (id root : CompositeId) (name : String) : Prop :=
  c.Nearest (fun a => ∃ n, c.Discriminates a n) id root ∧ c.Discriminates root name

/-- A composite has a value for the discriminator of its hierarchy. -/
def Carries (c : Catalog) (value : String) (id : CompositeId) : Prop :=
  ∃ composite, c.composite? id = some composite ∧ composite.discriminatorValue = value

theorem carries_iff : ((c.composite? id).map (·.discriminatorValue) == some value) = true ↔
    c.Carries value id := by
  rw [beq_iff_eq, Option.map_eq_some_iff, Carries]

theorem BaseChain.nearest_iff {P : CompositeId → Prop} {test : CompositeId → Bool}
    (ht : ∀ b, test b = true ↔ P b) (h : c.BaseChain id chain) :
    c.Nearest P id a ↔ (id :: chain).find? test = some a := by
  induction h with
  | @root id hr =>
    rw [List.find?_singleton, Option.ite_none_right_eq_some, ht, Option.some.injEq]
    constructor
    · rintro (hp | ⟨-, hb, -⟩)
      · exact ⟨hp, rfl⟩
      · cases hr.symm.trans hb
    · rintro ⟨hp, rfl⟩
      exact .here hp
  | @link id base chain hb hc ih =>
    rw [List.find?_cons]
    cases hp : test id with
    | true =>
      have hp : P id := (ht id).mp hp
      constructor
      · rintro (- | ⟨hn, -, -⟩)
        · rfl
        · exact absurd hp hn
      · intro h
        obtain rfl := Option.some.inj h
        exact .here hp
    | false =>
      have hn : ¬P id := fun h => by simp [(ht id).mpr h] at hp
      dsimp only
      rw [← ih]
      constructor
      · rintro (hp | ⟨-, hb', h⟩)
        · exact absurd hp hn
        · obtain rfl := Option.some.inj (hb.symm.trans hb')
          exact h
      · exact .above hn hb

end Catalog

namespace ClientModel

theorem basesUpTo_eq {limit : Nat} (h : m.catalog.BaseChain id chain) (hn : chain.length ≤ limit) :
    m.basesUpTo limit id = chain := by
  induction h generalizing limit with
  | root hr => cases limit <;> simp [basesUpTo, hr]
  | link hb _ ih =>
    obtain ⟨limit, rfl⟩ := Nat.exists_eq_add_of_le' (Nat.one_le_of_lt hn)
    unfold basesUpTo
    rw [hb]
    dsimp only
    rw [ih (Nat.le_of_succ_le_succ hn)]

/-- The ancestors are the whole chain: since it passes no composite twice, the limit cuts nothing
off. -/
theorem ancestors_eq (hb : m.catalog.BasesWithin) (hid : id.index < m.catalog.composites.length)
    (h : m.catalog.BaseChain id chain) : m.ancestors id = chain := by
  have hlen := Catalog.length_le_of_nodup h.nodup (List.forall_mem_cons.mpr ⟨hid, h.index_lt hb⟩)
  exact basesUpTo_eq h (by simp only [List.length_cons] at hlen; omega)

theorem discriminatorOf?_eq_some : m.discriminatorOf? id = some name ↔
    m.catalog.Discriminates id name := Option.bind_eq_some_iff

theorem rooted_iff (hb : m.catalog.BasesWithin) (hid : id.index < m.catalog.composites.length)
    (h : m.catalog.BaseChain id chain) : m.catalog.Rooted id r name ↔
      m.polymorphicRoot? id = some r ∧ m.discriminatorOf? r = some name := by
  have htest : ∀ a, (m.discriminatorOf? a).isSome = true ↔ ∃ n, m.catalog.Discriminates a n := by
    intro a
    simp only [Option.isSome_iff_exists, discriminatorOf?_eq_some]
  unfold Catalog.Rooted polymorphicRoot?
  rw [h.nearest_iff htest, ancestors_eq hb hid h, discriminatorOf?_eq_some]

/-- What a payload holds for a type is the text under the discriminator of the type's hierarchy. -/
theorem discriminatorIn?_eq_some (hb : m.catalog.BasesWithin)
    (hid : id.index < m.catalog.composites.length) (h : m.catalog.BaseChain id chain) :
    m.discriminatorIn? id payload = some value ↔
      ∃ r name, m.catalog.Rooted id r name ∧ payload.get? name = some (.str value) := by
  have hstr : ∀ j : Json, j.str? = some value ↔ j = .str value := by
    intro j
    cases j <;> simp [Json.str?]
  unfold discriminatorIn?
  simp only [Option.bind_eq_some_iff, rooted_iff hb hid h, hstr]
  constructor
  · rintro ⟨r, hr, name, hn, _, hp, rfl⟩
    exact ⟨r, name, ⟨hr, hn⟩, hp⟩
  · rintro ⟨r, name, ⟨hr, hn⟩, hp⟩
    exact ⟨r, hr, name, hn, _, hp, rfl⟩

theorem dispatch_of_none (h : m.discriminatorIn? s payload = none) : m.dispatch s payload = s := by
  unfold dispatch
  rw [h]

theorem dispatch_eq (hx : m.catalog.composite? s = some x)
    (h : m.discriminatorIn? s payload = some value) : m.dispatch s payload =
      ((s :: x.derived).find? fun a =>
        (m.catalog.composite? a).map (·.discriminatorValue) == some value).getD s := by
  unfold dispatch
  rw [h, hx]

/-- Whatever the payload, no type outside the hierarchy below the static one is found. -/
theorem dispatch_mem (hx : m.catalog.composite? s = some x) (payload : Json) :
    m.dispatch s payload ∈ s :: x.derived := by
  cases hv : m.discriminatorIn? s payload with
  | none =>
    rw [dispatch_of_none hv]
    exact List.mem_cons_self ..
  | some value =>
    rw [dispatch_eq hx hv]
    cases hf : (s :: x.derived).find? fun a =>
      (m.catalog.composite? a).map (·.discriminatorValue) == some value with
    | none => exact List.mem_cons_self ..
    | some a => exact List.mem_of_find?_eq_some hf

theorem dispatch_of_carries (hx : m.catalog.composite? s = some x)
    (hv : m.discriminatorIn? s payload = some value) (ha : a ∈ s :: x.derived)
    (hc : m.catalog.Carries value a)
    (hone : ∀ b ∈ s :: x.derived, m.catalog.Carries value b → b = a) :
    m.dispatch s payload = a := by
  rw [dispatch_eq hx hv]
  cases hf : (s :: x.derived).find? fun a =>
    (m.catalog.composite? a).map (·.discriminatorValue) == some value with
  | none => exact absurd (Catalog.carries_iff.mpr hc) (List.find?_eq_none.mp hf a ha)
  | some b =>
    have hb := List.find?_some hf
    exact hone b (List.mem_of_find?_eq_some hf) (Catalog.carries_iff.mp hb)

theorem dispatch_of_not_carries (hx : m.catalog.composite? s = some x)
    (hv : m.discriminatorIn? s payload = some value)
    (hnone : ∀ a ∈ s :: x.derived, ¬m.catalog.Carries value a) : m.dispatch s payload = s := by
  rw [dispatch_eq hx hv, List.find?_eq_none.mpr]
  · rfl
  · exact fun a ha hc => hnone a ha (Catalog.carries_iff.mp hc)

def withDerived (m : ClientModel) (id : CompositeId) (order : List CompositeId) : ClientModel :=
  { m with catalog := m.catalog.modifyComposite id fun x => { x with derived := order } }

theorem composite?_withDerived (m : ClientModel) (s : CompositeId) (order : List CompositeId)
    (id : CompositeId) : (m.withDerived s order).catalog.composite? id =
      if s = id then (m.catalog.composite? id).map fun x => { x with derived := order }
      else m.catalog.composite? id :=
  Catalog.composite?_modifyComposite m.catalog s id _

theorem bind_withDerived {β : Type} {f : Composite → Option β}
    (hf : ∀ x order, f { x with derived := order } = f x) (id : CompositeId) :
    ((m.withDerived s order).catalog.composite? id).bind f = (m.catalog.composite? id).bind f := by
  rw [composite?_withDerived]
  split
  · rw [Option.bind_map]
    exact congrArg (m.catalog.composite? id).bind (funext fun x => hf x order)
  · rfl

theorem ancestors_withDerived : (m.withDerived s order).ancestors id = m.ancestors id := by
  have hlen : (m.withDerived s order).catalog.composites.length = m.catalog.composites.length :=
    List.length_modify ..
  unfold ancestors
  rw [hlen]
  generalize m.catalog.composites.length + 1 = limit
  induction limit generalizing id with
  | zero => rfl
  | succ limit ih =>
    unfold basesUpTo Catalog.baseOf?
    rw [bind_withDerived fun _ _ => rfl]
    simp only [ih]

theorem discriminatorIn?_withDerived :
    (m.withDerived s order).discriminatorIn? id payload = m.discriminatorIn? id payload := by
  have hof : (m.withDerived s order).discriminatorOf? = m.discriminatorOf? :=
    funext (bind_withDerived fun _ _ => rfl)
  unfold discriminatorIn? polymorphicRoot?
  rw [hof, ancestors_withDerived]

theorem carries_withDerived :
    (m.withDerived s order).catalog.Carries value id ↔ m.catalog.Carries value id := by
  have h : ((m.withDerived s order).catalog.composite? id).bind
      (some ∘ (·.discriminatorValue)) = (m.catalog.composite? id).bind
      (some ∘ (·.discriminatorValue)) := bind_withDerived (fun _ _ => rfl) id
  rw [← Catalog.carries_iff, ← Catalog.carries_iff, Option.map_eq_bind, Option.map_eq_bind, h]

/-- Where no value is carried twice, the derived types may be listed in any order. -/
theorem dispatch_withDerived (hx : m.catalog.composite? s = some x)
    (hone : ∀ value, m.discriminatorIn? s payload = some value →
      ∀ a ∈ s :: x.derived, ∀ b ∈ s :: x.derived, m.catalog.Carries value a →
        m.catalog.Carries value b → a = b) (horder : order.Perm x.derived) :
    (m.withDerived s order).dispatch s payload = m.dispatch s payload := by
  have hx' : (m.withDerived s order).catalog.composite? s = some { x with derived := order } := by
    rw [composite?_withDerived, if_pos rfl, hx]
    rfl
  have hmem : ∀ a, a ∈ s :: order ↔ a ∈ s :: x.derived := fun a => (horder.cons s).mem_iff
  cases hv : m.discriminatorIn? s payload with
  | none =>
    rw [dispatch_of_none hv, dispatch_of_none (discriminatorIn?_withDerived.trans hv)]
  | some value =>
    have hv' : (m.withDerived s order).discriminatorIn? s payload = some value :=
      discriminatorIn?_withDerived.trans hv
    by_cases hc : ∃ a ∈ s :: x.derived, m.catalog.Carries value a
    · obtain ⟨a, ha, hc⟩ := hc
      rw [dispatch_of_carries hx hv ha hc fun b hb hcb => hone value hv b hb a ha hcb hc]
      refine dispatch_of_carries hx' hv' ((hmem a).mpr ha) (carries_withDerived.mpr hc) ?_
      exact fun b hb hcb => hone value hv b ((hmem b).mp hb) a ha (carries_withDerived.mp hcb) hc
    · have hnone : ∀ a ∈ s :: x.derived, ¬m.catalog.Carries value a :=
        fun a ha h => hc ⟨a, ha, h⟩
      rw [dispatch_of_not_carries hx hv hnone]
      refine dispatch_of_not_carries hx' hv' fun a ha h => ?_
      exact hnone a ((hmem a).mp ha) (carries_withDerived.mp h)

end ClientModel

namespace Hierarchy

theorem discriminates_settled : (settled c).Discriminates id name ↔ c.Discriminates id name := by
  constructor
  · rintro ⟨x, hx, hd⟩
    obtain ⟨old, ho, rfl⟩ := exists_of_composite?_settled hx
    exact ⟨old, ho, hd⟩
  · rintro ⟨x, hx, hd⟩
    exact ⟨settle (chains c) id x, by rw [composite?_settled, hx]; rfl, hd⟩

theorem rooted_settled : (settled c).Rooted id r name ↔ c.Rooted id r name := by
  simp only [Catalog.Rooted, nearest_settled, discriminates_settled]

theorem valueOf_of_carries (h : c.Carries value id) : valueOf c id = value := by
  obtain ⟨x, hx, rfl⟩ := h
  unfold valueOf
  rw [hx]
  rfl

/-- Below any type of a hierarchy each value is carried once: those below the type are also below
the root, where all values differ. -/
theorem carries_unique (hv : c.Valid) (h : defects c = []) (hr : c.Rooted s r name)
    (hs : s.index < c.composites.length) :
    ∀ a ∈ s :: descendants (chains c) s, ∀ b ∈ s :: descendants (chains c) s,
      (settled c).Carries value a → (settled c).Carries value b → a = b := by
  obtain ⟨hnearest, root, hroot, hd⟩ := hr
  have hcycles := (defects_eq_nil_iff.mp h).1
  have hup : ∀ a ∈ s :: descendants (chains c) s, a ∈ r :: descendants (chains c) r := by
    intro a ha
    obtain ⟨hlt, hlink⟩ := (mem_members_iff hv.bases hcycles hs).mp ha
    exact (mem_members_iff hv.bases hcycles (Catalog.index_lt hroot)).mpr
      ⟨hlt, hlink.trans hnearest.link⟩
  obtain ⟨-, hvalues⟩ := discriminated hv h hroot hd
  intro a ha b hb hca hcb
  have hvalue := (valueOf_of_carries hca).trans (valueOf_of_carries hcb).symm
  rw [valueOf_settled] at hvalue
  exact List.inj_on_of_nodup_map hvalues (hup a ha) (hup b hb) hvalue

end Hierarchy

open Resolution Hierarchy

theorem discriminatorIn?_of_run {context : Context} (h : (Build.run context).result = .ok m)
    (hx : m.catalog.composite? s = some x) : m.discriminatorIn? s payload = some value ↔
      ∃ r name, m.catalog.Rooted s r name ∧ payload.get? name = some (.str value) := by
  obtain ⟨hb, chain, hchain⟩ := exists_baseChain_of_run h hx
  exact ClientModel.discriminatorIn?_eq_some hb (Catalog.index_lt hx) hchain

/-- In a model that is handed out, the text that a payload has under the discriminator of the static
type's hierarchy names at most one type at or below the static one, and that type is found. Where
there is no such text, or it names no type, the static type is. -/
theorem dispatch_exact {context : Context} (h : (Build.run context).result = .ok m)
    (hx : m.catalog.composite? s = some x) (payload : Json) :
    (∀ r name value, m.catalog.Rooted s r name → payload.get? name = some (.str value) →
      (∀ a ∈ s :: x.derived, ∀ b ∈ s :: x.derived,
        m.catalog.Carries value a → m.catalog.Carries value b → a = b) ∧
      (∀ a ∈ s :: x.derived, m.catalog.Carries value a → m.dispatch s payload = a) ∧
      ((∀ a ∈ s :: x.derived, ¬m.catalog.Carries value a) → m.dispatch s payload = s)) ∧
    ((∀ r name value, m.catalog.Rooted s r name → payload.get? name ≠ some (.str value)) →
      m.dispatch s payload = s) ∧
    m.dispatch s payload ∈ s :: x.derived ∧
    ∀ order : List CompositeId, order.Perm x.derived →
      (m.withDerived s order).dispatch s payload = m.dispatch s payload := by
  have hin : ∀ value, m.discriminatorIn? s payload = some value ↔
      ∃ r name, m.catalog.Rooted s r name ∧ payload.get? name = some (.str value) :=
    fun value => discriminatorIn?_of_run h hx
  have hone : ∀ value, m.discriminatorIn? s payload = some value →
      ∀ a ∈ s :: x.derived, ∀ b ∈ s :: x.derived, m.catalog.Carries value a →
        m.catalog.Carries value b → a = b := by
    intro value hvalue
    obtain ⟨r, name, hr, -⟩ := (hin value).mp hvalue
    obtain ⟨c, hv, hdefects, hcatalog⟩ := exists_catalog_of_run h
    rw [hcatalog] at hr hx ⊢
    obtain ⟨old, ho, rfl⟩ := exists_of_composite?_settled hx
    exact carries_unique hv hdefects (rooted_settled.mp hr) (Catalog.index_lt ho)
  refine ⟨?_, ?_, ClientModel.dispatch_mem hx payload, ?_⟩
  · intro r name value hr hp
    have hvalue := (hin value).mpr ⟨r, name, hr, hp⟩
    refine ⟨hone value hvalue, ?_, ClientModel.dispatch_of_not_carries hx hvalue⟩
    intro a ha hc
    exact ClientModel.dispatch_of_carries hx hvalue ha hc fun b hb hcb =>
      hone value hvalue b hb a ha hcb hc
  · intro hother
    refine ClientModel.dispatch_of_none (Option.eq_none_iff_forall_ne_some.mpr ?_)
    intro value hvalue
    obtain ⟨r, name, hr, hp⟩ := (hin value).mp hvalue
    exact hother r name value hr hp
  · exact fun order => ClientModel.dispatch_withDerived hx hone

def barking : Json := .obj [("name", .str "Rex"), ("kind", .str "dog")]

theorem dispatch_exact_pedigree : ∃ m x, (Build.run ⟨pedigree, {}⟩).result = .ok m ∧
    m.catalog.composite? ⟨0⟩ = some x ∧ m.catalog.Rooted ⟨0⟩ ⟨0⟩ "kind" ∧
    m.dispatch ⟨0⟩ barking = ⟨1⟩ := by
  have hok : ((Build.run ⟨pedigree, {}⟩).result.toOption.bind fun m =>
      (m.catalog.composite? ⟨0⟩).bind fun x => (m.catalog.composite? ⟨1⟩).map fun y =>
        (x.discriminator, x.derived, y.discriminatorValue)) =
          some (some "kind", [⟨1⟩, ⟨2⟩], "dog") := by decide +kernel
  cases h : (Build.run ⟨pedigree, {}⟩).result with
  | error failure =>
    rw [h] at hok
    cases hok
  | ok m =>
    rw [h] at hok
    change (m.catalog.composite? ⟨0⟩).bind _ = _ at hok
    obtain ⟨x, hx, hok⟩ := Option.bind_eq_some_iff.mp hok
    obtain ⟨y, hy, hok⟩ := Option.map_eq_some_iff.mp hok
    obtain ⟨hd, hderived, hvalue⟩ : x.discriminator = some "kind" ∧ x.derived = [⟨1⟩, ⟨2⟩] ∧
        y.discriminatorValue = "dog" := by simpa using hok
    have hr : m.catalog.Rooted ⟨0⟩ ⟨0⟩ "kind" := ⟨.here ⟨"kind", x, hx, hd⟩, x, hx, hd⟩
    obtain ⟨-, hfound, -⟩ := (dispatch_exact h hx barking).1 ⟨0⟩ "kind" "dog" hr rfl
    exact ⟨m, x, rfl, hx, hr, hfound ⟨1⟩ (by simp [hderived]) ⟨y, hy, hvalue⟩⟩

end ApiModel
