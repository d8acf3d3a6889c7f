import ApiModel.Grammars
import ApiModel.Proofs.Roots

/-! # Narrowed dispatch

A payload may be dispatched once more from a type nearer to the one that was found. The same type
is found again as long as the payload is read under the same discriminator; a root in between reads
another one, and then the payload must say there what it said above.
-/

namespace ApiModel

variable {id s t r a b d : CompositeId} {name value : String} {m : ClientModel} {x : Composite}
  {payload : Json}

namespace Catalog

theorem Rooted.of_link {c : Catalog} (h : c.Rooted s r name)
    (hl : Relation.ReflTransGen c.HasBase t s) : ∃ q n, c.Rooted t q n := by
  obtain ⟨q, hq⟩ := exists_nearest (P := fun a => ∃ n, c.Discriminates a n)
    (hl.trans h.1.link) ⟨name, h.2⟩
  obtain ⟨n, hn⟩ := hq.holds
  exact ⟨q, n, hq, hn⟩

theorem Rooted.unique {c : Catalog} {q : CompositeId} {other : String}
    {chain : List CompositeId} (h : c.Rooted s r name) (h' : c.Rooted s q other)
    (hc : c.BaseChain r chain) : r = q ∧ name = other := by
  obtain rfl := h.1.eq h'.1 hc
  obtain ⟨root, hroot, hname⟩ := h.2
  obtain ⟨root', hroot', hother⟩ := h'.2
  obtain rfl := Option.some.inj (hroot.symm.trans hroot')
  exact ⟨rfl, Option.some.inj (hname.symm.trans hother)⟩

end Catalog

/-- What a payload holds under a name selects a member of a hierarchy: the one that carries it, and
the topmost where there is no text or nobody carries it. -/
def ClientModel.Selects (m : ClientModel) (t : CompositeId) (name : String) (payload : Json)
    (d : CompositeId) : Prop :=
  (∃ value, payload.get? name = some (.str value) ∧ m.catalog.Carries value d) ∨
  (d = t ∧ ∀ value, payload.get? name = some (.str value) →
    ∀ a ∈ m.members t, ¬m.catalog.Carries value a)

open Resolution Hierarchy

namespace Resolution

variable {context : Context}

theorem carries_unique_of_run (h : (Build.run context).result = .ok m)
    (hr : m.catalog.Rooted s r name) (hx : m.catalog.composite? s = some x)
    (ha : a ∈ m.members s) (hb : b ∈ m.members s) (hca : m.catalog.Carries value a)
    (hcb : m.catalog.Carries value b) : a = b := by
  rw [ClientModel.members_eq hx] at ha hb
  obtain ⟨c, hv, hdefects, hcatalog⟩ := exists_catalog_of_run h
  rw [hcatalog] at hr hx hca hcb
  obtain ⟨old, ho, rfl⟩ := exists_of_composite?_settled hx
  exact carries_unique hv hdefects (rooted_settled.mp hr) (Catalog.index_lt ho) a ha b hb hca hcb

theorem discriminatorIn?_of_rooted (h : (Build.run context).result = .ok m)
    (hx : m.catalog.composite? s = some x) (hr : m.catalog.Rooted s r name) :
    m.discriminatorIn? s payload = some value ↔ payload.get? name = some (.str value) := by
  rw [discriminatorIn?_of_run h hx]
  constructor
  · rintro ⟨q, other, hq, hp⟩
    obtain ⟨root, hroot, -⟩ := hr.2
    obtain ⟨_, hend⟩ := (isForest_of_run h).chains hroot
    obtain ⟨-, rfl⟩ := hr.unique hq hend
    exact hp
  · intro hp
    exact ⟨r, name, hr, hp⟩

/-- The type that is found is the member that the payload selects under the discriminator of the
hierarchy. -/
theorem dispatch_eq_iff (h : (Build.run context).result = .ok m)
    (hx : m.catalog.composite? s = some x) (hr : m.catalog.Rooted s r name)
    (hd : d ∈ m.members s) : m.dispatch s payload = d ↔ m.Selects s name payload d := by
  have hmembers := ClientModel.members_eq hx
  by_cases ht : ∃ value, payload.get? name = some (.str value)
  · obtain ⟨value, hp⟩ := ht
    have hvalue := (discriminatorIn?_of_rooted h hx hr).mpr hp
    have hsame : ∀ {v}, payload.get? name = some (.str v) → v = value := by
      intro v hv
      cases hv.symm.trans hp
      rfl
    by_cases hc : ∃ a ∈ m.members s, m.catalog.Carries value a
    · obtain ⟨a, ha, hca⟩ := hc
      have hfound : m.dispatch s payload = a :=
        ClientModel.dispatch_of_carries hx hvalue (hmembers ▸ ha) hca fun b hb hcb =>
          carries_unique_of_run h hr hx (hmembers ▸ hb) ha hcb hca
      rw [hfound]
      constructor
      · rintro rfl
        exact .inl ⟨value, hp, hca⟩
      · rintro (⟨v, hv, hcd⟩ | ⟨-, hnone⟩)
        · exact carries_unique_of_run h hr hx ha hd hca (hsame hv ▸ hcd)
        · exact absurd hca (hnone value hp a ha)
    · have hnone : ∀ a ∈ m.members s, ¬m.catalog.Carries value a := fun a ha hca => hc ⟨a, ha, hca⟩
      have hfound : m.dispatch s payload = s :=
        ClientModel.dispatch_of_not_carries hx hvalue (hmembers ▸ hnone)
      rw [hfound]
      constructor
      · rintro rfl
        exact .inr ⟨rfl, fun v hv => hsame hv ▸ hnone⟩
      · rintro (⟨v, hv, hcd⟩ | ⟨rfl, -⟩)
        · exact absurd (hsame hv ▸ hcd) (hnone d hd)
        · rfl
  · have hnone : ∀ value, payload.get? name ≠ some (.str value) := not_exists.mp ht
    have hvalue : m.discriminatorIn? s payload = none := by
      rw [Option.eq_none_iff_forall_ne_some]
      intro value hv
      exact hnone value ((discriminatorIn?_of_rooted h hx hr).mp hv)
    rw [ClientModel.dispatch_of_none hvalue]
    constructor
    · rintro rfl
      exact .inr ⟨rfl, fun value hp => absurd hp (hnone value)⟩
    · rintro (⟨value, hp, -⟩ | ⟨rfl, -⟩)
      · exact absurd hp (hnone value)
      · rfl

theorem exists_rooted_of_dispatch (h : (Build.run context).result = .ok m)
    (hx : m.catalog.composite? s = some x) (hne : m.dispatch s payload ≠ s) :
    ∃ r name, m.catalog.Rooted s r name := by
  cases hv : m.discriminatorIn? s payload with
  | none => exact absurd (ClientModel.dispatch_of_none hv) hne
  | some value =>
    obtain ⟨r, name, hr, -⟩ := (discriminatorIn?_of_run h hx).mp hv
    exact ⟨r, name, hr⟩

theorem dispatch_ne (h : (Build.run context).result = .ok m)
    (hx : m.catalog.composite? s = some x) (ht : t ∈ m.members s) (hts : t ≠ s)
    (hd : m.dispatch s payload ∈ m.members t) : m.dispatch s payload ≠ s := by
  have hf := isForest_of_run h
  obtain ⟨y, hy⟩ := hf.exists_composite hx ht
  obtain ⟨chain, hchain⟩ := hf.chains hy
  intro heq
  rw [heq] at hd
  exact hts (hchain.eq_of_links ((hf.mem_members hx).mp ht).2 ((hf.mem_members hy).mp hd).2)

/-- From a type below the static one the same type is found exactly where that type has the root of
the static one, or the payload selects the same type under its discriminator. -/
theorem dispatch_eq_dispatch_iff (h : (Build.run context).result = .ok m)
    (hx : m.catalog.composite? s = some x) (ht : t ∈ m.members s)
    (hd : m.dispatch s payload ∈ m.members t) :
    m.dispatch t payload = m.dispatch s payload ↔ ∀ r name, m.catalog.Rooted t r name →
      m.catalog.Rooted s r name ∨ m.Selects t name payload (m.dispatch s payload) := by
  have hf := isForest_of_run h
  obtain ⟨y, hy⟩ := hf.exists_composite hx ht
  by_cases hts : t = s
  · subst hts
    exact iff_of_true rfl fun r name hr => .inl hr
  have hne := dispatch_ne h hx ht hts hd
  constructor
  · intro heq r name hr
    exact .inr ((dispatch_eq_iff h hy hr hd).mp heq)
  · intro hall
    obtain ⟨_, _, hs⟩ := exists_rooted_of_dispatch h hx hne
    obtain ⟨r, name, hr⟩ := hs.of_link ((hf.mem_members hx).mp ht).2
    refine (dispatch_eq_iff h hy hr hd).mpr ?_
    rcases hall r name hr with hs | hselected
    · have hmem : m.dispatch s payload ∈ m.members s :=
        ClientModel.members_eq hx ▸ ClientModel.dispatch_mem hx payload
      rcases (dispatch_eq_iff h hx hs hmem).mp rfl with hc | ⟨heq, -⟩
      · exact .inl hc
      · exact absurd heq hne
    · exact hselected

theorem rooted_of_rooted (h : (Build.run context).result = .ok m)
    (hsingle : ∀ q, m.IsRoot q → ∀ id ∈ m.members q, m.IsRoot id → id = q)
    (hx : m.catalog.composite? s = some x) (ht : t ∈ m.members s)
    (hs : ∃ q n, m.catalog.Rooted s q n) (hr : m.catalog.Rooted t r name) :
    m.catalog.Rooted s r name := by
  have hf := isForest_of_run h
  obtain ⟨q, n, hq⟩ := hs
  obtain ⟨root, hroot, -⟩ := hr.2
  obtain ⟨top, htop, -⟩ := hq.2
  have hlink := hr.1.reaches (((hf.mem_members hx).mp ht).2.trans hq.1.link) ⟨n, hq.2⟩
  have hmem := (hf.mem_members htop).mpr ⟨Catalog.index_lt hroot, hlink⟩
  obtain rfl := hsingle q ⟨n, hq.2⟩ r hmem ⟨name, hr.2⟩
  exact ⟨hq.1, hr.2⟩

end Resolution

/-- A type that was found for a payload is found again from any type between it and the static one,
itself included, exactly where the payload is read under the same discriminator there or selects the
same type under the other one. In particular it is where no root lies below another. -/
theorem dispatch_narrowed {context : Context} (h : (Build.run context).result = .ok m)
    (hx : m.catalog.composite? s = some x) (payload : Json) :
    (∀ t ∈ m.members s, m.dispatch s payload ∈ m.members t →
      (m.dispatch t payload = m.dispatch s payload ↔ ∀ r name, m.catalog.Rooted t r name →
        m.catalog.Rooted s r name ∨ m.Selects t name payload (m.dispatch s payload))) ∧
    (m.dispatch (m.dispatch s payload) payload = m.dispatch s payload ↔
      ∀ r name, m.catalog.Rooted (m.dispatch s payload) r name → m.catalog.Rooted s r name ∨
        m.Selects (m.dispatch s payload) name payload (m.dispatch s payload)) ∧
    ((∀ r, m.IsRoot r → ∀ id ∈ m.members r, m.IsRoot id → id = r) →
      (∀ t ∈ m.members s, m.dispatch s payload ∈ m.members t →
        m.dispatch t payload = m.dispatch s payload) ∧
      m.dispatch (m.dispatch s payload) payload = m.dispatch s payload) := by
  have hmem : m.dispatch s payload ∈ m.members s :=
    ClientModel.members_eq hx ▸ ClientModel.dispatch_mem hx payload
  have hhere : m.dispatch s payload ∈ m.members (m.dispatch s payload) := List.mem_cons_self ..
  refine ⟨fun t ht hd => dispatch_eq_dispatch_iff h hx ht hd,
    dispatch_eq_dispatch_iff h hx hmem hhere, fun hsingle => ?_⟩
  have hcoherent : ∀ t ∈ m.members s, m.dispatch s payload ∈ m.members t →
      m.dispatch t payload = m.dispatch s payload := by
    intro t ht hd
    by_cases hts : t = s
    · rw [hts]
    have hs := exists_rooted_of_dispatch h hx (dispatch_ne h hx ht hts hd)
    exact (dispatch_eq_dispatch_iff h hx ht hd).mpr fun r name hr =>
      .inl (rooted_of_rooted h hsingle hx ht hs hr)
  exact ⟨hcoherent, hcoherent _ hmem hhere⟩

theorem dispatch_narrowed_pedigree : ∃ m x, (Build.run ⟨pedigree, {}⟩).result = .ok m ∧
    m.catalog.composite? ⟨0⟩ = some x ∧ m.dispatch ⟨0⟩ barking = ⟨1⟩ ∧
    m.dispatch (m.dispatch ⟨0⟩ barking) barking = m.dispatch ⟨0⟩ barking := by
  have hok : ((Build.run ⟨pedigree, {}⟩).result.toOption.map fun m =>
      (m.dispatch ⟨0⟩ barking, m.catalog.composites.map (·.discriminator))) =
        some (⟨1⟩, [some "kind", none, none]) := by decide +kernel
  obtain ⟨m, hm, hok⟩ := Option.map_eq_some_iff.mp hok
  have h := eq_ok_of_toOption hm
  obtain ⟨hfound, hkinds⟩ := Prod.mk.inj hok
  obtain ⟨pet, hpet⟩ : ∃ pet, m.catalog.composite? ⟨0⟩ = some pet := by
    cases hc : m.catalog.composites with
    | nil => simp [hc] at hkinds
    | cons pet rest => exact ⟨pet, by simp [Catalog.composite?, hc]⟩
  have honly : ∀ id, m.IsRoot id → id = ⟨0⟩ := by
    rintro ⟨i⟩ ⟨name, x, hx, hd⟩
    have hi := congrArg (fun l => l[i]?) hkinds
    rw [List.getElem?_map, show m.catalog.composites[i]? = some x from hx] at hi
    rcases i with _ | _ | _ | i
    · rfl
    all_goals simp [hd] at hi
  obtain ⟨-, -, hcoherent⟩ := dispatch_narrowed h hpet barking
  refine ⟨m, pet, h, hpet, hfound, (hcoherent ?_).2⟩
  intro r hr id _ hid
  rw [honly r hr, honly id hid]

def spawn (others : List (String × Json)) (kind : String) : Json :=
  .obj (("kind", .str kind) :: others)

/-- The type that is found from the root is not found from the lower root below it, which reads
another member of the payload; and what is found may lead further when it is asked again. -/
theorem dispatch_not_narrowed : ∃ m x, (Build.run ⟨aquarium, {}⟩).result = .ok m ∧
    m.catalog.composite? ⟨0⟩ = some x ∧ ⟨1⟩ ∈ x.derived ∧
    m.dispatch ⟨0⟩ (spawn [] "Salmon") ∈ m.members ⟨1⟩ ∧
    m.dispatch ⟨1⟩ (spawn [] "Salmon") ≠ m.dispatch ⟨0⟩ (spawn [] "Salmon") ∧
    m.dispatch (m.dispatch ⟨0⟩ (spawn [("species", .str "Salmon")] "Fish"))
        (spawn [("species", .str "Salmon")] "Fish") ≠
      m.dispatch ⟨0⟩ (spawn [("species", .str "Salmon")] "Fish") := by
  have hok : ((Build.run ⟨aquarium, {}⟩).result.toOption.bind fun m =>
      (m.catalog.composite? ⟨0⟩).map fun x => (x.derived, m.members ⟨1⟩)) =
        some ([⟨1⟩, ⟨2⟩], [⟨1⟩, ⟨2⟩]) ∧
      ((Build.run ⟨aquarium, {}⟩).result.toOption.map fun m =>
        (m.dispatch ⟨0⟩ (spawn [] "Salmon"), m.dispatch ⟨1⟩ (spawn [] "Salmon"))) =
        some (⟨2⟩, ⟨1⟩) ∧
      ((Build.run ⟨aquarium, {}⟩).result.toOption.map fun m =>
        (m.dispatch ⟨0⟩ (spawn [("species", .str "Salmon")] "Fish"),
          m.dispatch ⟨1⟩ (spawn [("species", .str "Salmon")] "Fish"))) =
        some (⟨1⟩, ⟨2⟩) := by decide +kernel
  obtain ⟨m, hm, -⟩ := Option.map_eq_some_iff.mp hok.2.1
  rw [hm] at hok
  obtain ⟨htypes, hupper, hboth⟩ := hok
  obtain ⟨x, hx, htypes⟩ := Option.map_eq_some_iff.mp htypes
  simp only [Option.map_some, Option.some.injEq, Prod.mk.injEq] at htypes hupper hboth
  refine ⟨m, x, eq_ok_of_toOption hm, hx, by simp [htypes], by simp [hupper, htypes],
    by simp [hupper], ?_⟩
  rw [hboth.1, hboth.2]
  simp

end ApiModel
