import ApiModel.Proofs.Cycles

/-! # Walks along bases

Each walk marks what it has passed with how its end fares, and stops where an earlier walk has been.
Whatever the walks have shown by then is right: a composite that is marked has a chain that ends or
one that runs into a cycle that is on record, and no cycle is on record twice. After the last walk
no composite is without a mark.
-/

namespace ApiModel.Hierarchy

open Catalog (BaseChain IsCycle ListsCycles)
open Relation (ReflTransGen)

variable {c : Catalog} {s t : Survey} {id a base : CompositeId}
  {path passed before after : List CompositeId} {fate : Walk}

namespace Survey

theorem outcome_set : ({ s with status := s.status.set a.index fate } : Survey).outcome id =
    if a = id ∧ id.index < s.status.length then fate else s.outcome id := by
  obtain ⟨i⟩ := id
  obtain ⟨j⟩ := a
  simp only [outcome, List.getD_eq_getElem?_getD, List.getElem?_set, CompositeId.mk.injEq]
  split_ifs <;> grind

theorem mark_cons : s.mark (a :: path) fate =
    ({ s with status := s.status.set a.index fate } : Survey).mark path fate := rfl

theorem length_mark : (s.mark path fate).status.length = s.status.length := by
  induction path generalizing s with
  | nil => rfl
  | cons a path ih => rw [mark_cons, ih, List.length_set]

theorem outcome_mark : (s.mark path fate).outcome id =
    if id ∈ path ∧ id.index < s.status.length then fate else s.outcome id := by
  induction path generalizing s with
  | nil => rw [if_neg fun h => List.not_mem_nil h.1]; rfl
  | cons a path ih =>
    rw [mark_cons, ih, outcome_set, List.length_set]
    simp only [List.mem_cons]
    split_ifs <;> grind

/-- What a walk has passed, last first: a chain of links through composites without a mark. -/
structure Passed (c : Catalog) (s : Survey) (path : List CompositeId) : Prop where
  linked : path.reverse.IsChain c.HasBase
  nodup : path.Nodup
  pending : ∀ id ∈ path, s.outcome id = .pending

inductive Stops (c : Catalog) (s : Survey) : List CompositeId → Survey → Prop where
  | root {id : CompositeId} {path : List CompositeId} (h : c.baseOf? id = none) :
      Stops c s (id :: path) (s.mark (id :: path) .acyclic)
  | ending {id base : CompositeId} {path : List CompositeId} (h : c.HasBase id base)
      (hs : s.outcome base = .acyclic) : Stops c s (id :: path) (s.mark (id :: path) .acyclic)
  | running {id base : CompositeId} {path : List CompositeId} (h : c.HasBase id base)
      (hs : s.outcome base = .broken) : Stops c s (id :: path) (s.mark (id :: path) .broken)
  | closing {id base : CompositeId} {path before after : List CompositeId}
      (h : c.HasBase id base) (hpath : (id :: path).reverse = before ++ base :: after) :
      Stops c s (id :: path)
        { s.mark (id :: path) .broken with cycles := s.cycles ++ [base :: after] }

namespace Passed

theorem push (h : Passed c s (id :: path)) (hlink : c.HasBase id base)
    (hs : s.outcome base = .pending) (hn : base ∉ id :: path) : Passed c s (base :: id :: path) where
  linked := by
    rw [List.reverse_cons, List.isChain_append]
    refine ⟨h.linked, List.isChain_singleton base, fun x hx y hy => ?_⟩
    rw [List.getLast?_reverse] at hx
    obtain rfl := Option.some.inj hx
    obtain rfl := Option.some.inj hy
    exact hlink
  nodup := List.nodup_cons.mpr ⟨hn, h.nodup⟩
  pending := List.forall_mem_cons.mpr ⟨hs, h.pending⟩

theorem reaches (h : Passed c s (id :: path)) (ha : a ∈ id :: path) :
    ReflTransGen c.HasBase a id := by
  induction path generalizing id with
  | nil =>
    obtain rfl := List.mem_singleton.mp ha
    exact .refl
  | cons next path ih =>
    have hlinked := h.linked
    rw [List.reverse_cons, List.isChain_append] at hlinked
    obtain ⟨hrest, -, hlink⟩ := hlinked
    have hlast : c.HasBase next id := hlink next List.getLast?_reverse id rfl
    rcases List.mem_cons.mp ha with rfl | ha
    · exact .refl
    · have hnext : Passed c s (next :: path) :=
        ⟨hrest, (List.nodup_cons.mp h.nodup).2, fun x hx => h.pending x (List.mem_cons_of_mem _ hx)⟩
      exact (ih hnext ha).tail hlast

/-- Where a walk comes back to its own path, the path from there on is a cycle. -/
theorem isCycle (h : Passed c s (id :: path)) (hlink : c.HasBase id base)
    (hpath : (id :: path).reverse = before ++ base :: after) : c.IsCycle (base :: after) := by
  have hsuffix : base :: after <:+ (id :: path).reverse := ⟨before, hpath.symm⟩
  refine ⟨(List.nodup_reverse.mpr h.nodup).sublist hsuffix.sublist, base, after, rfl, ?_⟩
  rw [← List.cons_append, List.isChain_append]
  refine ⟨h.linked.suffix hsuffix, List.isChain_singleton base, fun x hx y hy => ?_⟩
  have hlast : (base :: after).getLast? = some id := by
    rw [← List.getLast?_append_cons, ← hpath, List.getLast?_reverse, List.head?_cons]
  rw [hlast] at hx
  obtain rfl := Option.some.inj hx
  obtain rfl := Option.some.inj hy
  exact hlink

end Passed

theorem stops_walkFrom {n : Nat} (h : Passed c s (id :: path))
    (hw : ∀ a ∈ path, a.index < c.composites.length) (hn : c.composites.length < n + path.length) :
    ∃ passed, id :: path ⊆ passed ∧ Passed c s passed ∧
      Stops c s passed (s.walkFrom c n path id) := by
  induction n generalizing id path with
  | zero =>
    -- What has been passed is all different, so the steps last for as many composites as there are.
    have hle := Catalog.length_le_of_nodup (List.nodup_cons.mp h.nodup).2 hw
    omega
  | succ n ih =>
    unfold walkFrom
    cases hbase : c.baseOf? id with
    | none => exact ⟨_, List.Subset.refl _, h, .root hbase⟩
    | some base =>
      have hlink : c.HasBase id base := hbase
      dsimp only
      cases hs : s.outcome base with
      | acyclic => exact ⟨_, List.Subset.refl _, h, .ending hlink hs⟩
      | broken => exact ⟨_, List.Subset.refl _, h, .running hlink hs⟩
      | pending =>
        dsimp only
        by_cases hm : base ∈ id :: path
        · obtain ⟨before, after, hpath, hbefore⟩ :=
            List.eq_append_cons_of_mem (List.mem_reverse.mpr hm)
          have hcycle : (id :: path).reverse.dropWhile (· != base) = base :: after := by
            rw [hpath, List.dropWhile_append_of_pos, List.dropWhile_cons_of_neg (by simp)]
            intro x hx
            rw [bne_iff_ne]
            rintro rfl
            exact hbefore hx
          rw [if_pos hm, hcycle]
          exact ⟨_, List.Subset.refl _, h, .closing hlink hpath⟩
        · rw [if_neg hm]
          have hw : ∀ a ∈ id :: path, a.index < c.composites.length :=
            List.forall_mem_cons.mpr ⟨hlink.index_lt, hw⟩
          have hn : c.composites.length < n + (id :: path).length := by
            rw [List.length_cons]
            omega
          obtain ⟨passed, hsub, hpassed, hstops⟩ := ih (h.push hlink hs hm) hw hn
          exact ⟨passed, fun x hx => hsub (List.mem_cons_of_mem _ hx), hpassed, hstops⟩

theorem stops_walk (h : s.outcome id = .pending) :
    ∃ passed, id ∈ passed ∧ Passed c s passed ∧ Stops c s passed (s.walk c id) := by
  have hpassed : Passed c s [id] :=
    ⟨List.isChain_singleton id, List.nodup_singleton id, List.forall_mem_singleton.mpr h⟩
  obtain ⟨passed, hsub, hpassed, hstops⟩ :=
    stops_walkFrom hpassed (List.forall_mem_nil _) (Nat.lt_succ_self c.composites.length)
  refine ⟨passed, hsub (List.mem_singleton_self id), hpassed, ?_⟩
  rw [walk, h]
  exact hstops

theorem walk_of_ne_pending (h : s.outcome id ≠ .pending) : s.walk c id = s := by
  unfold walk
  split
  · exact absurd ‹_› h
  · rfl

theorem Stops.status_eq (h : Stops c s passed t) :
    ∃ fate, fate ≠ .pending ∧ t.status = (s.mark passed fate).status := by
  cases h with
  | root | ending => exact ⟨.acyclic, nofun, rfl⟩
  | running | closing => exact ⟨.broken, nofun, rfl⟩

def RunsInto (c : Catalog) (found : List (List CompositeId)) (id : CompositeId) : Prop :=
  ∃ cycle ∈ found, ∃ entry ∈ cycle, ReflTransGen c.HasBase id entry

theorem RunsInto.of_reaches {found : List (List CompositeId)} (h : RunsInto c found a)
    (hid : ReflTransGen c.HasBase id a) : RunsInto c found id := by
  obtain ⟨cycle, hcycle, entry, hentry, hreach⟩ := h
  exact ⟨cycle, hcycle, entry, hentry, hid.trans hreach⟩

/-- The marks are right, and the cycles are on record once each. -/
structure Sound (c : Catalog) (s : Survey) : Prop where
  length : s.status.length = c.composites.length
  cycles : ∀ cycle ∈ s.cycles, c.IsCycle cycle
  disjoint : s.cycles.Pairwise List.Disjoint
  acyclic : ∀ {id}, s.outcome id = .acyclic → ∃ chain, c.BaseChain id chain
  broken : ∀ {id}, s.outcome id = .broken → RunsInto c s.cycles id
  members : ∀ cycle ∈ s.cycles, ∀ id ∈ cycle, s.outcome id = .broken

theorem sound_start (c : Catalog) :
    Sound c ⟨List.replicate c.composites.length .pending, []⟩ := by
  have hpending (id : CompositeId) :
      outcome ⟨List.replicate c.composites.length .pending, []⟩ id = .pending := by
    simp only [outcome, List.getD_eq_getElem?_getD, List.getElem?_replicate]
    split <;> rfl
  constructor
  · exact List.length_replicate
  · exact List.forall_mem_nil _
  · exact .nil
  · exact fun h => nomatch (hpending _).symm.trans h
  · exact fun h => nomatch (hpending _).symm.trans h
  · exact List.forall_mem_nil _

namespace Sound

theorem mark (h : s.Sound c) (hp : ∀ id ∈ path, s.outcome id = .pending)
    (hacyclic : fate = .acyclic → ∀ id ∈ path, ∃ chain, c.BaseChain id chain)
    (hbroken : fate = .broken → ∀ id ∈ path, RunsInto c s.cycles id) :
    (s.mark path fate).Sound c where
  length := length_mark.trans h.length
  cycles := h.cycles
  disjoint := h.disjoint
  acyclic {id} hid := by
    rw [outcome_mark] at hid
    split_ifs at hid with hm
    · exact hacyclic hid id hm.1
    · exact h.acyclic hid
  broken {id} hid := by
    rw [outcome_mark] at hid
    split_ifs at hid with hm
    · exact hbroken hid id hm.1
    · exact h.broken hid
  members cycle hcycle id hid := by
    have hs := h.members cycle hcycle id hid
    have hn : ¬ (id ∈ path ∧ id.index < s.status.length) := fun hm =>
      nomatch (hp id hm.1).symm.trans hs
    rw [outcome_mark, if_neg hn]
    exact hs

/-- A cycle that a walk closes is a new one: what is on record is marked, what the walk has passed
is not. -/
theorem close (h : s.Sound c) (hp : Passed c s (id :: path)) (hlink : c.HasBase id base)
    (hpath : (id :: path).reverse = before ++ base :: after) :
    Sound c { s.mark (id :: path) .broken with cycles := s.cycles ++ [base :: after] } := by
  have hcycle := hp.isCycle hlink hpath
  have hsub : ∀ x ∈ base :: after, x ∈ id :: path := fun x hx =>
    List.mem_reverse.mp (hpath ▸ List.mem_append_right before hx)
  have hmark (x : CompositeId) : outcome
      { s.mark (id :: path) .broken with cycles := s.cycles ++ [base :: after] } x =
        if x ∈ id :: path ∧ x.index < s.status.length then .broken else s.outcome x := outcome_mark
  constructor
  · exact length_mark.trans h.length
  · exact List.forall_mem_append.mpr ⟨h.cycles, List.forall_mem_singleton.mpr hcycle⟩
  · refine List.pairwise_append.mpr ⟨h.disjoint, List.pairwise_singleton _ _, ?_⟩
    intro other hother fresh hfresh x hx hx'
    obtain rfl := List.mem_singleton.mp hfresh
    cases (hp.pending x (hsub x hx')).symm.trans (h.members other hother x hx)
  · intro x hx
    rw [hmark] at hx
    split_ifs at hx
    exact h.acyclic hx
  · intro x hx
    rw [hmark] at hx
    split_ifs at hx with hm
    · exact ⟨_, List.mem_append_right _ (List.mem_singleton_self _), base, List.mem_cons_self ..,
        (hp.reaches hm.1).tail hlink⟩
    · obtain ⟨cycle, hmem, hentry⟩ := h.broken hx
      exact ⟨cycle, List.mem_append_left _ hmem, hentry⟩
  · intro cycle hmem x hx
    rw [hmark]
    rcases List.mem_append.mp hmem with hmem | hmem
    · rw [h.members cycle hmem x hx, ite_self]
    · obtain rfl := List.mem_singleton.mp hmem
      exact if_pos ⟨hsub x hx, h.length ▸ hcycle.index_lt hx⟩

theorem of_stops (h : s.Sound c) (hp : Passed c s passed) (hs : Stops c s passed t) :
    t.Sound c := by
  cases hs with
  | root hnone =>
    exact h.mark hp.pending (fun _ x hx => (BaseChain.root hnone).exists_of_reaches (hp.reaches hx))
      nofun
  | ending hlink hbase =>
    obtain ⟨chain, hchain⟩ := h.acyclic hbase
    exact h.mark hp.pending
      (fun _ x hx => hchain.exists_of_reaches ((hp.reaches hx).tail hlink)) nofun
  | running hlink hbase =>
    exact h.mark hp.pending nofun
      fun _ x hx => (h.broken hbase).of_reaches ((hp.reaches hx).tail hlink)
  | closing hlink hpath => exact h.close hp hlink hpath

theorem walk (h : s.Sound c) : (s.walk c id).Sound c := by
  by_cases hs : s.outcome id = .pending
  · obtain ⟨passed, -, hpassed, hstops⟩ := stops_walk (c := c) hs
    exact h.of_stops hpassed hstops
  · rwa [walk_of_ne_pending hs]

/-- A walk leaves a mark where it starts, and the marks that are there. -/
theorem outcome_walk_ne_pending (h : s.Sound c) (hid : id.index < c.composites.length)
    (ha : a = id ∨ s.outcome a ≠ .pending) : (s.walk c id).outcome a ≠ .pending := by
  by_cases hs : s.outcome id = .pending
  · obtain ⟨passed, hmem, -, hstops⟩ := stops_walk (c := c) hs
    obtain ⟨fate, hfate, hstatus⟩ := hstops.status_eq
    have houtcome : (s.walk c id).outcome a = (s.mark passed fate).outcome a := by
      unfold outcome
      rw [hstatus]
    rw [houtcome, outcome_mark]
    rcases ha with rfl | ha
    · rwa [if_pos ⟨hmem, h.length ▸ hid⟩]
    · split_ifs <;> assumption
  · rw [walk_of_ne_pending hs]
    rcases ha with rfl | ha <;> assumption

theorem foldl_walk {ids : List CompositeId} (h : s.Sound c)
    (hids : ∀ id ∈ ids, id.index < c.composites.length) :
    (ids.foldl (Survey.walk c) s).Sound c ∧ ∀ id, id ∈ ids ∨ s.outcome id ≠ .pending →
      (ids.foldl (Survey.walk c) s).outcome id ≠ .pending := by
  induction ids generalizing s with
  | nil => exact ⟨h, fun id hid => hid.resolve_left List.not_mem_nil⟩
  | cons next ids ih =>
    obtain ⟨hnext, hids⟩ := List.forall_mem_cons.mp hids
    have hwalk : (s.walk c next).Sound c := h.walk
    obtain ⟨hsound, hmarked⟩ := ih hwalk hids
    refine ⟨hsound, fun id hid => hmarked id ?_⟩
    rcases hid with hid | hid
    · rcases List.mem_cons.mp hid with rfl | hid
      · exact .inr (h.outcome_walk_ne_pending hnext (.inl rfl))
      · exact .inl hid
    · exact .inr (h.outcome_walk_ne_pending hnext (.inr hid))

end Sound

end Survey

open Survey (RunsInto)

theorem sound_survey (c : Catalog) : (survey c).Sound c :=
  ((Survey.sound_start c).foldl_walk fun _ => Catalog.mem_compositeIds.mp).1

theorem outcome_survey_ne_pending (hid : id.index < c.composites.length) :
    (survey c).outcome id ≠ .pending :=
  ((Survey.sound_start c).foldl_walk fun _ => Catalog.mem_compositeIds.mp).2 id
    (.inl (Catalog.mem_compositeIds.mpr hid))

theorem RunsInto.not_baseChain {chain : List CompositeId} (h : RunsInto c (cycles c) id) :
    ¬ c.BaseChain id chain := by
  obtain ⟨cycle, hcycle, entry, hentry, hreach⟩ := h
  exact ((sound_survey c).cycles cycle hcycle).not_baseChain hentry hreach

theorem ends_or_runsInto (hid : id.index < c.composites.length) :
    (∃ chain, c.BaseChain id chain) ∨ RunsInto c (cycles c) id := by
  cases hs : (survey c).outcome id with
  | pending => exact absurd hs (outcome_survey_ne_pending hid)
  | acyclic => exact .inl ((sound_survey c).acyclic hs)
  | broken => exact .inr ((sound_survey c).broken hs)

theorem outcome_survey_eq_acyclic_iff (hid : id.index < c.composites.length) :
    (survey c).outcome id = .acyclic ↔ ∃ chain, c.BaseChain id chain := by
  refine ⟨(sound_survey c).acyclic, fun ⟨chain, hchain⟩ => ?_⟩
  cases hs : (survey c).outcome id with
  | pending => exact absurd hs (outcome_survey_ne_pending hid)
  | acyclic => rfl
  | broken => exact absurd hchain (RunsInto.not_baseChain ((sound_survey c).broken hs))

/-- Every cycle is found, and none twice. -/
theorem listsCycles_cycles (c : Catalog) : c.ListsCycles (cycles c) where
  cycles := (sound_survey c).cycles
  disjoint := (sound_survey c).disjoint
  complete cycle h := by
    obtain ⟨entry, rest, rfl, -⟩ := h.linked
    have hmem : entry ∈ entry :: rest := List.mem_cons_self ..
    rcases ends_or_runsInto (h.index_lt hmem) with ⟨chain, hchain⟩ | hruns
    · exact absurd hchain (h.not_baseChain hmem .refl)
    · obtain ⟨other, hother, a, ha, hreach⟩ := hruns
      exact ⟨other, hother,
        h.isRotated_of_mem ((sound_survey c).cycles other hother) (h.mem_of_reaches hmem hreach) ha⟩

theorem cycles_eq_nil_iff : cycles c = [] ↔
    ∀ id : CompositeId, id.index < c.composites.length → ∃ chain, c.BaseChain id chain := by
  constructor
  · intro h id hid
    refine (ends_or_runsInto hid).resolve_right fun ⟨cycle, hcycle, _⟩ => ?_
    rw [h] at hcycle
    exact List.not_mem_nil hcycle
  · intro h
    refine List.eq_nil_iff_forall_not_mem.mpr fun cycle hcycle => ?_
    have hc := (sound_survey c).cycles cycle hcycle
    obtain ⟨entry, rest, rfl, -⟩ := hc.linked
    have hmem : entry ∈ entry :: rest := List.mem_cons_self ..
    obtain ⟨chain, hchain⟩ := h entry (hc.index_lt hmem)
    exact hc.not_baseChain hmem .refl hchain

end ApiModel.Hierarchy
