import ApiModel.Proofs.Inversion
import Mathlib.Data.List.Induction

/-! # Calls one after the other

A part of a resolution calls the resolver and goes on with the answer, and that is all it does with
it. So an outcome that a part has with two resolvers, both of which know less than a third one, it
has with what both of them know, and with the answers to those calls alone that it needs. By this a
property of all calls of a build, or of all within the invariant, is proved by induction: it holds
of a call if it holds of the calls that its step makes.
-/

namespace ApiModel.Resolution

variable {α β : Type} {context : Context} {r r' q : Resolver} {s t last : State}

/-- The course of a part: where it ends, or a call and how it goes on with the answer. -/
inductive Course (α : Type) where
  | done (a : α) (t : State)
  | call (site : Site) (s : State) (next : Option ModelType → State → Course α)

def Below (r q : Resolver) : Prop := ∀ site s p, r site s = some p → q site s = some p

def both (r r' : Resolver) : Resolver := fun site s => (r' site s).bind fun _ => r site s

theorem both_eq_some {site : Site} {p : Option ModelType × State} :
    both r r' site s = some p ↔ r site s = some p ∧ ∃ p', r' site s = some p' := by
  unfold both
  cases r' site s <;> simp

noncomputable def restricted (K : Site → State → Prop) (r : Resolver) : Resolver := fun site s =>
  open Classical in if K site s then r site s else none

theorem restricted_eq_some {K : Site → State → Prop} {site : Site} {p : Option ModelType × State} :
    restricted K r site s = some p ↔ K site s ∧ r site s = some p := by
  unfold restricted
  split_ifs with h <;> simp [h]

namespace Course

def run (r : Resolver) : Course α → Option (α × State)
  | done a t => some (a, t)
  | call site s next => (r site s).bind fun p => (next p.1 p.2).run r

def bind (f : α → State → Course β) : Course α → Course β
  | done a t => f a t
  | call site s next => call site s fun type t => (next type t).bind f

theorem run_bind (f : α → State → Course β) (c : Course α) :
    (c.bind f).run r = (c.run r).bind fun p => (f p.1 p.2).run r := by
  induction c with
  | done a t => rfl
  | call site s next ih =>
    show (r site s).bind (fun p => ((next p.1 p.2).bind f).run r) = _
    rw [run, Option.bind_assoc]
    exact congrArg _ (funext fun p => ih p.1 p.2)

theorem run_mono (h : Below r q) {c : Course α} {p : α × State} (hc : c.run r = some p) :
    c.run q = some p := by
  induction c with
  | done a t => exact hc
  | call site s next ih =>
    obtain ⟨answer, ha, hc⟩ := Option.bind_eq_some_iff.mp hc
    exact Option.bind_eq_some_iff.mpr ⟨answer, h _ _ _ ha, ih _ _ hc⟩

theorem run_both (h : Below r q) (h' : Below r' q) {c : Course α} {p p' : α × State}
    (hc : c.run r = some p) (hc' : c.run r' = some p') : c.run (both r r') = some p := by
  induction c with
  | done a t => exact hc
  | call site s next ih =>
    obtain ⟨answer, ha, hc⟩ := Option.bind_eq_some_iff.mp hc
    obtain ⟨answer', ha', hc'⟩ := Option.bind_eq_some_iff.mp hc'
    cases (h _ _ _ ha).symm.trans (h' _ _ _ ha')
    exact Option.bind_eq_some_iff.mpr ⟨answer, both_eq_some.mpr ⟨ha, answer, ha'⟩, ih _ _ hc hc'⟩

/-- A course needs no calls but those without which it does not end. -/
theorem run_restricted {K : Site → State → Prop} {c : Course α} {p : α × State}
    (hr : Below r (resolveSite context)) (h : c.run r = some p)
    (hK : ∀ site t, (∀ q : Resolver, q site t = none → (∀ site' t', (site', t') ≠ (site, t) →
      q site' t' = resolveSite context site' t') → c.run q = none) → K site t) :
    c.run (restricted K r) = some p := by
  induction c with
  | done a t => exact h
  | call site s next ih =>
    obtain ⟨answer, ha, h⟩ := Option.bind_eq_some_iff.mp h
    -- Whatever it answers elsewhere, a resolver that fails at the first call does not come past it.
    have hfirst : K site s := hK site s fun q hq _ => by rw [run, hq]; rfl
    refine Option.bind_eq_some_iff.mpr
      ⟨answer, restricted_eq_some.mpr ⟨hfirst, ha⟩, ih _ _ h fun site' t' hrest => ?_⟩
    refine hK site' t' fun q hq hother => ?_
    by_cases heq : (site, s) = (site', t')
    · cases heq
      rw [run, hq]
      rfl
    · rw [run, hother site s heq, hr site s answer ha]
      exact hrest q hq hother

end Course

/-- From every state the part has a course, whatever the resolver is. -/
def Courses (part : Resolver → Run α) : Prop := ∀ s, ∃ c : Course α, ∀ r, part r s = c.run r

namespace Courses

theorem pure (a : α) : Courses fun _ => (Pure.pure a : Run α) := fun s => ⟨.done a s, fun _ => rfl⟩

theorem lift (x : Step α) : Courses fun _ => (liftM x : Run α) := fun s =>
  ⟨.done (x s).1 (x s).2, fun _ => rfl⟩

theorem get : Courses fun _ => (MonadState.get : Run State) := fun s => ⟨.done s s, fun _ => rfl⟩

theorem call (site : Site) : Courses fun r => r site := fun s =>
  ⟨.call site s .done, fun r => by cases h : r site s <;> simp [Course.run, h]⟩

theorem bind {part : Resolver → Run α} {f : Resolver → α → Run β} (h : Courses part)
    (hf : ∀ a, Courses fun r => f r a) : Courses fun r => part r >>= f r := by
  intro s
  obtain ⟨c, hc⟩ := h s
  choose d hd using hf
  refine ⟨c.bind d, fun r => ?_⟩
  show (part r s).bind (fun p => f r p.1 p.2) = _
  rw [hc, Course.run_bind]
  exact congrArg _ (funext fun p => hd p.1 p.2 r)

theorem of_composed {R : State → State → Prop} {part : Resolver → Run α} (h : Composed R part) :
    Courses part := by
  induction h with
  | pure a => exact pure a
  | get => exact get
  | @lift _ x _ => exact lift x
  | call site => exact call site
  | bind _ _ ih ihf => exact bind ih ihf

theorem resolveStep (context : Context) (site : Site) :
    Courses fun r => Resolution.resolveStep context r site := by
  by_cases h : ∃ listed, site.schema.route = .enumeration listed
  · obtain ⟨listed, h⟩ := h
    have hlift : (fun r => Resolution.resolveStep context r site) =
        fun _ => liftM (Resolution.buildEnum context.settings site listed) := by
      funext r
      simp only [Resolution.resolveStep, h]
    rw [hlift]
    exact lift _
  · exact of_composed (.resolveStep (not_exists.mp h))

theorem mono {part : Resolver → Run α} (h : Courses part) (hr : Below r q) {p : α × State}
    (hp : part r s = some p) : part q s = some p := by
  obtain ⟨c, hc⟩ := h s
  rw [hc] at hp ⊢
  exact Course.run_mono hr hp

theorem both {part : Resolver → Run α} (h : Courses part) (hr : Below r q) (hr' : Below r' q)
    {p p' : α × State} (hp : part r s = some p) (hp' : part r' s = some p') :
    part (both r r') s = some p := by
  obtain ⟨c, hc⟩ := h s
  rw [hc] at hp hp' ⊢
  exact Course.run_both hr hr' hp hp'

/-- A part has its outcome also where no calls are answered but those that it needs. -/
theorem restricted {part : Resolver → Run α} (h : Courses part)
    (hr : Below r (resolveSite context)) {p : α × State} (hp : part r s = some p) :
    part (Resolution.restricted (Calls context part s) r) s = some p := by
  obtain ⟨c, hc⟩ := h s
  rw [hc] at hp ⊢
  refine Course.run_restricted hr hp fun site t hcall => ?_
  intro q hq hother
  rw [hc]
  exact hcall q hq hother

end Courses

theorem lacking_below (context : Context) (site : Site) (t : State) :
    Below (lacking context site t) (resolveSite context) := by
  intro site' t' p h
  unfold lacking at h
  split_ifs at h
  exact h

section

variable {site site' : Site}

/-- A call of a part is made at once or when the part goes on. -/
theorem Calls.of_bind {part : Resolver → Run α} {f : Resolver → α → Run β} (hp : Courses part)
    (h : Calls context (fun r => part r >>= f r) s site t) :
    Calls context part s site t ∨ ∃ a u, part (resolveSite context) s = some (a, u) ∧
      Calls context (fun r => f r a) u site t := by
  rw [calls_iff] at h
  cases hu : part (lacking context site t) s with
  | none => exact .inl (calls_iff.mpr hu)
  | some p =>
    obtain ⟨a, u⟩ := p
    refine .inr ⟨a, u, hp.mono (lacking_below context site t) hu, calls_iff.mpr ?_⟩
    cases hf : f (lacking context site t) a u with
    | none => rfl
    | some q => cases (bind_eq_some.mpr ⟨a, u, hu, hf⟩).symm.trans h

theorem Calls.of_resolve (h : Calls context (fun r => r site') s site t) :
    site' = site ∧ s = t := by
  by_contra hne
  obtain ⟨type, u, hu⟩ := resolveSite_total context site' s
  have hother : lacking context site t site' s = resolveSite context site' s :=
    if_neg fun heq => hne (Prod.mk.inj heq)
  cases (hother.symm.trans (calls_iff.mp h)).symm.trans hu

theorem Composed.calls {R : State → State → Prop} {part : Resolver → Run α} (h : Composed R part)
    {I : State → Prop} (hstep : ∀ {s t}, R s t → I s → I t)
    (hcall : ∀ {site s type t}, resolveSite context site s = some (type, t) → I s → I t)
    (hs : I s) (hc : Calls context part s site t) : I t := by
  induction h generalizing s with
  | pure | get | lift => cases calls_iff.mp hc
  | call =>
    obtain ⟨rfl, rfl⟩ := hc.of_resolve
    exact hs
  | bind h _ ih ihf =>
    obtain hc | ⟨a, u, hu, hc⟩ := hc.of_bind (.of_composed h)
    · exact ih hs hc
    · exact ihf a (h.preserves hstep hcall hs hu) hc

end

/-- From one state to another by calls of a resolver, with notes in between. -/
inductive Chain (r : Resolver) : State → State → Prop where
  | refl (s : State) : Chain r s s
  | notes {s t u : State} (h : Chain r s t) (hn : Notes t u) : Chain r s u
  | call {s t u : State} {site : Site} {type : Option ModelType} (h : Chain r s t)
      (hc : r site t = some (type, u)) : Chain r s u

theorem Composed.chain {part : Resolver → Run α} (h : Composed Asides part) {a : α}
    (hp : part r s = some (a, t)) : Chain r s t :=
  h.preserves (fun hr hc => hc.notes hr.notes) (fun hr hc => hc.call hr) (.refl s) hp

theorem resolveDefinitions_cons {name : String} {names : List String} :
    resolveDefinitions context r (name :: names) s = some ((), t) ↔
      ∃ type u, resolveTop context r name s = some (type, u) ∧
        resolveDefinitions context r names u = some ((), t) := by
  constructor
  · intro h
    obtain ⟨_, u, hu, h⟩ := bind_eq_some.mp h
    obtain ⟨type, _, hv, hu⟩ := bind_eq_some.mp hu
    cases hu
    exact ⟨type, _, hv, h⟩
  · rintro ⟨type, u, hu, h⟩
    exact bind_eq_some.mpr ⟨(), u, bind_eq_some.mpr ⟨type, u, hu, rfl⟩, h⟩

theorem resolveDefinitions_concat {name : String} {names : List String}
    (h : resolveDefinitions context r (names ++ [name]) s = some ((), t)) :
    ∃ type u, resolveDefinitions context r names s = some ((), u) ∧
      resolveTop context r name u = some (type, t) := by
  rw [resolveDefinitions, List.forM_eq_forM, List.forM_append] at h
  obtain ⟨⟨⟩, u, hu, h⟩ := bind_eq_some.mp h
  obtain ⟨type, v, hv, hnil⟩ := resolveDefinitions_cons.mp h
  cases hnil
  exact ⟨type, u, hu, hv⟩

theorem buildMethods_concat {o : Operation} {operations : List Operation} {methods : List Method}
    (h : buildMethods context r (operations ++ [o]) s = some (methods, t)) :
    ∃ before m u, buildMethods context r operations s = some (before, u) ∧
      buildMethod context r o u = some (m, t) := by
  rw [buildMethods, List.foldlM_append] at h
  obtain ⟨before, u, hu, h⟩ := bind_eq_some.mp h
  rw [List.foldlM_cons] at h
  obtain ⟨_, v, hv, h⟩ := bind_eq_some.mp h
  cases h
  obtain ⟨m, _, hm, hv⟩ := bind_eq_some.mp hv
  cases hv
  exact ⟨before, m, u, hu, hm⟩

theorem resolve_below_succ (context : Context) (n : Nat) :
    Below (resolve context n) (resolve context (n + 1)) := by
  induction n with
  | zero => exact fun _ _ _ h => nomatch h
  | succ n ih => exact fun site s p h => (Courses.resolveStep context site).mono ih h

/-- What is found with some fuel is what is found with enough of it. -/
theorem resolve_below (context : Context) (n : Nat) :
    Below (resolve context n) (resolveSite context) := by
  intro site s p h
  rw [(resolveSite_ends context site s (Nat.le_add_left _ n)).left_eq]
  generalize fuelFor context.document site.schema = m
  induction m with
  | zero => exact h
  | succ m ih => exact resolve_below_succ context (n + m) _ _ _ ih

/-- What holds of a call that a build makes, if it holds of the calls that its step makes, holds of
every one. -/
theorem Made.induct {P : Site → State → Option ModelType → State → Prop}
    (hstep : ∀ r site s type t, Made context (.node site) s →
      (∀ site' s' type' t', r site' s' = some (type', t') →
        Made context (.node site') s' ∧ P site' s' type' t') →
      resolveStep context r site s = some (type, t) → P site s type t)
    {site : Site} {type : Option ModelType} (h : Made context (.node site) s)
    (ht : resolveSite context site s = some (type, t)) : P site s type t := by
  suffices hn : ∀ n site s type t, Made context (.node site) s →
      resolve context n site s = some (type, t) → P site s type t from hn _ _ _ _ _ h ht
  intro n
  induction n with
  | zero => exact fun _ _ _ _ _ ht => nomatch ht
  | succ n ih =>
    intro site s type t h ht
    have ht := (Courses.resolveStep context site).restricted (resolve_below context n) ht
    refine hstep _ site s type t h (fun site' s' type' t' h' => ?_) ht
    obtain ⟨hc, h'⟩ := restricted_eq_some.mp h'
    exact ⟨h.ofNode hc, ih _ _ _ _ (h.ofNode hc) h'⟩

theorem buildMethod_of_isExcluded {o : Operation} (h : o.isExcluded context.settings = true) :
    buildMethod context r o = pure none := by
  obtain ⟨id, hid, hi⟩ := (Option.any_eq_true _ _).mp h
  simp_all [buildMethod]

/-- What a build keeps from one definition to the next and from one operation to the next holds
when it ends. -/
theorem resolveAll_induct (I : State → Prop)
    (hstart : I (Build.reportMalformed context.document {}).2)
    (hdefinition : ∀ name s type t,
      Made context (.definition name (Pointer.definition name) name) s →
      resolveTop context (resolveSite context) name s = some (type, t) → I s → I t)
    (hmethod : ∀ o s m t, Made context (.method o) s →
      buildMethod context (resolveSite context) o s = some (m, t) → I s → I t)
    {methods : List Method}
    (hall : Build.resolveAll context (resolveSite context) {} = some (methods, last)) :
    I last := by
  obtain ⟨s, hs, hlast⟩ := resolveAll_eq_some hall
  have hdefined : ∀ names after t, Fields.keys context.document.definitions = names ++ after →
      resolveDefinitions context (resolveSite context) names
        (Build.reportMalformed context.document {}).2 = some ((), t) → I t := by
    -- Each definition is a call of the build after those before it, so the last one comes first.
    intro names
    induction names using List.reverseRecOn with
    | nil =>
      rintro _ t - ⟨⟩
      exact hstart
    | append_singleton names name ih =>
      intro after t hn ht
      obtain ⟨type, u, hu, ht⟩ := resolveDefinitions_concat ht
      rw [List.append_assoc] at hn
      exact hdefinition _ _ _ _ (.definition hn hu) ht (ih _ _ hn hu)
  suffices hbuilt : ∀ operations after methods t,
      operationsOf context.document = operations ++ after →
      buildMethods context (resolveSite context) operations s = some (methods, t) → I t from
    hbuilt _ _ _ _ (List.append_nil _).symm hlast
  intro operations
  induction operations using List.reverseRecOn with
  | nil =>
    rintro _ _ t - ⟨⟩
    exact hdefined _ _ _ (List.append_nil _).symm hs
  | append_singleton operations o ih =>
    intro after methods t ho ht
    obtain ⟨before, m, u, hu, ht⟩ := buildMethods_concat ht
    rw [List.append_assoc] at ho
    have hi := ih _ _ _ ho hu
    cases he : o.isExcluded context.settings with
    | true =>
      rw [buildMethod_of_isExcluded he] at ht
      cases ht
      exact hi
    | false => exact hmethod _ _ _ _ (.method ho he hs hu) ht hi

namespace Scene

variable {S : Scene}

/-- A call within the invariant whose outcome is still there in the state `last`. -/
structure Within (S : Scene) (last : State) (site : Site) (s : State) (type : Option ModelType)
    (t : State) : Prop where
  outcome : resolveSite S.context site s = some (type, t)
  stands : S.Stands site.pointer site.schema
  inv : S.Inv s
  grows : Grows t last

namespace Within

variable {site : Site} {type : Option ModelType}

theorem yields (h : S.Within last site s type t) :
    S.Yields (fun t x => S.Typed t site x) s type t :=
  (resolveSite_keeps S last site s ⟨h.stands, h.inv⟩).holds h.outcome

theorem later (h : S.Within last site s type t) : Extends s t := h.yields.reaches.later

theorem inv_end (h : S.Within last site s type t) : S.Inv t := h.yields.reaches.inv

end Within

open Classical in
noncomputable def within (S : Scene) (last : State) : Resolver := fun site s =>
  if S.Stands site.pointer site.schema ∧ S.Inv s ∧
    ∀ p, resolveSite S.context site s = some p → Grows p.2 last
  then resolveSite S.context site s else none

theorem of_within {site : Site} {type : Option ModelType}
    (h : S.within last site s = some (type, t)) : S.Within last site s type t := by
  unfold within at h
  split_ifs at h with hw
  exact ⟨h, hw.1, hw.2.1, hw.2.2 _ h⟩

theorem within_below (S : Scene) (last : State) : Below (S.within last) (resolveSite S.context) :=
  fun _ _ _ h => (of_within h).outcome

theorem joins_within (S : Scene) (last : State) :
    (S.contract last).Joins (resolveSite S.context) (S.within last) := by
  intro site s h
  obtain ⟨type, t, ht, hg, hy⟩ := resolveSite_keeps S last site s h
  refine ⟨type, t, ht, fun hl => ⟨(hg hl).1, ?_⟩, hy⟩
  unfold within
  rw [if_pos]
  · exact ht
  · refine ⟨h.1, h.2, fun p hp => ?_⟩
    cases ht.symm.trans hp
    exact hl

/-- A part that keeps the invariant makes its calls within it. -/
theorem run_within (part : Resolver → Run α) {Q : α → State → Prop}
    (hpart : ∀ r, (S.contract t).Joins (resolveSite S.context) r →
      Alike (Grows · t) (part (resolveSite S.context)) (part r) s Q)
    {a : α} (h : part (resolveSite S.context) s = some (a, t)) :
    part (S.within t) s = some (a, t) := by
  obtain ⟨b, u, hu, hg, -⟩ := hpart _ (joins_within S t)
  cases hu.symm.trans h
  exact (hg (.refl _)).2

theorem definition_within (hi : S.Inv s) {name owner : String} {pointer : Pointer}
    {type : Option ModelType}
    (h : resolveDefinition S.context (resolveSite S.context) name pointer owner s =
      some (type, t)) :
    resolveDefinition S.context (S.within t) name pointer owner s = some (type, t) :=
  run_within (fun r => resolveDefinition S.context r name pointer owner)
    (fun _ hr => resolveDefinition_keeps hr hi name pointer owner) h

theorem method_within (hi : S.Inv s) {o : Operation} (hs : S.StandsIn o) {m : Option Method}
    (h : buildMethod S.context (resolveSite S.context) o s = some (m, t)) :
    buildMethod S.context (S.within t) o s = some (m, t) :=
  run_within (fun r => buildMethod S.context r o) (fun _ hr => buildMethod_keeps hr hi hs) h

/-- What holds of a call if it holds of the calls that its step makes holds of every call within
the invariant. -/
theorem induct {P : Site → State → Option ModelType → State → Prop}
    (hstep : ∀ r site s type t, S.Within t site s type t →
      (∀ site' s' type' t', r site' s' = some (type', t') →
        S.Within t site' s' type' t' ∧ P site' s' type' t') →
      resolveStep S.context r site s = some (type, t) → P site s type t)
    {site : Site} {type : Option ModelType} (h : S.Within last site s type t) :
    P site s type t := by
  suffices hn : ∀ n site s type t, S.Within t site s type t →
      resolve S.context n site s = some (type, t) → P site s type t from
    hn _ site s type t { h with grows := .refl t } h.outcome
  intro n
  induction n with
  | zero => exact fun _ _ _ _ _ h => nomatch h
  | succ n ih =>
    intro site s type t hw h
    have hw' : resolveStep S.context (S.within t) site s = some (type, t) :=
      run_within (fun r => resolveStep S.context r site)
        (fun r hr => resolveStep_keeps hr site s ⟨hw.stands, hw.inv⟩)
        ((congrFun (resolveSite_eq S.context site) s).symm.trans hw.outcome)
    have hboth := (Courses.resolveStep S.context site).both (resolve_below S.context n)
      (within_below S t) h hw'
    refine hstep _ site s type t hw (fun site' s' type' t' h' => ?_) hboth
    obtain ⟨hfuel, p, hp⟩ := both_eq_some.mp h'
    have hp' := of_within hp
    cases (resolve_below S.context n _ _ _ hfuel).symm.trans hp'.outcome
    exact ⟨hp', ih _ _ _ _ { hp' with grows := .refl _ } hfuel⟩

end Scene

/-- What holds of a call that a build makes, if it holds of the calls that its step makes, holds of
every one, and each of them is a call within the invariant. -/
theorem Made.induct_within {methods : List Method}
    (hall : Build.resolveAll context (resolveSite context) {} = some (methods, last))
    {P : Site → State → Option ModelType → State → Prop}
    (hstep : ∀ r site s type t, (Scene.ofBuild context).Within t site s type t →
      (∀ site' s' type' t', r site' s' = some (type', t') → Made context (.node site') s' ∧
        (Scene.ofBuild context).Within t site' s' type' t' ∧ P site' s' type' t') →
      resolveStep context r site s = some (type, t) → P site s type t)
    {site : Site} {type : Option ModelType} (h : Made context (.node site) s)
    (ht : resolveSite context site s = some (type, t)) :
    (Scene.ofBuild context).Within t site s type t ∧ P site s type t := by
  obtain ⟨⟨hi, hs⟩, -⟩ := h.kept hall
  have hw : (Scene.ofBuild context).Within t site s type t := ⟨ht, hs, hi, .refl t⟩
  refine ⟨hw, Scene.induct
    (P := fun site s type t => Made context (.node site) s → P site s type t) ?_ hw h⟩
  intro r site s type t hw hr ht hm
  have hbelow : Below r (resolveSite context) := fun _ _ _ hcall => (hr _ _ _ _ hcall).1.outcome
  refine hstep _ site s type t hw (fun site' s' type' t' hcall => ?_)
    ((Courses.resolveStep context site).restricted hbelow ht)
  obtain ⟨hc, hcall⟩ := restricted_eq_some.mp hcall
  obtain ⟨hw', hp⟩ := hr _ _ _ _ hcall
  exact ⟨hm.ofNode hc, hw', hp (hm.ofNode hc)⟩

/-- A part whose calls are calls of the build has its outcome with a resolver that answers no
others. -/
theorem Courses.exists_made {part : Resolver → Run α} (h : Courses part)
    (hmade : ∀ site u, Calls context part s site u → Made context (.node site) u) {a : α}
    (hp : part (resolveSite context) s = some (a, t)) :
    ∃ r, (∀ site' s' p, r site' s' = some p → Made context (.node site') s' ∧
      resolveSite context site' s' = some p) ∧ part r s = some (a, t) := by
  refine ⟨_, fun site' s' p hcall => ?_, h.restricted (fun _ _ _ hc => hc) hp⟩
  obtain ⟨hc, hcall⟩ := restricted_eq_some.mp hcall
  exact ⟨hmade _ _ hc, hcall⟩

/-- What each call of a build keeps holds when it ends. `P` holds of all the calls; a definition may
use that of its own calls, and an operation is calls with asides in between. -/
theorem kept_of_resolveAll {methods : List Method} (I : State → Prop)
    {P : Site → State → Option ModelType → State → Prop}
    (hcalls : ∀ {site s type t}, Made context (.node site) s →
      resolveSite context site s = some (type, t) → P site s type t)
    (hkeeps : ∀ {site s type t}, P site s type t → I s → I t)
    (hasides : ∀ {s t}, Asides s t → I s → I t)
    (hdefinition : ∀ {r name s type t},
      (∀ site s type t, r site s = some (type, t) → P site s type t) →
      resolveTop context r name s = some (type, t) → I s → I t)
    (hstart : I {})
    (hall : Build.resolveAll context (resolveSite context) {} = some (methods, last)) :
    I last := by
  have hmade : ∀ {r : Resolver}, (∀ site s p, r site s = some p →
      Made context (.node site) s ∧ resolveSite context site s = some p) →
      ∀ site s type t, r site s = some (type, t) → P site s type t := by
    intro r hr site s type t hcall
    obtain ⟨hm, hcall⟩ := hr site s _ hcall
    exact hcalls hm hcall
  refine resolveAll_induct I (hasides (.reportMalformed ..) hstart) ?_ ?_ hall
  · intro name s type t hm ht
    obtain ⟨r, hr, ht⟩ := (Courses.of_composed (.resolveDefinition context name _ _)).exists_made
      (fun _ _ => hm.ofDefinition) ht
    exact hdefinition (hmade hr) ht
  · intro o s m t hm ht hs
    obtain ⟨r, hr, ht⟩ := (Courses.of_composed (.buildMethod context o)).exists_made
      (fun _ _ => hm.ofMethod) ht
    exact (Composed.buildMethod context o).preserves hasides
      (fun hcall => hkeeps (hmade hr _ _ _ _ hcall)) hs ht

end ApiModel.Resolution
