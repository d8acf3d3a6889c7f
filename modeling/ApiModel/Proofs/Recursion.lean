import ApiModel.Proofs.Parts
import ApiModel.Proofs.Termination

/-! # The recursion without its fuel

A schema is resolved by one step over the resolution of what nests in it, and the fuel that is set
aside for it always lasts. Hence a contract that one step keeps is kept by every resolution, and
every part of a run ends, from any state.
-/

namespace ApiModel.Resolution

variable {e : Extent} {context : Context} {n : Nat} {s : State}

theorem resolve_joins_resolveSite (he : e.Fits context.document) {k : Nat} (hk : n ≤ k) :
    (ranked e context.document n).Joins (resolve context k) (resolveSite context) := by
  intro site s h
  have hr : Alike Always (resolve context k site)
      (resolve context (max k (fuelFor context.document site.schema)) site) s
      ((ranked e context.document n).ensures site s) := by
    rw [resolve_eq_iterate, resolve_eq_iterate]
    exact iterate_ends he _ _ hk (hk.trans (le_max_left ..)) site s h
  obtain ⟨type, t, ht, ht', hq⟩ := hr
  have hs := (resolveSite_ends context site s (le_max_right k _)).left_eq
  exact ⟨type, t, ht, fun hg => ⟨trivial, hs.trans (ht' hg).2⟩, hq⟩

/-- Resolution is a fixed point of its step. -/
theorem resolveSite_eq (context : Context) (site : Site) :
    resolveSite context site = resolveStep context (resolveSite context) site := by
  funext s
  have he := extentOf_fits context.document site.name site.schema
  have hj := resolveStep_ends he (resolve_joins_resolveSite he le_rfl) site s
    ⟨extentOf_covers .., (rank_le_fuelFor ..).trans (Nat.le_succ _)⟩
  rw [← hj.left_eq]
  exact (resolveSite_ends context site s (Nat.le_succ _)).left_eq

/-- A schema that refers to a definition is resolved as the definition. -/
theorem resolveSite_reference {site : Site} {text name : String}
    (hr : site.schema.reference = some text)
    (hp : Reference.parse? text = some ⟨.definitions, name⟩) : resolveSite context site =
      resolveDefinition context (resolveSite context) name site.pointer site.owner := by
  rw [resolveSite_eq, resolveStep, Schema.route_of_reference hr]
  simp only [resolveReference, hp]

/-- A contract that a step keeps, and that some resolver keeps, is kept by resolution. -/
theorem Contract.of_step {K : Contract} (base : Resolver) (hbase : K.Joins base base)
    (hstep : ∀ r r', K.Joins r r' → K.Joins (resolveStep context r) (resolveStep context r')) :
    K.Joins (resolveSite context) (resolveSite context) := by
  intro site s h
  have hi : ∀ k, K.Joins (iterate context base k) (iterate context base k) := fun k => by
    induction k with
    | zero => exact hbase
    | succ k ih => exact hstep _ _ ih
  have he := extentOf_fits context.document site.name site.schema
  have heq : resolveSite context site s =
      iterate context base (fuelFor context.document site.schema) site s := by
    unfold resolveSite
    rw [resolve_eq_iterate]
    exact (iterate_ends he _ base le_rfl le_rfl site s
      ⟨extentOf_covers .., rank_le_fuelFor ..⟩).left_eq
  obtain ⟨type, t, ht, hg, hq⟩ := hi (fuelFor context.document site.schema) site s h
  exact ⟨type, t, heq.trans ht, fun ht' => ⟨(hg ht').1, heq.trans ht⟩, hq⟩

def Ends {α : Type} (m : Run α) : Prop := ∀ s, ∃ a t, m s = some (a, t)

namespace Ends

variable {α β : Type}

theorem pure (a : α) : Ends (Pure.pure a) := fun s => ⟨a, s, rfl⟩

theorem lift (x : Step α) : Ends (liftM x) := fun _ => ⟨_, _, rfl⟩

theorem bind {m : Run α} {f : α → Run β} (hm : Ends m) (hf : ∀ a, Ends (f a)) :
    Ends (m >>= f) := by
  intro s
  obtain ⟨a, t, ht⟩ := hm s
  obtain ⟨b, u, hu⟩ := hf a t
  refine ⟨b, u, ?_⟩
  show (m s).bind (fun p => f p.1 p.2) = _
  rw [ht]
  exact hu

theorem get : Ends MonadState.get := fun s => ⟨s, s, rfl⟩

variable {r : Resolver}

theorem of_composed {R : State → State → Prop} {part : Resolver → Run α} (h : Composed R part)
    (hr : ∀ site, Ends (r site)) : Ends (part r) := by
  induction h with
  | pure a => exact pure a
  | get => exact get
  | lift _ => exact lift _
  | call site => exact hr site
  | bind _ _ ih ihf => exact bind ih ihf

theorem populate (hr : ∀ site, Ends (r site)) (context : Context) (id : CompositeId) (s : Schema)
    (pointer : Pointer) : Ends (Resolution.populate context r id s pointer) :=
  of_composed (.populate context id s pointer) hr

theorem buildInline (hr : ∀ site, Ends (r site)) (context : Context) (site : Site) :
    Ends (Resolution.buildInline context r site) := of_composed (.buildInline context site) hr

theorem buildDefined (hr : ∀ site, Ends (r site)) (context : Context) (name : String)
    (s : Schema) : Ends (Resolution.buildDefined context r name s) :=
  of_composed (.buildDefined context name s) hr

theorem buildAliased (hr : ∀ site, Ends (r site)) (name : String) (s : Schema) :
    Ends (Resolution.buildAliased r name s) := of_composed (.buildAliased name s) hr

theorem resolveDefinition (hr : ∀ site, Ends (r site)) (context : Context) (name : String)
    (pointer : Pointer) (owner : String) :
    Ends (Resolution.resolveDefinition context r name pointer owner) :=
  of_composed (.resolveDefinition context name pointer owner) hr

theorem resolveReference (hr : ∀ site, Ends (r site)) (context : Context) (text : String)
    (site : Site) : Ends (Resolution.resolveReference context r text site) :=
  of_composed (.resolveReference context text site) hr

theorem buildSequence (hr : ∀ site, Ends (r site)) (site : Site) :
    Ends (Resolution.buildSequence r site) := of_composed (.buildSequence site) hr

theorem buildDictionary (hr : ∀ site, Ends (r site)) (site : Site) (value : Option Schema) :
    Ends (Resolution.buildDictionary r site value) := of_composed (.buildDictionary site value) hr

theorem resolveAll (hr : ∀ site, Ends (r site)) (context : Context) :
    Ends (Build.resolveAll context r) :=
  .bind (.lift _) fun _ => .bind (of_composed (.resolveDefinitions context _) hr) fun _ =>
    of_composed (.buildMethods context _) hr

end Ends

theorem resolveSite_total (context : Context) (site : Site) : Ends (resolveSite context site) :=
  fun s => by
    obtain ⟨type, t, ht, -⟩ := resolveSite_ends context site s le_rfl
    exact ⟨type, t, ht⟩

theorem run_eq_conclude (context : Context) : ∃ methods t,
    Build.resolveAll context (resolveSite context) {} = some (methods, t) ∧
      Build.run context = Build.conclude context methods t := by
  obtain ⟨methods, t, ht⟩ := Ends.resolveAll (resolveSite_total context) context {}
  exact ⟨methods, t, ht, by simp only [Build.run, StateT.run, ht]⟩

/-- Every resolution ends: of a schema, whatever more fuel it gets, of a reference, of a definition
of either kind, of what is in an array, a dictionary or an object type, and of a whole document.
It does so from any state, and is one step over the resolution of what nests in it. -/
theorem resolution_ends (context : Context) :
    (∀ site s, ∃ outcome, ∀ more,
      resolve context (fuelFor context.document site.schema + more) site s = some outcome) ∧
    (∀ site, resolveSite context site = resolveStep context (resolveSite context) site) ∧
    (∀ text site, Ends (resolveReference context (resolveSite context) text site)) ∧
    (∀ name pointer owner,
      Ends (resolveDefinition context (resolveSite context) name pointer owner)) ∧
    (∀ name s, Ends (buildDefined context (resolveSite context) name s)) ∧
    (∀ name s, Ends (buildAliased (resolveSite context) name s)) ∧
    (∀ site, Ends (buildSequence (resolveSite context) site)) ∧
    (∀ site value, Ends (buildDictionary (resolveSite context) site value)) ∧
    (∀ site, Ends (buildInline context (resolveSite context) site)) ∧
    (∀ id s pointer, Ends (populate context (resolveSite context) id s pointer)) ∧
    (∀ s name, Ends (resolveSchema context s name)) ∧
    Ends (Build.resolveAll context (resolveSite context)) ∧
    ∃ methods t, (Build.resolveAll context (resolveSite context)).run {} = some (methods, t) ∧
      Build.run context = Build.conclude context methods t := by
  have hr := resolveSite_total context
  refine ⟨fun site s => ?_, resolveSite_eq context, .resolveReference hr context,
    .resolveDefinition hr context, .buildDefined hr context, .buildAliased hr,
    .buildSequence hr, .buildDictionary hr, .buildInline hr context, .populate hr context,
    fun s name => ?_, .resolveAll hr context, ?_⟩
  · obtain ⟨outcome, s', h⟩ := hr site s
    exact ⟨(outcome, s'), fun more =>
      (resolveSite_ends context site s (Nat.le_add_right _ more)).left_eq ▸ h⟩
  · refine .bind (hr _) fun type => .bind (fun s => ⟨_, _, rfl⟩) fun defects => ?_
    split <;> exact .pure _
  · obtain ⟨methods, t, h⟩ := Ends.resolveAll hr context {}
    exact ⟨methods, t, h, by simp only [Build.run, StateT.run, h]⟩

end ApiModel.Resolution
