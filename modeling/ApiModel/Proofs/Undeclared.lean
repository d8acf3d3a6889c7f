import ApiModel.Grammars
import ApiModel.Proofs.Discriminators
import ApiModel.Proofs.Losses
import ApiModel.Proofs.Recursion

/-! # Undeclared discriminators

The hierarchies are looked at when all has been resolved that could be. By then a member is gone
whose type is refused or whose pattern is not valid, and so is a base that is refused. A
discriminator that a schema declares may therefore be reported as undeclared, but then a defect of
its own has been found for each of its declarations, or for a base on the way to it. Where nothing
has been lost on the way the report is true of the document.
-/

namespace ApiModel

open Relation (ReflTransGen)
open Resolution

namespace Resolution

variable {context : Context} {last : State} {found found' : List Defect} {name : String}
  {x y z : Located}

inductive Lost (context : Context) (found : List Defect) (name : String) (x y : Located) :
    Prop where
  | dropped (h : ∀ m ∈ y.members, m.name = name → Dropped context found m)
  | severed {z w : Located} (hz : ReflTransGen context.document.Inherits x z)
      (h : Severed context found z w) (hw : ReflTransGen context.document.Inherits w y)

namespace Lost

theorem mono (h : Lost context found name x y) (hd : found ⊆ found') :
    Lost context found' name x y := by
  cases h with
  | dropped h => exact .dropped fun m hm hname => (h m hm hname).mono hd
  | severed hz h hw => exact .severed hz (h.mono hd) hw

theorem head (h : Lost context found name z y) (hx : context.document.Inherits x z) :
    Lost context found name x y := by
  cases h with
  | dropped h => exact .dropped h
  | severed hz h hw => exact .severed (hz.head hx) h hw

theorem absent {methods : List Method}
    (hall : Build.resolveAll context (resolveSite context) {} = some (methods, last))
    (h : Lost context last.defects name x y) (hd : last.defects = []) :
    ∀ m ∈ y.members, m.name ≠ name := by
  rw [hd] at h
  cases h with
  | dropped h =>
    intro m hm hname
    cases h m hm hname with
    | refused h => exact not_refused hall hd h
    | invalid _ hmem => cases hmem
  | severed _ h _ =>
    cases h with
    | refused _ _ h => exact absurd h (not_refused hall hd)
    | second _ _ hmem => cases hmem

end Lost

/-- What is not in the catalog of a type and its ancestors is lost. -/
theorem lost_of_property? (h : Accounted context last)
    (hfilled : ∀ {id composite}, last.catalog.composite? id = some composite →
      composite.progress = .propertiesResolved) {a : CompositeId} {composite : Composite}
    (hc : last.catalog.composite? a = some composite)
    (hx : Accounts context last.catalog last.defects x composite)
    (hno : ∀ b, ReflTransGen last.catalog.HasBase a b → ∀ z, last.catalog.composite? b = some z →
      z.property? name = none) (hxy : ReflTransGen context.document.Inherits x y) :
    Lost context last.defects name x y := by
  -- Along the way to where it is declared the catalog follows the document until a base is lost.
  induction hxy using ReflTransGen.head_induction_on generalizing a composite with
  | refl =>
    refine .dropped fun m hm hname => (hx.members m hm).resolve_left ?_
    rintro ⟨p, hp, hpn⟩
    have hne := List.find?_eq_none.mp (hno a .refl composite hc) p hp
    simp [hpn, hname] at hne
  | @head x w hxw hwy ih =>
    rcases hx.bases w hxw with hsevered | ⟨id, base, hbase, hb, ho⟩
    · exact .severed .refl hsevered hwy
    · obtain ⟨w', hw⟩ := h.filled hb (hfilled hb)
      have htext := hw.origin.symm.trans ho
      obtain ⟨definition, hpointer, hd⟩ := hxw.definition
      obtain rfl : w' = w := by
        obtain ⟨pointer, schema⟩ := w
        obtain ⟨pointer', schema'⟩ := w'
        cases Pointer.text_injective htext
        cases hpointer
        cases (Document.get?_of_stands hw.stands).symm.trans hd
        rfl
      have hlink : last.catalog.HasBase a id := Option.bind_eq_some_iff.mpr ⟨_, hc, hbase⟩
      exact (ih hb hw fun b hab => hno b (hab.head hlink)).head hxw

end Resolution

namespace Hierarchy

variable {c : Catalog} {owner name type : String}

theorem undeclared_not_mem_repeatedValues {root : String} {seen ids : List CompositeId} :
    .discriminator owner (.undeclared name type) ∉ repeatedValues c root seen ids := by
  induction ids generalizing seen with
  | nil => exact List.not_mem_nil
  | cons id rest ih =>
    unfold repeatedValues
    rw [List.mem_append]
    rintro (h | h)
    · split at h
      · cases h
      · cases List.mem_singleton.mp h
    · exact ih h

theorem exists_of_undeclared_mem (h : .discriminator owner (.undeclared name type) ∈ defects c) :
    owner = type ∧ ∃ id root, c.composite? id = some root ∧ root.name = type ∧
      root.discriminator = some name ∧ ∀ b, ReflTransGen c.HasBase id b → ∀ z,
        c.composite? b = some z → z.property? name = none := by
  have hmem : .discriminator owner (.undeclared name type) ∈ discriminatorDefects c := by
    rcases List.mem_append.mp h with h | h
    · rcases List.mem_append.mp h with h | h
      · obtain ⟨cycle, -, hcycle⟩ := List.mem_map.mp h
        cases hcycle
      · cases kind_of_mem_overrideDefects h
    · exact h
  obtain ⟨⟨id, chain⟩, hchain, hd⟩ := List.mem_flatMap.mp hmem
  have hbases := baseChain_of_chain? (mem_chains.mp hchain).2
  dsimp only at hd
  unfold discriminatorDefectsOf at hd
  split at hd
  · cases hd
  · rename_i root hroot
    split at hd
    · cases hd
    · rename_i property hproperty
      split at hd
      · rename_i hnone
        cases List.mem_singleton.mp hd
        refine ⟨rfl, id, root, hroot, rfl, hproperty, fun b hb z hz => ?_⟩
        by_contra hsome
        obtain ⟨q, hq⟩ := Option.ne_none_iff_exists'.mp hsome
        obtain ⟨b', p, hnear⟩ := exists_nearest? (hbases.mem_cons_iff.mpr hb) hz hq
        cases hnone.symm.trans hnear
      · split at hd
        · exact absurd hd undeclared_not_mem_repeatedValues
        · cases List.mem_singleton.mp hd

end Hierarchy

namespace Resolution

/-- What it means for the document that a discriminator is reported as undeclared. Each declaration
in the object type or in what it inherits from is dropped, or a base is lost on the way to it. If
nothing is found before the hierarchies are looked at, there is no declaration. -/
structure Undeclared (context : Context) (last : State) (found : List Defect)
    (type name : String) (x : Located) : Prop where
  composite : ∃ id root, last.catalog.composite? id = some root ∧ root.name = type ∧
    root.origin = x.pointer.text
  stands : context.document.Stands x.pointer x.schema
  discriminator : x.schema.declaredDiscriminator x.pointer = some name
  lost : ∀ y, ReflTransGen context.document.Inherits x y → Lost context found name x y
  absent : last.defects = [] → ∀ y, ReflTransGen context.document.Inherits x y →
    ∀ m ∈ y.members, m.name ≠ name

end Resolution

/-- Where a build reports a discriminator as undeclared, each declaration that the document has for
it has been lost to a defect that was found before. Without such defects the report is true: no
schema that the type is made of declares the property. -/
theorem undeclared_discriminators {context : Context} {found : List Defect}
    {owner name type : String} (hr : (Build.run context).result = .error (.defects found))
    (hd : .discriminator owner (.undeclared name type) ∈ found) :
    owner = type ∧ ∃ methods last x,
      Build.resolveAll context (resolveSite context) {} = some (methods, last) ∧
        Undeclared context last found type name x := by
  obtain ⟨methods, last, hall, hrun⟩ := run_eq_conclude context
  rw [hrun] at hr
  have haccounted := accounted_of_resolveAll hall
  have hfinished := (Scene.resolveAll_keeps (Scene.resolveSite_keeps (.ofBuild context) last)).holds
    hall
  have hreported : ∀ d ∈ last.defects, d ∈ found := by
    intro d hmem
    obtain ⟨found', hr', hmem⟩ := Scene.conclude_reports_iff.mpr (.inl hmem)
    cases hr.symm.trans hr'
    exact hmem
  rcases Scene.conclude_reports_iff.mp ⟨found, hr, hd⟩ with hmem | hmem | hmem
  · exact absurd rfl (haccounted.silent _ hmem)
  · obtain ⟨rfl, id, root, hroot, rfl, hdiscriminator, hno⟩ :=
      Hierarchy.exists_of_undeclared_mem hmem
    obtain ⟨x, hx⟩ := haccounted.filled hroot (hfinished.filled hroot)
    have hlost : ∀ y, ReflTransGen context.document.Inherits x y →
        Lost context last.defects name x y :=
      fun y => lost_of_property? haccounted hfinished.filled hroot hx hno
    exact ⟨rfl, methods, last, x, hall,
      { composite := ⟨id, root, hroot, rfl, hx.origin⟩
        stands := hx.stands
        discriminator := hx.discriminator.symm.trans hdiscriminator
        lost := fun y hy => (hlost y hy).mono hreported
        absent := fun hclean y hy => (hlost y hy).absent hall hclean }⟩
  · obtain ⟨url, reason, hurl⟩ := Scene.exists_of_baseUrl hmem
    cases hurl

/-- The discriminators that are reported as undeclared: the type that a report is about, the name of
the property and the type that it names. -/
def Build.Outcome.undeclared (o : Build.Outcome) : List (String × String × String) :=
  match o.result with
  | .error (.defects found) => found.filterMap fun
    | .discriminator owner (.undeclared name type) => some (owner, name, type)
    | _ => none
  | _ => []

theorem Build.Outcome.reported_of_mem_undeclared {o : Build.Outcome} {owner name type : String}
    (h : (owner, name, type) ∈ o.undeclared) : ∃ found, o.result = .error (.defects found) ∧
      .discriminator owner (.undeclared name type) ∈ found := by
  unfold undeclared at h
  split at h
  · rename_i found hr
    obtain ⟨d, hd, hsome⟩ := List.mem_filterMap.mp h
    split at hsome
    · cases hsome
      exact ⟨found, hr, hd⟩
    · cases hsome
  · cases h

def pound : Document where
  definitions := [
    ("Animal", {
      properties := [
        ("kind", { typeName := some "string", facets := { pattern := some "([a-z" } })] }),
    ("Dog", {
      discriminator := some "kind"
      allOf := [.referenceTo "Animal"] })]

theorem undeclared_discriminators_pound : ∃ found,
    (Build.run ⟨pound, {}⟩).result = .error (.defects found) ∧
      .discriminator "Dog" (.undeclared "kind" "Dog") ∈ found ∧ ∃ methods last x,
        Build.resolveAll ⟨pound, {}⟩ (resolveSite ⟨pound, {}⟩) {} = some (methods, last) ∧
          Undeclared ⟨pound, {}⟩ last found "Dog" "kind" x := by
  have hone : (Build.run ⟨pound, {}⟩).undeclared = [("Dog", "kind", "Dog")] := by decide +kernel
  obtain ⟨found, hr, hd⟩ :=
    Build.Outcome.reported_of_mem_undeclared (hone ▸ List.mem_singleton_self _)
  exact ⟨found, hr, hd, (undeclared_discriminators hr hd).2⟩

def hutch : Document where
  definitions := [("Pet", {
    discriminator := some "kind"
    properties := [
      ("kind", { typeName := some "string", facets := { pattern := some "([a-z" } })] })]

/-- A discriminator is reported as undeclared that is declared in the type itself. -/
theorem declared_discriminator_reported : ∃ found schema,
    (Build.run ⟨hutch, {}⟩).result = .error (.defects found) ∧
      .discriminator "Pet" (.undeclared "kind" "Pet") ∈ found ∧
      Fields.get? hutch.definitions "Pet" = some schema ∧
      ∃ m ∈ schema.declaredMembers (Pointer.definition "Pet"), m.name = "kind" := by
  have hone : (Build.run ⟨hutch, {}⟩).undeclared = [("Pet", "kind", "Pet")] := by decide +kernel
  obtain ⟨found, hr, hd⟩ :=
    Build.Outcome.reported_of_mem_undeclared (hone ▸ List.mem_singleton_self _)
  exact ⟨found, _, hr, hd, rfl, _, List.mem_singleton_self _, rfl⟩

end ApiModel
