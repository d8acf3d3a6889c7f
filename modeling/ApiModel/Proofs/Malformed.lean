import ApiModel.Grammars
import ApiModel.Proofs.Following

/-! # Malformed `additionalProperties`

A value of `additionalProperties` that is neither a flag nor a schema is kept when a document is
read. It is a defect of every schema that a build resolves, unless the schema is a reference or an
enumeration of strings. A build resolves all schemas that it follows, but of the inline parts of an
`allOf` it only takes the members.
-/

namespace ApiModel

open Resolution

variable {context : Context} {schema : Schema} {pointer : Pointer} {value : Json}

namespace Resolution

theorem resolveSite_malformed {site : Site} (hp : site.schema.IsPlain)
    (ha : site.schema.additional = some (.malformed value)) (s : State) :
    resolveSite context site s = some (none,
      (report (.schema site.owner (.malformedAdditional site.pointer value)) s).2) := by
  have hroute := hp.route_of_malformed ha
  rw [resolveSite_eq, resolveStep, hroute]
  rfl

/-- What a schema that has been resolved declares in vain is still known in the end. -/
theorem Visited.malformed (h : Visited context pointer schema) (hp : schema.IsPlain)
    (ha : schema.additional = some (.malformed value)) : ∃ found owner,
      (Build.run context).result = .error (.defects found) ∧
        .schema owner (.malformedAdditional pointer value) ∈ found := by
  obtain ⟨site, s, hm, rfl, rfl⟩ := h
  obtain ⟨methods, last, hall, hrun⟩ := run_eq_conclude context
  have hgrows := (hm.kept hall).2 (map_found (resolveSite_malformed hp ha s))
  have hd := hgrows.defects.subset (List.mem_append_right _ (List.mem_singleton_self _))
  obtain ⟨found, hr, hfound⟩ := Scene.conclude_reports_iff.mpr (.inl hd)
  rw [← hrun] at hr
  exact ⟨found, site.owner, hr, hfound⟩

end Resolution

/-- A schema with malformed `additionalProperties`, which is neither a reference nor an enumeration
of strings, is reported with its pointer and the value where a build resolves it. There is no model
if it is anywhere that a build follows schemas to. -/
theorem malformed_additional_refused (context : Context) {schema : Schema} {value : Json}
    (hp : schema.IsPlain) (ha : schema.additional = some (.malformed value)) (pointer : Pointer) :
    (Visited context pointer schema → ∃ found owner,
      (Build.run context).result = .error (.defects found) ∧
        .schema owner (.malformedAdditional pointer value) ∈ found) ∧
    (context.document.NamesOnce → Followed context pointer schema → ∃ found,
      (Build.run context).result = .error (.defects found)) := by
  constructor
  · intro hv
    exact hv.malformed hp ha
  · intro hn hfollowed
    obtain ⟨methods, last, hall, hrun⟩ := run_eq_conclude context
    cases hd : last.defects with
    | cons d rest =>
      have hmem : d ∈ last.defects := hd ▸ List.mem_cons_self ..
      obtain ⟨found, hr, -⟩ := Scene.conclude_reports_iff.mpr (.inl hmem)
      rw [← hrun] at hr
      exact ⟨found, hr⟩
    | nil =>
      have hf := (Scene.resolveAll_keeps
        (Scene.resolveSite_keeps (.ofBuild context) last)).holds hall
      rcases hfollowed.visited hn hall hf hd with hv | ⟨hs, -⟩
      · obtain ⟨found, _, hr, -⟩ := hv.malformed hp ha
        exact ⟨found, hr⟩
      · -- A malformed value makes no object type of a schema.
        have hroute := Schema.route_eq_composite_iff.mpr hs
        cases (hp.route_of_malformed ha).symm.trans hroute

def herd : Schema :=
  { typeName := some "array", items := some (.typed "string" none),
    additional := some (.malformed (.str "any")) }

def farm : Document where
  definitions := [("Herd", herd), ("Farm", { properties := [("herd", herd)] })]

theorem malformed_additional_refused_herd :
    herd.IsPlain ∧ herd.additional = some (.malformed (.str "any")) ∧
      (∃ found owner, (Build.run ⟨farm, {}⟩).result = .error (.defects found) ∧
        .schema owner (.malformedAdditional (Pointer.definition "Herd") (.str "any")) ∈ found) ∧
      farm.NamesOnce ∧
      Followed ⟨farm, {}⟩ (((Pointer.definition "Farm").child "properties").child "herd") herd ∧
      ∃ found, (Build.run ⟨farm, {}⟩).result = .error (.defects found) := by
  have hp : herd.IsPlain := ⟨rfl, rfl⟩
  have hkeys : Fields.keys farm.definitions = [] ++ "Herd" :: ["Farm"] := rfl
  have hmade : Made ⟨farm, {}⟩ (.definition "Herd" (Pointer.definition "Herd") "Herd") {} :=
    .definition hkeys rfl
  have hvisited : Visited ⟨farm, {}⟩ (Pointer.definition "Herd") herd :=
    ⟨definitionSite "Herd" herd, _, hmade.aliased rfl
      (show claimKey "Herd" {} = (true, _) from rfl) rfl (by decide) rfl rfl, rfl, rfl⟩
  have hn : farm.NamesOnce := by decide +kernel
  have hfarm : Followed ⟨farm, {}⟩ (Pointer.definition "Farm") { properties := [("herd", herd)] } :=
    .definition rfl
  have hfollowed := hfarm.member rfl (List.mem_singleton_self _)
  exact ⟨hp, rfl, (malformed_additional_refused ⟨farm, {}⟩ hp rfl _).1 hvisited, hn, hfollowed,
    (malformed_additional_refused ⟨farm, {}⟩ hp rfl _).2 hn hfollowed⟩

def pasture : Document where
  definitions := [
    ("Coat", {
      typeName := some "string"
      enumeration := some [.str "bay"]
      additional := some (.malformed (.str "any")) }),
    ("Foal", {
      allOf := [{
        properties := [("age", .typed "integer" none)]
        additional := some (.malformed (.str "any")) }] })]

/-- What is malformed in an enumeration of strings or in a part of an `allOf` goes unnoticed. -/
theorem malformed_additional_overlooked :
    (∃ coat, pasture.Stands (Pointer.definition "Coat") coat ∧ coat.reference = none ∧
      coat.additional = some (.malformed (.str "any"))) ∧
    (∃ part, pasture.Stands (((Pointer.definition "Foal").child "allOf").item 0) part ∧
      part.reference = none ∧ part.additional = some (.malformed (.str "any"))) ∧
    (Build.run ⟨pasture, {}⟩).result.isOk = true := by
  have hfoal : pasture.Stands (Pointer.definition "Foal") _ := .definition rfl
  exact ⟨⟨_, .definition rfl, rfl, rfl⟩, ⟨_, hfoal.part (List.mem_singleton_self _), rfl, rfl⟩,
    by decide +kernel⟩

end ApiModel
