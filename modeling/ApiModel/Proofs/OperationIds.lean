import ApiModel.Grammars
import ApiModel.Proofs.Operations

/-! # Methods by their operation ids

Operations may share an id, and each of them becomes a method. So a method is found by its id where
the selected operations have ids of their own, and elsewhere the first one with the id is. The group
and the name of a method give its id back, so within a group no two ids have one name.
-/

namespace ApiModel

open Resolution

variable {context : Context} {m : ClientModel} {x y : Method} {group : String}

def joinOperationId : Option String × String → String
  | (some group, name) => group ++ "_" ++ name
  | (none, name) => name

theorem joinOperationId_split (id : String) : joinOperationId (splitOperationId id) = id := by
  unfold splitOperationId
  dsimp only
  split
  · rename_i first group underscore c rest hgroup hrest
    have hunderscore : underscore = '_' := by
      have hhead := List.head?_dropWhile_not (· ≠ '_') id.toList
      rw [hrest] at hhead
      simpa using hhead
    have hparts := List.takeWhile_append_dropWhile (p := (· ≠ '_')) (l := id.toList)
    rw [hrest, hunderscore] at hparts
    apply String.toList_inj.mp
    simp only [joinOperationId, String.toList_append, String.toList_ofList, List.append_assoc]
    exact hparts
  · rfl

theorem splitOperationId_injective : Function.Injective splitOperationId := by
  intro id other h
  rw [← joinOperationId_split id, ← joinOperationId_split other, h]

namespace ClientModel

theorem exists_method? (hx : x ∈ m.methods) : ∃ before y after,
    m.methods = before ++ y :: after ∧ m.method? x.operationId = some y ∧
      y.operationId = x.operationId ∧ ∀ z ∈ before, z.operationId ≠ x.operationId := by
  have hsome : (m.method? x.operationId).isSome = true :=
    List.find?_isSome.mpr ⟨x, hx, beq_self_eq_true _⟩
  obtain ⟨y, hy⟩ := Option.isSome_iff_exists.mp hsome
  obtain ⟨hid, before, after, hmethods, hbefore⟩ := List.find?_eq_some_iff_append.mp hy
  exact ⟨before, y, after, hmethods, hy, beq_iff_eq.mp hid, fun z hz => by simpa using hbefore z hz⟩

theorem method?_of_nodup (hn : (m.methods.map (·.operationId)).Nodup) (hx : x ∈ m.methods) :
    m.method? x.operationId = some x := by
  obtain ⟨before, y, after, hmethods, hy, hid, -⟩ := exists_method? hx
  have hmem : y ∈ m.methods := by
    rw [hmethods]
    exact List.mem_append_right before (List.mem_cons_self ..)
  rw [hy, List.inj_on_of_nodup_map hn hmem hx hid]

theorem nodup_names (hn : (m.methods.map (·.operationId)).Nodup)
    (hids : ∀ x ∈ m.methods, ∀ y ∈ m.methods, x.group = y.group → x.name = y.name →
      x.operationId = y.operationId) : ((m.methodsInGroup group).map (·.name)).Nodup := by
  have hmethods := List.Nodup.of_map _ hn
  refine List.Nodup.map_on (fun x hx y hy hname => ?_) (hmethods.filter _)
  obtain ⟨hx, hgroup⟩ := List.mem_filter.mp hx
  obtain ⟨hy, hgroup'⟩ := List.mem_filter.mp hy
  have hsame : x.group = y.group := (beq_iff_eq.mp hgroup).trans (beq_iff_eq.mp hgroup').symm
  exact List.inj_on_of_nodup_map hn hx hy (hids x hx y hy hsame hname)

end ClientModel

/-- The methods of a model have the ids of the selected operations, so they are found by their ids
exactly where those are distinct. -/
theorem methods_found_by_id (h : (Build.run context).result = .ok m) :
    (m.methods.map fun x => some x.operationId) =
      ((operationsOf context.document).filter (·.isSelected context.settings)).map
        (·.node.operationId) ∧
    (∀ x ∈ m.methods, ∃ before y after, m.methods = before ++ y :: after ∧
      m.method? x.operationId = some y ∧ y.operationId = x.operationId ∧
      ∀ z ∈ before, z.operationId ≠ x.operationId) ∧
    (∀ x ∈ m.methods, ∀ y ∈ m.methods, x.group = y.group → x.name = y.name →
      x.operationId = y.operationId) ∧
    ((((operationsOf context.document).filter (·.isSelected context.settings)).map
      (·.node.operationId)).Nodup →
      (m.methods.map (·.operationId)).Nodup ∧
      (∀ x ∈ m.methods, m.method? x.operationId = some x) ∧
      ∀ group, ((m.methodsInGroup group).map (·.name)).Nodup) := by
  obtain ⟨t, -, hf, hd, -, -⟩ := Scene.finished_of_run h
  have hids := map_eq_of_forall₂ (hf.methods hd) fun o x hx => hx.operationId
  have hgroups : ∀ x ∈ m.methods, ∀ y ∈ m.methods, x.group = y.group → x.name = y.name →
      x.operationId = y.operationId := by
    intro x hx y hy hgroup hname
    obtain ⟨o, -, ho⟩ := exists_of_mem_forall₂ (hf.methods hd) hx
    obtain ⟨o', -, ho'⟩ := exists_of_mem_forall₂ (hf.methods hd) hy
    apply splitOperationId_injective
    rw [← ho.group, ← ho'.group, hgroup, hname]
  refine ⟨hids.symm, fun x hx => ClientModel.exists_method? hx, hgroups, fun hn => ?_⟩
  rw [hids] at hn
  have hn : (m.methods.map (·.operationId)).Nodup := by
    refine List.Nodup.of_map some ?_
    rwa [List.map_map]
  exact ⟨hn, fun x hx => ClientModel.method?_of_nodup hn hx,
    fun group => ClientModel.nodup_names hn hgroups⟩

def stable : Document where
  info := { title := "Stable", version := "1" }
  paths := [
    ("/horses", {
      operation? := fun method =>
        match method with
        | .get => some { operationId := some "Horses_list" }
        | .post => some { operationId := some "Horses_add" }
        | _ => none }),
    ("/hay", {
      operation? := fun method =>
        match method with
        | .get => some { operationId := some "list" }
        | _ => none })]

theorem methods_found_by_id_stable : ∃ m, (Build.run ⟨stable, {}⟩).result = .ok m ∧
    m.methods.map (·.operationId) = ["Horses_list", "Horses_add", "list"] ∧
    (∀ x ∈ m.methods, m.method? x.operationId = some x) ∧
    ∀ group, ((m.methodsInGroup group).map (·.name)).Nodup := by
  have hok : (Build.run ⟨stable, {}⟩).result.toOption.map
      (fun m => m.methods.map (·.operationId)) = some ["Horses_list", "Horses_add", "list"] := by
    decide +kernel
  obtain ⟨m, hm, hids⟩ := Option.map_eq_some_iff.mp hok
  have h := eq_ok_of_toOption hm
  obtain ⟨-, -, -, hfound⟩ := methods_found_by_id h
  obtain ⟨-, hfound, hnames⟩ := hfound (by decide +kernel)
  exact ⟨m, h, hids, hfound, hnames⟩

def twins : Document where
  info := { title := "Twins", version := "1" }
  paths := [
    ("/cats", {
      operation? := fun method =>
        match method with
        | .get => some { operationId := some "Pets_list" }
        | _ => none }),
    ("/dogs", {
      operation? := fun method =>
        match method with
        | .get => some { operationId := some "Pets_list" }
        | _ => none })]

/-- Both become methods of the model; the second one is not found by its id. -/
theorem operation_id_shared : ∃ m, (Build.run ⟨twins, {}⟩).result = .ok m ∧
    ¬ (m.methods.map (·.operationId)).Nodup ∧
    (∃ x ∈ m.methods, m.method? x.operationId ≠ some x) ∧
    (m.methodsInGroup "Pets").map (·.name) = ["list", "list"] := by
  have hok : (Build.run ⟨twins, {}⟩).result.toOption.map (fun m =>
      (m.methods.map fun x => (x.operationId, x.url), (m.method? "Pets_list").map (·.url),
        (m.methodsInGroup "Pets").map (·.name))) =
      some ([("Pets_list", "/cats"), ("Pets_list", "/dogs")], some "/cats", ["list", "list"]) := by
    decide +kernel
  obtain ⟨m, hm, heq⟩ := Option.map_eq_some_iff.mp hok
  obtain ⟨hmethods, heq⟩ := Prod.mk.inj heq
  obtain ⟨hfirst, hgroup⟩ := Prod.mk.inj heq
  refine ⟨m, eq_ok_of_toOption hm, ?_, ?_, hgroup⟩
  · have hids := congrArg (List.map Prod.fst) hmethods
    rw [List.map_map] at hids
    change ¬ (m.methods.map (Prod.fst ∘ fun x => (x.operationId, x.url))).Nodup
    rw [hids]
    decide
  · have hdogs : ("Pets_list", "/dogs") ∈ m.methods.map fun x => (x.operationId, x.url) := by
      rw [hmethods]
      simp
    obtain ⟨x, hx, heq⟩ := List.mem_map.mp hdogs
    obtain ⟨hid, hurl⟩ := Prod.mk.inj heq
    refine ⟨x, hx, fun hsame => ?_⟩
    rw [hid] at hsame
    rw [hsame] at hfirst
    exact absurd (hurl.symm.trans (Option.some.inj hfirst)) (by decide)

end ApiModel
