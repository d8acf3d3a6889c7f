import ApiModel.Proofs.Methods
import ApiModel.Proofs.Reading

/-! # Pointers are faithful

Different pointers have different texts, and a pointer found on the way down a document leads back
to the schema it was found with. So the text of a pointer stands for one schema, as long as the
document names nothing twice.
-/

namespace ApiModel

namespace Pointer

theorem escapedChar_append_inj {c d : Char} {x y : List Char}
    (h : escapedChar c ++ x = escapedChar d ++ y) : c = d ∧ x = y := by
  unfold escapedChar at h
  split_ifs at h <;> simp_all [eq_comm]

theorem slash_ne_of_mem_escapedChar {c d : Char} (h : d ∈ escapedChar c) : d ≠ '/' := by
  unfold escapedChar at h
  split_ifs at h <;> simp_all
  all_goals rcases h with rfl | rfl <;> decide

def segmentChars (segment : String) : List Char := segment.toList.flatMap escapedChar

theorem segmentChars_injective : Function.Injective segmentChars := by
  suffices h : ∀ cs ds : List Char, cs.flatMap escapedChar = ds.flatMap escapedChar → cs = ds from
    fun s t hs => String.toList_inj.mp (h _ _ hs)
  have hne : ∀ c, escapedChar c ≠ [] := fun c => by unfold escapedChar; split_ifs <;> simp
  intro cs
  induction cs with
  | nil =>
    intro ds h
    cases ds with
    | nil => rfl
    | cons d ds => simp [hne] at h
  | cons c cs ih =>
    intro ds h
    cases ds with
    | nil => simp [hne] at h
    | cons d ds =>
      obtain ⟨rfl, hr⟩ := escapedChar_append_inj h
      rw [ih ds hr]

def chars (segments : List String) : List Char := segments.flatMap fun s => '/' :: segmentChars s

theorem span_chars (segment : String) (rest : List String) :
    (segmentChars segment ++ chars rest).span (· ≠ '/') = (segmentChars segment, chars rest) := by
  have hs : ∀ d ∈ segmentChars segment, decide (d ≠ '/') = true := fun d hd => by
    obtain ⟨c, -, hd⟩ := List.mem_flatMap.mp hd
    simpa using slash_ne_of_mem_escapedChar hd
  rw [List.span_eq_takeWhile_dropWhile, List.takeWhile_append_of_pos hs,
    List.dropWhile_append_of_pos hs]
  cases rest <;> simp [chars]

theorem chars_injective : Function.Injective chars := by
  intro ss
  induction ss with
  | nil =>
    intro ts h
    cases ts with
    | nil => rfl
    | cons t ts => cases h
  | cons s ss ih =>
    intro ts h
    cases ts with
    | nil => cases h
    | cons t ts =>
      have hcons : segmentChars s ++ chars ss = segmentChars t ++ chars ts := (List.cons.inj h).2
      have hspan := congrArg (List.span (· ≠ '/')) hcons
      rw [span_chars, span_chars] at hspan
      obtain ⟨hs, hr⟩ := Prod.mk.inj hspan
      rw [segmentChars_injective hs, ih hr]

theorem toList_text (p : Pointer) : p.text.toList = '#' :: chars p.segments := by
  simp [text, chars, segmentChars, escaped, List.flatMap_map]

/-- Different pointers have different texts. -/
theorem text_injective : Function.Injective text := by
  intro p q h
  have h := congrArg String.toList h
  rw [toList_text, toList_text] at h
  obtain ⟨ss⟩ := p
  exact congrArg Pointer.mk (chars_injective (List.cons.inj h).2)

end Pointer

def itemAt? {α : Type} (l : List α) (index : String) : Option α :=
  (l.zipIdx.find? fun p => toString p.2 == index).map Prod.fst

theorem toString_injective : Function.Injective (toString : Nat → String) := fun m n h => by
  have h := congrArg (fun s => Nat.ofDigitChars 10 s.toList 0) h
  simpa [Nat.toString_eq_repr, Nat.repr_eq_ofList_toDigits] using h

theorem itemAt?_of_mem {α : Type} {l : List α} {a : α} {i : Nat} (h : (a, i) ∈ l.zipIdx) :
    itemAt? l (toString i) = some a := by
  unfold itemAt?
  cases hf : l.zipIdx.find? fun p => toString p.2 == toString i with
  | none =>
    have := List.find?_eq_none.mp hf (a, i) h
    simp at this
  | some p =>
    obtain ⟨b, j⟩ := p
    have hj : toString j = toString i := by simpa using List.find?_some hf
    obtain rfl := toString_injective hj
    have ha := List.mem_zipIdx_iff_getElem?.mp h
    have hb := List.mem_zipIdx_iff_getElem?.mp (List.mem_of_find?_eq_some hf)
    exact hb.symm.trans ha

namespace Schema

def at? : List String → Schema → Option Schema
  | [], s => some s
  | "items" :: rest, s => s.items.bind fun t => at? rest t
  | "additionalProperties" :: rest, s => s.dictionary?.join.bind fun t => at? rest t
  | "properties" :: name :: rest, s => (Fields.get? s.properties name).bind fun t => at? rest t
  | "allOf" :: index :: rest, s => (itemAt? s.allOf index).bind fun t => at? rest t
  | _, _ => none

theorem at?_append {path rest : List String} {s t : Schema} (h : at? path s = some t) :
    at? (path ++ rest) s = at? rest t := by
  fun_induction at? path s with
  | case1 s => cases h; rfl
  | case2 rest' s ih =>
    obtain ⟨i, hi, h⟩ := Option.bind_eq_some_iff.mp h
    simp only [List.cons_append, at?, hi, Option.bind_some, ih i h]
  | case3 rest' s ih =>
    obtain ⟨v, hv, h⟩ := Option.bind_eq_some_iff.mp h
    simp only [List.cons_append, at?, hv, Option.bind_some, ih v h]
  | case4 name rest' s ih =>
    obtain ⟨m, hm, h⟩ := Option.bind_eq_some_iff.mp h
    simp only [List.cons_append, at?, hm, Option.bind_some, ih m h]
  | case5 index rest' s ih =>
    obtain ⟨part, hp, h⟩ := Option.bind_eq_some_iff.mp h
    simp only [List.cons_append, at?, hp, Option.bind_some, ih part h]
  | case6 => cases h

end Schema

open Resolution

def ParameterNode.schemaAt? (p : ParameterNode) : List String → Option Schema
  | "schema" :: rest => p.schema.bind fun s => s.at? rest
  | rest => p.asSchema.at? rest

namespace Document

/-- The parameter at an index, or the shared one that it refers to. -/
def parameterAt? (d : Document) (nodes : List ParameterNode) (index : String) :
    Option ParameterNode :=
  (itemAt? nodes index).bind fun node => (dereference d ⟨node, ⟨[]⟩⟩).toOption.map (·.node)

def operationSchemaAt? (d : Document) (o : OperationNode) : List String → Option Schema
  | "parameters" :: index :: rest => (d.parameterAt? o.parameters index).bind (·.schemaAt? rest)
  | "responses" :: status :: "schema" :: rest =>
    (Fields.get? o.responses status).bind fun node => node.schema.bind fun s => s.at? rest
  | _ => none

def pathSchemaAt? (d : Document) (item : PathItem) : List String → Option Schema
  | "parameters" :: index :: rest => (d.parameterAt? item.parameters index).bind (·.schemaAt? rest)
  | method :: rest => ((HttpMethod.all.find? (·.name == method)).bind item.operation?).bind
      fun o => d.operationSchemaAt? o rest
  | [] => none

def schemaAt? (d : Document) : List String → Option Schema
  | "definitions" :: name :: rest => (Fields.get? d.definitions name).bind fun s => s.at? rest
  | "paths" :: path :: rest => (Fields.get? d.paths path).bind fun item => d.pathSchemaAt? item rest
  | _ => none

/-- The schemas of a document, where they stand. -/
abbrev Stands (d : Document) : Pointer → Schema → Prop := Resolution.Stands d (operationRoots d)

variable {d : Document} {pointer : Pointer} {s t : Schema}

theorem mem_operationsOf {o : Operation} (h : o ∈ operationsOf d) :
    (o.path, o.item) ∈ d.paths ∧ (o.method, o.node) ∈ o.item.operations := by
  obtain ⟨p, hp, ho⟩ := List.mem_flatMap.mp h
  obtain ⟨q, hq, rfl⟩ := List.mem_map.mp ho
  exact ⟨hp, hq⟩

theorem mem_of_dereference {e f : Declared} (h : dereference d e = .ok f) :
    f.node = e.node ∨ ∃ name, (name, f.node) ∈ d.parameters := by
  unfold dereference at h
  split at h
  · cases h
    exact .inl rfl
  · split at h
    · split at h
      · rename_i hs
        split at h
        · cases h
          exact .inr ⟨_, Fields.mem_of_get? hs⟩
        · cases h
      · cases h
    · cases h

theorem all_of_values {p : Schema → Bool} {e : Declared} (h : e.node.all p = true)
    (hv : e.Values s pointer) : s.all p = true := by
  rw [ParameterNode.all, Bool.and_eq_true] at h
  rcases hv.cases with ⟨hs, rfl⟩ | ⟨rfl, rfl⟩
  · simpa [hs] using h.2
  · exact h.1

theorem all_of_stands {p : Schema → Bool} (h : d.all p = true) (hs : d.Stands pointer s) :
    s.all p = true := by
  simp only [all, Bool.and_eq_true, List.all_eq_true] at h
  obtain ⟨⟨hdefinitions, hshared⟩, hpaths⟩ := h
  induction hs with
  | root hr =>
    obtain ⟨o, ho, hr⟩ := hr
    obtain ⟨hpath, hnode⟩ := mem_operationsOf ho
    obtain ⟨hitem, hoperations⟩ := hpaths _ hpath
    obtain ⟨hparameters, hresponses⟩ := hoperations _ hnode
    rcases hr with ⟨e, he, f, hf, hv⟩ | ⟨status, node, hm, hschema, -⟩
    · refine all_of_values ?_ hv
      rcases mem_of_dereference hf with hn | ⟨name, hn⟩
      · rw [hn]
        rcases List.mem_append.mp he with he | he
        · obtain ⟨q, hq, rfl⟩ := List.mem_map.mp he
          exact hitem _ (List.fst_mem_of_mem_zipIdx hq)
        · obtain ⟨q, hq, rfl⟩ := List.mem_map.mp he
          exact hparameters _ (List.fst_mem_of_mem_zipIdx hq)
      · exact hshared _ hn
    · simpa [hschema] using hresponses _ hm
  | definition hd => exact hdefinitions _ (Fields.mem_of_get? hd)
  | items _ hi ih => exact Schema.all_of_mem_inner ih (Schema.items_mem_inner "" hi)
  | value _ hv ih => exact Schema.all_of_mem_inner ih (Schema.value_mem_inner "" hv)
  | property _ hm ih =>
    exact Schema.all_of_mem_inner ih (Schema.property_mem_inner "" hm)
  | part _ hp ih =>
    exact Schema.all_of_mem_inner ih
      (Schema.part_mem_inner "" (List.fst_mem_of_mem_zipIdx hp))

theorem NamesOnce.nodup_properties (hn : d.NamesOnce) (h : d.Stands pointer s) :
    (Fields.keys s.properties).Nodup := by
  simpa using Schema.of_all (all_of_stands hn.properties h)

/-- A place where a schema stands that is no part of another one. -/
inductive IsRoot (d : Document) : Pointer → Schema → Prop where
  | definition {name : String} {s : Schema} (h : Fields.get? d.definitions name = some s) :
      IsRoot d (Pointer.definition name) s
  | operation {pointer : Pointer} {s : Schema} (h : operationRoots d pointer s) :
      IsRoot d pointer s

theorem exists_root (hn : d.NamesOnce) (h : d.Stands pointer s) : ∃ root r path,
    d.IsRoot root r ∧ pointer.segments = root.segments ++ path ∧ r.at? path = some s := by
  induction h with
  | root h => exact ⟨_, _, [], .operation h, by simp, rfl⟩
  | definition h => exact ⟨_, _, [], .definition h, by simp, rfl⟩
  | items _ hi ih =>
    obtain ⟨root, r, path, hr, hp, hs⟩ := ih
    refine ⟨root, r, path ++ ["items"], hr, by simp [hp], ?_⟩
    simp [Schema.at?_append hs, Schema.at?, hi]
  | value _ hv ih =>
    obtain ⟨root, r, path, hr, hp, hs⟩ := ih
    refine ⟨root, r, path ++ ["additionalProperties"], hr, by simp [hp], ?_⟩
    simp [Schema.at?_append hs, Schema.at?, hv]
  | @property p _ _ name h hm ih =>
    obtain ⟨root, r, path, hr, hp, hs⟩ := ih
    refine ⟨root, r, path ++ ["properties", name], hr, by simp [hp], ?_⟩
    simp [Schema.at?_append hs, Schema.at?, Fields.get?_of_mem (hn.nodup_properties h) hm]
  | @part p _ _ i _ hi ih =>
    obtain ⟨root, r, path, hr, hp, hs⟩ := ih
    refine ⟨root, r, path ++ ["allOf", toString i], hr, by simp [hp, Pointer.item], ?_⟩
    rw [Schema.at?_append hs, Schema.at?, itemAt?_of_mem hi]
    rfl

theorem operation?_of_mem {item : PathItem} {m : HttpMethod} {node : OperationNode}
    (h : (m, node) ∈ item.operations) : item.operation? m = some node := by
  obtain ⟨m', -, hm⟩ := List.mem_filterMap.mp h
  obtain ⟨node', hnode, heq⟩ := Option.map_eq_some_iff.mp hm
  cases heq
  exact hnode

theorem find?_method (m : HttpMethod) : HttpMethod.all.find? (·.name == m.name) = some m := by
  cases m <;> rfl

theorem dereference_ok {e f : Declared} (h : dereference d e = .ok f) :
    f.pointer = e.pointer ∧ ∀ q, dereference d ⟨e.node, q⟩ = .ok ⟨f.node, q⟩ := by
  unfold dereference at h ⊢
  dsimp only
  cases hr : e.node.reference with
  | none =>
    rw [hr] at h
    cases h
    exact ⟨rfl, fun _ => rfl⟩
  | some text =>
    rw [hr] at h
    dsimp only at h ⊢
    split at h
    · split at h
      · split at h
        · rename_i hs
          cases h
          exact ⟨rfl, fun _ => by simp only [hs, if_true]⟩
        · cases h
      · cases h
    · cases h

theorem parameterAt?_of_mem {nodes : List ParameterNode} {place : Pointer} {e f : Declared}
    (he : e ∈ listedAt place nodes) (hf : dereference d e = .ok f) :
    ∃ index, f.pointer = (place.child "parameters").child index ∧
      d.parameterAt? nodes index = some f.node := by
  obtain ⟨⟨node, i⟩, hi, rfl⟩ := List.mem_map.mp he
  obtain ⟨hp, hd⟩ := dereference_ok hf
  refine ⟨toString i, hp, ?_⟩
  rw [parameterAt?, itemAt?_of_mem hi]
  simp [hd, Except.toOption]

theorem schemaAt?_of_values {e : Declared} (h : e.Values s pointer) {path : List String}
    (ht : s.at? path = some t) : ∃ rest, pointer.segments ++ path = e.pointer.segments ++ rest ∧
      e.node.schemaAt? rest = some t := by
  rcases h.cases with ⟨hs, rfl⟩ | ⟨rfl, rfl⟩
  · refine ⟨"schema" :: path, by simp, ?_⟩
    simp [ParameterNode.schemaAt?, hs, ht]
  · refine ⟨path, rfl, ?_⟩
    unfold ParameterNode.schemaAt?
    split
    · simp [Schema.at?] at ht
    · exact ht

theorem schemaAt?_of_isRoot (hn : d.NamesOnce) (h : d.IsRoot pointer s) {path : List String}
    (ht : s.at? path = some t) : d.schemaAt? (pointer.segments ++ path) = some t := by
  cases h with
  | definition h => simp [Pointer.definition, schemaAt?, h, ht]
  | operation h =>
    obtain ⟨o, ho, h⟩ := h
    obtain ⟨hmem, hnode⟩ := mem_operationsOf ho
    have hpath := Fields.get?_of_mem hn.paths hmem
    have hmethod : ∀ rest, d.schemaAt? ("paths" :: o.path :: o.method.name :: rest) =
        d.operationSchemaAt? o.node rest := fun rest => by
      have hne : o.method.name ≠ "parameters" := by cases o.method <;> decide
      simp only [schemaAt?, hpath, Option.bind_some]
      rw [pathSchemaAt?]
      · simp [find?_method, operation?_of_mem hnode]
      · exact fun _ _ h _ => hne h
    rcases h with ⟨e, he, f, hf, hv⟩ | ⟨status, node, hm, hs, rfl⟩
    · obtain ⟨rest, hrest, ht⟩ := schemaAt?_of_values hv ht
      rw [hrest]
      rcases List.mem_append.mp he with he | he
      · obtain ⟨index, hp, hi⟩ := parameterAt?_of_mem he hf
        simp [hp, Pointer.path, schemaAt?, hpath, pathSchemaAt?, hi, ht]
      · obtain ⟨index, hp, hi⟩ := parameterAt?_of_mem he hf
        have := hmethod ("parameters" :: index :: rest)
        simpa [hp, Operation.pointer, Pointer.path, this, operationSchemaAt?, hi] using ht
    · have := hmethod ("responses" :: status :: "schema" :: path)
      have hget := Fields.get?_of_mem (hn.responses _ hmem _ hnode) hm
      simpa [bodyPointer, Operation.pointer, Pointer.path, this, operationSchemaAt?, hget, hs]
        using ht

/-- A pointer leads back to the schema that stands there. -/
theorem schemaAt?_of_stands (hn : d.NamesOnce) (h : d.Stands pointer s) :
    d.schemaAt? pointer.segments = some s := by
  obtain ⟨root, r, path, hr, hp, hs⟩ := exists_root hn h
  rw [hp]
  exact schemaAt?_of_isRoot hn hr hs

/-- The text of a pointer stands for one schema. -/
theorem stands_unique (hn : d.NamesOnce) {other : Pointer} (h : d.Stands pointer s)
    (h' : d.Stands other t) (ho : pointer.text = other.text) : s = t := by
  obtain rfl := Pointer.text_injective ho
  exact Option.some.inj ((schemaAt?_of_stands hn h).symm.trans (schemaAt?_of_stands hn h'))

end Document

end ApiModel
