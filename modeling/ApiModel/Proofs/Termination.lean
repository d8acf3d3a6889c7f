import ApiModel.Proofs.Alike
import ApiModel.Proofs.Nesting
import ApiModel.Proofs.Route
import ApiModel.Proofs.Steps
import Mathlib.Tactic.Linarith
import Mathlib.Tactic.Ring

/-! # Resolution ends

A resolution nests by going into a schema below the one at hand, into a definition that is not
being resolved since the last object type was entered, or into an object type of a new name. Each
lowers a rank made of the names and definitions that are left and of the size of the schema.
-/

namespace ApiModel.Resolution

open Text (caseKey)

/-- The names that object types may take in a resolution, and a bound for its schemas. -/
structure Extent where
  names : List String
  size : Nat

variable {e : Extent} {context : Context} {document : Document} {n : Nat} {r r' : Resolver}
  {s t u : State}

namespace Extent

def Covers (e : Extent) (name : String) (s : Schema) : Prop :=
  s.typeNames name ⊆ e.names ∧ s.size < e.size

theorem Covers.inner {name : String} {s : Schema} {c : String × Schema} (h : e.Covers name s)
    (hc : c ∈ s.inner name) : e.Covers c.1 c.2 :=
  ⟨fun _ hn => h.1 (Schema.typeNames_subset hc hn), (Schema.size_lt_of_mem_inner hc).trans h.2⟩

theorem Covers.member {name : String} {s : Schema} {pointer : Pointer} {m : Member}
    (h : e.Covers name s) (hm : m ∈ s.declaredMembers pointer) :
    e.Covers (Naming.nested name m.name) m.schema := by
  rcases Schema.member_inner name hm with hm | ⟨part, hp, hm⟩
  · exact h.inner hm
  · exact (h.inner hp).inner hm

def Fits (e : Extent) (document : Document) : Prop :=
  ∀ p ∈ document.definitions, e.Covers p.1 p.2

end Extent

/-- The definitions that are being resolved since the last object type was entered. -/
def recent (frames : List Frame) : List Frame := frames.takeWhile (· != .composite)

def namesLeft (e : Extent) (s : State) : Nat :=
  e.names.countP fun name => (s.catalog.findComposite? name).isNone

def definitionsLeft (document : Document) (frames : List Frame) : Nat :=
  document.definitions.countP fun p => !(recent frames).contains (.definition (caseKey p.1))

def rank (e : Extent) (document : Document) (s : State) (size : Nat) : Nat :=
  (namesLeft e s * (document.definitions.length + 1) + definitionsLeft document s.frames) *
    e.size + size

structure Keeps (s t : State) : Prop where
  frames : t.frames = s.frames
  names : ∀ name, (s.catalog.findComposite? name).isSome → (t.catalog.findComposite? name).isSome

namespace Keeps

theorem refl (s : State) : Keeps s s := ⟨rfl, fun _ h => h⟩

theorem trans (h : Keeps s t) (h' : Keeps t u) : Keeps s u :=
  ⟨h'.frames.trans h.frames, fun name hn => h'.names name (h.names name hn)⟩

theorem of_notes (h : Notes s t) : Keeps s t :=
  ⟨h.frames_eq, fun _ hn => h.catalog_eq.symm ▸ hn⟩

end Keeps

theorem countP_lt_countP {α : Type} {p q : α → Bool} {l : List α} {a : α} (ha : a ∈ l)
    (hp : p a = false) (hq : q a = true) (h : ∀ x ∈ l, p x = true → q x = true) :
    l.countP p < l.countP q := by
  obtain ⟨before, after, rfl⟩ := List.append_of_mem ha
  have h₁ := List.countP_mono_left fun x hx => h x (List.mem_append_left _ hx)
  have h₂ := List.countP_mono_left fun x hx =>
    h x (List.mem_append_right _ (List.mem_cons_of_mem a hx))
  simp only [List.countP_append, List.countP_cons, hp, hq, if_true]
  simp only [Bool.false_eq_true, if_false]
  omega

theorem namesLeft_le (h : Keeps s t) : namesLeft e t ≤ namesLeft e s := by
  refine List.countP_mono_left fun name _ hn => ?_
  cases hs : s.catalog.findComposite? name with
  | none => rfl
  | some id =>
    have := h.names name (by simp [hs])
    simp_all

theorem definitionsLeft_le (document : Document) (frames : List Frame) :
    definitionsLeft document frames ≤ document.definitions.length := List.countP_le_length ..

/-- What is left of an extent before an object type is entered there. -/
def room (e : Extent) (document : Document) (s : State) : Nat :=
  (namesLeft e s + 1) * ((document.definitions.length + 1) * e.size)

theorem rank_le_of_size_lt {document : Document} {s : State} {size larger : Nat}
    (h : size < larger) (hrank : rank e document s larger ≤ n + 1) :
    rank e document s size ≤ n := by
  unfold rank at hrank ⊢
  omega

theorem rank_lt_room (document : Document) (s : State) {size : Nat} (h : size < e.size) :
    rank e document s size < room e document s := by
  have hd := definitionsLeft_le document s.frames
  unfold rank room
  calc _ < (namesLeft e s * (document.definitions.length + 1) +
        definitionsLeft document s.frames) * e.size + e.size := by omega
    _ ≤ (namesLeft e s * (document.definitions.length + 1) +
        document.definitions.length) * e.size + e.size := by gcongr
    _ = _ := by ring

theorem room_mono (h : Keeps s t) : room e document t ≤ room e document s :=
  Nat.mul_le_mul_right _ (Nat.succ_le_succ (namesLeft_le h))

/-- Calls of at most a rank; they leave frames and taken names as they are. -/
def ranked (e : Extent) (document : Document) (n : Nat) : Contract where
  guard := Always
  requires site s :=
    e.Covers site.name site.schema ∧ rank e document s site.schema.size ≤ n
  ensures _ s _ t := Keeps s t

theorem call_within (hr : (ranked e document n).Joins r r') (hroom : room e document s ≤ n + 1)
    (hs : Keeps s t) {site : Site} (hc : e.Covers site.name site.schema) :
    Alike Always (r site) (r' site) t fun _ u => Keeps s u := by
  have hrank := (rank_lt_room document t hc.2).trans_le (room_mono hs)
  exact (hr site t ⟨hc, by omega⟩).mono fun _ u hu => hs.trans hu

theorem resolveBase_ends (hr : (ranked e document n).Joins r r')
    (hroom : room e document s ≤ n + 1) {name : String} {parts : List BasePart}
    (hc : ∀ part ∈ parts, e.Covers name part.schema) :
    Alike Always (resolveBase r name parts) (resolveBase r' name parts) s fun _ t => Keeps s t := by
  cases parts with
  | nil => exact .pure (.refl s)
  | cons part others =>
    refine .bind ((call_within hr hroom (.refl s) (hc part (by simp))).mono fun type t ht => ?_)
    refine .lift_bind Always.back (.lift_bind Always.back (.pure ?_))
    exact (ht.trans (.of_notes (baseOf_notes ..))).trans (.of_notes (reportSecondBases_notes ..))

theorem resolveMember_ends (hr : (ranked e context.document n).Joins r r')
    (hroom : room e context.document s ≤ n + 1) (hs : Keeps s t) {owner : String}
    {required : List String} {m : Member} (hc : e.Covers (Naming.nested owner m.name) m.schema) :
    Alike Always (resolveMember context r owner required m)
      (resolveMember context r' owner required m) t fun _ u => Keeps s u := by
  refine .bind ((call_within hr hroom hs hc).mono fun type u hu => ?_)
  cases type with
  | none => exact .pure hu
  | some type =>
    refine .lift_bind Always.back ?_
    have hk := hu.trans (.of_notes (constraints_notes context.grammars m.schema.facets m.pointer owner u))
    cases (constraints context.grammars m.schema.facets m.pointer owner u).1 with
    | none => exact .pure hk
    | some c => exact .pure hk

theorem resolveMembers_ends (hr : (ranked e context.document n).Joins r r')
    (hroom : room e context.document s ≤ n + 1) {owner : String} {required : List String}
    {members : List Member} (hs : Keeps s t)
    (hc : ∀ m ∈ members, e.Covers (Naming.nested owner m.name) m.schema) :
    Alike Always (resolveMembers context r owner required members)
      (resolveMembers context r' owner required members) t fun _ u => Keeps s u := by
  refine Alike.foldlM (fun _ _ u => Keeps s u) (fun before m after b u hl hu => ?_) hs
  refine .bind ((resolveMember_ends hr hroom hu (hc m (by simp [hl]))).mono fun p v hv => ?_)
  cases p with
  | none => exact .pure hv
  | some p => exact .lift Always.back (hv.trans (.of_notes (addProperty_notes ..)))

theorem populate_ends (hr : (ranked e context.document n).Joins r r')
    (hroom : room e context.document s ≤ n + 1) {id : CompositeId} {schema : Schema}
    (hc : e.Covers (s.catalog.nameOf id) schema) (pointer : Pointer) :
    Alike Always (populate context r id schema pointer) (populate context r' id schema pointer) s
      fun _ t => Keeps s t := by
  let inside : State := (push .composite s).2
  have hbase : ∀ part ∈ schema.baseParts pointer,
      e.Covers (s.catalog.nameOf id) part.schema := fun part hp =>
    hc.inner (Schema.base_mem_inner _ hp)
  refine .lift_bind Always.back (.get_bind (.bind ?_))
  refine (resolveBase_ends (s := inside) hr hroom hbase).mono fun base t ht => .bind ?_
  refine (resolveMembers_ends (s := inside) hr hroom ht fun m hm => hc.member hm).mono
    fun properties u hu => ?_
  refine .lift_bind Always.back (.lift_bind Always.back
    (.modify_bind Always.back (.lift Always.back ?_)))
  have hk : Keeps inside _ := (hu.trans (.of_notes (warnUndeclared_notes (s.catalog.nameOf id)
    (schema.declaredMembers pointer) (schema.declaredRequired pointer) u))).trans
    (.of_notes (discriminatorValue_notes context.settings (s.catalog.nameOf id) schema _))
  exact ⟨congrArg List.tail hk.frames, hk.names⟩

theorem withStub_keeps {name : String} (pointer : Pointer)
    (h : s.catalog.findComposite? name = none) (hn : name ∈ e.names) :
    Keeps s (s.withStub name pointer) ∧ namesLeft e (s.withStub name pointer) < namesLeft e s := by
  have hfind : ∀ other, (s.withStub name pointer).catalog.findComposite? other =
      (s.catalog.findComposite? other).or _ :=
    fun other => Catalog.findComposite?_addComposite s.catalog name other _
  have hk : Keeps s (s.withStub name pointer) := ⟨rfl, fun other ho => by simp [hfind, ho]⟩
  refine ⟨hk, countP_lt_countP hn (by simp [hfind]) (by simp [h]) fun other _ ho => ?_⟩
  simp_all

theorem nameOf_withStub (name : String) (pointer : Pointer) (s : State) :
    (s.withStub name pointer).catalog.nameOf ⟨s.catalog.composites.length⟩ = name := by
  simp only [Catalog.nameOf, State.withStub, Catalog.composite?_addComposite_self]
  rfl

theorem room_withStub {name : String} {schema : Schema} (pointer : Pointer)
    (h : s.catalog.findComposite? name = none) (hc : e.Covers name schema)
    (hrank : rank e document s 0 ≤ n + 1) :
    room e document (s.withStub name pointer) ≤ n + 1 := by
  have hlt := (withStub_keeps pointer h (hc.1 (Schema.self_mem_typeNames name schema))).2
  unfold room
  calc _ ≤ namesLeft e s * ((document.definitions.length + 1) * e.size) :=
        Nat.mul_le_mul_right _ hlt
    _ = namesLeft e s * (document.definitions.length + 1) * e.size := by ring
    _ ≤ (namesLeft e s * (document.definitions.length + 1) +
        definitionsLeft document s.frames) * e.size :=
        Nat.mul_le_mul_right _ (Nat.le_add_right _ _)
    _ ≤ n + 1 := hrank

theorem populate_withStub_ends (hr : (ranked e context.document n).Joins r r') {name : String}
    {schema : Schema} {pointer : Pointer} (h : s.catalog.findComposite? name = none)
    (hc : e.Covers name schema) (hrank : rank e context.document s 0 ≤ n + 1)
    (hs : Keeps (s.withStub name pointer) t)
    (ht : t.catalog = (s.withStub name pointer).catalog) :
    Alike Always (populate context r ⟨s.catalog.composites.length⟩ schema pointer)
      (populate context r' ⟨s.catalog.composites.length⟩ schema pointer) t
      fun _ u => Keeps s u := by
  have hk := (withStub_keeps pointer h (hc.1 (Schema.self_mem_typeNames name schema))).1.trans hs
  refine (populate_ends hr ((room_mono hs).trans (room_withStub pointer h hc hrank)) ?_
    pointer).mono fun _ u hu => hk.trans hu
  rw [ht, nameOf_withStub]
  exact hc

theorem buildInline_ends (hr : (ranked e context.document n).Joins r r') {site : Site}
    (hc : e.Covers site.name site.schema)
    (hrank : rank e context.document s 0 ≤ n + 1) :
    Alike Always (buildInline context r site) (buildInline context r' site) s
      fun _ t => Keeps s t := by
  refine .lift_bind Always.back ?_
  obtain ⟨hf, hreg⟩ | ⟨id, -, -, hreg⟩ | ⟨d, hreg⟩ :=
    registerComposite_cases site.name site.pointer s
  · rw [hreg]
    exact .bind ((populate_withStub_ends hr hf hc hrank (.refl _) rfl).mono
      fun _ u hu => .pure hu)
  · rw [hreg]
    exact .pure (.refl s)
  · rw [hreg]
    exact .pure (.of_notes (fail_notes d s))

theorem buildDefined_ends (hr : (ranked e context.document n).Joins r r') {name : String}
    {schema : Schema} (hc : e.Covers name schema)
    (hrank : rank e context.document s 0 ≤ n + 1) :
    Alike Always (buildDefined context r name schema) (buildDefined context r' name schema) s
      fun _ t => Keeps s t := by
  refine .lift_bind Always.back ?_
  obtain ⟨hf, hreg⟩ | ⟨id, -, -, hreg⟩ | ⟨d, hreg⟩ :=
    registerComposite_cases name (Pointer.definition name) s
  · rw [hreg]
    have hp := populate_withStub_ends (t := (remember (caseKey name)
      (.composite ⟨s.catalog.composites.length⟩) (s.withStub name (Pointer.definition name))).2)
      hr hf hc hrank ⟨rfl, fun _ h => h⟩ rfl
    exact .lift_bind Always.back (.bind (hp.mono fun _ u hu => .pure hu))
  · rw [hreg]
    exact .lift_bind Always.back (.pure ⟨rfl, fun _ h => h⟩)
  · rw [hreg]
    exact .lift_bind Always.back (.pure ⟨rfl, fun _ h => h⟩)

theorem not_mem_recent {frames : List Frame} {key : String} (h : comesRound frames key = false) :
    Frame.definition key ∉ recent frames := by
  induction frames with
  | nil => simp [recent]
  | cons f rest ih =>
    cases f with
    | composite => simp [recent]
    | definition k =>
      by_cases hk : k = key
      · subst hk
        simp [comesRound] at h
      · have hne : Frame.definition key ≠ Frame.definition k := by simpa using Ne.symm hk
        have hr : comesRound rest key = false := by
          simpa [comesRound, hk, Ne.symm hk] using h
        simpa [recent, hk, hne, Ne.symm hk] using ih hr

theorem definitionsLeft_push {frames : List Frame} {name : String} {schema : Schema}
    (hm : (name, schema) ∈ document.definitions) (h : comesRound frames (caseKey name) = false) :
    definitionsLeft document (.definition (caseKey name) :: frames) <
      definitionsLeft document frames := by
  have hr : recent (.definition (caseKey name) :: frames) =
      .definition (caseKey name) :: recent frames := rfl
  refine countP_lt_countP hm (by simp [hr]) (by simpa using not_mem_recent h) fun p _ hp => ?_
  simp_all

theorem rank_push {name : String} {schema : Schema}
    (hm : (name, schema) ∈ document.definitions) (h : comesRound s.frames (caseKey name) = false)
    (hsize : schema.size < e.size) :
    rank e document (push (.definition (caseKey name)) s).2 schema.size < rank e document s 0 := by
  have hd := definitionsLeft_push hm h
  have hn : namesLeft e (push (.definition (caseKey name)) s).2 = namesLeft e s := rfl
  unfold rank
  rw [hn]
  calc _ < (namesLeft e s * (document.definitions.length + 1) +
        definitionsLeft document (.definition (caseKey name) :: s.frames)) * e.size + e.size :=
        Nat.add_lt_add_left hsize _
    _ = (namesLeft e s * (document.definitions.length + 1) +
        (definitionsLeft document (.definition (caseKey name) :: s.frames) + 1)) * e.size := by
        ring
    _ ≤ _ := Nat.mul_le_mul_right _ (Nat.add_le_add_left hd _)

theorem buildAliased_ends (hr : (ranked e document n).Joins r r') {name : String}
    {schema : Schema} (hm : (name, schema) ∈ document.definitions) (hc : e.Covers name schema)
    (hrank : rank e document s 0 ≤ n) :
    Alike Always (buildAliased r name schema) (buildAliased r' name schema) s
      fun _ t => Keeps s t := by
  refine .get_bind ?_
  cases h : comesRound s.frames (caseKey name) with
  | true => exact .lift_bind Always.back (.lift Always.back ⟨rfl, fun _ h => h⟩)
  | false =>
    have hle : rank e document (push (.definition (caseKey name)) s).2 schema.size ≤ n :=
      (rank_push hm h hc.2).le.trans hrank
    refine .lift_bind Always.back (.bind ((hr ⟨schema, name, Pointer.definition name, name⟩ _
      ⟨hc, hle⟩).mono fun type t ht => .lift_bind Always.back ?_))
    have hk : Keeps s (pop t).2 := ⟨congrArg List.tail ht.frames, ht.names⟩
    cases type with
    | none => exact .lift_bind Always.back (.pure ⟨hk.frames, hk.names⟩)
    | some type => exact .lift_bind Always.back (.pure ⟨hk.frames, hk.names⟩)

theorem definition?_mem {name canonical : String} {schema : Schema}
    (h : document.definition? name = some (canonical, schema)) :
    (canonical, schema) ∈ document.definitions := by
  unfold Document.definition? at h
  cases hg : Fields.get? document.definitions name with
  | none => rw [hg] at h; exact List.mem_of_find?_eq_some h
  | some found =>
    rw [hg] at h
    exact Option.some.inj h ▸ Fields.mem_of_get? hg

theorem resolveClaimed_ends (hr : (ranked e context.document n).Joins r r') {name : String}
    {schema : Schema} (hm : (name, schema) ∈ context.document.definitions)
    (hc : e.Covers name schema) (hrank : rank e context.document s 0 ≤ n) :
    Alike Always (resolveClaimed context r name schema) (resolveClaimed context r' name schema) s
      fun _ t => Keeps s t := by
  refine .get_bind ?_
  dsimp only
  cases Fields.get? s.resolved (caseKey name) with
  | some type => exact .pure (.refl s)
  | none =>
    dsimp only
    split_ifs
    · exact .pure (.refl s)
    · exact buildDefined_ends hr hc (hrank.trans n.le_succ)
    · exact buildAliased_ends hr hm hc hrank

theorem resolveDefinition_ends (hr : (ranked e context.document n).Joins r r')
    (he : e.Fits context.document) (hrank : rank e context.document s 0 ≤ n) (name : String)
    (pointer : Pointer) (owner : String) :
    Alike Always (resolveDefinition context r name pointer owner)
      (resolveDefinition context r' name pointer owner) s fun _ t => Keeps s t := by
  unfold resolveDefinition
  cases hd : context.document.definition? name with
  | none =>
    dsimp only
    split_ifs
    · exact .pure (.refl s)
    · exact .lift Always.back (.of_notes (fail_notes _ s))
  | some found =>
    obtain ⟨canonical, schema⟩ := found
    have hm := definition?_mem hd
    refine .lift_bind Always.back ?_
    obtain ⟨-, hk⟩ | ⟨-, hk⟩ | ⟨d, hk⟩ := claimKey_cases canonical s
    · rw [hk]
      exact (resolveClaimed_ends (s := (claim (caseKey canonical) canonical s).2) hr hm (he _ hm)
        hrank).mono fun _ _ hu => ⟨hu.frames, hu.names⟩
    · rw [hk]
      exact resolveClaimed_ends hr hm (he _ hm) hrank
    · rw [hk]
      exact .pure (.of_notes (.report d s))

theorem resolveReference_ends (hr : (ranked e context.document n).Joins r r')
    (he : e.Fits context.document) (hrank : rank e context.document s 0 ≤ n) (text : String)
    (site : Site) :
    Alike Always (resolveReference context r text site) (resolveReference context r' text site) s
      fun _ t => Keeps s t := by
  unfold resolveReference
  split
  · exact resolveDefinition_ends hr he hrank _ _ _
  · exact .lift Always.back (.of_notes (fail_notes _ s))

theorem buildSequence_ends (hr : (ranked e document n).Joins r r') {site : Site}
    (hc : e.Covers site.name site.schema) (hrank : rank e document s site.schema.size ≤ n + 1) :
    Alike Always (buildSequence r site) (buildSequence r' site) s fun _ t => Keeps s t := by
  unfold buildSequence
  cases hi : site.schema.items with
  | none => exact .lift Always.back (.of_notes (fail_notes _ s))
  | some items =>
    have hm := Schema.items_mem_inner site.name hi
    have hle := rank_le_of_size_lt (Schema.size_lt_of_mem_inner hm) hrank
    exact .bind ((hr _ s ⟨hc.inner hm, hle⟩).mono fun type t ht => .pure ht)

theorem buildDictionary_ends (hr : (ranked e document n).Joins r r') {site : Site}
    {value : Option Schema} (hv : site.schema.dictionary? = some value)
    (hc : e.Covers site.name site.schema) (hrank : rank e document s site.schema.size ≤ n + 1) :
    Alike Always (buildDictionary r site value) (buildDictionary r' site value) s
      fun _ t => Keeps s t := by
  cases value with
  | none => exact .pure (.refl s)
  | some value =>
    have hm := Schema.value_mem_inner site.name hv
    have hle := rank_le_of_size_lt (Schema.size_lt_of_mem_inner hm) hrank
    exact .bind ((hr _ s ⟨hc.inner hm, hle⟩).mono fun type t ht => .pure ht)

theorem buildEnum_keeps (settings : Settings) (site : Site) (listed : List Json) (s : State) :
    Keeps s (buildEnum settings site listed s).2 := by
  obtain ⟨d, hb⟩ | ⟨values, -, ⟨-, hb⟩ | ⟨x, -, ⟨-, hb⟩ | ⟨id, -, -, hb⟩⟩⟩ :=
    buildEnum_cases settings site listed s
  · rw [hb]; exact .of_notes (fail_notes d s)
  all_goals rw [hb]; exact ⟨rfl, fun _ h => h⟩

theorem resolveStep_ends (he : e.Fits context.document)
    (hr : (ranked e context.document n).Joins r r') :
    (ranked e context.document (n + 1)).Joins (resolveStep context r) (resolveStep context r') := by
  rintro site s ⟨hc, hrank⟩
  have hlevel : rank e context.document s 0 ≤ n := rank_le_of_size_lt site.schema.size_pos hrank
  show Alike Always _ _ s fun _ t => Keeps s t
  unfold resolveStep
  cases hroute : site.schema.route with
  | reference text => exact resolveReference_ends hr he hlevel text site
  | enumeration listed => exact .lift Always.back (buildEnum_keeps ..)
  | malformed value => exact .lift Always.back (.of_notes (fail_notes _ s))
  | array clash =>
    cases clash with
    | true => exact .lift_bind Always.back ((buildSequence_ends (s := (report _ s).2) hr hc
        hrank).mono fun _ _ hu => (Keeps.of_notes (.report _ s)).trans hu)
    | false => exact buildSequence_ends hr hc hrank
  | dictionary value =>
    exact buildDictionary_ends hr (Schema.dictionary_of_route hroute).2.2 hc hrank
  | composite => exact buildInline_ends hr hc (hlevel.trans n.le_succ)
  | scalar => exact .lift Always.back (.of_notes (buildScalar_notes ..))

/-- With fuel for its rank a call ends alike whatever is done with calls that nest deeper. -/
theorem iterate_ends (he : e.Fits context.document) (base base' : Resolver) {k k' : Nat}
    (hk : n ≤ k) (hk' : n ≤ k') : (ranked e context.document n).Joins (iterate context base k)
      (iterate context base' k') := by
  induction n generalizing k k' with
  | zero =>
    -- Every schema has a size, so none has rank zero.
    rintro site s ⟨-, hrank⟩
    have hpos := site.schema.size_pos
    unfold rank at hrank
    omega
  | succ n ih =>
    obtain ⟨k, rfl⟩ := Nat.exists_eq_add_of_le' hk
    obtain ⟨k', rfl⟩ := Nat.exists_eq_add_of_le' hk'
    exact resolveStep_ends he (ih (Nat.le_add_left ..) (Nat.le_add_left ..))

def extentOf (document : Document) (name : String) (s : Schema) : Extent where
  names := (document.definitions.flatMap fun p => p.2.typeNames p.1) ++ s.typeNames name
  size := Schema.propertySize document.definitions + s.size + 1

theorem size_le_propertySize {definitions : List (String × Schema)} {p : String × Schema}
    (h : p ∈ definitions) : p.2.size ≤ Schema.propertySize definitions := by
  rw [Schema.propertySize_eq_sum]
  exact List.single_le_sum (by simp) _ (List.mem_map.mpr ⟨p, h, rfl⟩)

theorem extentOf_fits (document : Document) (name : String) (s : Schema) :
    (extentOf document name s).Fits document := by
  intro p hp
  refine ⟨fun n hn => List.mem_append_left _ (List.mem_flatMap.mpr ⟨p, hp, hn⟩), ?_⟩
  have := size_le_propertySize hp
  simp only [extentOf]
  omega

theorem extentOf_covers (document : Document) (name : String) (s : Schema) :
    (extentOf document name s).Covers name s :=
  ⟨List.subset_append_right .., by simp only [extentOf]; omega⟩

theorem length_le_propertySize (definitions : List (String × Schema)) :
    definitions.length ≤ Schema.propertySize definitions := by
  induction definitions with
  | nil => exact Nat.zero_le _
  | cons p rest ih =>
    have := p.2.size_pos
    simp only [List.length_cons, Schema.propertySize]
    omega

theorem length_names_extentOf (document : Document) (name : String) (s : Schema) :
    (extentOf document name s).names.length =
      Schema.propertySize document.definitions + s.size := by
  simp only [extentOf, List.length_append, List.length_flatMap, Schema.length_typeNames,
    Schema.propertySize_eq_sum]

theorem room_le_fuelFor (document : Document) (name : String) (schema : Schema) (s : State) :
    room (extentOf document name schema) document s ≤ fuelFor document schema := by
  have hn : namesLeft (extentOf document name schema) s ≤
      Schema.propertySize document.definitions + schema.size :=
    List.countP_le_length.trans_eq (length_names_extentOf document name schema)
  have hd := length_le_propertySize document.definitions
  set p := Schema.propertySize document.definitions
  show _ ≤ (p + schema.size + 2) ^ 3
  calc _ ≤ (p + schema.size + 2) * ((p + schema.size + 2) * (p + schema.size + 2)) := by
        refine Nat.mul_le_mul (by omega) (Nat.mul_le_mul (by omega) ?_)
        show p + schema.size + 1 ≤ _
        omega
    _ = _ := by ring

/-- The fuel lasts for a schema from any state. -/
theorem rank_le_fuelFor (document : Document) (site : Site) (s : State) :
    rank (extentOf document site.name site.schema) document s site.schema.size ≤
      fuelFor document site.schema :=
  (rank_lt_room document s (extentOf_covers document site.name site.schema).2).le.trans
    (room_le_fuelFor document site.name site.schema s)

theorem resolveSite_ends (context : Context) (site : Site) (s : State) {fuel : Nat}
    (hf : fuelFor context.document site.schema ≤ fuel) :
    Alike Always (resolveSite context site) (resolve context fuel site) s fun _ t => Keeps s t := by
  unfold resolveSite
  rw [resolve_eq_iterate, resolve_eq_iterate]
  exact iterate_ends (extentOf_fits context.document site.name site.schema) _ _ le_rfl hf site s
    ⟨extentOf_covers .., rank_le_fuelFor ..⟩

end ApiModel.Resolution
