import ApiModel.Proofs.Catalog
import Mathlib.Data.List.Infix

/-! # Histories of registrations

All that a catalog answers follows from the calls it has seen since it was empty. A name finds what
the first registration under it has created, whatever is stored stays as it is, and the indices are
given out in the order of the calls.
-/

namespace ApiModel

open Text (caseKey)

inductive Registration where
  /-- What is made is stored if the name is new. -/
  | composite (name : String) (made : Composite)
  | enum (e : EnumType)
  /-- The enum may have a name, but is not found by it. -/
  | anonymous (e : EnumType)

inductive Answer where
  | composite (interned : Interned CompositeId)
  | enum (interned : Interned EnumId)
  | refused (conflict : EnumConflict)

def Registration.compositeKey? : Registration → Option String
  | composite name _ => some (caseKey name)
  | _ => none

def Registration.enumKey? : Registration → Option String
  | enum e => e.name.map caseKey
  | _ => none

def Answer.newComposite? : Answer → Option CompositeId
  | composite ⟨id, true⟩ => some id
  | _ => none

def Answer.newEnum? : Answer → Option EnumId
  | enum ⟨id, true⟩ => some id
  | _ => none

namespace Catalog

variable {c : Catalog} {call : Registration} {calls earlier : List Registration} {key : String}

def register (c : Catalog) : Registration → Answer × Catalog
  | .composite name made =>
    let (interned, c) := c.internComposite name fun _ => made
    (.composite interned, c)
  | .enum e =>
    match c.internEnum e with
    | .ok (interned, c) => (.enum interned, c)
    | .error conflict => (.refused conflict, c)
  | .anonymous e =>
    let (id, c) := c.addAnonymousEnum e
    (.enum ⟨id, true⟩, c)

def replay (c : Catalog) (calls : List Registration) : Catalog :=
  calls.foldl (fun c call => (c.register call).2) c

/-- The answers to some calls, each in the catalog that the earlier ones have left. -/
def answers (c : Catalog) : List Registration → List Answer
  | [] => []
  | call :: rest => (c.register call).1 :: (c.register call).2.answers rest

theorem replay_concat (c : Catalog) (calls : List Registration) (call : Registration) :
    c.replay (calls ++ [call]) = ((c.replay calls).register call).2 := by
  rw [replay, List.foldl_append]
  rfl

theorem replay_append (c : Catalog) (calls later : List Registration) :
    c.replay (calls ++ later) = (c.replay calls).replay later :=
  List.foldl_append

theorem answers_concat (c : Catalog) (calls : List Registration) (call : Registration) :
    c.answers (calls ++ [call]) = c.answers calls ++ [((c.replay calls).register call).1] := by
  induction calls generalizing c with
  | nil => rfl
  | cons first rest ih =>
    rw [List.cons_append, answers, answers, ih]
    rfl

/-- What a call can do: create an entry, find one, or be refused. -/
inductive Registers (c : Catalog) : Registration → Answer → Catalog → Prop where
  | newComposite {name : String} {made : Composite} (h : c.findComposite? name = none) :
      Registers c (.composite name made) (.composite ⟨⟨c.composites.length⟩, true⟩)
        (c.addComposite name made)
  | oldComposite {name : String} {made : Composite} {id : CompositeId}
      (h : c.findComposite? name = some id) :
      Registers c (.composite name made) (.composite ⟨id, false⟩) c
  | anonymous {e : EnumType} :
      Registers c (.anonymous e) (.enum ⟨⟨c.enums.length⟩, true⟩) (c.addEnum e)
  | unnamed {e : EnumType} (he : e.name = none) :
      Registers c (.enum e) (.enum ⟨⟨c.enums.length⟩, true⟩) (c.addEnum e)
  | newEnum {e : EnumType} {name : String} (he : e.name = some name)
      (h : c.findEnum? name = none) :
      Registers c (.enum e) (.enum ⟨⟨c.enums.length⟩, true⟩) (c.addNamedEnum name e)
  | oldEnum {e : EnumType} {name : String} {id : EnumId} (he : e.name = some name)
      (h : c.findEnum? name = some id)
      (hv : ∀ old, c.enum? id = some old → old.values = e.values) :
      Registers c (.enum e) (.enum ⟨id, false⟩) c
  | refused {e old : EnumType} {name : String} {id : EnumId} (he : e.name = some name)
      (h : c.findEnum? name = some id) (ho : c.enum? id = some old)
      (hv : old.values ≠ e.values) :
      Registers c (.enum e) (.refused ⟨old.name.getD name, old.origin, e.origin⟩) c

theorem registers (c : Catalog) (call : Registration) :
    c.Registers call (c.register call).1 (c.register call).2 := by
  cases call with
  | composite name made =>
    cases h : c.findComposite? name with
    | none =>
      have hr : c.register (.composite name made) =
          (.composite ⟨⟨c.composites.length⟩, true⟩, c.addComposite name made) := by
        simp only [register, internComposite, h, addComposite]
      rw [hr]
      exact .newComposite h
    | some id =>
      have hr : c.register (.composite name made) = (.composite ⟨id, false⟩, c) := by
        simp only [register, internComposite, h]
      rw [hr]
      exact .oldComposite h
  | anonymous e => exact .anonymous
  | enum e =>
    cases he : e.name with
    | none =>
      have hr : c.register (.enum e) = (.enum ⟨⟨c.enums.length⟩, true⟩, c.addEnum e) := by
        simp only [register, internEnum, he, addAnonymousEnum, addEnum]
      rw [hr]
      exact .unnamed he
    | some name =>
      cases h : c.findEnum? name with
      | none =>
        have hr : c.register (.enum e) =
            (.enum ⟨⟨c.enums.length⟩, true⟩, c.addNamedEnum name e) := by
          simp only [register, internEnum, he, h, addAnonymousEnum, addEnum, addNamedEnum]
        rw [hr]
        exact .newEnum he h
      | some id =>
        by_cases hv : ∃ old, c.enum? id = some old ∧ old.values ≠ e.values
        · obtain ⟨old, ho, hv⟩ := hv
          have hr : c.register (.enum e) =
              (.refused ⟨old.name.getD name, old.origin, e.origin⟩, c) := by
            simp only [register, internEnum, he, h, ho, if_neg hv]
          rw [hr]
          exact .refused he h ho hv
        · have hv : ∀ old, c.enum? id = some old → old.values = e.values :=
            fun old ho => by_contra fun hne => hv ⟨old, ho, hne⟩
          have hr : c.register (.enum e) = (.enum ⟨id, false⟩, c) := by
            cases ho : c.enum? id with
            | none => simp only [register, internEnum, he, h, ho]
            | some old => simp only [register, internEnum, he, h, ho, if_pos (hv old ho)]
          rw [hr]
          exact .oldEnum he h hv

namespace Registers

variable {answer : Answer} {d : Catalog}

/-- A composite is created exactly where one is stored, at the next index. -/
theorem composites (h : c.Registers call answer d) :
    (answer.newComposite? = none ∧ d.composites = c.composites) ∨
      (answer.newComposite? = some ⟨c.composites.length⟩ ∧
        ∃ made, d.composites = c.composites ++ [made]) := by
  cases h with
  | newComposite h => exact .inr ⟨rfl, _, rfl⟩
  | _ => exact .inl ⟨rfl, rfl⟩

theorem enums (h : c.Registers call answer d) :
    (answer.newEnum? = none ∧ d.enums = c.enums) ∨
      (answer.newEnum? = some ⟨c.enums.length⟩ ∧ ∃ e, d.enums = c.enums ++ [e]) := by
  cases h with
  | anonymous => exact .inr ⟨rfl, _, rfl⟩
  | unnamed he => exact .inr ⟨rfl, _, rfl⟩
  | newEnum he h => exact .inr ⟨rfl, _, rfl⟩
  | _ => exact .inl ⟨rfl, rfl⟩

theorem findComposite? (h : c.Registers call answer d) (name : String) :
    d.findComposite? name = (c.findComposite? name).or
      (if call.compositeKey? = some (caseKey name) then some ⟨c.composites.length⟩ else none) := by
  cases h with
  | newComposite h =>
    rw [findComposite?_addComposite]
    simp [Registration.compositeKey?]
  | @oldComposite other made id h =>
    by_cases hk : caseKey other = caseKey name
    · have hf : c.findComposite? name = some id := by
        rw [← h, Catalog.findComposite?, Catalog.findComposite?, hk]
      rw [hf, Option.some_or]
    · simp [Registration.compositeKey?, hk]
  | _ =>
    show c.findComposite? name = _
    simp [Registration.compositeKey?]

theorem findEnum? (h : c.Registers call answer d) (name : String) :
    d.findEnum? name = (c.findEnum? name).or
      (if call.enumKey? = some (caseKey name) then some ⟨c.enums.length⟩ else none) := by
  have hfound : ∀ {e : EnumType} {other id}, e.name = some other → c.findEnum? other = some id →
      c.findEnum? name = (c.findEnum? name).or
        (if (Registration.enum e).enumKey? = some (caseKey name) then some ⟨c.enums.length⟩
          else none) := by
    intro e other id he hf
    by_cases hk : caseKey other = caseKey name
    · rw [Catalog.findEnum?, hk] at hf
      rw [Catalog.findEnum?, hf, Option.some_or]
    · simp [Registration.enumKey?, he, hk]
  cases h with
  | newEnum he h =>
    rw [findEnum?_addNamedEnum]
    simp [Registration.enumKey?, he]
  | oldEnum he h hv => exact hfound he h
  | refused he h ho hv => exact hfound he h
  | unnamed he =>
    show c.findEnum? name = _
    simp [Registration.enumKey?, he]
  | anonymous =>
    show c.findEnum? name = _
    simp [Registration.enumKey?]
  | newComposite h =>
    show c.findEnum? name = _
    simp [Registration.enumKey?]
  | oldComposite h => simp [Registration.enumKey?]

end Registers

/-- A call is the first one under its key, with the calls before it. -/
structure First (key? : Registration → Option String) (key : String)
    (calls earlier : List Registration) (call : Registration) : Prop where
  within : earlier ++ [call] <+: calls
  keyed : key? call = some key
  fresh : ∀ other ∈ earlier, key? other ≠ some key

theorem first_concat_iff {key? : Registration → Option String} {new : Registration} :
    First key? key (calls ++ [new]) earlier call ↔
      First key? key calls earlier call ∨
      earlier = calls ∧ call = new ∧ key? new = some key ∧
        ∀ other ∈ calls, key? other ≠ some key := by
  constructor
  · rintro ⟨hwithin, hkey, hfirst⟩
    rcases List.prefix_concat_iff.mp hwithin with hall | hwithin
    · obtain ⟨rfl, hcall⟩ := List.append_inj' hall rfl
      obtain rfl := List.singleton_inj.mp hcall
      exact .inr ⟨rfl, rfl, hkey, hfirst⟩
    · exact .inl ⟨hwithin, hkey, hfirst⟩
  · rintro (h | ⟨rfl, rfl, hkey, hfirst⟩)
    · exact ⟨h.within.trans (List.prefix_append ..), h.keyed, h.fresh⟩
    · exact ⟨List.prefix_rfl, hkey, hfirst⟩

/-- Where each call under a key that finds nothing yet makes it find the next entry, a key finds
the entry that its first call has made. -/
theorem find_iff {α : Type} {key? : Registration → Option String}
    (find : List Registration → Option α) {next : List Registration → α} (hnil : find [] = none)
    (hstep : ∀ calls call, find (calls ++ [call]) =
      (find calls).or (if key? call = some key then some (next calls) else none))
    (calls : List Registration) :
    (find calls = none ↔ ∀ call ∈ calls, key? call ≠ some key) ∧
      ∀ a, find calls = some a ↔ ∃ earlier call, First key? key calls earlier call ∧
        next earlier = a := by
  induction calls using List.reverseRecOn with
  | nil =>
    refine ⟨iff_of_true hnil (List.forall_mem_nil _), fun a => ?_⟩
    rw [hnil]
    refine iff_of_false nofun ?_
    rintro ⟨earlier, call, h, -⟩
    exact absurd (List.prefix_nil.mp h.within) (by simp)
  | append_singleton calls new ih =>
    obtain ⟨hnone, hsome⟩ := ih
    rw [hstep]
    constructor
    · rw [Option.or_eq_none_iff, hnone]
      simp [or_imp, forall_and]
    · intro a
      rw [Option.or_eq_some_iff, hsome, hnone]
      simp only [first_concat_iff, Option.ite_none_right_eq_some, Option.some.injEq]
      constructor
      · rintro (⟨earlier, call, h, rfl⟩ | ⟨hfirst, hkey, rfl⟩)
        · exact ⟨earlier, call, .inl h, rfl⟩
        · exact ⟨calls, new, .inr ⟨rfl, rfl, hkey, hfirst⟩, rfl⟩
      · rintro ⟨earlier, call, h | ⟨rfl, rfl, hkey, hfirst⟩, rfl⟩
        · exact .inl ⟨earlier, call, h, rfl⟩
        · exact .inr ⟨hfirst, hkey, rfl⟩

theorem prefix_replay (c : Catalog) (later : List Registration) :
    c.composites <+: (c.replay later).composites ∧ c.enums <+: (c.replay later).enums := by
  induction later generalizing c with
  | nil => exact ⟨List.prefix_rfl, List.prefix_rfl⟩
  | cons call rest ih =>
    obtain ⟨hcomposites, henums⟩ := ih (c.register call).2
    constructor
    · obtain ⟨-, hc⟩ | ⟨-, made, hc⟩ := (c.registers call).composites
      · rwa [hc] at hcomposites
      · rw [hc] at hcomposites
        exact (List.prefix_append ..).trans hcomposites
    · obtain ⟨-, he⟩ | ⟨-, e, he⟩ := (c.registers call).enums
      · rwa [he] at henums
      · rw [he] at henums
        exact (List.prefix_append ..).trans henums

def after (calls : List Registration) : Catalog := replay {} calls

theorem after_concat (calls : List Registration) (call : Registration) :
    after (calls ++ [call]) = ((after calls).register call).2 := replay_concat {} calls call

theorem findComposite?_after (calls : List Registration) (name : String) :
    ((after calls).findComposite? name = none ↔
      ∀ call ∈ calls, call.compositeKey? ≠ some (caseKey name)) ∧
    ∀ id, (after calls).findComposite? name = some id ↔ ∃ earlier call,
      First Registration.compositeKey? (caseKey name) calls earlier call ∧
        ⟨(after earlier).composites.length⟩ = id := by
  refine find_iff (fun calls => (after calls).findComposite? name) rfl ?_ calls
  intro calls call
  rw [after_concat]
  exact ((after calls).registers call).findComposite? name

theorem findEnum?_after (calls : List Registration) (name : String) :
    ((after calls).findEnum? name = none ↔
      ∀ call ∈ calls, call.enumKey? ≠ some (caseKey name)) ∧
    ∀ id, (after calls).findEnum? name = some id ↔ ∃ earlier call,
      First Registration.enumKey? (caseKey name) calls earlier call ∧
        ⟨(after earlier).enums.length⟩ = id := by
  refine find_iff (fun calls => (after calls).findEnum? name) rfl ?_ calls
  intro calls call
  rw [after_concat]
  exact ((after calls).registers call).findEnum? name

/-- The first call under a key creates an entry. -/
theorem newComposite?_of_first (h : First Registration.compositeKey? key calls earlier call) :
    ((after earlier).register call).1.newComposite? =
      some ⟨(after earlier).composites.length⟩ := by
  obtain ⟨-, hkey, hfirst⟩ := h
  cases call with
  | composite name made =>
    obtain rfl := Option.some.inj hkey
    have hnone := (findComposite?_after earlier name).1.mpr hfirst
    simp only [register, internComposite, hnone, Answer.newComposite?]
  | enum e => cases hkey
  | anonymous e => cases hkey

theorem exists_enum_of_first (h : First Registration.enumKey? key calls earlier call) :
    ∃ e name, call = .enum e ∧ e.name = some name ∧ caseKey name = key ∧
      (after earlier).register call =
        (.enum ⟨⟨(after earlier).enums.length⟩, true⟩, (after earlier).addNamedEnum name e) := by
  obtain ⟨-, hkey, hfirst⟩ := h
  cases call with
  | composite name made => cases hkey
  | anonymous e => cases hkey
  | enum e =>
    obtain ⟨name, he, rfl⟩ := Option.map_eq_some_iff.mp hkey
    have hnone := (findEnum?_after earlier name).1.mpr hfirst
    refine ⟨e, name, rfl, he, rfl, ?_⟩
    simp only [register, internEnum, he, hnone, addAnonymousEnum, addNamedEnum, addEnum]

theorem enum?_of_first {e : EnumType}
    (h : First Registration.enumKey? key calls earlier (.enum e)) :
    (after calls).enum? ⟨(after earlier).enums.length⟩ = some e := by
  obtain ⟨_, name, he, -, -, hr⟩ := exists_enum_of_first h
  obtain rfl := Registration.enum.inj he
  obtain ⟨later, rfl⟩ := h.within
  have hstored := (prefix_replay (after (earlier ++ [.enum e])) later).2
  rw [after_concat, hr] at hstored
  have hkept : (after (earlier ++ [.enum e] ++ later)).enums =
      ((after (earlier ++ [.enum e])).replay later).enums :=
    congrArg Catalog.enums (replay_append {} _ later)
  rw [after_concat, hr] at hkept
  obtain ⟨rest, hrest⟩ := hstored
  rw [enum?, hkept, ← hrest]
  simp [addNamedEnum, addEnum]

/-- What some calls have made of an empty catalog, told by the calls alone. -/
structure Recorded (calls : List Registration) (c : Catalog) : Prop where
  compositeIds : (answers {} calls).filterMap Answer.newComposite? =
    (List.range c.composites.length).map CompositeId.mk
  enumIds : (answers {} calls).filterMap Answer.newEnum? =
    (List.range c.enums.length).map EnumId.mk
  /-- What a new name is built for is stored. -/
  built : ∀ name make, (∀ call ∈ calls, call.compositeKey? ≠ some (caseKey name)) →
    c.internComposite name make =
      (⟨⟨c.composites.length⟩, true⟩, c.addComposite name (make ()))
  /-- For a name that is taken nothing is built; the answer is what the name finds. -/
  unbuilt : ∀ name, (∃ call ∈ calls, call.compositeKey? = some (caseKey name)) →
    ∃ id, c.findComposite? name = some id ∧
      ∀ make, c.internComposite name make = (⟨id, false⟩, c)
  findComposite? : ∀ name id, c.findComposite? name = some id ↔
    ∃ earlier call, First Registration.compositeKey? (caseKey name) calls earlier call ∧
      ((after earlier).register call).1.newComposite? = some id
  findComposite?_none : ∀ name, c.findComposite? name = none ↔
    ∀ call ∈ calls, call.compositeKey? ≠ some (caseKey name)
  findEnum? : ∀ name id, c.findEnum? name = some id ↔
    ∃ earlier call, First Registration.enumKey? (caseKey name) calls earlier call ∧
      ((after earlier).register call).1.newEnum? = some id
  findEnum?_none : ∀ name, c.findEnum? name = none ↔
    ∀ call ∈ calls, call.enumKey? ≠ some (caseKey name)
  composites : ∀ later, c.composites <+: (c.replay later).composites
  enums : ∀ later, c.enums <+: (c.replay later).enums
  /-- An enum is refused if the first one of its name has other values. -/
  refused : ∀ e, (∃ conflict, c.internEnum e = .error conflict) ↔
    ∃ name earlier first, e.name = some name ∧
      First Registration.enumKey? (caseKey name) calls earlier (.enum first) ∧
      first.values ≠ e.values
  /-- An enum that is not refused although its name is taken is the one that the name finds. -/
  again : ∀ e name id, e.name = some name → c.findEnum? name = some id →
    (∃ conflict, c.internEnum e = .error conflict) ∨ c.internEnum e = .ok (⟨id, false⟩, c)
  unchanged : ∀ call conflict, (c.register call).1 = .refused conflict → (c.register call).2 = c

theorem filterMap_newComposite? (calls : List Registration) :
    (answers {} calls).filterMap Answer.newComposite? =
      (List.range (after calls).composites.length).map CompositeId.mk := by
  induction calls using List.reverseRecOn with
  | nil => rfl
  | append_singleton calls call ih =>
    rw [answers_concat, List.filterMap_append, ih, after_concat]
    show _ ++ [((after calls).register call).1].filterMap _ = _
    obtain ⟨hnew, hc⟩ | ⟨hnew, made, hc⟩ := ((after calls).registers call).composites
    · simp [hnew, hc]
    · simp [hnew, hc, List.range_succ]

theorem filterMap_newEnum? (calls : List Registration) :
    (answers {} calls).filterMap Answer.newEnum? =
      (List.range (after calls).enums.length).map EnumId.mk := by
  induction calls using List.reverseRecOn with
  | nil => rfl
  | append_singleton calls call ih =>
    rw [answers_concat, List.filterMap_append, ih, after_concat]
    show _ ++ [((after calls).register call).1].filterMap _ = _
    obtain ⟨hnew, hc⟩ | ⟨hnew, e, hc⟩ := ((after calls).registers call).enums
    · simp [hnew, hc]
    · simp [hnew, hc, List.range_succ]

theorem internEnum_error_iff {e : EnumType} : (∃ conflict, c.internEnum e = .error conflict) ↔
    ∃ name id old, e.name = some name ∧ c.findEnum? name = some id ∧ c.enum? id = some old ∧
      old.values ≠ e.values := by
  constructor
  · rintro ⟨conflict, h⟩
    have hr : c.Registers (.enum e) (.refused conflict) c := by
      have := c.registers (.enum e)
      simpa only [register, h] using this
    cases hr with
    | refused he hf ho hv => exact ⟨_, _, _, he, hf, ho, hv⟩
  · rintro ⟨name, id, old, he, hf, ho, hv⟩
    exact ⟨⟨old.name.getD name, old.origin, e.origin⟩, by
      simp only [internEnum, he, hf, ho, if_neg hv]⟩

/-- Whatever calls an empty catalog has seen, they alone say what it answers. -/
theorem recorded_after (calls : List Registration) : Recorded calls (after calls) where
  compositeIds := filterMap_newComposite? calls
  enumIds := filterMap_newEnum? calls
  built name make hnew := by
    have hnone := (findComposite?_after calls name).1.mpr hnew
    unfold internComposite
    rw [hnone]
    rfl
  unbuilt name hold := by
    cases hf : (after calls).findComposite? name with
    | none =>
      obtain ⟨call, hcall, hkey⟩ := hold
      exact absurd hkey ((findComposite?_after calls name).1.mp hf call hcall)
    | some id =>
      refine ⟨id, rfl, fun make => ?_⟩
      unfold internComposite
      rw [hf]
  findComposite? name id := by
    refine ((findComposite?_after calls name).2 id).trans ?_
    refine exists_congr fun earlier => exists_congr fun call => and_congr_right fun h => ?_
    rw [newComposite?_of_first h, Option.some.injEq]
  findComposite?_none name := (findComposite?_after calls name).1
  findEnum? name id := by
    refine ((findEnum?_after calls name).2 id).trans ?_
    refine exists_congr fun earlier => exists_congr fun call => and_congr_right fun h => ?_
    obtain ⟨e, given, -, -, -, hr⟩ := exists_enum_of_first h
    rw [hr, Answer.newEnum?, Option.some.injEq]
  findEnum?_none name := (findEnum?_after calls name).1
  composites later := (prefix_replay _ later).1
  enums later := (prefix_replay _ later).2
  refused e := by
    rw [internEnum_error_iff]
    constructor
    · rintro ⟨name, id, old, he, hf, ho, hv⟩
      obtain ⟨earlier, call, h, rfl⟩ := ((findEnum?_after calls name).2 id).mp hf
      obtain ⟨first, given, rfl, -⟩ := exists_enum_of_first h
      obtain rfl := Option.some.inj ((enum?_of_first h).symm.trans ho)
      exact ⟨name, earlier, first, he, h, hv⟩
    · rintro ⟨name, earlier, first, he, h, hv⟩
      exact ⟨name, _, first, he, ((findEnum?_after calls name).2 _).mpr ⟨earlier, _, h, rfl⟩,
        enum?_of_first h, hv⟩
  again e name id he hf := by
    cases ho : (after calls).enum? id with
    | none => exact .inr (by simp only [internEnum, he, hf, ho])
    | some old =>
      by_cases hv : old.values = e.values
      · exact .inr (by simp only [internEnum, he, hf, ho, if_pos hv])
      · exact .inl (internEnum_error_iff.mpr ⟨name, id, old, he, hf, ho, hv⟩)
  unchanged call conflict hc := by
    have hr := (after calls).registers call
    rw [hc] at hr
    generalize ((after calls).register call).2 = d at hr ⊢
    cases hr
    rfl

end Catalog

end ApiModel
