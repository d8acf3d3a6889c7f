import ApiModel.Proofs.Route
import ApiModel.Proofs.Steps

/-! # Keywords of schemas

What the keywords of a schema say by themselves: whether it lists texts, which kind its type and its
format have, and which members it declares, on its own and in the inline parts of its `allOf`.
-/

namespace ApiModel

namespace Scalar

variable {typeName format : Option String} {kind : Scalar}

def table : List (Option String × Option String × Scalar) := [
  (none, none, object),
  (some "boolean", none, boolean),
  (some "integer", none, int),
  (some "integer", some "int32", int),
  (some "integer", some "int64", long),
  (some "integer", some "unixtime", unixTime),
  (some "number", none, double),
  (some "number", some "double", double),
  (some "number", some "float", float),
  (some "number", some "decimal", decimal),
  (some "string", none, string),
  (some "string", some "password", string),
  (some "string", some "char", char),
  (some "string", some "byte", byteArray),
  (some "string", some "base64url", base64Url),
  (some "string", some "binary", stream),
  (some "string", some "date", date),
  (some "string", some "date-time", dateTime),
  (some "string", some "date-time-rfc1123", dateTimeRfc1123),
  (some "string", some "duration", timeSpan),
  (some "string", some "uuid", uuid),
  (some "file", none, stream),
  (some "object", none, object)]

theorem mem_table_of_ofType? {name : String} (h : ofType? name = some kind) :
    (some name, none, kind) ∈ table := by
  unfold ofType? at h
  split at h <;> cases h <;> simp [table]

theorem mem_table_of_ofFormat? {name format : String} (h : ofFormat? name format = some kind) :
    (some name, some format, kind) ∈ table := by
  unfold ofFormat? at h
  split at h <;> cases h <;> simp [table]

theorem find_eq_ok_iff : find typeName format = .ok kind ↔ (typeName, format, kind) ∈ table := by
  constructor
  · intro h
    unfold find at h
    split at h
    · cases h
      simp [table]
    · cases h
    · rename_i name
      cases ht : ofType? name with
      | none => simp [ht] at h
      | some fallback =>
        cases format with
        | none =>
          simp only [ht, Except.ok.injEq] at h
          exact mem_table_of_ofType? (h ▸ ht)
        | some format =>
          cases hf : ofFormat? name format with
          | none => simp [ht, hf] at h
          | some other =>
            simp only [ht, hf, Except.ok.injEq] at h
            exact mem_table_of_ofFormat? (h ▸ hf)
  · have hrows : ∀ row ∈ table, find row.1 row.2.1 = .ok row.2.2 := by
      simp [table, find, ofType?, ofFormat?]
    exact fun h => hrows _ h

end Scalar

/-- A schema has the kind of its type and format. Where formats are allowed that are not known, a
format that is in no row with the type makes no difference. -/
theorem Resolution.scalarOf?_eq_some_iff {settings : Settings} {s : Schema} {kind : Scalar} :
    scalarOf? settings s = some kind ↔ (s.typeName, s.format, kind) ∈ Scalar.table ∨
      settings.allowUnknownFormats = true ∧ s.typeName ≠ none ∧
        (s.typeName, none, kind) ∈ Scalar.table ∧
        ∀ other, (s.typeName, s.format, other) ∉ Scalar.table := by
  simp only [← Scalar.find_eq_ok_iff, scalarOf?]
  cases s.typeName with
  | none => cases s.format <;> simp [Scalar.find]
  | some name =>
    cases ht : Scalar.ofType? name with
    | none => simp [Scalar.find, ht]
    | some fallback =>
      cases s.format with
      | none => simp [Scalar.find, ht]
      | some format => cases hf : Scalar.ofFormat? name format <;> simp [Scalar.find, ht, hf]

namespace Schema

variable {s : Schema} {pointer : Pointer} {m : Member} {listed : List Json}

theorem stringEnum?_eq_some_iff : s.stringEnum? = some listed ↔
    s.enumeration = some listed ∧ (s.typeName = none ∨ s.typeName = some "string") := by
  unfold stringEnum?
  split <;> simp_all

theorem mem_members_iff : m ∈ s.members pointer ↔
    ∃ p ∈ s.properties, m = ⟨p.1, p.2, (pointer.child "properties").child p.1⟩ := by
  simp only [members, List.mem_map, eq_comm]

theorem mem_inlineParts_iff {part : Schema × Pointer} : part ∈ s.inlineParts pointer ↔
    ∃ i, (part.1, i) ∈ s.allOf.zipIdx ∧ part.2 = (pointer.child "allOf").item i ∧
      part.1.reference = none := by
  simp only [inlineParts, parts, List.mem_filter, List.mem_map, Option.isNone_iff_eq_none]
  constructor
  · rintro ⟨⟨⟨t, i⟩, ht, rfl⟩, hr⟩
    exact ⟨i, ht, rfl, hr⟩
  · rintro ⟨i, ht, hp, hr⟩
    exact ⟨⟨_, ht, Prod.ext rfl hp.symm⟩, hr⟩

/-- The members of a schema are its properties and those of the parts that are no references. -/
theorem mem_declaredMembers_iff : m ∈ s.declaredMembers pointer ↔
    (∃ p ∈ s.properties, m = ⟨p.1, p.2, (pointer.child "properties").child p.1⟩) ∨
      ∃ part i, (part, i) ∈ s.allOf.zipIdx ∧ part.reference = none ∧ ∃ p ∈ part.properties,
        m = ⟨p.1, p.2, (((pointer.child "allOf").item i).child "properties").child p.1⟩ := by
  simp only [declaredMembers, List.mem_append, List.mem_flatMap, mem_members_iff,
    mem_inlineParts_iff]
  refine or_congr_right ⟨?_, ?_⟩
  · rintro ⟨⟨part, q⟩, ⟨i, hp, rfl, hr⟩, hm⟩
    exact ⟨part, i, hp, hr, hm⟩
  · rintro ⟨part, i, hp, hr, hm⟩
    exact ⟨(part, _), ⟨i, hp, rfl, hr⟩, hm⟩

end Schema

end ApiModel
