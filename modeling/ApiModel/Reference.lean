/-! # References

A local reference names a definition or a shared parameter of the document it stands in. The name
is everything after the section, taken as it is; it is not empty and has no line feed.
-/

namespace ApiModel

inductive Section where
  | definitions
  | parameters
  deriving DecidableEq, Repr

structure Reference where
  target : Section
  name : String
  deriving DecidableEq, Repr

namespace Reference

def sectionText : Section → String
  | .definitions => "#/definitions/"
  | .parameters => "#/parameters/"

def isName (name : List Char) : Bool :=
  !name.isEmpty && !name.contains '\n'

private def within? (target : Section) (text : List Char) : Option Reference :=
  let opening := (sectionText target).toList
  let name := text.drop opening.length
  if opening.isPrefixOf text && isName name then some ⟨target, String.ofList name⟩ else none

def parse? (text : String) : Option Reference :=
  (within? .definitions text.toList).or (within? .parameters text.toList)

def text (r : Reference) : String := sectionText r.target ++ r.name

private theorem within?_eq_some {target : Section} {text : List Char} {r : Reference} :
    within? target text = some r ↔
      r.target = target ∧ text = r.text.toList ∧ isName r.name.toList = true := by
  obtain ⟨target', name⟩ := r
  simp only [within?, Reference.text, String.toList_append, Option.ite_none_right_eq_some,
    Bool.and_eq_true, List.isPrefixOf_iff_prefix, Option.some.injEq, Reference.mk.injEq]
  constructor
  · rintro ⟨⟨⟨rest, rfl⟩, hn⟩, rfl, rfl⟩
    simp_all
  · rintro ⟨rfl, rfl, hn⟩
    simp [hn]

theorem parse?_eq_some {text : String} {r : Reference} :
    parse? text = some r ↔ text = r.text ∧ isName r.name.toList = true := by
  rw [parse?, Option.or_eq_some_iff, within?_eq_some, within?_eq_some]
  constructor
  · rintro (⟨-, ht, hn⟩ | ⟨-, -, ht, hn⟩) <;> exact ⟨String.toList_inj.mp ht, hn⟩
  · rintro ⟨rfl, hn⟩
    obtain ⟨_ | _, name⟩ := r
    · exact .inl ⟨rfl, rfl, hn⟩
    · refine .inr ⟨?_, rfl, rfl, hn⟩
      simp [within?, sectionText, Reference.text]

end Reference

end ApiModel
