import ApiModel.Document.Decoding
import Mathlib.Tactic.SplitIfs

/-! # Names in values

In a text a member may be repeated, but the values that texts are decoded to have each member once.
-/

namespace ApiModel

/-- Every object in a value has each of its members once. -/
inductive Json.NamesOnce : Json → Prop where
  | null : NamesOnce .null
  | bool (b : Bool) : NamesOnce (.bool b)
  | num (n : Number) : NamesOnce (.num n)
  | str (s : String) : NamesOnce (.str s)
  | arr {items : List Json} (h : ∀ item ∈ items, NamesOnce item) : NamesOnce (.arr items)
  | obj {members : List (String × Json)} (hn : (Fields.keys members).Nodup)
      (h : ∀ m ∈ members, NamesOnce m.2) : NamesOnce (.obj members)

namespace Json

structure Once (members : List (String × Json)) : Prop where
  nodup : (Fields.keys members).Nodup
  values : ∀ m ∈ members, m.2.NamesOnce

theorem Once.nil : Once [] := ⟨List.nodup_nil, nofun⟩

theorem Once.set {members : List (String × Json)} (h : Once members) (key : String) {value : Json}
    (hv : value.NamesOnce) : Once (Fields.set members key value) := by
  refine ⟨Fields.nodup_keys_set h.nodup key value, ?_⟩
  intro m hm
  rcases Fields.mem_set hm with hm | rfl
  · exact h.values m hm
  · exact hv

theorem Once.namesOnce {members : List (String × Json)} (h : Once members) :
    (Json.obj members).NamesOnce := .obj h.nodup h.values

theorem NamesOnce.once {members : List (String × Json)} (h : (Json.obj members).NamesOnce) :
    Once members := by
  cases h with
  | obj hn h => exact ⟨hn, h⟩

theorem NamesOnce.items {items : List Json} (h : (Json.arr items).NamesOnce) :
    ∀ item ∈ items, item.NamesOnce := by
  cases h with
  | arr h => exact h

end Json

theorem foldlM_option {α β : Type} {P : β → Prop} {f : β → α → Option β} {l : List α}
    (hf : ∀ a ∈ l, ∀ {b b'}, P b → f b a = some b' → P b') {b b' : β} (h : P b)
    (hl : l.foldlM f b = some b') : P b' := by
  induction l generalizing b with
  | nil =>
    cases hl
    exact h
  | cons a rest ih =>
    rw [List.foldlM_cons] at hl
    obtain ⟨c, hc, hl⟩ := Option.bind_eq_some_iff.mp hl
    refine ih (fun a ha => hf a (List.mem_cons_of_mem _ ha)) ?_ hl
    exact hf a (List.mem_cons_self ..) h hc

namespace Json

def Token.NamesOnce : Token → Prop
  | .scalar value => value.NamesOnce
  | _ => True

theorem namesOnce_of_scalarOf? {cs : List Char} {value : Json} (h : scalarOf? cs = some value) :
    value.NamesOnce := by
  unfold scalarOf? at h
  split_ifs at h
  · cases h
    exact .null
  · cases h
    exact .bool true
  · cases h
    exact .bool false
  · dsimp only at h
    split_ifs at h
    obtain ⟨n, -, rfl⟩ := Option.map_eq_some_iff.mp h
    exact .num n

namespace Lexer

variable {l l' : Lexer}

theorem start?_namesOnce (h : ∀ t ∈ l.tokens, t.NamesOnce) {c : Char}
    (hs : l.start? c = some l') : ∀ t ∈ l'.tokens, t.NamesOnce := by
  unfold start? at hs
  split at hs <;> (try split_ifs at hs) <;> cases hs <;> simpa [emit, Token.NamesOnce] using h

theorem flush?_namesOnce (h : ∀ t ∈ l.tokens, t.NamesOnce) (hs : l.flush? = some l') :
    ∀ t ∈ l'.tokens, t.NamesOnce := by
  unfold flush? at hs
  split at hs
  · obtain ⟨value, hv, rfl⟩ := Option.map_eq_some_iff.mp hs
    exact List.forall_mem_cons.mpr ⟨namesOnce_of_scalarOf? hv, h⟩
  · cases hs
    exact h

theorem step?_namesOnce (h : ∀ t ∈ l.tokens, t.NamesOnce) {c : Char} (hs : l.step? c = some l') :
    ∀ t ∈ l'.tokens, t.NamesOnce := by
  unfold step? at hs
  split at hs
  · exact start?_namesOnce h hs
  · split_ifs at hs
    · cases hs
      exact h
    · obtain ⟨flushed, hf, hs⟩ := Option.bind_eq_some_iff.mp hs
      exact start?_namesOnce (flush?_namesOnce h hf) hs
  · split_ifs at hs <;> cases hs <;> simpa [emit, Token.NamesOnce] using h
  · split_ifs at hs
    cases hs
    exact h
  · split_ifs at hs
    · cases hs
      exact h
    · obtain ⟨e, -, rfl⟩ := Option.map_eq_some_iff.mp hs
      exact h
  · obtain ⟨d, -, hs⟩ := Option.bind_eq_some_iff.mp hs
    dsimp only at hs
    split_ifs at hs
    · obtain ⟨m, -, rfl⟩ := Option.map_eq_some_iff.mp hs
      exact h
    · cases hs
      exact h

end Lexer

theorem namesOnce_of_tokens? {cs : List Char} {tokens : List Token}
    (h : tokens? cs = some tokens) : ∀ t ∈ tokens, t.NamesOnce := by
  obtain ⟨l, hl, h⟩ := Option.bind_eq_some_iff.mp h
  obtain ⟨flushed, hf, h⟩ := Option.bind_eq_some_iff.mp h
  have hread : ∀ t ∈ l.tokens, t.NamesOnce :=
    foldlM_option (P := fun l => ∀ t ∈ l.tokens, t.NamesOnce)
      (fun _ _ _ _ h hs => Lexer.step?_namesOnce h hs) nofun hl
  have hflushed := Lexer.flush?_namesOnce hread hf
  split at h
  · cases h
    simpa using hflushed
  · cases h

def Open.NamesOnce : Open → Prop
  | .arr items => ∀ item ∈ items, item.NamesOnce
  | .obj members _ => Once members

def Expected.NamesOnce : Expected → Prop
  | .key members => Once members
  | .colon members _ => Once members
  | .separator last => last.NamesOnce
  | _ => True

structure Builder.NamesOnce (b : Builder) : Prop where
  stack : ∀ o ∈ b.stack, o.NamesOnce
  expected : b.expected.NamesOnce

namespace Builder

variable {b b' : Builder} {stack : List Open} {t : Token}

theorem enter?_namesOnce {o : Open} (h : ∀ o ∈ stack, o.NamesOnce) (ho : o.NamesOnce)
    {expected : Expected} (he : expected.NamesOnce)
    (hb : enter? (o :: stack) expected = some b) : b.NamesOnce := by
  unfold enter? at hb
  split_ifs at hb
  cases hb
  exact ⟨List.forall_mem_cons.mpr ⟨ho, h⟩, he⟩

theorem startValue?_namesOnce (h : ∀ o ∈ stack, o.NamesOnce) (ht : t.NamesOnce)
    (hb : startValue? stack t = some b) : b.NamesOnce := by
  unfold startValue? at hb
  split at hb
  · refine enter?_namesOnce h ?_ ?_ hb
    · intro item hm
      cases hm
    · trivial
  · refine enter?_namesOnce h ?_ ?_ hb
    · exact Once.nil
    · trivial
  · cases hb
    exact ⟨h, .str _⟩
  · cases hb
    exact ⟨h, ht⟩
  · cases hb

theorem close_namesOnce (h : ∀ o ∈ stack, o.NamesOnce) {value : Json} (hv : value.NamesOnce) :
    (close stack value).NamesOnce := ⟨h, hv⟩

theorem NamesOnce.step? (h : b.NamesOnce) (ht : t.NamesOnce) (hb : b.step? t = some b') :
    b'.NamesOnce := by
  obtain ⟨stack, expected⟩ := b
  obtain ⟨hs, he⟩ := h
  unfold Builder.step? at hb
  dsimp only at hs he hb
  split at hb
  · cases hb
    exact close_namesOnce (List.forall_mem_cons.mp hs).2 (.arr nofun)
  · exact startValue?_namesOnce hs ht hb
  · exact startValue?_namesOnce hs ht hb
  · cases hb
    exact close_namesOnce (List.forall_mem_cons.mp hs).2 Once.nil.namesOnce
  · cases hb
    exact ⟨(List.forall_mem_cons.mp hs).2, Once.nil⟩
  · cases hb
    exact ⟨hs, he⟩
  · cases hb
    exact ⟨List.forall_mem_cons.mpr ⟨he, hs⟩, trivial⟩
  · obtain ⟨hitems, hs⟩ := List.forall_mem_cons.mp hs
    cases hb
    exact ⟨List.forall_mem_cons.mpr ⟨List.forall_mem_cons.mpr ⟨he, hitems⟩, hs⟩, trivial⟩
  · obtain ⟨hitems, hs⟩ := List.forall_mem_cons.mp hs
    cases hb
    refine close_namesOnce hs (.arr fun item hm => ?_)
    rcases List.mem_cons.mp (List.mem_reverse.mp hm) with rfl | hm
    · exact he
    · exact hitems item hm
  · obtain ⟨hmembers, hs⟩ := List.forall_mem_cons.mp hs
    cases hb
    exact ⟨hs, Once.set hmembers _ he⟩
  · obtain ⟨hmembers, hs⟩ := List.forall_mem_cons.mp hs
    cases hb
    exact close_namesOnce hs (Once.set hmembers _ he).namesOnce
  · cases hb

end Builder

theorem namesOnce_of_parse? {text : String} {value : Json} (h : parse? text = some value) :
    value.NamesOnce := by
  obtain ⟨tokens, ht, h⟩ := Option.bind_eq_some_iff.mp h
  obtain ⟨b, hb, h⟩ := Option.bind_eq_some_iff.mp h
  have hstart : (⟨[], .value⟩ : Builder).NamesOnce := by
    refine ⟨?_, trivial⟩
    intro o ho
    cases ho
  have hread : b.NamesOnce :=
    foldlM_option (P := Builder.NamesOnce)
      (fun t hm _ _ hb hs => hb.step? (namesOnce_of_tokens? ht t hm) hs) hstart hb
  have hexpected := hread.expected
  split at h
  · rename_i he _
    rw [he] at hexpected
    cases h
    exact hexpected
  · cases h

end Json

namespace Yaml

open Json

theorem namesOnce_of_decimal? {text : String} {value : Json} (h : decimal? text = some value) :
    value.NamesOnce := by
  unfold decimal? at h
  split_ifs at h
  · cases h
    exact .null
  · obtain ⟨d, -, rfl⟩ := Option.map_eq_some_iff.mp h
    exact .num _

theorem namesOnce_of_plainValue? {text : String} {value : Json}
    (h : plainValue? text = some value) : value.NamesOnce := by
  unfold plainValue? at h
  split at h
  · cases h
    exact .null
  · split at h
    · cases h
      exact .bool _
    · split_ifs at h
      cases h
      exact .num _
    · split_ifs at h
      · cases h
        exact .str _
      · cases h
        cases hd : decimal? text with
        | none => exact .str text
        | some value => exact namesOnce_of_decimal? hd

theorem Scalar.namesOnce_of_json? {s : Scalar} {value : Json} (h : s.json? = some value) :
    value.NamesOnce := by
  unfold Scalar.json? at h
  split at h
  · split_ifs at h
    · exact namesOnce_of_plainValue? h
    · cases h
      exact .str _
  · split_ifs at h
    · obtain ⟨b, -, rfl⟩ := Option.map_eq_some_iff.mp h
      exact .bool b
    · obtain ⟨n, -, h⟩ := Option.bind_eq_some_iff.mp h
      split_ifs at h
      cases h
      exact .num _
    · exact namesOnce_of_decimal? h
    · cases h
      exact .null
    · cases h
      exact .str _

namespace Value

mutual

theorem namesOnce_of_json? {v : Value} {value : Json} (h : v.json? = some value) :
    value.NamesOnce := by
  cases v with
  | scalar s =>
    rw [json?] at h
    exact s.namesOnce_of_json? h
  | sequence tag items =>
    rw [json?] at h
    split_ifs at h
    obtain ⟨items', hi, rfl⟩ := Option.map_eq_some_iff.mp h
    exact .arr (namesOnce_of_jsonItems? hi)
  | mapping tag members =>
    rw [json?] at h
    split_ifs at h
    obtain ⟨members', hm, rfl⟩ := Option.map_eq_some_iff.mp h
    exact (once_of_jsonMembers? .nil hm).namesOnce

theorem namesOnce_of_jsonItems? {items : List Value} {values : List Json}
    (h : jsonItems? items = some values) : ∀ value ∈ values, value.NamesOnce := by
  cases items with
  | nil =>
    cases h
    exact nofun
  | cons item rest =>
    rw [jsonItems?] at h
    obtain ⟨value, hv, h⟩ := Option.bind_eq_some_iff.mp h
    obtain ⟨values', hr, rfl⟩ := Option.map_eq_some_iff.mp h
    exact List.forall_mem_cons.mpr ⟨namesOnce_of_json? hv, namesOnce_of_jsonItems? hr⟩

theorem once_of_jsonMembers? {done members' : List (String × Json)} {members : List (Value × Value)}
    (hd : Once done) (h : jsonMembers? done members = some members') : Once members' := by
  cases members with
  | nil =>
    cases h
    exact hd
  | cons m rest =>
    rw [jsonMembers?] at h
    obtain ⟨key, -, h⟩ := Option.bind_eq_some_iff.mp h
    obtain ⟨value, hv, h⟩ := Option.bind_eq_some_iff.mp h
    exact once_of_jsonMembers? (hd.set key (namesOnce_of_json? hv)) h

end

end Value

end Yaml

theorem Notation.namesOnce_of_decode? {n : Notation} {text : String} {value : Json}
    (h : n.decode? text = some value) : value.NamesOnce := by
  cases n with
  | json => exact Json.namesOnce_of_parse? h
  | yaml =>
    obtain ⟨v, -, h⟩ := Option.bind_eq_some_iff.mp h
    exact Yaml.Value.namesOnce_of_json? h

/-- Whatever notation a text is decoded from, its value has each member once. -/
theorem namesOnce_of_decode {name text : String} {value : Json} (h : decode name text = .ok value) :
    value.NamesOnce := by
  unfold decode at h
  split at h
  · split at h
    · rename_i hv
      cases h
      exact Notation.namesOnce_of_decode? hv
    · cases h
  · split at h
    · rename_i hv
      cases h
      exact Notation.namesOnce_of_decode? hv
    · split at h
      · rename_i hv
        cases h
        exact Notation.namesOnce_of_decode? hv
      · cases h

end ApiModel
