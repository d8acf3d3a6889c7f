import ApiModel.Proofs.Pointers
import Mathlib.Data.List.Forall2

/-! # Evaluating pointers

A pointer is evaluated against the value that a document is read from: each segment selects a
member of an object or an item of a list. What has been read of the fields of a part, the items of
a list or the entries of a record stands at such a segment.
-/

namespace ApiModel

open Json

namespace Pointer

def unescaped : List Char → List Char
  | '~' :: '0' :: rest => '~' :: unescaped rest
  | '~' :: '1' :: rest => '/' :: unescaped rest
  | c :: rest => c :: unescaped rest
  | [] => []

theorem unescaped_segmentChars (segment : String) :
    unescaped (segmentChars segment) = segment.toList := by
  unfold segmentChars
  induction segment.toList with
  | nil => rfl
  | cons c cs ih =>
    rw [List.flatMap_cons, escapedChar]
    split_ifs with htilde hslash
    · rw [htilde, List.cons_append, List.cons_append, unescaped, List.nil_append, ih]
    · rw [hslash, List.cons_append, List.cons_append, unescaped, List.nil_append, ih]
    · rw [List.cons_append, List.nil_append, unescaped, ih]
      · exact fun _ h _ => htilde h
      · exact fun _ h _ => htilde h

/-- The pointer that a text writes: a number sign, and the segments each after a slash. -/
def ofText? (text : String) : Option Pointer :=
  match text.toList.splitOn '/' with
  | ['#'] :: segments => some ⟨segments.map fun s => String.ofList (unescaped s)⟩
  | _ => none

theorem append_chars (cs : List Char) (segments : List String) :
    cs ++ chars segments = ['/'].intercalate (cs :: segments.map segmentChars) := by
  induction segments generalizing cs with
  | nil => simp [chars]
  | cons s rest ih =>
    rw [List.map_cons, List.intercalate_cons_cons, ← ih]
    simp [chars]

/-- Pointers are read as they are written. -/
@[simp] theorem ofText?_text (p : Pointer) : ofText? p.text = some p := by
  have hsplit : p.text.toList.splitOn '/' = ['#'] :: p.segments.map segmentChars := by
    rw [toList_text, ← List.singleton_append, append_chars, List.splitOn_intercalate]
    · intro cs hcs hslash
      rcases List.mem_cons.mp hcs with rfl | hcs
      · exact absurd hslash (by decide)
      · obtain ⟨s, -, rfl⟩ := List.mem_map.mp hcs
        obtain ⟨c, -, hc⟩ := List.mem_flatMap.mp hslash
        exact slash_ne_of_mem_escapedChar hc rfl
    · exact List.cons_ne_nil _ _
  unfold ofText?
  rw [hsplit]
  simp only [List.map_map, Function.comp_def, unescaped_segmentChars, String.ofList_toList,
    List.map_id']

end Pointer

namespace Json

/-- What a segment selects: a member of an object or an item of a list. -/
def child? (key : String) : Json → Option Json
  | .obj members => Fields.get? members key
  | .arr items => itemAt? items key
  | _ => none

def at? : Json → List String → Option Json
  | node, [] => some node
  | node, key :: rest => (node.child? key).bind fun child => child.at? rest

def pointee? (root : Json) (text : String) : Option Json :=
  (Pointer.ofText? text).bind fun p => root.at? p.segments

variable {root node part : Json} {path rest : List String} {key : String}

@[simp] theorem pointee?_text (root : Json) (p : Pointer) :
    root.pointee? p.text = root.at? p.segments := by
  simp [pointee?]

@[simp] theorem at?_nil (node : Json) : node.at? [] = some node := rfl

@[simp] theorem at?_cons (node : Json) (key : String) (rest : List String) :
    node.at? (key :: rest) = (node.child? key).bind fun child => child.at? rest := rfl

theorem at?_append (h : root.at? path = some node) : root.at? (path ++ rest) = node.at? rest := by
  induction path generalizing root with
  | nil =>
    cases h
    rfl
  | cons key path ih =>
    obtain ⟨child, hc, h⟩ := Option.bind_eq_some_iff.mp h
    rw [List.cons_append, at?_cons, hc, Option.bind_some, ih h]

theorem namesOnce_obj_iff {members : List (String × Json)} :
    (Json.obj members).NamesOnce ↔ (Fields.keys members).Nodup ∧ ∀ m ∈ members, m.2.NamesOnce :=
  ⟨fun h => ⟨h.once.nodup, h.once.values⟩, fun h => .obj h.1 h.2⟩

theorem namesOnce_arr_iff {items : List Json} :
    (Json.arr items).NamesOnce ↔ ∀ item ∈ items, item.NamesOnce :=
  ⟨fun h => h.items, .arr⟩

theorem NamesOnce.child (hv : node.NamesOnce) (h : node.child? key = some part) :
    part.NamesOnce := by
  cases node with
  | obj members => exact hv.once.values _ (Fields.mem_of_get? h)
  | arr items =>
    obtain ⟨p, hp, rfl⟩ := Option.map_eq_some_iff.mp h
    exact hv.items _ (List.fst_mem_of_mem_zipIdx (List.mem_of_find?_eq_some hp))
  | _ => cases h

end Json

section Readings

variable {ε α β : Type}

namespace Gives

theorem set {x : Except ε α} {f : α → β} {g : β → α} (h : ∀ a, g (f a) = a) :
    Gives (x.map f) fun b => x = .ok (g b) := by
  cases x with
  | error e => exact error e
  | ok a => exact ok (congrArg Except.ok (h a).symm)

theorem keep {x : Except ε α} {f : α → β} {P : β → Prop} (h : ∀ a, P (f a)) :
    Gives (x.map f) P := ((trivial x).mono fun a _ => h a).map

theorem forall₂ (f : α → Except ε β) (l : List α) :
    Gives (l.mapM f) (List.Forall₂ (fun a b => f a = .ok b) l) := by
  induction l with
  | nil => exact ok .nil
  | cons a rest ih =>
    rw [List.mapM_cons]
    refine bind (fun b hb => hb) fun b hb => ?_
    exact bind ih fun bs hbs => ok (.cons hb hbs)

theorem field (key : String) {step : α → String × Json → Except ε α} {g : α → β}
    {Q : Json → β → Prop} (hother : ∀ a m, m.1 ≠ key → Gives (step a m) fun b => g b = g a)
    (hkey : ∀ a value, Gives (step a (key, value)) fun b => Q value (g b))
    {members : List (String × Json)} (hn : (Fields.keys members).Nodup) (a : α) :
    Gives (members.foldlM step a) fun b =>
      g b = g a ∨ ∃ value, Fields.get? members key = some value ∧ Q value (g b) := by
  induction members generalizing a with
  | nil => exact ok (.inl rfl)
  | cons m rest ih =>
    obtain ⟨hm, hn⟩ := List.nodup_cons.mp hn
    rw [List.foldlM_cons]
    by_cases hk : m.1 = key
    · obtain ⟨_, value⟩ := m
      subst hk
      refine bind (hkey a value) fun b hb => ?_
      have hrest : Gives (rest.foldlM step b) fun c => g c = g b :=
        foldlM rfl fun m' hm' c hc => (hother c m' fun he =>
          hm (he ▸ List.mem_map_of_mem hm')).mono fun _ hd => hd.trans hc
      exact hrest.mono fun c hc => .inr ⟨value, if_pos rfl, hc ▸ hb⟩
    · refine bind (hother a m hk) fun b hb => (ih hn b).mono fun c hc => ?_
      rcases hc with hc | ⟨value, hv, hq⟩
      · exact .inl (hc.trans hb)
      · exact .inr ⟨value, (if_neg hk).trans hv, hq⟩

end Gives

namespace Json

variable {read : Json → Except Mismatch α} {value node : Json} {a : α} {key : String}
  {path : List String}

/-- What stands at a path below a node is read as a part of the document. -/
def ReadAt (node : Json) (path : List String) (read : Json → Except Mismatch α) (a : α) : Prop :=
  ∃ part, node.at? path = some part ∧ part.NamesOnce ∧ read part = .ok a

theorem ReadAt.below (hk : node.child? key = some value) (h : value.ReadAt path read a) :
    node.ReadAt (key :: path) read a := by
  obtain ⟨part, hp, hr⟩ := h
  exact ⟨part, by rw [at?_cons, hk, Option.bind_some, hp], hr⟩

theorem readAt_nil (hv : value.NamesOnce) (h : read value = .ok a) : value.ReadAt [] read a :=
  ⟨value, rfl, hv, h⟩

theorem read_of_readOptional {o : Option α} (h : readOptional read value = .ok o) (ha : a ∈ o) :
    read value = .ok a := by
  unfold readOptional at h
  split at h
  · cases h
    cases ha
  · cases hr : read value with
    | error e =>
      rw [hr] at h
      cases h
    | ok b =>
      rw [hr] at h
      cases h
      rw [Option.mem_some_iff.mp ha]

theorem readAt_item {l : List α} (hv : value.NamesOnce) (h : readList read value = .ok l) {i : Nat}
    (ha : (a, i) ∈ l.zipIdx) : value.ReadAt [toString i] read a := by
  cases value with
  | arr items =>
    have hl := Gives.forall₂ read items l h
    have hi : l[i]? = some a := List.mem_zipIdx_iff_getElem?.mp ha
    obtain ⟨hlt, rfl⟩ := List.getElem?_eq_some_iff.mp hi
    have hlt' : i < items.length := hl.length_eq ▸ hlt
    have hitem : (Json.arr items).child? (toString i) = some items[i] :=
      itemAt?_of_mem (List.mem_zipIdx_iff_getElem?.mpr (List.getElem?_eq_getElem hlt'))
    exact .below hitem (readAt_nil (hv.child hitem) (hl.get hlt' hlt))
  | _ => cases h

theorem eq_arr_of_readList {l : List Json} (h : readList .ok value = .ok l) : value = .arr l := by
  cases value with
  | arr items =>
    have hl := Gives.forall₂ _ items l h
    have heq : List.Forall₂ Eq items l := hl.imp fun _ _ => Except.ok.inj
    rw [List.forall₂_eq_eq_eq] at heq
    rw [heq]
  | _ => cases h

theorem readAt_member {l : List (String × α)} (hv : value.NamesOnce)
    (h : readRecord read value = .ok l) {name : String} (ha : (name, a) ∈ l) :
    value.ReadAt [name] read a := by
  cases value with
  | obj members =>
    have hl := Gives.forall₂ _ members l h
    obtain ⟨⟨key, value⟩, hm, hread⟩ := Resolution.exists_of_mem_forall₂ hl ha
    have hmember := Gives.set (g := Prod.snd) (fun _ => rfl) _ hread
    have hname : (name, a).1 = key := Gives.keep (P := fun field => field.1 = key)
      (fun _ => rfl) _ hread
    cases hname
    have hchild : (Json.obj members).child? name = some value := Fields.get?_of_mem hv.once.nodup hm
    exact .below hchild (readAt_nil (hv.child hchild) hmember)
  | _ => cases h

theorem exists_child (key : String) {β : Type} {part empty : α} {name : String}
    {readMember : α → String → Json → Except Mismatch α} {g : α → β} {Q : Json → β → Prop}
    (hother : ∀ a (m : String × Json), m.1 ≠ key →
      Gives (readMember a m.1 m.2) fun b => g b = g a)
    (hkey : ∀ a value, Gives (readMember a key value) fun b => Q value (g b))
    (hv : node.NamesOnce) (hr : readPart name readMember empty node = .ok part)
    (hs : g part ≠ g empty) :
    ∃ value, node.child? key = some value ∧ value.NamesOnce ∧ Q value (g part) := by
  cases node with
  | obj members =>
    obtain h | ⟨value, hvalue, hq⟩ := Gives.field key hother hkey hv.once.nodup empty part hr
    · exact absurd h hs
    · exact ⟨value, hvalue, hv.once.values _ (Fields.mem_of_get? hvalue), hq⟩
  | _ => cases hr

end Json

end Readings

end ApiModel
