import Mathlib.Data.List.Induction
import Mathlib.Data.List.Nodup

/-! # Lists with one item per key

An item that is put into a list takes the place of the one with its key. Of items that are put one
after the other the last of each key is left, in the place where the first of that key was put.
-/

namespace ApiModel.Keyed

variable {α κ : Type} [DecidableEq κ] {key : α → κ} {l items : List α} {a b : α} {k : κ}

def put (key : α → κ) : List α → α → List α
  | [], a => [a]
  | b :: rest, a => if key b = key a then a :: rest else b :: put key rest a

theorem mem_of_mem_put (h : b ∈ put key l a) : b ∈ l ∨ b = a := by
  induction l with
  | nil => exact .inr (List.mem_singleton.mp h)
  | cons c rest ih =>
    unfold put at h
    split at h
    · exact (List.mem_cons.mp h).symm.imp_left (List.mem_cons_of_mem c)
    · rcases List.mem_cons.mp h with rfl | h
      · exact .inl (List.mem_cons_self ..)
      · exact (ih h).imp_left (List.mem_cons_of_mem c)

theorem keys_put (key : α → κ) (l : List α) (a : α) : (put key l a).map key =
    if key a ∈ l.map key then l.map key else l.map key ++ [key a] := by
  induction l with
  | nil => simp [put]
  | cons b rest ih =>
    unfold put
    by_cases hb : key b = key a
    · simp [hb]
    · rw [if_neg hb, List.map_cons, ih, List.map_cons]
      by_cases hm : key a ∈ rest.map key
      · rw [if_pos hm, if_pos (List.mem_cons_of_mem _ hm)]
      · rw [if_neg hm, if_neg, List.cons_append]
        exact fun ha => (List.mem_cons.mp ha).elim (fun hk => hb hk.symm) hm

/-- The keys of the items that are left are those of all, each where it comes first. -/
theorem keys_foldl_put [BEq κ] [LawfulBEq κ] (key : α → κ) (items : List α) :
    (items.foldl (put key) []).map key = (items.map key).eraseDups ∧
      ((items.foldl (put key) []).map key).Nodup := by
  induction items using List.reverseRecOn with
  | nil => exact ⟨rfl, List.nodup_nil⟩
  | append_singleton items a ih =>
    obtain ⟨hkeys, hnodup⟩ := ih
    rw [List.foldl_append, List.foldl_cons, List.foldl_nil, keys_put]
    rw [List.map_append, List.eraseDups_append, ← hkeys, List.map_singleton]
    by_cases ha : key a ∈ (items.foldl (put key) []).map key
    · rw [if_pos ha]
      rw [hkeys, List.mem_eraseDups] at ha
      exact ⟨by rw [List.removeAll, List.filter_cons_of_neg (by simpa using ha)]; simp, hnodup⟩
    · rw [if_neg ha]
      refine ⟨?_, List.nodup_append.mpr ⟨hnodup, List.nodup_singleton _, ?_⟩⟩
      · rw [hkeys, List.mem_eraseDups] at ha
        rw [List.removeAll, List.filter_cons_of_pos (by simpa using ha), List.filter_nil]
        simp [List.eraseDups_cons]
      · rintro k hk _ hk' rfl
        exact ha (List.mem_singleton.mp hk' ▸ hk)

def last? (key : α → κ) (items : List α) (k : κ) : Option α :=
  items.reverse.find? (key · = k)

theorem last?_append (before after : List α) (k : κ) :
    last? key (before ++ after) k = (last? key after k).or (last? key before k) := by
  simp [last?]

theorem last?_singleton (a : α) (k : κ) :
    last? key [a] k = if key a = k then some a else none := by
  by_cases hk : key a = k <;> simp [last?, hk]

theorem last?_eq_find? (hn : (items.map key).Nodup) :
    last? key items k = items.find? (key · = k) := by
  induction items with
  | nil => rfl
  | cons a rest ih =>
    obtain ⟨hnew, hrest⟩ := List.nodup_cons.mp hn
    rw [← List.singleton_append, last?_append, last?_singleton, ih hrest, List.singleton_append,
      List.find?_cons]
    by_cases hk : key a = k
    · have hnone : rest.find? (key · = k) = none := by
        rw [List.find?_eq_none]
        intro b hb hkey
        exact hnew (List.mem_map.mpr ⟨b, hb, (of_decide_eq_true hkey).trans hk.symm⟩)
      simp [hnone, hk]
    · simp [hk]

theorem mem_put (hn : (l.map key).Nodup) : b ∈ put key l a ↔ b = a ∨ b ∈ l ∧ key b ≠ key a := by
  induction l with
  | nil => simp [put]
  | cons c rest ih =>
    rw [List.map_cons, List.nodup_cons] at hn
    have hrest : ∀ b ∈ rest, key b ≠ key c := by
      rintro b hb hk
      exact hn.1 (hk ▸ List.mem_map_of_mem hb)
    unfold put
    by_cases hc : key c = key a
    · rw [if_pos hc, List.mem_cons, List.mem_cons]
      constructor
      · rintro (rfl | hb)
        · exact .inl rfl
        · exact .inr ⟨.inr hb, hc ▸ hrest b hb⟩
      · rintro (rfl | ⟨rfl | hb, hk⟩)
        · exact .inl rfl
        · exact absurd hc hk
        · exact .inr hb
    · rw [if_neg hc, List.mem_cons, ih hn.2, List.mem_cons]
      constructor
      · rintro (rfl | rfl | ⟨hb, hk⟩)
        · exact .inr ⟨.inl rfl, hc⟩
        · exact .inl rfl
        · exact .inr ⟨.inr hb, hk⟩
      · rintro (rfl | ⟨rfl | hb, hk⟩)
        · exact .inr (.inl rfl)
        · exact .inl rfl
        · exact .inr (.inr ⟨hb, hk⟩)

/-- Left are the items that are the last of their key. -/
theorem mem_foldl_put : a ∈ items.foldl (put key) [] ↔ last? key items (key a) = some a := by
  induction items using List.reverseRecOn with
  | nil => simp [last?]
  | append_singleton items b ih =>
    rw [List.foldl_append, List.foldl_cons, List.foldl_nil,
      mem_put (keys_foldl_put key items).2, last?_append, last?_singleton, ih]
    by_cases hk : key b = key a
    · rw [if_pos hk, Option.some_or]
      constructor
      · rintro (rfl | ⟨-, hne⟩)
        · rfl
        · exact absurd hk.symm hne
      · rintro ⟨⟩
        exact .inl rfl
    · rw [if_neg hk, Option.none_or]
      constructor
      · rintro (rfl | ⟨ha, -⟩)
        · exact absurd rfl hk
        · exact ha
      · intro ha
        exact .inr ⟨ha, fun h => hk h.symm⟩

theorem foldl_put_eq [BEq κ] [LawfulBEq κ] (key : α → κ) (items : List α) :
    items.foldl (put key) [] = (items.map key).eraseDups.filterMap (last? key items) := by
  rw [← (keys_foldl_put key items).1, List.filterMap_map]
  refine ((List.filterMap_congr fun a ha => ?_).trans List.filterMap_some).symm
  exact mem_foldl_put.mp ha

end ApiModel.Keyed
