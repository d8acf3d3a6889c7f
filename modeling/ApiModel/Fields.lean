/-! # Fields

Ordered records: lists of named values in which a name occurs once. A new name goes to the end,
an old one keeps its place and takes the new value.
-/

namespace ApiModel.Fields

variable {α β : Type}

def get? (fields : List (String × α)) (key : String) : Option α :=
  match fields with
  | [] => none
  | (k, v) :: rest => if k = key then some v else get? rest key

def set (fields : List (String × α)) (key : String) (value : α) : List (String × α) :=
  match fields with
  | [] => [(key, value)]
  | (k, v) :: rest => if k = key then (k, value) :: rest else (k, v) :: set rest key value

def keys (fields : List (String × α)) : List String :=
  fields.map Prod.fst

/-- Removes a field and moves the last one into its place. -/
def eraseSwap (fields : List (String × α)) (key : String) : List (String × α) :=
  match fields with
  | [] => []
  | (k, v) :: rest =>
    if k = key then
      match rest.getLast? with
      | none => []
      | some last => last :: rest.dropLast
    else (k, v) :: eraseSwap rest key

@[simp] theorem get?_nil (key : String) : get? ([] : List (String × α)) key = none := rfl

theorem get?_cons (k : String) (v : α) (rest : List (String × α)) (key : String) :
    get? ((k, v) :: rest) key = if k = key then some v else get? rest key := rfl

@[simp] theorem get?_set (fields : List (String × α)) (key key' : String) (value : α) :
    get? (set fields key value) key' = if key = key' then some value else get? fields key' := by
  induction fields with
  | nil => simp [set, get?]
  | cons p rest ih =>
    obtain ⟨k, v⟩ := p
    by_cases hk : k = key
    · subst hk; by_cases h : k = key' <;> simp [set, get?, h]
    · by_cases h : k = key'
      · subst h; simp [set, get?, hk, Ne.symm hk]
      · simp [set, get?, hk, h, ih]

theorem get?_isSome_iff {fields : List (String × α)} {key : String} :
    (get? fields key).isSome = true ↔ key ∈ keys fields := by
  induction fields with
  | nil => simp [keys]
  | cons p rest ih =>
    obtain ⟨k, v⟩ := p
    by_cases h : k = key
    · simp [get?, keys, h]
    · simp only [get?, if_neg h, ih, keys, List.map_cons, List.mem_cons]
      simp [Ne.symm h]

theorem keys_set (fields : List (String × α)) (key : String) (value : α) :
    keys (set fields key value) =
      if key ∈ keys fields then keys fields else keys fields ++ [key] := by
  induction fields with
  | nil => simp [set, keys]
  | cons p rest ih =>
    obtain ⟨k, v⟩ := p
    by_cases hk : k = key
    · subst hk; simp [set, keys]
    · simp only [keys] at ih
      by_cases hm : key ∈ rest.map Prod.fst <;> simp [set, keys, hk, Ne.symm hk, hm, ih]

theorem nodup_keys_set {fields : List (String × α)} (h : (keys fields).Nodup) (key : String)
    (value : α) : (keys (set fields key value)).Nodup := by
  rw [keys_set]
  split
  · exact h
  · rename_i hk
    rw [List.nodup_append]
    exact ⟨h, by simp, by intro a ha b hb; simp at hb; subst hb; intro he; exact hk (he ▸ ha)⟩

theorem set_of_not_mem {fields : List (String × α)} {key : String} (h : key ∉ keys fields)
    (value : α) : set fields key value = fields ++ [(key, value)] := by
  induction fields with
  | nil => rfl
  | cons p rest ih =>
    obtain ⟨k, v⟩ := p
    obtain ⟨hk, hrest⟩ := not_or.mp (mt List.mem_cons.mpr h)
    rw [set, if_neg (Ne.symm hk), ih hrest, List.cons_append]

theorem get?_append (fields rest : List (String × α)) (key : String) :
    get? (fields ++ rest) key = (get? fields key).or (get? rest key) := by
  induction fields with
  | nil => simp
  | cons p fields ih =>
    obtain ⟨k, v⟩ := p
    by_cases h : k = key <;> simp [get?_cons, h, ih]

theorem mem_of_get? {fields : List (String × α)} {key : String} {value : α}
    (h : get? fields key = some value) : (key, value) ∈ fields := by
  induction fields with
  | nil => simp at h
  | cons p fields ih =>
    obtain ⟨k, v⟩ := p
    rw [get?_cons] at h
    split at h
    · rename_i hk
      cases hk
      cases h
      exact List.mem_cons_self ..
    · exact List.mem_cons_of_mem _ (ih h)

theorem get?_of_mem {fields : List (String × α)} (hn : (keys fields).Nodup)
    {key : String} {value : α} (h : (key, value) ∈ fields) :
    get? fields key = some value := by
  induction fields with
  | nil => cases h
  | cons p fields ih =>
    obtain ⟨k, v⟩ := p
    obtain ⟨hk, hn⟩ := List.nodup_cons.mp hn
    rw [get?_cons]
    rcases List.mem_cons.mp h with h | h
    · cases h
      exact if_pos rfl
    · rw [if_neg, ih hn h]
      rintro rfl
      exact hk (List.mem_map.mpr ⟨_, h, rfl⟩)

theorem get?_of_perm {fields others : List (String × α)} (hn : (keys fields).Nodup)
    (h : others.Perm fields) (key : String) : get? others key = get? fields key := by
  have hn' : (keys others).Nodup := (h.map Prod.fst).nodup_iff.mpr hn
  exact Option.ext fun value => ⟨fun hv => get?_of_mem hn (h.mem_iff.mp (mem_of_get? hv)),
    fun hv => get?_of_mem hn' (h.mem_iff.mpr (mem_of_get? hv))⟩

theorem mem_set {fields : List (String × α)} {key : String} {value : α}
    {p : String × α} (h : p ∈ set fields key value) : p ∈ fields ∨ p = (key, value) := by
  induction fields with
  | nil => exact .inr (List.mem_singleton.mp h)
  | cons q fields ih =>
    obtain ⟨k, v⟩ := q
    unfold set at h
    split at h
    · rename_i hk
      subst hk
      exact (List.mem_cons.mp h).symm.imp_left (List.mem_cons_of_mem _)
    · rcases List.mem_cons.mp h with rfl | h
      · exact .inl (List.mem_cons_self ..)
      · exact (ih h).imp_left (List.mem_cons_of_mem _)

/-- Values under two names can be put in either order if one of the names is there. -/
theorem set_comm {fields : List (String × α)} {a b : String} {x y : α} (h : b ∈ keys fields)
    (hab : a ≠ b) : set (set fields b y) a x = set (set fields a x) b y := by
  induction fields with
  | nil => cases h
  | cons p rest ih =>
    obtain ⟨k, v⟩ := p
    by_cases hb : k = b
    · subst hb
      simp [set, hab.symm]
    · have hm : b ∈ keys rest := (List.mem_cons.mp h).resolve_left fun he => hb he.symm
      by_cases ha : k = a
      · subst ha
        simp [set, hb]
      · simp [set, hb, ha, ih hm]

theorem eraseSwap_set {fields : List (String × α)} {key : String} (value : α)
    (h : key ∈ keys fields) : eraseSwap (set fields key value) key = eraseSwap fields key := by
  induction fields with
  | nil => cases h
  | cons p rest ih =>
    obtain ⟨k, v⟩ := p
    by_cases hk : k = key
    · simp [set, eraseSwap, hk]
    · have hm : key ∈ keys rest := (List.mem_cons.mp h).resolve_left fun he => hk he.symm
      simp [set, eraseSwap, hk, ih hm]

theorem mem_of_mem_eraseSwap {fields : List (String × α)} {key : String} {p : String × α}
    (h : p ∈ eraseSwap fields key) : p ∈ fields := by
  induction fields with
  | nil => exact h
  | cons q fields ih =>
    obtain ⟨k, v⟩ := q
    unfold eraseSwap at h
    split at h
    · split at h
      · cases h
      · rename_i last hlast
        rcases List.mem_cons.mp h with rfl | h
        · exact List.mem_cons_of_mem _ (List.mem_of_getLast? hlast)
        · exact List.mem_cons_of_mem _ (List.dropLast_subset _ h)
    · rcases List.mem_cons.mp h with rfl | h
      · exact List.mem_cons_self ..
      · exact List.mem_cons_of_mem _ (ih h)

end ApiModel.Fields
