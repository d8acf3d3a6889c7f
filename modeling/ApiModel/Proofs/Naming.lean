import ApiModel.Resolution.Enumeration
import Mathlib.Data.List.Basic

/-! # Normal names

Snake case says of a name which words it has, and nothing else. A name in snake case is its own
snake case as long as it is ASCII, and names with the same snake case have the same proper case,
so they lead to the same names of types and the same symbols.
-/

namespace ApiModel.Naming

open Text Resolution.Enumeration

variable {c d : Char} {w l : List Char} {p : List Char} {ps ws : List (List Char)} {s t : String}

structure IsWord (w : List Char) : Prop where
  ne_nil : w ≠ []
  plain : '_' ∉ w

theorem IsWord.singleton (h : c ≠ '_') : IsWord [c] :=
  ⟨List.cons_ne_nil _ _, fun hm => h (List.mem_singleton.mp hm).symm⟩

theorem IsWord.cons (h : c ≠ '_') (hw : IsWord w) : IsWord (c :: w) :=
  ⟨List.cons_ne_nil _ _, fun hm => (List.mem_cons.mp hm).elim (fun he => h he.symm) hw.plain⟩

theorem IsWord.cons_iff : IsWord (c :: w) ↔ c ≠ '_' ∧ (w = [] ∨ IsWord w) := by
  constructor
  · intro h
    refine ⟨fun he => h.plain (by simp [he]), ?_⟩
    by_cases hw : w = []
    · exact .inl hw
    · exact .inr ⟨hw, fun hm => h.plain (List.mem_cons_of_mem _ hm)⟩
  · rintro ⟨hc, rfl | hw⟩
    · exact .singleton hc
    · exact .cons hc hw

@[simp] theorem pieces_underscore (l : List Char) : pieces ('_' :: l) = pieces l := by
  simp [pieces]

theorem pieces_singleton (h : c ≠ '_') : pieces [c] = [[c]] := by
  simp [pieces, h]

theorem pieces_cons_underscore (h : c ≠ '_') (l : List Char) :
    pieces (c :: '_' :: l) = [c] :: pieces l := by
  simp [pieces, h]

theorem pieces_cons_cons (hc : c ≠ '_') (hd : d ≠ '_') (h : pieces (d :: l) = p :: ps) :
    pieces (c :: d :: l) = (c :: p) :: ps := by
  rw [pieces, if_neg hc]
  simp only [h, if_neg hd]

/-- The pieces of a text are words, and together they are all of it but the underscores. -/
theorem pieces_spec (l : List Char) :
    (∀ p ∈ pieces l, IsWord p) ∧ (pieces l).flatten = l.filter (· ≠ '_') := by
  induction l with
  | nil => exact ⟨nofun, rfl⟩
  | cons c rest ih =>
    obtain ⟨hwords, hflat⟩ := ih
    by_cases hc : c = '_'
    · subst hc
      rw [pieces_underscore, List.filter_cons_of_neg (by simp)]
      exact ⟨hwords, hflat⟩
    rw [List.filter_cons_of_pos (by simpa using hc), ← hflat]
    cases rest with
    | nil =>
      rw [pieces_singleton hc]
      exact ⟨List.forall_mem_singleton.mpr (.singleton hc), rfl⟩
    | cons d l =>
      by_cases hd : d = '_'
      · subst hd
        rw [pieces_underscore] at hwords ⊢
        rw [pieces_cons_underscore hc]
        exact ⟨List.forall_mem_cons.mpr ⟨.singleton hc, hwords⟩, rfl⟩
      · cases hp : pieces (d :: l) with
        | nil =>
          rw [hp, List.filter_cons_of_pos (by simpa using hd)] at hflat
          cases hflat
        | cons p ps =>
          rw [hp] at hwords
          rw [pieces_cons_cons hc hd hp]
          obtain ⟨hfirst, hrest⟩ := List.forall_mem_cons.mp hwords
          exact ⟨List.forall_mem_cons.mpr ⟨.cons hc hfirst, hrest⟩, rfl⟩

theorem isWord_of_mem_words {w : List Char} (h : w ∈ words s) : IsWord w := (pieces_spec _).1 w h

theorem mem_of_mem_pieces (hp : p ∈ pieces l) (hc : c ∈ p) : c ∈ l := by
  have hm : c ∈ (pieces l).flatten := List.mem_flatten.mpr ⟨p, hp, hc⟩
  rw [(pieces_spec l).2] at hm
  exact List.mem_of_mem_filter hm

theorem pieces_eq_nil_iff : pieces l = [] ↔ ∀ c ∈ l, c = '_' := by
  obtain ⟨hwords, hflat⟩ := pieces_spec l
  constructor
  · intro h
    rw [h, List.flatten_nil] at hflat
    simpa using List.filter_eq_nil_iff.mp hflat.symm
  · intro h
    rw [List.filter_eq_nil_iff.mpr (by simpa using h), List.flatten_eq_nil_iff] at hflat
    exact List.eq_nil_iff_forall_not_mem.mpr fun p hp => (hwords p hp).ne_nil (hflat p hp)

theorem pieces_word (h : IsWord w) : pieces w = [w] := by
  induction w with
  | nil => exact absurd rfl h.ne_nil
  | cons c w ih =>
    obtain ⟨hc, rfl | hw⟩ := IsWord.cons_iff.mp h
    · exact pieces_singleton hc
    · cases w with
      | nil => exact absurd rfl hw.ne_nil
      | cons d w => exact pieces_cons_cons hc (IsWord.cons_iff.mp hw).1 (ih hw)

theorem pieces_word_append (h : IsWord w) (l : List Char) :
    pieces (w ++ '_' :: l) = w :: pieces l := by
  induction w with
  | nil => exact absurd rfl h.ne_nil
  | cons c w ih =>
    obtain ⟨hc, rfl | hw⟩ := IsWord.cons_iff.mp h
    · exact pieces_cons_underscore hc l
    · cases w with
      | nil => exact absurd rfl hw.ne_nil
      | cons d w => exact pieces_cons_cons hc (IsWord.cons_iff.mp hw).1 (ih hw)

/-- Words that are joined with underscores can be told apart again. -/
theorem pieces_intercalate (h : ∀ w ∈ ws, IsWord w) : pieces (['_'].intercalate ws) = ws := by
  induction ws with
  | nil => rfl
  | cons w ws ih =>
    obtain ⟨hw, hws⟩ := List.forall_mem_cons.mp h
    cases ws with
    | nil => rw [List.intercalate_singleton, pieces_word hw]
    | cons v ws =>
      rw [List.intercalate_cons_cons, List.append_assoc, List.singleton_append,
        pieces_word_append hw, ih hws]

/-- The words of a name can be read off its snake case. -/
theorem words_eq_pieces (s : String) : words s = pieces (snakeCase s).toList := by
  rw [snakeCase, String.toList_ofList, pieces_intercalate fun _ => isWord_of_mem_words]

/-- No underscore stands at an end or next to another one. -/
structure Separated (l : List Char) : Prop where
  start : ¬['_'] <+: l
  finish : ¬['_'] <:+ l
  inside : ¬['_', '_'] <:+: l

theorem IsWord.separated (h : IsWord w) : Separated w where
  start hp := h.plain (hp.subset (by simp))
  finish hp := h.plain (hp.subset (by simp))
  inside hp := h.plain (hp.subset (by simp))

theorem Separated.append (h : Separated l) (hw : IsWord w) (hl : l ≠ []) :
    Separated (w ++ '_' :: l) where
  start hp := by
    cases w with
    | nil => exact hw.ne_nil rfl
    | cons c w => exact (IsWord.cons_iff.mp hw).1 (List.cons_prefix_cons.mp hp).1.symm
  finish hp := by
    rw [List.singleton_suffix_iff_getLast?_eq_some, List.getLast?_append_of_ne_nil _ (by simp),
      List.getLast?_cons_of_ne_nil hl, ← List.singleton_suffix_iff_getLast?_eq_some] at hp
    exact h.finish hp
  inside hp := by
    have hrest : ¬['_', '_'] <:+: '_' :: l := fun hi =>
      (List.infix_cons_iff.mp hi).elim (fun hp => h.start (List.cons_prefix_cons.mp hp).2) h.inside
    induction w with
    | nil => exact hrest hp
    | cons c w ih =>
      obtain ⟨hc, hw'⟩ := IsWord.cons_iff.mp hw
      rcases List.infix_cons_iff.mp hp with hp | hp
      · exact hc (List.cons_prefix_cons.mp hp).1.symm
      · rcases hw' with rfl | hw'
        · exact hrest hp
        · exact ih hw' hp

theorem separated_intercalate (h : ∀ w ∈ ws, IsWord w) : Separated (['_'].intercalate ws) := by
  induction ws with
  | nil => exact ⟨by simp, by simp, by simp⟩
  | cons w ws ih =>
    obtain ⟨hw, hws⟩ := List.forall_mem_cons.mp h
    cases ws with
    | nil =>
      rw [List.intercalate_singleton]
      exact hw.separated
    | cons v ws =>
      rw [List.intercalate_cons_cons, List.append_assoc, List.singleton_append]
      refine (ih hws).append hw fun he => ?_
      have hpieces := pieces_intercalate hws
      rw [he] at hpieces
      cases hpieces

def IsNormal (c : Char) : Prop := c.isLower = true ∨ c.isDigit = true ∨ c = '_'

theorem isUpper_iff : c.isUpper = true ↔ 65 ≤ c.toNat ∧ c.toNat ≤ 90 :=
  decide_eq_true_iff.trans (and_congr UInt32.le_iff_toNat_le UInt32.le_iff_toNat_le)

theorem isLower_iff : c.isLower = true ↔ 97 ≤ c.toNat ∧ c.toNat ≤ 122 := by
  have hrange : c.isLower = (decide ('a'.val ≤ c.val) && decide (c.val ≤ 'z'.val)) := rfl
  rw [hrange, Bool.and_eq_true, decide_eq_true_iff, decide_eq_true_iff]
  exact and_congr UInt32.le_iff_toNat_le UInt32.le_iff_toNat_le

theorem isDigit_iff : c.isDigit = true ↔ 48 ≤ c.toNat ∧ c.toNat ≤ 57 := Char.isDigit_iff_toNat

theorem IsNormal.toNat_cases (h : IsNormal c) : 97 ≤ c.toNat ∧ c.toNat ≤ 122 ∨
    48 ≤ c.toNat ∧ c.toNat ≤ 57 ∨ c.toNat = 95 := by
  rcases h with h | h | rfl
  · exact .inl (isLower_iff.mp h)
  · exact .inr (.inl (isDigit_iff.mp h))
  · exact .inr (.inr rfl)

theorem isAscii_of_isNormal (h : IsNormal c) : isAscii c = true := by
  have hcode := h.toNat_cases
  rw [isAscii, decide_eq_true_eq]
  omega

theorem isUppercase_of_isNormal (h : IsNormal c) : isUppercase c = false := by
  have hcode := h.toNat_cases
  rw [isUppercase, if_pos (isAscii_of_isNormal h), ← Bool.not_eq_true, isUpper_iff]
  omega

theorem isAlphanumeric_iff (h : isAscii c = true) : isAlphanumeric c = true ↔
    c.isUpper = true ∨ c.isLower = true ∨ c.isDigit = true := by
  have hletter : c.isAlphanum = (c.isUpper || c.isLower || c.isDigit) := rfl
  rw [isAlphanumeric, if_pos h, hletter, Bool.or_eq_true, Bool.or_eq_true, or_assoc]

theorem isLower_of_mem_smallForm (h : isAscii c = true) (hu : isUppercase c = true) :
    ∀ d ∈ smallForm c, d.isLower = true := by
  rw [isUppercase, if_pos h] at hu
  have hrange := isUpper_iff.mp hu
  rw [smallForm, if_pos h, List.forall_mem_singleton, isLower_iff, toNat_toLower hu]
  omega

theorem marked_of_normal (h : ∀ c ∈ l, IsNormal c) (afterSmall : Bool) :
    marked afterSmall l = l := by
  induction l generalizing afterSmall with
  | nil => rfl
  | cons c rest ih =>
    obtain ⟨hc, hrest⟩ := List.forall_mem_cons.mp h
    rw [marked, isUppercase_of_isNormal hc, if_neg Bool.false_ne_true, ih hrest, ih hrest]
    by_cases ha : isAlphanumeric c
    · rw [if_pos ha]
    · have hsmall := mt (isAlphanumeric_iff (isAscii_of_isNormal hc)).mpr ha
      obtain rfl : c = '_' := by
        rcases hc with hc | hc | hc
        · exact absurd (.inr (.inl hc)) hsmall
        · exact absurd (.inr (.inr hc)) hsmall
        · exact hc
      rw [if_neg ha]
      rfl

/-- A capital is replaced by its small form, another letter or numeral is kept. -/
def LowersTo (c d : Char) : Prop :=
  isUppercase c = true ∧ d ∈ smallForm c ∨ isUppercase c = false ∧ isAlphanumeric c = true ∧ d = c

theorem mem_marked {afterSmall : Bool} (h : d ∈ marked afterSmall l) :
    d = '_' ∨ ∃ c ∈ l, LowersTo c d := by
  -- Where words end depends on what came before, the characters of the words do not.
  induction l generalizing afterSmall with
  | nil => cases h
  | cons c rest ih =>
    have hlater {after : Bool} (hd : d ∈ marked after rest) :
        d = '_' ∨ ∃ b ∈ c :: rest, LowersTo b d :=
      (ih hd).imp_right fun ⟨b, hb, hcase⟩ => ⟨b, List.mem_cons_of_mem _ hb, hcase⟩
    rw [marked] at h
    split at h
    case isTrue hupper =>
      rcases List.mem_append.mp h with h | h
      · rcases List.mem_append.mp h with h | h
        · split at h
          · exact .inl (List.mem_singleton.mp h)
          · cases h
        · exact .inr ⟨c, List.mem_cons_self, .inl ⟨hupper, h⟩⟩
      · exact hlater h
    case isFalse hupper =>
      split at h
      case isTrue hkept =>
        rcases List.mem_cons.mp h with rfl | h
        · exact .inr ⟨d, List.mem_cons_self, .inr ⟨Bool.eq_false_iff.mpr hupper, hkept, rfl⟩⟩
        · exact hlater h
      case isFalse =>
        split at h
        · exact (List.mem_cons.mp h).elim .inl hlater
        · exact hlater h

theorem exists_mem_marked {afterSmall : Bool} (hc : c ∈ l)
    (h : isAlphanumeric c = true ∨ isUppercase c = true) :
    ∃ d ∈ marked afterSmall l, d ≠ '_' := by
  induction l generalizing afterSmall with
  | nil => cases hc
  | cons b rest ih =>
    rw [marked]
    split
    case isTrue hupper =>
      have hb : b ≠ '_' := by
        rintro rfl
        exact absurd hupper (by decide)
      obtain ⟨d, ds, hd⟩ := List.exists_cons_of_ne_nil (smallForm_ne_nil b)
      refine ⟨d, by simp [hd], ?_⟩
      rintro rfl
      exact underscore_not_mem_smallForm hb (hd ▸ List.mem_cons_self)
    case isFalse hupper =>
      split
      case isTrue hkept =>
        refine ⟨b, List.mem_cons_self, ?_⟩
        rintro rfl
        exact absurd hkept (by decide)
      case isFalse hkept =>
        have hrest : c ∈ rest := (List.mem_cons.mp hc).resolve_left fun he =>
          (he ▸ h).elim hkept hupper
        split
        · obtain ⟨d, hd, hne⟩ := ih hrest
          exact ⟨d, List.mem_cons_of_mem _ hd, hne⟩
        · exact ih hrest

theorem isNormal_of_mem_marked (h : ∀ c ∈ l, isAscii c = true) {afterSmall : Bool}
    (hd : d ∈ marked afterSmall l) : IsNormal d := by
  rcases mem_marked hd with rfl | ⟨c, hc, ⟨hupper, hd⟩ | ⟨hupper, hkept, rfl⟩⟩
  · exact .inr (.inr rfl)
  · exact .inl (isLower_of_mem_smallForm (h c hc) hupper d hd)
  · rw [isUppercase, if_pos (h d hc)] at hupper
    rcases (isAlphanumeric_iff (h d hc)).mp hkept with hu | hl | hn
    · exact absurd hu (Bool.eq_false_iff.mp hupper)
    · exact .inl hl
    · exact .inr (.inl hn)

theorem separated_snakeCase (s : String) : Separated (snakeCase s).toList := by
  rw [snakeCase, String.toList_ofList]
  exact separated_intercalate fun _ => isWord_of_mem_words

theorem mem_intercalate {sep : List Char} (h : c ∈ sep.intercalate ws) :
    c ∈ sep ∨ ∃ w ∈ ws, c ∈ w := by
  induction ws with
  | nil => cases h
  | cons w ws ih =>
    cases ws with
    | nil => exact .inr ⟨w, List.mem_singleton_self w, by simpa using h⟩
    | cons v ws =>
      rw [List.intercalate_cons_cons] at h
      rcases List.mem_append.mp h with h | h
      · rcases List.mem_append.mp h with h | h
        · exact .inr ⟨w, List.mem_cons_self, h⟩
        · exact .inl h
      · exact (ih h).imp_right fun ⟨w, hw, hc⟩ => ⟨w, List.mem_cons_of_mem _ hw, hc⟩

theorem isNormal_of_mem_snakeCase (h : ∀ c ∈ s.toList, isAscii c = true)
    (hc : c ∈ (snakeCase s).toList) : IsNormal c := by
  rw [snakeCase, String.toList_ofList] at hc
  rcases mem_intercalate hc with hc | ⟨w, hw, hc⟩
  · exact .inr (.inr (List.mem_singleton.mp hc))
  · exact isNormal_of_mem_marked h (mem_of_mem_pieces hw hc)

theorem words_snakeCase (h : ∀ c ∈ s.toList, isAscii c = true) :
    words (snakeCase s) = words s := by
  rw [words, marked_of_normal fun _ => isNormal_of_mem_snakeCase h, words_eq_pieces]

theorem properCase_congr (h : snakeCase s = snakeCase t) : properCase s = properCase t := by
  rw [properCase, properCase, words_eq_pieces, words_eq_pieces, h]

theorem capitalised_ne_nil (h : w ≠ []) : capitalised w ≠ [] := by
  cases w with
  | nil => exact absurd rfl h
  | cons c rest => exact fun he => capitalForm_ne_nil c (List.append_eq_nil_iff.mp he).1

theorem properCase_eq_empty_iff : properCase s = "" ↔ words s = [] := by
  rw [properCase, String.ofList_eq_empty_iff, List.flatMap_eq_nil_iff]
  refine ⟨fun h => List.eq_nil_iff_forall_not_mem.mpr fun w hw => ?_, fun h => by simp [h]⟩
  exact capitalised_ne_nil (isWord_of_mem_words hw).ne_nil (h w hw)

theorem words_eq_nil_iff : words s = [] ↔
    ∀ c ∈ s.toList, isAlphanumeric c = false ∧ isUppercase c = false := by
  rw [words, pieces_eq_nil_iff]
  constructor
  · intro h c hc
    have hnone : ¬(isAlphanumeric c = true ∨ isUppercase c = true) := fun hcase => by
      obtain ⟨d, hd, hne⟩ := exists_mem_marked hc hcase
      exact hne (h d hd)
    simpa using hnone
  · intro h d hd
    rcases mem_marked hd with rfl | ⟨c, hc, ⟨hupper, -⟩ | ⟨-, hkept, -⟩⟩
    · rfl
    · exact absurd hupper (Bool.eq_false_iff.mp (h c hc).2)
    · exact absurd hkept (Bool.eq_false_iff.mp (h c hc).1)

theorem nested_congr (h : snakeCase s = snakeCase t) (parent : String) :
    nested parent s = nested parent t := by
  rw [nested, nested, properCase_congr h]

theorem symbolFor_of_free {used : List String} (hne : properCase s ≠ "")
    (hfree : properCase s ∉ used) : symbolFor used s = properCase s := by
  have hfirst : (properCase s).isEmpty = false := by simpa using hne
  simp [symbolFor, hfirst, hfree]

theorem symbolFor_congr {used : List String} (h : snakeCase s = snakeCase t)
    (hne : properCase s ≠ "") (hfree : properCase s ∉ used) :
    symbolFor used s = symbolFor used t := by
  have hproper := properCase_congr h
  rw [symbolFor_of_free hne hfree, symbolFor_of_free (hproper ▸ hne) (hproper ▸ hfree), hproper]

/-- Snake case never has an underscore at an end or beside another. An ASCII name has only small
letters, digits and underscores in its snake case, and the same snake case and proper case as
its snake case has. Names with one snake case have one proper case, so they name the same nested
types, and as values of an enum they get the same symbol wherever that is made from the proper
case. The proper case is empty just when the name has neither a letter or numeral nor a
capital. -/
theorem snakeCase_normalizes (s : String) :
    Separated (snakeCase s).toList ∧
    ((∀ c ∈ s.toList, isAscii c = true) →
      (∀ c ∈ (snakeCase s).toList, c.isLower = true ∨ c.isDigit = true ∨ c = '_') ∧
      snakeCase (snakeCase s) = snakeCase s ∧ properCase (snakeCase s) = properCase s) ∧
    (∀ t, snakeCase s = snakeCase t → properCase s = properCase t ∧
      (∀ parent, nested parent s = nested parent t) ∧
      ∀ used, properCase s ≠ "" → properCase s ∉ used → symbolFor used s = symbolFor used t) ∧
    (properCase s = "" ↔ ¬∃ c ∈ s.toList, isAlphanumeric c = true ∨ isUppercase c = true) := by
  refine ⟨separated_snakeCase s, fun h => ⟨fun c => isNormal_of_mem_snakeCase h, ?_, ?_⟩,
    fun t h => ⟨properCase_congr h, nested_congr h, fun used => symbolFor_congr h⟩, ?_⟩
  · rw [snakeCase, words_snakeCase h, snakeCase]
  · rw [properCase, words_snakeCase h, properCase]
  · rw [properCase_eq_empty_iff, words_eq_nil_iff]
    simp only [not_exists, not_and, not_or, Bool.not_eq_true]

/-- Two spellings of one name, with a run of capitals and punctuation that is dropped. -/
theorem snakeCase_normalizes_spellings :
    snakeCase "get (HTTP)-Ok2" = "get_http_ok2" ∧
    snakeCase (snakeCase "get (HTTP)-Ok2") = "get_http_ok2" ∧
    properCase (snakeCase "get (HTTP)-Ok2") = "GetHttpOk2" ∧
    nested "Client" "get (HTTP)-Ok2" = nested "Client" "getHTTP.ok2" ∧
    symbolFor ["Get"] "get (HTTP)-Ok2" = symbolFor ["Get"] "getHTTP.ok2" := by
  have hsnake : snakeCase "get (HTTP)-Ok2" = "get_http_ok2" := by decide +kernel
  have hother : snakeCase "getHTTP.ok2" = "get_http_ok2" := by decide +kernel
  have hproper : properCase "get (HTTP)-Ok2" = "GetHttpOk2" := by decide +kernel
  have hletters : "get (HTTP)-Ok2".toList.all isAscii = true := by decide +kernel
  obtain ⟨-, hascii, hsame, -⟩ := snakeCase_normalizes "get (HTTP)-Ok2"
  obtain ⟨-, hagain, hkept⟩ := hascii (List.all_eq_true.mp hletters)
  obtain ⟨-, hnested, hsymbol⟩ := hsame "getHTTP.ok2" (hsnake.trans hother.symm)
  exact ⟨hsnake, hagain.trans hsnake, hkept.trans hproper, hnested "Client",
    hsymbol ["Get"] (by rw [hproper]; decide) (by rw [hproper]; decide)⟩

end ApiModel.Naming
