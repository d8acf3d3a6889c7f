import ApiModel.Proofs.Naming
import Mathlib.Data.List.DropRight

/-! # Snake case in two passes

Snake case can be written in two passes over the characters of a name, each of which carries one
flag. The first pass writes small letters with an underscore at every boundary, the second one
drops underscores that follow another, and what is left at the ends is cut off.
-/

namespace ApiModel.Naming

open Text

variable {c : Char} {b l m w : List Char} {ws : List (List Char)}

/-- A round of the first pass: what is written, and whether a small letter or a digit came last. -/
def write (p : List Char × Bool) (c : Char) : List Char × Bool :=
  if isUppercase c then (p.1 ++ (if p.2 then ['_'] else []) ++ smallForm c, false)
  else if isAlphanumeric c then (p.1 ++ [c], isLowercase c || c.isDigit)
  else if isSeparator c then
    (if p.1 = [] ∨ p.1.getLast? = some '_' then p.1 else p.1 ++ ['_'], false)
  else p

/-- A round of the second pass: what is kept, and whether an underscore came last. -/
def keep (p : List Char × Bool) (c : Char) : List Char × Bool :=
  if c = '_' then (if p.2 || p.1.isEmpty then p.1 else p.1 ++ ['_'], true)
  else (p.1 ++ [c], false)

def trimmed (l : List Char) : List Char := (l.dropWhile (· = '_')).rdropWhile (· = '_')

theorem pieces_append_underscore (b l : List Char) :
    pieces (b ++ '_' :: l) = pieces b ++ pieces l := by
  induction b with
  | nil => simp [pieces]
  | cons c b ih =>
    by_cases hc : c = '_'
    · subst hc
      simpa using ih
    · cases b with
      | nil => simp [pieces_singleton hc, pieces_cons_underscore hc]
      | cons d b =>
        by_cases hd : d = '_'
        · subst hd
          simp only [List.cons_append, pieces_cons_underscore hc, pieces_underscore] at ih ⊢
          rw [ih]
        · obtain ⟨p, ps, hp⟩ : ∃ p ps, pieces (d :: b) = p :: ps :=
            List.exists_cons_of_ne_nil fun h => hd (pieces_eq_nil_iff.mp h d List.mem_cons_self)
          have hlong : pieces (d :: (b ++ '_' :: l)) = p :: (ps ++ pieces l) := by
            rw [← List.cons_append, ih, hp, List.cons_append]
          simp only [List.cons_append, pieces_cons_cons hc hd hp, pieces_cons_cons hc hd hlong]

theorem pieces_skip (h : b = [] ∨ b.getLast? = some '_') (l : List Char) :
    pieces (b ++ '_' :: l) = pieces (b ++ l) := by
  obtain rfl | h := h
  · simp
  · obtain ⟨b, rfl⟩ := List.getLast?_eq_some_iff.mp h
    simp only [List.append_assoc, List.singleton_append, pieces_append_underscore,
      pieces_underscore]

theorem pieces_foldl_write (p : List Char × Bool) (l : List Char) :
    pieces (l.foldl write p).1 = pieces (p.1 ++ marked p.2 l) := by
  induction l generalizing p with
  | nil => simp [marked]
  | cons c l ih =>
    rw [List.foldl_cons, ih, marked, write]
    by_cases hupper : isUppercase c = true
    · simp [hupper]
    by_cases hletter : isAlphanumeric c = true
    · simp [hupper, hletter]
    by_cases hseparator : isSeparator c = true
    · by_cases hskip : p.1 = [] ∨ p.1.getLast? = some '_'
      · simpa [hupper, hletter, hseparator, hskip] using (pieces_skip hskip _).symm
      · simp [hupper, hletter, hseparator, hskip]
    · simp [hupper, hletter, hseparator]

/-- Words that are finished and one that may not be, as the second pass keeps them. -/
def kept (ws : List (List Char)) (w : List Char) : List Char := ws.flatMap (· ++ ['_']) ++ w

theorem kept_eq_intercalate (ws : List (List Char)) (w : List Char) :
    kept ws w = ['_'].intercalate (ws ++ [w]) := by
  induction ws with
  | nil => simp [kept]
  | cons v ws ih =>
    obtain ⟨u, us, hu⟩ := List.exists_cons_of_ne_nil (List.append_ne_nil_of_right_ne_nil ws
      (List.cons_ne_nil w []))
    rw [List.cons_append, hu, List.intercalate_cons_cons, ← hu, ← ih]
    simp [kept]

/-- The second pass finishes a word at an underscore and keeps the words of what it reads. -/
theorem exists_foldl_keep (l : List Char) (ws : List (List Char)) (flag : Bool) (hw : '_' ∉ w)
    (hflag : flag = true → w = []) (hstart : flag = false → w = [] → ws = []) :
    ∃ ws' w', (l.foldl keep (kept ws w, flag)).1 = kept ws' w' ∧ '_' ∉ w' ∧
      ws' ++ (if w' = [] then [] else [w']) = ws ++ pieces (w ++ l) := by
  induction l generalizing ws w flag with
  | nil =>
    refine ⟨ws, w, rfl, hw, ?_⟩
    split_ifs with hempty
    · simp [hempty, pieces]
    · rw [List.append_nil, pieces_word ⟨hempty, hw⟩]
  | cons c l ih =>
    rw [List.foldl_cons]
    by_cases hc : c = '_'
    · subst hc
      by_cases hempty : w = []
      · subst hempty
        have hround : keep (kept ws [], flag) '_' = (kept ws [], true) := by
          cases flag with
          | true => simp [keep]
          | false => simp [keep, hstart rfl rfl, kept]
        rw [hround, List.nil_append, pieces_underscore]
        exact ih ws true List.not_mem_nil (fun _ => rfl) (by simp)
      · obtain rfl : flag = false := Bool.eq_false_iff.mpr fun h => hempty (hflag h)
        have hround : keep (kept ws w, false) '_' = (kept (ws ++ [w]) [], true) := by
          simp [keep, kept, hempty]
        rw [hround, pieces_word_append ⟨hempty, hw⟩, List.append_cons ws w (pieces l)]
        exact ih (ws ++ [w]) true List.not_mem_nil (fun _ => rfl) (by simp)
    · have hround : keep (kept ws w, flag) c = (kept ws (w ++ [c]), false) := by
        simp [keep, kept, hc]
      have hplain : '_' ∉ w ++ [c] := by simpa [hw] using Ne.symm hc
      rw [hround, List.append_cons w c l]
      exact ih ws false hplain (by simp) (by simp)

theorem Separated.dropWhile_eq (h : Separated l) : l.dropWhile (· = '_') = l := by
  cases l with
  | nil => rfl
  | cons c l =>
    refine List.dropWhile_cons_of_neg fun hc => h.start ?_
    obtain rfl : c = '_' := by simpa using hc
    exact List.prefix_append ['_'] l

theorem Separated.trimmed_eq (h : Separated l) : trimmed l = l := by
  rw [trimmed, h.dropWhile_eq, List.rdropWhile_eq_self_iff]
  intro hne hlast
  refine h.finish (List.singleton_suffix_iff_getLast?_eq_some.mpr ?_)
  rw [List.getLast?_eq_some_getLast hne]
  simpa using hlast

theorem Separated.trimmed_concat (h : Separated l) (hne : l ≠ []) :
    trimmed (l ++ ['_']) = l := by
  obtain ⟨c, rest, rfl⟩ := List.exists_cons_of_ne_nil hne
  have hc : c ≠ '_' := by
    rintro rfl
    exact h.start (List.prefix_append ['_'] rest)
  have hrest := h.trimmed_eq
  rw [trimmed, h.dropWhile_eq] at hrest
  rw [trimmed, List.cons_append, List.dropWhile_cons_of_neg (by simpa using hc),
    ← List.cons_append, List.rdropWhile_concat_pos _ _ _ (by simp), hrest]

theorem trimmed_foldl_keep (l : List Char) :
    trimmed (l.foldl keep ([], false)).1 = ['_'].intercalate (pieces l) := by
  obtain ⟨ws, w, hkeep, -, hwords⟩ :=
    exists_foldl_keep l [] false List.not_mem_nil (fun _ => rfl) fun _ _ => rfl
  have hkeep : (l.foldl keep ([], false)).1 = kept ws w := hkeep
  have hpieces := (pieces_spec l).1
  rw [List.nil_append, List.nil_append] at hwords
  rw [hkeep]
  rw [← hwords] at hpieces ⊢
  by_cases hempty : w = []
  · subst hempty
    rw [if_pos rfl, List.append_nil] at hpieces ⊢
    obtain rfl | ⟨ws, w, rfl⟩ := List.eq_nil_or_concat' ws
    · rfl
    · have hlast : kept (ws ++ [w]) [] = kept ws w ++ ['_'] := by simp [kept]
      rw [hlast, kept_eq_intercalate]
      refine (separated_intercalate hpieces).trimmed_concat fun hnil => ?_
      have hnone := pieces_intercalate hpieces
      rw [hnil] at hnone
      exact List.append_ne_nil_of_right_ne_nil ws (List.cons_ne_nil w []) hnone.symm
  · rw [if_neg hempty] at hpieces ⊢
    rw [kept_eq_intercalate]
    exact (separated_intercalate hpieces).trimmed_eq

/-- Two passes put a name in snake case. -/
theorem snakeCase_eq_trimmed (s : String) : snakeCase s =
    String.ofList (trimmed ((s.toList.foldl write ([], false)).1.foldl keep ([], false)).1) := by
  rw [trimmed_foldl_keep, pieces_foldl_write, List.nil_append, snakeCase, words]

end ApiModel.Naming
