import ApiModel.Text.LetterTable

/-! # Letters

Letter classes and case maps of single characters. ASCII is decided directly, everything else
by the letter tables. A case map may answer with several characters.
-/

namespace ApiModel.Text

def inTableB (table : List CodeRange) (n : Nat) : Bool :=
  table.any (·.containsB n)

def isAscii (c : Char) : Bool := c.toNat < 128

def isUppercase (c : Char) : Bool :=
  if isAscii c then c.isUpper else inTableB LetterTable.uppercase c.toNat

def isLowercase (c : Char) : Bool :=
  if isAscii c then c.isLower else inTableB LetterTable.lowercase c.toNat

def isAlphabetic (c : Char) : Bool :=
  if isAscii c then c.isAlpha else inTableB LetterTable.alphabetic c.toNat

def isAlphanumeric (c : Char) : Bool :=
  if isAscii c then c.isAlphanum
  else isAlphabetic c || inTableB LetterTable.numeric c.toNat

/-- Letters that take part in case: capital, small and titlecase ones. -/
def isCased (c : Char) : Bool :=
  if isAscii c then c.isAlpha
  else inTableB LetterTable.uppercase c.toNat || inTableB LetterTable.lowercase c.toNat ||
    inTableB LetterTable.titlecase c.toNat

/-- Marks and punctuation that case rules look through. -/
def isCaseIgnorable (c : Char) : Bool :=
  if isAscii c then c ∈ ['\'', '.', ':', '^', '\x60']
  else inTableB LetterTable.caseIgnorable c.toNat

/-- White space in the sense of the property White_Space. -/
def isBlank (c : Char) : Bool :=
  (0x09 ≤ c.toNat && c.toNat ≤ 0x0D) ||
  c.toNat ∈ [0x20, 0x85, 0xA0, 0x1680, 0x2028, 0x2029, 0x202F, 0x205F, 0x3000] ||
  (0x2000 ≤ c.toNat && c.toNat ≤ 0x200A)

def isPrintable (c : Char) : Bool :=
  if isAscii c then 32 ≤ c.toNat && c.toNat < 127
  else !inTableB LetterTable.unprintable c.toNat

private def shifted (table : List CaseShift) (c : Char) : Char :=
  match table.find? (·.range.containsB c.toNat) with
  | some shift => Char.ofNat (c.toNat + shift.distance).toNat
  | none => c

private def several (table : List (Nat × List Nat)) (c : Char) : Option (List Char) :=
  (table.lookup c.toNat).map (·.map Char.ofNat)

def smallForm (c : Char) : List Char :=
  if isAscii c then [c.toLower]
  else (several LetterTable.toSmallSeveral c).getD [shifted LetterTable.toSmall c]

def capitalForm (c : Char) : List Char :=
  if isAscii c then [c.toUpper]
  else (several LetterTable.toCapitalSeveral c).getD [shifted LetterTable.toCapital c]

private theorem several_ne_nil {table : List (Nat × List Nat)} (h : ∀ e ∈ table, e.2 ≠ [])
    {c : Char} {cs : List Char} (hc : several table c = some cs) : cs ≠ [] := by
  obtain ⟨codes, hl, rfl⟩ := Option.map_eq_some_iff.mp hc
  obtain ⟨before, after, rfl, -⟩ := List.lookup_eq_some_iff.mp hl
  simpa using h (c.toNat, codes) (by simp)

theorem smallForm_ne_nil (c : Char) : smallForm c ≠ [] := by
  unfold smallForm
  split
  · exact List.cons_ne_nil _ _
  · cases h : several LetterTable.toSmallSeveral c with
    | none => exact List.cons_ne_nil _ _
    | some cs => exact several_ne_nil (by decide) h

private theorem toNat_ofNat (n : Nat) :
    (Char.ofNat n).toNat = if n.isValidChar then n else 0 := by
  by_cases h : n.isValidChar
  · have hchar : Char.ofNat n = Char.ofNatAux n h := dif_pos h
    rw [if_pos h, hchar]
    rfl
  · have hchar : Char.ofNat n = '\x00' := dif_neg h
    rw [if_neg h, hchar]
    rfl

private theorem shifted_toSmall_ne {c : Char} (h : c ≠ '_') :
    shifted LetterTable.toSmall c ≠ '_' := by
  have htable : ∀ shift ∈ LetterTable.toSmall, 95 < shift.range.first + shift.distance := by
    decide +kernel
  unfold shifted
  split
  · rename_i shift hf
    have hdistance := htable shift (List.mem_of_find?_eq_some hf)
    have hrange := List.find?_some hf
    simp only [CodeRange.containsB, Bool.and_eq_true, decide_eq_true_eq] at hrange
    intro he
    have hcode : (Char.ofNat (c.toNat + shift.distance).toNat).toNat = 95 := congrArg Char.toNat he
    rw [toNat_ofNat] at hcode
    split at hcode <;> omega
  · exact h

theorem toNat_toLower {c : Char} (h : c.isUpper = true) : c.toLower.toNat = c.toNat + 32 := by
  have hu : c.val ≥ 'A'.val ∧ c.val ≤ 'Z'.val := of_decide_eq_true h
  have hbound : c.toNat ≤ 90 := UInt32.le_iff_toNat_le.mp hu.2
  have hlower : c.toLower = _ := dif_pos hu
  rw [hlower, Char.toNat_mk, UInt32.toNat_add]
  show (c.toNat + 32) % 2 ^ 32 = _
  omega

theorem underscore_not_mem_smallForm {c : Char} (h : c ≠ '_') : '_' ∉ smallForm c := by
  unfold smallForm
  split
  · rw [List.mem_singleton]
    intro he
    by_cases hu : c.isUpper = true
    · have hcode : c.toNat + 32 = 95 := toNat_toLower hu ▸ congrArg Char.toNat he.symm
      have hleast : 65 ≤ c.toNat := UInt32.le_iff_toNat_le.mp (of_decide_eq_true hu).1
      omega
    · have hlower : c.toLower = c := dif_neg (mt decide_eq_true hu)
      exact h (he.trans hlower).symm
  · cases hs : several LetterTable.toSmallSeveral c with
    | none => exact fun hm => shifted_toSmall_ne h (List.mem_singleton.mp hm).symm
    | some cs =>
      have htable : ∀ e ∈ LetterTable.toSmallSeveral, '_' ∉ e.2.map Char.ofNat := by decide
      obtain ⟨codes, hl, rfl⟩ := Option.map_eq_some_iff.mp hs
      obtain ⟨before, after, hl, -⟩ := List.lookup_eq_some_iff.mp hl
      exact htable (c.toNat, codes) (by simp [hl])

theorem capitalForm_ne_nil (c : Char) : capitalForm c ≠ [] := by
  unfold capitalForm
  split
  · exact List.cons_ne_nil _ _
  · cases h : several LetterTable.toCapitalSeveral c with
    | none => exact List.cons_ne_nil _ _
    | some cs => exact several_ne_nil (by decide) h

def isBlankText (s : String) : Bool :=
  s.toList.all isBlank

end ApiModel.Text
