import ApiModel.Proofs.NamedEnums
import ApiModel.Proofs.Pointers
import Mathlib.Data.List.Induction
import Mathlib.Data.List.Nodup
import Mathlib.Data.List.Perm.Subperm

/-! # Symbols of enums

The symbols that a value can get follow one another without end, and its symbol is the first of
them that no earlier value has. As many values as there are, they use up only so many of the
numbered symbols, so the search for a free one ends.
-/

namespace ApiModel.Resolution

namespace Enumeration

open Naming (properCase)

variable {pointer : Pointer} {used : List String} {wire s s' : String} {values : List EnumValue}
  {wires : List String}

/-- The value itself, then the value with a number from two up. -/
def numbered (wire : String) : Nat → String
  | 0 => wire
  | k + 1 => wire ++ toString (k + 2)

/-- The symbols that a value can get, in the order in which they are tried: the proper-cased value
unless it is empty, and the numbered ones. -/
def candidate (wire : String) : Nat → String :=
  if properCase wire = "" then numbered wire
  else fun
    | 0 => properCase wire
    | k + 1 => numbered wire k

theorem candidate_of_empty (h : properCase wire = "") : candidate wire = numbered wire := if_pos h

theorem candidate_zero (h : properCase wire ≠ "") : candidate wire 0 = properCase wire := by
  rw [candidate, if_neg h]

theorem candidate_succ (h : properCase wire ≠ "") (k : Nat) :
    candidate wire (k + 1) = numbered wire k := by
  rw [candidate, if_neg h]

theorem toString_ne_empty (n : Nat) : toString n ≠ "" := by
  intro h
  have hlen := congrArg String.length h
  simp at hlen

theorem numbered_injective (wire : String) : Function.Injective (numbered wire) := by
  have hnew (k : Nat) : wire ≠ wire ++ toString (k + 2) := fun h =>
    toString_ne_empty (k + 2) ((String.append_right_inj wire).mp (String.append_empty.trans h)).symm
  intro m n h
  cases m with
  | zero =>
    cases n with
    | zero => rfl
    | succ k => exact absurd h (hnew k)
  | succ j =>
    cases n with
    | zero => exact absurd h.symm (hnew j)
    | succ k =>
      have hnumber := toString_injective ((String.append_right_inj wire).mp h)
      omega

theorem exists_numbered_free (used : List String) (wire : String) :
    ∃ n ≤ used.length, numbered wire n ∉ used := by
  by_contra hall
  push Not at hall
  have hsubset : (List.range (used.length + 1)).map (numbered wire) ⊆ used := by
    intro symbol hm
    obtain ⟨n, hn, rfl⟩ := List.mem_map.mp hm
    exact hall n (Nat.lt_succ_iff.mp (List.mem_range.mp hn))
  have hnodup : ((List.range (used.length + 1)).map (numbered wire)).Nodup :=
    List.nodup_range.map (numbered_injective wire)
  have hlength := (hnodup.subperm hsubset).length_le
  simp at hlength

theorem exists_candidate_free (used : List String) (wire : String) :
    ∃ n ≤ used.length + 1, candidate wire n ∉ used := by
  obtain ⟨n, hn, hfree⟩ := exists_numbered_free used wire
  by_cases hempty : properCase wire = ""
  · exact ⟨n, hn.trans (Nat.le_succ _), candidate_of_empty hempty ▸ hfree⟩
  · exact ⟨n + 1, Nat.succ_le_succ hn, candidate_succ hempty n ▸ hfree⟩

/-- The symbol is the first one of a sequence that is not in use. -/
def FirstFree (used : List String) (symbols : Nat → String) (s : String) : Prop :=
  ∃ n, symbols n = s ∧ s ∉ used ∧ ∀ k < n, symbols k ∈ used

theorem FirstFree.not_mem {symbols : Nat → String} (h : FirstFree used symbols s) : s ∉ used := by
  obtain ⟨-, -, hfree, -⟩ := h
  exact hfree

theorem FirstFree.unique {symbols : Nat → String} (h : FirstFree used symbols s)
    (h' : FirstFree used symbols s') : s = s' := by
  obtain ⟨n, rfl, hfree, hbefore⟩ := h
  obtain ⟨n', rfl, hfree', hbefore'⟩ := h'
  rcases Nat.lt_trichotomy n n' with hlt | rfl | hlt
  · exact absurd (hbefore' n hlt) hfree
  · rfl
  · exact absurd (hbefore n' hlt) hfree'

theorem terms_succ {α : Type} (f : Nat → α) (n : Nat) :
    (List.range (n + 1)).map f = f 0 :: (List.range n).map (f ∘ Nat.succ) := by
  refine List.ext_getElem (by simp) fun i _ _ => ?_
  cases i <;> simp

theorem fallbacks_eq (wire : String) (n : Nat) :
    fallbacks wire n = (List.range (n + 2)).map (numbered wire) :=
  (terms_succ (numbered wire) (n + 1)).symm

/-- The symbols that are tried are the first ones of the candidates, and enough of them. -/
theorem exists_tried_eq (wire : String) (n : Nat) : ∃ m, n + 1 < m ∧
    (if (properCase wire).isEmpty then [] else [properCase wire]) ++ fallbacks wire n =
      (List.range m).map (candidate wire) := by
  rw [fallbacks_eq]
  by_cases hempty : properCase wire = ""
  · refine ⟨n + 2, by omega, ?_⟩
    rw [candidate_of_empty hempty, hempty]
    rfl
  · refine ⟨n + 3, by omega, ?_⟩
    have hfirst : (properCase wire).isEmpty = false := by simpa using hempty
    have hrest : candidate wire ∘ Nat.succ = numbered wire := funext (candidate_succ hempty)
    rw [terms_succ (candidate wire), hrest, candidate_zero hempty, hfirst,
      if_neg Bool.false_ne_true]
    rfl

theorem symbolFor_firstFree (used : List String) (wire : String) :
    FirstFree used (candidate wire) (symbolFor used wire) := by
  obtain ⟨m, hm, htried⟩ := exists_tried_eq wire used.length
  obtain ⟨n, hn, hfree⟩ := exists_candidate_free used wire
  unfold symbolFor
  simp only [htried, List.find?_map]
  cases hf : (List.range m).find? ((fun s => !used.contains s) ∘ candidate wire) with
  | none =>
    have hnone := List.find?_eq_none.mp hf n (List.mem_range.mpr (by omega))
    exact absurd hfree (by simpa using hnone)
  | some k =>
    obtain ⟨hk, -, hbefore⟩ := List.find?_range_eq_some.mp hf
    rw [Option.map_some, Option.getD_some]
    exact ⟨k, rfl, by simpa using hk, fun j hj => by simpa using hbefore j hj⟩

/-- The symbol of a value is the first of its candidates that is not in use, and nothing else is. -/
theorem symbolFor_eq_iff : symbolFor used wire = s ↔ FirstFree used (candidate wire) s := by
  constructor
  · rintro rfl
    exact symbolFor_firstFree used wire
  · exact (symbolFor_firstFree used wire).unique

/-- Each value has the first of its candidates that no earlier value has. -/
def Symbolized (values : List EnumValue) : Prop :=
  ∀ before v after, values = before ++ v :: after →
    FirstFree (before.map (·.symbol)) (candidate v.wire) v.symbol

theorem Symbolized.addValue (h : Symbolized values) (wire : String) :
    Symbolized (addValue values wire) := by
  intro before v after heq
  rw [Enumeration.addValue] at heq
  rcases List.eq_nil_or_concat after with rfl | ⟨after, last, rfl⟩
  · obtain ⟨rfl, rfl⟩ := List.append_singleton_inj.mp heq
    dsimp only
    exact symbolFor_firstFree _ wire
  · rw [List.concat_eq_append, ← List.cons_append, ← List.append_assoc] at heq
    exact h before v after (List.append_singleton_inj.mp heq).1

theorem Symbolized.foldl (h : Symbolized values) (wires : List String) :
    Symbolized (wires.foldl Enumeration.addValue values) := by
  induction wires generalizing values with
  | nil => exact h
  | cons wire rest ih => exact ih (h.addValue wire)

theorem symbolized_valuesOf (wires : List String) : Symbolized (valuesOf wires) := by
  have hnil : Symbolized [] := fun before v after h => by simp at h
  exact hnil.foldl wires

theorem Symbolized.of_append {values' : List EnumValue} (h : Symbolized (values ++ values')) :
    Symbolized values := fun before v after heq =>
  h before v (after ++ values') (by rw [heq, List.append_assoc, List.cons_append])

theorem Symbolized.nodup (h : Symbolized values) : (values.map (·.symbol)).Nodup := by
  induction values using List.reverseRecOn with
  | nil => exact List.nodup_nil
  | append_singleton values v ih =>
    have hnew := (h values v [] rfl).not_mem
    rw [List.map_append, List.map_singleton]
    exact (ih h.of_append).append (List.nodup_singleton _) (by simpa using hnew)

theorem exists_valuesFrom_iff {listed : List Json} :
    (∃ values, valuesFrom pointer [] listed = .ok values) ↔
      ∃ wires : List String, listed = wires.map .str ∧ wires.Nodup := by
  constructor
  · rintro ⟨values, h⟩
    obtain ⟨wires, hlisted, hnodup, -⟩ := valuesFrom_eq_ok_iff.mp h
    exact ⟨wires, hlisted, hnodup⟩
  · rintro ⟨wires, hlisted, hnodup⟩
    exact ⟨_, valuesFrom_eq_ok_iff.mpr ⟨wires, hlisted, hnodup, rfl⟩⟩

end Enumeration

open Enumeration

variable {settings : Settings} {site : Site} {listed : List Json} {values : List EnumValue}
  {s t : State}

theorem buildEnum_of_fault {fault : SchemaFault}
    (h : valuesFrom site.pointer [] listed = .error fault) :
    buildEnum settings site listed s = fail (.schema site.owner fault) s := by
  rw [buildEnum, h]

theorem buildEnum_unnamed (hv : valuesFrom site.pointer [] listed = .ok values)
    (hx : site.schema.extension? settings.enumExtension = none) :
    buildEnum settings site listed s = (some (.enum ⟨s.catalog.enums.length⟩),
      s.withEnum ⟨none, values, true, site.pointer.text⟩) := by
  rw [buildEnum, hv]
  dsimp only
  rw [hx]
  rfl

theorem values_of_buildEnum (hv : valuesFrom site.pointer [] listed = .ok values) {id : EnumId}
    {e : EnumType} (h : buildEnum settings site listed s = (some (.enum id), t))
    (he : t.catalog.enum? id = some e) : e.values = values := by
  obtain ⟨d, hb⟩ | ⟨values', hv', hcase⟩ := buildEnum_cases settings site listed s
  · rw [hb] at h
    cases h
  obtain rfl := Except.ok.inj (hv.symm.trans hv')
  obtain ⟨-, hb⟩ | ⟨extension, -, ⟨-, hb⟩ | ⟨id', -, hold, hb⟩⟩ := hcase
  · rw [hb] at h
    cases h
    cases (Catalog.enum?_addEnum_self _ _).symm.trans he
    rfl
  · rw [hb] at h
    cases h
    cases (Catalog.enum?_addEnum_self _ _).symm.trans he
    rfl
  · rw [hb] at h
    cases h
    exact hold e he

/-- The search for a symbol ends for every value, with the first candidate that is not in use. The
values of an enum are formed just when the list has texts only, and no text twice; building the
enum fails with what is wrong otherwise. There is one value per text then, in the same order, the
symbols differ, each is the first candidate that no earlier value has, and an enum that is built
holds these values. -/
theorem buildEnum_symbols (settings : Settings) (site : Site) (listed : List Json) (s : State) :
    (∀ used wire symbol,
      symbolFor used wire = symbol ↔ FirstFree used (candidate wire) symbol) ∧
    ((∃ values, valuesFrom site.pointer [] listed = .ok values) ↔
      ∃ wires : List String, listed = wires.map .str ∧ wires.Nodup) ∧
    (∀ fault, valuesFrom site.pointer [] listed = .error fault →
      buildEnum settings site listed s = fail (.schema site.owner fault) s) ∧
    ∀ values, valuesFrom site.pointer [] listed = .ok values →
      (values.map (·.wire)).map .str = listed ∧
      (values.map (·.symbol)).Nodup ∧
      (∀ before v after, values = before ++ v :: after →
        FirstFree (before.map (·.symbol)) (candidate v.wire) v.symbol) ∧
      (site.schema.extension? settings.enumExtension = none →
        ∃ id t, buildEnum settings site listed s = (some (.enum id), t)) ∧
      ∀ id t e, buildEnum settings site listed s = (some (.enum id), t) →
        t.catalog.enum? id = some e → e.values = values := by
  refine ⟨fun used wire symbol => symbolFor_eq_iff, exists_valuesFrom_iff,
    fun fault => buildEnum_of_fault, fun values hv => ?_⟩
  obtain ⟨wires, rfl, -, rfl⟩ := valuesFrom_eq_ok_iff.mp hv
  exact ⟨congrArg _ (map_wire_valuesOf wires), (symbolized_valuesOf wires).nodup,
    symbolized_valuesOf wires, fun hx => ⟨_, _, buildEnum_unnamed hv hx⟩,
    fun id t e => values_of_buildEnum hv⟩

/-- A value whose proper case and whose text are taken, and one that has no proper case. -/
theorem buildEnum_symbols_taken :
    (valuesOf ["x", "X", "-"]).map (·.symbol) = ["X", "X2", "-"] ∧
    ((valuesOf ["x", "X", "-"]).map (·.symbol)).Nodup ∧
    FirstFree ["X"] (candidate "X") "X2" ∧
    ∃ id t, buildEnum {} ⟨{}, "Axis", ⟨["Axis"]⟩, "Axis"⟩ [.str "x", .str "X", .str "-"] {} =
      (some (.enum id), t) := by
  have hv : valuesOf ["x", "X", "-"] = [⟨"X", "x"⟩, ⟨"X2", "X"⟩, ⟨"-", "-"⟩] := by decide +kernel
  obtain ⟨-, hformed, -, hvalues⟩ := buildEnum_symbols {} ⟨{}, "Axis", ⟨["Axis"]⟩, "Axis"⟩
    [.str "x", .str "X", .str "-"] {}
  obtain ⟨values, hf⟩ := hformed.mpr ⟨["x", "X", "-"], rfl, by decide⟩
  obtain ⟨-, hnodup, hfirst, hanswers, -⟩ := hvalues values hf
  obtain rfl : values = valuesOf ["x", "X", "-"] :=
    Except.ok.inj (hf.symm.trans (valuesFrom_eq_ok_iff.mpr ⟨_, rfl, by decide, rfl⟩))
  have hsecond := hfirst [⟨"X", "x"⟩] ⟨"X2", "X"⟩ [⟨"-", "-"⟩] hv
  exact ⟨by rw [hv]; rfl, hnodup, hsecond, hanswers rfl⟩

end ApiModel.Resolution
