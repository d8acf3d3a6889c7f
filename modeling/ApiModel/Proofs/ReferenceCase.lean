import ApiModel.Grammars
import ApiModel.Proofs.Respelling
import ApiModel.Proofs.Reordering

/-! # Spelling does not matter

Where no two definitions have names that differ in case only, respelling references to definitions
does not change the model, but for one flag: a property whose schema refers to a definition that
lists one value is constant only if it spells the name exactly.
-/

namespace ApiModel

open Text (caseKey)
open Build

variable {flags : Bool} {f : String → String}

/-- The outcomes have the same model, but for what masks hide, or neither has one. -/
def Build.Outcome.SameMask (flags : Bool) (a b : Outcome) : Prop :=
  SameBy (Option.map (ClientModel.mask flags)) a.result.toOption b.result.toOption

namespace Resolution

variable {s t : State}

theorem Agree.conclude (h : Agree flags s t) (context : Context) (methods : List Method) :
    (Build.conclude context methods s).SameMask flags
      (Build.conclude { context with document := context.document.respell f } methods t) := by
  have hfound : (t.defects ++ Hierarchy.defects t.catalog).isEmpty =
      (s.defects ++ Hierarchy.defects s.catalog).isEmpty := by
    have hdefects := h.catalog.eq_of_mask _ Hierarchy.defects_mask
    rw [hdefects, Bool.eq_iff_iff]
    simp only [List.isEmpty_iff, List.append_eq_nil_iff, h.defects]
  have hsettled : (Hierarchy.settled t.catalog).mask flags =
      (Hierarchy.settled s.catalog).mask flags := by
    rw [← Hierarchy.settled_mask, h.catalog.mask_eq, Hierarchy.settled_mask]
  unfold Outcome.SameMask Build.conclude
  have hurl : baseUrl { context with document := context.document.respell f } =
      baseUrl context := rfl
  have hname : clientName { context with document := context.document.respell f } =
      clientName context := rfl
  dsimp only
  rw [hurl, hname]
  cases baseUrl context with
  | error defect =>
    dsimp only
    rw [if_neg (by simp), if_neg (by simp)]
    rfl
  | ok url =>
    dsimp only
    rw [hfound]
    split
    · refine congrArg some ?_
      simp only [ClientModel.mask, hsettled]
      rfl
    · rfl

end Resolution

namespace Document

variable {d e : Document} {settings : Settings} {grammars : Resolution.Grammars}

variable (settings grammars) in
theorem sameMask_respell (hn : Resolution.Neutral flags f d) :
    (run ⟨d, settings⟩).SameMask flags (run ⟨d.respell f, settings⟩) := by
  obtain ⟨methods, s, hs, hrun⟩ := Resolution.run_eq_conclude ⟨d, settings⟩
  obtain ⟨methods', t, ht, hrun'⟩ := Resolution.run_eq_conclude ⟨d.respell f, settings⟩
  have hstep := Resolution.Respells.resolveAll settings grammars hn {} {} (.refl {})
  rw [hs, ht] at hstep
  cases hstep with
  | some hstep =>
    obtain ⟨hmethods, hagree⟩ := hstep
    cases hmethods
    rw [hrun, hrun']
    exact hagree.conclude ⟨d, settings⟩ methods

theorem Respelled.sameMask {R : Setoid String} (h : d.Respelled R.r e)
    (hd : ∀ f, (∀ text, R.r text (f text)) → Resolution.Neutral flags f d)
    (he : ∀ f, (∀ text, R.r text (f text)) → Resolution.Neutral flags f e) :
    (run ⟨d, settings⟩).SameMask flags (run ⟨e, settings⟩) := by
  -- Every reference is respelled as one that stands for all those that are related to it.
  let f : String → String := fun text => (Quotient.mk R text).out
  have hf : ∀ text, R.r text (f text) := fun text => R.symm (Quotient.mk_out text)
  have heq : d.respell f = e.respell f :=
    h f fun text text' htext => congrArg Quotient.out (Quotient.sound htext)
  have hleft := sameMask_respell settings grammars (hd f hf)
  have hright := sameMask_respell settings grammars (he f hf)
  rw [← heq] at hright
  exact hright.symm.trans hleft

end Document

namespace Reference.SameUpToCase

variable {text text' other : String}

theorem symm (h : SameUpToCase text text') : SameUpToCase text' text := by
  obtain rfl | ⟨name, name', hp, hp', hk⟩ := h
  · exact .inl rfl
  · exact .inr ⟨name', name, hp', hp, hk.symm⟩

theorem trans (h : SameUpToCase text text') (h' : SameUpToCase text' other) :
    SameUpToCase text other := by
  obtain rfl | ⟨name, name', hp, hp', hk⟩ := h
  · exact h'
  · obtain ⟨last, hl, hk'⟩ := h'.definition hp'
    exact .inr ⟨name, last, hp, hl, hk.trans hk'⟩

end Reference.SameUpToCase

namespace Document

variable {d e : Document} {grammars : Resolution.Grammars} {text text' : String}

def leadsToOneValue (d : Document) (text : String) : Bool :=
  match Reference.parse? text with
  | some ⟨.definitions, name⟩ => (d.definition? name).any (·.2.listsOneValue)
  | _ => false

theorem leadsToOneValue_congr (hn : d.CaseDistinct) (h : Reference.SameUpToCase text text') :
    d.leadsToOneValue text = d.leadsToOneValue text' := by
  obtain rfl | ⟨name, name', hp, hp', hk⟩ := h
  · rfl
  · simp only [leadsToOneValue, hp, hp', hn.definition?_congr hk]

theorem leadsToOneValue_respell : (d.respell f).leadsToOneValue text = d.leadsToOneValue text := by
  unfold leadsToOneValue
  split
  · rw [definition?_respell, Option.any_map]
    simp only [Schema.listsOneValue_respell]
  · rfl

theorem allowsOneValue_eq {s : Schema} (hn : d.CaseDistinct)
    (h : ∀ text, s.reference = some text → d.leadsToOneValue text = false) :
    Resolution.allowsOneValue d s = s.listsOneValue := by
  unfold Resolution.allowsOneValue
  split
  · rename_i name hname
    obtain ⟨text, hs, hp⟩ := Option.bind_eq_some_iff.mp hname
    have hleads := h text hs
    rw [leadsToOneValue, hp] at hleads
    cases hg : Fields.get? d.definitions name with
    | none => simp
    | some found =>
      simp only [hn.definition?_iff.mpr ⟨hg, rfl⟩, Option.any_some] at hleads
      simp [hleads]
  · exact Bool.or_false _

/-- References that are the same up to case, and the same if they lead to one value only. -/
def SameConstants (d : Document) (text text' : String) : Prop :=
  Reference.SameUpToCase text text' ∧ (d.leadsToOneValue text = true → text = text')

theorem allowsOneValue_respell (hn : d.CaseDistinct) (hf : ∀ text, d.SameConstants text (f text))
    (s : Schema) :
    Resolution.allowsOneValue (d.respell f) (s.respell f) = Resolution.allowsOneValue d s := by
  by_cases hs : ∃ text, s.reference = some text ∧ f text ≠ text
  · obtain ⟨text, hs, hne⟩ := hs
    have hleads : d.leadsToOneValue text = false :=
      Bool.eq_false_iff.mpr fun hleads => hne ((hf text).2 hleads).symm
    have hleads' : d.leadsToOneValue (f text) = false :=
      leadsToOneValue_congr hn (hf text).1 ▸ hleads
    rw [allowsOneValue_eq hn, allowsOneValue_eq, Schema.listsOneValue_respell]
    · exact caseDistinct_respell.mpr hn
    · intro other hother
      rw [Schema.toKeywords_respell] at hother
      rw [leadsToOneValue_respell]
      rw [hs] at hother
      cases hother
      exact hleads'
    · intro other hother
      cases hs.symm.trans hother
      exact hleads
  · have hreference : s.reference.map f = s.reference := by
      cases hr : s.reference with
      | none => rfl
      | some text => exact congrArg some (not_not.mp fun hne => hs ⟨text, hr, hne⟩)
    unfold Resolution.allowsOneValue
    simp only [Schema.listsOneValue_respell, Schema.toKeywords_respell, hreference,
      get?_definitions_respell, Option.any_map]

theorem Respelled.caseDistinct {R : String → String → Prop} (h : d.Respelled R e)
    (hn : d.CaseDistinct) : e.CaseDistinct := by
  have heq := h (fun _ => "") fun _ _ _ => rfl
  rw [← caseDistinct_respell (f := fun _ => ""), ← heq]
  exact caseDistinct_respell.mpr hn

theorem Respelled.leadsToOneValue {R : String → String → Prop} (h : d.Respelled R e) :
    e.leadsToOneValue = d.leadsToOneValue := by
  funext text
  have heq := h (fun _ => "") fun _ _ _ => rfl
  rw [← leadsToOneValue_respell (d := e) (f := fun _ => ""), ← heq, leadsToOneValue_respell]

theorem SameConstants.equivalence (hn : d.CaseDistinct) : Equivalence d.SameConstants where
  refl _ := ⟨.inl rfl, fun _ => rfl⟩
  symm h := ⟨h.1.symm, fun hleads => (h.2 (leadsToOneValue_congr hn h.1 ▸ hleads)).symm⟩
  trans h h' := ⟨h.1.trans h'.1, fun hleads =>
    (h.2 hleads).trans (h'.2 (leadsToOneValue_congr hn h.1 ▸ hleads))⟩

theorem Respelled.sameMask_false {settings : Settings} (h : d.Respelled Reference.SameUpToCase e)
    (hn : d.CaseDistinct) : (run ⟨d, settings⟩).SameMask false (run ⟨e, settings⟩) := by
  have hequivalence : Equivalence Reference.SameUpToCase := ⟨fun _ => .inl rfl, .symm, .trans⟩
  exact sameMask (R := ⟨_, hequivalence⟩) h (fun f hf => ⟨hn, hf, nofun⟩)
    fun f hf => ⟨h.caseDistinct hn, hf, nofun⟩

theorem Respelled.sameMask_true {settings : Settings} (h : d.Respelled d.SameConstants e)
    (hn : d.CaseDistinct) : (run ⟨d, settings⟩).SameMask true (run ⟨e, settings⟩) := by
  refine sameMask (R := ⟨_, SameConstants.equivalence hn⟩) h
    (fun f hf => ⟨hn, fun text => (hf text).1, fun _ => allowsOneValue_respell hn hf⟩)
    fun f hf => ⟨h.caseDistinct hn, fun text => (hf text).1, fun _ =>
      allowsOneValue_respell (h.caseDistinct hn) fun text => ⟨(hf text).1, ?_⟩⟩
  rw [h.leadsToOneValue]
  exact (hf text).2

end Document

/-- Respelling references to definitions leaves everything of a model as it is but for which
properties are constant, and these too unless a reference is respelled that leads to a definition
with one value. -/
theorem run_respelled [Resolution.Grammars] (settings : Settings) {d e : Document} (hn : d.CaseDistinct)
    {m : ClientModel} (hm : (run ⟨d, settings⟩).result = .ok m) :
    (d.Respelled Reference.SameUpToCase e →
      ∃ m', (run ⟨e, settings⟩).result = .ok m' ∧ m'.mask false = m.mask false) ∧
    (d.Respelled d.SameConstants e → (run ⟨e, settings⟩).result = .ok m) := by
  have hfound : ∀ flags, (run ⟨d, settings⟩).SameMask flags (run ⟨e, settings⟩) →
      ∃ m', (run ⟨e, settings⟩).result = .ok m' ∧ m'.mask flags = m.mask flags := by
    intro flags hsame
    rw [Outcome.SameMask, hm] at hsame
    obtain ⟨m', hm', hmask⟩ := Option.map_eq_some_iff.mp hsame
    refine ⟨m', ?_, hmask⟩
    cases he : (run ⟨e, settings⟩).result with
    | ok other =>
      rw [he] at hm'
      exact congrArg Except.ok (Option.some.inj hm')
    | error failure =>
      rw [he] at hm'
      cases hm'
  refine ⟨fun h => hfound false (h.sameMask_false hn), fun h => ?_⟩
  obtain ⟨m', hm', hmask⟩ := hfound true (h.sameMask_true hn)
  rw [ClientModel.mask_true, ClientModel.mask_true] at hmask
  rw [hm', hmask]

def paintBox (color shade : String) : Document where
  info := { title := "Paint box", version := "1" }
  definitions := [
    ("Color", { typeName := some "string", enumeration := some [.str "red"] }),
    ("Shade", { typeName := some "string", enumeration := some [.str "light", .str "dark"] }),
    ("Paint", {
      properties := [("color", { reference := some color }), ("shade", { reference := some shade })]
      required := ["color", "shade"] })]

theorem paintBox_respelled {R : String → String → Prop} {color color' shade shade' : String}
    (hc : R color color') (hs : R shade shade') :
    (paintBox color shade).Respelled R (paintBox color' shade') := by
  intro f hf
  simp only [paintBox, Document.respell, List.map_cons, List.map_nil, Schema.respell,
    Schema.respellProperties, Option.map_some, hf _ _ hc, hf _ _ hs]

theorem sameUpToCase_color :
    Reference.SameUpToCase "#/definitions/Color" "#/definitions/color" :=
  .inr ⟨"Color", "color", by decide, by decide, by decide⟩

theorem sameUpToCase_shade :
    Reference.SameUpToCase "#/definitions/Shade" "#/definitions/SHADE" :=
  .inr ⟨"Shade", "SHADE", by decide, by decide, by decide⟩

theorem run_respelled_paintBox :
    ∃ m m', (run ⟨paintBox "#/definitions/Color" "#/definitions/Shade", {}⟩).result = .ok m ∧
      (run ⟨paintBox "#/definitions/color" "#/definitions/SHADE", {}⟩).result = .ok m' ∧
      m'.mask false = m.mask false ∧
      (run ⟨paintBox "#/definitions/Color" "#/definitions/SHADE", {}⟩).result = .ok m := by
  have hok : (run ⟨paintBox "#/definitions/Color" "#/definitions/Shade", {}⟩).result.toOption.isSome
      = true := by decide +kernel
  cases hm : (run ⟨paintBox "#/definitions/Color" "#/definitions/Shade", {}⟩).result with
  | error failure =>
    rw [hm] at hok
    cases hok
  | ok m =>
    obtain ⟨m', hm', hmask⟩ := (run_respelled {} (by decide) hm).1
      (paintBox_respelled sameUpToCase_color sameUpToCase_shade)
    exact ⟨m, m', rfl, hm', hmask, (run_respelled {} (by decide) hm).2
      (paintBox_respelled ⟨.inl rfl, fun _ => rfl⟩ ⟨sameUpToCase_shade, by decide⟩)⟩

def ClientModel.constants (m : ClientModel) : List (String × String × Bool) :=
  m.catalog.composites.flatMap fun c => c.properties.map fun p => (c.name, p.name, p.constant)

/-- A property stops being constant when its reference is respelled. -/
theorem constant_of_exact_name :
    (paintBox "#/definitions/Color" "#/definitions/Shade").CaseDistinct ∧
      (paintBox "#/definitions/Color" "#/definitions/Shade").Respelled Reference.SameUpToCase
        (paintBox "#/definitions/color" "#/definitions/Shade") ∧
      (run ⟨paintBox "#/definitions/Color" "#/definitions/Shade", {}⟩).result.toOption.map
        (·.constants) = some [("Paint", "color", true), ("Paint", "shade", false)] ∧
      (run ⟨paintBox "#/definitions/color" "#/definitions/Shade", {}⟩).result.toOption.map
        (·.constants) = some [("Paint", "color", false), ("Paint", "shade", false)] :=
  ⟨by decide, paintBox_respelled sameUpToCase_color (.inl rfl), by decide +kernel,
    by decide +kernel⟩

end ApiModel
