import ApiModel.Grammars
import ApiModel.Proofs.Aliases
import ApiModel.Proofs.Identity
import ApiModel.Proofs.Overrides
import ApiModel.Proofs.Spelling

/-! # Definitions that refer to themselves

A cycle of aliases describes no type. It is found when the definition that the cycle was entered by
is referred to from within, and it is reported then and at no other time: by that moment every
definition of the cycle is being resolved, and all of them fail on the way back.
-/

namespace ApiModel

open Text (caseKey)
open Relation (ReflTransGen TransGen)

def Defect.selfReference? : Defect → Option (String × String)
  | .schema owner (.selfReference name) => some (owner, name)
  | _ => none

def selfReferences (found : List Defect) : List (String × String) :=
  found.filterMap Defect.selfReference?

theorem selfReference?_of_isPlain {d : Defect} (h : d.isPlain = true) :
    d.selfReference? = none := by
  cases d with
  | schema owner fault =>
    cases fault with
    | selfReference => cases h
    | _ => rfl
  | _ => rfl

theorem selfReferences_append (found more : List Defect) :
    selfReferences (found ++ more) = selfReferences found ++ selfReferences more :=
  List.filterMap_append

theorem selfReferences_append_none (found : List Defect) {more : List Defect}
    (h : ∀ d ∈ more, d.selfReference? = none) :
    selfReferences (found ++ more) = selfReferences found := by
  rw [selfReferences_append, show selfReferences more = [] from List.filterMap_eq_nil_iff.mpr h,
    List.append_nil]

namespace Document

variable {d : Document}

theorem SameCycle.exists_schema {a b : String} (h : d.SameCycle a b) :
    ∃ schema, Fields.get? d.definitions a = some schema := by
  obtain ⟨b, ⟨schema, hs, -⟩, -⟩ := TransGen.head'_iff.mp h.1
  exact ⟨schema, hs⟩

theorem SameCycle.name_eq {a b name : String} {schema : Schema} (h : d.SameCycle a b)
    (hd : d.CaseDistinct) (hs : Fields.get? d.definitions name = some schema)
    (hk : caseKey b = caseKey name) : b = name := by
  obtain ⟨schema', hs'⟩ := h.symm.exists_schema
  exact hd.name_eq hs' hs hk

end Document

namespace Resolution

variable {context : Context} {d : Document} {S : Scene} {r : Resolver} {s t u last : State}
  {site : Site} {type : Option ModelType} {frames pending : List Frame} {P : String → Prop}
  {a b : String}

/-- Each definition that is being resolved since the last object type was entered leads to the next
one, and the last of them to where `P` says. -/
inductive Linked (d : Document) : List Frame → (String → Prop) → Prop where
  | nil {P : String → Prop} : Linked d [] P
  | composite {frames : List Frame} {P : String → Prop} : Linked d (.composite :: frames) P
  | definition {name : String} {schema : Schema} {frames : List Frame} {P : String → Prop}
      (hs : Fields.get? d.definitions name = some schema) (hc : schema.isComposite = false)
      (hP : ∀ b, P b ↔ d.Points schema b) (h : Linked d frames (· = name)) :
      Linked d (.definition (caseKey name) :: frames) P

theorem mem_recent_definition {key key' : String} :
    .definition key ∈ recent (.definition key' :: frames) ↔
      key = key' ∨ .definition key ∈ recent frames := by
  simp [recent]

namespace Linked

theorem of_iff {P' : String → Prop} (h : Linked d frames P) (hP : ∀ b, P' b ↔ P b) :
    Linked d frames P' := by
  cases h with
  | nil => exact .nil
  | composite => exact .composite
  | definition hs hc hP' h => exact .definition hs hc (fun b => (hP b).trans (hP' b)) h

/-- From each definition that is being resolved there is a way on. -/
theorem reaches (h : Linked d frames P) {key : String}
    (hk : .definition key ∈ recent frames) : ∃ name schema, caseKey name = key ∧
      Fields.get? d.definitions name = some schema ∧ ∀ b, P b → TransGen d.Alias name b := by
  induction h with
  | nil => cases hk
  | composite => cases hk
  | @definition name schema _ _ hs hc hP _ ih =>
    rcases mem_recent_definition.mp hk with rfl | hk
    · exact ⟨name, schema, rfl, hs, fun b hb => .single ⟨schema, hs, hc, (hP b).mp hb⟩⟩
    · obtain ⟨first, schema', hn, hs', hway⟩ := ih hk
      exact ⟨first, schema', hn, hs',
        fun b hb => (hway name rfl).tail ⟨schema, hs, hc, (hP b).mp hb⟩⟩

theorem next (h : Linked d frames P) (hd : d.CaseDistinct)
    (ha : .definition (caseKey a) ∈ recent frames) (hab : d.Alias a b) :
    .definition (caseKey b) ∈ recent frames ∨ P b := by
  induction h with
  | nil => cases ha
  | composite => cases ha
  | @definition name schema _ _ hs hc hP _ ih =>
    rcases mem_recent_definition.mp ha with hk | ha
    · obtain ⟨schema', hs', -, hpoints⟩ := hab
      obtain rfl := hd.name_eq hs' hs hk
      cases hs.symm.trans hs'
      exact .inr ((hP b).mpr hpoints)
    · rcases ih ha with hm | rfl
      · exact .inl (mem_recent_definition.mpr (.inr hm))
      · exact .inl (mem_recent_definition.mpr (.inl rfl))

theorem round (h : Linked d frames (· = a)) (hd : d.CaseDistinct)
    (ha : .definition (caseKey a) ∈ recent frames) (hab : ReflTransGen d.Alias a b) :
    .definition (caseKey b) ∈ recent frames := by
  induction hab with
  | refl => exact ha
  | tail _ hbc ih =>
    rcases h.next hd ih hbc with hm | rfl
    · exact hm
    · exact ha

end Linked

/-- No definition of the cycle has failed, and none has been reported. -/
def Untouched (d : Document) (s : State) (a : String) : Prop :=
  ∀ b, d.SameCycle a b → caseKey b ∉ s.failed ∧ ∀ p ∈ selfReferences s.defects, p.2 ≠ b

def ReportedOnce (d : Document) (found : List (String × String)) (a : String) : Prop :=
  ∃ before b after, found = before ++ (b, b) :: after ∧ d.SameCycle a b ∧
    ∀ p ∈ before ++ after, ¬ d.SameCycle a p.2

def Fails (d : Document) (s : State) (pending : List Frame) (a : String) : Prop :=
  ∀ b, d.SameCycle a b → caseKey b ∈ s.failed ∨ .definition (caseKey b) ∈ pending

/-- What holds of cycles in every state: a cycle is untouched, or it has been reported once. -/
structure Sound (d : Document) (s : State) (pending : List Frame) : Prop where
  claimed : ∀ {key name}, Fields.get? s.claimed key = some name →
    caseKey name = key ∧ ∃ schema, Fields.get? d.definitions name = some schema
  untyped : ∀ {a}, d.SameCycle a a → s.typeOf? a = none
  reports : ∀ p ∈ selfReferences s.defects, p.1 = p.2 ∧ d.SameCycle p.2 p.2
  cycles : ∀ {a}, d.SameCycle a a → Untouched d s a ∨
    ReportedOnce d (selfReferences s.defects) a ∧ Fails d s pending a

theorem Untouched.same (h : Untouched d s a) (hab : d.SameCycle a b) : Untouched d s b :=
  fun c hbc => h c (hab.trans hbc)

theorem sound_empty (d : Document) : Sound d {} [] where
  claimed := nofun
  untyped _ := rfl
  reports := nofun
  cycles _ := .inl fun _ _ => ⟨List.not_mem_nil, nofun⟩

namespace Sound

theorem carry (h : Sound d s pending) (hc : t.claimed = s.claimed) (hr : t.resolved = s.resolved)
    (hf : t.failed = s.failed) (hd : selfReferences t.defects = selfReferences s.defects) :
    Sound d t pending where
  claimed hn := h.claimed (hc ▸ hn)
  untyped ha := (congrArg (Fields.get? · _) hr).trans (h.untyped ha)
  reports := hd ▸ h.reports
  cycles ha := by
    unfold Untouched Fails
    rw [hd, hf]
    exact h.cycles ha

theorem asides (h : Sound d s pending) (ha : Asides s t) : Sound d t pending := by
  obtain ⟨ds, es, rfl, hplain⟩ := ha
  exact h.carry rfl rfl rfl
    (selfReferences_append_none _ fun d hm => selfReference?_of_isPlain (hplain d hm))

theorem weaken (h : Sound d s []) : Sound d s pending :=
  { h with cycles := fun ha => (h.cycles ha).imp_right fun ⟨hone, hf⟩ =>
      ⟨hone, fun b hb => (hf b hb).imp_right nofun⟩ }

/-- A cycle that has been touched has failed and been reported. -/
theorem touched (h : Sound d s []) (ha : d.SameCycle a a) (hn : ¬ Untouched d s a) :
    ReportedOnce d (selfReferences s.defects) a ∧ caseKey a ∈ s.failed := by
  obtain ⟨hone, hf⟩ := (h.cycles ha).resolve_left hn
  exact ⟨hone, (hf a ha).resolve_right nofun⟩

theorem claim (h : Sound d s pending) {name : String} {schema : Schema}
    (hs : Fields.get? d.definitions name = some schema) :
    Sound d (claim (caseKey name) name s).2 pending :=
  { claimed := fun {key other} hn => by
      rw [show (Resolution.claim (caseKey name) name s).2.claimed =
        Fields.set s.claimed (caseKey name) name from rfl, Fields.get?_set] at hn
      split_ifs at hn with hk
      · cases hn
        exact ⟨hk, schema, hs⟩
      · exact h.claimed hn
    untyped := h.untyped
    reports := h.reports
    cycles := h.cycles }

section

variable {name : String} {schema : Schema} (hd : d.CaseDistinct)
  (hs : Fields.get? d.definitions name = some schema)
include hd hs

theorem remember (h : Sound d s pending) (hn : ¬ d.SameCycle name name) (type : ModelType) :
    Sound d (remember (caseKey name) type s).2 pending :=
  { claimed := h.claimed
    untyped := fun {a} ha => by
      refine ((Fields.get?_set ..).trans (if_neg fun hk => ?_)).trans (h.untyped ha)
      obtain rfl := ha.name_eq hd hs hk.symm
      exact hn ha
    reports := h.reports
    cycles := h.cycles }

theorem markFailed (h : Sound d s (.definition (caseKey name) :: pending))
    (hn : d.SameCycle name name → ¬ Untouched d s name) :
    Sound d (markFailed (caseKey name) s).2 pending :=
  { claimed := h.claimed
    untyped := h.untyped
    reports := h.reports
    cycles := fun {a} ha => by
      rcases h.cycles ha with huntouched | ⟨hone, hf⟩
      · refine .inl fun b hb => ⟨fun hm => ?_, (huntouched b hb).2⟩
        rcases List.mem_cons.mp hm with hk | hm
        · obtain rfl := hb.name_eq hd hs hk
          exact hn hb.symm.refl_left (huntouched.same hb)
        · exact (huntouched b hb).1 hm
      · refine .inr ⟨hone, fun b hb => ?_⟩
        rcases hf b hb with hm | hm
        · exact .inl (List.mem_cons_of_mem _ hm)
        · rcases List.mem_cons.mp hm with hk | hm
          · rw [Frame.definition.inj hk]
            exact .inl (List.mem_cons_self ..)
          · exact .inr hm }

theorem done (h : Sound d s (.definition (caseKey name) :: pending))
    (hn : ¬ d.SameCycle name name) : Sound d s pending :=
  { h with cycles := fun {a} ha => (h.cycles ha).imp_right fun ⟨hone, hf⟩ => ⟨hone, fun b hb =>
      (hf b hb).imp_right fun hm => (List.mem_cons.mp hm).resolve_left fun hk => by
        obtain rfl := hb.name_eq hd hs (Frame.definition.inj hk)
        exact hn hb.symm.refl_left⟩ }

theorem report (h : Sound d s []) (hn : d.SameCycle name name) (hf : caseKey name ∉ s.failed)
    (hall : ∀ b, d.SameCycle name b → .definition (caseKey b) ∈ pending) :
    Sound d (report (.schema name (.selfReference name))
      (Resolution.markFailed (caseKey name) s).2).2 pending := by
  have hfound : selfReferences (s.defects ++ [.schema name (.selfReference name)]) =
      selfReferences s.defects ++ [(name, name)] := selfReferences_append ..
  have huntouched : Untouched d s name := by
    by_contra hn'
    exact hf (h.touched hn hn').2
  refine { claimed := h.claimed, untyped := h.untyped, reports := ?_, cycles := fun {a} ha => ?_ }
  · show ∀ p ∈ selfReferences (s.defects ++ [_]), _
    intro p hp
    rw [hfound] at hp
    rcases List.mem_append.mp hp with hp | hp
    · exact h.reports p hp
    · rw [List.mem_singleton.mp hp]
      exact ⟨rfl, hn⟩
  · by_cases hsame : d.SameCycle a name
    · refine .inr ⟨⟨selfReferences s.defects, name, [], hfound, hsame, fun p hp hap => ?_⟩,
        fun b hb => .inr (hall b (hsame.symm.trans hb))⟩
      rw [List.append_nil] at hp
      exact (huntouched p.2 (hsame.symm.trans hap)).2 p hp rfl
    · have hother : ∀ b, d.SameCycle a b → b ≠ name := fun b hb hbn => hsame (hbn ▸ hb)
      rcases h.cycles ha with hother' | ⟨⟨before, b, after, hb, hab, hnot⟩, hfails⟩
      · refine .inl fun b hb => ⟨fun hm => ?_, fun p hp => ?_⟩
        · rcases List.mem_cons.mp hm with hk | hm
          · exact hother b hb (hb.name_eq hd hs hk)
          · exact (hother' b hb).1 hm
        · replace hp : p ∈ selfReferences (s.defects ++ [.schema name (.selfReference name)]) := hp
          rw [hfound] at hp
          rcases List.mem_append.mp hp with hp | hp
          · exact (hother' b hb).2 p hp
          · rw [List.mem_singleton.mp hp]
            exact (hother b hb).symm
      · refine .inr ⟨⟨before, b, after ++ [(name, name)], ?_, hab, fun p hp => ?_⟩, fun b hb => ?_⟩
        · refine hfound.trans ?_
          rw [hb, List.append_assoc, List.cons_append]
        · rw [← List.append_assoc] at hp
          rcases List.mem_append.mp hp with hp | hp
          · exact hnot p hp
          · rw [List.mem_singleton.mp hp]
            exact hsame
        · exact (hfails b hb).elim (fun hm => .inl (List.mem_cons_of_mem _ hm)) nofun

end

end Sound

theorem selfReferences_buildEnum (settings : Settings) (site : Site) (listed : List Json)
    (s : State) : selfReferences (buildEnum settings site listed s).2.defects =
      selfReferences s.defects := by
  obtain ⟨d, hb⟩ | ⟨values, -, ⟨-, hb⟩ | ⟨extension, -, ⟨-, hb⟩ | ⟨id, -, -, hb⟩⟩⟩ :=
    buildEnum_cases settings site listed s
  · have hd : d.selfReference? = none := by
      rcases buildEnum_clash hb with hkind | hplain
      · cases d with
        | enumConflict => rfl
        | _ => cases hkind
      · exact selfReference?_of_isPlain hplain
    rw [hb]
    exact selfReferences_append_none _ (List.forall_mem_singleton.mpr hd)
  all_goals exact congrArg (fun p => selfReferences p.2.defects) hb

theorem buildEnum_kept (settings : Settings) (site : Site) (listed : List Json) (s : State) :
    (buildEnum settings site listed s).2.claimed = s.claimed ∧
      (buildEnum settings site listed s).2.resolved = s.resolved ∧
      (buildEnum settings site listed s).2.failed = s.failed := by
  obtain ⟨d, hb⟩ | ⟨values, -, ⟨-, hb⟩ | ⟨extension, -, ⟨-, hb⟩ | ⟨id, -, -, hb⟩⟩⟩ :=
    buildEnum_cases settings site listed s
  all_goals rw [hb]; exact ⟨rfl, rfl, rfl⟩

theorem Sound.buildEnum (h : Sound d s pending) (settings : Settings) (site : Site)
    (listed : List Json) : Sound d (buildEnum settings site listed s).2 pending := by
  obtain ⟨hc, hr, hf⟩ := buildEnum_kept settings site listed s
  exact h.carry hc hr hf (selfReferences_buildEnum settings site listed s)

theorem Sound.refused (h : Sound d s pending) (hr : Refuses context site s t) :
    Sound d t pending := by
  cases hr with
  | reference hd | malformed hd => exact h.asides (.report hd s)
  | @enum listed _ _ hb =>
    have henum := h.buildEnum context.settings site listed
    rwa [hb] at henum
  | @array clash _ hd => exact h.asides ((noteClash_asides site clash s).trans (.report hd _))
  | scalar => exact h.carry rfl rfl rfl (selfReferences_append_none _ (by simp [Defect.selfReference?]))

/-- What a call does to cycles. Of what leads into a cycle it finds no type, and the cycle does not
stay untouched. -/
structure Treats (d : Document) (P : String → Prop) (s : State) (type : Option ModelType)
    (t : State) : Prop where
  sound : Sound d t (recent s.frames)
  touches : ∀ {a}, P a → d.SameCycle a a → type = none ∧ ¬ Untouched d t a

namespace Treats

theorem of_sound (h : Sound d t []) (hP : ∀ a, P a → ¬ d.SameCycle a a) :
    Treats d P s type t where
  sound := h.weaken
  touches ha hc := (hP _ ha hc).elim

theorem of_iff {P' : String → Prop} (h : Treats d P s type t) (hP : ∀ a, P' a ↔ P a) :
    Treats d P' s type t where
  sound := h.sound
  touches ha := h.touches ((hP _).mp ha)

theorem map (h : Treats d P s type t) (f : ModelType → ModelType) :
    Treats d P s (type.map f) t where
  sound := h.sound
  touches ha hc := ⟨by rw [(h.touches ha hc).1]; rfl, (h.touches ha hc).2⟩

end Treats

/-- Calls of the resolver treat cycles so if all that is being resolved leads to where they go. -/
def Scene.Exposes (S : Scene) (last : State) (r : Resolver) : Prop :=
  ∀ site s type t, r site s = some (type, t) → S.Within last site s type t ∧
    (Sound S.context.document s [] →
      Linked S.context.document s.frames (S.context.document.Points site.schema) →
      Treats S.context.document (S.context.document.Points site.schema) s type t)

section

variable (hr : S.Exposes last r)
include hr

theorem populate_sound (h : Sound S.context.document s []) {id : CompositeId} {schema : Schema}
    {pointer : Pointer} (hp : populate S.context r id schema pointer s = some ((), t)) :
    Sound S.context.document t [] := by
  have hcall : ∀ site u type v,
      Sound S.context.document u [] ∧ u.frames = .composite :: s.frames →
      r site u = some (type, v) →
        Sound S.context.document v [] ∧ v.frames = .composite :: s.frames := by
    rintro site u type v ⟨hu, hf⟩ hv
    obtain ⟨hw, htreats⟩ := hr _ _ _ _ hv
    have hsound := (htreats hu (hf ▸ .composite)).sound
    rw [hf] at hsound
    exact ⟨hsound, hw.later.frames.trans hf⟩
  obtain ⟨properties, base, value, u, ⟨hu, -⟩, rfl⟩ := populate_induct _ hcall
    (fun ⟨hu, hf⟩ ha => ⟨hu.asides ha, ha.notes.frames_eq.trans hf⟩)
    ⟨h.carry rfl rfl rfl rfl, rfl⟩ hp
  exact hu.carry rfl rfl rfl rfl

variable (hd : S.context.document.CaseDistinct)
include hd

theorem settles_treats {name : String} {schema : Schema}
    (hs : Fields.get? S.context.document.definitions name = some schema)
    (h : Sound S.context.document s []) (hl : Linked S.context.document s.frames (· = name))
    (hset : Settles S.context r name schema s type t) :
    Treats S.context.document (· = name) s type t := by
  have hobject : schema.isComposite = true → ¬ S.context.document.SameCycle name name :=
    fun hc hn => nomatch hc.symm.trans (hn.isComposite_eq hs)
  cases hset with
  | remembered ht =>
    refine .of_sound h ?_
    rintro a rfl ha
    cases ht.symm.trans (h.untyped ha)
  | failed _ hf =>
    refine ⟨h.weaken, ?_⟩
    rintro a rfl ha
    exact ⟨rfl, fun hu => (hu a ha).1 hf⟩
  | @clash defect _ _ hc hreg =>
    refine .of_sound ?_ (by rintro a rfl; exact hobject hc)
    have hreport := h.asides (.report (registerComposite_clash hreg).2 s)
    exact hreport.weaken.markFailed hd hs fun hn => (hobject hc hn).elim
  | known _ _ hc =>
    refine .of_sound ?_ (by rintro a rfl; exact hobject hc)
    exact h.remember hd hs (hobject hc) _
  | opened _ _ hc _ hp =>
    refine .of_sound ?_ (by rintro a rfl; exact hobject hc)
    have hstub : Sound S.context.document (s.withStub name (Pointer.definition name)) [] :=
      h.carry rfl rfl rfl rfl
    exact populate_sound hr (hstub.remember hd hs (hobject hc) _) hp
  | round _ hf _ hround =>
    have hopen := mem_recent hround
    have hcycle : S.context.document.SameCycle name name := by
      obtain ⟨first, schema', hk, hs', hway⟩ := hl.reaches hopen
      obtain rfl := hd.name_eq hs' hs hk
      exact ⟨hway first rfl, hway first rfl⟩
    refine ⟨h.report hd hs hcycle hf fun b hb => hl.round hd hopen hb.1.to_reflTransGen, ?_⟩
    rintro a rfl ha
    exact ⟨rfl, fun hu => (hu a ha).1 (List.mem_cons_self ..)⟩
  | @lost u _ _ hc _ hcall =>
    have htreats := (hr _ _ _ _ hcall).2 (h.carry rfl rfl rfl rfl)
      (.definition hs hc (fun _ => .rfl) hl)
    have htouched : S.context.document.SameCycle name name →
        ¬ Untouched S.context.document u name := fun hn hu => by
      obtain ⟨b, hpoints, hsame⟩ := hn.exists_points hs
      exact (htreats.touches hpoints hsame.symm.refl_left).2 (hu.same hsame)
    have hpopped : Sound S.context.document (pop u).2
        (.definition (caseKey name) :: recent s.frames) := htreats.sound.carry rfl rfl rfl rfl
    refine ⟨hpopped.markFailed hd hs htouched, ?_⟩
    rintro a rfl ha
    exact ⟨rfl, fun hu => (hu a ha).1 (List.mem_cons_self ..)⟩
  | @found x u _ _ hc _ hcall =>
    have htreats := (hr _ _ _ _ hcall).2 (h.carry rfl rfl rfl rfl)
      (.definition hs hc (fun _ => .rfl) hl)
    have hn : ¬ S.context.document.SameCycle name name := fun hn => by
      obtain ⟨b, hpoints, hsame⟩ := hn.exists_points hs
      exact nomatch (htreats.touches hpoints hsame.symm.refl_left).1
    have hpopped : Sound S.context.document (pop u).2
        (.definition (caseKey name) :: recent s.frames) := htreats.sound.carry rfl rfl rfl rfl
    refine ⟨(hpopped.done hd hs hn).remember hd hs hn x, ?_⟩
    rintro a rfl ha
    exact (hn ha).elim

theorem definition_treats {name owner : String} {pointer : Pointer}
    (h : Sound S.context.document s [])
    (hl : Linked S.context.document s.frames
      fun a => ∃ schema, S.context.document.definition? name = some (a, schema))
    (ht : resolveDefinition S.context r name pointer owner s = some (type, t)) :
    Treats S.context.document
      (fun a => ∃ schema, S.context.document.definition? name = some (a, schema)) s type t := by
  obtain ⟨hnone, rfl, hn⟩ | ⟨canonical, schema, hfound, hc⟩ := resolveDefinition_cases ht
  · refine .of_sound ?_ fun a ⟨schema, hfound⟩ => nomatch hnone.symm.trans hfound
    obtain ⟨-, rfl⟩ | rfl := hn
    · exact h
    · exact h.asides (.report rfl s)
  · have hs := Scene.get?_of_definition? hfound
    have hleads : ∀ a, (∃ schema, S.context.document.definition? name = some (a, schema)) ↔
        a = canonical := fun a => by
      constructor
      · rintro ⟨schema', hfound'⟩
        cases hfound.symm.trans hfound'
        rfl
      · rintro rfl
        exact ⟨schema, hfound⟩
    rcases hc with ⟨defect, hk, -, -⟩ | ⟨u, hk, hset⟩
    · -- No other definition can have claimed the key.
      obtain ⟨first, hfirst, hne⟩ := claimKey_taken hk
      obtain ⟨hkey, schema', hs'⟩ := h.claimed hfirst
      exact absurd (hd.name_eq hs' hs hkey) hne
    · obtain ⟨hframes, -, -⟩ := claimKey_kept hk
      have hu : Sound S.context.document u [] := by
        obtain ⟨-, rfl⟩ | ⟨-, rfl⟩ := claimed_cases hk
        · exact h.claim hs
        · exact h
      have hlinked : Linked S.context.document u.frames (· = canonical) :=
        hframes ▸ hl.of_iff fun a => (hleads a).symm
      have htreats := settles_treats hr hd hs hu hlinked hset
      exact ⟨hframes ▸ htreats.sound, fun ha => htreats.touches ((hleads _).mp ha)⟩

theorem step_treats (h : Sound S.context.document s [])
    (hl : Linked S.context.document s.frames (S.context.document.Points site.schema))
    (ht : resolveStep S.context r site s = some (type, t)) :
    Treats S.context.document (S.context.document.Points site.schema) s type t := by
  have nowhere : site.next? S.context.document = none →
      ∀ a, S.context.document.Points site.schema a →
        ¬ S.context.document.SameCycle a a := fun hn a ha _ => by
    obtain ⟨site', hx⟩ := ha.exists_next
    cases hn.symm.trans hx
  have inside : ∀ {site' u type t}, site.schema.reference = none →
      site.next? S.context.document = some site' → Asides s u → r site' u = some (type, t) →
      Treats S.context.document (S.context.document.Points site.schema) s type t := by
    intro site' u type t hn hx ha hcall
    have hiff : ∀ a, S.context.document.Points site.schema a ↔
        S.context.document.Points site'.schema a :=
      fun a => Document.points_iff_of_next hn hx
    have hframes := ha.notes.frames_eq
    have htreats := (hr _ _ _ _ hcall).2 (h.asides ha)
      (hframes ▸ hl.of_iff fun a => (hiff a).symm)
    exact ⟨hframes ▸ htreats.sound, fun hp => htreats.touches ((hiff _).mp hp)⟩
  cases resolveStep_takes ht with
  | refused hrefused => exact .of_sound (h.refused hrefused) (nowhere hrefused.next?_eq)
  | reference href hp hdef =>
    have hiff : ∀ a, S.context.document.Points site.schema a ↔ _ :=
      fun a => Document.points_iff_of_reference href hp
    exact (definition_treats hr hd h (hl.of_iff fun a => (hiff a).symm) hdef).of_iff hiff
  | @enum listed x _ hnone hlisted hb =>
    have henum := h.buildEnum S.context.settings site listed
    rw [hb] at henum
    have hroute : site.schema.route = .enumeration listed :=
      Schema.route_of_enumeration hnone hlisted
    exact .of_sound henum (nowhere (by simp [Site.next?, hroute]))
  | @sequence clash _ _ _ hroute hitems hcall =>
    exact (inside (Schema.array_of_route hroute).1.reference (Site.next?_array hroute hitems)
      (noteClash_asides site clash s) hcall).map _
  | anything hroute => exact .of_sound h (nowhere (by simp [Site.next?, hroute]))
  | dictionary hroute hcall =>
    exact (inside (Schema.dictionary_of_route hroute).1.reference (Site.next?_dictionary hroute)
      (.refl s) hcall).map _
  | inline hc hb =>
    refine .of_sound ?_ (nowhere (Site.next?_composite hc))
    obtain ⟨defect, hreg, rfl, rfl⟩ | ⟨id, -, -, rfl, rfl⟩ | ⟨-, rfl, hp⟩ := buildInline_cases hb
    · exact h.asides (.report (registerComposite_clash hreg).2 s)
    · exact h
    · have hstub : Sound S.context.document (s.withStub site.name site.pointer) [] :=
        h.carry rfl rfl rfl rfl
      exact populate_sound hr hstub hp
  | scalar hroute _ ha =>
    exact .of_sound (h.asides ha) (nowhere (by simp [Site.next?, hroute]))

end

theorem exposes_within (S : Scene) (hd : S.context.document.CaseDistinct) (last : State) :
    S.Exposes last (S.within last) := by
  intro site s type t h
  have hw := Scene.of_within h
  refine ⟨hw, Scene.induct (P := fun site s type t => Sound S.context.document s [] →
    Linked S.context.document s.frames (S.context.document.Points site.schema) →
      Treats S.context.document (S.context.document.Points site.schema) s type t) ?_ hw⟩
  intro r site s type t hw hr ht hsound hlinked
  exact step_treats hr hd hsound hlinked ht

theorem Untouched.of_grows (h : Untouched d t a) (hg : Grows s t) : Untouched d s a := by
  intro b hb
  obtain ⟨hf, hnone⟩ := h b hb
  refine ⟨fun hm => hf (hg.failed hm), fun p hp => hnone p ?_⟩
  obtain ⟨more, hmore⟩ := hg.defects
  rw [← hmore, selfReferences_append]
  exact List.mem_append_left _ hp

section

variable (hd : context.document.CaseDistinct)
include hd

/-- Between the requests of a build the state is sound. A definition on a cycle has been found out
when it has been asked for. -/
theorem serve_sound (h : Idle context s) (hs : Sound context.document s []) {q : Request}
    (hq : q ∈ Request.ofBuild context.document) :
    ∃ t, q.serve context s = some ((), t) ∧ Idle context t ∧ Grows s t ∧
      Sound context.document t [] ∧ ∀ name, q = .definition name →
        context.document.SameCycle name name → ¬ Untouched context.document t name := by
  rcases List.mem_append.mp hq with hq | hq
  · rcases List.mem_append.mp hq with hq | hq
    · obtain ⟨defect, hm, rfl⟩ := List.mem_map.mp hq
      obtain ⟨malformed, -, rfl⟩ := List.mem_map.mp hm
      have ha : Asides s (report (.schema malformed.1 (.malformedDefinition malformed.2)) s).2 :=
        .report rfl s
      exact ⟨_, rfl, ⟨h.inv.notes ha.notes, h.frames, h.consistent⟩, ha.notes.grows,
        hs.asides ha, nofun⟩
    · obtain ⟨p, -, rfl⟩ := List.mem_map.mp hq
      obtain ⟨type, t, ht, hidle, he⟩ := h.definition p.1
      have htreats := definition_treats (exposes_within (anywhere context) hd t) hd hs
        (h.frames ▸ .nil) (Scene.definition_within h.inv ht)
      refine ⟨t, bind_eq_some.mpr ⟨type, t, ht, rfl⟩, hidle, he.toGrows, ?_, ?_⟩
      · have hsound := htreats.sound
        rwa [h.frames] at hsound
      · rintro name ⟨⟩ hcycle
        obtain ⟨schema, hschema⟩ := hcycle.exists_schema
        exact (htreats.touches ⟨schema, Scene.definition?_of_get? hschema⟩ hcycle).2
  · obtain ⟨o, -, rfl⟩ := List.mem_map.mp hq
    obtain ⟨m, t, ht, hidle, he⟩ := h.operation o
    have hwithin := Scene.method_within h.inv (standsIn_anywhere o) ht
    have hcall : ∀ {site u type v}, (anywhere context).within t site u = some (type, v) →
        Sound context.document u [] ∧ u.frames = [] →
        Sound context.document v [] ∧ v.frames = [] := by
      rintro site u type v hv ⟨hu, hf⟩
      obtain ⟨hw, htreats⟩ := exposes_within (anywhere context) hd t _ _ _ _ hv
      have hsound := (htreats hu (hf ▸ .nil)).sound
      rw [hf] at hsound
      exact ⟨hsound, hw.later.frames.trans hf⟩
    obtain ⟨hsound, -⟩ := (Composed.buildMethod context o).preserves
      (fun ha ⟨hu, hf⟩ => ⟨hu.asides ha, ha.notes.frames_eq.trans hf⟩) hcall ⟨hs, h.frames⟩ hwithin
    exact ⟨t, bind_eq_some.mpr ⟨m, t, ht, rfl⟩, hidle, he.toGrows, hsound, nofun⟩

theorem serveAll_sound (h : Idle context s) (hs : Sound context.document s [])
    {requests : List Request} (hq : ∀ q ∈ requests, q ∈ Request.ofBuild context.document) :
    ∃ t, serveAll context requests s = some ((), t) ∧ Grows s t ∧
      Sound context.document t [] ∧ ∀ name, Request.definition name ∈ requests →
        context.document.SameCycle name name → ¬ Untouched context.document t name := by
  induction requests generalizing s with
  | nil => exact ⟨s, serveAll_nil, .refl s, hs, nofun⟩
  | cons q rest ih =>
    obtain ⟨hqs, hrest⟩ := List.forall_mem_cons.mp hq
    obtain ⟨u, hu, hidle, hg, hsu, hfound⟩ := serve_sound hd h hs hqs
    obtain ⟨t, ht, hg', hst, hfound'⟩ := ih hidle hsu hrest
    refine ⟨t, serveAll_cons.mpr ⟨u, hu, ht⟩, hg.trans hg', hst, fun name hm hcycle => ?_⟩
    rcases List.mem_cons.mp hm with rfl | hm
    · exact fun huntouched => hfound name rfl hcycle (huntouched.of_grows hg')
    · exact hfound' name hm hcycle

end

theorem selfReferences_hierarchy (c : Catalog) : selfReferences (Hierarchy.defects c) = [] := by
  refine List.filterMap_eq_nil_iff.mpr fun defect hm => ?_
  cases defect with
  | schema =>
    have hkind := Hierarchy.kind_of_mem_defects hm
    simp [Defect.kind] at hkind
  | _ => rfl

end Resolution

def Build.Outcome.defects (o : Build.Outcome) : List Defect :=
  match o.result with
  | .error (.defects found) => found
  | _ => []

namespace Resolution

theorem selfReferences_conclude (context : Context) (methods : List Method) (s : State) :
    selfReferences (Build.conclude context methods s).defects = selfReferences s.defects := by
  have happend : selfReferences (s.defects ++ Hierarchy.defects s.catalog) =
      selfReferences s.defects := by
    rw [selfReferences_append, selfReferences_hierarchy, List.append_nil]
  unfold Build.conclude Build.Outcome.defects
  cases hu : Build.baseUrl context with
  | ok url =>
    dsimp only
    by_cases hf : (s.defects ++ Hierarchy.defects s.catalog).isEmpty = true
    · rw [if_pos hf, ← happend, List.isEmpty_iff.mp hf]
    · rw [if_neg hf]
      exact happend
  | error defect =>
    obtain ⟨url, reason, rfl⟩ := Scene.exists_of_baseUrl hu
    rw [if_neg (by simp)]
    exact (selfReferences_append_none _ (List.forall_mem_singleton.mpr rfl)).trans happend

end Resolution

open Resolution

/-- A build reports one definition of each cycle of aliases as referring to itself, once, and no
other definition. -/
theorem self_references_exact (context : Context) (hd : context.document.CaseDistinct) :
    (∀ p ∈ selfReferences (Build.run context).defects,
      p.1 = p.2 ∧ context.document.SameCycle p.2 p.2) ∧
    ∀ a, context.document.SameCycle a a →
      ReportedOnce context.document (selfReferences (Build.run context).defects) a := by
  obtain ⟨methods, t, ht, hrun⟩ := run_eq_conclude context
  obtain ⟨u, hu, -, hs, hfound⟩ := serveAll_sound hd (idle_empty context)
    (sound_empty context.document) fun q hq => hq
  cases (serveAll_ofBuild ht).symm.trans hu
  rw [hrun, selfReferences_conclude]
  refine ⟨hs.reports, fun a ha => (hs.touched ha (hfound a ?_ ha)).1⟩
  obtain ⟨schema, hschema⟩ := ha.exists_schema
  have hmem : a ∈ Fields.keys context.document.definitions :=
    Fields.get?_isSome_iff.mp (by rw [hschema]; rfl)
  obtain ⟨p, hp, rfl⟩ := List.mem_map.mp hmem
  exact List.mem_append_left _ (List.mem_append_right _ (List.mem_map_of_mem hp))

def hoops : Document where
  definitions := [
    ("Node", { properties := [("next", { reference := some "#/definitions/Node" })] }),
    ("Ring", { typeName := some "array",
               items := some { reference := some "#/definitions/hoop" } }),
    ("Hoop", { additional := some (.schema { reference := some "#/definitions/Ring" }) })]

theorem hoops_sameCycle : hoops.SameCycle "Ring" "Hoop" := by
  have hring : hoops.Alias "Ring" "Hoop" :=
    ⟨_, rfl, rfl, .items ⟨rfl, rfl⟩ nofun rfl (.reference rfl rfl rfl)⟩
  have hhoop : hoops.Alias "Hoop" "Ring" :=
    ⟨_, rfl, rfl, .value ⟨rfl, rfl⟩ rfl rfl (.reference rfl rfl rfl)⟩
  exact ⟨.single hring, .single hhoop⟩

theorem self_references_exact_hoops : hoops.CaseDistinct ∧ hoops.SameCycle "Ring" "Hoop" ∧
    ReportedOnce hoops (selfReferences (Build.run ⟨hoops, {}⟩).defects) "Ring" ∧
    ∀ p ∈ selfReferences (Build.run ⟨hoops, {}⟩).defects, p.2 ≠ "Node" := by
  have hd : hoops.CaseDistinct := by decide +kernel
  obtain ⟨hreports, honce⟩ := self_references_exact ⟨hoops, {}⟩ hd
  refine ⟨hd, hoops_sameCycle, honce "Ring" hoops_sameCycle.refl_left, fun p hp hnode => ?_⟩
  obtain ⟨-, hcycle⟩ := hreports p hp
  rw [hnode] at hcycle
  cases hcycle.isComposite_eq rfl

example : selfReferences (Build.run ⟨hoops, {}⟩).defects = [("Ring", "Ring")] := by decide +kernel

end ApiModel
