import ApiModel.Resolution.Resolver

/-! # Runs that end alike

Two parts of a run end alike from a state if both have an outcome there and it is the same one.
Parts that differ in their resolver only are compared by comparing the resolvers where they are
called; a guard says which of those calls matter. What a single part promises is said of that part
and itself.
-/

namespace ApiModel.Resolution

variable {α β : Type} {m n : Run α} {s : State} {G : State → Prop} {Q R : α → State → Prop}

/-- The part `m` ends from `s`, and its outcome satisfies `Q`. Where the outcome satisfies `G`, so
does `s`, and the part `n` has the same outcome. -/
def Alike (G : State → Prop) (m n : Run α) (s : State) (Q : α → State → Prop) : Prop :=
  ∃ a t, m s = some (a, t) ∧ (G t → G s ∧ n s = some (a, t)) ∧ Q a t

/-- The guard of parts that are compared wherever they end. -/
def Always (_ : State) : Prop := True

theorem Always.back {t : State} (_ : Always t) : Always s := trivial

namespace Alike

theorem pure {a : α} (h : Q a s) : Alike G (Pure.pure a) (Pure.pure a) s Q :=
  ⟨a, s, rfl, fun hg => ⟨hg, rfl⟩, h⟩

theorem lift {x : Step α} (hg : G (x s).2 → G s) (h : Q (x s).1 (x s).2) :
    Alike G (liftM x) (liftM x) s Q :=
  ⟨_, _, rfl, fun ht => ⟨hg ht, rfl⟩, h⟩

theorem mono (h : Alike G m n s Q) (hQ : ∀ a t, Q a t → R a t) : Alike G m n s R := by
  obtain ⟨a, t, hm, hn, hq⟩ := h
  exact ⟨a, t, hm, hn, hQ a t hq⟩

theorem bind {f g : α → Run β} {R : β → State → Prop}
    (h : Alike G m n s fun a t => Alike G (f a) (g a) t R) :
    Alike G (m >>= f) (n >>= g) s R := by
  obtain ⟨a, t, hm, hn, b, u, hf, hg, hr⟩ := h
  refine ⟨b, u, ?_, fun hu => ?_, hr⟩
  · show (m s).bind (fun p => f p.1 p.2) = _
    rw [hm]; exact hf
  · obtain ⟨ht, hg⟩ := hg hu
    obtain ⟨hs, hn⟩ := hn ht
    refine ⟨hs, ?_⟩
    show (n s).bind (fun p => g p.1 p.2) = _
    rw [hn]; exact hg

theorem lift_bind {x : Step α} {f g : α → Run β} {R : β → State → Prop}
    (hg : G (x s).2 → G s) (h : Alike G (f (x s).1) (g (x s).1) (x s).2 R) :
    Alike G (liftM x >>= f) (liftM x >>= g) s R :=
  bind (lift hg h)

theorem get_bind {f g : State → Run β} {R : β → State → Prop} (h : Alike G (f s) (g s) s R) :
    Alike G (MonadState.get >>= f) (MonadState.get >>= g) s R := by
  obtain ⟨b, u, hf, hg, hr⟩ := h
  exact ⟨b, u, hf, hg, hr⟩

theorem modify_bind {k : State → State} {f g : PUnit → Run β} {R : β → State → Prop}
    (hg : G (k s) → G s) (h : Alike G (f ⟨⟩) (g ⟨⟩) (k s) R) :
    Alike G (modify k >>= f) (modify k >>= g) s R := by
  obtain ⟨b, u, hf, hn, hr⟩ := h
  exact ⟨b, u, hf, fun hu => ⟨hg (hn hu).1, (hn hu).2⟩, hr⟩

theorem left_eq (h : Alike Always m n s Q) : m s = n s := by
  obtain ⟨a, t, hm, hn, -⟩ := h
  rw [hm, (hn trivial).2]

theorem holds (h : Alike G m n s Q) {a : α} {t : State} (hm : m s = some (a, t)) : Q a t := by
  obtain ⟨b, u, hb, -, hq⟩ := h
  obtain ⟨rfl, rfl⟩ := Prod.mk.inj (Option.some.inj (hm.symm.trans hb))
  exact hq

/-- `I` relates the part of a list that a loop has passed to what the loop has gathered. -/
theorem foldlM {f g : β → α → Run β} (I : List α → β → State → Prop) {l : List α} {b : β}
    (hstep : ∀ before a after b s, l = before ++ a :: after → I before b s →
      Alike G (f b a) (g b a) s (I (before ++ [a])))
    (h : I [] b s) : Alike G (l.foldlM f b) (l.foldlM g b) s (I l) := by
  suffices hs : ∀ before after b s, l = before ++ after → I before b s →
      Alike G (after.foldlM f b) (after.foldlM g b) s (I l) from hs [] l b s rfl h
  intro before after
  induction after generalizing before with
  | nil =>
    intro b s hl hi
    rw [List.append_nil] at hl
    exact hl ▸ pure hi
  | cons a after ih =>
    intro b s hl hi
    rw [List.foldlM_cons, List.foldlM_cons]
    exact bind ((hstep before a after b s hl hi).mono fun b t hi =>
      ih (before ++ [a]) b t (by simp [hl]) hi)

theorem forM {f g : α → Run PUnit} (I : List α → State → Prop) {l : List α}
    (hstep : ∀ before a after s, l = before ++ a :: after → I before s →
      Alike G (f a) (g a) s fun _ => I (before ++ [a]))
    (h : I [] s) : Alike G (l.forM f) (l.forM g) s fun _ => I l := by
  suffices hs : ∀ before after s, l = before ++ after → I before s →
      Alike G (after.forM f) (after.forM g) s fun _ => I l from hs [] l s rfl h
  intro before after
  induction after generalizing before with
  | nil =>
    intro s hl hi
    rw [List.append_nil] at hl
    exact hl ▸ pure hi
  | cons a after ih =>
    intro s hl hi
    exact bind ((hstep before a after s hl hi).mono fun _ t hi =>
      ih (before ++ [a]) t (by simp [hl]) hi)

end Alike

abbrev Resolver := Site → Run (Option ModelType)

/-- What a resolver asks of its calls and promises about their outcomes. -/
structure Contract where
  guard : State → Prop
  requires : Site → State → Prop
  ensures : Site → State → Option ModelType → State → Prop

def Contract.Joins (K : Contract) (r r' : Resolver) : Prop :=
  ∀ site s, K.requires site s → Alike K.guard (r site) (r' site) s (K.ensures site s)

/-- The steps of resolution over a resolver for whatever nests too deep. -/
def iterate (context : Context) (base : Resolver) : Nat → Resolver
  | 0 => base
  | n + 1 => resolveStep context (iterate context base n)

theorem resolve_eq_iterate (context : Context) (fuel : Nat) :
    resolve context fuel = iterate context (fun _ _ => none) fuel := by
  induction fuel with
  | zero => rfl
  | succ n ih =>
    funext site
    show resolveStep context (resolve context n) site = _
    rw [ih]; rfl

end ApiModel.Resolution
