import Mathlib.Init

/-!
# Pre- and postconditions of state transformers

A computation of `StateT σ Option` that starts in a state either returns a value and a new state
or does not return. `Triple P x Q` says that `x`, started in a state with `P`, gives a value and a
state with `Q` whenever it returns; `Effects G R x` says that `x`, started in a state with `G`, goes
to a related state whenever it returns. The rules below follow the way computations are put
together.
-/

universe u

variable {σ α β : Type u}

@[simp]
theorem StateT.bind_apply (x : StateT σ Option α) (f : α → StateT σ Option β) (s : σ) :
    (x >>= f) s = (x s).bind fun r => f r.1 r.2 := rfl

@[simp]
theorem StateT.pure_apply (a : α) (s : σ) : (pure a : StateT σ Option α) s = some (a, s) := rfl

theorem StateT.ite_apply {p : Prop} [Decidable p] (x y : StateT σ Option α) (s : σ) :
    (if p then x else y) s = if p then x s else y s := by
  split <;> rfl

/-- Started in a state with `P`, the computation returns in a state with `Q`, if it returns. -/
structure Triple (P : σ → Prop) (x : StateT σ Option α) (Q : α → σ → Prop) : Prop where
  run : ∀ s a s', P s → x s = some (a, s') → Q a s'

namespace Triple

variable {P P' : σ → Prop} {Q Q' : α → σ → Prop} {R : β → σ → Prop}
  {x y : StateT σ Option α} {f : α → StateT σ Option β}

theorem bind (hx : Triple P x Q) (hf : ∀ a, Triple (Q a) (f a) R) : Triple P (x >>= f) R := by
  constructor
  intro s b s' hP hrun
  rw [StateT.bind_apply, Option.bind_eq_some_iff] at hrun
  obtain ⟨⟨a, s1⟩, hx1, hf1⟩ := hrun
  exact (hf a).run s1 b s' (hx.run s a s1 hP hx1) hf1

theorem ite {p : Prop} [Decidable p] (hx : p → Triple P x Q) (hy : ¬p → Triple P y Q) :
    Triple P (if p then x else y) Q := by
  split
  · exact hx ‹_›
  · exact hy ‹_›

theorem weaken (h : Triple P' x Q') (hP : ∀ s, P s → P' s) (hQ : ∀ a s, Q' a s → Q a s) :
    Triple P x Q :=
  ⟨fun s a s' hs hx => hQ a s' (h.run s a s' (hP s hs) hx)⟩

end Triple

/-- Started in a state with `G`, the computation goes to an `R`-related one, if it returns. -/
def Effects (G : σ → Prop) (R : σ → σ → Prop) (x : StateT σ Option α) : Prop :=
  ∀ s a s', G s → x s = some (a, s') → R s s'

/-- Effects that can be put one after the other. -/
structure Composable (G : σ → Prop) (R : σ → σ → Prop) : Prop where
  refl : ∀ s, R s s
  trans : ∀ s1 s2 s3, R s1 s2 → R s2 s3 → R s1 s3
  keeps : ∀ s s', G s → R s s' → G s'

namespace Effects

variable {G : σ → Prop} {R : σ → σ → Prop} {x y : StateT σ Option α} {f : α → StateT σ Option β}

theorem bind (hR : Composable G R) (hx : Effects G R x) (hf : ∀ a, Effects G R (f a)) :
    Effects G R (x >>= f) := by
  intro s b s' hG hrun
  rw [StateT.bind_apply, Option.bind_eq_some_iff] at hrun
  obtain ⟨⟨a, s1⟩, hx1, hf1⟩ := hrun
  have hfirst := hx s a s1 hG hx1
  exact hR.trans s s1 s' hfirst (hf a s1 b s' (hR.keeps s s1 hG hfirst) hf1)

theorem ite {p : Prop} [Decidable p] (hx : Effects G R x) (hy : Effects G R y) :
    Effects G R (if p then x else y) := by
  split
  · exact hx
  · exact hy

/-- A computation that leaves the state as it is. -/
theorem read (hR : Composable G R) (h : ∀ s a s', x s = some (a, s') → s' = s) :
    Effects G R x := by
  intro s a s' _ hx
  rw [h s a s' hx]
  exact hR.refl s

theorem pure (hR : Composable G R) (a : α) : Effects G R (pure a : StateT σ Option α) :=
  read hR fun _ _ _ h => (Prod.mk.inj (Option.some.inj h)).2.symm

end Effects
