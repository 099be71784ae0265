import Mathlib.Data.List.Basic

/-!
# Machines, transition systems and their runs

A machine is a step function that turns a state and an input into an output and a new
state. Two machines whose steps agree under a relation of their states give the same
outputs on every input sequence.

A transition system has initial states and events that may or may not be possible in a
state. Its guarded runs are those in which every event meets a condition on the state it
happens in.
-/

/-- What holds of the entries of a log holds with one more. -/
theorem List.forall_mem_snoc {α : Type*} {p : α → Prop} {l : List α} {a : α}
    (h : ∀ b ∈ l, p b) (ha : p a) : ∀ b ∈ l ++ [a], p b :=
  forall_mem_append.mpr ⟨h, forall_mem_singleton.mpr ha⟩

namespace Machine

variable {σ τ ι ο : Type*}

/-- Run a machine on a list of inputs: the outputs in order and the final state. -/
def run (step : σ → ι → ο × σ) : σ → List ι → List ο × σ
  | s, [] => ([], s)
  | s, i :: is =>
    let r := run step (step s i).2 is
    ((step s i).1 :: r.1, r.2)

theorem run_simulates {f : σ → ι → ο × σ} {g : τ → ι → ο × τ} (R : σ → τ → Prop)
    (hstep : ∀ s t i, R s t → (f s i).1 = (g t i).1 ∧ R (f s i).2 (g t i).2) :
    ∀ (is : List ι) (s : σ) (t : τ), R s t →
      (run f s is).1 = (run g t is).1 ∧ R (run f s is).2 (run g t is).2 := by
  intro is
  induction is with
  | nil => intro s t hR; exact ⟨rfl, hR⟩
  | cons i is ih =>
    intro s t hR
    obtain ⟨hout, hR'⟩ := hstep s t i hR
    obtain ⟨houts, hfin⟩ := ih _ _ hR'
    exact ⟨by simp only [run, hout, houts], hfin⟩

end Machine

/-- A system: its initial states, and the state after an event that is possible. -/
structure TransitionSystem (σ ω : Type*) where
  init : σ → Prop
  step : σ → ω → Option σ

namespace TransitionSystem

variable {σ ω : Type*} (S : TransitionSystem σ ω) (guard : σ → ω → Prop)

/-- The states reached by events that all meet the guard. -/
inductive Reach : σ → Prop where
  | init {x : σ} (h : S.init x) : Reach x
  | step {x x' : σ} (e : ω) (h : Reach x) (hguard : guard x e) (hstep : S.step x e = some x') :
      Reach x'

variable {S guard}

/-- What the guarded steps keep holds along guarded runs. -/
theorem Reach.invariant {I : σ → Prop} (hinit : ∀ x, S.init x → I x)
    (hkeep : ∀ x e x', I x → guard x e → S.step x e = some x' → I x') {x : σ}
    (h : S.Reach guard x) : I x := by
  induction h with
  | init h => exact hinit _ h
  | step e _ hguard hstep ih => exact hkeep _ e _ ih hguard hstep

/-- More runs reach more states. -/
theorem Reach.mono {guard' : σ → ω → Prop} (hle : ∀ x e, guard x e → guard' x e) {x : σ}
    (h : S.Reach guard x) : S.Reach guard' x := by
  induction h with
  | init h => exact .init h
  | step e _ hguard hstep ih => exact .step e ih (hle _ e hguard) hstep

variable (S guard)

/-- Events one after the other, as long as they are possible and meet the guard. -/
def run [∀ x e, Decidable (guard x e)] : σ → List ω → Option σ
  | x, [] => some x
  | x, e :: es => if guard x e then (S.step x e).bind (run · es) else none

variable {S guard}

theorem Reach.run [∀ x e, Decidable (guard x e)] :
    ∀ {es : List ω} {x x' : σ}, S.Reach guard x → S.run guard x es = some x' →
      S.Reach guard x' := by
  intro es
  induction es with
  | nil =>
    intro x x' h hrun
    cases hrun
    exact h
  | cons e es ih =>
    intro x x' h hrun
    simp only [TransitionSystem.run] at hrun
    split at hrun
    · rename_i hguard
      obtain ⟨x1, hstep, hrest⟩ := Option.bind_eq_some_iff.mp hrun
      exact ih (h.step e hguard hstep) hrest
    · cases hrun

theorem Reach.exists_of_run [∀ x e, Decidable (guard x e)] {x : σ} (h : S.Reach guard x)
    (es : List ω) (p : σ → Bool) (hp : (S.run guard x es).map p = some true) :
    ∃ x', S.Reach guard x' ∧ p x' = true := by
  obtain ⟨x', hrun, hx'⟩ := Option.map_eq_some_iff.mp hp
  exact ⟨x', h.run hrun, hx'⟩

end TransitionSystem
