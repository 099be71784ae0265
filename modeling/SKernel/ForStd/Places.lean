import Mathlib.Data.List.Nodup
import Mathlib.Data.Set.Insert
import Mathlib.Tactic.Common

/-!
# Things in exactly one place

A set of things, each of which is at any time on exactly one of several lists or in exactly one
hand. `Located things lists held place` says that `place` is the place of each thing. Things move
from a list to an empty hand, and from a hand to a list.
-/

namespace Places

open Function

/-- On a list, or in a hand. -/
inductive Place (ι τ : Type*) where
  | list (i : ι)
  | hand (t : τ)

variable {α ι τ : Type*}

/-- Every thing is where `place` says, and nowhere else. -/
structure Located (things : Set α) (lists : ι → List α) (held : τ → Option α)
    (place : α → Place ι τ) : Prop where
  nodup : ∀ i, (lists i).Nodup
  list_iff : ∀ i a, a ∈ lists i ↔ a ∈ things ∧ place a = .list i
  hand_iff : ∀ t a, held t = some a ↔ a ∈ things ∧ place a = .hand t

namespace Located

variable {things : Set α} {lists : ι → List α} {held : τ → Option α} {place : α → Place ι τ}
variable {i j : ι} {t u : τ} {a : α} {l : List α}

section

variable (h : Located things lists held place)
include h

theorem mem_things_of_list (ha : a ∈ lists i) : a ∈ things := ((h.list_iff i a).mp ha).1

theorem mem_things_of_hand (ha : held t = some a) : a ∈ things := ((h.hand_iff t a).mp ha).1

theorem congr_held {held' : τ → Option α} (heq : held' = held) :
    Located things lists held' place := heq ▸ h

theorem notMem_of_hand (ha : held t = some a) (i : ι) : a ∉ lists i := by
  intro hin
  have hhand := ((h.hand_iff t a).mp ha).2
  rw [((h.list_iff i a).mp hin).2] at hhand
  cases hhand

theorem notMem_of_ne (ha : a ∈ lists i) (hij : j ≠ i) : a ∉ lists j := by
  intro hin
  have hplace := ((h.list_iff j a).mp hin).2
  rw [((h.list_iff i a).mp ha).2] at hplace
  cases hplace
  exact hij rfl

theorem hand_inj (ht : held t = some a) (hu : held u = some a) : t = u := by
  have hplace := ((h.hand_iff t a).mp ht).2
  rw [((h.hand_iff u a).mp hu).2] at hplace
  cases hplace
  rfl

/-- One thing moves, and the others stay. -/
theorem move [DecidableEq α] {things' : Set α} {lists' : ι → List α} {held' : τ → Option α}
    {p : Place ι τ} (hnodup : ∀ j, (lists' j).Nodup) (hthings : ∀ b ≠ a, (b ∈ things' ↔ b ∈ things))
    (hthing : a ∈ things') (hlists : ∀ j, ∀ b ≠ a, (b ∈ lists' j ↔ b ∈ lists j))
    (hlist : ∀ j, a ∈ lists' j ↔ p = .list j)
    (hhands : ∀ u, ∀ b ≠ a, (held' u = some b ↔ held u = some b))
    (hhand : ∀ u, held' u = some a ↔ p = .hand u) :
    Located things' lists' held' (update place a p) := by
  refine ⟨hnodup, ?_, ?_⟩
  · intro j b
    by_cases hba : b = a
    · subst hba
      rw [update_self, hlist]
      exact ⟨fun heq => ⟨hthing, heq⟩, fun hin => hin.2⟩
    · rw [update_of_ne hba, hlists j b hba, hthings b hba, h.list_iff]
  · intro u b
    by_cases hba : b = a
    · subst hba
      rw [update_self, hhand]
      exact ⟨fun heq => ⟨hthing, heq⟩, fun hin => hin.2⟩
    · rw [update_of_ne hba, hhands u b hba, hthings b hba, h.hand_iff]

end

variable [DecidableEq τ]

theorem held_update_some (ht : held t = none) (u : τ) {b : α} (hba : b ≠ a) :
    update held t (some a) u = some b ↔ held u = some b := by
  by_cases hu : u = t
  · subst hu
    rw [update_self, ht]
    simp [Ne.symm hba]
  · rw [update_of_ne hu]

variable [DecidableEq α] [DecidableEq ι]

theorem take (h : Located things lists held place) (hl : lists i = a :: l) (ht : held t = none) :
    Located things (update lists i l) (update held t (some a))
      (update place a (.hand t)) := by
  have hnodup := h.nodup i
  rw [hl, List.nodup_cons] at hnodup
  have ha : a ∈ lists i := by
    rw [hl]
    exact List.mem_cons_self
  refine h.move ?_ (fun _ _ => Iff.rfl) (h.mem_things_of_list ha) ?_ ?_
    (fun u b hba => held_update_some ht u hba) ?_
  · exact (forall_update_iff lists fun _ l => l.Nodup).mpr ⟨hnodup.2, fun j _ => h.nodup j⟩
  · intro j b hba
    by_cases hj : j = i
    · subst hj
      rw [update_self, hl]
      simp [hba]
    · rw [update_of_ne hj]
  · -- the thing was on this list only, and once
    intro j
    by_cases hj : j = i
    · subst hj
      simp [hnodup.1]
    · simp [hj, h.notMem_of_ne ha hj]
  · intro u
    by_cases hu : u = t
    · subst hu
      simp
    · have hnot : held u ≠ some a := fun hin => h.notMem_of_hand hin i ha
      simp [hu, hnot, Ne.symm hu]

omit [DecidableEq ι] in
/-- A new thing appears in an empty hand. -/
theorem create (h : Located things lists held place) (ha : a ∉ things) (ht : held t = none) :
    Located (insert a things) lists (update held t (some a))
      (update place a (.hand t)) := by
  refine h.move h.nodup ?_ (Set.mem_insert a things) (fun _ _ _ => Iff.rfl) ?_
    (fun u b hba => held_update_some ht u hba) ?_
  · intro b hba
    simp [hba]
  · intro j
    have hnot : a ∉ lists j := fun hin => ha (h.mem_things_of_list hin)
    simp [hnot]
  · intro u
    by_cases hu : u = t
    · subst hu
      simp
    · have hnot : held u ≠ some a := fun hin => ha (h.mem_things_of_hand hin)
      simp [hu, hnot, Ne.symm hu]

/-- A hand puts its thing on a list. -/
theorem put (h : Located things lists held place) (ht : held t = some a)
    (hl : l.Perm (a :: lists i)) :
    Located things (update lists i l) (update held t none)
      (update place a (.list i)) := by
  have hfree := h.notMem_of_hand ht
  refine h.move ?_ (fun _ _ => Iff.rfl) (h.mem_things_of_hand ht) ?_ ?_ ?_ ?_
  · refine (forall_update_iff lists fun _ l => l.Nodup).mpr ⟨?_, fun j _ => h.nodup j⟩
    rw [hl.nodup_iff, List.nodup_cons]
    exact ⟨hfree i, h.nodup i⟩
  · intro j b hba
    by_cases hj : j = i
    · subst hj
      rw [update_self, hl.mem_iff]
      simp [hba]
    · rw [update_of_ne hj]
  · intro j
    by_cases hj : j = i
    · subst hj
      rw [update_self, hl.mem_iff]
      simp
    · simp [hj, hfree j, Ne.symm hj]
  · intro u b hba
    by_cases hu : u = t
    · subst hu
      rw [update_self, ht]
      simp [Ne.symm hba]
    · rw [update_of_ne hu]
  · -- no other hand held the thing
    intro u
    by_cases hu : u = t
    · subst hu
      simp
    · have hnot : held u ≠ some a := fun hin => hu (h.hand_inj hin ht)
      simp [hu, hnot]

end Located

end Places
