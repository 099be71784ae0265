import Mathlib.Data.Nat.ModEq
import Mathlib.Tactic.Common

/-!
# Byte memory

Memory as a function from addresses to bytes, with little-endian loads and stores of any
width. A store of `n` bytes at `a` changes the addresses `a, …, a + n - 1` only, and a load of
the same width there gives back the number stored, up to the width.
-/

namespace ByteMem

/-- Memory: the byte at each address. -/
abbrev Mem := Nat → UInt8

/-- The little-endian number in the `n` bytes at `a`. -/
def load (m : Mem) : Nat → Nat → Nat
  | 0, _ => 0
  | n + 1, a => (m a).toNat + 256 * load m n (a + 1)

/-- Store the low `n` bytes of `v` at `a`, the least significant one first. -/
def store (m : Mem) (n a v : Nat) : Mem := fun x =>
  if a ≤ x ∧ x < a + n then UInt8.ofNat (v / 256 ^ (x - a)) else m x

variable {m m' : Mem} {n k a b v : Nat}

theorem load_congr (h : ∀ x, a ≤ x → x < a + n → m x = m' x) : load m n a = load m' n a := by
  induction n generalizing a with
  | zero => rfl
  | succ n ih =>
    simp only [load]
    rw [h a (Nat.le_refl a) (by omega), ih fun x hx hxn => h x (by omega) (by omega)]

theorem load_lt (m : Mem) (n a : Nat) : load m n a < 256 ^ n := by
  induction n generalizing a with
  | zero => simp [load]
  | succ n ih =>
    have hbyte : (m a).toNat < 256 := (m a).toNat_lt
    have hrest := ih (a + 1)
    simp only [load, Nat.pow_succ]
    omega

theorem load_of_bytes (h : ∀ i < n, m (a + i) = UInt8.ofNat (v / 256 ^ i)) :
    load m n a = v % 256 ^ n := by
  induction n generalizing a v with
  | zero => simp [load, Nat.mod_one]
  | succ n ih =>
    have hhead : (m a).toNat = v % 256 := by
      have h0 := h 0 (Nat.succ_pos n)
      rw [Nat.add_zero, Nat.pow_zero, Nat.div_one] at h0
      rw [h0]
      simp
    have htail : load m n (a + 1) = v / 256 % 256 ^ n := by
      refine ih fun i hi => ?_
      have hi' := h (i + 1) (by omega)
      rw [Nat.pow_succ', ← Nat.div_div_eq_div_mul] at hi'
      rw [← hi']
      congr 1
      omega
    simp only [load]
    rw [hhead, htail, Nat.pow_succ', Nat.mod_mul]

theorem store_outside (hx : b < a ∨ a + n ≤ b) : store m n a v b = m b := by
  unfold store
  rw [if_neg (by omega)]

/-- Two memories are the same but for the `n` bytes at `a`. -/
def SameOutside (m m' : Mem) (a n : Nat) : Prop := ∀ x, x < a ∨ a + n ≤ x → m' x = m x

theorem SameOutside.mono (h : SameOutside m m' a n) (hle : n ≤ k) : SameOutside m m' a k :=
  fun x hx => h x (by omega)

theorem load_store (m : Mem) (n a v : Nat) : load (store m n a v) n a = v % 256 ^ n := by
  refine load_of_bytes fun i hi => ?_
  unfold store
  rw [if_pos (by omega)]
  congr 3
  omega

theorem load_store_self (hv : v < 256 ^ n) : load (store m n a v) n a = v := by
  rw [load_store, Nat.mod_eq_of_lt hv]

theorem load_store_of_disjoint (h : a + n ≤ b ∨ b + k ≤ a) :
    load (store m k b v) n a = load m n a :=
  load_congr fun x hx hxn => store_outside (by omega)

-- A number in memory is read through the lemmas above, never by unfolding its bytes.
attribute [irreducible] load

end ByteMem
