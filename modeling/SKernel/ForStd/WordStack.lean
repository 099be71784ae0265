import Mathlib.Data.BitVec
import SKernel.ForStd.ByteMem

/-!
# Stacks of words in a circular address space

Memory whose addresses have `w` bits, so that the bytes behind the last address are the first
ones. `Words m n a vs` says that the words `vs`, of `n` bytes each, stand at `a` and behind it. A
word that is stored in front of them, one or two at a time, makes the list longer, as long as all
words fit into the address space; where in the space they stand makes no difference.
-/

namespace WordStack

/-- Memory: the byte at each address of `w` bits. -/
abbrev Mem (w : Nat) := BitVec w → UInt8

variable {w : Nat}

/-- The little-endian number in the `n` bytes at `a`. -/
def load (m : Mem w) (n : Nat) (a : BitVec w) : Nat :=
  ByteMem.load (fun i => m (a + BitVec.ofNat w i)) n 0

/-- Store the low `n` bytes of `v` at `a`, the least significant one first. -/
def store (m : Mem w) (n : Nat) (a : BitVec w) (v : Nat) : Mem w := fun x =>
  if (x - a).toNat < n then UInt8.ofNat (v / 256 ^ (x - a).toNat) else m x

variable {m m' : Mem w} {n v v' : Nat} {a b x : BitVec w}

/-! ## Loads and stores -/

theorem load_congr (h : ∀ i < n, m (a + BitVec.ofNat w i) = m' (a + BitVec.ofNat w i)) :
    load m n a = load m' n a :=
  ByteMem.load_congr fun i _ hi => h i (by omega)

theorem load_lt (m : Mem w) (n : Nat) (a : BitVec w) : load m n a < 256 ^ n :=
  ByteMem.load_lt _ n 0

theorem store_outside (h : n ≤ (x - a).toNat) : store m n a v x = m x := by
  unfold store
  rw [if_neg (by omega)]

theorem toNat_add_ofNat_sub (a : BitVec w) {i : Nat} (hi : i < 2 ^ w) :
    (a + BitVec.ofNat w i - a).toNat = i := by
  rw [add_sub_cancel_left, BitVec.toNat_ofNat, Nat.mod_eq_of_lt hi]

theorem load_store (hn : n ≤ 2 ^ w) (hv : v < 256 ^ n) : load (store m n a v) n a = v := by
  have hbytes : load (store m n a v) n a = v % 256 ^ n := by
    refine ByteMem.load_of_bytes fun i hi => ?_
    rw [Nat.zero_add]
    unfold store
    rw [toNat_add_ofNat_sub a (by omega), if_pos hi]
  rw [hbytes, Nat.mod_eq_of_lt hv]

theorem store_comm (hn : 2 * n ≤ 2 ^ w) :
    store (store m n a v) n (a + BitVec.ofNat w n) v' =
      store (store m n (a + BitVec.ofNat w n) v') n a v := by
  funext x
  by_cases hx : (x - (a + BitVec.ofNat w n)).toNat < n
  · -- a byte of the second word is not one of the first
    have hdist : x - a = x - (a + BitVec.ofNat w n) + BitVec.ofNat w n := by
      rw [sub_add_eq_sub_sub, sub_add_cancel]
    have hout : n ≤ (x - a).toNat := by
      rw [hdist, BitVec.toNat_add, BitVec.toNat_ofNat, Nat.mod_eq_of_lt (by omega : n < 2 ^ w),
        Nat.mod_eq_of_lt (by omega)]
      omega
    rw [store_outside hout]
    unfold store
    rw [if_pos hx, if_pos hx]
  · rw [store_outside (Nat.le_of_not_lt hx)]
    unfold store
    rw [if_neg hx]

/-! ## Words -/

/-- The words at `a` and behind it. -/
def Words (m : Mem w) (n : Nat) : BitVec w → List Nat → Prop
  | _, [] => True
  | a, v :: vs => load m n a = v ∧ Words m n (a + BitVec.ofNat w n) vs

variable {vs : List Nat}

/-- The words are in the bytes that they cover. -/
theorem Words.congr (h : Words m n a vs)
    (hsame : ∀ i < n * vs.length, m' (a + BitVec.ofNat w i) = m (a + BitVec.ofNat w i)) :
    Words m' n a vs := by
  induction vs generalizing a with
  | nil => trivial
  | cons v vs ih =>
    rw [List.length_cons, Nat.mul_succ] at hsame
    refine ⟨?_, ih h.2 ?_⟩
    · rw [← h.1]
      exact load_congr fun i hi => hsame i (by omega)
    · intro i hi
      have hbyte := hsame (n + i) (by omega)
      rwa [BitVec.ofNat_add, ← add_assoc] at hbyte

/-- A word is stored in front of the others. -/
theorem Words.push (h : Words m n (a + BitVec.ofNat w n) vs) (hv : v < 256 ^ n)
    (hroom : n * (vs.length + 1) ≤ 2 ^ w) : Words (store m n a v) n a (v :: vs) := by
  rw [Nat.mul_succ] at hroom
  refine ⟨load_store (by omega) hv, h.congr fun i hi => store_outside ?_⟩
  rw [add_assoc, ← BitVec.ofNat_add, toNat_add_ofNat_sub a (by omega)]
  omega

theorem Words.push_pair (h : Words m n (a + BitVec.ofNat w n + BitVec.ofNat w n) vs)
    (hv : v < 256 ^ n) (hv' : v' < 256 ^ n) (hroom : n * (vs.length + 2) ≤ 2 ^ w) :
    Words (store (store m n a v) n (a + BitVec.ofNat w n) v') n a (v :: v' :: vs) := by
  have hroom' : n * (vs.length + 1) + n ≤ 2 ^ w := hroom
  rw [Nat.mul_succ] at hroom'
  -- the word behind is stored first, and then each is pushed by itself
  rw [store_comm (by omega)]
  have hsecond := h.push hv' (by rw [Nat.mul_succ]; omega)
  exact hsecond.push hv hroom

end WordStack
