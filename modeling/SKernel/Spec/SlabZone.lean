import Mathlib.Data.Finset.Card
import Mathlib.Tactic.IntervalCases
import SKernel.ForStd.Chain
import SKernel.ForStd.Update
import SKernel.Spec.PageList

/-!
# Zones

A zone is a run of pages with a header, followed by chunks of one size. `Zone` is the state of a
zone as far as the allocator uses it: the chunks up to `uindex` have been handed out before, and
those on the list `free` have come back. `ZoneMem` says that a zone stands in memory.

`sk_malloc` places a new chunk by the rounded size of the request. In the classes where requests
are rounded to two sizes a chunk can therefore overlap the next one, but it stays in its slot as
far as the link of the free list goes.

## Key results

- `zoneIndex_class`: the chunk size of a request
- `mallocZone_zone`, `giveChunk_zone`: a chunk is taken from a zone and given back
-/

namespace SKernel.Spec

open Native ByteMem Chain Function List

/-! ## Alignment -/

private theorem and_add_and {y m : Nat} (hy : y < 2 ^ 64) (hm : m < 2 ^ 64) :
    (y &&& (2 ^ 64 - (m + 1))) + (y &&& m) = y := by
  have hbits (x z : BitVec 64) : (x &&& ~~~z) + (x &&& z) = x := by
    rw [BitVec.add_eq_or_of_and_eq_zero]
    · ext i hi
      simp only [BitVec.getElem_or, BitVec.getElem_and, BitVec.getElem_not]
      cases x[i] <;> cases z[i] <;> rfl
    · ext i hi
      simp only [BitVec.getElem_and, BitVec.getElem_not, BitVec.getElem_zero]
      cases x[i] <;> cases z[i] <;> rfl
  have hnat := congrArg BitVec.toNat (hbits (BitVec.ofNat 64 y) (BitVec.ofNat 64 m))
  simp only [BitVec.toNat_add, BitVec.toNat_and, BitVec.toNat_not, BitVec.toNat_ofNat] at hnat
  rw [Nat.mod_eq_of_lt hy, Nat.mod_eq_of_lt hm] at hnat
  have hin : y &&& m ≤ y := Nat.and_le_left
  have hout : y &&& (2 ^ 64 - 1 - m) ≤ y := Nat.and_le_left
  rw [show 2 ^ 64 - (m + 1) = 2 ^ 64 - 1 - m by omega]
  omega

variable {size s index chunk off w : Nat} {rest : List Nat}

private theorem skAlign_bounds (size align : Nat) (ha : 0 < align) (hlt : size + align ≤ 2 ^ 64) :
    size ≤ skAlign size align ∧ skAlign size align < size + align := by
  have hsum := and_add_and (y := size + align - 1) (m := align - 1) (by omega) (by omega)
  have hle : (size + align - 1) &&& (align - 1) ≤ align - 1 := Nat.and_le_right
  unfold skAlign
  rw [Nat.mod_eq_of_lt (by omega)]
  rw [show align - 1 + 1 = align by omega] at hsum
  omega

theorem skAlign_two_pow (size : Nat) {k : Nat} (hk : k ≤ 64) :
    skAlign size (2 ^ k) = (size + 2 ^ k - 1) % 2 ^ 64 / 2 ^ k * 2 ^ k := by
  have hpos : 0 < 2 ^ k := Nat.two_pow_pos k
  have hle : 2 ^ k ≤ 2 ^ 64 := Nat.pow_le_pow_right (by decide) hk
  have hlt : (size + 2 ^ k - 1) % 2 ^ 64 < 2 ^ 64 := Nat.mod_lt _ (by decide)
  have hsum := and_add_and (m := 2 ^ k - 1) hlt (by omega)
  rw [Nat.and_two_pow_sub_one_eq_mod, show 2 ^ k - 1 + 1 = 2 ^ k by omega] at hsum
  have hdiv := Nat.div_add_mod' ((size + 2 ^ k - 1) % 2 ^ 64) (2 ^ k)
  unfold skAlign
  omega

private theorem skAlign_class (size k bound : Nat) (hk : k ≤ 10) (hbound : bound ≤ 2 ^ 20)
    (hle : size ≤ 2 ^ k * bound) :
    size ≤ skAlign size (2 ^ k) ∧ skAlign size (2 ^ k) ≤ 2 ^ k * bound ∧
      2 ^ k ∣ skAlign size (2 ^ k) := by
  have hpos : 0 < 2 ^ k := Nat.two_pow_pos k
  have hpow : 2 ^ k ≤ 2 ^ 10 := Nat.pow_le_pow_right (by decide) hk
  have hmul : 2 ^ k * bound ≤ 2 ^ 10 * 2 ^ 20 := Nat.mul_le_mul hpow hbound
  have hge := (skAlign_bounds size (2 ^ k) hpos (by omega)).1
  have heq := skAlign_two_pow size (Nat.le_trans hk (by decide) : k ≤ 64)
  rw [Nat.mod_eq_of_lt (by omega)] at heq
  refine ⟨hge, ?_, ?_⟩
  · have hdiv : (size + 2 ^ k - 1) / 2 ^ k < bound + 1 := by
      refine Nat.div_lt_of_lt_mul ?_
      rw [Nat.mul_add, Nat.mul_one]
      omega
    rw [heq, Nat.mul_comm (2 ^ k)]
    exact Nat.mul_le_mul_right _ (Nat.le_of_lt_succ hdiv)
  · rw [heq]
    exact Nat.dvd_mul_left _ _

/-- A request is rounded up to class `m` of those that are `2 ^ k` apart. -/
structure InRow (size k m : Nat) : Prop where
  row : 3 ≤ k ∧ k ≤ 10
  le : m ≤ 16
  ge : k = 3 ∧ 0 < m ∨ 8 ≤ m ∧ 2 ^ k * 8 ≤ size
  size_le : size ≤ 2 ^ k * m
  outside : ¬(1024 ≤ size ∧ size < 2048)
  eq : zoneIndex size = some (m + 8 * (k - 3) - 1, 2 ^ k * m)

private theorem inRow_of_eq (hpos : 0 < size) (k : Nat) (hrow : 3 ≤ k ∧ k ≤ 10)
    (hle : size ≤ 2 ^ k * 16) (hge : k = 3 ∨ 2 ^ k * 8 ≤ size)
    (hout : ¬(1024 ≤ size ∧ size < 2048))
    (heq : zoneIndex size =
      some (skAlign size (2 ^ k) / 2 ^ k + 8 * (k - 3) - 1, skAlign size (2 ^ k))) :
    ∃ k m, InRow size k m := by
  have hpow : 0 < 2 ^ k := Nat.two_pow_pos k
  obtain ⟨hup, hbound, m, hm⟩ := skAlign_class size k 16 hrow.2 (by decide) hle
  rw [hm] at hup hbound
  rw [hm, Nat.mul_div_cancel_left m hpow] at heq
  refine ⟨k, m, hrow, Nat.le_of_mul_le_mul_left hbound hpow, ?_, hup, hout, heq⟩
  cases hge with
  | inl hk3 => exact .inl ⟨hk3, Nat.pos_of_mul_pos_left (Nat.lt_of_lt_of_le hpos hup)⟩
  | inr hge => exact .inr ⟨Nat.le_of_mul_le_mul_left (Nat.le_trans hge hup) hpow, hge⟩

private theorem zoneIndex_cases (hpos : 0 < size) (hlt : size < 16384) :
    (∃ k m, InRow size k m) ∨ 1024 ≤ size ∧ size < 2048 ∧
      zoneIndex size = some (skAlign size 127 / 128 + 31, skAlign size 127) := by
  by_cases hrange : 1024 ≤ size ∧ size < 2048
  · -- 127 is not a power of two
    obtain ⟨hge, hlt⟩ := hrange
    refine .inr ⟨hge, hlt, ?_⟩
    unfold zoneIndex
    rw [if_neg (by omega), if_neg (by omega), if_neg (by omega), if_neg (by omega), if_pos hlt]
  have hrow := inRow_of_eq hpos
  refine .inl ?_
  by_cases h128 : size < 128
  · exact hrow 3 (by decide) (by omega) (.inl rfl) hrange (if_pos h128)
  unfold zoneIndex at hrow
  rw [if_neg h128] at hrow
  by_cases h256 : size < 256
  · exact hrow 4 (by decide) (by omega) (by omega) hrange (if_pos h256)
  rw [if_neg h256] at hrow
  by_cases h512 : size < 512
  · exact hrow 5 (by decide) (by omega) (by omega) hrange (if_pos h512)
  rw [if_neg h512] at hrow
  by_cases h1024 : size < 1024
  · exact hrow 6 (by decide) (by omega) (by omega) hrange (if_pos h1024)
  rw [if_neg h1024, if_neg (by omega)] at hrow
  by_cases h4096 : size < 4096
  · exact hrow 8 (by decide) (by omega) (by omega) hrange (if_pos h4096)
  rw [if_neg h4096] at hrow
  by_cases h8192 : size < 8192
  · exact hrow 9 (by decide) (by omega) (by omega) hrange (if_pos h8192)
  · rw [if_neg h8192] at hrow
    exact hrow 10 (by decide) (by omega) (by omega) hrange (if_pos hlt)

theorem zoneIndex_bounds {limit : Nat} (hlimit : limit = 8192 ∨ limit = 16384)
    (hpos : 0 < size) (hlt : size < limit) :
    ∃ index chunk, zoneIndex size = some (index, chunk) ∧ index < 72 ∧ size ≤ chunk ∧
      8 ≤ chunk ∧ chunk ≤ limit := by
  rcases zoneIndex_cases hpos (by omega) with ⟨k, m, h⟩ | ⟨hge, hlt, heq⟩
  · obtain ⟨⟨hk3, hk10⟩, hm, hge, hle, -, heq⟩ := h
    refine ⟨_, _, heq, ?_⟩
    interval_cases k <;> omega
  · have hclass := skAlign_bounds size 127 (by decide) (by omega)
    exact ⟨_, _, heq, by omega, hclass.1, by omega, by omega⟩

/-! ## Classes -/

/-- The requests that `SK_ALIGN(n, 127)` leaves odd. -/
def OddClass (s : Nat) : Prop := 1024 ≤ s ∧ s < 2048 ∧ s % 2 = 1

instance (s : Nat) : Decidable (OddClass s) := inferInstanceAs (Decidable (_ ∧ _ ∧ _))

/-- The size to which the other requests of a class are rounded. -/
def classSize (index : Nat) : Nat :=
  if index < 16 then 8 * (index + 1)
  else if index < 24 then 16 * (index - 7)
  else if index < 32 then 32 * (index - 15)
  else if index < 40 then 64 * (index - 23)
  else if index < 48 then 128 * (index - 31)
  else if index < 56 then 256 * (index - 39)
  else if index < 64 then 512 * (index - 47)
  else 1024 * (index - 55)

private theorem skAlign_127 (hle : 1024 ≤ s) (hlt : s < 2048) :
    skAlign s 127 = (s + 126) / 128 * 128 + s % 2 := by
  have hbits : ∀ r < 128, r &&& 126 = r - r % 2 := by decide
  have hmask : (s + 126) &&& 126 = (s + 126) % 128 &&& 126 := by
    have hle : (s + 126) &&& 126 ≤ 126 := Nat.and_le_right
    have hmod := Nat.and_mod_two_pow (a := s + 126) (b := 126) (n := 7)
    rw [Nat.mod_eq_of_lt (by omega)] at hmod
    exact hmod
  have hsum := and_add_and (y := s + 126) (m := 126) (by omega) (by decide)
  rw [hmask, hbits _ (Nat.mod_lt _ (by decide)), show 126 + 1 = 127 from rfl] at hsum
  unfold skAlign
  rw [show s + 127 - 1 = s + 126 by omega, Nat.mod_eq_of_lt (by omega)]
  omega

theorem zoneIndex_class (hpos : 0 < s) (hlt : s < 16384) :
    ∃ index, zoneIndex s = some (index, classSize index + if OddClass s then 1 else 0) := by
  rcases zoneIndex_cases hpos hlt with ⟨k, m, h⟩ | ⟨hge, hlt, heq⟩
  · have hsize : ∀ k ≤ 10, 3 ≤ k → ∀ m ≤ 16, k = 3 ∧ 0 < m ∨ 8 ≤ m →
        classSize (m + 8 * (k - 3) - 1) = 2 ^ k * m := by decide
    refine ⟨m + 8 * (k - 3) - 1, h.eq.trans ?_⟩
    rw [if_neg (fun hodd => h.outside ⟨hodd.1, hodd.2.1⟩),
      hsize k h.row.2 h.row.1 m h.le (h.ge.imp_right And.left)]
    rfl
  · -- the lowest bit stays
    have hsize : ∀ j ≤ 16, 8 ≤ j → classSize (j + 31) = j * 128 := by decide
    have hdiv : ((s + 126) / 128 * 128 + s % 2) / 128 = (s + 126) / 128 := by omega
    have hbit : (if OddClass s then 1 else 0) = s % 2 := by
      by_cases hodd : s % 2 = 1
      · rw [if_pos ⟨hge, hlt, hodd⟩, hodd]
      · rw [if_neg fun h => hodd h.2.2]
        omega
    rw [heq, skAlign_127 hge hlt, hdiv, hbit]
    refine ⟨_, congrArg some (Prod.ext rfl ?_)⟩
    rw [hsize _ (by omega) (by omega)]

/-- The rounded sizes of a class: requests of one class may be rounded to sizes that differ by
    one. -/
def InClass (index chunk : Nat) : Prop :=
  chunk = classSize index ∨ chunk = classSize index + 1 ∧ 1024 ≤ classSize index

theorem zoneIndex_inClass (hpos : 0 < size) (hlt : size < 16384)
    (h : zoneIndex size = some (index, chunk)) : InClass index chunk := by
  obtain ⟨i, hi⟩ := zoneIndex_class hpos hlt
  obtain ⟨k, c, hk, -, hge, -⟩ := zoneIndex_bounds (.inr rfl) hpos hlt
  rw [h, Option.some_inj, Prod.mk.injEq] at hi hk
  rw [hi.1]
  by_cases hodd : OddClass size
  · rw [if_pos hodd] at hi
    have := hodd.1
    exact .inr ⟨hi.2, by have := hodd.2.2; omega⟩
  · rw [if_neg hodd] at hi
    exact .inl hi.2

/-- The first chunk lies behind the header. -/
theorem zoneOffset_bounds (hpos : 8 ≤ size) (hlt : size ≤ 2 ^ 20) :
    slabZoneSize ≤ zoneOffset size ∧ zoneOffset size < slabZoneSize + size := by
  have hsize := skAlign_bounds slabZoneSize size (by omega)
    (by unfold slabZoneSize; omega)
  have hmin := skAlign_bounds slabZoneSize minChunkSize (by decide) (by decide)
  unfold zoneOffset
  unfold minChunkSize at *
  split
  · exact hsize
  · omega

/-! ## The state of a zone -/

/-- A zone of `zs` bytes: class and size of its chunks, the last chunk handed out, the chunks that
    came back, and where the chunks start. A fresh chunk is placed by the rounded size of the
    request, which need not be the chunk size. -/
structure Zone (zs : Nat) where
  index : Nat
  chunk : Nat
  uindex : Nat
  free : List Nat
  /-- The offset of each chunk from the first one. -/
  pos : Nat → Nat
  zs_le : zs ≤ 2 ^ 17
  index_lt : index < 72
  chunk_ge : 8 ≤ chunk
  chunk_class : InClass index chunk
  /-- There is room for two chunks. -/
  two_fit : zoneOffset chunk + 2 * chunk ≤ zs
  uindex_lt : uindex < (zs - zoneOffset chunk) / chunk
  free_nodup : free.Nodup
  free_le : ∀ j ∈ free, j ≤ uindex
  /-- Each chunk starts in a slot of its own, with room for a pointer. -/
  pos_slot : ∀ j, j * classSize index ≤ pos j ∧ pos j + 8 ≤ (j + 1) * classSize index

namespace Zone

variable {zs : Nat} {v w : Zone zs} {i j a s : Nat}

/-- `z_nmax`. -/
def nmax (v : Zone zs) : Nat := (zs - zoneOffset v.chunk) / v.chunk

/-- `z_nfree`. -/
def nfree (v : Zone zs) : Nat := v.nmax - 1 - v.uindex + v.free.length

/-- The address of chunk `j` of the zone at `a`. -/
def chunkAddr (v : Zone zs) (a j : Nat) : Nat := a + zoneOffset v.chunk + v.pos j

/-- Chunk `j` is handed out. -/
def Used (v : Zone zs) (j : Nat) : Prop := j ≤ v.uindex ∧ j ∉ v.free

/-- The chunks stand one behind the other. -/
def Exact (v : Zone zs) : Prop := ∀ j ≤ v.uindex, v.pos j = j * v.chunk

theorem offset_ge (v : Zone zs) : slabZoneSize ≤ zoneOffset v.chunk := by
  have := v.zs_le
  have := v.two_fit
  exact (zoneOffset_bounds v.chunk_ge (by omega)).1

theorem nmax_ge (v : Zone zs) : 2 ≤ v.nmax := by
  have := v.two_fit
  exact (Nat.le_div_iff_mul_le (by have := v.chunk_ge; omega)).mpr (by omega)

private theorem nmax_lt (v : Zone zs) : v.nmax < 2 ^ 32 := by
  have := v.zs_le
  have hdiv : v.nmax ≤ zs - zoneOffset v.chunk := Nat.div_le_self ..
  omega

theorem uindex_lt_nmax (v : Zone zs) : v.uindex < v.nmax := v.uindex_lt

theorem lt_nmax (hj : j ≤ v.uindex) : j < v.nmax := Nat.lt_of_le_of_lt hj v.uindex_lt_nmax

private theorem slot_le (v : Zone zs) : classSize v.index ≤ v.chunk := by
  have := v.chunk_class
  unfold InClass at this
  omega

private theorem slot_ge (v : Zone zs) : 8 ≤ classSize v.index := by
  have := (v.pos_slot 0).2
  omega

private theorem chunk_inside (v : Zone zs) (hj : j < v.nmax) :
    zoneOffset v.chunk + (j + 1) * v.chunk ≤ zs := by
  have hmul : (j + 1) * v.chunk ≤ v.nmax * v.chunk := Nat.mul_le_mul_right _ hj
  have hdiv : v.nmax * v.chunk ≤ zs - zoneOffset v.chunk := Nat.div_mul_le_self ..
  have := v.two_fit
  omega

theorem chunkAddr_bounds (v : Zone zs) (a : Nat) (hj : j < v.nmax) :
    a + slabZoneSize ≤ v.chunkAddr a j ∧ v.chunkAddr a j + 8 ≤ a + zs := by
  have hoff := v.offset_ge
  have hin := v.chunk_inside hj
  have hpos := (v.pos_slot j).2
  have hslot : (j + 1) * classSize v.index ≤ (j + 1) * v.chunk :=
    Nat.mul_le_mul_left _ v.slot_le
  unfold chunkAddr
  omega

private theorem chunkAddr_apart (v : Zone zs) (a : Nat) (hij : i ≠ j) :
    v.chunkAddr a i + 8 ≤ v.chunkAddr a j ∨ v.chunkAddr a j + 8 ≤ v.chunkAddr a i := by
  have hi := v.pos_slot i
  have hj := v.pos_slot j
  unfold chunkAddr
  cases Nat.lt_or_gt_of_ne hij with
  | inl hlt =>
    have := Nat.mul_le_mul_right (classSize v.index) (show i + 1 ≤ j from hlt)
    omega
  | inr hgt =>
    have := Nat.mul_le_mul_right (classSize v.index) (show j + 1 ≤ i from hgt)
    omega

theorem chunk_apart (hv : v.Exact) (a : Nat) (hi : i ≤ v.uindex) (hj : j ≤ v.uindex)
    (hij : i ≠ j) :
    v.chunkAddr a i + v.chunk ≤ v.chunkAddr a j ∨ v.chunkAddr a j + v.chunk ≤ v.chunkAddr a i := by
  unfold chunkAddr
  rw [hv i hi, hv j hj]
  cases Nat.lt_or_gt_of_ne hij with
  | inl hlt =>
    have := Nat.mul_le_mul_right v.chunk (show i + 1 ≤ j from hlt)
    rw [Nat.add_mul, Nat.one_mul] at this
    omega
  | inr hgt =>
    have := Nat.mul_le_mul_right v.chunk (show j + 1 ≤ i from hgt)
    rw [Nat.add_mul, Nat.one_mul] at this
    omega

/-- The whole of a chunk lies inside the zone. -/
theorem chunk_end_le (hv : v.Exact) (a : Nat) (hj : j ≤ v.uindex) :
    v.chunkAddr a j + v.chunk ≤ a + zs := by
  have hin := v.chunk_inside (lt_nmax hj)
  rw [Nat.succ_mul] at hin
  unfold chunkAddr
  rw [hv j hj]
  omega

theorem chunkAddr_inj : v.chunkAddr a i = v.chunkAddr a j ↔ i = j := by
  constructor
  · intro heq
    by_contra hij
    have := v.chunkAddr_apart a hij
    omega
  · intro heq
    rw [heq]

private theorem slot_of_class (v : Zone zs) (hs : InClass v.index s) (hj : j < v.nmax) :
    j * classSize v.index ≤ j * s ∧ j * s + 8 ≤ (j + 1) * classSize v.index := by
  have hge := v.slot_ge
  rw [Nat.succ_mul]
  rcases hs with rfl | ⟨rfl, hlarge⟩
  · omega
  · -- there are at most 128 chunks of this size
    have hin := v.chunk_inside hj
    have hmul := Nat.mul_le_mul_left (j + 1) (Nat.le_trans hlarge v.slot_le)
    have hzs := v.zs_le
    rw [Nat.mul_succ]
    omega

private theorem free_subset (v : Zone zs) : v.free.toFinset ⊆ Finset.range (v.uindex + 1) := by
  intro j hj
  have := v.free_le j (mem_toFinset.mp hj)
  exact Finset.mem_range.mpr (by omega)

private theorem length_free_le (v : Zone zs) : v.free.length ≤ v.uindex + 1 := by
  rw [← toFinset_card_of_nodup v.free_nodup]
  simpa using Finset.card_le_card v.free_subset

private theorem nfree_le (v : Zone zs) : v.nfree ≤ v.nmax := by
  have := v.length_free_le
  have := v.uindex_lt_nmax
  unfold nfree
  omega

theorem not_used_of_nfree (h : v.nfree = v.nmax) (j : Nat) : ¬v.Used j := by
  intro hused
  have hlen := v.length_free_le
  have huindex := v.uindex_lt_nmax
  have hcard : (Finset.range (v.uindex + 1)).card ≤ v.free.toFinset.card := by
    rw [toFinset_card_of_nodup v.free_nodup, Finset.card_range]
    unfold nfree at h
    omega
  have heq := Finset.eq_of_subset_of_card_le v.free_subset hcard
  have hin : j ∈ v.free.toFinset := by
    rw [heq, Finset.mem_range]
    have := hused.1
    omega
  exact hused.2 (mem_toFinset.mp hin)

/-! Handing out chunks, and taking them back. -/

/-- A new zone, with its first chunk handed out. -/
def create (zs index chunk : Nat) (hzs : zs ≤ 2 ^ 17) (hindex : index < 72) (hchunk : 8 ≤ chunk)
    (hclass : InClass index chunk) (hfit : zoneOffset chunk + 2 * chunk ≤ zs) : Zone zs where
  index := index
  chunk := chunk
  uindex := 0
  free := []
  pos := fun j => j * classSize index
  zs_le := hzs
  index_lt := hindex
  chunk_ge := hchunk
  chunk_class := hclass
  two_fit := hfit
  uindex_lt := Nat.div_pos (by omega) (by omega)
  free_nodup := nodup_nil
  free_le := fun _ hj => absurd hj not_mem_nil
  pos_slot := by
    intro j
    unfold InClass at hclass
    rw [Nat.succ_mul]
    omega

theorem create_exact {hzs : zs ≤ 2 ^ 17} {hindex : index < 72} {hchunk : 8 ≤ chunk}
    {hclass : InClass index chunk} {hfit : zoneOffset chunk + 2 * chunk ≤ zs} :
    (create zs index chunk hzs hindex hchunk hclass hfit).Exact := by
  intro j hj
  obtain rfl : j = 0 := Nat.le_zero.mp hj
  show 0 * classSize index = 0 * chunk
  omega

theorem create_nfree_pos {hzs : zs ≤ 2 ^ 17} {hindex : index < 72} {hchunk : 8 ≤ chunk}
    {hclass : InClass index chunk} {hfit : zoneOffset chunk + 2 * chunk ≤ zs} :
    0 < (create zs index chunk hzs hindex hchunk hclass hfit).nfree := by
  have := (create zs index chunk hzs hindex hchunk hclass hfit).nmax_ge
  show 0 < nmax _ - 1 - 0 + 0
  omega

/-- Hand out the chunk behind `uindex`, for a request that is rounded to `s`. -/
def bump (v : Zone zs) (h : v.uindex + 1 < v.nmax) (hs : InClass v.index s) : Zone zs :=
  { v with
    uindex := v.uindex + 1
    pos := update v.pos (v.uindex + 1) ((v.uindex + 1) * s)
    uindex_lt := h
    free_le := fun j hj => Nat.le_succ_of_le (v.free_le j hj)
    pos_slot := by
      intro j
      by_cases hj : j = v.uindex + 1
      · rw [hj, update_self]
        exact v.slot_of_class hs h
      · rw [update_of_ne hj]
        exact v.pos_slot j }

/-- Hand out the first chunk of the list. -/
def pop (v : Zone zs) (rest : List Nat) (h : v.free = j :: rest) : Zone zs :=
  { v with
    free := rest
    free_nodup := by
      have := v.free_nodup
      rw [h] at this
      exact (nodup_cons.mp this).2
    free_le := fun i hi => v.free_le i (by rw [h]; exact mem_cons_of_mem j hi) }

/-- Take a chunk back. -/
def push (v : Zone zs) (h : v.Used j) : Zone zs :=
  { v with
    free := j :: v.free
    free_nodup := nodup_cons.mpr ⟨h.2, v.free_nodup⟩
    free_le := by
      intro i hi
      cases mem_cons.mp hi with
      | inl heq =>
        rw [heq]
        exact h.1
      | inr hin => exact v.free_le i hin }

/-- `w` is the zone `v` after chunk `j` has been handed out for a request rounded to `s`. -/
structure Takes (v : Zone zs) (s j : Nat) (w : Zone zs) : Prop where
  index : w.index = v.index
  chunk : w.chunk = v.chunk
  fresh : ¬v.Used j
  used : ∀ i, w.Used i ↔ v.Used i ∨ i = j
  nfree : w.nfree + 1 = v.nfree
  pos : ∀ i ≤ v.uindex, w.pos i = v.pos i
  new : ∀ i ≤ w.uindex, i ≤ v.uindex ∨ w.pos i = i * s

/-- `w` is the zone `v` after chunk `j` has come back. -/
structure Gives (v : Zone zs) (j : Nat) (w : Zone zs) : Prop where
  index : w.index = v.index
  chunk : w.chunk = v.chunk
  used : ∀ i, w.Used i ↔ v.Used i ∧ i ≠ j
  nfree : w.nfree = v.nfree + 1
  uindex : w.uindex = v.uindex
  pos : w.pos = v.pos

theorem Takes.exact (h : v.Takes v.chunk j w) (hv : v.Exact) : w.Exact := by
  intro i hi
  rw [h.chunk]
  cases h.new i hi with
  | inl hold =>
    rw [h.pos i hold]
    exact hv i hold
  | inr hnew => exact hnew

theorem Gives.exact (h : v.Gives j w) (hv : v.Exact) : w.Exact := by
  intro i hi
  rw [h.chunk, h.pos]
  exact hv i (by rw [← h.uindex]; exact hi)

private theorem takes_bump (h : v.uindex + 1 < v.nmax) (hs : InClass v.index s) :
    v.Takes s (v.uindex + 1) (v.bump h hs) := by
  have hnot : v.uindex + 1 ∉ v.free := by
    intro hin
    have := v.free_le _ hin
    omega
  refine ⟨rfl, rfl, fun hused => by have := hused.1; omega, ?_, ?_, ?_, ?_⟩
  · intro i
    show i ≤ v.uindex + 1 ∧ i ∉ v.free ↔ (i ≤ v.uindex ∧ i ∉ v.free) ∨ i = v.uindex + 1
    by_cases hi : i = v.uindex + 1
    · rw [hi]
      simp [hnot]
    · have : i ≤ v.uindex + 1 ↔ i ≤ v.uindex := by omega
      simp [hi, this]
  · show v.nmax - 1 - (v.uindex + 1) + v.free.length + 1 = v.nmax - 1 - v.uindex + v.free.length
    omega
  · intro i hi
    exact update_of_ne (by omega) ..
  · intro i hi
    by_cases hnew : i = v.uindex + 1
    · right
      rw [hnew]
      exact update_self ..
    · left
      have : i ≤ v.uindex + 1 := hi
      omega

private theorem takes_pop (h : v.free = j :: rest) (s : Nat) :
    v.Takes s j (v.pop rest h) := by
  have hnodup := v.free_nodup
  have hj := v.free_le j (by rw [h]; exact mem_cons_self)
  rw [h, nodup_cons] at hnodup
  refine ⟨rfl, rfl, fun hused => hused.2 (by rw [h]; exact mem_cons_self), ?_, ?_,
    fun _ _ => rfl, fun _ hi => .inl hi⟩
  · intro i
    show i ≤ v.uindex ∧ i ∉ rest ↔ (i ≤ v.uindex ∧ i ∉ v.free) ∨ i = j
    rw [h, mem_cons]
    by_cases hi : i = j
    · rw [hi]
      simp [hj, hnodup.1]
    · simp [hi]
  · show v.nmax - 1 - v.uindex + rest.length + 1 = v.nmax - 1 - v.uindex + v.free.length
    rw [h, length_cons]
    omega

private theorem free_bump (h : v.uindex + 1 < v.nmax) (hs : InClass v.index s) :
    (v.bump h hs).free = v.free.erase (v.uindex + 1) := by
  have hnot : v.uindex + 1 ∉ v.free := by
    intro hin
    have := v.free_le _ hin
    omega
  exact (erase_of_not_mem hnot).symm

theorem gives_push (h : v.Used j) : v.Gives j (v.push h) := by
  refine ⟨rfl, rfl, ?_, ?_, rfl, rfl⟩
  · intro i
    show i ≤ v.uindex ∧ i ∉ j :: v.free ↔ (i ≤ v.uindex ∧ i ∉ v.free) ∧ i ≠ j
    rw [mem_cons, not_or]
    tauto
  · show v.nmax - 1 - v.uindex + (j :: v.free).length = _
    rw [length_cons]
    rfl

theorem Takes.chunkAddr (h : v.Takes s j w) (a : Nat) (hi : i ≤ v.uindex) :
    w.chunkAddr a i = v.chunkAddr a i := by
  unfold Zone.chunkAddr
  rw [h.chunk, h.pos i hi]

theorem Gives.chunkAddr (h : v.Gives j w) (a i : Nat) : w.chunkAddr a i = v.chunkAddr a i := by
  unfold Zone.chunkAddr
  rw [h.chunk, h.pos]

theorem Takes.map_free (h : v.Takes s j w) (a : Nat) :
    v.free.map (w.chunkAddr a) = v.free.map (v.chunkAddr a) :=
  map_congr_left fun i hi => h.chunkAddr a (v.free_le i hi)

end Zone

/-! ## Zones in memory -/

variable {zs : Nat} {v : Zone zs} {m m' : Mem} {a n j k : Nat}

/-- The zone `v` stands at `a`, with `n` in `z_nfree`. `z_next` belongs to the lists of zones. The
    list of free chunks has no null pointer at its end; its length follows from the other fields. -/
structure ZoneMem (m : Mem) (a n : Nat) (v : Zone zs) : Prop where
  nfree : load m 4 (a + zNfree) = n
  nmax : load m 4 (a + zNmax) = v.nmax
  baseptr : load m 8 (a + zBaseptr) = a + zoneOffset v.chunk
  uindex : load m 4 (a + zUindex) = v.uindex
  chunksize : load m 4 (a + zChunksize) = v.chunk
  zoneindex : load m 4 (a + zZoneindex) = v.index
  chunks : Leads (load m 8) (load m 8 (a + zFreechunk)) (v.free.map (v.chunkAddr a))

namespace ZoneMem

theorem congr (h : ZoneMem m a n v)
    (hheader : ∀ x, a + zNfree ≤ x → x < a + slabZoneSize →
      (x < a + zNext ∨ a + zBaseptr ≤ x) → m' x = m x)
    (hchunks : ∀ j ∈ v.free, ∀ x, v.chunkAddr a j ≤ x → x < v.chunkAddr a j + 8 → m' x = m x) :
    ZoneMem m' a n v := by
  have hfield : ∀ w off, zNfree ≤ off ∧ off + w ≤ zNext ∨ zBaseptr ≤ off ∧ off + w ≤ slabZoneSize →
      load m' w (a + off) = load m w (a + off) := by
    intro w off hoff
    unfold zNfree zNext zBaseptr slabZoneSize at *
    exact load_congr fun x hx hxw => hheader x (by omega) (by omega) (by omega)
  refine ⟨?_, ?_, ?_, ?_, ?_, ?_, ?_⟩
  · rw [hfield 4 zNfree (by decide)]
    exact h.nfree
  · rw [hfield 4 zNmax (by decide)]
    exact h.nmax
  · rw [hfield 8 zBaseptr (by decide)]
    exact h.baseptr
  · rw [hfield 4 zUindex (by decide)]
    exact h.uindex
  · rw [hfield 4 zChunksize (by decide)]
    exact h.chunksize
  · rw [hfield 4 zZoneindex (by decide)]
    exact h.zoneindex
  · rw [hfield 8 zFreechunk (by decide)]
    refine h.chunks.congr fun c hc => ?_
    obtain ⟨j, hj, hjc⟩ := List.mem_map.mp hc
    rw [← hjc]
    exact load_congr fun x hx hx8 => hchunks j hj x hx hx8

theorem leads_header {p : Nat} {l : List Nat} (h : Leads (load m 8) p (l.map (v.chunkAddr a)))
    (hoff : off + w ≤ slabZoneSize) :
    Leads (load (store m w (a + off) k) 8) p (l.map (v.chunkAddr a)) := by
  refine h.congr fun c hc => load_store_of_disjoint ?_
  obtain ⟨j, -, hjc⟩ := List.mem_map.mp hc
  have := v.offset_ge
  rw [← hjc]
  unfold Zone.chunkAddr
  omega

theorem field_apart {w' off' : Nat} (h : off + w ≤ off' ∨ off' + w' ≤ off) :
    load (store m w' (a + off') k) w (a + off) = load m w (a + off) :=
  load_store_of_disjoint (by omega)

variable (h : ZoneMem m a n v)
include h

/-- `z_magic` and `z_next` do not matter. -/
theorem setOther (hoff : off + w ≤ zNfree ∨ zNext ≤ off ∧ off + w ≤ zBaseptr) (k : Nat) :
    ZoneMem (store m w (a + off) k) a n v := by
  refine h.congr ?_ ?_
  · intro x _ _ hx
    exact store_outside (by omega)
  · intro j _ x hx _
    have := v.offset_ge
    unfold Zone.chunkAddr at hx
    unfold slabZoneSize at this
    unfold zNfree zBaseptr at hoff
    exact store_outside (by omega)

private theorem setNfree (k : Nat) : ZoneMem (store m 4 (a + zNfree) k) a (k % 2 ^ 32) v where
  nfree := load_store ..
  nmax := (field_apart (by decide)).trans h.nmax
  baseptr := (field_apart (by decide)).trans h.baseptr
  uindex := (field_apart (by decide)).trans h.uindex
  chunksize := (field_apart (by decide)).trans h.chunksize
  zoneindex := (field_apart (by decide)).trans h.zoneindex
  chunks := by
    rw [field_apart (by decide)]
    exact leads_header h.chunks (by decide)

private theorem bump (hlt : v.uindex + 1 < v.nmax) (hs : InClass v.index s) :
    ZoneMem (store m 4 (a + zUindex) (v.uindex + 1)) a n (v.bump hlt hs) where
  nfree := (field_apart (by decide)).trans h.nfree
  nmax := (field_apart (by decide)).trans h.nmax
  baseptr := (field_apart (by decide)).trans h.baseptr
  uindex := load_store_self (by have := v.nmax_lt; omega)
  chunksize := (field_apart (by decide)).trans h.chunksize
  zoneindex := (field_apart (by decide)).trans h.zoneindex
  chunks := by
    have hchunks := h.chunks
    rw [← (v.takes_bump hlt hs).map_free a] at hchunks
    rw [field_apart (by decide)]
    exact leads_header hchunks (by decide)

private theorem pop (hfree : v.free = j :: rest) :
    load m 8 (a + zFreechunk) = v.chunkAddr a j ∧
      ZoneMem (store m 8 (a + zFreechunk) (load m 8 (v.chunkAddr a j))) a n (v.pop rest hfree) := by
  have hchunks := h.chunks
  rw [hfree, map_cons, leads_cons] at hchunks
  refine ⟨hchunks.1, ?_⟩
  exact {
    nfree := (field_apart (by decide)).trans h.nfree
    nmax := (field_apart (by decide)).trans h.nmax
    baseptr := (field_apart (by decide)).trans h.baseptr
    uindex := (field_apart (by decide)).trans h.uindex
    chunksize := (field_apart (by decide)).trans h.chunksize
    zoneindex := (field_apart (by decide)).trans h.zoneindex
    chunks := by
      rw [load_store_self (load_lt ..)]
      exact leads_header hchunks.2 (by decide) }

theorem push (hused : v.Used j) (ha : a + zs < 2 ^ 64) :
    ZoneMem (store (store m 8 (v.chunkAddr a j) (load m 8 (a + zFreechunk))) 8 (a + zFreechunk)
      (v.chunkAddr a j)) a n (v.push hused) := by
  have hin := v.chunkAddr_bounds a (Zone.lt_nmax hused.1)
  -- the chunk lies behind the header, and its pointer apart from those in the other chunks
  have hheader : ∀ {w off : Nat}, off + w ≤ slabZoneSize → ∀ k,
      load (store m 8 (v.chunkAddr a j) k) w (a + off) = load m w (a + off) := by
    intro w off hoff k
    exact load_store_of_disjoint (by omega)
  refine ⟨?_, ?_, ?_, ?_, ?_, ?_, ?_⟩
  · rw [field_apart (by decide), hheader (by decide)]
    exact h.nfree
  · rw [field_apart (by decide), hheader (by decide)]
    exact h.nmax
  · rw [field_apart (by decide), hheader (by decide)]
    exact h.baseptr
  · rw [field_apart (by decide), hheader (by decide)]
    exact h.uindex
  · rw [field_apart (by decide), hheader (by decide)]
    exact h.chunksize
  · rw [field_apart (by decide), hheader (by decide)]
    exact h.zoneindex
  · show Leads _ _ ((j :: v.free).map (v.chunkAddr a))
    refine leads_header (v := v) (l := j :: v.free) ?_ (by decide)
    rw [load_store_self (show v.chunkAddr a j < 256 ^ 8 by omega)]
    refine ⟨rfl, ?_⟩
    rw [load_store_self (load_lt ..)]
    refine h.chunks.congr fun c hc => load_store_of_disjoint ?_
    obtain ⟨i, hi, hic⟩ := List.mem_map.mp hc
    have hij : i ≠ j := by
      intro heq
      rw [heq] at hi
      exact hused.2 hi
    have := v.chunkAddr_apart a hij
    rw [← hic]
    omega

end ZoneMem

/-! ## The code on a zone in memory -/

variable {h : Heap} {index : Nat}

/-- At 0 free chunks the zone leaves its list. -/
theorem takeNfree_zone (index : Nat) (hz : ZoneMem h.mem a n v) (hpos : 0 < n) (hlt : n < 2 ^ 32) :
    ∃ m', takeNfree h a index = { h with
        mem := m'
        sysZoneArray := if n = 1 then
          update h.sysZoneArray index (load h.mem 8 (a + zNext)) else h.sysZoneArray } ∧
      ZoneMem m' a (n - 1) v ∧ SameOutside h.mem m' a slabZoneSize ∧
      (n ≠ 1 → load m' 8 (a + zNext) = load h.mem 8 (a + zNext)) := by
  have hmod : (n + (2 ^ 32 - 1)) % 2 ^ 32 = n - 1 := by omega
  have hz1 := hz.setNfree (n + (2 ^ 32 - 1))
  have hnext : load (store h.mem 4 (a + zNfree) (n + (2 ^ 32 - 1))) 8 (a + zNext) =
      load h.mem 8 (a + zNext) := ZoneMem.field_apart (by decide)
  rw [hmod] at hz1
  unfold takeNfree Heap.get32 Heap.set32 Heap.get64 Heap.set64
  dsimp only
  rw [hz.nfree, hz1.nfree, hnext]
  by_cases hone : n = 1
  · rw [if_pos (by omega), if_pos hone]
    refine ⟨_, rfl, hz1.setOther (by decide) 0, ?_, fun hne => absurd hone hne⟩
    intro x hx
    unfold zNfree zNext slabZoneSize at *
    rw [store_outside (by omega), store_outside (by omega)]
  · rw [if_neg (by omega), if_neg hone]
    refine ⟨_, rfl, hz1, ?_, fun _ => hnext⟩
    intro x hx
    unfold zNfree slabZoneSize at *
    exact store_outside (by omega)

theorem takeChunk_zone (hz : ZoneMem h.mem a n v) (hs : InClass v.index s) (hpos : 0 < v.nfree)
    (ha : a + zs < 2 ^ 64) :
    ∃ j w m', v.Takes s j w ∧ w.free = v.free.erase j ∧
      takeChunk h a s = (w.chunkAddr a j, { h with mem := m' }) ∧ ZoneMem m' a n w ∧
      ∀ x, x < a + zBaseptr ∨ a + slabZoneSize ≤ x → m' x = h.mem x := by
  have hlt := v.nmax_lt
  have huindex := v.uindex_lt_nmax
  unfold takeChunk Heap.get32 Heap.set32 Heap.get64 Heap.set64
  dsimp only
  rw [hz.uindex, hz.nmax, Nat.mod_eq_of_lt (by omega)]
  by_cases hmore : v.uindex + 1 < v.nmax
  · rw [if_pos (by omega)]
    have hz' := hz.bump hmore hs
    have hin := (v.bump hmore hs).chunkAddr_bounds a hmore
    have haddr : (v.bump hmore hs).chunkAddr a (v.uindex + 1) =
        a + zoneOffset v.chunk + (v.uindex + 1) * s :=
      congrArg (a + zoneOffset v.chunk + ·) (update_self ..)
    refine ⟨_, _, _, v.takes_bump hmore hs, v.free_bump hmore hs, ?_, hz', ?_⟩
    · rw [hz'.baseptr, hz'.uindex, haddr]
      rw [haddr] at hin
      show ((a + zoneOffset v.chunk + (v.uindex + 1) * s) % 2 ^ 64, _) = _
      rw [Nat.mod_eq_of_lt (by omega)]
    · intro x hx
      unfold zUindex zBaseptr slabZoneSize at *
      exact store_outside (by omega)
  · -- all chunks have been handed out before, so the list is not empty
    rw [if_neg (by omega)]
    cases hfree : v.free with
    | nil =>
      unfold Zone.nfree at hpos
      rw [hfree, length_nil] at hpos
      omega
    | cons j rest =>
      obtain ⟨hhead, hz'⟩ := hz.pop hfree
      refine ⟨j, _, _, v.takes_pop hfree s, (erase_cons_head ..).symm, ?_, hz', ?_⟩
      · rw [hhead]
        rfl
      · intro x hx
        unfold zFreechunk zBaseptr slabZoneSize at *
        exact store_outside (by omega)

theorem mallocZone_zone (index : Nat) (hz : ZoneMem h.mem a v.nfree v) (hs : InClass v.index s)
    (hpos : 0 < v.nfree) (ha : a + zs < 2 ^ 64) :
    ∃ j w m', v.Takes s j w ∧ w.free = v.free.erase j ∧
      mallocZone h a index s = (w.chunkAddr a j, { h with
        mem := m'
        sysZoneArray := if v.nfree = 1 then
          update h.sysZoneArray index (load h.mem 8 (a + zNext)) else h.sysZoneArray }) ∧
      ZoneMem m' a w.nfree w ∧ SameOutside h.mem m' a slabZoneSize ∧
      (v.nfree ≠ 1 → load m' 8 (a + zNext) = load h.mem 8 (a + zNext)) := by
  have hle := v.nfree_le
  have hlt := v.nmax_lt
  obtain ⟨m1, heq1, hz1, hout1, hnext1⟩ := takeNfree_zone index hz hpos (by omega)
  obtain ⟨j, w, m2, htakes, hfree, heq2, hz2, hout2⟩ :=
    takeChunk_zone (h := takeNfree h a index) (by rw [heq1]; exact hz1) hs hpos ha
  rw [heq1] at heq2 hout2
  refine ⟨j, w, m2, htakes, hfree, ?_, ?_, ?_, ?_⟩
  · unfold mallocZone
    rw [heq1]
    exact heq2
  · have := htakes.nfree
    rw [show w.nfree = v.nfree - 1 by omega]
    exact hz2
  · intro x hx
    rw [hout2 x (by unfold zBaseptr; omega)]
    exact hout1 x hx
  · intro hone
    rw [← hnext1 hone]
    refine load_congr fun x hx hx8 => hout2 x ?_
    unfold zNext zBaseptr at *
    omega

/-- A full zone joins its list again. -/
theorem giveChunk_zone (hz : ZoneMem h.mem a v.nfree v) (hused : v.Used j)
    (ha : a + zs < 2 ^ 64) (harray : h.sysZoneArray v.index < 2 ^ 64) :
    ∃ m', giveNfree (giveChunk h a (v.chunkAddr a j)) a = { h with
        mem := m'
        sysZoneArray := if v.nfree = 0 then
          update h.sysZoneArray v.index a else h.sysZoneArray } ∧
      ZoneMem m' a (v.push hused).nfree (v.push hused) ∧ SameOutside h.mem m' a zs ∧
      load m' 8 (a + zNext) =
        if v.nfree = 0 then h.sysZoneArray v.index else load h.mem 8 (a + zNext) := by
  have hnmax := v.nmax_lt
  have hle := (v.push hused).nfree_le
  have hnfree := (v.gives_push hused).nfree
  have hmax : (v.push hused).nmax = v.nmax := rfl
  have hin := v.chunkAddr_bounds a (Zone.lt_nmax hused.1)
  have hz1 := hz.push hused ha
  have hz2 := hz1.setNfree (v.nfree + 1)
  rw [Nat.mod_eq_of_lt (by omega), ← hnfree] at hz2
  have hnext : load (store (store (store h.mem 8 (v.chunkAddr a j) (load h.mem 8 (a + zFreechunk)))
      8 (a + zFreechunk) (v.chunkAddr a j)) 4 (a + zNfree) (v.push hused).nfree) 8 (a + zNext) =
      load h.mem 8 (a + zNext) := by
    rw [ZoneMem.field_apart (by decide), ZoneMem.field_apart (by decide)]
    refine load_store_of_disjoint ?_
    unfold zNext
    unfold slabZoneSize at hin
    omega
  unfold giveNfree giveChunk Heap.get32 Heap.set32 Heap.get64 Heap.set64
  dsimp only
  rw [hz1.nfree, ← hnfree, hz2.zoneindex]
  -- a zone that was full comes back to the list of its class
  by_cases hfull : v.nfree = 0
  · rw [if_pos hfull, if_pos hfull, if_pos hfull]
    refine ⟨_, rfl, hz2.setOther (by decide) _, ?_,
      load_store_self (v := h.sysZoneArray v.index) (by simpa using harray)⟩
    intro x hx
    unfold zNfree zNext zFreechunk slabZoneSize at *
    rw [store_outside (by omega), store_outside (by omega), store_outside (by omega),
      store_outside (by omega)]
  · rw [if_neg hfull, if_neg hfull, if_neg hfull]
    refine ⟨_, rfl, hz2, ?_, hnext⟩
    intro x hx
    unfold zNfree zFreechunk slabZoneSize at *
    rw [store_outside (by omega), store_outside (by omega), store_outside (by omega)]

theorem initZone_zone (hzs : zs ≤ 2 ^ 17) (hindex : index < 72) (hchunk : 8 ≤ chunk)
    (hclass : InClass index chunk) (hfit : zoneOffset chunk + 2 * chunk ≤ zs)
    (hsize : h.sysZoneSize = zs) (ha : a + zs < 2 ^ 64) (harray : h.sysZoneArray index < 2 ^ 64) :
    ∃ (w : Zone zs) (m' : Mem), w = Zone.create zs index chunk hzs hindex hchunk hclass hfit ∧
      initZone h a index chunk = (w.chunkAddr a 0, { h with
        mem := m'
        sysZoneArray := update h.sysZoneArray index a }) ∧
      ZoneMem m' a w.nfree w ∧ SameOutside h.mem m' a slabZoneSize ∧
      load m' 8 (a + zNext) = h.sysZoneArray index := by
  have hw1 := (Zone.create zs index chunk hzs hindex hchunk hclass hfit).nmax_lt
  have hw2 := (Zone.create zs index chunk hzs hindex hchunk hclass hfit).nmax_ge
  have hnmax : (Zone.create zs index chunk hzs hindex hchunk hclass hfit).nmax =
    (zs - zoneOffset chunk) / chunk := rfl
  have hnfree : (Zone.create zs index chunk hzs hindex hchunk hclass hfit).nfree =
    (zs - zoneOffset chunk) / chunk - 1 := rfl
  have hlt : (zs - zoneOffset chunk) / chunk < 256 ^ 4 := by omega
  have hbase : a + zoneOffset chunk < 256 ^ 8 := by omega
  unfold initZone Heap.get32 Heap.set32 Heap.get64 Heap.set64
  dsimp only
  rw [hsize]
  -- each field is read back past the fields written after it
  simp (disch := decide) only [ZoneMem.field_apart, load_store, Nat.mod_eq_of_lt hlt,
    Nat.mod_eq_of_lt hbase, Nat.zero_mod, Nat.zero_mul, Nat.add_zero]
  have hfirst : (a + zoneOffset chunk) % 2 ^ 64 =
      (Zone.create zs index chunk hzs hindex hchunk hclass hfit).chunkAddr a 0 := by
    show _ = a + zoneOffset chunk + 0 * classSize index
    rw [Nat.zero_mul, Nat.add_zero]
    exact Nat.mod_eq_of_lt hbase
  rw [hfirst]
  refine ⟨_, _, rfl, rfl, ⟨?_, ?_, ?_, ?_, ?_, ?_, trivial⟩, ?_, ?_⟩
  · simp (disch := decide) only [ZoneMem.field_apart, load_store]
    omega
  · simp (disch := decide) only [ZoneMem.field_apart, load_store]
    omega
  · simp (disch := decide) only [ZoneMem.field_apart, load_store]
    exact Nat.mod_eq_of_lt hbase
  · simp (disch := decide) only [ZoneMem.field_apart, load_store]
    rfl
  · simp (disch := decide) only [ZoneMem.field_apart, load_store]
    exact Nat.mod_eq_of_lt (show chunk < 256 ^ 4 by omega)
  · simp (disch := decide) only [ZoneMem.field_apart, load_store]
    exact Nat.mod_eq_of_lt (show index < 256 ^ 4 by omega)
  · intro x hx
    unfold zMagic zNfree zNmax zNext zBaseptr zUindex zChunksize zZoneindex
    unfold slabZoneSize at hx
    simp (disch := omega) only [store_outside]
  · rw [load_store]
    exact Nat.mod_eq_of_lt harray

end SKernel.Spec
