import Mathlib.Data.List.Chain
import Mathlib.Data.List.Nodup
import Mathlib.Data.Set.Insert
import SKernel.ForStd.Update

/-!
# Circular doubly linked lists

A heap of nodes with a `next` and a `prev` field each. A ring is read off from one of its
nodes, its head: the nodes met on the way from the head back to the head. `Rings L dom heads q`
says that the nodes of `dom` are partitioned into disjoint well-formed rings: one ring for
each head `h`, with the further nodes `q h`, and a ring of its own for every other node.
Unlinked nodes are thus exactly the self-linked ones.

## Key results

- `Rings.insert`: linking a free node between two neighbours of a ring
- `Rings.remove`: unlinking a node from whatever ring holds it
- `Rings.isolate`: bringing a new node into the heap
- `Rings.next_head`, `Rings.next_mem`, `Rings.prev_head`: reading a ring
-/

universe u

/-- The link fields of a heap of nodes. -/
structure Links (N : Type u) where
  next : N → N
  prev : N → N

namespace Links

open List Function

variable {N : Type u} {L L' : Links N} {a h x : N} {as bs xs : List N} {q' : N → List N}

theorem ext_fields (hnext : ∀ x, L.next x = L'.next x)
    (hprev : ∀ x, L.prev x = L'.prev x) : L = L' :=
  calc L = ⟨L.next, L.prev⟩ := rfl
    _ = L' := by rw [funext hnext, funext hprev]

section Writes

variable [DecidableEq N]

/-- Write the `next` field of `a`. -/
def setNext (L : Links N) (a b : N) : Links N := { L with next := update L.next a b }

/-- Write the `prev` field of `a`. -/
def setPrev (L : Links N) (a b : N) : Links N := { L with prev := update L.prev a b }

@[simp] theorem setNext_next (L : Links N) (a b x : N) :
    (L.setNext a b).next x = if x = a then b else L.next x := by
  simp [setNext, update_apply]

@[simp] theorem setNext_prev (L : Links N) (a b : N) : (L.setNext a b).prev = L.prev := rfl

@[simp] theorem setPrev_prev (L : Links N) (a b x : N) :
    (L.setPrev a b).prev x = if x = a then b else L.prev x := by
  simp [setPrev, update_apply]

@[simp] theorem setPrev_next (L : Links N) (a b : N) : (L.setPrev a b).next = L.next := rfl

/-- Make `x` a ring of its own. -/
def isolate (L : Links N) (x : N) : Links N := (L.setPrev x x).setNext x x

/-- Link `x` between `a` and `b`. -/
def insert (L : Links N) (x a b : N) : Links N :=
  (((L.setPrev b x).setNext x b).setPrev x a).setNext a x

/-- Link `a` to `b`, leaving out what was between them. -/
def bypass (L : Links N) (a b : N) : Links N := (L.setPrev b a).setNext a b

/-- Unlink `x` and make it a ring of its own. -/
def remove (L : Links N) (x : N) : Links N := (L.bypass (L.prev x) (L.next x)).isolate x

variable {L : Links N} {x : N}

theorem insert_next {b : N} (y : N) :
    (L.insert x a b).next y = if y = a then x else if y = x then b else L.next y := by
  simp [insert]

theorem insert_prev {b : N} (y : N) :
    (L.insert x a b).prev y = if y = x then a else if y = b then x else L.prev y := by
  simp [insert]

theorem remove_next (y : N) :
    (L.remove x).next y = if y = x then x else if y = L.prev x then L.next x else L.next y := by
  simp [remove, isolate, bypass]

theorem remove_prev (y : N) :
    (L.remove x).prev y = if y = x then x else if y = L.next x then L.prev x else L.prev y := by
  simp [remove, isolate, bypass]

theorem insert_self (hn : L.next x = x) (hp : L.prev x = x) :
    L.insert x x x = L := by
  apply ext_fields
  · intro y
    rw [insert_next]
    split
    · rename_i h; rw [h, hn]
    · rfl
  · intro y
    rw [insert_prev]
    split
    · rename_i h; rw [h, hp]
    · rfl

theorem isolate_next (y : N) :
    (L.isolate x).next y = if y = x then x else L.next y := by
  simp [isolate]

theorem isolate_prev (y : N) :
    (L.isolate x).prev y = if y = x then x else L.prev y := by
  simp [isolate]

end Writes

/-- `b` comes right after `a`. -/
def Linked (L : Links N) (a b : N) : Prop := L.next a = b ∧ L.prev b = a

private theorem isChain_congr {l : List N} (hn : ∀ a ∈ l.dropLast, L'.next a = L.next a)
    (hp : ∀ b ∈ l.tail, L'.prev b = L.prev b) (h : l.IsChain L.Linked) : l.IsChain L'.Linked := by
  induction h with
  | nil => exact .nil
  | singleton => exact .singleton _
  | @cons_cons a b l hab _ ih =>
    refine .cons_cons ⟨?_, ?_⟩ (ih ?_ ?_)
    · rw [hn a (by simp), hab.1]
    · rw [hp b (by simp), hab.2]
    · intro x hx
      exact hn x (mem_cons_of_mem _ hx)
    · intro x hx
      exact hp x (mem_cons_of_mem _ hx)

/-- The nodes of `dom` form disjoint rings: the ring of head `h` continues with `q h`, and
    a node that is no head and in no `q h` is linked to itself. -/
structure Rings (L : Links N) (dom heads : Set N) (q : N → List N) : Prop where
  heads_dom : heads ⊆ dom
  mem_dom : ∀ {h x}, h ∈ heads → x ∈ q h → x ∈ dom
  head_notMem : ∀ {h h'}, h ∈ heads → h' ∈ heads → h ∉ q h'
  nodup : ∀ {h}, h ∈ heads → (q h).Nodup
  disjoint : ∀ {h h' x}, h ∈ heads → h' ∈ heads → x ∈ q h → x ∈ q h' → h = h'
  ring : ∀ {h}, h ∈ heads → (h :: (q h ++ [h])).IsChain L.Linked
  free : ∀ {x}, x ∈ dom → x ∉ heads → (∀ h ∈ heads, x ∉ q h) → L.next x = x ∧ L.prev x = x

/-- `x` is in the heap and in no ring but its own. -/
def Free (dom heads : Set N) (q : N → List N) (x : N) : Prop :=
  x ∈ dom ∧ x ∉ heads ∧ ∀ h ∈ heads, x ∉ q h

namespace Rings

variable {L : Links N} {dom heads : Set N} {q : N → List N}

/-! ## Reading a ring -/

private theorem dropLast_concat_getLastD (h : N) (as : List N) :
    (h :: as).dropLast ++ [as.getLastD h] = h :: as := by
  rw [← getLast_eq_getLastD]
  exact dropLast_append_getLast (by simp)

theorem headD_cons_tail (h : N) (bs : List N) : bs.headD h :: (bs ++ [h]).tail = bs ++ [h] := by
  cases bs <;> simp

private theorem ring_split (h : N) (as bs : List N) :
    h :: (as ++ bs ++ [h]) =
      (h :: as).dropLast ++ as.getLastD h :: bs.headD h :: (bs ++ [h]).tail := by
  have hfront := dropLast_concat_getLastD h as
  have hrest := headD_cons_tail h bs
  calc h :: (as ++ bs ++ [h]) = (h :: as) ++ (bs ++ [h]) := by simp
    _ = (h :: as).dropLast ++ [as.getLastD h] ++ (bs ++ [h]) := by rw [hfront]
    _ = _ := by rw [hrest]; simp

private theorem ring_split_middle (h x : N) (as bs : List N) :
    h :: (as ++ x :: bs ++ [h]) =
      (h :: as).dropLast ++ as.getLastD h :: x :: bs.headD h :: (bs ++ [h]).tail := by
  have hdrop : (h :: (as ++ [x])).dropLast = (h :: as).dropLast ++ [as.getLastD h] := by
    rw [← cons_append, dropLast_concat, dropLast_concat_getLastD]
  rw [append_cons as x bs, ring_split, getLastD_concat, hdrop, append_assoc,
    singleton_append]

section

variable (r : Rings L dom heads q)
include r

theorem linked_gap (hh : h ∈ heads) (hq : q h = as ++ bs) :
    L.Linked (as.getLastD h) (bs.headD h) := by
  have hring := r.ring hh
  rw [hq, ring_split, isChain_append_cons_cons] at hring
  exact hring.2.1

theorem next_head (hh : h ∈ heads) : L.next h = (q h).headD h :=
  (r.linked_gap hh (nil_append _).symm).1

theorem prev_head (hh : h ∈ heads) : L.prev h = (q h).getLastD h :=
  (r.linked_gap hh (append_nil _).symm).2

theorem next_mem (hh : h ∈ heads) (hq : q h = as ++ x :: bs) :
    L.next x = bs.headD h := by
  have hlink : L.Linked ((as ++ [x]).getLastD h) (bs.headD h) :=
    r.linked_gap hh (by simp [hq])
  rw [getLastD_concat] at hlink
  exact hlink.1

theorem prev_mem (hh : h ∈ heads) (hq : q h = as ++ x :: bs) :
    L.prev x = as.getLastD h :=
  (r.linked_gap hh hq).2

theorem next_mem_dom (hx : x ∈ dom) : L.next x ∈ dom := by
  have hring : ∀ {h}, h ∈ heads → ∀ {xs bs : List N}, q h = xs ++ bs → bs.headD h ∈ dom := by
    intro h hh xs bs hq
    cases bs with
    | nil => exact r.heads_dom hh
    | cons b bs => exact r.mem_dom hh (by rw [hq]; simp)
  by_cases hxh : x ∈ heads
  · rw [r.next_head hxh]
    exact hring hxh (nil_append (q x)).symm
  · by_cases hfree : ∀ h ∈ heads, x ∉ q h
    · rw [(r.free hx hxh hfree).1]
      exact hx
    · push Not at hfree
      obtain ⟨h, hh, hmem⟩ := hfree
      obtain ⟨as, bs, hq⟩ := append_of_mem hmem
      rw [r.next_mem hh hq]
      exact hring hh (hq.trans (append_cons as x bs))

theorem next_head_eq_iff (hh : h ∈ heads) : L.next h = h ↔ q h = [] := by
  have hnot := r.head_notMem hh hh
  rw [r.next_head hh]
  cases hq : q h with
  | nil => simp
  | cons x xs =>
    rw [hq] at hnot
    simp only [headD_cons, reduceCtorEq, iff_false]
    rintro rfl
    exact hnot mem_cons_self

end

variable {h : N}

private theorem eq_of_isChain {ys : List N} (hx : (a :: (xs ++ [h])).IsChain L.Linked)
    (hy : (a :: (ys ++ [h])).IsChain L.Linked) (hxs : h ∉ xs) (hys : h ∉ ys) : xs = ys := by
  induction xs generalizing a ys with
  | nil =>
    cases ys with
    | nil => rfl
    | cons y ys =>
      -- the second chain goes on where the first has reached the head
      have hax : L.next a = h := (isChain_cons_cons.mp hx).1.1
      have hay : L.next a = y := (isChain_cons_cons.mp hy).1.1
      exact absurd (hax.symm.trans hay ▸ mem_cons_self) hys
  | cons x xs ih =>
    have hax : L.next a = x := (isChain_cons_cons.mp hx).1.1
    cases ys with
    | nil =>
      have hay : L.next a = h := (isChain_cons_cons.mp hy).1.1
      exact absurd (hay.symm.trans hax ▸ mem_cons_self) hxs
    | cons y ys =>
      have hay : L.next a = y := (isChain_cons_cons.mp hy).1.1
      have hxy : x = y := hax.symm.trans hay
      subst hxy
      rw [ih (isChain_cons_cons.mp hx).2 (isChain_cons_cons.mp hy).2
        (fun hin => hxs (mem_cons_of_mem x hin))
        (fun hin => hys (mem_cons_of_mem x hin))]

/-- The links determine the rings. -/
theorem unique (r : Rings L dom heads q) (r' : Rings L dom heads q')
    (hh : h ∈ heads) : q h = q' h :=
  eq_of_isChain (r.ring hh) (r'.ring hh) (r.head_notMem hh hh) (r'.head_notMem hh hh)

/-! ## Nodes around a gap -/

private theorem getLastD_mem_cons (h : N) (as : List N) : as.getLastD h ∈ h :: as := by
  rw [← getLast_eq_getLastD]
  exact getLast_mem (by simp)

private theorem headD_mem_cons (h : N) (bs : List N) : bs.headD h ∈ h :: bs := by
  cases bs <;> simp

theorem getLastD_mem_ring (h : N) (as bs : List N) : as.getLastD h ∈ h :: (as ++ bs) := by
  rw [← cons_append]
  exact mem_append_left _ (getLastD_mem_cons h as)

theorem headD_mem_ring (h : N) (as bs : List N) : bs.headD h ∈ h :: (as ++ bs) := by
  cases mem_cons.mp (headD_mem_cons h bs) with
  | inl heq =>
    rw [heq]
    exact mem_cons_self
  | inr hmem => exact mem_cons_of_mem _ (mem_append_right _ hmem)

theorem ne_of_mem_ring (r : Rings L dom heads q) {h' u v : N} (hh : h ∈ heads) (hh' : h' ∈ heads)
    (hne : h ≠ h') (hu : u ∈ h :: q h) (hv : v ∈ h' :: q h') : u ≠ v := by
  rintro rfl
  rcases mem_cons.mp hu with rfl | hu
  · rcases mem_cons.mp hv with rfl | hv
    · exact hne rfl
    · exact r.head_notMem hh hh' hv
  · rcases mem_cons.mp hv with rfl | hv
    · exact r.head_notMem hh' hh hu
    · exact hne (r.disjoint hh hh' hu hv)

/-- No node occurs twice in a ring. -/
theorem nodup_cons (r : Rings L dom heads q) (hh : h ∈ heads) : (h :: q h).Nodup :=
  List.nodup_cons.mpr ⟨r.head_notMem hh hh, r.nodup hh⟩

variable {x : N}

theorem Free.ne_of_mem_ring {u : N} (hx : Free dom heads q x) (hh : h ∈ heads) (hu : u ∈ h :: q h) :
    u ≠ x := by
  rintro rfl
  rcases mem_cons.mp hu with rfl | hu
  · exact hx.2.1 hh
  · exact hx.2.2 h hh hu

theorem isChain_parts (L' : Links N) (hP : ((h :: as).dropLast ++ [as.getLastD h]).IsChain L.Linked)
    (hS : (bs.headD h :: (bs ++ [h]).tail).IsChain L.Linked) (hnd : (h :: (as ++ bs)).Nodup)
    (hn : ∀ u ∈ h :: (as ++ bs), u ≠ as.getLastD h → L'.next u = L.next u)
    (hp : ∀ v ∈ h :: (as ++ bs), v ≠ bs.headD h → L'.prev v = L.prev v) :
    ((h :: as).dropLast ++ [as.getLastD h]).IsChain L'.Linked ∧
      (bs.headD h :: (bs ++ [h]).tail).IsChain L'.Linked := by
  have hfront := dropLast_concat_getLastD h as
  have hrest := headD_cons_tail h bs
  have hnd' := List.nodup_cons.mp hnd
  have hdisj := (nodup_append.mp hnd'.2).2.2
  constructor
  · refine isChain_congr ?_ ?_ hP
    · -- all nodes of the front but its last one
      rw [dropLast_concat]
      intro u hu
      have hmem : u ∈ h :: as := dropLast_subset _ hu
      refine hn u ?_ ?_
      · rw [← cons_append]; exact mem_append_left _ hmem
      · rintro rfl
        have hnd1 : (h :: as).Nodup := by
          rw [← cons_append] at hnd
          exact (nodup_append.mp hnd).1
        rw [← hfront] at hnd1
        exact (nodup_append.mp hnd1).2.2 _ hu _ (mem_singleton_self _) rfl
    · rw [hfront, tail_cons]
      intro v hv
      refine hp v (mem_cons_of_mem _ (mem_append_left _ hv)) ?_
      rintro rfl
      rcases mem_cons.mp (headD_mem_cons h bs) with heq | hmem
      · rw [heq] at hv; exact hnd'.1 (mem_append_left _ hv)
      · exact hdisj _ hv _ hmem rfl
  · refine isChain_congr ?_ ?_ hS
    · rw [hrest, dropLast_concat]
      intro u hu
      refine hn u (mem_cons_of_mem _ (mem_append_right _ hu)) ?_
      rintro rfl
      rcases mem_cons.mp (getLastD_mem_cons h as) with heq | hmem
      · rw [heq] at hu; exact hnd'.1 (mem_append_right _ hu)
      · exact hdisj _ hmem _ hu rfl
    · -- all nodes of the rest but its first one
      rw [tail_cons]
      intro v hv
      have hmem : v ∈ bs ++ [h] := mem_of_mem_tail hv
      refine hp v ?_ ?_
      · rcases mem_append.mp hmem with hb | hb
        · exact mem_cons_of_mem _ (mem_append_right _ hb)
        · rw [mem_singleton.mp hb]; exact mem_cons_self
      · rintro rfl
        have hnd2 : (bs ++ [h]).Nodup := by
          refine nodup_append.mpr ⟨(nodup_append.mp hnd'.2).2.1, by simp, ?_⟩
          intro y hy z hz
          rw [mem_singleton.mp hz]
          rintro rfl
          exact hnd'.1 (mem_append_right _ hy)
        rw [← hrest] at hnd2
        exact (List.nodup_cons.mp hnd2).1 hv

theorem isChain_other (hring : (h :: (xs ++ [h])).IsChain L.Linked)
    (hn : ∀ u ∈ h :: xs, L'.next u = L.next u) (hp : ∀ v ∈ h :: xs, L'.prev v = L.prev v) :
    (h :: (xs ++ [h])).IsChain L'.Linked := by
  refine isChain_congr ?_ ?_ hring
  · rw [← cons_append, dropLast_concat]
    exact hn
  · intro v hv
    refine hp v ?_
    simp only [tail_cons, mem_append, mem_singleton] at hv
    rw [mem_cons]
    tauto

/-! ## Changing a ring -/

theorem congr (r : Rings L dom heads q) (hq : ∀ h ∈ heads, q' h = q h) :
    Rings L dom heads q' where
  heads_dom := r.heads_dom
  mem_dom := by intro h x hh; rw [hq h hh]; exact r.mem_dom hh
  head_notMem := by intro h h' hh hh'; rw [hq h' hh']; exact r.head_notMem hh hh'
  nodup := by intro h hh; rw [hq h hh]; exact r.nodup hh
  disjoint := by intro h h' x hh hh'; rw [hq h hh, hq h' hh']; exact r.disjoint hh hh'
  ring := by intro h hh; rw [hq h hh]; exact r.ring hh
  free := by
    intro x hx hxh hxq
    exact r.free hx hxh fun h hh => by rw [← hq h hh]; exact hxq h hh

variable [DecidableEq N]

theorem insert_ring (r : Rings L dom heads q) (hh : h ∈ heads) (hq : q h = as ++ bs)
    (hx : Free dom heads q x) :
    (h :: (as ++ x :: bs ++ [h])).IsChain (L.insert x (as.getLastD h) (bs.headD h)).Linked := by
  have hring := r.ring hh
  have hnd := r.nodup_cons hh
  have hne : ∀ u ∈ h :: (as ++ bs), u ≠ x := by
    rw [← hq]
    exact fun u hu => Free.ne_of_mem_ring hx hh hu
  rw [hq] at hring hnd
  rw [ring_split, isChain_append_cons_cons] at hring
  -- the parts before and behind the gap stay as they are
  obtain ⟨hP, hS⟩ := isChain_parts (L.insert x (as.getLastD h) (bs.headD h)) hring.1 hring.2.2 hnd
    (by
      intro u hu hlast
      rw [insert_next, if_neg hlast, if_neg (hne u hu)])
    (by
      intro v hv hfirst
      rw [insert_prev, if_neg (hne v hv), if_neg hfirst])
  rw [ring_split_middle, isChain_append_cons_cons]
  refine ⟨hP, ⟨?_, ?_⟩, isChain_cons_cons.mpr ⟨⟨?_, ?_⟩, hS⟩⟩
  · rw [insert_next, if_pos rfl]
  · rw [insert_prev, if_pos rfl]
  · rw [insert_next, if_neg (hne _ (getLastD_mem_ring h as bs)).symm, if_pos rfl]
  · rw [insert_prev, if_neg (hne _ (headD_mem_ring h as bs)), if_pos rfl]

/-- A free node is linked into a gap of the ring of `h`. -/
theorem insert (r : Rings L dom heads q) (hh : h ∈ heads) (hq : q h = as ++ bs)
    (hx : Free dom heads q x) :
    Rings (L.insert x (as.getLastD h) (bs.headD h)) dom heads
      (update q h (as ++ x :: bs)) := by
  have ha : as.getLastD h ∈ h :: q h := by
    rw [hq]
    exact getLastD_mem_ring h as bs
  have hb : bs.headD h ∈ h :: q h := by
    rw [hq]
    exact headD_mem_ring h as bs
  have hmem : ∀ {h' y}, y ∈ update q h (as ++ x :: bs) h' ↔ y ∈ q h' ∨ y = x ∧ h' = h :=
    mem_update_insert hq
  refine ⟨r.heads_dom, ?_, ?_, ?_, ?_, ?_, ?_⟩
  · intro h' y hh' hy
    rcases hmem.mp hy with hy | ⟨rfl, -⟩
    · exact r.mem_dom hh' hy
    · exact hx.1
  · intro h' h'' hh' hh'' hy
    rcases hmem.mp hy with hy | ⟨rfl, -⟩
    · exact r.head_notMem hh' hh'' hy
    · exact hx.2.1 hh'
  · intro h' hh'
    by_cases heq : h' = h
    · subst heq
      have hnd := r.nodup hh'
      have hnot := hx.2.2 h' hh'
      rw [hq] at hnd hnot
      rw [update_self, nodup_middle, List.nodup_cons]
      exact ⟨hnot, hnd⟩
    · rw [update_of_ne heq]
      exact r.nodup hh'
  · intro h' h'' y hh' hh'' hy hy'
    rcases hmem.mp hy with hin | ⟨hyx, he⟩
    · rcases hmem.mp hy' with hin' | ⟨hyx', -⟩
      · exact r.disjoint hh' hh'' hin hin'
      · exact absurd (hyx' ▸ hin) (hx.2.2 h' hh')
    · rcases hmem.mp hy' with hin' | ⟨-, he'⟩
      · exact absurd (hyx ▸ hin') (hx.2.2 h'' hh'')
      · rw [he, he']
  · intro h' hh'
    by_cases heq : h' = h
    · subst heq
      rw [update_self]
      exact r.insert_ring hh' hq hx
    · -- the links of the other rings are not touched
      rw [update_of_ne heq]
      refine isChain_other (r.ring hh') ?_ ?_
      · intro u hu
        rw [insert_next, if_neg (r.ne_of_mem_ring hh' hh heq hu ha),
          if_neg (Free.ne_of_mem_ring hx hh' hu)]
      · intro v hv
        rw [insert_prev, if_neg (Free.ne_of_mem_ring hx hh' hv),
          if_neg (r.ne_of_mem_ring hh' hh heq hv hb)]
  · intro y hy hyh hyq
    have hyx : y ≠ x := by
      rintro rfl
      exact hyq h hh (hmem.mpr (.inr ⟨rfl, rfl⟩))
    have hyq' : ∀ h' ∈ heads, y ∉ q h' := fun h' hh' hin => hyq h' hh' (hmem.mpr (.inl hin))
    have hfree := r.free hy hyh hyq'
    have hne : ∀ u ∈ h :: q h, y ≠ u := fun u hu =>
      (Free.ne_of_mem_ring ⟨hy, hyh, hyq'⟩ hh hu).symm
    rw [insert_next, insert_prev, if_neg (hne _ ha), if_neg hyx, if_neg hyx,
      if_neg (hne _ hb)]
    exact hfree

theorem insert_first (r : Rings L dom heads q) (hh : h ∈ heads) (hx : Free dom heads q x) :
    Rings (L.insert x h (L.next h)) dom heads (update q h (x :: q h)) := by
  have := r.insert hh (nil_append (q h)).symm hx
  rwa [← r.next_head hh] at this

/-- Unlinking a free node changes nothing. -/
theorem remove_free (r : Rings L dom heads q) (hx : Free dom heads q x) :
    L.remove x = L := by
  obtain ⟨hn, hp⟩ := r.free hx.1 hx.2.1 hx.2.2
  apply ext_fields
  · intro y
    rw [remove_next, hn, hp]
    split
    · rename_i h; rw [h, hn]
    · rfl
  · intro y
    rw [remove_prev, hn, hp]
    split
    · rename_i h; rw [h, hp]
    · rfl

omit [DecidableEq N] in
/-- A node of a ring is in it once. -/
theorem notMem_rest (r : Rings L dom heads q) (hh : h ∈ heads)
    (hq : q h = as ++ x :: bs) : (h :: (as ++ bs)).Nodup ∧ x ∉ h :: (as ++ bs) := by
  have hnd := r.nodup_cons hh
  rw [hq, ← cons_append, nodup_middle, List.nodup_cons] at hnd
  exact ⟨hnd.2, hnd.1⟩

theorem remove_ring (r : Rings L dom heads q) (hh : h ∈ heads)
    (hq : q h = as ++ x :: bs) : (h :: (as ++ bs ++ [h])).IsChain (L.remove x).Linked := by
  obtain ⟨hnd, hnot⟩ := r.notMem_rest hh hq
  have hprev := r.prev_mem hh hq
  have hnext := r.next_mem hh hq
  have hne : ∀ u ∈ h :: (as ++ bs), u ≠ x := fun u hu heq => hnot (heq ▸ hu)
  have hring := r.ring hh
  rw [hq, ring_split_middle, isChain_append_cons_cons, isChain_cons_cons] at hring
  obtain ⟨hP, -, -, hS⟩ := hring
  -- the parts before and behind the node stay as they are
  obtain ⟨hP', hS'⟩ := isChain_parts (L.remove x) hP hS hnd
    (by
      intro u hu hlast
      rw [remove_next, hprev, if_neg (hne u hu), if_neg hlast])
    (by
      intro v hv hfirst
      rw [remove_prev, hnext, if_neg (hne v hv), if_neg hfirst])
  rw [ring_split, isChain_append_cons_cons]
  refine ⟨hP', ⟨?_, ?_⟩, hS'⟩
  · rw [remove_next, hprev, if_neg (hne _ (getLastD_mem_ring h as bs)), if_pos rfl, hnext]
  · rw [remove_prev, hnext, if_neg (hne _ (headD_mem_ring h as bs)), if_pos rfl, hprev]

/-- The two parts around an unlinked node are joined. -/
theorem remove_mem (r : Rings L dom heads q) (hh : h ∈ heads) (hq : q h = as ++ x :: bs) :
    Rings (L.remove x) dom heads (update q h (as ++ bs)) := by
  have hxmem : x ∈ q h := by rw [hq]; simp
  obtain ⟨hnd, hnot⟩ := r.notMem_rest hh hq
  have hprev := r.prev_mem hh hq
  have hnext := r.next_mem hh hq
  have hsub : ∀ y ∈ h :: (as ++ bs), y ∈ h :: q h := by
    intro y hy
    rw [hq]
    simp only [mem_cons, mem_append] at hy ⊢
    tauto
  have hamem := hsub _ (getLastD_mem_ring h as bs)
  have hbmem := hsub _ (headD_mem_ring h as bs)
  have hmem : ∀ {h' y}, h' ∈ heads → (y ∈ update q h (as ++ bs) h' ↔
      y ∈ q h' ∧ y ≠ x) := by
    intro h' y hh'
    by_cases heq : h' = h
    · subst heq
      simp only [update_self, hq, mem_append, mem_cons, not_or] at hnot ⊢
      constructor
      · intro hy
        exact ⟨by tauto, by rintro rfl; tauto⟩
      · tauto
    · rw [update_of_ne heq]
      refine ⟨fun hy => ⟨hy, ?_⟩, fun hy => hy.1⟩
      rintro rfl
      exact heq (r.disjoint hh' hh hy hxmem)
  refine ⟨r.heads_dom, ?_, ?_, ?_, ?_, ?_, ?_⟩
  · intro h' y hh' hy
    exact r.mem_dom hh' ((hmem hh').mp hy).1
  · intro h' h'' hh' hh'' hy
    exact r.head_notMem hh' hh'' ((hmem hh'').mp hy).1
  · intro h' hh'
    by_cases heq : h' = h
    · subst heq
      rw [update_self]
      exact (List.nodup_cons.mp hnd).2
    · rw [update_of_ne heq]
      exact r.nodup hh'
  · intro h' h'' y hh' hh'' hy hy'
    exact r.disjoint hh' hh'' ((hmem hh').mp hy).1 ((hmem hh'').mp hy').1
  · intro h' hh'
    by_cases heq : h' = h
    · subst heq
      rw [update_self]
      exact r.remove_ring hh' hq
    · -- the links of the other rings are not touched
      rw [update_of_ne heq]
      have hx' : ∀ u ∈ h' :: q h', u ≠ x := fun u hu =>
        r.ne_of_mem_ring hh' hh heq hu (mem_cons_of_mem _ hxmem)
      refine isChain_other (r.ring hh') ?_ ?_
      · intro u hu
        rw [remove_next, hprev, if_neg (hx' u hu),
          if_neg (r.ne_of_mem_ring hh' hh heq hu hamem)]
      · intro v hv
        rw [remove_prev, hnext, if_neg (hx' v hv),
          if_neg (r.ne_of_mem_ring hh' hh heq hv hbmem)]
  · intro y hy hyh hyq
    by_cases hyx : y = x
    · subst hyx
      rw [remove_next, remove_prev, if_pos rfl, if_pos rfl]
      exact ⟨rfl, rfl⟩
    · have hyq' : ∀ h' ∈ heads, y ∉ q h' := fun h' hh' hin =>
        hyq h' hh' ((hmem hh').mpr ⟨hin, hyx⟩)
      have hne : ∀ u ∈ h :: q h, y ≠ u := fun u hu =>
        (Free.ne_of_mem_ring ⟨hy, hyh, hyq'⟩ hh hu).symm
      rw [remove_next, remove_prev, hprev, hnext, if_neg hyx, if_neg (hne _ hamem),
        if_neg hyx, if_neg (hne _ hbmem)]
      exact r.free hy hyh hyq'

/-- A node that is no head leaves the ring that holds it. -/
theorem remove (r : Rings L dom heads q) (hx : x ∈ dom) (hxh : x ∉ heads) :
    Rings (L.remove x) dom heads (fun h => (q h).erase x) := by
  by_cases hfree : ∀ h ∈ heads, x ∉ q h
  · rw [r.remove_free ⟨hx, hxh, hfree⟩]
    exact r.congr fun h hh => erase_of_not_mem (hfree h hh)
  · push Not at hfree
    obtain ⟨h, hh, hmem⟩ := hfree
    obtain ⟨as, bs, hq⟩ := append_of_mem hmem
    refine (r.remove_mem hh hq).congr fun h' hh' => ?_
    by_cases heq : h' = h
    · subst heq
      have hnd := r.nodup hh'
      rw [hq] at hnd
      have hnot : x ∉ as := fun hin =>
        (nodup_append.mp hnd).2.2 x hin x mem_cons_self rfl
      rw [update_self, hq, erase_append_right _ hnot, erase_cons_head]
    · rw [update_of_ne heq]
      exact erase_of_not_mem fun hin => heq (r.disjoint hh' hh hin hmem)

/-- Isolating a free node changes nothing. -/
theorem isolate_free (r : Rings L dom heads q) (hx : Free dom heads q x) :
    L.isolate x = L := by
  obtain ⟨hn, hp⟩ := r.free hx.1 hx.2.1 hx.2.2
  have hnext : (L.isolate x).next = L.next := by
    funext y
    rw [isolate_next]
    split
    · rename_i h; rw [h, hn]
    · rfl
  have hprev : (L.isolate x).prev = L.prev := by
    funext y
    rw [isolate_prev]
    split
    · rename_i h; rw [h, hp]
    · rfl
  calc L.isolate x = ⟨(L.isolate x).next, (L.isolate x).prev⟩ := rfl
    _ = ⟨L.next, L.prev⟩ := by rw [hnext, hprev]
    _ = L := rfl

omit [DecidableEq N] in
theorem of_isolated (hsub : heads ⊆ dom) (hself : ∀ x ∈ dom, L.next x = x ∧ L.prev x = x) :
    Rings L dom heads fun _ => [] where
  heads_dom := hsub
  mem_dom := by simp
  head_notMem := by simp
  nodup := by simp
  disjoint := by simp
  ring := by
    intro h hh
    obtain ⟨hnext, hprev⟩ := hself h (hsub hh)
    simp [Linked, hnext, hprev]
  free := by
    intro x hx _ _
    exact hself x hx

/-- A new node joins the heap as a ring of its own. -/
theorem isolate (r : Rings L dom heads q) (hx : x ∉ dom) :
    Rings (L.isolate x) (Insert.insert x dom) heads q := by
  have hne : ∀ {h u}, h ∈ heads → u ∈ h :: q h → u ≠ x := by
    rintro h u hh hu rfl
    rcases mem_cons.mp hu with rfl | hu
    · exact hx (r.heads_dom hh)
    · exact hx (r.mem_dom hh hu)
  refine ⟨r.heads_dom.trans (Set.subset_insert _ _), fun hh hy => Set.mem_insert_of_mem _
    (r.mem_dom hh hy), r.head_notMem, r.nodup, r.disjoint, ?_, ?_⟩
  · intro h hh
    refine isChain_other (r.ring hh) ?_ ?_
    · intro u hu
      rw [isolate_next, if_neg (hne hh hu)]
    · intro v hv
      rw [isolate_prev, if_neg (hne hh hv)]
  · intro y hy hyh hyq
    rw [isolate_next, isolate_prev]
    by_cases hyx : y = x
    · simp [hyx]
    · rw [if_neg hyx, if_neg hyx]
      exact r.free (Set.mem_of_mem_insert_of_ne hy hyx) hyh hyq

/-- The node need not have been part of the heap before. -/
theorem insert_first_new (r : Rings L dom heads q) (hh : h ∈ heads) (hx : x ∉ heads)
    (hq : ∀ h ∈ heads, x ∉ q h) :
    Rings (L.insert x h (L.next h)) (Insert.insert x dom) heads
      (update q h (x :: q h)) := by
  have hhx : h ≠ x := fun heq => hx (heq ▸ hh)
  by_cases hdom : x ∈ dom
  · rw [Set.insert_eq_of_mem hdom]
    exact r.insert_first hh ⟨hdom, hx, hq⟩
  · have hin := (r.isolate hdom).insert_first hh ⟨Set.mem_insert x dom, hx, hq⟩
    have heq : (L.isolate x).insert x h ((L.isolate x).next h) = L.insert x h (L.next h) := by
      have hnext : ((L.isolate x).insert x h ((L.isolate x).next h)).next =
          (L.insert x h (L.next h)).next := by
        funext y
        simp only [insert_next, isolate_next, if_neg hhx]
        split_ifs <;> rfl
      have hprev : ((L.isolate x).insert x h ((L.isolate x).next h)).prev =
          (L.insert x h (L.next h)).prev := by
        funext y
        simp only [insert_prev, isolate_next, isolate_prev, if_neg hhx]
        split_ifs <;> rfl
      calc (L.isolate x).insert x h ((L.isolate x).next h)
          = ⟨((L.isolate x).insert x h ((L.isolate x).next h)).next,
              ((L.isolate x).insert x h ((L.isolate x).next h)).prev⟩ := rfl
        _ = L.insert x h (L.next h) := by rw [hnext, hprev]
    rw [heq] at hin
    exact hin

end Rings

/-! ## Closed sets of nodes

What is left of rings when it is not known that they are well formed: links that do not lead out
of a set of nodes, and operations that do not write outside of it. -/

/-- The links of the nodes of `dom` stay in `dom`. -/
def Closed (L : Links N) (dom : Set N) : Prop := ∀ x ∈ dom, L.next x ∈ dom ∧ L.prev x ∈ dom

namespace Closed

variable {L : Links N} {dom : Set N} [DecidableEq N] {x a b y : N}

theorem insert (h : Closed L dom) (hx : x ∈ dom) (ha : a ∈ dom) (hb : b ∈ dom) :
    Closed (L.insert x a b) dom := by
  intro y hy
  rw [insert_next, insert_prev]
  constructor
  · split_ifs
    · exact hx
    · exact hb
    · exact (h y hy).1
  · split_ifs
    · exact ha
    · exact hx
    · exact (h y hy).2

theorem remove (h : Closed L dom) (hx : x ∈ dom) : Closed (L.remove x) dom := by
  intro y hy
  rw [remove_next, remove_prev]
  constructor
  · split_ifs
    · exact hx
    · exact (h x hx).1
    · exact (h y hy).1
  · split_ifs
    · exact hx
    · exact (h x hx).2
    · exact (h y hy).2

theorem insert_next_outside (hx : x ∈ dom) (ha : a ∈ dom) (hy : y ∉ dom) :
    (L.insert x a b).next y = L.next y := by
  rw [insert_next, if_neg (ne_of_mem_of_not_mem ha hy).symm,
    if_neg (ne_of_mem_of_not_mem hx hy).symm]

theorem remove_next_outside (h : Closed L dom) (hx : x ∈ dom) (hy : y ∉ dom) :
    (L.remove x).next y = L.next y := by
  rw [remove_next, if_neg (ne_of_mem_of_not_mem hx hy).symm,
    if_neg (ne_of_mem_of_not_mem (h x hx).2 hy).symm]

end Closed

/-- The same without a head whose ring is empty. -/
theorem Rings.closed {dom heads : Set N} {q : N → List N} (r : Rings L dom heads q) (hh : h ∈ heads)
    (hq : q h = []) : Closed L (dom \ {h}) := by
  -- the neighbours of a node are in the same ring, and this is not the ring of `h`
  have hring : ∀ h' ∈ heads, h' ≠ h → ∀ y ∈ h' :: q h', y ∈ dom \ {h} := by
    intro h' hh' hne y hy
    cases mem_cons.mp hy with
    | inl heq =>
      rw [heq]
      exact ⟨r.heads_dom hh', hne⟩
    | inr hin => exact ⟨r.mem_dom hh' hin, fun heq => r.head_notMem hh hh' (heq ▸ hin)⟩
  intro x hx
  obtain ⟨hdom, hxh⟩ := hx
  by_cases hhead : x ∈ heads
  · have hne : x ≠ h := hxh
    rw [r.next_head hhead, r.prev_head hhead]
    exact ⟨hring x hhead hne _ (headD_mem_cons x _), hring x hhead hne _ (getLastD_mem_cons x _)⟩
  · by_cases hfree : ∀ h' ∈ heads, x ∉ q h'
    · obtain ⟨hn, hp⟩ := r.free hdom hhead hfree
      rw [hn, hp]
      exact ⟨⟨hdom, hxh⟩, hdom, hxh⟩
    · push Not at hfree
      obtain ⟨h', hh', hin⟩ := hfree
      have hne : h' ≠ h := by
        rintro rfl
        rw [hq] at hin
        cases hin
      obtain ⟨as, bs, hsplit⟩ := append_of_mem hin
      rw [r.next_mem hh' hsplit, r.prev_mem hh' hsplit]
      have hsub : ∀ y, y ∈ h' :: bs ∨ y ∈ h' :: as → y ∈ dom \ {h} := by
        intro y hy
        refine hring h' hh' hne y ?_
        rw [hsplit]
        simp only [mem_cons, mem_append] at hy ⊢
        tauto
      exact ⟨hsub _ (.inl (headD_mem_cons h' bs)), hsub _ (.inr (getLastD_mem_cons h' as))⟩

end Links
