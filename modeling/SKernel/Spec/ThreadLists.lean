import SKernel.Native.Sched

/-!
# Ready queues and wait lists as lists of threads

`ThreadLists L created q` says that the link fields `L` of the created threads and of the
list heads form well-formed rings, and that list `l` holds the threads `q l`, in order. It
follows that a thread is on at most one list, and there at most once. The list operations of
the scheduler act on `q` as the corresponding operations on lists.

## Key results

- `ThreadLists.unique`: the links determine the lists
- `ThreadLists.del`, `ThreadLists.insertAt`, `ThreadLists.create`: the list operations
-/

namespace SKernel.Spec

open Native Links Function List

/-- The list head exists: `sk_thread_prio_table` has `SK_THREAD_PRIORITY_MAX` entries. -/
def ListHead.Valid : ListHead → Prop
  | .prio p => p < threadPriorityMax
  | .wait _ => True

/-- The node a walk over list `l` reaches when the threads `ts` are still ahead. -/
def firstThread (l : ListHead) : List Tid → ThreadNode
  | [] => .head l
  | t :: _ => .tlist t

/-- The nodes of each list, without its head. -/
def nodeLists (q : ListHead → List Tid) : ThreadNode → List ThreadNode
  | .head l => (q l).map .tlist
  | .tlist _ => []

/-- The list heads. -/
def listHeads : Set ThreadNode := {n | ∃ l, ListHead.Valid l ∧ n = .head l}

/-- All nodes: the list heads and the created threads. -/
def listNodes (created : List Tid) : Set ThreadNode :=
  listHeads ∪ {n | ∃ t ∈ created, n = .tlist t}

/-- The lists hold the threads `q`, and the other created threads are unlinked. -/
structure ThreadLists (L : Links ThreadNode) (created : List Tid) (q : ListHead → List Tid) :
    Prop where
  rings : Rings L (listNodes created) listHeads (nodeLists q)
  invalid : ∀ l, ¬ ListHead.Valid l → q l = []

theorem head_mem_listHeads {l : ListHead} : .head l ∈ listHeads ↔ ListHead.Valid l := by
  simp [listHeads]

private theorem tlist_notMem_listHeads (t : Tid) : ThreadNode.tlist t ∉ listHeads := by
  simp [listHeads]

theorem tlist_mem_listNodes {created : List Tid} {t : Tid} :
    .tlist t ∈ listNodes created ↔ t ∈ created := by
  simp [listNodes, tlist_notMem_listHeads]

private theorem tlist_injective : Function.Injective ThreadNode.tlist := by
  intro t u h
  cases h
  rfl

private theorem headD_map_tlist (l : ListHead) (ts : List Tid) :
    (ts.map ThreadNode.tlist).headD (.head l) = firstThread l ts := by
  cases ts <;> rfl

private theorem update_nodeLists (q : ListHead → List Tid) (l : ListHead) (ts : List Tid) :
    update (nodeLists q) (.head l) (ts.map .tlist) =
      nodeLists (update q l ts) := by
  funext n
  cases n with
  | head l' =>
    by_cases hl : l' = l
    · subst hl
      simp [nodeLists]
    · rw [update_of_ne (by simpa using hl)]
      simp [nodeLists, update_of_ne hl]
  | tlist t =>
    rw [update_of_ne (by simp)]
    rfl

namespace ThreadLists

variable {L : Links ThreadNode} {created as bs ts : List Tid} {q : ListHead → List Tid}
variable {l l' : ListHead} {t u : Tid} {fuel : Nat}

section

variable (h : ThreadLists L created q)
include h

private theorem valid_of_mem (ht : t ∈ q l) : ListHead.Valid l := by
  by_contra hl
  rw [h.invalid l hl] at ht
  cases ht

theorem mem_created (ht : t ∈ q l) : t ∈ created := by
  have hnode : ThreadNode.tlist t ∈ nodeLists q (.head l) := List.mem_map_of_mem ht
  exact tlist_mem_listNodes.mp
    (h.rings.mem_dom (head_mem_listHeads.mpr (h.valid_of_mem ht)) hnode)

/-- A thread is on a list at most once. -/
theorem nodup (l : ListHead) : (q l).Nodup := by
  by_cases hl : ListHead.Valid l
  · exact List.Nodup.of_map _ (h.rings.nodup (head_mem_listHeads.mpr hl))
  · rw [h.invalid l hl]
    exact nodup_nil

/-- A thread is on at most one list. -/
theorem disjoint (ht : t ∈ q l) (ht' : t ∈ q l') : l = l' := by
  have heq := h.rings.disjoint (head_mem_listHeads.mpr (h.valid_of_mem ht))
    (head_mem_listHeads.mpr (h.valid_of_mem ht'))
    (show ThreadNode.tlist t ∈ nodeLists q (.head l) from List.mem_map_of_mem ht)
    (List.mem_map_of_mem ht')
  cases heq
  rfl

theorem notMem_of_ne (ht : t ∈ q l) (hne : l' ≠ l) : t ∉ q l' :=
  fun ht' => hne (h.disjoint ht' ht)

/-- The links determine the lists. -/
theorem unique {q' : ListHead → List Tid} (h' : ThreadLists L created q') : q = q' := by
  funext l
  by_cases hl : ListHead.Valid l
  · exact map_injective_iff.mpr tlist_injective
      (h.rings.unique h'.rings (head_mem_listHeads.mpr hl))
  · rw [h.invalid l hl, h'.invalid l hl]

/-! ## Reading a list -/

theorem next_head (hl : ListHead.Valid l) : L.next (.head l) = firstThread l (q l) := by
  rw [h.rings.next_head (head_mem_listHeads.mpr hl)]
  exact headD_map_tlist l (q l)

theorem mem_of_next_head (hl : ListHead.Valid l) (hnext : L.next (.head l) = .tlist t) :
    t ∈ q l := by
  rw [h.next_head hl] at hnext
  cases hq : q l with
  | nil =>
    rw [hq] at hnext
    cases hnext
  | cons u us =>
    rw [hq] at hnext
    cases hnext
    exact mem_cons_self

theorem next_tlist (hq : q l = as ++ t :: bs) :
    L.next (.tlist t) = firstThread l bs := by
  have ht : t ∈ q l := by
    rw [hq]
    simp
  have hl := h.valid_of_mem ht
  have hnodes : nodeLists q (.head l) = as.map .tlist ++ .tlist t :: bs.map .tlist := by
    simp [nodeLists, hq]
  rw [h.rings.next_mem (head_mem_listHeads.mpr hl) hnodes, headD_map_tlist]

theorem notMem_of_next_self (hself : L.next (.tlist t) = .tlist t) (l : ListHead) : t ∉ q l := by
  intro ht
  obtain ⟨as, bs, hq⟩ := append_of_mem ht
  have hnext := (h.next_tlist hq).symm.trans hself
  have hnodup := h.nodup l
  cases bs with
  | nil => cases hnext
  | cons u bs =>
    cases hnext
    rw [hq] at hnodup
    have htail := (nodup_append.mp hnodup).2.1
    exact (nodup_cons.mp htail).1 mem_cons_self

end

/-- The threads that a walk finds from a node up to the next list head. -/
def threadsFrom (L : Links ThreadNode) : Nat → ThreadNode → Option (List Tid)
  | 0, _ => none
  | _ + 1, .head _ => some []
  | fuel + 1, .tlist t => (threadsFrom L fuel (L.next (.tlist t))).map (t :: ·)

variable (h : ThreadLists L created q)
include h

private theorem threadsFrom_eq (hq : q l = as ++ bs)
    (hwalk : threadsFrom L fuel (firstThread l bs) = some ts) : bs = ts := by
  induction fuel generalizing as bs ts with
  | zero => cases hwalk
  | succ fuel ih =>
    cases bs with
    | nil => cases hwalk; rfl
    | cons t bs =>
      simp only [firstThread, threadsFrom, Option.map_eq_some_iff] at hwalk
      obtain ⟨us, hus, rfl⟩ := hwalk
      rw [h.next_tlist hq] at hus
      rw [append_cons] at hq
      rw [ih hq hus]

theorem eq_of_threadsFrom (hl : ListHead.Valid l)
    (hwalk : threadsFrom L fuel (L.next (.head l)) = some ts) : q l = ts := by
  rw [h.next_head hl] at hwalk
  exact h.threadsFrom_eq (show q l = [] ++ q l from rfl) hwalk

theorem skListEmpty_iff (hl : ListHead.Valid l) : skListEmpty L (.head l) = true ↔ q l = [] := by
  rw [Native.skListEmpty_iff h.rings (head_mem_listHeads.mpr hl)]
  simp [nodeLists]

/-! ## Changing a list -/

/-- Unlinking a thread takes it off the list it is on. -/
theorem del (ht : t ∈ created) :
    ThreadLists (skListDel L (.tlist t)) created (fun l => (q l).erase t) where
  rings := by
    have hr := h.rings.remove (tlist_mem_listNodes.mpr ht) (tlist_notMem_listHeads t)
    refine hr.congr ?_
    intro n _
    cases n with
    | head l => exact map_erase tlist_injective (q l)
    | tlist u => rfl
  invalid := by
    intro l hl
    rw [h.invalid l hl]
    rfl

theorem insertAt (hl : ListHead.Valid l) (hq : q l = as ++ bs) (ht : t ∈ created)
    (hfree : ∀ l, t ∉ q l) :
    ThreadLists (skListAddTail L (firstThread l bs) (.tlist t)) created
      (update q l (as ++ t :: bs)) where
  rings := by
    have hh := head_mem_listHeads.mpr hl
    have hnodes : nodeLists q (.head l) = as.map .tlist ++ bs.map .tlist := by
      simp [nodeLists, hq]
    have hfree' : Free (listNodes created) listHeads (nodeLists q) (.tlist t) := by
      refine ⟨tlist_mem_listNodes.mpr ht, tlist_notMem_listHeads t, ?_⟩
      intro n hn
      obtain ⟨l', -, rfl⟩ := hn
      simpa [nodeLists] using hfree l'
    have hr := h.rings.insert hh hnodes hfree'
    have hlink := h.rings.linked_gap hh hnodes
    rw [headD_map_tlist] at hr hlink
    rw [skListAddTail_eq, hlink.2, ← update_nodeLists, map_append, map_cons]
    exact hr
  invalid := by
    intro l' hl'
    have hne : l' ≠ l := by
      intro heq
      subst heq
      exact hl' hl
    rw [update_of_ne hne]
    exact h.invalid l' hl'

/-- Linking a thread at the end of a list. -/
theorem addTail (hl : ListHead.Valid l) (ht : t ∈ created) (hfree : ∀ l, t ∉ q l) :
    ThreadLists (skListAddTail L (.head l) (.tlist t)) created
      (update q l (q l ++ [t])) :=
  h.insertAt hl (append_nil (q l)).symm ht hfree

/-- A new thread is on no list. -/
theorem create (ht : t ∉ created) : ThreadLists (skListInit L (.tlist t)) (t :: created) q where
  rings := by
    have hr := h.rings.isolate (x := .tlist t) (fun hmem => ht (tlist_mem_listNodes.mp hmem))
    have hdom : Insert.insert (ThreadNode.tlist t) (listNodes created) =
        listNodes (t :: created) := by
      ext n
      simp only [listNodes, Set.mem_insert_iff, Set.mem_union, Set.mem_ofPred_eq,
        mem_cons, exists_eq_or_imp]
      tauto
    rw [skListInit_eq, ← hdom]
    exact hr
  invalid := h.invalid

end ThreadLists

end SKernel.Spec
