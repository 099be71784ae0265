import SKernel.ForStd.Ring

/-!
# Intrusive lists

Model of `include/kernel/klist.h`: the writes of each list operation, in the order of the
source, on the link fields of a heap of nodes. A node is named by its address `N`.
-/

namespace SKernel.Native

variable {N : Type*} [DecidableEq N]

/-- `sk_list_init`. -/
def skListInit (L : Links N) (list : N) : Links N :=
  (L.setPrev list list).setNext list list

/-- `__list_add`. -/
def listAdd (L : Links N) (new prev next : N) : Links N :=
  (((L.setPrev next new).setNext new next).setPrev new prev).setNext prev new

/-- `__list_del`. -/
def listDel (L : Links N) (prev next : N) : Links N :=
  (L.setPrev next prev).setNext prev next

/-- `sk_list_add`. -/
def skListAdd (L : Links N) (head new : N) : Links N :=
  listAdd L new head (L.next head)

/-- `sk_list_add_tail`. -/
def skListAddTail (L : Links N) (head new : N) : Links N :=
  listAdd L new (L.prev head) head

/-- `sk_list_del`. -/
def skListDel (L : Links N) (entry : N) : Links N :=
  let L := listDel L (L.prev entry) (L.next entry)
  (L.setPrev entry entry).setNext entry entry

/-- `sk_list_empty`. -/
def skListEmpty (L : Links N) (head : N) : Bool :=
  L.next head = head

/-! ## The operations as ring operations -/

theorem skListInit_eq (L : Links N) (list : N) : skListInit L list = L.isolate list := rfl

theorem skListAdd_eq (L : Links N) (head new : N) :
    skListAdd L head new = L.insert new head (L.next head) := rfl

theorem skListAddTail_eq (L : Links N) (head new : N) :
    skListAddTail L head new = L.insert new (L.prev head) head := rfl

theorem skListDel_eq (L : Links N) (entry : N) : skListDel L entry = L.remove entry := rfl

variable {L : Links N} {dom heads : Set N} {q : N → List N}

theorem skListEmpty_iff (r : Links.Rings L dom heads q) {h : N} (hh : h ∈ heads) :
    skListEmpty L h = true ↔ q h = [] := by
  rw [skListEmpty, decide_eq_true_iff, r.next_head_eq_iff hh]

end SKernel.Native
