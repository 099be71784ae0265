import SKernel.Native.BaseDef
import SKernel.Native.Klist

/-!
# Kernel objects

Model of `init/kobj.c`. An object is named by its address. Its `list` node hangs on the list of
its class in `_object_container` while it is registered. Memory comes from an allocator with a
state `σ`, which is `sk_malloc` and `sk_free`. Walks over a list are bounded by fuel and give
`none` when it runs out.
-/

namespace SKernel.Native

/-- `enum sk_object_type`. -/
inductive ObjectType where
  | thread
  | semaphore
  | mutex
  | event
  | mailbox
  | msque
  | device
  | timer
  deriving DecidableEq

/-- `SK_NAME_MAX`. -/
def nameMax : Nat := 16

/-- `SK_ALIGN_SIZE`, an `unsigned int`. -/
def alignSize : Nat := 4

/-- `struct sk_object`, without its list node. The type is `none` after `obj->type = -1`. -/
structure Object where
  name : List (BitVec 8)
  type : Option ObjectType
  flag : BitVec 8
  deriving DecidableEq

/-- The column `obj_size` of `_object_container`. -/
def objSize : ObjectType → Nat
  | .thread => 224
  | .semaphore => 0
  | .mutex => 0
  | .event => 0
  | .mailbox => 0
  | .msque => 0
  | .device => 80
  | .timer => 80

/-- The list nodes of the objects: the heads `obj_list` and each object's `list`. -/
inductive ObjNode where
  | objList (type : ObjectType)
  | list (obj : Nat)
  deriving DecidableEq

/-- The object lists and the objects. -/
structure Objects where
  links : Links ObjNode
  obj : Nat → Object

/-- `sk_malloc` and `sk_free`, over a state `σ`. -/
structure Allocator (σ : Type*) where
  malloc : σ → Nat → Option (Nat × σ)
  free : σ → Nat → Option σ

variable {σ : Type*}

/-- `sk_strcmp`. -/
def skStrcmp : List (BitVec 8) → List (BitVec 8) → Nat → BitVec 8
  | c1 :: st1, c2 :: st2, count + 1 =>
    if c1 - c2 ≠ 0 ∨ c2 = 0 then c1 - c2 else skStrcmp st1 st2 count
  | _, _, _ => 0

/-- The walk over an object list from `node` on: the first object that passes the test. -/
def objectFindLoop (L : Links ObjNode) (found : Nat → Bool) : Nat → ObjNode → Option (Option Nat)
  | 0, _ => none
  | _ + 1, .objList _ => some none
  | fuel + 1, .list obj =>
    if found obj then some (some obj) else objectFindLoop L found fuel (L.next (.list obj))

/-- `sk_object_find`, with a name that is not `SK_NULL`. -/
def skObjectFind (fuel : Nat) (o : Objects) (name : List (BitVec 8)) (type : ObjectType) :
    Option (Option Nat) :=
  objectFindLoop o.links (fun obj => skStrcmp (o.obj obj).name name nameMax = 0) fuel
    (o.links.next (.objList type))

/-- `sk_object_alloc`. -/
def skObjectAlloc (A : Allocator σ) (o : Objects) (m : σ) (type : ObjectType)
    (name : List (BitVec 8)) : Option (Nat × Objects × σ) :=
  (A.malloc m (objSize type)).map fun (obj, m) =>
    if obj = 0 then (0, o, m)
    else
      (obj,
        { links := skListAdd o.links (.objList type) (.list obj)
          obj := Function.update o.obj obj
            { name := name.take nameMax, type := some type, flag := 0 } }, m)

/-- `sk_object_delete`. -/
def skObjectDelete (A : Allocator σ) (o : Objects) (m : σ) (obj : Nat) : Option (Objects × σ) :=
  let o :=
    { links := skListDel o.links (.list obj)
      obj := Function.update o.obj obj { o.obj obj with type := none } }
  -- free the memory of object
  (A.free m obj).map fun m => (o, m)

/-- `sk_object_init`. -/
def skObjectInit (fuel : Nat) (o : Objects) (obj : Nat) (type : ObjectType)
    (name : List (BitVec 8)) : Option Objects :=
  (objectFindLoop o.links (fun objTmp => objTmp = obj) fuel (o.links.next (.objList type))).map
    fun
    | some _ => o
    | none =>
      { links := skListAdd o.links (.objList type) (.list obj)
        obj := Function.update o.obj obj
          { o.obj obj with name := name.take nameMax, type := some type } }

end SKernel.Native
