import Mathlib.Logic.Function.Basic
import SKernel.ForStd.ByteMem
import SKernel.Native.BaseDef

/-!
# Memory management

Model of `mem/slab.c`. The heap is a byte memory together with the static variables of the file;
the page heads, the usage table, the zone headers and the free chunks all live in that memory.
Pointers and sizes are 64 bits wide, and structures are laid out as on the 64-bit little-endian
target. A pointer to a pointer is a `PageCell` or a `ZoneCell`. Walks over a list are bounded by
fuel and give `none` when it runs out.
-/

namespace SKernel.Native

open ByteMem

/-! ## Constants and data -/

/-- `SK_PAGE_SIZE`, which is also the size of `struct sk_page_head`. -/
def pageSize : Nat := 4096

/-- `SK_PAGE_SHIFT`. -/
def pageShift : Nat := 12

/-- `SK_ALLOC_SLAB_MAGIC`. -/
def allocSlabMagic : Nat := 0x24310326

/-- `SK_ZONE_LIMIT`. -/
def zoneLimit : Nat := 16 * 1024

/-- `SK_ALLOC_MIN_ZONE_SIZE`. -/
def allocMinZoneSize : Nat := 32 * 1024

/-- `SK_ALLOC_MAX_ZONE_SIZE`. -/
def allocMaxZoneSize : Nat := 128 * 1024

/-- `SK_PAGE_TYPE_FREE`. -/
def pageTypeFree : Nat := 0x00

/-- `SK_PAGE_TYPE_SMALL`. -/
def pageTypeSmall : Nat := 0x01

/-- `SK_PAGE_TYPE_LARGE`. -/
def pageTypeLarge : Nat := 0x02

/-- `SK_ZONE_RELEASE_NUM`. -/
def zoneReleaseNum : Int := 2

/-- `SK_MIN_CHUNK_SIZE`. -/
def minChunkSize : Nat := 8

/-- `sizeof(struct slab_zone)`. -/
def slabZoneSize : Nat := 56

/-- `sizeof(struct sk_mem_usage)`. -/
def memUsageSize : Nat := 4

/-! The offsets of the fields of `struct slab_zone`. -/

def zMagic : Nat := 0

def zNfree : Nat := 4

def zNmax : Nat := 8

def zNext : Nat := 16

def zBaseptr : Nat := 24

def zUindex : Nat := 32

def zChunksize : Nat := 36

def zZoneindex : Nat := 40

def zFreechunk : Nat := 48

/-- The memory and the static variables. -/
structure Heap where
  mem : Mem
  sysMemStart : Nat
  sysMemEnd : Nat
  sysPageList : Nat
  sysMemUsage : Nat
  sysZoneArray : Nat → Nat
  sysZoneFree : Nat
  sysZoneFreeCnt : Int
  sysZoneSize : Nat
  sysZoneLimit : Nat
  sysZonePageCnt : Nat

namespace Heap

def get32 (h : Heap) (a : Nat) : Nat := load h.mem 4 a

def set32 (h : Heap) (a v : Nat) : Heap := { h with mem := store h.mem 4 a v }

def get64 (h : Heap) (a : Nat) : Nat := load h.mem 8 a

def set64 (h : Heap) (a v : Nat) : Heap := { h with mem := store h.mem 8 a v }

/-- `b->next` of a page head. -/
def pageNext (h : Heap) (b : Nat) : Nat := h.get64 b

/-- `b->page` of a page head. -/
def pageCount (h : Heap) (b : Nat) : Nat := h.get64 (b + 8)

def setPageNext (h : Heap) (b v : Nat) : Heap := h.set64 b v

def setPageCount (h : Heap) (b v : Nat) : Heap := h.set64 (b + 8) v

/-- `btokup(addr)`. -/
def btokup (h : Heap) (addr : Nat) : Nat :=
  h.sysMemUsage + memUsageSize * (((addr + 2 ^ 64 - h.sysMemStart) % 2 ^ 64) >>> pageShift)

/-- `kup->type`, the low 2 bits of the entry. -/
def usageType (h : Heap) (kup : Nat) : Nat := h.get32 kup % 4

/-- `kup->size`, the high 30 bits of the entry. -/
def usageSize (h : Heap) (kup : Nat) : Nat := h.get32 kup / 4

def setUsageType (h : Heap) (kup t : Nat) : Heap := h.set32 kup (h.usageSize kup * 4 + t % 4)

def setUsageSize (h : Heap) (kup n : Nat) : Heap :=
  h.set32 kup (n % 2 ^ 30 * 4 + h.usageType kup)

end Heap

/-! ## Pages -/

/-- The pointer `b + n` to a page head. -/
def pageAdd (b n : Nat) : Nat := (b + n * pageSize) % 2 ^ 64

/-- The values of `prev`: `&sys_page_list` and `&(b->next)`. -/
inductive PageCell where
  | list
  | next (b : Nat)

/-- `*prev`. -/
def PageCell.get (h : Heap) : PageCell → Nat
  | .list => h.sysPageList
  | .next b => h.pageNext b

/-- `*prev = v`. -/
def PageCell.set (h : Heap) (v : Nat) : PageCell → Heap
  | .list => { h with sysPageList := v }
  | .next b => h.setPageNext b v

/-- `sk_page_init`. -/
def skPageInit (h : Heap) (addr npages : Nat) : Heap :=
  let h := h.setPageCount addr npages
  let h := h.setPageNext addr 0
  { h with sysPageList := addr }

/-- The loop of `sk_page_free` and what comes after it. -/
def pageFreeLoop (n numPages : Nat) : Nat → PageCell → Heap → Option Heap
  | 0, _, _ => none
  | fuel + 1, prev, h =>
    let b := prev.get h
    if b ≠ 0 ∧ pageAdd b (h.pageCount b) = n then
      let h := h.setPageCount b (h.pageCount b + numPages)
      if pageAdd b (h.pageCount b) = h.pageNext b then
        let h := h.setPageCount b (h.pageCount b + h.pageCount (h.pageNext b))
        some (h.setPageNext b (h.pageNext (h.pageNext b)))
      else some h
    else if b ≠ 0 ∧ b = pageAdd n numPages then
      let h := h.setPageCount n (h.pageCount b + numPages)
      let h := h.setPageNext n (h.pageNext b)
      some (prev.set h n)
    else if b ≠ 0 ∧ ¬ b > pageAdd n numPages then pageFreeLoop n numPages fuel (.next b) h
    else
      -- the end of the list, or the first page head behind the new pages
      let h := h.setPageCount n numPages
      let h := h.setPageNext n b
      some (prev.set h n)

/-- `sk_page_free`. -/
def skPageFree (fuel : Nat) (h : Heap) (addr numPages : Nat) : Option Heap :=
  pageFreeLoop addr numPages fuel .list h

/-- The loop of `sk_page_alloc`. -/
def pageAllocLoop (npages : Nat) : Nat → PageCell → Heap → Option (Nat × Heap)
  | 0, _, _ => none
  | fuel + 1, prev, h =>
    let b := prev.get h
    if b = 0 then some (b, h)
    else if h.pageCount b > npages then
      -- split it
      let n := pageAdd b npages
      let h := h.setPageNext n (h.pageNext b)
      let h := h.setPageCount n (h.pageCount b - npages)
      some (b, prev.set h n)
    else if h.pageCount b = npages then some (b, prev.set h (h.pageNext b))
    else pageAllocLoop npages fuel (.next b) h

/-- `sk_page_alloc`. -/
def skPageAlloc (fuel : Nat) (h : Heap) (npages : Nat) : Option (Nat × Heap) :=
  if npages = 0 then some (0, h) else pageAllocLoop npages fuel .list h

/-! ## Zones -/

/-- The loop of `sk_system_mem_init` that doubles the zone size, at most twice. -/
def zoneSizeLoop (limitSize : Nat) : Nat → Nat → Nat
  | 0, size => size
  | fuel + 1, size =>
    if size < allocMaxZoneSize ∧ size <<< 1 < limitSize / 1024 then
      zoneSizeLoop limitSize fuel (size <<< 1)
    else size

/-- `sk_system_mem_init`. -/
def skSystemMemInit (fuel : Nat) (h : Heap) (beginAddr endAddr : Nat) : Option (SkErr × Heap) :=
  let h := { h with
    sysMemStart := skAlign beginAddr pageSize
    sysMemEnd := skAlign endAddr pageSize }
  if h.sysMemStart > h.sysMemEnd then some (.einval, h)
  else
    let limitSize := (h.sysMemEnd - h.sysMemStart) % 2 ^ 32
    let numPages := limitSize / pageSize
    let h := skPageInit h h.sysMemStart numPages
    -- calculate zone size
    let zoneSize := zoneSizeLoop limitSize 2 allocMinZoneSize
    let h := { h with
      sysZoneSize := zoneSize
      sysZoneLimit := if zoneSize / 4 > zoneLimit then zoneLimit else zoneSize / 4
      sysZonePageCnt := zoneSize / pageSize }
    -- allocate memusage array
    let limitSize := skAlign (numPages * memUsageSize) pageSize
    (skPageAlloc fuel h (limitSize / pageSize)).map fun r =>
      (.eok, { r.2 with sysMemUsage := r.1 })

/-- `zone_index`: the zone index and the rounded size. There is no case from 16384 bytes on. -/
def zoneIndex (n : Nat) : Option (Nat × Nat) :=
  if n < 128 then
    let n := skAlign n 8
    some (n / 8 - 1, n)
  else if n < 256 then
    let n := skAlign n 16
    some (n / 16 + 7, n)
  else if n < 512 then
    let n := skAlign n 32
    some (n / 32 + 15, n)
  else if n < 1024 then
    let n := skAlign n 64
    some (n / 64 + 23, n)
  else if n < 2048 then
    let n := skAlign n 127
    some (n / 128 + 31, n)
  else if n < 4096 then
    let n := skAlign n 256
    some (n / 256 + 39, n)
  else if n < 8192 then
    let n := skAlign n 512
    some (n / 512 + 47, n)
  else if n < 16384 then
    let n := skAlign n 1024
    some (n / 1024 + 55, n)
  else none

/-- `sk_malloc`: count one chunk less for an existing zone. -/
def takeNfree (h : Heap) (zone index : Nat) : Heap :=
  let h := h.set32 (zone + zNfree) (h.get32 (zone + zNfree) + (2 ^ 32 - 1))
  -- remove it from the sys_zone_array[] when it becomes full
  if h.get32 (zone + zNfree) = 0 then
    let h := { h with
      sysZoneArray := Function.update h.sysZoneArray index (h.get64 (zone + zNext)) }
    h.set64 (zone + zNext) 0
  else h

/-- `sk_malloc`: take a chunk out of an existing zone. -/
def takeChunk (h : Heap) (zone size : Nat) : Nat × Heap :=
  if (h.get32 (zone + zUindex) + 1) % 2 ^ 32 ≠ h.get32 (zone + zNmax) then
    -- the never-before-used memory
    let h := h.set32 (zone + zUindex) (h.get32 (zone + zUindex) + 1)
    ((h.get64 (zone + zBaseptr) + h.get32 (zone + zUindex) * size) % 2 ^ 64, h)
  else
    -- remove a chunk from the free chunk list
    let chunk := h.get64 (zone + zFreechunk)
    (chunk, h.set64 (zone + zFreechunk) (h.get64 (h.get64 (zone + zFreechunk))))

/-- `sk_malloc`: allocate out of an existing zone. -/
def mallocZone (h : Heap) (zone index size : Nat) : Nat × Heap :=
  takeChunk (takeNfree h zone index) zone size

/-- Set the usage entries of the pages of a zone. -/
def zoneSetUsage (h : Heap) (zone type : Nat) (size : Nat → Nat) : Heap :=
  let kup := h.btokup zone
  (List.range h.sysZonePageCnt).foldl (fun h off =>
    (h.setUsageType (kup + memUsageSize * off) type).setUsageSize (kup + memUsageSize * off)
      (size off)) h

/-- `sk_malloc`: a zone from the free zones or from new pages; `0` when there are none. -/
def newZone (fuel : Nat) (h : Heap) : Option (Nat × Heap) :=
  let zone := h.sysZoneFree
  if zone ≠ 0 then
    some (zone, { h with
      sysZoneFree := h.get64 (zone + zNext)
      sysZoneFreeCnt := h.sysZoneFreeCnt - 1 })
  else
    (skPageAlloc fuel h (h.sysZoneSize / pageSize)).map fun r =>
      if r.1 = 0 then r else (r.1, zoneSetUsage r.2 r.1 pageTypeSmall id)

/-- `sk_malloc`: the offset of the first chunk in a zone. -/
def zoneOffset (size : Nat) : Nat :=
  if (size ||| (size - 1)) + 1 = size <<< 1 then skAlign slabZoneSize size
  else skAlign slabZoneSize minChunkSize

/-- `sk_malloc`: set up the header of a new zone, and take its first chunk. -/
def initZone (h : Heap) (zone index size : Nat) : Nat × Heap :=
  let off := zoneOffset size
  let h := h.set32 (zone + zMagic) allocSlabMagic
  let h := h.set32 (zone + zZoneindex) index
  let h := h.set32 (zone + zNmax) ((h.sysZoneSize - off) / size)
  let h := h.set32 (zone + zNfree) (h.get32 (zone + zNmax) + (2 ^ 32 - 1))
  let h := h.set64 (zone + zBaseptr) (zone + off)
  let h := h.set32 (zone + zUindex) 0
  let h := h.set32 (zone + zChunksize) size
  let chunk := (h.get64 (zone + zBaseptr) + h.get32 (zone + zUindex) * size) % 2 ^ 64
  -- link to zone array
  let h := h.set64 (zone + zNext) (h.sysZoneArray index)
  (chunk, { h with sysZoneArray := Function.update h.sysZoneArray index zone })

/-- `sk_malloc`. -/
def skMalloc (fuel : Nat) (h : Heap) (size : Nat) : Option (Nat × Heap) :=
  if size = 0 then some (0, h)
  else if size ≥ h.sysZoneLimit then
    -- handle large allocations directly
    let size := skAlign size pageSize
    (skPageAlloc fuel h (size >>> pageShift)).map fun r =>
      if r.1 = 0 then r
      else
        let h := r.2
        let kup := h.btokup r.1
        let h := h.setUsageType kup pageTypeLarge
        (r.1, h.setUsageSize kup (size >>> pageShift))
  else
    match zoneIndex size with
    | none => none
    | some (index, size) =>
      if h.sysZoneArray index ≠ 0 then some (mallocZone h (h.sysZoneArray index) index size)
      else (newZone fuel h).map fun r => if r.1 = 0 then r else initZone r.2 r.1 index size

/-- The values of `pz`: `&sys_zone_array[index]` and `&z->z_next`. -/
inductive ZoneCell where
  | array (index : Nat)
  | next (z : Nat)

/-- `*pz`. -/
def ZoneCell.get (h : Heap) : ZoneCell → Nat
  | .array index => h.sysZoneArray index
  | .next z => h.get64 (z + zNext)

/-- `*pz = v`. -/
def ZoneCell.set (h : Heap) (v : Nat) : ZoneCell → Heap
  | .array index => { h with sysZoneArray := Function.update h.sysZoneArray index v }
  | .next z => h.set64 (z + zNext) v

/-- The loop of `sk_free` that finds the pointer to a zone. -/
def findZone (h : Heap) (zone : Nat) : Nat → ZoneCell → Option ZoneCell
  | 0, _ => none
  | fuel + 1, pz => if zone = pz.get h then some pz else findZone h zone fuel (.next (pz.get h))

/-- `sk_free`: release the first of the free zones to the page allocator. -/
def releaseZone (fuel : Nat) (h : Heap) : Option Heap :=
  let zone := h.sysZoneFree
  let h := { h with sysZoneFree := h.get64 (zone + zNext) }
  -- `--sys_zone_free` is a decrement of the pointer
  let h := { h with sysZoneFree := (h.sysZoneFree + (2 ^ 64 - slabZoneSize)) % 2 ^ 64 }
  let h := zoneSetUsage h zone pageTypeFree fun _ => 0
  skPageFree fuel h zone (h.sysZoneSize / pageSize)

/-- `sk_free`: move a totally free zone from its zone array list to the free zones. -/
def retireZone (fuel : Nat) (h : Heap) (zone : Nat) : Option Heap :=
  (findZone h zone fuel (.array (h.get32 (zone + zZoneindex)))).bind fun pz =>
    let h := pz.set h (h.get64 (zone + zNext))
    -- reset zone, insert to free zone list
    let h := h.set32 (zone + zMagic) (2 ^ 32 - 1)
    let h := h.set64 (zone + zNext) h.sysZoneFree
    let h := { h with sysZoneFree := zone, sysZoneFreeCnt := h.sysZoneFreeCnt + 1 }
    if h.sysZoneFreeCnt > zoneReleaseNum then releaseZone fuel h else some h

/-- `sk_free`: put a chunk on the free chunk list of its zone. -/
def giveChunk (h : Heap) (zone ptr : Nat) : Heap :=
  let h := h.set64 ptr (h.get64 (zone + zFreechunk))
  h.set64 (zone + zFreechunk) ptr

/-- `sk_free`: count one chunk more, and link the zone to the zone array when it was full. -/
def giveNfree (h : Heap) (zone : Nat) : Heap :=
  let nfree := h.get32 (zone + zNfree)
  let h := h.set32 (zone + zNfree) (nfree + 1)
  if nfree = 0 then
    let index := h.get32 (zone + zZoneindex)
    let h := h.set64 (zone + zNext) (h.sysZoneArray index)
    { h with sysZoneArray := Function.update h.sysZoneArray index zone }
  else h

/-- The zone of a chunk, from the usage entry of its page. -/
def zoneOf (h : Heap) (ptr : Nat) : Nat :=
  let page := ptr - ptr % pageSize
  (page + 2 ^ 64 - h.usageSize (h.btokup page) * pageSize) % 2 ^ 64

/-- `sk_free`. -/
def skFree (fuel : Nat) (h : Heap) (ptr : Nat) : Option Heap :=
  if ptr = 0 then some h
  else
    let page := ptr - ptr % pageSize
    let kup := h.btokup page
    if h.usageType kup = pageTypeLarge then
      -- release large allocation
      let size := h.usageSize kup
      skPageFree fuel (h.setUsageSize kup 0) ptr size
    else
      -- slab zone case, find zone by ptr
      let zone := zoneOf h ptr
      let h := giveNfree (giveChunk h zone ptr) zone
      if h.get32 (zone + zNfree) = h.get32 (zone + zNmax) ∧
          (h.get64 (zone + zNext) ≠ 0 ∨ h.sysZoneArray (h.get32 (zone + zZoneindex)) ≠ zone) then
        retireZone fuel h zone
      else some h

end SKernel.Native
