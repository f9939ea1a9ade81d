import TuyaOpen.Lib.ByteMem

/-!
# The memory heap, `tuya_mem_heap.c`

A heap hands out blocks of one region.  A block starts with its size and ends
with a guard byte that says whether it is free; the free blocks are linked in
the order of their addresses through a pointer behind the size, where a used
block already has its data.
-/

namespace TuyaOpen.MemHeap

open ByteMem

/-- The compiled program: `sizeof(unsigned long)`, which is also the size of a
pointer, and `MEM_ALIGN_NUM`. -/
structure Target where
  word : ℕ
  align : ℕ
  word_eq : word = 4 ∨ word = 8
  align_eq : align = 4 ∨ align = 8

def memBlockStatUse : UInt8 := 0x55
def memBlockStatFree : UInt8 := 0xaa
def memBlockMinSize : ℕ := 24
def fitFindDepth : ℕ := 3
def memHeapListNum : ℕ := 4

structure Heap where
  freeList : ℕ
  base : ℕ
  size : ℕ
  free : ℕ
  freeWatermark : ℕ
  deriving DecidableEq

/-- The memory and the counters that all heaps share. -/
structure Globals where
  mem : Mem
  freeSize : ℕ
  freeSizeWatermark : ℕ

structure HeapStatus where
  size : ℕ
  free : ℕ
  freeLargest : ℕ
  valid : ℕ
  usedBlock : ℕ
  freeBlock : ℕ
  deriving DecidableEq

variable (t : Target)

def memBlockHeadSize : ℕ := t.word

def memHeapMinSize : ℕ := memBlockMinSize + memBlockHeadSize t

def alignDown (x : ℕ) : ℕ := x / t.align * t.align

def alignUp (x : ℕ) : ℕ := alignDown t (wadd t.word x (t.align - 1))

def blockSize (m : Mem) (block : ℕ) : ℕ := load m t.word block

def blockNext (m : Mem) (block : ℕ) : ℕ := load m t.word (block + t.word)

def setSize (m : Mem) (block size : ℕ) : Mem := store m t.word block size

def setNext (m : Mem) (block next : ℕ) : Mem := store m t.word (block + t.word) next

def memDogAddr (m : Mem) (block : ℕ) : ℕ := wsub t.word (wadd t.word block (blockSize t m block)) 1

/-! ## Creation -/

def memHeapInit (heap : Heap) (g : Globals) (ptr size : ℕ) : Option (Heap × Globals) :=
  let base := alignUp t ptr
  let size' := alignDown t (wsub t.word size (wsub t.word base ptr))
  if size' < memHeapMinSize t then none
  else
    let m := setSize t (setNext t g.mem base 0) base size'
    let free := wadd t.word g.freeSize size'
    some
      ({ heap with
          freeList := base
          base := ptr
          size := size
          free := size'
          freeWatermark := size' },
       { mem := setByte m (memDogAddr t m base) memBlockStatFree
         freeSize := free
         freeSizeWatermark := free })

/-- The slot of `heaps` that the new heap takes and its contents. -/
def memHeapCreate (heaps : List Heap) (g : Globals) (ptr size : ℕ) :
    Option (ℕ × Heap × Globals) :=
  if ptr = 0 ∨ size = 0 then none
  else match (heaps.take memHeapListNum).findIdx? fun h ↦ h.size = 0 with
    | none => none
    | some i => match heaps[i]? with
      | none => none
      | some heap => (memHeapInit t heap g ptr size).map fun r ↦ (i, r)

/-! ## Allocation

The loops run over the links that stand in memory.  Memory does not change in
a loop and has `256 ^ word` addresses, so a loop that takes more turns than
`walkFuel` never ends; it gives `none`. -/

def walkFuel : ℕ := 4 * 256 ^ t.word

/-- The inner loop of `mem_chunk_get`: the block before the chosen one, and the
chosen one. -/
def fitLoop (m : Mem) (size : ℕ) : ℕ → ℕ → ℕ → ℕ → ℕ → ℕ → Option (ℕ × ℕ)
  | 0, _, _, _, _, _ => none
  | fuel + 1, pre, this, preBak, thisBak, findNum =>
    if thisBak = 0 then some (pre, this)
    else if size ≤ blockSize t m thisBak ∧ blockSize t m thisBak ≤ blockSize t m this then
      if fitFindDepth ≤ findNum + 1 then some (preBak, thisBak)
      else fitLoop m size fuel preBak thisBak thisBak (blockNext t m thisBak) (findNum + 1)
    else if fitFindDepth ≤ findNum then some (pre, this)
    else fitLoop m size fuel pre this thisBak (blockNext t m thisBak) findNum

def findLoop (m : Mem) (size : ℕ) : ℕ → ℕ → ℕ → Option (Option (ℕ × ℕ))
  | 0, _, _ => none
  | fuel + 1, pre, this =>
    if this = 0 then some none
    else if size ≤ blockSize t m this then
      (fitLoop t m size (walkFuel t) pre this this (blockNext t m this) 0).map some
    else findLoop m size fuel this (blockNext t m this)

def takeChunk (heap : Heap) (m : Mem) (size pre this : ℕ) : Heap × Mem × ℕ :=
  if memHeapMinSize t ≤ wsub t.word (blockSize t m this) size then
    let m := setSize t m this (wsub t.word (blockSize t m this) size)
    let m := setByte m (memDogAddr t m this) memBlockStatFree
    let new := wadd t.word this (blockSize t m this)
    let m := setSize t m new size
    (heap, setByte m (memDogAddr t m new) memBlockStatUse, new)
  else if pre = 0 then
    ({ heap with freeList := blockNext t m this },
      setByte m (memDogAddr t m this) memBlockStatUse, this)
  else
    let m := setNext t m pre (blockNext t m this)
    (heap, setByte m (memDogAddr t m this) memBlockStatUse, this)

def memChunkGet (heap : Heap) (m : Mem) (size : ℕ) : Option (Heap × Mem × ℕ) :=
  (findLoop t m size (walkFuel t) 0 heap.freeList).map fun
    | none => (heap, m, 0)
    | some (pre, this) => takeChunk t heap m size pre this

/-- The size of the block for a request; 0 when it does not fit a word. -/
def chunkSize (size : ℕ) : ℕ :=
  let size := if size < 4 then 4 else size
  let newSize := wadd t.word (alignUp t (wadd t.word size 1)) (memBlockHeadSize t)
  if newSize < size then 0 else newSize

def memAllocate (heap : Heap) (g : Globals) (size : ℕ) : Option (ℕ × Heap × Globals) :=
  if size = 0 ∨ chunkSize t size = 0 then some (0, heap, g)
  else (memChunkGet t heap g.mem (chunkSize t size)).map fun (heap', m, block) ↦
    if block = 0 then (0, heap', { g with mem := m })
    else
      let free := wsub t.word heap'.free (blockSize t m block)
      let freeSize := wsub t.word g.freeSize (blockSize t m block)
      (wadd t.word block (memBlockHeadSize t),
       { heap' with
          free := free
          freeWatermark := min heap'.freeWatermark free },
       { mem := m
         freeSize := freeSize
         freeSizeWatermark := min g.freeSizeWatermark freeSize })

/-! ## Release -/

/-- The neighbours of `block` in the free list, 0 where there is none. -/
def neighbourLoop (m : Mem) (block : ℕ) : ℕ → ℕ → ℕ → Option (ℕ × ℕ)
  | 0, _, _ => none
  | fuel + 1, pre, next =>
    if next ≠ 0 ∧ next < block then neighbourLoop m block fuel next (blockNext t m next)
    else some (pre, next)

/-- Link `block` behind `pre`, or join it to `pre`; the block that it is part of
now. -/
def linkBehind (heap : Heap) (m : Mem) (pre block : ℕ) : Heap × Mem × ℕ :=
  if pre = 0 then ({ heap with freeList := block }, m, block)
  else if wadd t.word pre (blockSize t m pre) = block then
    (heap, setSize t m pre (wadd t.word (blockSize t m pre) (blockSize t m block)), pre)
  else (heap, setNext t m pre block, block)

def joinNext (m : Mem) (block next : ℕ) : Mem :=
  if next ≠ 0 ∧ wadd t.word block (blockSize t m block) = next then
    let m := setSize t m block (wadd t.word (blockSize t m block) (blockSize t m next))
    setNext t m block (blockNext t m next)
  else m

def memDeallocate (heap : Heap) (g : Globals) (ptr : ℕ) : Option (Heap × Globals) :=
  let block := wsub t.word ptr (memBlockHeadSize t)
  if ptr = 0 ∨ g.mem (memDogAddr t g.mem block) ≠ memBlockStatUse then some (heap, g)
  else
    let m := setByte g.mem (memDogAddr t g.mem block) memBlockStatFree
    let heap := { heap with free := wadd t.word heap.free (blockSize t m block) }
    let freeSize := wadd t.word g.freeSize (blockSize t m block)
    (neighbourLoop t m block (walkFuel t) 0 heap.freeList).map fun (pre, next) ↦
      let m := setNext t m block next
      let r := linkBehind t heap m pre block
      (r.1, { g with mem := joinNext t r.2.1 r.2.2 next, freeSize := freeSize })

/-! ## Status -/

/-- The walk over all blocks of `MEM_HeapStatus`, which stops at the first one
that does not fit the free list. -/
def statusLoop (m : Mem) (top : ℕ) : ℕ → ℕ → ℕ → HeapStatus → Option HeapStatus
  | 0, _, _, _ => none
  | fuel + 1, addr, freeBlock, status =>
    if addr < top then
      let size := blockSize t m addr
      if m (memDogAddr t m addr) = memBlockStatUse then
        if addr = freeBlock then some status
        else statusLoop m top fuel (wadd t.word addr size) freeBlock
          { status with usedBlock := status.usedBlock + 1 }
      else if m (memDogAddr t m addr) = memBlockStatFree then
        if addr ≠ freeBlock then some status
        else
          let thisSize := wsub t.word (wsub t.word size (memBlockHeadSize t)) 1
          statusLoop m top fuel (wadd t.word addr size) (blockNext t m freeBlock)
            { status with
              free := wadd t.word status.free thisSize
              freeLargest := max status.freeLargest thisSize
              freeBlock := status.freeBlock + 1 }
      else some status
    else if addr = top ∧ freeBlock = 0 then some { status with valid := 1 }
    else some status

def memHeapStatus (heap : Heap) (m : Mem) : Option HeapStatus :=
  statusLoop t m (alignDown t (wadd t.word heap.base heap.size)) (walkFuel t)
    (alignUp t heap.base) heap.freeList
    { size := heap.size
      free := 0
      freeLargest := 0
      valid := 0
      usedBlock := 0
      freeBlock := 0 }

end TuyaOpen.MemHeap
