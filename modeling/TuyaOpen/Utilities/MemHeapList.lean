import TuyaOpen.Utilities.MemHeapRun
import Mathlib.Logic.Function.Basic
import Mathlib.Data.Int.Notation

/-!
# The table of heaps

`mem_heap_list` has four slots.  A heap takes the first empty one, a deleted
heap leaves its slot empty, and a call with handle 0 looks at the slots in
their order up to the first empty one.
-/

namespace TuyaOpen.MemHeap

open ByteMem

structure HeapTable where
  heaps : List Heap
  globals : Globals

/-- `NULL`, or the slot that the handle points to. -/
abbrev Handle := Option ℕ

def noHeap : Heap where
  freeList := 0
  base := 0
  size := 0
  free := 0
  freeWatermark := 0

def emptyTable (m : Mem) : HeapTable where
  heaps := List.replicate memHeapListNum noHeap
  globals :=
    { mem := m
      freeSize := 0
      freeSizeWatermark := 0 }

def HeapTable.put (s : HeapTable) (i : ℕ) (heap : Heap) (g : Globals) : HeapTable where
  heaps := s.heaps.set i heap
  globals := g

def HeapTable.setMem (s : HeapTable) (m : Mem) : HeapTable :=
  { s with globals := { s.globals with mem := m } }

variable (t : Target)

/-- `mem_heap_init` writes base and size of the slot before it refuses the region. -/
def tuyaMemHeapCreate (s : HeapTable) (ptr size : ℕ) : Handle × HeapTable :=
  if ptr = 0 ∨ size = 0 then (none, s)
  else match (s.heaps.take memHeapListNum).findIdx? fun h ↦ h.size = 0 with
    | none => (none, s)
    | some i => match s.heaps[i]? with
      | none => (none, s)
      | some heap => match memHeapInit t heap s.globals ptr size with
        | none => (none, s.put i { heap with base := ptr, size := 0 } s.globals)
        | some (heap', g) => (some i, s.put i heap' g)

def tuyaMemHeapDelete (s : HeapTable) : Handle → HeapTable
  | none => s
  | some i => s.put i noHeap s.globals

/-- The loop over the heaps, from slot `idx` on, of a request that `alloc` serves. -/
def requestLoop (alloc : Heap → Globals → Option (ℕ × Heap × Globals)) (size : ℕ) :
    ℕ → ℕ → HeapTable → Option (ℕ × HeapTable)
  | 0, _, s => some (0, s)
  | n + 1, idx, s =>
    match s.heaps[idx]? with
    | none => some (0, s)
    | some heap =>
      if 0 < heap.size then
        if (size + memBlockMinSize) % 2 ^ 32 < heap.free then
          (alloc heap s.globals).bind fun (ptr, heap', g) ↦
            if ptr ≠ 0 then some (ptr, s.put idx heap' g)
            else requestLoop alloc size n (idx + 1) (s.put idx heap' g)
        else requestLoop alloc size n (idx + 1) s
      else some (0, s)

def requestFrom (alloc : Heap → Globals → Option (ℕ × Heap × Globals)) (s : HeapTable)
    (size : ℕ) : Handle → Option (ℕ × HeapTable)
  | some i => match s.heaps[i]? with
    | none => some (0, s)
    | some heap => (alloc heap s.globals).map fun (ptr, heap', g) ↦ (ptr, s.put i heap' g)
  | none => requestLoop alloc size memHeapListNum 0 s

def tuyaMemHeapMalloc (s : HeapTable) (handle : Handle) (size : ℕ) : Option (ℕ × HeapTable) :=
  requestFrom (fun heap g ↦ memAllocate t heap g size) s size handle

def freeLoop (ptr : ℕ) : ℕ → ℕ → HeapTable → Option HeapTable
  | 0, _, s => some s
  | n + 1, idx, s =>
    match s.heaps[idx]? with
    | none => some s
    | some heap =>
      if 0 < heap.size then
        if heap.base < ptr ∧ ptr < wadd t.word heap.base heap.size then
          (memDeallocate t heap s.globals ptr).map fun (heap', g) ↦ s.put idx heap' g
        else freeLoop ptr n (idx + 1) s
      else some s

def tuyaMemHeapFree (s : HeapTable) (handle : Handle) (ptr : ℕ) : Option HeapTable :=
  match handle with
  | some i => match s.heaps[i]? with
    | none => some s
    | some heap => (memDeallocate t heap s.globals ptr).map fun (heap', g) ↦ s.put i heap' g
  | none => freeLoop t ptr memHeapListNum 0 s

/-- The counters are unsigned, and an `int` is returned. -/
def tuyaMemHeapAvailable (s : HeapTable) : Handle → ℤ
  | none => Int.bmod s.globals.freeSize (2 ^ 32)
  | some i => Int.bmod ((s.heaps[i]?.getD noHeap).free) (2 ^ 32)

/-! ## Reallocation -/

/-- The size plus one is an `unsigned int`. -/
def reallocSize (size : ℕ) : ℕ :=
  wadd t.word (alignUp t ((size + 1) % 2 ^ 32)) (memBlockHeadSize t)

def tuyaMemHeapRealloc (s : HeapTable) (handle : Handle) (ptr size : ℕ) :
    Option (ℕ × HeapTable) :=
  if ptr = 0 then tuyaMemHeapMalloc t s handle size
  else
    let oldBlock := wsub t.word ptr (memBlockHeadSize t)
    if s.globals.mem (memDogAddr t s.globals.mem oldBlock) ≠ memBlockStatUse then some (0, s)
    else
      let size := if size < 4 then 4 else size
      if reallocSize t size ≤ blockSize t s.globals.mem oldBlock then some (ptr, s)
      else
        (tuyaMemHeapMalloc t s handle size).bind fun (tmp, s) ↦
          if tmp = 0 then some (0, s)
          else
            let len := wsub t.word (blockSize t s.globals.mem oldBlock) (memBlockHeadSize t)
            (tuyaMemHeapFree t (s.setMem (copy s.globals.mem tmp ptr len)) handle ptr).map
              fun s ↦ (tmp, s)

/-- `sizeof(MEM_DbgLeak_t)`. -/
def dbgLeakSize : ℕ := 4 * t.word

def memDbgLeakMagic : ℕ := 0x13572468

def memLeakDbgAddr (m : Mem) (block : ℕ) : ℕ :=
  wsub t.word (wsub t.word (wadd t.word block (blockSize t m block)) (dbgLeakSize t)) t.align

def setLeak (m : Mem) (leak filename line size : ℕ) : Mem :=
  let m := store m t.word leak filename
  let m := store m t.word (leak + t.word) line
  let m := store m t.word (leak + 2 * t.word) size
  store m t.word (leak + 3 * t.word) memDbgLeakMagic

def memAllocateDebug (filename line : ℕ) (heap : Heap) (g : Globals) (size : ℕ) :
    Option (ℕ × Heap × Globals) :=
  (memAllocate t heap g (wadd t.word (alignUp t size) (dbgLeakSize t))).map fun (p, heap', g) ↦
    if p = 0 then (p, heap', g)
    else
      let leak := memLeakDbgAddr t g.mem (wsub t.word p (memBlockHeadSize t))
      (p, heap', { g with mem := setLeak t g.mem leak filename line size })

def tuyaMemHeapDebugMalloc (s : HeapTable) (handle : Handle) (size filename line : ℕ) :
    Option (ℕ × HeapTable) :=
  requestFrom (fun heap g ↦ memAllocateDebug t filename line heap g size) s size handle

/-- The arguments of a `memcpy`. -/
structure MemCopy where
  dst : ℕ
  src : ℕ
  len : ℕ
  deriving DecidableEq

/-- The copy that `tuya_mem_heap_debug_realloc` makes when it has a new block. -/
def debugReallocCopy (s : HeapTable) (handle : Handle) (ptr size filename line : ℕ) :
    Option (Option MemCopy × HeapTable) :=
  (tuyaMemHeapDebugMalloc t s handle size filename line).map fun (tmp, s) ↦
    if tmp = 0 then (none, s)
    else (some { dst := tmp, src := ptr, len := size }, s)

def tuyaMemHeapDebugRealloc (s : HeapTable) (handle : Handle) (ptr size filename line : ℕ) :
    Option (ℕ × HeapTable) :=
  (debugReallocCopy t s handle ptr size filename line).bind fun
    | (none, s) => some (0, s)
    | (some c, s) =>
      (tuyaMemHeapFree t (s.setMem (copy s.globals.mem c.dst c.src c.len)) handle ptr).map
        fun s ↦ (c.dst, s)

end TuyaOpen.MemHeap
