import TuyaOpen.Utilities.MemHeapListInv

/-!
# Requests and releases on the table of heaps

A request with handle 0 is put to the heaps before the first empty slot whose
free bytes exceed it by more than `MEM_BLOCK_MIN_SIZE`; a release with handle 0
goes to the heap before the first empty slot whose region the pointer is in.
-/

namespace TuyaOpen.MemHeap

open ByteMem

variable {t : Target} {s : HeapTable} {lives : ℕ → List (ℕ × ℕ)} {i size : ℕ}

/-- The scan of the table comes to slot `i`. -/
def Scanned (s : HeapTable) (i : ℕ) : Prop := ∀ j ≤ i, ∃ heap ∈ s.heaps[j]?, 0 < heap.size

/-- The request is put to the heap in slot `i`. -/
def Asked (s : HeapTable) (size i : ℕ) : Handle → Prop
  | some k => i = k
  | none => Scanned s i ∧ ∃ heap ∈ s.heaps[i]?, (size + memBlockMinSize) % 2 ^ 32 < heap.free

instance (s : HeapTable) (i : ℕ) : Decidable (Scanned s i) :=
  inferInstanceAs (Decidable (∀ j ≤ i, _))

instance (s : HeapTable) (size i : ℕ) : (handle : Handle) → Decidable (Asked s size i handle)
  | some k => inferInstanceAs (Decidable (i = k))
  | none => inferInstanceAs (Decidable (_ ∧ _))

theorem HeapTable.put_self {heap : Heap} (hi : s.heaps[i]? = some heap) :
    s.put i heap s.globals = s := by
  obtain ⟨hlt, rfl⟩ := List.getElem?_eq_some_iff.mp hi
  rw [HeapTable.put, List.set_getElem_self]

/-! ## Requests -/

/-- A heap refuses and nothing changes, or the request fits and is served. -/
def Serves (alloc : Heap → Globals → Option (ℕ × Heap × Globals)) (fits : Heap → Prop)
    (heap : Heap) (g : Globals) : Prop :=
  (¬ fits heap ∧ alloc heap g = some (0, heap, g)) ∨
    (fits heap ∧ ∃ ptr heap' g', alloc heap g = some (ptr, heap', g') ∧ ptr ≠ 0)

/-- The result of a request that one of the heaps in `asked` serves, or none of them. -/
def Requested (alloc : Heap → Globals → Option (ℕ × Heap × Globals)) (fits : Heap → Prop)
    (s : HeapTable) (asked : ℕ → Prop) (r : Option (ℕ × HeapTable)) : Prop :=
  (r = some (0, s) ∧ ∀ i, asked i → ∀ heap ∈ s.heaps[i]?, ¬ fits heap) ∨
    ∃ i heap ptr heap' g', asked i ∧ s.heaps[i]? = some heap ∧ fits heap ∧
      alloc heap s.globals = some (ptr, heap', g') ∧ ptr ≠ 0 ∧ r = some (ptr, s.put i heap' g')

variable {alloc : Heap → Globals → Option (ℕ × Heap × Globals)} {fits : Heap → Prop}

theorem requestLoop_requested {n idx : ℕ} (hlength : idx + n = s.heaps.length)
    (hserves : ∀ (i : ℕ) heap, s.heaps[i]? = some heap → Serves alloc fits heap s.globals)
    (hscanned : ∀ j < idx, ∃ heap ∈ s.heaps[j]?, 0 < heap.size) :
    Requested alloc fits s (fun i ↦ idx ≤ i ∧ Asked s size i none)
      (requestLoop alloc size n idx s) := by
  induction n generalizing idx with
  | zero =>
      refine .inl ⟨rfl, fun i hi heap hheap ↦ ?_⟩
      have hlt := (List.getElem?_eq_some_iff.mp hheap).1
      omega
  | succ n ih =>
      have hlt : idx < s.heaps.length := by omega
      have hget := List.getElem?_eq_getElem hlt
      generalize s.heaps[idx] = heap at hget
      have hlength' : idx + 1 + n = s.heaps.length := by omega
      simp only [requestLoop, hget]
      by_cases hpos : 0 < heap.size
      · have hscanned' : ∀ j < idx + 1, ∃ heap ∈ s.heaps[j]?, 0 < heap.size := by
          intro j hj
          rcases Nat.lt_succ_iff_lt_or_eq.mp hj with hj | rfl
          · exact hscanned j hj
          · exact ⟨heap, hget, hpos⟩
        have hrest := ih hlength' hscanned'
        -- an answer of the later slots is one of the whole scan when this slot has none
        have hskip : (¬ Asked s size idx none ∨ ¬ fits heap) →
            Requested alloc fits s (fun i ↦ idx ≤ i ∧ Asked s size i none)
              (requestLoop alloc size n (idx + 1) s) := by
          intro hnot
          rcases hrest with ⟨hr, hnone⟩ | ⟨i, heapi, ptr, heap', g', hasked, hsome⟩
          · refine .inl ⟨hr, fun i hi heapi hheapi hfit ↦ ?_⟩
            rcases Nat.eq_or_lt_of_le hi.1 with rfl | hgt
            · obtain rfl : heap = heapi := Option.some.inj (hget.symm.trans hheapi)
              exact hnot.elim (fun h ↦ h hi.2) fun h ↦ h hfit
            · exact hnone i ⟨hgt, hi.2⟩ heapi hheapi hfit
          · exact .inr ⟨i, heapi, ptr, heap', g', ⟨Nat.le_of_succ_le hasked.1, hasked.2⟩, hsome⟩
        rw [if_pos hpos]
        by_cases hlarge : (size + memBlockMinSize) % 2 ^ 32 < heap.free
        · have hasked : Asked s size idx none :=
            ⟨fun j hj ↦ hscanned' j (Nat.lt_succ_of_le hj), heap, hget, hlarge⟩
          rw [if_pos hlarge]
          rcases hserves idx heap hget with ⟨hno, heq⟩ | ⟨hfit, ptr, heap', g', heq, hne⟩
          · rw [heq, Option.bind_some, HeapTable.put_self hget, if_neg (not_not_intro rfl)]
            exact hskip (.inr hno)
          · rw [heq, Option.bind_some, if_pos hne]
            exact .inr ⟨idx, heap, ptr, heap', g', ⟨le_rfl, hasked⟩, hget, hfit, heq, hne, rfl⟩
        · rw [if_neg hlarge]
          refine hskip (.inl fun ⟨_, heap', hheap', hlt'⟩ ↦ ?_)
          obtain rfl : heap = heap' := Option.some.inj (hget.symm.trans hheap')
          exact hlarge hlt'
      · rw [if_neg hpos]
        refine .inl ⟨rfl, fun i hi heapi _ _ ↦ ?_⟩
        obtain ⟨heap', hheap', hpos'⟩ := hi.2.1 idx hi.1
        obtain rfl : heap = heap' := Option.some.inj (hget.symm.trans hheap')
        exact hpos hpos'

theorem requestFrom_requested (hlength : s.heaps.length = memHeapListNum)
    (hserves : ∀ (i : ℕ) heap, s.heaps[i]? = some heap → Serves alloc fits heap s.globals)
    (handle : Handle) :
    Requested alloc fits s (fun i ↦ Asked s size i handle) (requestFrom alloc s size handle) := by
  cases handle with
  | none =>
      have hloop : Requested alloc fits s (fun i ↦ 0 ≤ i ∧ Asked s size i none)
          (requestLoop alloc size memHeapListNum 0 s) :=
        requestLoop_requested (by omega) hserves (by simp)
      simpa [requestFrom] using hloop
  | some k =>
      rw [requestFrom]
      cases hget : s.heaps[k]? with
      | none =>
          refine .inl ⟨rfl, fun i hi heap hheap ↦ ?_⟩
          obtain rfl : i = k := hi
          rw [hget] at hheap
          cases hheap
      | some heap =>
          dsimp only
          rcases hserves k heap hget with ⟨hno, heq⟩ | ⟨hfit, ptr, heap', g', heq, hne⟩
          · refine .inl ⟨?_, fun i hi heap' hheap' ↦ ?_⟩
            · rw [heq, Option.map_some, HeapTable.put_self hget]
            · obtain rfl : i = k := hi
              obtain rfl : heap = heap' := Option.some.inj (hget.symm.trans hheap')
              exact hno
          · refine .inr ⟨k, heap, ptr, heap', g', rfl, hget, hfit, heq, hne, ?_⟩
            rw [heq, Option.map_some]

theorem walkFuel_pos (t : Target) : ∃ n, walkFuel t = n + 1 := by
  have hpos : 0 < 256 ^ t.word := Nat.pow_pos (by decide)
  exact ⟨walkFuel t - 1, by rw [walkFuel]; omega⟩

theorem memAllocate_empty {heap : Heap} (h : heap.freeList = 0) (g : Globals) (size : ℕ) :
    ¬ HasFit t heap g.mem size ∧ memAllocate t heap g size = some (0, heap, g) := by
  obtain ⟨n, hn⟩ := walkFuel_pos t
  refine ⟨?_, ?_⟩
  · rintro ⟨-, -, blocks, hblocks, b, hb, -⟩
    rw [h, hn, freeWalk, if_pos rfl, Option.mem_some_iff] at hblocks
    subst hblocks
    cases hb
  · rw [memAllocate]
    split_ifs
    · rfl
    · simp [memChunkGet, h, hn, findLoop]

theorem ListInv.serves (h : ListInv t s lives) (hsize : size < 256 ^ t.word) {heap : Heap}
    (hi : s.heaps[i]? = some heap) :
    Serves (fun heap g ↦ memAllocate t heap g size) (fun heap ↦ HasFit t heap s.globals.mem size)
      heap s.globals := by
  rcases h.slot i heap hi with ⟨-, hfree, -⟩ | ⟨-, bs, hat⟩
  · exact .inl (memAllocate_empty hfree _ _)
  · refine (hat.allocate hsize).imp_right ?_
    rintro ⟨hfit, ptr, -, heap', g', -, heq, hne, -⟩
    exact ⟨hfit, ptr, heap', g', heq, hne⟩

/-- The bytes that a request of the debug functions asks for. -/
def debugSize (t : Target) (size : ℕ) : ℕ := wadd t.word (alignUp t size) (dbgLeakSize t)

theorem ListInv.serves_debug (h : ListInv t s lives) (filename line : ℕ) {heap : Heap}
    (hi : s.heaps[i]? = some heap) :
    Serves (fun heap g ↦ memAllocateDebug t filename line heap g size)
      (fun heap ↦ HasFit t heap s.globals.mem (debugSize t size)) heap s.globals := by
  have hsize : debugSize t size < 256 ^ t.word := Nat.mod_lt _ (Nat.pow_pos (by decide))
  rcases h.serves hsize hi with ⟨hno, heq⟩ | ⟨hfit, ptr, heap', g', heq, hne⟩
  · refine .inl ⟨hno, ?_⟩
    simp only [debugSize] at heq
    simp only [memAllocateDebug, heq, Option.map_some, if_true]
  · refine .inr ⟨hfit, ptr, heap', ?_⟩
    simp only [debugSize] at heq
    simp only [memAllocateDebug, heq, Option.map_some, if_neg hne]
    exact ⟨_, rfl, hne⟩

theorem mem_update_cons (lives : ℕ → List (ℕ × ℕ)) (y : ℕ × ℕ) (j : ℕ) :
    y ∈ Function.update lives j (y :: lives j) j := by
  rw [Function.update_self]
  exact List.mem_cons_self

theorem mem_update_of_mem (y : ℕ × ℕ) (j : ℕ) {x : ℕ × ℕ} (hx : x ∈ lives i) :
    x ∈ Function.update lives j (y :: lives j) i := by
  by_cases hij : i = j
  · subst hij
    rw [Function.update_self]
    exact List.mem_cons_of_mem _ hx
  · rw [Function.update_of_ne hij]
    exact hx

/-- The heap in slot `i` handed out `ptr`. -/
structure Granted (t : Target) (s : HeapTable) (lives : ℕ → List (ℕ × ℕ)) (size i ptr : ℕ)
    (heap heap' : Heap) (g : Globals) : Prop where
  slot : s.heaps[i]? = some heap
  pos : 0 < heap.size
  inv : ListInv t (s.put i heap' g) (Function.update lives i ((ptr, size) :: lives i))
  word_lt : t.word < ptr
  large : chunkSize t size ≤ blockSize t g.mem (ptr - t.word)
  size_eq : heap'.size = heap.size
  free_eq : heap'.free + blockSize t g.mem (ptr - t.word) = heap.free
  freeSize_eq : g.freeSize = wsub t.word s.globals.freeSize (blockSize t g.mem (ptr - t.word))
  frame : ∀ j x y, x ∈ lives j → InBlock t s.globals.mem x.1 y → g.mem y = s.globals.mem y

theorem ListInv.granted (h : ListInv t s lives) (hsize : size < 256 ^ t.word) {ptr : ℕ}
    {heap heap' : Heap} {g : Globals} (hi : s.heaps[i]? = some heap)
    (heq : memAllocate t heap s.globals size = some (ptr, heap', g)) (hne : ptr ≠ 0) :
    Granted t s lives size i ptr heap heap' g := by
  rcases h.slot i heap hi with ⟨-, hfree, -⟩ | ⟨hpos, bs, hat⟩
  · rw [(memAllocate_empty hfree _ _).2] at heq
    cases heq
    exact absurd rfl hne
  rcases hat.allocate hsize with ⟨-, heq'⟩ | ⟨-, ptr', k, heap₁, g₁, bs', heq', -, hout, hat'⟩
  · rw [heq'] at heq
    cases heq
    exact absurd rfl hne
  rw [heq'] at heq
  cases heq
  have hregion := hat.region
  refine ⟨hi, hpos, ?_, hout.word_lt, ?_, hout.size_eq, ?_, ?_, fun j x y hx hy ↦ ?_⟩
  · refine h.put_same hi hpos hout.base_eq hout.size_eq hat' fun x hx ↦ hout.frame x fun hin ↦ ?_
    have hbounds := hin.bounds
    omega
  · rw [hout.header]
    exact hout.large
  · rw [hout.header]
    exact hout.free_eq
  · rw [hout.header]
    exact hout.freeSize_eq
  · refine hout.frame y fun hin ↦ ?_
    by_cases hji : j = i
    · subst hji
      exact hat.not_inFree hx hy hin
    · obtain ⟨heapj, bsj, hgetj, hposj, hatj⟩ := h.of_mem hx
      have hbounds := hin.bounds
      have hinside := h.block_inside hx hgetj hy
      have hapart : heapj.Apart heap := h.apart j i heapj heap hji hgetj hi hposj hpos
      rw [Heap.Apart] at hapart
      omega

theorem ListInv.malloc (h : ListInv t s lives) (hsize : size < 2 ^ 32) (handle : Handle) :
    (tuyaMemHeapMalloc t s handle size = some (0, s) ∧
        ∀ i, Asked s size i handle → ∀ heap ∈ s.heaps[i]?, ¬ HasFit t heap s.globals.mem size) ∨
      ∃ i heap ptr heap' g, Asked s size i handle ∧ HasFit t heap s.globals.mem size ∧ ptr ≠ 0 ∧
        tuyaMemHeapMalloc t s handle size = some (ptr, s.put i heap' g) ∧
        Granted t s lives size i ptr heap heap' g := by
  have hword : size < 256 ^ t.word := by
    rcases t.word_eq with hw | hw <;> simp only [hw] <;> omega
  rcases requestFrom_requested h.length (fun i heap hi ↦ h.serves hword hi) handle with
    hnone | ⟨i, heap, ptr, heap', g, hasked, hi, hfit, heq, hne, hr⟩
  · exact .inl hnone
  · exact .inr ⟨i, heap, ptr, heap', g, hasked, hfit, hne, hr, h.granted hword hi heq hne⟩

/-! ## Releases -/

/-- The test by which a release with handle 0 finds the heap of a pointer. -/
def Contains (t : Target) (heap : Heap) (ptr : ℕ) : Prop :=
  heap.base < ptr ∧ ptr < wadd t.word heap.base heap.size

theorem freeLoop_cases {n idx ptr : ℕ} (hlength : idx + n = s.heaps.length)
    (hscanned : ∀ j < idx, ∃ heap ∈ s.heaps[j]?, 0 < heap.size) :
    (freeLoop t ptr n idx s = some s ∧
        ∀ j, idx ≤ j → Scanned s j → ∀ heap ∈ s.heaps[j]?, ¬ Contains t heap ptr) ∨
      ∃ j heap, idx ≤ j ∧ Scanned s j ∧ s.heaps[j]? = some heap ∧ Contains t heap ptr ∧
        freeLoop t ptr n idx s =
          (memDeallocate t heap s.globals ptr).map fun (heap', g) ↦ s.put j heap' g := by
  induction n generalizing idx with
  | zero =>
      refine .inl ⟨rfl, fun j hj _ heap hheap ↦ ?_⟩
      have hlt := (List.getElem?_eq_some_iff.mp hheap).1
      omega
  | succ n ih =>
      have hlt : idx < s.heaps.length := by omega
      have hget := List.getElem?_eq_getElem hlt
      generalize s.heaps[idx] = heap at hget
      have hlength' : idx + 1 + n = s.heaps.length := by omega
      simp only [freeLoop, hget]
      by_cases hpos : 0 < heap.size
      · have hscanned' : ∀ j < idx + 1, ∃ heap ∈ s.heaps[j]?, 0 < heap.size := by
          intro j hj
          rcases Nat.lt_succ_iff_lt_or_eq.mp hj with hj | rfl
          · exact hscanned j hj
          · exact ⟨heap, hget, hpos⟩
        rw [if_pos hpos]
        by_cases hin : heap.base < ptr ∧ ptr < wadd t.word heap.base heap.size
        · rw [if_pos hin]
          exact .inr ⟨idx, heap, le_rfl, fun j hj ↦ hscanned' j (Nat.lt_succ_of_le hj), hget, hin,
            rfl⟩
        · rw [if_neg hin]
          rcases ih hlength' hscanned' with ⟨hr, hnone⟩ | ⟨j, heapj, hj, hsome⟩
          · refine .inl ⟨hr, fun j hj hscan heapj hheapj ↦ ?_⟩
            rcases Nat.eq_or_lt_of_le hj with rfl | hgt
            · obtain rfl : heap = heapj := Option.some.inj (hget.symm.trans hheapj)
              exact hin
            · exact hnone j hgt hscan heapj hheapj
          · exact .inr ⟨j, heapj, Nat.le_of_succ_le hj, hsome⟩
      · rw [if_neg hpos]
        refine .inl ⟨rfl, fun j hj hscan _ _ ↦ ?_⟩
        obtain ⟨heap', hheap', hpos'⟩ := hscan idx hj
        obtain rfl : heap = heap' := Option.some.inj (hget.symm.trans hheap')
        exact absurd hpos' hpos

/-- The heap in slot `i` took the block of the pointer `x` back. -/
structure Returned (t : Target) (s : HeapTable) (lives : ℕ → List (ℕ × ℕ)) (i : ℕ) (x : ℕ × ℕ)
    (heap heap' : Heap) (g : Globals) : Prop where
  slot : s.heaps[i]? = some heap
  pos : 0 < heap.size
  result : memDeallocate t heap s.globals x.1 = some (heap', g)
  inv : ListInv t (s.put i heap' g)
    (Function.update lives i ((lives i).filter fun y ↦ y.1 ≠ x.1))
  size_eq : heap'.size = heap.size
  free_eq : heap'.free = heap.free + blockSize t s.globals.mem (x.1 - t.word)
  freeSize_eq : g.freeSize =
    wadd t.word s.globals.freeSize (blockSize t s.globals.mem (x.1 - t.word))
  frame : ∀ j y z, y ∈ Function.update lives i ((lives i).filter fun y ↦ y.1 ≠ x.1) j →
    InBlock t g.mem y.1 z → g.mem z = s.globals.mem z

theorem ListInv.returned (h : ListInv t s lives) {x : ℕ × ℕ} (hx : x ∈ lives i) :
    ∃ heap heap' g, Returned t s lives i x heap heap' g := by
  obtain ⟨heap, bs, hi, hpos, hat⟩ := h.of_mem hx
  obtain ⟨heap', g, bs', heq, hat', hbase, hsize, hfree, hfreeSize, hframe⟩ := hat.deallocate hx
  have hstart : regionStart t heap' = regionStart t heap := (region_congr hbase hsize).1
  have hregion := hat'.region
  rw [hbase, hsize, hstart] at hregion
  have hinv : ListInv t (s.put i heap' g)
      (Function.update lives i ((lives i).filter fun y ↦ y.1 ≠ x.1)) := by
    refine h.put_same hi hpos hbase hsize hat' fun z hz ↦ hframe z fun hin ↦ ?_
    have hbounds := hin.bounds
    omega
  refine ⟨heap, heap', g, hi, hpos, heq, hinv, hsize, hfree, hfreeSize, fun j y z hy hz ↦ ?_⟩
  refine hframe z fun hin ↦ ?_
  by_cases hji : j = i
  · subst hji
    rw [Function.update_self] at hy
    rw [← hstart] at hin
    exact hat'.not_inFree hy hz hin
  · obtain ⟨heapj, bsj, hgetj, hposj, hatj⟩ := hinv.of_mem hy
    have hbounds := hin.bounds
    have hinside := hinv.block_inside hy hgetj hz
    have hgetj' : s.heaps[j]? = some heapj := by
      rwa [HeapTable.put, List.getElem?_set_ne (Ne.symm hji)] at hgetj
    have hapart : heapj.Apart heap := h.apart j i heapj heap hji hgetj' hi hposj hpos
    rw [Heap.Apart] at hapart
    omega

theorem ListInv.contains_iff (h : ListInv t s lives) {x : ℕ × ℕ} {j : ℕ} {heap : Heap}
    (hx : x ∈ lives i) (hj : s.heaps[j]? = some heap) (hpos : 0 < heap.size) :
    Contains t heap x.1 ↔ j = i := by
  obtain ⟨heapi, bsi, hi, hposi, hati⟩ := h.of_mem hx
  obtain ⟨bsj, hatj⟩ := h.heapAt hj hpos
  have hinside := hati.block_inside hx
  obtain ⟨-, s', -, -, -, hsize, -, hreq, -⟩ := hati.block hx
  have hword := t.word_pos
  rw [Contains, wadd_of_lt hatj.fits]
  refine ⟨fun hin ↦ ?_, fun hji ↦ ?_⟩
  · by_contra hji
    have hapart : heap.Apart heapi := h.apart j i heap heapi hji hj hi hpos hposi
    rw [Heap.Apart] at hapart
    omega
  · subst hji
    obtain rfl : heapi = heap := Option.some.inj (hi.symm.trans hj)
    omega

/-- A release reaches the heap of the pointer when that heap is named or scanned. -/
theorem tuyaMemHeapFree_returned (h : ListInv t s lives) {x : ℕ × ℕ} {heap heap' : Heap}
    {g : Globals} (hx : x ∈ lives i) (hret : Returned t s lives i x heap heap' g) {handle : Handle}
    (hhandle : handle = some i ∨ handle = none ∧ Scanned s i) :
    tuyaMemHeapFree t s handle x.1 = some (s.put i heap' g) := by
  rcases hhandle with rfl | ⟨rfl, hscan⟩
  · simp only [tuyaMemHeapFree, hret.slot, hret.result, Option.map_some]
  · have hlength : 0 + memHeapListNum = s.heaps.length := by rw [h.length, Nat.zero_add]
    rcases @freeLoop_cases t s memHeapListNum 0 x.1 hlength (by simp) with
      ⟨-, hnone⟩ | ⟨j, heapj, -, hscanj, hgetj, hin, heq⟩
    · exact absurd ((h.contains_iff hx hret.slot hret.pos).mpr rfl)
        (hnone i (Nat.zero_le i) hscan heap hret.slot)
    · obtain ⟨heap₁, hheap₁, hpos₁⟩ := hscanj j le_rfl
      obtain rfl : heapj = heap₁ := Option.some.inj (hgetj.symm.trans hheap₁)
      obtain rfl : j = i := (h.contains_iff hx hgetj hpos₁).mp hin
      obtain rfl : heapj = heap := Option.some.inj (hgetj.symm.trans hret.slot)
      rw [tuyaMemHeapFree, heq, hret.result]
      rfl

theorem tuyaMemHeapFree_of_not_scanned (h : ListInv t s lives) {x : ℕ × ℕ} (hx : x ∈ lives i)
    (hscan : ¬ Scanned s i) : tuyaMemHeapFree t s none x.1 = some s := by
  have hlength : 0 + memHeapListNum = s.heaps.length := by rw [h.length, Nat.zero_add]
  rcases @freeLoop_cases t s memHeapListNum 0 x.1 hlength (by simp) with
    ⟨heq, -⟩ | ⟨j, heapj, -, hscanj, hgetj, hin, -⟩
  · exact heq
  · obtain ⟨heap₁, hheap₁, hpos₁⟩ := hscanj j le_rfl
    obtain rfl : heapj = heap₁ := Option.some.inj (hgetj.symm.trans hheap₁)
    obtain rfl : j = i := (h.contains_iff hx hgetj hpos₁).mp hin
    exact absurd hscanj hscan

/-! ## Creation and deletion -/

theorem memHeapInit_eq {heap heap' : Heap} {g g' : Globals} {ptr : ℕ}
    (h : memHeapInit t heap g ptr size = some (heap', g')) (hslack : alignSlack t ptr ≤ size)
    (hfits : ptr + size < 256 ^ t.word) :
    alignSlack t ptr < size ∧ heap'.base = ptr ∧ heap'.size = size ∧
      heap'.freeList = ptr + alignSlack t ptr ∧ alignSlack t ptr + heap'.free ≤ size ∧
      blockSize t g'.mem heap'.freeList = heap'.free ∧
      g'.freeSize = wadd t.word g.freeSize heap'.free ∧
      ∀ x, x < ptr ∨ ptr + size ≤ x → g'.mem x = g.mem x := by
  have hup : alignUp t ptr = ptr + alignSlack t ptr := by
    simp only [alignSlack, alignUp, alignDown, wadd] at hslack ⊢
    rcases t.word_eq with hw | hw <;> rcases t.align_eq with ha | ha <;>
      simp only [hw, ha] at hslack hfits ⊢ <;> omega
  have hle : alignDown t (size - alignSlack t ptr) ≤ size - alignSlack t ptr :=
    Nat.div_mul_le_self _ _
  set k := alignDown t (size - alignSlack t ptr)
  have hsize : alignDown t (wsub t.word size (wsub t.word (alignUp t ptr) ptr)) = k := by
    rw [hup, wsub_of_le (Nat.le_add_right _ _) (by omega), Nat.add_sub_cancel_left,
      wsub_of_le hslack (by omega)]
  have hmin : memHeapMinSize t = 24 + t.word := rfl
  have hword := t.word_eq
  rw [memHeapInit] at h
  dsimp only at h
  rw [hsize, hup] at h
  split_ifs at h with hsmall
  cases h
  have hdog : memDogAddr t (setSize t (setNext t g.mem (ptr + alignSlack t ptr) 0)
      (ptr + alignSlack t ptr) k) (ptr + alignSlack t ptr) = ptr + alignSlack t ptr + k - 1 :=
    memDogAddr_eq (load_store_self (by omega)) (by omega) (by omega)
  dsimp only
  rw [hdog]
  refine ⟨by omega, rfl, rfl, rfl, by omega, ?_, rfl, fun x hx ↦ ?_⟩
  · exact (load_setByte_of_disjoint (by omega)).trans (load_store_self (by omega))
  · simp (disch := omega) only [setSize, setNext, setByte_of_ne, store_of_disjoint]

theorem heapAt_init {heap heap' : Heap} {g g' : Globals} {ptr : ℕ}
    (h : memHeapInit t heap g ptr size = some (heap', g')) (hptr : 0 < ptr) (hsize : size < 2 ^ 32)
    (hslack : alignSlack t ptr ≤ size) (hfits : ptr + size < 256 ^ t.word) :
    ∃ bs, HeapAt t g'.mem heap' [] bs := by
  obtain ⟨hlt, hbase, hsize', -⟩ := memHeapInit_eq h hslack hfits
  obtain ⟨k, hinv, htop⟩ := memHeapInit_inv h hptr hlt hfits
  have hinv' := heapInvIf_true_iff.mpr hinv
  refine ⟨[⟨k, none⟩], ⟨hinv'.pos, hinv'.bound, hinv'.tiles.mono False.elim, hinv'.freeList,
    hinv'.free, hinv'.apart⟩, ?_, List.Perm.refl [], ?_, ?_⟩
  · rw [total_cons, total_nil, Nat.add_zero]
    exact htop
  · rw [hbase, hsize']
    exact hfits
  · rw [hsize']
    exact hsize

theorem ListInv.put_empty {heap : Heap} (h : ListInv t s lives) (hi : i < memHeapListNum)
    (hsize : heap.size = 0) (hlist : heap.freeList = 0) (hfree : heap.free = 0) :
    ListInv t (s.put i heap s.globals) (Function.update lives i []) := by
  refine h.put hi (.inl ⟨hsize, hlist, hfree, rfl⟩) fun j hj _ _ _ ↦ ?_
  exact ⟨fun _ _ _ ↦ rfl, fun hpos ↦ absurd hsize hpos.ne'⟩

theorem ListInv.of_empty_slot {heap : Heap} (h : ListInv t s lives) (hget : s.heaps[i]? = some heap)
    (hzero : heap.size = 0) : lives i = [] ∧ heap.freeList = 0 ∧ heap.free = 0 := by
  rcases h.slot i heap hget with ⟨-, hlist, hfree, hnil⟩ | ⟨hpos, -⟩
  · exact ⟨hnil, hlist, hfree⟩
  · exact absurd hzero hpos.ne'

theorem ListInv.create (h : ListInv t s lives) {ptr : ℕ} (hsize : size < 2 ^ 32)
    (hfits : ptr + size < 256 ^ t.word)
    (hapart : ∀ heap ∈ s.heaps, 0 < heap.size →
      ptr + size ≤ heap.base ∨ heap.base + heap.size ≤ ptr)
    (hslack : (ptr = 0 ∨ size = 0 ∨ ∀ heap ∈ s.heaps, 0 < heap.size) ∨ alignSlack t ptr ≤ size) :
    (tuyaMemHeapCreate t s ptr size = (none, s) ∨
      ∃ i heap, s.heaps[i]? = some heap ∧ heap.size = 0 ∧
        tuyaMemHeapCreate t s ptr size =
          (none, s.put i { heap with base := ptr, size := 0 } s.globals) ∧
        ListInv t (s.put i { heap with base := ptr, size := 0 } s.globals) lives) ∨
      ∃ i heap heap' g, s.heaps[i]? = some heap ∧ heap.size = 0 ∧
        tuyaMemHeapCreate t s ptr size = (some i, s.put i heap' g) ∧
        ListInv t (s.put i heap' g) lives ∧ 0 < heap'.size ∧ heap'.base = ptr ∧
        heap'.size = size ∧ heap'.base ≤ heap'.freeList ∧
        heap'.freeList + blockSize t g.mem heap'.freeList ≤ heap'.base + heap'.size ∧
        g.freeSize = wadd t.word s.globals.freeSize heap'.free := by
  rw [tuyaMemHeapCreate]
  split_ifs with hparams
  · exact .inl (.inl rfl)
  rw [not_or] at hparams
  have htake : s.heaps.take memHeapListNum = s.heaps := by
    rw [← h.length, List.take_length]
  rw [htake]
  cases hfind : s.heaps.findIdx? fun h ↦ h.size = 0 with
  | none => exact .inl (.inl rfl)
  | some i =>
      obtain ⟨hlt, hzero, -⟩ := List.findIdx?_eq_some_iff_getElem.mp hfind
      have hget := List.getElem?_eq_getElem hlt
      have hi : i < memHeapListNum := h.length ▸ hlt
      generalize s.heaps[i] = heap at hget hzero
      have hzero' : heap.size = 0 := by simpa using hzero
      have hslack' : alignSlack t ptr ≤ size := by
        rcases hslack with (hptr | hsize0 | hfull) | hslack
        · exact absurd hptr hparams.1
        · exact absurd hsize0 hparams.2
        · exact absurd hzero' (hfull heap (List.mem_of_getElem? hget)).ne'
        · exact hslack
      obtain ⟨hnil, hlist, hfree⟩ := h.of_empty_slot hget hzero'
      have hsame : Function.update lives i [] = lives := by rw [← hnil, Function.update_eq_self]
      dsimp only
      rw [hget]
      dsimp only
      cases hinit : memHeapInit t heap s.globals ptr size with
      | none =>
          refine .inl (.inr ⟨i, heap, hget, hzero', rfl, ?_⟩)
          exact hsame ▸ h.put_empty hi rfl hlist hfree
      | some r =>
          obtain ⟨heap', g⟩ := r
          obtain ⟨-, hbase, hsize', hlist', hroom, hblock, hfreeSize, hframe⟩ :=
            memHeapInit_eq hinit hslack' hfits
          have hat := heapAt_init hinit (Nat.pos_of_ne_zero hparams.1) hsize hslack' hfits
          have hpos : 0 < heap'.size := hsize' ▸ Nat.pos_of_ne_zero hparams.2
          refine .inr ⟨i, heap, heap', g, hget, hzero', rfl, ?_, hpos, hbase, hsize', ?_, ?_,
            hfreeSize⟩
          · rw [← hsame]
            refine h.put hi (.inr ⟨hpos, hat⟩) fun j hj _ hgetj hposj ↦ ?_
            have hdisjoint := hapart hj (List.mem_of_getElem? hgetj) hposj
            refine ⟨fun x hlow hhigh ↦ hframe x (by omega), fun _ ↦ ?_⟩
            rw [Heap.Apart, hbase, hsize']
            exact hdisjoint
          · omega
          · rw [hblock]
            omega

theorem ListInv.create_snd (h : ListInv t s lives) {ptr : ℕ} (hsize : size < 2 ^ 32)
    (hfits : ptr + size < 256 ^ t.word)
    (hapart : ∀ heap ∈ s.heaps, 0 < heap.size →
      ptr + size ≤ heap.base ∨ heap.base + heap.size ≤ ptr)
    (hslack : (ptr = 0 ∨ size = 0 ∨ ∀ heap ∈ s.heaps, 0 < heap.size) ∨ alignSlack t ptr ≤ size) :
    ListInv t (tuyaMemHeapCreate t s ptr size).2 lives := by
  rcases h.create hsize hfits hapart hslack with
    (heq | ⟨i, heap, -, -, heq, hinv⟩) | ⟨i, heap, heap', g, -, -, heq, hinv, -⟩ <;> rw [heq]
  · exact h
  · exact hinv
  · exact hinv

theorem ListInv.delete (h : ListInv t s lives) (hi : i < memHeapListNum) :
    ListInv t (tuyaMemHeapDelete s (some i)) (Function.update lives i []) :=
  h.put_empty hi rfl rfl rfl

end TuyaOpen.MemHeap
