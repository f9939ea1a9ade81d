import TuyaOpen.Utilities.MemHeapListOps

/-!
# Runs of the table of heaps

Clients create and delete heaps, ask for memory with a handle or without, and
release what they hold.  `tuya_mem_heap_available` counts the free bytes of the
live heaps as long as no heap is deleted that has some; a request without a
handle is served when a heap that the scan comes to has a block for it; a
pointer is found again as long as no slot before its heap is empty.
-/

namespace TuyaOpen.MemHeap

open ByteMem

/-! ## The free bytes -/

def freeSum (s : HeapTable) : ℕ := ((s.heaps.filter fun heap ↦ 0 < heap.size).map Heap.free).sum

def Heap.counted (heap : Heap) : ℕ := if 0 < heap.size then heap.free else 0

theorem Heap.counted_of_pos {heap : Heap} (h : 0 < heap.size) : heap.counted = heap.free := if_pos h

theorem Heap.counted_of_empty {heap : Heap} (h : heap.size = 0) : heap.counted = 0 :=
  if_neg (by omega)

theorem freeSum_eq (s : HeapTable) : freeSum s = (s.heaps.map Heap.counted).sum := by
  rw [freeSum]
  induction s.heaps with
  | nil => rfl
  | cons heap heaps ih =>
      by_cases hpos : 0 < heap.size
      · rw [List.filter_cons_of_pos (by simpa using hpos), List.map_cons, List.map_cons,
          List.sum_cons, List.sum_cons, ih, Heap.counted_of_pos hpos]
      · rw [List.filter_cons_of_neg (by simpa using hpos), List.map_cons, List.sum_cons, ih,
          Heap.counted_of_empty (by omega), Nat.zero_add]

theorem sum_map_set {heaps : List Heap} {i : ℕ} {heap heap' : Heap} (h : heaps[i]? = some heap) :
    ((heaps.set i heap').map Heap.counted).sum + heap.counted =
      (heaps.map Heap.counted).sum + heap'.counted := by
  induction heaps generalizing i with
  | nil => cases h
  | cons a heaps ih =>
      cases i with
      | zero =>
          obtain rfl : a = heap := Option.some.inj h
          simp only [List.set_cons_zero, List.map_cons, List.sum_cons]
          omega
      | succ i =>
          have htail := ih h
          simp only [List.set_cons_succ, List.map_cons, List.sum_cons]
          omega

variable {t : Target} {s : HeapTable} {i : ℕ} {heap : Heap}

theorem freeSum_put (h : s.heaps[i]? = some heap) (heap' : Heap) (g : Globals) :
    freeSum (s.put i heap' g) + heap.counted = freeSum s + heap'.counted := by
  rw [freeSum_eq, freeSum_eq]
  exact sum_map_set h

/-- `s_heap_free_size` is the free bytes of the live heaps. -/
def Counted (t : Target) (s : HeapTable) : Prop :=
  s.globals.freeSize = freeSum s % 256 ^ t.word

theorem Counted.added {k : ℕ} (h : Counted t s) {s' : HeapTable}
    (hfree : s'.globals.freeSize = wadd t.word s.globals.freeSize k)
    (hsum : freeSum s' = freeSum s + k) : Counted t s' := by
  rw [Counted, hfree, h, hsum, wadd, Nat.mod_add_mod]

theorem Counted.removed {k : ℕ} (h : Counted t s) {s' : HeapTable}
    (hfree : s'.globals.freeSize = wsub t.word s.globals.freeSize k) (hk : k < 256 ^ t.word)
    (hsum : freeSum s' + k = freeSum s) : Counted t s' := by
  have hshift : freeSum s + (256 ^ t.word - k) = freeSum s' + 256 ^ t.word := by omega
  rw [Counted, hfree, h, wsub, Nat.mod_add_mod, hshift, Nat.add_mod_right]

theorem Counted.same (h : Counted t s) {s' : HeapTable}
    (hfree : s'.globals.freeSize = s.globals.freeSize) (hsum : freeSum s' = freeSum s) :
    Counted t s' := by
  rw [Counted, hfree, h, hsum]

/-! ## Calls -/

inductive ListCall
  | create (ptr size : ℕ)
  | delete (handle : Handle)
  | malloc (handle : Handle) (size : ℕ)
  | free (handle : Handle) (ptr : ℕ)
  | available
  | write (addr : ℕ) (byte : UInt8)

/-- The table and the pointers that are handed out from each slot, with the bytes asked
for. -/
structure ListState where
  table : HeapTable
  live : ℕ → List (ℕ × ℕ)

/-- The heap in slot `i` is where the pointer comes from. -/
def Owns (t : Target) (s : HeapTable) (i ptr : ℕ) : Prop :=
  ∃ heap ∈ s.heaps[i]?, 0 < heap.size ∧ Contains t heap ptr

instance (heap : Heap) (ptr : ℕ) : Decidable (Contains t heap ptr) :=
  inferInstanceAs (Decidable (_ ∧ _))

instance (s : HeapTable) (i ptr : ℕ) : Decidable (Owns t s i ptr) :=
  inferInstanceAs (Decidable (∃ heap ∈ s.heaps[i]?, _))

def handOut (t : Target) (s : HeapTable) (live : ℕ → List (ℕ × ℕ)) (ptr size : ℕ) :
    ℕ → List (ℕ × ℕ) :=
  fun i ↦ if ptr ≠ 0 ∧ Owns t s i ptr then (ptr, size) :: live i else live i

def listStep (t : Target) (s : ListState) : ListCall → Option ListState
  | .create ptr size => some { s with table := (tuyaMemHeapCreate t s.table ptr size).2 }
  | .delete none => some s
  | .delete (some i) => some
    { table := tuyaMemHeapDelete s.table (some i)
      live := Function.update s.live i [] }
  | .malloc handle size => (tuyaMemHeapMalloc t s.table handle size).map fun (ptr, table) ↦
    { table := table
      live := handOut t table s.live ptr size }
  | .free handle ptr => (tuyaMemHeapFree t s.table handle ptr).map fun table ↦
    { table := table
      live := fun i ↦ (s.live i).filter fun x ↦ x.1 ≠ ptr }
  | .available => some s
  | .write addr byte => some
    { s with table := s.table.setMem (setByte s.table.globals.mem addr byte) }

/-- `none` is the state of a call that does not return. -/
def listMachine (t : Target) : Mealy (Option ListState) ListCall Unit where
  step o c := (o.bind fun s ↦ listStep t s c, ())

/-- What the interface asks of a client: the region of a new heap is memory that no
live heap has, what is released is held and given back to the heap it is from, and a
write stays in the bytes asked for or out of all heaps. -/
def ClientCall (t : Target) (s : ListState) : ListCall → Prop
  | .create ptr size => size < 2 ^ 32 ∧ ptr + size < 256 ^ t.word ∧
    ∀ heap ∈ s.table.heaps, 0 < heap.size →
      ptr + size ≤ heap.base ∨ heap.base + heap.size ≤ ptr
  | .delete handle => ∀ i ∈ handle, i < memHeapListNum
  | .malloc _ size => size < 2 ^ 32
  | .free handle ptr => ptr = 0 ∨ ∃ i < memHeapListNum, (∃ x ∈ s.live i, x.1 = ptr) ∧
    (handle = none ∨ handle = some i)
  | .available => True
  | .write addr _ =>
    (∃ i < memHeapListNum, ∃ x ∈ s.live i, x.1 ≤ addr ∧ addr < x.1 + x.2) ∨
      ∀ heap ∈ s.table.heaps, 0 < heap.size → addr < heap.base ∨ heap.base + heap.size ≤ addr

/-- A region is refused or not smaller than the bytes that align it, a deleted heap has
no free bytes, a request without a handle fits a heap that it is put to if it fits
one at all, a pointer without a handle is from a heap that the scan comes to, and the
number of free bytes is an `int`. -/
def Careful (t : Target) (s : ListState) : ListCall → Prop
  | .create ptr size =>
    (ptr = 0 ∨ size = 0 ∨ ∀ heap ∈ s.table.heaps, 0 < heap.size) ∨ alignSlack t ptr ≤ size
  | .delete handle => ∀ i ∈ handle, ∀ heap ∈ s.table.heaps[i]?, heap.free = 0
  | .malloc none size => (∃ heap ∈ s.table.heaps, HasFit t heap s.table.globals.mem size) →
    ∃ i < memHeapListNum, Asked s.table size i none ∧
      ∃ heap ∈ s.table.heaps[i]?, HasFit t heap s.table.globals.mem size
  | .free none ptr => ∀ i < memHeapListNum, (∃ x ∈ s.live i, x.1 = ptr) → Scanned s.table i
  | .available => freeSum s.table < 2 ^ 31
  | .malloc (some _) _ | .free (some _) _ | .write _ _ => True

/-- What the call does in the state. -/
def CallOk (t : Target) (s : ListState) : ListCall → Prop
  | .create ptr size => ∀ i table, tuyaMemHeapCreate t s.table ptr size = (some i, table) →
    ∃ heap ∈ table.heaps[i]?, heap.base = ptr ∧ heap.size = size ∧ heap.base ≤ heap.freeList ∧
      heap.freeList + blockSize t table.globals.mem heap.freeList ≤ heap.base + heap.size
  | .malloc none size => (∃ table, tuyaMemHeapMalloc t s.table none size = some (0, table)) →
    ∀ heap ∈ s.table.heaps, 0 < heap.size →
      ∃ heap' g, memAllocate t heap s.table.globals size = some (0, heap', g)
  | .free none ptr => ∀ i, ∀ x ∈ s.live i, x.1 = ptr →
    ∃ heap heap' g, s.table.heaps[i]? = some heap ∧
      memDeallocate t heap s.table.globals ptr = some (heap', g) ∧
      heap'.free = heap.free + blockSize t s.table.globals.mem (ptr - t.word) ∧
      tuyaMemHeapFree t s.table none ptr = some (s.table.put i heap' g)
  | .available => tuyaMemHeapAvailable s.table none = freeSum s.table
  | .malloc (some _) _ | .free (some _) _ | .delete _ | .write _ _ => True

structure StateInv (t : Target) (s : ListState) : Prop where
  table : ListInv t s.table s.live
  counted : Counted t s.table

/-! ## Steps -/

section Steps

variable {s : ListState} {handle : Handle} {ptr size : ℕ}

theorem StateInv.create (h : StateInv t s) (hclient : ClientCall t s (.create ptr size))
    (hcareful : Careful t s (.create ptr size)) :
    (∃ s', listStep t s (.create ptr size) = some s' ∧ StateInv t s') ∧
      CallOk t s (.create ptr size) := by
  obtain ⟨hsize, hfits, hapart⟩ := hclient
  have hcreate := h.table.create hsize hfits hapart hcareful
  rw [listStep, CallOk]
  rcases hcreate with (heq | ⟨i, heap, hget, hzero, heq, hinv⟩) |
    ⟨i, heap, heap', g, hget, hzero, heq, hinv, hpos, hbase, hsize', hstart, hend, hfree⟩
  · rw [heq]
    refine ⟨⟨s, rfl, h⟩, fun i table hres ↦ ?_⟩
    cases hres
  · rw [heq]
    refine ⟨⟨_, rfl, hinv, h.counted.same rfl ?_⟩, fun i table hres ↦ ?_⟩
    · have hput := freeSum_put hget { heap with base := ptr, size := 0 } s.table.globals
      rw [Heap.counted_of_empty hzero, Heap.counted_of_empty rfl] at hput
      exact hput
    · cases hres
  · rw [heq]
    refine ⟨⟨_, rfl, hinv, h.counted.added hfree ?_⟩, fun j table hres ↦ ?_⟩
    · have hput := freeSum_put hget heap' g
      rw [Heap.counted_of_empty hzero, Heap.counted_of_pos hpos] at hput
      exact hput
    · cases hres
      have hlt := (List.getElem?_eq_some_iff.mp hget).1
      exact ⟨heap', List.getElem?_set_self hlt, hbase, hsize', hstart, hend⟩

theorem StateInv.delete (h : StateInv t s) (hclient : ClientCall t s (.delete handle))
    (hcareful : Careful t s (.delete handle)) :
    ∃ s', listStep t s (.delete handle) = some s' ∧ StateInv t s' := by
  cases handle with
  | none => exact ⟨s, rfl, h⟩
  | some i =>
      have hi : i < memHeapListNum := hclient i rfl
      refine ⟨_, rfl, h.table.delete hi, h.counted.same rfl ?_⟩
      have hlt : i < s.table.heaps.length := h.table.length.symm ▸ hi
      have hget := List.getElem?_eq_getElem hlt
      generalize s.table.heaps[i] = heap at hget
      have hfree : heap.counted = 0 := by
        rw [Heap.counted]
        split_ifs
        · exact hcareful i rfl _ hget
        · rfl
      have hput := freeSum_put hget noHeap s.table.globals
      rw [hfree, Heap.counted_of_empty rfl] at hput
      exact hput

theorem handOut_eq {i : ℕ} {heap heap' : Heap} {g : Globals} (hne : ptr ≠ 0)
    (hgrant : Granted t s.table s.live size i ptr heap heap' g) :
    handOut t (s.table.put i heap' g) s.live ptr size =
      Function.update s.live i ((ptr, size) :: s.live i) := by
  have hnew := mem_update_cons s.live (ptr, size) i
  obtain ⟨heap₁, bs, hget₁, hpos₁, hat₁⟩ := hgrant.inv.of_mem hnew
  funext j
  have howns : Owns t (s.table.put i heap' g) j ptr ↔ j = i := by
    constructor
    · rintro ⟨heapj, hgetj, hposj, hin⟩
      exact (hgrant.inv.contains_iff hnew hgetj hposj).mp hin
    · rintro rfl
      exact ⟨heap₁, hget₁, hpos₁, (hgrant.inv.contains_iff hnew hget₁ hpos₁).mpr rfl⟩
  rw [handOut]
  by_cases hji : j = i
  · rw [if_pos ⟨hne, howns.mpr hji⟩, hji, Function.update_self]
  · rw [if_neg fun hboth ↦ hji (howns.mp hboth.2), Function.update_of_ne hji]

theorem StateInv.malloc (h : StateInv t s) (hsize : size < 2 ^ 32)
    (hcareful : Careful t s (.malloc handle size)) :
    (∃ s', listStep t s (.malloc handle size) = some s' ∧ StateInv t s') ∧
      CallOk t s (.malloc handle size) := by
  rcases h.table.malloc hsize handle with
    ⟨heq, hnone⟩ | ⟨i, heap, ptr, heap', g, -, -, hne, heq, hgrant⟩
  · have hlive : handOut t s.table s.live 0 size = s.live := by
      funext j
      rw [handOut, if_neg fun hboth ↦ hboth.1 rfl]
    refine ⟨⟨s, ?_, h⟩, ?_⟩
    · rw [listStep, heq, Option.map_some]
      dsimp only
      rw [hlive]
    · cases handle with
      | some k => trivial
      | none =>
          -- no heap has a block, since one that is asked would have had one
          intro _ heap hheap hpos
          have hno : ¬ HasFit t heap s.table.globals.mem size := fun hfit ↦ by
            obtain ⟨i, -, hasked, heapi, hgeti, hfiti⟩ := hcareful ⟨heap, hheap, hfit⟩
            exact hnone i hasked heapi hgeti hfiti
          obtain ⟨k, hk⟩ := List.getElem?_of_mem hheap
          obtain ⟨bs, hat⟩ := h.table.heapAt hk hpos
          have hword : size < 256 ^ t.word := by
            rcases t.word_eq with hw | hw <;> simp only [hw] <;> omega
          rcases hat.allocate hword with ⟨-, hrefused⟩ | ⟨hfit, -⟩
          · exact ⟨heap, _, hrefused⟩
          · exact absurd hfit hno
  · refine ⟨⟨_, by rw [listStep, heq, Option.map_some], ?_, ?_⟩, ?_⟩
    · dsimp only
      rw [handOut_eq hne hgrant]
      exact hgrant.inv
    · have hput := freeSum_put hgrant.slot heap' g
      have hpos' : 0 < heap'.size := hgrant.size_eq ▸ hgrant.pos
      rw [Heap.counted_of_pos hgrant.pos, Heap.counted_of_pos hpos', ← hgrant.free_eq] at hput
      have hblock := (hgrant.inv.liveBlock (mem_update_cons s.live (ptr, size) i)).bound
      have hk : blockSize t g.mem (ptr - t.word) < 256 ^ t.word :=
        lt_of_le_of_lt (Nat.le_add_left _ _) hblock
      refine h.counted.removed hgrant.freeSize_eq hk ?_
      dsimp only
      omega
    · cases handle with
      | some k => trivial
      | none =>
          rintro ⟨table, hnull⟩
          rw [heq] at hnull
          exact absurd (congrArg Prod.fst (Option.some.inj hnull)) hne

/-- The client has one pointer of a value, so removing it everywhere is removing it from
its slot. -/
theorem filter_eq_update (h : ListInv t s.table s.live) {i : ℕ} {x : ℕ × ℕ} (hx : x ∈ s.live i) :
    (fun j ↦ (s.live j).filter fun y ↦ y.1 ≠ x.1) =
      Function.update s.live i ((s.live i).filter fun y ↦ y.1 ≠ x.1) := by
  funext j
  by_cases hji : j = i
  · subst hji
    rw [Function.update_self]
  · rw [Function.update_of_ne hji]
    refine List.filter_eq_self.mpr fun y hy ↦ ?_
    obtain ⟨heap, bs, hget, hpos, -⟩ := h.of_mem hy
    have hne : y.1 ≠ x.1 := fun heq ↦ by
      have hin := (h.contains_iff hy hget hpos).mpr rfl
      rw [heq] at hin
      exact hji ((h.contains_iff hx hget hpos).mp hin)
    simpa using hne

theorem free_null (h : ListInv t s.table s.live) (handle : Handle) :
    tuyaMemHeapFree t s.table handle 0 = some s.table := by
  cases handle with
  | some i =>
      rw [tuyaMemHeapFree]
      cases hget : s.table.heaps[i]? with
      | none => rfl
      | some heap =>
          simp only [memDeallocate, true_or, if_true, Option.map_some, HeapTable.put_self hget]
  | none =>
      have hlength : 0 + memHeapListNum = s.table.heaps.length := by rw [h.length, Nat.zero_add]
      rcases @freeLoop_cases t s.table memHeapListNum 0 0 hlength (by simp) with
        ⟨heq, -⟩ | ⟨j, heap, -, -, -, hin, -⟩
      · exact heq
      · exact absurd hin.1 (Nat.not_lt_zero _)

theorem null_not_live (h : ListInv t s.table s.live) (i : ℕ) : ∀ x ∈ s.live i, x.1 ≠ 0 := by
  intro x hx
  have hptr := (h.liveBlock hx).ptr_ge
  omega

theorem StateInv.free (h : StateInv t s) (hclient : ClientCall t s (.free handle ptr))
    (hcareful : Careful t s (.free handle ptr)) :
    (∃ s', listStep t s (.free handle ptr) = some s' ∧ StateInv t s') ∧
      CallOk t s (.free handle ptr) := by
  rcases hclient with rfl | ⟨i, hi, ⟨x, hx, rfl⟩, hhandle⟩
  · refine ⟨⟨s, ?_, h⟩, ?_⟩
    · have hlive : (fun i ↦ (s.live i).filter fun x ↦ x.1 ≠ 0) = s.live := by
        funext i
        exact List.filter_eq_self.mpr fun x hx ↦ by simpa using null_not_live h.table i x hx
      rw [listStep, free_null h.table, Option.map_some, hlive]
    · cases handle with
      | some k => trivial
      | none => exact fun i x hx hzero ↦ absurd hzero (null_not_live h.table i x hx)
  · obtain ⟨heap, heap', g, hret⟩ := h.table.returned hx
    have hreach : handle = some i ∨ handle = none ∧ Scanned s.table i := by
      rcases hhandle with rfl | rfl
      · exact .inr ⟨rfl, hcareful i hi ⟨x, hx, rfl⟩⟩
      · exact .inl rfl
    have heq := tuyaMemHeapFree_returned h.table hx hret hreach
    refine ⟨⟨_, by rw [listStep, heq, Option.map_some], ?_, ?_⟩, ?_⟩
    · dsimp only
      rw [filter_eq_update h.table hx]
      exact hret.inv
    · have hput := freeSum_put hret.slot heap' g
      have hpos' : 0 < heap'.size := hret.size_eq ▸ hret.pos
      rw [Heap.counted_of_pos hret.pos, Heap.counted_of_pos hpos', hret.free_eq] at hput
      refine h.counted.added hret.freeSize_eq ?_
      dsimp only
      omega
    · cases handle with
      | some k => trivial
      | none =>
          intro j y hy hyx
          obtain ⟨heapj, bsj, hgetj, hposj, -⟩ := h.table.of_mem hy
          have hin := (h.table.contains_iff hy hgetj hposj).mpr rfl
          rw [hyx] at hin
          obtain rfl : j = i := (h.table.contains_iff hx hgetj hposj).mp hin
          exact ⟨heap, heap', g, hret.slot, hret.result, hret.free_eq, heq⟩

theorem bmod_word {n : ℕ} (h : n < 2 ^ 31) : Int.bmod n (2 ^ 32) = n := by
  rw [Int.bmod_eq_of_le] <;> omega

theorem StateInv.available (h : StateInv t s) (hcareful : freeSum s.table < 2 ^ 31) :
    tuyaMemHeapAvailable s.table none = freeSum s.table := by
  have hword : freeSum s.table < 256 ^ t.word := by
    rcases t.word_eq with hw | hw <;> simp only [hw] <;> omega
  have hcount : s.table.globals.freeSize = freeSum s.table :=
    Eq.trans h.counted (Nat.mod_eq_of_lt hword)
  have hfree : tuyaMemHeapAvailable s.table none = Int.bmod s.table.globals.freeSize (2 ^ 32) := rfl
  rw [hfree, hcount]
  exact bmod_word hcareful

theorem StateInv.write {addr : ℕ} {byte : UInt8} (h : StateInv t s)
    (hclient : ClientCall t s (.write addr byte)) :
    ∃ s', listStep t s (.write addr byte) = some s' ∧ StateInv t s' := by
  refine ⟨_, rfl, ?_, h.counted.same rfl rfl⟩
  rcases hclient with ⟨i, -, x, hx, hlow, hhigh⟩ | hout
  · obtain ⟨heap, bs, -, -, hat⟩ := h.table.of_mem hx
    obtain ⟨xs, k, ys, -, -, hk, -, hreq, -⟩ := hat.block hx
    refine h.table.write hx fun y hy ↦ setByte_of_ne ?_
    rw [usable, hk] at hy
    omega
  · refine h.table.setMem fun j heap hget ↦ (h.table.slot j heap hget).imp_right ?_
    rintro ⟨hpos, bs, hat⟩
    refine ⟨hpos, bs, hat.congr fun y hlow hhigh ↦ setByte_of_ne ?_⟩
    have hapart := hout heap (List.mem_of_getElem? hget) hpos
    omega

theorem StateInv.step {c : ListCall} (h : StateInv t s) (hclient : ClientCall t s c)
    (hcareful : Careful t s c) :
    (∃ s', listStep t s c = some s' ∧ StateInv t s') ∧ CallOk t s c := by
  cases c with
  | create ptr size => exact h.create hclient hcareful
  | delete handle => exact ⟨h.delete hclient hcareful, trivial⟩
  | malloc handle size => exact h.malloc hclient hcareful
  | free handle ptr => exact h.free hclient hcareful
  | available => exact ⟨⟨s, rfl, h⟩, h.available hcareful⟩
  | write addr byte => exact ⟨h.write hclient, trivial⟩

end Steps

/-! ## Runs -/

def started (m : Mem) : ListState where
  table := emptyTable m
  live _ := []

theorem stateInv_started (m : Mem) : StateInv t (started m) := by
  refine ⟨listInv_emptyTable m, ?_⟩
  rfl

def AllowedCall (t : Target) (o : Option ListState) (c : ListCall) : Prop :=
  ∀ s ∈ o, ClientCall t s c ∧ Careful t s c

/-- Every call of an allowed run returns, and each one is in order where it is made. -/
theorem heap_list_accounts {m : Mem} {cs : List ListCall}
    (hcs : (listMachine t).Guarded (AllowedCall t) (some (started m)) cs) :
    ∀ k c, cs[k]? = some c →
      ∃ s, (listMachine t).final (some (started m)) (cs.take k) = some s ∧ CallOk t s c := by
  have hstep : ∀ o c, (∃ s, o = some s ∧ StateInv t s) → AllowedCall t o c →
      ∃ s, ((listMachine t).step o c).1 = some s ∧ StateInv t s := by
    rintro o c ⟨s, rfl, hs⟩ hallowed
    obtain ⟨hclient, hcareful⟩ := hallowed s rfl
    exact (hs.step hclient hcareful).1
  intro k c hc
  obtain ⟨htake, hlast⟩ := hcs.step_at hc
  obtain ⟨s, hfinal, hs⟩ := (listMachine t).inv_final hstep
    ⟨started m, rfl, stateInv_started m⟩ htake
  rw [hfinal] at hlast
  obtain ⟨hclient, hcareful⟩ := hlast s rfl
  exact ⟨s, hfinal, (hs.step hclient hcareful).2⟩

instance (s : ListState) : (c : ListCall) → Decidable (ClientCall t s c)
  | .create _ _ => inferInstanceAs (Decidable (_ ∧ _ ∧ _))
  | .delete handle => inferInstanceAs (Decidable (∀ i ∈ handle, i < memHeapListNum))
  | .malloc _ size => inferInstanceAs (Decidable (size < 2 ^ 32))
  | .free _ _ => inferInstanceAs (Decidable (_ ∨ _))
  | .available => inferInstanceAs (Decidable True)
  | .write _ _ => inferInstanceAs (Decidable (_ ∨ _))

instance (s : ListState) : (c : ListCall) → Decidable (Careful t s c)
  | .create _ _ => inferInstanceAs (Decidable (_ ∨ _))
  | .delete handle => inferInstanceAs
    (Decidable (∀ i ∈ handle, ∀ heap ∈ s.table.heaps[i]?, heap.free = 0))
  | .malloc none _ => inferInstanceAs (Decidable (_ → _))
  | .malloc (some _) _ => inferInstanceAs (Decidable True)
  | .free none ptr => inferInstanceAs
    (Decidable (∀ i < memHeapListNum, (∃ x ∈ s.live i, x.1 = ptr) → Scanned s.table i))
  | .free (some _) _ => inferInstanceAs (Decidable True)
  | .available => inferInstanceAs (Decidable (freeSum s.table < 2 ^ 31))
  | .write _ _ => inferInstanceAs (Decidable True)

instance (o : Option ListState) (c : ListCall) : Decidable (AllowedCall t o c) :=
  inferInstanceAs (Decidable (∀ s ∈ o, _))

def blankRun : Option ListState := some (started fun _ ↦ 0)

/-- A heap of 160 bytes from which nine are asked for, written and released. -/
theorem heap_list_accounts_nine :
    let cs := [.create 64 160, .malloc none 9, .write 208 0xff, .available, .free none 208,
      .delete (some 1), .available]
    (listMachine linux64).Guarded (AllowedCall linux64) blankRun cs ∧
      ∃ s, (listMachine linux64).final blankRun (cs.take 6) = some s ∧
        CallOk linux64 s .available := by
  intro cs
  have hcs : (listMachine linux64).Guarded (AllowedCall linux64) blankRun cs := by
    refine ⟨?_, ?_, ?_, ?_, ?_, ?_, ?_, trivial⟩ <;> decide +kernel
  exact ⟨hcs, heap_list_accounts hcs 6 .available rfl⟩

/-- A run whose last call is not in order although the client did what it is asked
to. -/
def Fails (cs : List ListCall) (c : ListCall) : Prop :=
  (listMachine linux64).Guarded (fun o c ↦ ∀ s ∈ o, ClientCall linux64 s c) blankRun (cs ++ [c]) ∧
    ∃ s, (listMachine linux64).final blankRun cs = some s ∧ ¬ CallOk linux64 s c

def finalOf (cs : List ListCall) : ListState :=
  ((listMachine linux64).final blankRun cs).getD (started fun _ ↦ 0)

theorem final_eq {cs : List ListCall}
    (h : ((listMachine linux64).final blankRun cs).isSome = true) :
    (listMachine linux64).final blankRun cs = some (finalOf cs) := by
  obtain ⟨s, hs⟩ := Option.isSome_iff_exists.mp h
  rw [finalOf, hs]
  rfl

def holeCalls : List ListCall :=
  [.create 64 160, .create 1000 160, .malloc (some 1) 9, .delete (some 0)]

/-- The free bytes of a deleted heap are still counted; the first block of a region of
one byte at address 1 is not in it; behind the slot of a deleted heap there is a
heap that is not asked and a pointer that is not found. -/
theorem heap_list_fails :
    Fails [.create 64 160, .delete (some 0)] .available ∧ Fails [] (.create 1 1) ∧
      Fails holeCalls (.malloc none 9) ∧ Fails holeCalls (.free none 1144) := by
  refine ⟨⟨?_, _, final_eq (by decide +kernel), ?_⟩, ⟨?_, _, rfl, ?_⟩,
    ⟨?_, _, final_eq (by decide +kernel), ?_⟩, ⟨?_, _, final_eq (by decide +kernel), ?_⟩⟩
  · refine ⟨?_, ?_, ?_, trivial⟩ <;> decide +kernel
  · show ¬ tuyaMemHeapAvailable _ none = _
    decide +kernel
  · refine ⟨?_, trivial⟩
    decide +kernel
  · intro hok
    obtain ⟨heap, hget, hbase, hsize, -, hend⟩ := hok 0 _ rfl
    have hlist : ((tuyaMemHeapCreate linux64 (emptyTable fun _ ↦ 0) 1 1).2.heaps[0]?.map
        Heap.freeList) = some 8 := by decide +kernel
    have hfirst : heap.freeList = 8 := by
      rw [show (tuyaMemHeapCreate linux64 (emptyTable fun _ ↦ 0) 1 1).2.heaps[0]? = some heap
        from hget] at hlist
      exact Option.some.inj hlist
    rw [hbase, hsize, hfirst] at hend
    omega
  · refine ⟨?_, ?_, ?_, ?_, ?_, trivial⟩ <;> decide +kernel
  · intro hok
    have hnull : (tuyaMemHeapMalloc linux64 (finalOf holeCalls).table none 9).map Prod.fst =
        some 0 := by decide +kernel
    obtain ⟨⟨ptr, table⟩, heq, rfl⟩ := Option.map_eq_some_iff.mp hnull
    have hget : (finalOf holeCalls).table.heaps[1]? =
        some ((finalOf holeCalls).table.heaps[1]?.getD noHeap) := by decide +kernel
    obtain ⟨heap', g, hrefused⟩ :=
      hok ⟨table, heq⟩ _ (List.mem_of_getElem? hget) (by decide +kernel)
    have hserved : ((memAllocate linux64 ((finalOf holeCalls).table.heaps[1]?.getD noHeap)
        (finalOf holeCalls).table.globals 9).map Prod.fst) = some 1120 := by decide +kernel
    rw [hrefused] at hserved
    cases hserved
  · refine ⟨?_, ?_, ?_, ?_, ?_, trivial⟩ <;> decide +kernel
  · intro hok
    have hlive : (1144, 9) ∈ (finalOf holeCalls).live 1 := by decide +kernel
    obtain ⟨heap, heap', g, hget, -, hfree, hres⟩ := hok 1 (1144, 9) hlive rfl
    have hkept : (tuyaMemHeapFree linux64 (finalOf holeCalls).table none 1144).map freeSum =
        some (freeSum (finalOf holeCalls).table) := by decide +kernel
    have hblock : blockSize linux64 (finalOf holeCalls).table.globals.mem (1144 - 8) = 24 := by
      decide +kernel
    have hpos : ∀ h ∈ (finalOf holeCalls).table.heaps[1]?, 0 < h.size := by decide +kernel
    have hsize : ((tuyaMemHeapFree linux64 (finalOf holeCalls).table none 1144).map fun s ↦
        s.heaps[1]?.map Heap.size) = some (some 160) := by decide +kernel
    have hput := freeSum_put hget heap' g
    have hlt := (List.getElem?_eq_some_iff.mp hget).1
    rw [hres] at hkept hsize
    have hsize' : heap'.size = 160 := by
      simpa [HeapTable.put, List.getElem?_set_self hlt] using hsize
    have hfree' : heap'.free = heap.free + 24 := hblock ▸ hfree
    have hsame := Option.some.inj hkept
    rw [Heap.counted_of_pos (hpos heap hget), Heap.counted_of_pos (by omega)] at hput
    omega

end TuyaOpen.MemHeap
