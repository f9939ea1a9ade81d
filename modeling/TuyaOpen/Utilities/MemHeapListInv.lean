import TuyaOpen.Utilities.MemHeapList

/-!
# What holds of the table of heaps

A slot is empty, or its heap is tiled by blocks whose used ones are the
pointers handed out from it.  The regions of the heaps do not overlap, so what
is done to one heap is not seen in another.  The guards of free blocks are not
part of it: the link of a small released block is written over its guard.
-/

namespace TuyaOpen.MemHeap

open ByteMem

variable {t : Target} {m m' : Mem} {heap heap' : Heap} {live : List (ℕ × ℕ)}

/-! ## One heap -/

theorem not_inFree_of_used {a x : ℕ} {us vs : List Block} {u : Block} (hu : ¬ u.IsFree)
    (hlow : a + total us ≤ x) (hhigh : x < a + total us + u.size) :
    ¬ InFree a (us ++ u :: vs) x := by
  rintro ⟨ws, p, zs, heq, hp, hlow', hhigh'⟩
  induction us generalizing a ws with
  | nil =>
      rw [total_nil] at hlow hhigh
      cases ws with
      | nil => exact hu ((List.cons.inj heq).1 ▸ hp)
      | cons w ws =>
          have hw := (List.cons.inj heq).1
          rw [total_cons, ← hw] at hlow'
          omega
  | cons c us ih =>
      rw [total_cons] at hlow hhigh
      cases ws with
      | nil =>
          have hc := (List.cons.inj heq).1
          rw [total_nil, ← hc] at hhigh'
          omega
      | cons w ws =>
          obtain ⟨rfl, htail⟩ := List.cons.inj heq
          rw [total_cons] at hlow' hhigh'
          have hlow₁ : a + c.size + total us ≤ x := by omega
          have hhigh₁ : x < a + c.size + total us + u.size := by omega
          have hlow₂ : a + c.size + total ws ≤ x := by omega
          have hhigh₂ : x < a + c.size + total ws + p.size := by omega
          exact ih hlow₁ hhigh₁ ws htail hlow₂ hhigh₂

theorem InFree.bounds {a x : ℕ} {bs : List Block} (h : InFree a bs x) :
    a ≤ x ∧ x < a + total bs := by
  obtain ⟨us, p, vs, rfl, -, hlow, hhigh⟩ := h
  rw [total_append, total_cons]
  omega

/-- The heap is tiled by `bs`, and `live` lists the pointers of the used blocks. -/
structure HeapAt (t : Target) (m : Mem) (heap : Heap) (live : List (ℕ × ℕ)) (bs : List Block) :
    Prop where
  inv : HeapInvIf False t heap m (regionStart t heap) bs
  top : regionStart t heap + total bs = regionEnd t heap
  live : live.Perm (allocs t (regionStart t heap) bs)
  fits : heap.base + heap.size < 256 ^ t.word
  size_lt : heap.size < 2 ^ 32

theorem regionStart_ge (hpos : 0 < regionStart t heap) (hbase : heap.base < 256 ^ t.word) :
    heap.base ≤ regionStart t heap := by
  rw [regionStart, alignUp, alignDown, wadd] at *
  rcases t.word_eq with hw | hw <;> rcases t.align_eq with ha | ha <;>
    simp only [hw, ha] at hpos hbase ⊢ <;> omega

theorem HeapAt.region {bs : List Block} (h : HeapAt t m heap live bs) :
    heap.base ≤ regionStart t heap ∧ regionStart t heap + total bs ≤ heap.base + heap.size := by
  have hfits := h.fits
  refine ⟨regionStart_ge h.inv.pos (by omega), ?_⟩
  rw [h.top, regionEnd, wadd_of_lt hfits]
  exact Nat.div_mul_le_self _ _

theorem HeapAt.congr {bs : List Block} (h : HeapAt t m heap live bs)
    (hmem : ∀ x, heap.base ≤ x → x < heap.base + heap.size → m' x = m x) :
    HeapAt t m' heap live bs := by
  have hregion := h.region
  have hinv := h.inv
  refine ⟨⟨hinv.pos, hinv.bound, hinv.tiles.congr fun x hx hlt ↦ ?_, hinv.freeList, hinv.free,
    hinv.apart⟩, h.top, h.live, h.fits, h.size_lt⟩
  exact hmem x (by omega) (by omega)

/-- The address is in the block of the pointer. -/
def InBlock (t : Target) (m : Mem) (ptr x : ℕ) : Prop :=
  ptr - t.word ≤ x ∧ x < ptr - t.word + blockSize t m (ptr - t.word)

/-- The bytes between the header and the guard of the block. -/
def usable (t : Target) (m : Mem) (ptr : ℕ) : ℕ := blockSize t m (ptr - t.word) - t.word - 1

theorem HeapAt.block {bs : List Block} {x : ℕ × ℕ} (h : HeapAt t m heap live bs)
    (hx : x ∈ live) :
    ∃ xs s ys, bs = xs ++ ⟨s, some x.2⟩ :: ys ∧ x.1 = regionStart t heap + total xs + t.word ∧
      blockSize t m (x.1 - t.word) = s ∧ m (x.1 - t.word + s - 1) = memBlockStatUse ∧
      t.word + x.2 < s ∧ 2 * t.word ≤ s := by
  obtain ⟨xs, s, ys, rfl, hptr⟩ := mem_allocs.mp (h.live.mem_iff.mp hx)
  have hblock := (tilesIf_append.mp h.inv.tiles).2.1
  have hreq : t.word + x.2 < s := hblock.room_req x.2 rfl
  have haddr : x.1 - t.word = regionStart t heap + total xs := by omega
  rw [haddr]
  exact ⟨xs, s, ys, rfl, hptr, hblock.header, hblock.guard_used (Block.not_isFree_some s x.2), hreq,
    hblock.room⟩

theorem HeapAt.block_inside {bs : List Block} {x : ℕ × ℕ} (h : HeapAt t m heap live bs)
    (hx : x ∈ live) : heap.base + t.word ≤ x.1 ∧ 0 < heap.base + heap.size ∧
      x.1 - t.word + blockSize t m (x.1 - t.word) ≤ heap.base + heap.size := by
  obtain ⟨xs, s, ys, rfl, hptr, hsize, -, -, hroom⟩ := h.block hx
  have hregion := h.region
  rw [total_append, total_cons] at hregion
  have hword := t.word_pos
  rw [hsize]
  dsimp only at hregion
  omega

theorem HeapAt.not_inFree {bs : List Block} {x : ℕ × ℕ} {y : ℕ} (h : HeapAt t m heap live bs)
    (hx : x ∈ live) (hy : InBlock t m x.1 y) : ¬ InFree (regionStart t heap) bs y := by
  obtain ⟨xs, s, ys, rfl, hptr, hsize, -⟩ := h.block hx
  obtain ⟨hlow, hhigh⟩ := hy
  rw [hsize] at hhigh
  refine not_inFree_of_used (Block.not_isFree_some s x.2) ?_ ?_
  · omega
  · dsimp only
    omega

/-! ### What fits -/

/-- The free list of the heap leads to a block for a request of that size. -/
def HasFit (t : Target) (heap : Heap) (m : Mem) (size : ℕ) : Prop :=
  size ≠ 0 ∧ chunkSize t size ≠ 0 ∧ ∃ blocks ∈ freeWalk t m (walkFuel t) heap.freeList,
    ∃ b ∈ blocks, chunkSize t size ≤ blockSize t m b

instance (heap : Heap) (m : Mem) (size : ℕ) : Decidable (HasFit t heap m size) :=
  inferInstanceAs (Decidable (_ ∧ _ ∧ _))

theorem freeWalk_blocks {G : Prop} {a fuel : ℕ} {bs : List Block} (h : TilesIf G t m a bs 0)
    (ha : 0 < a) (hfuel : bs.length < fuel) :
    ∃ blocks, freeWalk t m fuel (firstFree a bs 0) = some blocks ∧
      ∀ n, (∃ x ∈ blocks, n ≤ blockSize t m x) ↔ ∃ b ∈ bs, b.IsFree ∧ n ≤ b.size := by
  induction bs generalizing a fuel with
  | nil =>
      obtain ⟨fuel, rfl⟩ : ∃ f, fuel = f + 1 := ⟨fuel - 1, by simp at hfuel; omega⟩
      exact ⟨[], rfl, by simp⟩
  | cons b bs ih =>
      rw [List.length_cons] at hfuel
      obtain ⟨fuel, rfl⟩ : ∃ f, fuel = f + 1 := ⟨fuel - 1, by omega⟩
      have hpos : 0 < a + b.size := by omega
      by_cases hb : b.IsFree
      · have hfuel' : bs.length < fuel := by omega
        obtain ⟨blocks, hwalk, hblocks⟩ := ih h.2 hpos hfuel'
        have hne : a ≠ 0 := by omega
        refine ⟨a :: blocks, ?_, fun n ↦ ?_⟩
        · rw [firstFree, if_pos hb, freeWalk, if_neg hne, h.1.link hb, hwalk]
          rfl
        · simp [hblocks, h.1.header, hb]
      · have hfuel' : bs.length < fuel + 1 := by omega
        obtain ⟨blocks, hwalk, hblocks⟩ := ih h.2 hpos hfuel'
        refine ⟨blocks, ?_, fun n ↦ ?_⟩
        · rw [firstFree, if_neg hb, hwalk]
        · simp [hblocks, hb]

theorem HeapAt.hasFit_iff {bs : List Block} (h : HeapAt t m heap live bs) (size : ℕ) :
    HasFit t heap m size ↔ HasRoom t bs size := by
  obtain ⟨blocks, hwalk, hblocks⟩ := freeWalk_blocks h.inv.tiles h.inv.pos
    (h.inv.tiles.length_lt_walkFuel h.inv.bound)
  rw [← h.inv.freeList] at hwalk
  rw [HasFit, HasRoom, hwalk]
  simp [hblocks]

/-! ### Requests and releases -/

theorem HeapAt.allocate {bs : List Block} {g : Globals} {size : ℕ}
    (h : HeapAt t g.mem heap live bs) (hsize : size < 256 ^ t.word) :
    (¬ HasFit t heap g.mem size ∧ memAllocate t heap g size = some (0, heap, g)) ∨
      HasFit t heap g.mem size ∧ ∃ ptr s heap' g' bs',
        memAllocate t heap g size = some (ptr, heap', g') ∧ ptr ≠ 0 ∧
        Allocated False t heap g (regionStart t heap) size bs ptr s heap' g' bs' ∧
        HeapAt t g'.mem heap' ((ptr, size) :: live) bs' := by
  rw [h.hasFit_iff]
  refine (memAllocate_cases h.inv hsize).imp_right ?_
  rintro ⟨hroom, ptr, s, heap', g', bs', heq, hne, hout⟩
  obtain ⟨hstart, hend⟩ := region_congr (t := t) hout.base_eq hout.size_eq
  obtain ⟨ls, rs, hold, hnew⟩ := hout.allocs_eq
  refine ⟨hroom, ptr, s, heap', g', bs', heq, hne, hout, ?_, ?_, ?_, ?_, ?_⟩
  · rw [hstart]
    exact hout.inv
  · rw [hstart, hend, hout.total_eq]
    exact h.top
  · rw [hstart, hnew]
    exact ((hold ▸ h.live).cons (ptr, size)).trans List.perm_middle.symm
  · rw [hout.base_eq, hout.size_eq]
    exact h.fits
  · rw [hout.size_eq]
    exact h.size_lt

theorem HeapAt.deallocate {bs : List Block} {g : Globals} {x : ℕ × ℕ}
    (h : HeapAt t g.mem heap live bs) (hx : x ∈ live) :
    ∃ heap' g' bs', memDeallocate t heap g x.1 = some (heap', g') ∧
      HeapAt t g'.mem heap' (live.filter fun y ↦ y.1 ≠ x.1) bs' ∧
      heap'.base = heap.base ∧ heap'.size = heap.size ∧
      heap'.free = heap.free + blockSize t g.mem (x.1 - t.word) ∧
      g'.freeSize = wadd t.word g.freeSize (blockSize t g.mem (x.1 - t.word)) ∧
      ∀ y, ¬ InFree (regionStart t heap) bs' y → g'.mem y = g.mem y := by
  obtain ⟨xs, s, ys, rfl, hptr, hsize, -⟩ := h.block hx
  obtain ⟨heap', g', bs', heq, hout⟩ := memDeallocate_inv h.inv (.inl False.elim)
  obtain ⟨hstart, hend⟩ := region_congr (t := t) hout.base_eq hout.size_eq
  rw [hsize, hptr]
  refine ⟨heap', g', bs', heq, ⟨?_, ?_, ?_, ?_, ?_⟩, hout.base_eq, hout.size_eq, hout.free_eq,
    hout.freeSize_eq, hout.frame⟩
  · rw [hstart]
    exact hout.inv
  · rw [hstart, hend, hout.total_eq]
    exact h.top
  · rw [hstart, hout.allocs_eq, ← filter_allocs h.inv.tiles]
    exact h.live.filter _
  · rw [hout.base_eq, hout.size_eq]
    exact h.fits
  · rw [hout.size_eq]
    exact h.size_lt

theorem HeapAt.write {bs : List Block} {x : ℕ × ℕ} (h : HeapAt t m heap live bs) (hx : x ∈ live)
    (hmem : ∀ y, y < x.1 ∨ x.1 + usable t m x.1 ≤ y → m' y = m y) : HeapAt t m' heap live bs := by
  obtain ⟨xs, s, ys, rfl, hptr, hsize, -, hreq, hroom⟩ := h.block hx
  have hinv := h.inv
  rw [usable, hsize] at hmem
  refine ⟨⟨hinv.pos, hinv.bound, ?_, hinv.freeList, hinv.free, hinv.apart⟩, h.top, h.live, h.fits,
    h.size_lt⟩
  exact hinv.tiles.congr_payload fun y hy ↦ hmem y (by omega)

/-! ## The table -/

def Heap.Apart (h h' : Heap) : Prop := h.base + h.size ≤ h'.base ∨ h'.base + h'.size ≤ h.base

instance (h h' : Heap) : Decidable (h.Apart h') := inferInstanceAs (Decidable (_ ∨ _))

def SlotInv (t : Target) (m : Mem) (heap : Heap) (live : List (ℕ × ℕ)) : Prop :=
  (heap.size = 0 ∧ heap.freeList = 0 ∧ heap.free = 0 ∧ live = []) ∨
    (0 < heap.size ∧ ∃ bs, HeapAt t m heap live bs)

/-- `live i` lists the pointers that are handed out from slot `i`, with the bytes asked
for. -/
structure ListInv (t : Target) (s : HeapTable) (live : ℕ → List (ℕ × ℕ)) : Prop where
  length : s.heaps.length = memHeapListNum
  slot : ∀ (i : ℕ) heap, s.heaps[i]? = some heap → SlotInv t s.globals.mem heap (live i)
  beyond : ∀ i, memHeapListNum ≤ i → live i = []
  apart : ∀ (i j : ℕ) (hi hj : Heap), i ≠ j → s.heaps[i]? = some hi → s.heaps[j]? = some hj →
    0 < hi.size → 0 < hj.size → hi.Apart hj

variable {s : HeapTable} {lives : ℕ → List (ℕ × ℕ)} {i : ℕ}

theorem listInv_emptyTable (m : Mem) : ListInv t (emptyTable m) fun _ ↦ [] := by
  have hempty : ∀ (i : ℕ) heap, (emptyTable m).heaps[i]? = some heap → heap = noHeap := by
    intro i heap hi
    exact List.eq_of_mem_replicate (List.mem_of_getElem? hi)
  refine ⟨rfl, fun i heap hi ↦ .inl ?_, fun _ _ ↦ rfl, fun i j hi hj _ hgeti _ hpos _ ↦ ?_⟩
  · rw [hempty i heap hi]
    exact ⟨rfl, rfl, rfl, rfl⟩
  · rw [hempty i hi hgeti] at hpos
    exact absurd hpos (lt_irrefl 0)

theorem ListInv.lt_of_slot (h : ListInv t s lives) (hi : s.heaps[i]? = some heap) :
    i < memHeapListNum := by
  rw [← h.length]
  exact (List.getElem?_eq_some_iff.mp hi).1

theorem ListInv.heapAt (h : ListInv t s lives) (hi : s.heaps[i]? = some heap)
    (hpos : 0 < heap.size) : ∃ bs, HeapAt t s.globals.mem heap (lives i) bs := by
  rcases h.slot i heap hi with ⟨hzero, -⟩ | ⟨-, hat⟩
  · omega
  · exact hat

theorem ListInv.of_mem (h : ListInv t s lives) {x : ℕ × ℕ} (hx : x ∈ lives i) :
    ∃ heap bs, s.heaps[i]? = some heap ∧ 0 < heap.size ∧
      HeapAt t s.globals.mem heap (lives i) bs := by
  have hlt : i < s.heaps.length := by
    by_contra hge
    rw [h.length, not_lt] at hge
    rw [h.beyond i hge] at hx
    cases hx
  have hget := List.getElem?_eq_getElem hlt
  rcases h.slot i _ hget with ⟨-, -, -, hnil⟩ | ⟨hpos, bs, hat⟩
  · rw [hnil] at hx
    cases hx
  · exact ⟨_, bs, hget, hpos, hat⟩

theorem ListInv.put {g : Globals} {l : List (ℕ × ℕ)} (h : ListInv t s lives)
    (hi : i < memHeapListNum) (hslot : SlotInv t g.mem heap' l)
    (hothers : ∀ j hj, j ≠ i → s.heaps[j]? = some hj → 0 < hj.size →
      (∀ x, hj.base ≤ x → x < hj.base + hj.size → g.mem x = s.globals.mem x) ∧
        (0 < heap'.size → heap'.Apart hj)) :
    ListInv t (s.put i heap' g) (Function.update lives i l) := by
  have hlt : i < s.heaps.length := h.length.symm ▸ hi
  have hself : (s.put i heap' g).heaps[i]? = some heap' := List.getElem?_set_self hlt
  have hother : ∀ j, j ≠ i → (s.put i heap' g).heaps[j]? = s.heaps[j]? :=
    fun j hj ↦ List.getElem?_set_ne hj.symm
  refine ⟨?_, fun j hj hget ↦ ?_, fun j hj ↦ ?_, fun j k hj hk hne hgetj hgetk hposj hposk ↦ ?_⟩
  · exact (List.length_set ..).trans h.length
  · by_cases hji : j = i
    · subst hji
      rw [hself, Option.some.injEq] at hget
      subst hget
      rw [Function.update_self]
      exact hslot
    · rw [hother j hji] at hget
      rw [Function.update_of_ne hji]
      refine (h.slot j hj hget).imp_right fun ⟨hpos, bs, hat⟩ ↦ ⟨hpos, bs, ?_⟩
      exact hat.congr (hothers j hj hji hget hpos).1
  · have hji : j ≠ i := by omega
    rw [Function.update_of_ne hji]
    exact h.beyond j hj
  · by_cases hji : j = i
    · subst hji
      rw [hself, Option.some.injEq] at hgetj
      subst hgetj
      rw [hother k (Ne.symm hne)] at hgetk
      exact (hothers k hk (Ne.symm hne) hgetk hposk).2 hposj
    · rw [hother j hji] at hgetj
      by_cases hki : k = i
      · subst hki
        rw [hself, Option.some.injEq] at hgetk
        subst hgetk
        exact ((hothers j hj hji hgetj hposj).2 hposk).symm
      · rw [hother k hki] at hgetk
        exact h.apart j k hj hk hne hgetj hgetk hposj hposk

theorem ListInv.put_same {g : Globals} {l : List (ℕ × ℕ)} {bs : List Block}
    (h : ListInv t s lives) (hi : s.heaps[i]? = some heap) (hpos : 0 < heap.size)
    (hbase : heap'.base = heap.base) (hsize : heap'.size = heap.size)
    (hat : HeapAt t g.mem heap' l bs)
    (hframe : ∀ x, x < heap.base ∨ heap.base + heap.size ≤ x → g.mem x = s.globals.mem x) :
    ListInv t (s.put i heap' g) (Function.update lives i l) := by
  have hslot : SlotInv t g.mem heap' l := .inr ⟨hsize ▸ hpos, bs, hat⟩
  refine h.put (h.lt_of_slot hi) hslot fun j hj hne hget hposj ↦ ?_
  have hapart : heap.Apart hj := h.apart i j heap hj hne.symm hi hget hpos hposj
  refine ⟨fun x hlow hhigh ↦ hframe x ?_, fun _ ↦ ?_⟩
  · rw [Heap.Apart] at hapart
    omega
  · rw [Heap.Apart, hbase, hsize]
    exact hapart

theorem ListInv.setMem (h : ListInv t s lives)
    (hslots : ∀ j hj, s.heaps[j]? = some hj → SlotInv t m hj (lives j)) :
    ListInv t (s.setMem m) lives :=
  ⟨h.length, hslots, h.beyond, h.apart⟩

theorem ListInv.block_inside (h : ListInv t s lives) {x : ℕ × ℕ} {y : ℕ} (hx : x ∈ lives i)
    (hi : s.heaps[i]? = some heap) (hy : InBlock t s.globals.mem x.1 y) :
    heap.base ≤ y ∧ y < heap.base + heap.size := by
  obtain ⟨heap', bs, hget, -, hat⟩ := h.of_mem hx
  obtain rfl : heap' = heap := Option.some.inj (hget.symm.trans hi)
  have hin := hat.block_inside hx
  rw [InBlock] at hy
  omega

/-- What is known of the block of a live pointer. -/
structure LiveBlock (t : Target) (m : Mem) (ptr : ℕ) : Prop where
  ptr_ge : t.word + 4 ≤ ptr
  room : 2 * t.word ≤ blockSize t m (ptr - t.word)
  bound : ptr - t.word + blockSize t m (ptr - t.word) < 256 ^ t.word
  size_lt : blockSize t m (ptr - t.word) < 2 ^ 32
  guard : m (memDogAddr t m (ptr - t.word)) = memBlockStatUse

theorem ListInv.liveBlock (h : ListInv t s lives) {x : ℕ × ℕ} (hx : x ∈ lives i) :
    LiveBlock t s.globals.mem x.1 := by
  obtain ⟨heap, bs, hget, hpos, hat⟩ := h.of_mem hx
  obtain ⟨xs, k, ys, rfl, hptr, hk, hguard, hreq, hroom⟩ := hat.block hx
  have hinside := hat.block_inside hx
  have hregion := hat.region
  have hfits := hat.fits
  have hsize := hat.size_lt
  have hword := t.word_pos
  have hstart : 4 ≤ regionStart t heap := by
    have hstartPos := hat.inv.pos
    rw [regionStart, alignUp, alignDown] at hstartPos ⊢
    rcases t.align_eq with ha | ha <;> rw [ha] at hstartPos ⊢ <;> omega
  rw [hk] at hinside
  have hbound : x.1 - t.word + k < 256 ^ t.word := by omega
  refine ⟨by omega, by omega, by omega, ?_, ?_⟩
  · rw [total_append, total_cons] at hregion
    dsimp only at hregion
    omega
  · rw [memDogAddr_eq hk (by omega) hbound]
    exact hguard

theorem blockSize_of_inBlock {ptr : ℕ}
    (hframe : ∀ y, InBlock t m ptr y → m' y = m y)
    (hroom : t.word ≤ blockSize t m (ptr - t.word)) :
    blockSize t m' (ptr - t.word) = blockSize t m (ptr - t.word) :=
  load_congr fun y hlow hhigh ↦ hframe y ⟨hlow, by omega⟩

theorem ListInv.write (h : ListInv t s lives) {x : ℕ × ℕ} (hx : x ∈ lives i)
    (hmem : ∀ y, y < x.1 ∨ x.1 + usable t s.globals.mem x.1 ≤ y → m y = s.globals.mem y) :
    ListInv t (s.setMem m) lives := by
  obtain ⟨heap, bs, hget, hpos, hat⟩ := h.of_mem hx
  have hin := hat.block_inside hx
  have hword := t.word_pos
  refine h.setMem fun j hj hgetj ↦ ?_
  by_cases hji : j = i
  · subst hji
    obtain rfl : heap = hj := Option.some.inj (hget.symm.trans hgetj)
    exact .inr ⟨hpos, bs, hat.write hx hmem⟩
  · refine (h.slot j hj hgetj).imp_right fun ⟨hposj, bsj, hatj⟩ ↦ ⟨hposj, bsj, hatj.congr ?_⟩
    have hapart : hj.Apart heap := h.apart j i hj heap hji hgetj hget hposj hpos
    intro y hlow hhigh
    apply hmem
    rw [Heap.Apart] at hapart
    rw [usable]
    omega

end TuyaOpen.MemHeap
