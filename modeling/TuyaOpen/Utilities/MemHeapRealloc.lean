import TuyaOpen.Utilities.MemHeapListOps

/-!
# Reallocation

`tuya_mem_heap_realloc` compares the old block with a size that it computes from
`size + 1` as an `unsigned int`; where that wraps, every block is large enough.
`tuya_mem_heap_debug_realloc` copies as many bytes as the new size says,
whatever the old block holds.
-/

namespace TuyaOpen.MemHeap

open ByteMem

variable {t : Target} {s : HeapTable} {lives : ℕ → List (ℕ × ℕ)} {i size : ℕ} {x : ℕ × ℕ}

/-- `NULL` and nothing changed, or a live block with room for `size` bytes that begins
with the bytes of the old one. -/
def ReallocContract (t : Target) (s : HeapTable) (handle : Handle) (ptr size : ℕ) : Prop :=
  ∃ tmp s', tuyaMemHeapRealloc t s handle ptr size = some (tmp, s') ∧
    ((tmp = 0 ∧ s' = s) ∨
      (tmp ≠ 0 ∧ (∃ lives' j n, ListInv t s' lives' ∧ (tmp, n) ∈ lives' j) ∧
        size ≤ usable t s'.globals.mem tmp ∧
        ∀ k < min (usable t s.globals.mem ptr) size,
          s'.globals.mem (tmp + k) = s.globals.mem (ptr + k)))

/-- Every byte that the debug reallocation reads is in the block of the pointer. -/
def DebugReadsInside (t : Target) (s : HeapTable) (handle : Handle)
    (ptr size filename line : ℕ) : Prop :=
  ∃ c s', debugReallocCopy t s handle ptr size filename line = some (c, s') ∧
    ∀ copy ∈ c, ∀ k < copy.len, InBlock t s.globals.mem ptr (copy.src + k)

/-- The first size that is too large. -/
def reallocBound (t : Target) : ℕ := if t.word = 4 then 2 ^ 32 - 8 else 2 ^ 32 - 1

theorem reallocSize_of_lt (hfour : 4 ≤ size) (hsize : size < reallocBound t) :
    reallocSize t size = chunkSize t size ∧ t.word + size < reallocSize t size := by
  simp only [reallocSize, chunkSize, memBlockHeadSize, alignUp, alignDown, wadd, reallocBound]
    at hsize ⊢
  rcases t.word_eq with hw | hw <;> rcases t.align_eq with ha | ha <;>
    simp only [hw, ha] at hsize ⊢ <;> split_ifs at hsize ⊢ <;> omega

theorem reallocSize_of_ge (hsize : reallocBound t ≤ size) (hlt : size < 2 ^ 32) :
    reallocSize t size ≤ t.word := by
  simp only [reallocSize, memBlockHeadSize, alignUp, alignDown, wadd, reallocBound] at hsize ⊢
  rcases t.word_eq with hw | hw <;> rcases t.align_eq with ha | ha <;>
    simp only [hw, ha] at hsize ⊢ <;> split_ifs at hsize <;> omega

theorem ListInv.free_other {handle : Handle} {y : ℕ × ℕ} {j : ℕ} (h : ListInv t s lives)
    (hx : x ∈ lives i) (hy : y ∈ lives j) (hne : y.1 ≠ x.1)
    (hhandle : handle = none ∨ handle = some i) :
    ∃ s' lives', tuyaMemHeapFree t s handle x.1 = some s' ∧ ListInv t s' lives' ∧ y ∈ lives' j ∧
      ∀ z, InBlock t s.globals.mem y.1 z → s'.globals.mem z = s.globals.mem z := by
  by_cases hreach : handle = some i ∨ handle = none ∧ Scanned s i
  · obtain ⟨heap, heap', g, hret⟩ := h.returned hx
    have hy' : y ∈ Function.update lives i ((lives i).filter fun z ↦ z.1 ≠ x.1) j := by
      by_cases hji : j = i
      · subst hji
        rw [Function.update_self]
        exact List.mem_filter.mpr ⟨hy, by simpa using hne⟩
      · rw [Function.update_of_ne hji]
        exact hy
    have hblock : LiveBlock t g.mem y.1 := hret.inv.liveBlock hy'
    have hroom := hblock.room
    have hsize : blockSize t s.globals.mem (y.1 - t.word) = blockSize t g.mem (y.1 - t.word) :=
      blockSize_of_inBlock (fun z hz ↦ (hret.frame j y z hy' hz).symm) (by omega)
    refine ⟨_, _, tuyaMemHeapFree_returned h hx hret hreach, hret.inv, hy', fun z hz ↦ ?_⟩
    refine hret.frame j y z hy' ?_
    rwa [InBlock, ← hsize]
  · rw [not_or, not_and] at hreach
    obtain rfl : handle = none := hhandle.resolve_right hreach.1
    exact ⟨s, lives, tuyaMemHeapFree_of_not_scanned h hx (hreach.2 rfl), h, hy, fun _ _ ↦ rfl⟩

/-- The old bytes fit the new block: neither its header nor its guard is written. -/
theorem Granted.copied {j ptr n : ℕ} {heap heap' : Heap} {g : Globals}
    (h : ListInv t s lives) (hgrant : Granted t s lives n j ptr heap heap' g) (hx : x ∈ lives i)
    (hlarge : blockSize t s.globals.mem (x.1 - t.word) < chunkSize t n) :
    let len := blockSize t s.globals.mem (x.1 - t.word) - t.word
    let s' := (s.put j heap' g).setMem (copy g.mem ptr x.1 len)
    let lives' := Function.update lives j ((ptr, n) :: lives j)
    ListInv t s' lives' ∧ x ∈ lives' i ∧ (ptr, n) ∈ lives' j ∧ ptr ≠ x.1 ∧
      blockSize t s'.globals.mem (ptr - t.word) = blockSize t g.mem (ptr - t.word) ∧
      ∀ k < len, s'.globals.mem (ptr + k) = s.globals.mem (x.1 + k) := by
  intro len s' lives'
  have hnew : (ptr, n) ∈ lives' j := mem_update_cons lives (ptr, n) j
  have hold : x ∈ lives' i := mem_update_of_mem (ptr, n) j hx
  have hblock : LiveBlock t s.globals.mem x.1 := h.liveBlock hx
  have hroom := hblock.room
  have hptr := hblock.ptr_ge
  have hframe : ∀ y, InBlock t s.globals.mem x.1 y → g.mem y = s.globals.mem y :=
    fun y hy ↦ hgrant.frame i x y hx hy
  have hsize : blockSize t g.mem (x.1 - t.word) = blockSize t s.globals.mem (x.1 - t.word) :=
    blockSize_of_inBlock hframe (by omega)
  have hlarge' := hgrant.large
  have hwordLt := hgrant.word_lt
  refine ⟨hgrant.inv.write hnew fun y hy ↦ ?_, hold, hnew, fun heq ↦ ?_, ?_, fun k hk ↦ ?_⟩
  · refine copy_of_disjoint (hy.imp_right fun hge ↦ ?_)
    have husable : len ≤ usable t g.mem ptr := by
      rw [usable]
      omega
    exact le_trans (Nat.add_le_add_left husable ptr) hge
  · rw [heq, hsize] at hlarge'
    omega
  · exact load_congr fun y _ hlt ↦ copy_of_disjoint (.inl (by omega))
  · refine (copy_apply hk).trans (hframe _ ⟨by omega, ?_⟩)
    have hlen : len = blockSize t s.globals.mem (x.1 - t.word) - t.word := rfl
    omega

theorem realloc_size_cases (hsize : size < 2 ^ 32) :
    ∃ n, (if size < 4 then 4 else size) = n ∧ size ≤ n ∧ 4 ≤ n ∧ n < 2 ^ 32 ∧
      (n < reallocBound t ↔ size < reallocBound t) := by
  refine ⟨_, rfl, ?_⟩
  have hbound : 4 < reallocBound t := by
    rw [reallocBound]
    split_ifs <;> omega
  split_ifs <;> omega

theorem tuyaMemHeapRealloc_eq (handle : Handle) {n : ℕ} (h : ListInv t s lives)
    (hx : x ∈ lives i) (hn : (if size < 4 then 4 else size) = n) :
    tuyaMemHeapRealloc t s handle x.1 size =
      if reallocSize t n ≤ blockSize t s.globals.mem (x.1 - t.word) then some (x.1, s)
      else (tuyaMemHeapMalloc t s handle n).bind fun (tmp, s) ↦
        if tmp = 0 then some (0, s)
        else
          let len := wsub t.word (blockSize t s.globals.mem (x.1 - t.word)) t.word
          (tuyaMemHeapFree t (s.setMem (copy s.globals.mem tmp x.1 len)) handle x.1).map
            fun s ↦ (tmp, s) := by
  have hblock := h.liveBlock hx
  have hptr := hblock.ptr_ge
  have hbound := hblock.bound
  have hroom := hblock.room
  have hne : x.1 ≠ 0 := by omega
  have hold : wsub t.word x.1 (memBlockHeadSize t) = x.1 - t.word :=
    wsub_of_le (by rw [memBlockHeadSize]; omega) (by omega)
  rw [tuyaMemHeapRealloc, if_neg hne]
  dsimp only
  rw [hold, if_neg (not_not_intro hblock.guard), hn]
  rfl

theorem realloc_kept {handle : Handle} {n : ℕ} (h : ListInv t s lives) (hx : x ∈ lives i)
    (hn : (if size < 4 then 4 else size) = n)
    (hfits : reallocSize t n ≤ blockSize t s.globals.mem (x.1 - t.word)) :
    ReallocContract t s handle x.1 size ↔ size ≤ usable t s.globals.mem x.1 := by
  have hptr := (h.liveBlock hx).ptr_ge
  have heq := tuyaMemHeapRealloc_eq handle h hx hn
  rw [if_pos hfits] at heq
  constructor
  · rintro ⟨tmp, s', hres, hcases⟩
    rw [heq] at hres
    cases hres
    rcases hcases with ⟨hzero, -⟩ | ⟨-, -, husable, -⟩
    · omega
    · exact husable
  · intro husable
    refine ⟨x.1, s, heq, .inr ⟨by omega, ⟨lives, i, x.2, h, hx⟩, husable, fun k _ ↦ rfl⟩⟩

theorem realloc_moved {handle : Handle} {n : ℕ} (h : ListInv t s lives) (hx : x ∈ lives i)
    (hhandle : handle = none ∨ handle = some i) (hn : (if size < 4 then 4 else size) = n)
    (hle : size ≤ n) (hlt : n < 2 ^ 32) (hchunk : reallocSize t n = chunkSize t n)
    (hroom : t.word + n < chunkSize t n)
    (hfits : ¬ reallocSize t n ≤ blockSize t s.globals.mem (x.1 - t.word)) :
    ReallocContract t s handle x.1 size := by
  have heq := tuyaMemHeapRealloc_eq handle h hx hn
  rw [if_neg hfits] at heq
  rcases h.malloc hlt handle with ⟨hmalloc, -⟩ |
    ⟨j, heap, ptr, heap', g, -, -, hne, hmalloc, hgrant⟩
  · refine ⟨0, s, ?_, .inl ⟨rfl, rfl⟩⟩
    rw [heq, hmalloc]
    rfl
  have hlarge : blockSize t s.globals.mem (x.1 - t.word) < chunkSize t n := by omega
  obtain ⟨hinv, hold, hnew, hptr, hsize, hbytes⟩ := hgrant.copied h hx hlarge
  obtain ⟨s', lives', hfree, hinv', hnew', hframe⟩ := hinv.free_other hold hnew hptr hhandle
  have hblock := h.liveBlock hx
  have hblockRoom := hblock.room
  have hbound := hblock.bound
  have hframeOld : ∀ y, InBlock t s.globals.mem x.1 y → g.mem y = s.globals.mem y :=
    fun y hy ↦ hgrant.frame i x y hx hy
  have hlen : wsub t.word (blockSize t g.mem (x.1 - t.word)) t.word =
      blockSize t s.globals.mem (x.1 - t.word) - t.word := by
    rw [blockSize_of_inBlock hframeOld (by omega)]
    exact wsub_of_le (by omega) (by omega)
  have hlargeNew := hgrant.large
  have hwordLt := hgrant.word_lt
  -- the block of `ptr` is as the copy left it
  have hsize' : blockSize t s'.globals.mem (ptr - t.word) = blockSize t g.mem (ptr - t.word) :=
    (blockSize_of_inBlock hframe (by rw [hsize]; omega)).trans hsize
  refine ⟨ptr, s', ?_, .inr ⟨hne, ⟨lives', j, n, hinv', hnew'⟩, ?_, fun k hk ↦ ?_⟩⟩
  · rw [heq, hmalloc, Option.bind_some]
    dsimp only
    rw [if_neg hne]
    change Option.map _ (tuyaMemHeapFree t ((s.put j heap' g).setMem (copy g.mem ptr x.1
      (wsub t.word (blockSize t g.mem (x.1 - t.word)) t.word))) handle x.1) = _
    rw [hlen, hfree]
    rfl
  · rw [usable, hsize']
    omega
  · rw [usable] at hk
    have hin : InBlock t ((s.put j heap' g).setMem (copy g.mem ptr x.1
        (blockSize t s.globals.mem (x.1 - t.word) - t.word))).globals.mem ptr (ptr + k) := by
      rw [InBlock, hsize]
      omega
    exact (hframe _ hin).trans (hbytes k (by omega))

theorem reallocContract_iff {handle : Handle} (h : ListInv t s lives) (hx : x ∈ lives i)
    (hsize : size < 2 ^ 32) (hhandle : handle = none ∨ handle = some i) :
    ReallocContract t s handle x.1 size ↔ size < reallocBound t := by
  obtain ⟨n, hn, hle, hfour, hlt, hbound⟩ := @realloc_size_cases t size hsize
  have hblock := h.liveBlock hx
  have hroom := hblock.room
  rw [← hbound]
  by_cases hsmall : n < reallocBound t
  · obtain ⟨hchunk, hlarge⟩ := reallocSize_of_lt hfour hsmall
    refine ⟨fun _ ↦ hsmall, fun _ ↦ ?_⟩
    by_cases hfits : reallocSize t n ≤ blockSize t s.globals.mem (x.1 - t.word)
    · rw [realloc_kept h hx hn hfits, usable]
      omega
    · exact realloc_moved h hx hhandle hn hle hlt hchunk (hchunk ▸ hlarge) hfits
  · have hsizeLe := reallocSize_of_ge (Nat.le_of_not_lt hsmall) hlt
    have hfits : reallocSize t n ≤ blockSize t s.globals.mem (x.1 - t.word) := by omega
    rw [realloc_kept h hx hn hfits, usable]
    have hsizeLt := hblock.size_lt
    have hbound' := hblock.bound
    have hptr := hblock.ptr_ge
    generalize blockSize t s.globals.mem (x.1 - t.word) = k at *
    rw [reallocBound] at hsmall hbound ⊢
    rcases t.word_eq with hw | hw <;> simp only [hw] at hsmall hbound hptr hbound' ⊢ <;>
      split_ifs at hsmall hbound ⊢ <;> omega

/-! ## The debug functions -/

/-- A heap to which the request of `tuya_mem_heap_debug_malloc` is put can serve it. -/
def DebugFits (t : Target) (s : HeapTable) (handle : Handle) (size : ℕ) : Prop :=
  ∃ i heap, Asked s size i handle ∧ s.heaps[i]? = some heap ∧
    HasFit t heap s.globals.mem (debugSize t size)

theorem debugReallocCopy_cases (h : ListInv t s lives) (handle : Handle)
    (ptr filename line : ℕ) :
    (¬ DebugFits t s handle size ∧
        debugReallocCopy t s handle ptr size filename line = some (none, s)) ∨
      DebugFits t s handle size ∧ ∃ tmp s',
        debugReallocCopy t s handle ptr size filename line =
          some (some { dst := tmp, src := ptr, len := size }, s') := by
  rw [debugReallocCopy, tuyaMemHeapDebugMalloc]
  rcases requestFrom_requested h.length
    (fun i heap hi ↦ h.serves_debug filename line hi) handle with
    ⟨heq, hnone⟩ | ⟨i, heap, tmp, heap', g, hasked, hi, hfit, -, hne, heq⟩
  · refine .inl ⟨fun ⟨i, heap, hasked, hi, hfit⟩ ↦ hnone i hasked heap hi hfit, ?_⟩
    rw [heq]
    rfl
  · refine .inr ⟨⟨i, heap, hasked, hi, hfit⟩, tmp, s.put i heap' g, ?_⟩
    rw [heq, Option.map_some]
    dsimp only
    rw [if_neg hne]

theorem debugReadsInside_iff {handle : Handle} (h : ListInv t s lives) (hx : x ∈ lives i)
    (filename line : ℕ) :
    DebugReadsInside t s handle x.1 size filename line ↔
      size ≤ blockSize t s.globals.mem (x.1 - t.word) - t.word ∨ ¬ DebugFits t s handle size := by
  have hptr := (h.liveBlock hx).ptr_ge
  rcases debugReallocCopy_cases h handle x.1 filename line with ⟨hno, heq⟩ | ⟨hfit, tmp, s', heq⟩
  · refine ⟨fun _ ↦ .inr hno, fun _ ↦ ⟨none, s, heq, ?_⟩⟩
    intro copy hcopy
    cases hcopy
  · constructor
    · rintro ⟨c, s₁, hres, hreads⟩
      rw [heq] at hres
      cases hres
      left
      by_contra hlarge
      have hlast := hreads _ rfl (blockSize t s.globals.mem (x.1 - t.word) - t.word) (by
        dsimp only
        omega)
      rw [InBlock] at hlast
      dsimp only at hlast
      omega
    · intro hsize
      have hle := hsize.resolve_right (not_not_intro hfit)
      refine ⟨_, s', heq, fun copy hcopy k hk ↦ ?_⟩
      obtain rfl := Option.some.inj hcopy
      dsimp only at hk ⊢
      rw [InBlock]
      omega

/-- The first reallocation keeps its contract exactly for the sizes that do not wrap with
guard and header, the second exactly when the old block holds as many bytes as are
asked for, or no new block is found. -/
theorem mem_heap_realloc_iff {handle : Handle} (h : ListInv t s lives) (hx : x ∈ lives i)
    (hsize : size < 2 ^ 32) (hhandle : handle = none ∨ handle = some i) (filename line : ℕ) :
    (ReallocContract t s handle x.1 size ∧ DebugReadsInside t s handle x.1 size filename line) ↔
      size < reallocBound t ∧
        (size ≤ blockSize t s.globals.mem (x.1 - t.word) - t.word ∨ ¬ DebugFits t s handle size) :=
  and_congr (reallocContract_iff h hx hsize hhandle) (debugReadsInside_iff h hx filename line)

/-! ### A block of nine bytes -/

theorem nineTable_isSome :
    (tuyaMemHeapMalloc linux64 (tuyaMemHeapCreate linux64 (emptyTable fun _ ↦ 0) 64 160).2
      none 9).isSome = true := by
  decide +kernel

/-- One heap of 160 bytes from which nine bytes were asked for. -/
def nineTable : ℕ × HeapTable :=
  (tuyaMemHeapMalloc linux64 (tuyaMemHeapCreate linux64 (emptyTable fun _ ↦ 0) 64 160).2
    none 9).get nineTable_isSome

theorem nineTable_live : ∃ lives i, ListInv linux64 nineTable.2 lives ∧ (208, 9) ∈ lives i := by
  have hcreate : ListInv linux64 (tuyaMemHeapCreate linux64 (emptyTable fun _ ↦ 0) 64 160).2
      fun _ ↦ [] := by
    refine (listInv_emptyTable _).create_snd (by decide) (by decide) ?_ (.inr (by decide))
    exact fun heap hheap hpos ↦ absurd hpos (by simp [List.eq_of_mem_replicate hheap, noHeap])
  have hptr : nineTable.1 = 208 := by decide +kernel
  have hnine : tuyaMemHeapMalloc linux64 (tuyaMemHeapCreate linux64 (emptyTable fun _ ↦ 0) 64 160).2
      none 9 = some nineTable := (Option.some_get nineTable_isSome).symm
  have hsize : 9 < 2 ^ 32 := by decide
  rcases hcreate.malloc hsize none with ⟨hnull, -⟩ | ⟨i, heap, ptr, heap', g, -, -, -, heq, hgrant⟩
  · rw [hnine] at hnull
    rw [Option.some.inj hnull] at hptr
    exact absurd hptr (by decide)
  · rw [hnine] at heq
    rw [Option.some.inj heq] at hptr ⊢
    refine ⟨_, i, hgrant.inv, ?_⟩
    obtain rfl : ptr = 208 := hptr
    exact mem_update_cons _ _ i

theorem mem_heap_realloc_nine :
    ∃ lives i, ListInv linux64 nineTable.2 lives ∧ (208, 9) ∈ lives i ∧
      ((ReallocContract linux64 nineTable.2 none 208 12 ∧
          DebugReadsInside linux64 nineTable.2 none 208 12 0 0) ↔
        12 < reallocBound linux64 ∧
          (12 ≤ blockSize linux64 nineTable.2.globals.mem 200 - 8 ∨
            ¬ DebugFits linux64 nineTable.2 none 12)) := by
  obtain ⟨lives, i, hinv, hlive⟩ := nineTable_live
  exact ⟨lives, i, hinv, hlive, mem_heap_realloc_iff hinv hlive (by decide) (.inl rfl) 0 0⟩

/-- `UINT_MAX` bytes are granted in a block of 24, and a copy of 40 bytes reads past its
end. -/
theorem mem_heap_realloc_fails :
    ∃ lives i, ListInv linux64 nineTable.2 lives ∧ (208, 9) ∈ lives i ∧
      (tuyaMemHeapRealloc linux64 nineTable.2 none 208 (2 ^ 32 - 1)).map Prod.fst = some 208 ∧
      usable linux64 nineTable.2.globals.mem 208 = 15 ∧
      ¬ ReallocContract linux64 nineTable.2 none 208 (2 ^ 32 - 1) ∧
      ¬ DebugReadsInside linux64 nineTable.2 none 208 40 0 0 := by
  obtain ⟨lives, i, hinv, hlive⟩ := nineTable_live
  refine ⟨lives, i, hinv, hlive, by decide +kernel, by decide +kernel, ?_, ?_⟩
  · rw [reallocContract_iff hinv hlive (by decide) (.inl rfl)]
    decide
  · rw [debugReadsInside_iff hinv hlive, not_or, not_not]
    have hget : nineTable.2.heaps[0]? = some (nineTable.2.heaps[0]?.getD noHeap) := by
      decide +kernel
    exact ⟨by decide +kernel, 0, _, by decide +kernel, hget, by decide +kernel⟩

end TuyaOpen.MemHeap
