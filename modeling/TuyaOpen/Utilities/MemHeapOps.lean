import TuyaOpen.Utilities.MemHeapSearch

/-!
# Allocation and release on tiled regions

Allocation replaces a free block by a used one, after it has cut off what the
request does not need.  Release turns a used block into a free one and joins
it to the free blocks it touches.
-/

namespace TuyaOpen.MemHeap

open ByteMem

variable {G : Prop} {t : Target} {m : Mem} {a n nx : ℕ} {heap : Heap} {xs ys : List Block}
  {b f : Block}

theorem memDogAddr_eq {block s : ℕ} (hs : blockSize t m block = s) (hpos : 0 < s)
    (hbound : block + s < 256 ^ t.word) : memDogAddr t m block = block + s - 1 := by
  rw [memDogAddr, hs, wadd_of_lt hbound, wsub_of_le (by omega) hbound]

theorem lastFree_of_split {us vs : List Block} {p : Block} (hp : p.IsFree)
    (hvs : ∀ b ∈ vs, ¬ b.IsFree) : lastFree a (us ++ p :: vs) 0 = a + total us := by
  rw [lastFree_append, lastFree, if_pos hp, lastFree_of_used hvs]

theorem TilesIf.relink {us vs : List Block} {p : Block} {v : ℕ}
    (h : TilesIf G t m a (us ++ p :: vs) nx) (hp : p.IsFree) (hvs : ∀ b ∈ vs, ¬ b.IsFree)
    (hv : v < 256 ^ t.word) : TilesIf G t (setNext t m (a + total us) v) a (us ++ p :: vs) v := by
  obtain ⟨hus, hblock, hrest⟩ := tilesIf_append.mp h
  have hroom := hblock.room
  have hout : ∀ x, x < a + total us ∨ a + total us + p.size ≤ x →
      setNext t m (a + total us) v x = m x := fun x hx ↦ store_of_disjoint (by omega)
  refine tilesIf_append.mpr ⟨?_, ⟨?_, fun hG ↦ ?_, fun _ ↦ ?_, hblock.room, hblock.room_free,
    hblock.room_req⟩, ?_⟩
  · rw [firstFree, if_pos hp] at hus ⊢
    exact hus.congr fun x _ hlt ↦ hout x (Or.inl hlt)
  · rw [← hblock.header]
    exact load_store_of_disjoint (by omega)
  · have hroomFree := hblock.room_free (hG hp) hp
    rw [← hblock.guard hG]
    exact store_of_disjoint (by omega)
  · rw [firstFree_of_used hvs]
    exact load_store_self hv
  · refine (hrest.congr fun x hx _ ↦ hout x (Or.inr hx)).next_of_used hvs v

/-- The address is in a free block of the segment at `a`. -/
def InFree (a : ℕ) (bs : List Block) (x : ℕ) : Prop :=
  ∃ us p vs, bs = us ++ p :: vs ∧ p.IsFree ∧ a + total us ≤ x ∧ x < a + total us + p.size

theorem not_inFree {bs us vs : List Block} {p : Block} {x : ℕ} (h : ¬ InFree a bs x)
    (hbs : bs = us ++ p :: vs) (hp : p.IsFree) : x < a + total us ∨ a + total us + p.size ≤ x := by
  by_contra hx
  rw [not_or, not_lt, not_le] at hx
  exact h ⟨us, p, vs, hbs, hp, hx⟩

/-! ## Allocation -/

/-- Memory after `n` bytes at the end of a block at `this` became a used block and
`r` bytes stayed free. -/
def cutMem (t : Target) (m : Mem) (this r n : ℕ) : Mem :=
  setByte (setSize t (setByte (setSize t m this r) (this + r - 1) memBlockStatFree) (this + r) n)
    (this + r + n - 1) memBlockStatUse

theorem cutMem_of_disjoint {this r x : ℕ} (hr : t.word < r) (hn : t.word < n)
    (hx : x < this ∨ this + r + n ≤ x) : cutMem t m this r n x = m x := by
  simp (disch := omega) only [cutMem, setSize, setByte_of_ne, store_of_disjoint]

theorem takeChunk_of_large {this pre s : ℕ} (hs : blockSize t m this = s)
    (hbound : this + s < 256 ^ t.word) (hn : n + memHeapMinSize t ≤ s) (hpos : 0 < n) :
    takeChunk t heap m n pre this = (heap, cutMem t m this (s - n) n, this + (s - n)) := by
  have hmin : memHeapMinSize t = 24 + t.word := rfl
  have hword := t.word_pos
  have hrest : wsub t.word s n = s - n := wsub_of_le (by omega) (by omega)
  have hsize₁ : blockSize t (setSize t m this (s - n)) this = s - n := load_store_self (by omega)
  have hsize₂ : blockSize t (setByte (setSize t m this (s - n)) (this + (s - n) - 1)
      memBlockStatFree) this = s - n :=
    (load_setByte_of_disjoint (by omega)).trans hsize₁
  have hsize₃ (m' : Mem) : blockSize t (setSize t m' (this + (s - n)) n) (this + (s - n)) = n :=
    load_store_self (by omega)
  rw [takeChunk, hs, hrest, if_pos (by omega)]
  dsimp only
  rw [memDogAddr_eq hsize₁ (by omega) (by omega), hsize₂, wadd_of_lt (by omega),
    memDogAddr_eq (hsize₃ _) hpos (by omega), cutMem]

theorem tiles_cutMem {req : ℕ} (h : TilesIf G t m a (xs ++ f :: ys) nx) (hf : f.IsFree)
    (hbound : a + total (xs ++ f :: ys) < 256 ^ t.word) (hn : n + memHeapMinSize t ≤ f.size)
    (hroom : 2 * t.word ≤ n) (hreq : t.word + req < n) :
    TilesIf G t (cutMem t m (a + total xs) (f.size - n) n) a
      (xs ++ ⟨f.size - n, none⟩ :: ⟨n, some req⟩ :: ys) nx := by
  obtain ⟨hxs, hblock, hys⟩ := tilesIf_append.mp h
  rw [total_append, total_cons] at hbound
  have hword := t.word_eq
  have hmin : memHeapMinSize t = 24 + t.word := rfl
  generalize hthis : a + total xs = this at *
  obtain ⟨r, hr⟩ : ∃ r, f.size = r + n := ⟨f.size - n, by omega⟩
  rw [hr] at hn hys hblock hbound ⊢
  rw [Nat.add_sub_cancel]
  have hout : ∀ x, x < this ∨ this + r + n ≤ x → cutMem t m this r n x = m x :=
    fun x hx ↦ cutMem_of_disjoint (by omega) (by omega) hx
  rw [tilesIf_append, hthis]
  rw [firstFree, if_pos hf] at hxs
  refine ⟨?_, ?_, ?_, ?_⟩
  · rw [firstFree, if_pos (Block.isFree_none r)]
    exact hxs.congr fun x _ hlt ↦ hout x (Or.inl (by omega))
  · refine ⟨?_, fun _ ↦ ?_, fun _ ↦ ?_, ?_, fun _ _ ↦ ?_, by simp⟩
    · simp (disch := omega) only [cutMem, blockSize, setSize, load_setByte_of_disjoint,
        load_store_of_disjoint, load_store_self]
    · simp (disch := omega) only [cutMem, setSize, setByte_of_ne, store_of_disjoint, setByte_self]
      rfl
    · rw [firstFree, if_neg (Block.not_isFree_some n req), Nat.add_assoc, ← hblock.link hf]
      simp (disch := omega) only [cutMem, blockNext, setSize, load_setByte_of_disjoint,
        load_store_of_disjoint]
    · simp only
      omega
    · simp only
      omega
  · refine ⟨?_, fun _ ↦ ?_, by simp, hroom, by simp, by simpa using hreq⟩
    · simp (disch := omega) only [cutMem, blockSize, setSize, load_setByte_of_disjoint,
        load_store_self]
    · exact setByte_self _ _ _
  · rw [Nat.add_assoc]
    exact hys.congr fun x hx _ ↦ hout x (Or.inr (by omega))

theorem tiles_mark_used {req nx' : ℕ}
    (hxs : TilesIf G t m a xs (firstFree (a + total xs + f.size) ys nx))
    (hblock : BlockIf G t m (a + total xs) f nx')
    (hys : TilesIf G t m (a + total xs + f.size) ys nx) (hreq : t.word + req < f.size) :
    TilesIf G t (setByte m (a + total xs + f.size - 1) memBlockStatUse) a
      (xs ++ ⟨f.size, some req⟩ :: ys) nx := by
  have hroom := hblock.room
  have hword := t.word_pos
  rw [tilesIf_append, firstFree, if_neg (Block.not_isFree_some f.size req)]
  refine ⟨hxs.congr fun x _ hlt ↦ setByte_of_ne (by omega), ?_,
    hys.congr fun x hx _ ↦ setByte_of_ne (by omega)⟩
  refine ⟨?_, fun _ ↦ setByte_self _ _ _, by simp, hroom, by simp, by simpa using hreq⟩
  exact (load_setByte_of_disjoint (by omega)).trans hblock.header

theorem takeChunk_of_small {req : ℕ} (h : TilesIf G t m a (xs ++ f :: ys) nx) (hf : f.IsFree)
    (ha : 0 < a) (hbound : a + total (xs ++ f :: ys) < 256 ^ t.word) (hnx : nx < 256 ^ t.word)
    (hfree : heap.freeList = firstFree a (xs ++ f :: ys) nx) (hn : n ≤ f.size)
    (hsmall : f.size < n + memHeapMinSize t) (hreq : t.word + req < f.size) :
    ∃ m', takeChunk t heap m n (lastFree a xs 0) (a + total xs) =
        ({ heap with freeList := firstFree a (xs ++ ⟨f.size, some req⟩ :: ys) nx }, m',
          a + total xs) ∧
      TilesIf G t m' a (xs ++ ⟨f.size, some req⟩ :: ys) nx ∧
      ∀ x, ¬ InFree a (xs ++ f :: ys) x → m' x = m x := by
  obtain ⟨hxs, hblock, hys⟩ := tilesIf_append.mp h
  rw [total_append, total_cons] at hbound
  have hroom := hblock.room
  have hword := t.word_pos
  have hrest : ¬ memHeapMinSize t ≤ wsub t.word (blockSize t m (a + total xs)) n := by
    rw [hblock.header, wsub_of_le hn (by omega)]
    omega
  have hused : firstFree a (xs ++ ⟨f.size, some req⟩ :: ys) nx =
      firstFree a xs (firstFree (a + total xs + f.size) ys nx) := by
    rw [firstFree_append, firstFree, if_neg (Block.not_isFree_some f.size req)]
  rw [takeChunk, if_neg hrest, hblock.link hf, hused]
  rcases last_free_split xs with hxs' | ⟨us, p, vs, rfl, hp, hvs⟩
  · refine ⟨setByte m (a + total xs + f.size - 1) memBlockStatUse, ?_,
      tiles_mark_used (hxs.next_of_used hxs' _) hblock hys hreq, fun x hx ↦ ?_⟩
    · rw [if_pos (lastFree_of_used hxs'), memDogAddr_eq hblock.header (by omega) (by omega),
        firstFree_of_used hxs']
    · have hout := not_inFree hx rfl hf
      exact setByte_of_ne (by omega)
  · set v := firstFree (a + total (us ++ p :: vs) + f.size) ys nx
    have hv : v < 256 ^ t.word := firstFree_lt (by omega) hnx
    have hroomp : 2 * t.word ≤ p.size := (tilesIf_append.mp hxs).2.1.room
    rw [lastFree_of_split hp hvs, if_neg (by omega)]
    have hxs' := hxs.relink hp hvs hv
    have hout : ∀ x, a + total (us ++ p :: vs) ≤ x → setNext t m (a + total us) v x = m x := by
      intro x hx
      rw [total_append, total_cons] at hx
      exact store_of_disjoint (by omega)
    have hblock' := hblock.congr fun x hx _ ↦ hout x hx
    have hys' := hys.congr fun x hx _ ↦ hout x (by omega)
    have hfree' : heap.freeList = firstFree a (us ++ p :: vs) v := by
      rw [hfree, firstFree_append]
      exact firstFree_next hp v
    refine ⟨_, ?_, tiles_mark_used hxs' hblock' hys' hreq, fun x hx ↦ ?_⟩
    · dsimp only
      rw [memDogAddr_eq hblock'.header (by omega) (by omega), ← hfree']
    · have houtf := not_inFree hx rfl hf
      have houtp := not_inFree hx (List.append_assoc us (p :: vs) (f :: ys)) hp
      rw [setByte_of_ne (by omega)]
      exact store_of_disjoint (by omega)

/-! ## The invariant -/

def freeTotal (bs : List Block) : ℕ := total (bs.filter fun b ↦ b.IsFree)

@[simp] theorem freeTotal_nil : freeTotal [] = 0 := rfl

@[simp] theorem freeTotal_append (bs cs : List Block) :
    freeTotal (bs ++ cs) = freeTotal bs + freeTotal cs := by
  simp [freeTotal]

theorem freeTotal_cons_free {bs : List Block} (hb : b.IsFree) :
    freeTotal (b :: bs) = b.size + freeTotal bs := by
  simp [freeTotal, hb]

theorem freeTotal_cons_used {bs : List Block} (hb : ¬ b.IsFree) :
    freeTotal (b :: bs) = freeTotal bs := by
  simp [freeTotal, hb]

theorem freeTotal_le (bs : List Block) : freeTotal bs ≤ total bs := by
  induction bs with
  | nil => rfl
  | cons b bs ih =>
      by_cases hb : b.IsFree
      · rw [freeTotal_cons_free hb, total_cons]
        omega
      · rw [freeTotal_cons_used hb, total_cons]
        omega

def Apart (bs : List Block) : Prop := bs.IsChain fun b c ↦ ¬ (b.IsFree ∧ c.IsFree)

/-- The pointers that are handed out, with the bytes asked for. -/
def allocs (t : Target) (a : ℕ) : List Block → List (ℕ × ℕ)
  | [] => []
  | b :: bs => (b.req.map fun n ↦ (a + t.word, n)).toList ++ allocs t (a + b.size) bs

theorem allocs_append {bs cs : List Block} :
    allocs t a (bs ++ cs) = allocs t a bs ++ allocs t (a + total bs) cs := by
  induction bs generalizing a with
  | nil => rfl
  | cons b bs ih =>
      rw [List.cons_append, allocs, allocs, ih, total_cons, List.append_assoc, Nat.add_assoc]

/-- The heap consists of the blocks `bs` from `a` on. -/
structure HeapInv (t : Target) (heap : Heap) (m : Mem) (a : ℕ) (bs : List Block) : Prop where
  pos : 0 < a
  bound : a + total bs < 256 ^ t.word
  tiles : Tiles t m a bs 0
  freeList : heap.freeList = firstFree a bs 0
  free : heap.free = freeTotal bs
  apart : Apart bs

/-- The same, with the guards of free blocks under `G`. -/
structure HeapInvIf (G : Prop) (t : Target) (heap : Heap) (m : Mem) (a : ℕ) (bs : List Block) :
    Prop where
  pos : 0 < a
  bound : a + total bs < 256 ^ t.word
  tiles : TilesIf G t m a bs 0
  freeList : heap.freeList = firstFree a bs 0
  free : heap.free = freeTotal bs
  apart : Apart bs

theorem heapInvIf_true_iff {bs : List Block} :
    HeapInvIf True t heap m a bs ↔ HeapInv t heap m a bs :=
  ⟨fun h ↦ ⟨h.pos, h.bound, tilesIf_true_iff.mp h.tiles, h.freeList, h.free, h.apart⟩,
    fun h ↦ ⟨h.pos, h.bound, tilesIf_true_iff.mpr h.tiles, h.freeList, h.free, h.apart⟩⟩

theorem chunkSize_room {size : ℕ} (hsize : size < 256 ^ t.word) (h : chunkSize t size ≠ 0) :
    2 * t.word ≤ chunkSize t size ∧ t.word + size < chunkSize t size := by
  obtain ⟨req, hreq, hle, hfour, hlt⟩ : ∃ req, (if size < 4 then 4 else size) = req ∧ size ≤ req ∧
      4 ≤ req ∧ req < 256 ^ t.word := by
    refine ⟨_, rfl, ?_⟩
    have hword : 256 ^ 4 ≤ 256 ^ t.word := by
      rcases t.word_eq with hw | hw <;> simp [hw]
    split_ifs <;> omega
  simp only [chunkSize, memBlockHeadSize, alignUp, alignDown, wadd, hreq] at h ⊢
  rcases t.word_eq with hw | hw <;> rcases t.align_eq with ha | ha <;>
    simp only [hw, ha] at h hlt ⊢ <;> split_ifs at h ⊢ <;> omega

theorem Apart.take (h : Apart (xs ++ f :: ys)) (hf : f.IsFree) (s req : ℕ) {zs : List Block}
    (hzs : zs = [] ∨ ∃ r, zs = [⟨r, none⟩]) : Apart (xs ++ zs ++ ⟨s, some req⟩ :: ys) := by
  obtain ⟨hxs, hfys, hlast⟩ := List.isChain_append.mp h
  obtain ⟨-, hys⟩ := List.isChain_cons.mp hfys
  have hused : Apart (⟨s, some req⟩ :: ys) := List.isChain_cons.mpr ⟨by simp, hys⟩
  rcases hzs with rfl | ⟨r, rfl⟩
  · rw [List.append_nil]
    exact List.isChain_append.mpr ⟨hxs, hused, by simp⟩
  · rw [List.append_assoc]
    refine List.isChain_append.mpr ⟨hxs, List.isChain_cons.mpr ⟨by simp, hused⟩, ?_⟩
    intro x hx y hy
    obtain rfl : ⟨r, none⟩ = y := by simpa using hy
    exact fun hboth ↦ hlast x hx f (by simp) ⟨hboth.1, hf⟩

/-- What an allocation of a block of `n` bytes for `req` does: the end of a free
block becomes a used one, and the memory of the others is left. -/
def Carved (G : Prop) (t : Target) (heap : Heap) (m : Mem) (a n req : ℕ) (bs : List Block)
    (heap' : Heap) (m' : Mem) (block : ℕ) : Prop :=
  ∃ xs ys zs f s, bs = xs ++ f :: ys ∧ f.IsFree ∧ (zs = [] ∨ ∃ r, zs = [⟨r, none⟩]) ∧
    total zs + s = f.size ∧ n ≤ s ∧ block = a + total (xs ++ zs) ∧
    heap' = { heap with freeList := firstFree a (xs ++ zs ++ ⟨s, some req⟩ :: ys) 0 } ∧
    TilesIf G t m' a (xs ++ zs ++ ⟨s, some req⟩ :: ys) 0 ∧ ∀ x, ¬ InFree a bs x → m' x = m x

theorem takeChunk_carved {bs : List Block} {pre this req : ℕ} (h : HeapInvIf G t heap m a bs)
    (hchosen : Chosen a n bs pre this) (hroom : 2 * t.word ≤ n) (hreq : t.word + req < n) :
    ∃ heap' m' block, takeChunk t heap m n pre this = (heap', m', block) ∧
      Carved G t heap m a n req bs heap' m' block := by
  obtain ⟨xs, f, ys, rfl, hf, hn, rfl, rfl⟩ := hchosen
  by_cases hlarge : n + memHeapMinSize t ≤ f.size
  · have hsize : blockSize t m (a + total xs) = f.size := (tilesIf_append.mp h.tiles).2.1.header
    have hbound := h.bound
    rw [total_append, total_cons] at hbound
    refine ⟨_, _, _, takeChunk_of_large hsize (by omega) hlarge (by omega), ?_⟩
    refine ⟨xs, ys, [⟨f.size - n, none⟩], f, n, rfl, hf, Or.inr ⟨_, rfl⟩, ?_, le_rfl, ?_, ?_, ?_,
      fun x hx ↦ ?_⟩
    · simp only [total_cons, total_nil]
      omega
    · simp [Nat.add_assoc]
    · have hfirst : heap.freeList =
          firstFree a (xs ++ [⟨f.size - n, none⟩] ++ ⟨n, some req⟩ :: ys) 0 := by
        rw [h.freeList, List.append_assoc, firstFree_append, firstFree_append,
          List.singleton_append, firstFree, firstFree, if_pos hf, if_pos (Block.isFree_none _)]
      rw [← hfirst]
    · rw [List.append_assoc]
      exact tiles_cutMem h.tiles hf h.bound hlarge hroom hreq
    · have hmin : memHeapMinSize t = 24 + t.word := rfl
      have hword := t.word_pos
      have hout := not_inFree hx rfl hf
      exact cutMem_of_disjoint (by omega) (by omega) (by omega)
  · have hreq' : t.word + req < f.size := by omega
    obtain ⟨m', htake, htiles, hframe⟩ := takeChunk_of_small h.tiles hf h.pos h.bound
      (lt_of_le_of_lt (Nat.zero_le _) h.bound) h.freeList hn (by omega) hreq'
    refine ⟨_, m', _, htake, xs, ys, [], f, f.size, rfl, hf,
      Or.inl rfl, by simp, hn, by simp, ?_, ?_, hframe⟩
    · rw [List.append_nil]
    · rwa [List.append_nil]

theorem memChunkGet_carved {bs : List Block} {req : ℕ} (h : HeapInvIf G t heap m a bs)
    (hroom : 2 * t.word ≤ n) (hreq : t.word + req < n) :
    ∃ heap' m' block, memChunkGet t heap m n = some (heap', m', block) ∧
      ((block = 0 ∧ heap' = heap ∧ m' = m ∧ ∀ b ∈ bs, b.IsFree → b.size < n) ∨
        Carved G t heap m a n req bs heap' m' block) := by
  obtain ⟨r, hloop, hr, hnone⟩ := findLoop_chosen (n := n) h.tiles h.pos h.bound
    (List.nil_append bs).symm (h.tiles.length_lt_walkFuel h.bound)
  rw [total_nil, Nat.add_zero, lastFree, ← h.freeList] at hloop
  rw [memChunkGet, hloop, Option.map_some]
  cases r with
  | none => exact ⟨heap, m, 0, rfl, Or.inl ⟨rfl, rfl, rfl, hnone rfl⟩⟩
  | some x =>
      obtain ⟨heap', m', block, htake, hcarved⟩ := takeChunk_carved h (hr x rfl) hroom hreq
      exact ⟨heap', m', block, by rw [← htake], Or.inr hcarved⟩

/-- A block of `s` bytes at `block` was handed out for `req` bytes. -/
structure HandedOut (G : Prop) (t : Target) (heap : Heap) (m : Mem) (a n req : ℕ) (bs : List Block)
    (heap' : Heap) (m' : Mem) (block s : ℕ) (bs' : List Block) : Prop where
  inv : HeapInvIf G t { heap' with free := heap.free - s } m' a bs'
  total_eq : total bs' = total bs
  header : blockSize t m' block = s
  room_req : t.word + req < s
  large : n ≤ s
  free_ge : s ≤ heap.free
  free_eq : heap'.free = heap.free
  pos : 0 < block
  inside : block + s ≤ a + total bs
  base_eq : heap'.base = heap.base
  size_eq : heap'.size = heap.size
  allocs_eq : ∃ ls rs, allocs t a bs = ls ++ rs ∧
    allocs t a bs' = ls ++ (block + t.word, req) :: rs
  frame : ∀ x, ¬ InFree a bs x → m' x = m x

theorem Carved.handedOut {bs : List Block} {heap' : Heap} {m' : Mem} {req block : ℕ}
    (h : HeapInvIf G t heap m a bs) (hcarved : Carved G t heap m a n req bs heap' m' block) :
    ∃ bs' s, HandedOut G t heap m a n req bs heap' m' block s bs' := by
  obtain ⟨xs, ys, zs, f, s, rfl, hf, hzs, hfs, hn, rfl, rfl, htiles, hframe⟩ := hcarved
  obtain ⟨hzfree, hzallocs⟩ : freeTotal zs = total zs ∧ ∀ x, allocs t x zs = [] := by
    rcases hzs with rfl | ⟨r, rfl⟩
    · exact ⟨rfl, fun _ ↦ rfl⟩
    · exact ⟨freeTotal_cons_free (Block.isFree_none r), fun _ ↦ rfl⟩
  have hfree : heap.free = freeTotal xs + (f.size + freeTotal ys) := by
    rw [h.free, freeTotal_append, freeTotal_cons_free hf]
  have hsum : total (xs ++ zs ++ ⟨s, some req⟩ :: ys) = total (xs ++ f :: ys) := by
    simp only [total_append, total_cons]
    omega
  have hblock := (tilesIf_append.mp htiles).2.1
  have hpos := h.pos
  refine ⟨xs ++ zs ++ ⟨s, some req⟩ :: ys, s,
    ⟨hpos, ?_, htiles, rfl, ?_, h.apart.take hf s req hzs⟩,
    hsum, hblock.header, hblock.room_req req rfl, hn, by omega, rfl, by omega, ?_, rfl, rfl,
    ⟨allocs t a xs, allocs t (a + total xs + f.size) ys, ?_, ?_⟩, hframe⟩
  · rw [hsum]
    exact h.bound
  · rw [freeTotal_append, freeTotal_append, freeTotal_cons_used (Block.not_isFree_some s req)]
    dsimp only
    omega
  · simp only [total_append, total_cons]
    omega
  · rw [allocs_append, allocs, show f.req = none from hf]
    rfl
  · rw [allocs_append, allocs_append, hzallocs, List.append_nil, allocs, total_append, ← hfs]
    simp [Nat.add_assoc]

theorem Carved.free_block {bs : List Block} {heap' : Heap} {m' : Mem} {req block : ℕ}
    (h : Carved G t heap m a n req bs heap' m' block) : ∃ b ∈ bs, b.IsFree ∧ n ≤ b.size := by
  obtain ⟨xs, ys, zs, f, s, rfl, hf, -, hfs, hn, -⟩ := h
  exact ⟨f, by simp, hf, by omega⟩

/-- The heap has a block for a request of that size. -/
def HasRoom (t : Target) (bs : List Block) (size : ℕ) : Prop :=
  size ≠ 0 ∧ chunkSize t size ≠ 0 ∧ ∃ b ∈ bs, b.IsFree ∧ chunkSize t size ≤ b.size

/-- The block of `s` bytes in front of `ptr` was taken from the heap for a request of
`size` bytes. -/
structure Allocated (G : Prop) (t : Target) (heap : Heap) (g : Globals) (a size : ℕ)
    (bs : List Block) (ptr s : ℕ) (heap' : Heap) (g' : Globals) (bs' : List Block) : Prop where
  inv : HeapInvIf G t heap' g'.mem a bs'
  total_eq : total bs' = total bs
  base_eq : heap'.base = heap.base
  size_eq : heap'.size = heap.size
  free_eq : heap'.free + s = heap.free
  freeSize_eq : g'.freeSize = wsub t.word g.freeSize s
  header : blockSize t g'.mem (ptr - t.word) = s
  large : chunkSize t size ≤ s
  word_lt : t.word < ptr
  inside : ptr - t.word + s ≤ a + total bs
  allocs_eq : ∃ ls rs, allocs t a bs = ls ++ rs ∧ allocs t a bs' = ls ++ (ptr, size) :: rs
  frame : ∀ x, ¬ InFree a bs x → g'.mem x = g.mem x

theorem memAllocate_cases {bs : List Block} {g : Globals} {size : ℕ}
    (h : HeapInvIf G t heap g.mem a bs) (hsize : size < 256 ^ t.word) :
    (¬ HasRoom t bs size ∧ memAllocate t heap g size = some (0, heap, g)) ∨
      HasRoom t bs size ∧ ∃ ptr s heap' g' bs', memAllocate t heap g size = some (ptr, heap', g') ∧
        ptr ≠ 0 ∧ Allocated G t heap g a size bs ptr s heap' g' bs' := by
  rw [memAllocate]
  by_cases hrefuse : size = 0 ∨ chunkSize t size = 0
  · rw [if_pos hrefuse]
    exact .inl ⟨fun hroom ↦ hrefuse.elim hroom.1 hroom.2.1, rfl⟩
  · rw [if_neg hrefuse]
    rw [not_or] at hrefuse
    obtain ⟨hroom, hreq⟩ := chunkSize_room hsize hrefuse.2
    obtain ⟨heap', m', block, hget, ⟨rfl, rfl, rfl, hnone⟩ | hcarved⟩ :=
      memChunkGet_carved h hroom hreq
    · rw [hget, Option.map_some]
      refine .inl ⟨fun ⟨_, _, b, hb, hfree, hle⟩ ↦ ?_, rfl⟩
      exact absurd hle (Nat.not_le_of_lt (hnone b hb hfree))
    · have hfit : HasRoom t bs size := ⟨hrefuse.1, hrefuse.2, hcarved.free_block⟩
      obtain ⟨bs', s, hout⟩ := hcarved.handedOut h
      have hbound := h.bound
      have hpos := hout.pos
      have hin := hout.inside
      have hreq := hout.room_req
      have hfreeLt : heap.free ≤ total bs := h.free ▸ freeTotal_le bs
      have hptr : wadd t.word block (memBlockHeadSize t) = block + t.word :=
        wadd_of_lt (by rw [memBlockHeadSize]; omega)
      have hfree' : wsub t.word heap'.free s = heap.free - s := by
        rw [hout.free_eq]
        exact wsub_of_le hout.free_ge (by omega)
      rw [hget, Option.map_some]
      dsimp only
      rw [if_neg (by omega), hout.header, hptr, hfree']
      have hinv := hout.inv
      refine .inr ⟨hfit, _, s, _, _, bs',
        rfl, by omega, ⟨hinv.pos, hinv.bound, hinv.tiles, hinv.freeList,
        hinv.free, hinv.apart⟩, hout.total_eq, hout.base_eq, hout.size_eq, ?_, rfl, ?_, hout.large,
        by omega, ?_, hout.allocs_eq, hout.frame⟩
      · have hge := hout.free_ge
        dsimp only
        omega
      · rw [Nat.add_sub_cancel]
        exact hout.header
      · rw [Nat.add_sub_cancel]
        exact hin

theorem memAllocate_inv {bs : List Block} {g : Globals} {size : ℕ}
    (h : HeapInvIf G t heap g.mem a bs) (hsize : size < 256 ^ t.word) :
    ∃ ptr heap' g' bs', memAllocate t heap g size = some (ptr, heap', g') ∧
      HeapInvIf G t heap' g'.mem a bs' ∧ total bs' = total bs ∧ heap'.base = heap.base ∧
      heap'.size = heap.size ∧
      ((ptr = 0 ∧ bs' = bs) ∨
        (ptr ≠ 0 ∧ ∃ ls rs, allocs t a bs = ls ++ rs ∧
          allocs t a bs' = ls ++ (ptr, size) :: rs)) := by
  rcases memAllocate_cases h hsize with ⟨-, heq⟩ | ⟨-, ptr, s, heap', g', bs', heq, hne, hout⟩
  · exact ⟨0, heap, g, bs, heq, h, rfl, rfl, rfl, .inl ⟨rfl, rfl⟩⟩
  · exact ⟨ptr, heap', g', bs', heq, hout.inv, hout.total_eq, hout.base_eq, hout.size_eq,
      .inr ⟨hne, hout.allocs_eq⟩⟩

end TuyaOpen.MemHeap
