import TuyaOpen.Utilities.MemHeapRelease

/-!
# What a reader of the memory sees

A sound heap is described by walks over the memory alone: the sizes lead from
block to block through the whole region, the links lead through the blocks
with a free guard, and the pointers that are handed out lie between a header
and a guard.  Every tiled region is sound.
-/

namespace TuyaOpen.MemHeap

open ByteMem

/-- The blocks, as address and size, that the sizes lead to from an address;
`none` when they do not end at `top`. -/
def blockWalk (t : Target) (m : Mem) (top : ℕ) : ℕ → ℕ → Option (List (ℕ × ℕ))
  | 0, _ => none
  | fuel + 1, addr =>
    if addr < top then
      (blockWalk t m top fuel (addr + blockSize t m addr)).map fun bs ↦
      (addr, blockSize t m addr) :: bs
    else if addr = top then some []
    else none

def freeWalk (t : Target) (m : Mem) : ℕ → ℕ → Option (List ℕ)
  | 0, _ => none
  | fuel + 1, block =>
    if block = 0 then some []
    else (freeWalk t m fuel (blockNext t m block)).map fun bs ↦ block :: bs

def guardOf (m : Mem) (b : ℕ × ℕ) : UInt8 := m (b.1 + b.2 - 1)

def freeBlocks (m : Mem) (blocks : List (ℕ × ℕ)) : List (ℕ × ℕ) :=
  blocks.filter fun b ↦ guardOf m b = memBlockStatFree

def regionStart (t : Target) (heap : Heap) : ℕ := alignUp t heap.base

def regionEnd (t : Target) (heap : Heap) : ℕ := alignDown t (wadd t.word heap.base heap.size)

/-- The heap is made of `blocks`, and `live` lists the pointers that are handed
out with the bytes asked for. -/
structure Sound (t : Target) (heap : Heap) (m : Mem) (live blocks : List (ℕ × ℕ)) : Prop where
  tiling : blockWalk t m (regionEnd t heap) (walkFuel t) (regionStart t heap) = some blocks
  guards : ∀ b ∈ blocks, guardOf m b = memBlockStatUse ∨ guardOf m b = memBlockStatFree
  free_list : freeWalk t m (walkFuel t) heap.freeList = some ((freeBlocks m blocks).map Prod.fst)
  increasing : ((freeBlocks m blocks).map Prod.fst).Pairwise (· < ·)
  apart : ∀ b ∈ freeBlocks m blocks, ∀ c ∈ freeBlocks m blocks, b.1 + b.2 ≠ c.1
  free_count : heap.free = ((freeBlocks m blocks).map Prod.snd).sum
  live_disjoint : live.Pairwise fun x y ↦ x.1 + x.2 ≤ y.1 ∨ y.1 + y.2 ≤ x.1
  live_inside : ∀ x ∈ live, ∃ b ∈ blocks, guardOf m b = memBlockStatUse ∧ b.1 + t.word ≤ x.1 ∧
    x.1 + x.2 < b.1 + b.2
  live_apart : ∀ x ∈ live, ∀ b ∈ blocks, (x.1 + x.2 ≤ b.1 ∨ b.1 + t.word ≤ x.1) ∧
    (x.1 + x.2 < b.1 + b.2 ∨ b.1 + b.2 ≤ x.1)
  valid : ∃ status, memHeapStatus t heap m = some status ∧ status.valid = 1

/-! ## Walks over a tiled region -/

variable {t : Target} {m : Mem} {a nx : ℕ} {bs : List Block}

def blockList (a : ℕ) : List Block → List (ℕ × ℕ)
  | [] => []
  | b :: bs => (a, b.size) :: blockList (a + b.size) bs

theorem blockList_append {cs : List Block} :
    blockList a (bs ++ cs) = blockList a bs ++ blockList (a + total bs) cs := by
  induction bs generalizing a with
  | nil => rfl
  | cons b bs ih =>
      rw [List.cons_append, blockList, blockList, ih, total_cons, List.cons_append, Nat.add_assoc]

theorem blockWalk_eq {top fuel : ℕ} (h : Tiles t m a bs nx) (htop : a + total bs = top)
    (hfuel : bs.length < fuel) : blockWalk t m top fuel a = some (blockList a bs) := by
  induction bs generalizing a fuel with
  | nil =>
      obtain ⟨fuel, rfl⟩ : ∃ f, fuel = f + 1 := ⟨fuel - 1, by simp at hfuel; omega⟩
      rw [total_nil, Nat.add_zero] at htop
      rw [blockWalk, if_neg (by omega), if_pos htop]
      rfl
  | cons b bs ih =>
      rw [List.length_cons] at hfuel
      obtain ⟨fuel, rfl⟩ : ∃ f, fuel = f + 1 := ⟨fuel - 1, by omega⟩
      rw [total_cons] at htop
      have hroom := h.1.room
      have hword := t.word_pos
      rw [blockWalk, if_pos (by omega), h.1.header, ih h.2 (by omega) (by omega)]
      rfl

theorem freeBlocks_cons_free {b : Block} (h : Tiles t m a (b :: bs) nx) (hb : b.IsFree) :
    freeBlocks m (blockList a (b :: bs)) =
      (a, b.size) :: freeBlocks m (blockList (a + b.size) bs) := by
  have hguard : guardOf m (a, b.size) = memBlockStatFree :=
    h.1.guard.trans (Block.guard_of_free hb)
  simp [freeBlocks, blockList, hguard]

theorem freeBlocks_cons_used {b : Block} (h : Tiles t m a (b :: bs) nx) (hb : ¬ b.IsFree) :
    freeBlocks m (blockList a (b :: bs)) = freeBlocks m (blockList (a + b.size) bs) := by
  have hguard : guardOf m (a, b.size) = memBlockStatUse :=
    h.1.guard.trans (Block.guard_of_used hb)
  have hne : guardOf m (a, b.size) ≠ memBlockStatFree := by
    rw [hguard]
    decide
  simp [freeBlocks, blockList, hne]

theorem freeWalk_eq {fuel : ℕ} (h : Tiles t m a bs 0) (ha : 0 < a) (hfuel : bs.length < fuel) :
    freeWalk t m fuel (firstFree a bs 0) =
      some ((freeBlocks m (blockList a bs)).map Prod.fst) := by
  induction bs generalizing a fuel with
  | nil =>
      obtain ⟨fuel, rfl⟩ : ∃ f, fuel = f + 1 := ⟨fuel - 1, by simp at hfuel; omega⟩
      rfl
  | cons b bs ih =>
      rw [List.length_cons] at hfuel
      obtain ⟨fuel, rfl⟩ : ∃ f, fuel = f + 1 := ⟨fuel - 1, by omega⟩
      rw [firstFree]
      split_ifs with hb
      · rw [freeWalk, if_neg (by omega), h.1.link hb, ih h.2 (by omega) (by omega),
          freeBlocks_cons_free h hb]
        rfl
      · rw [freeBlocks_cons_used h hb]
        exact ih h.2 (by omega) (by omega)

theorem sum_freeBlocks (h : Tiles t m a bs nx) :
    ((freeBlocks m (blockList a bs)).map Prod.snd).sum = freeTotal bs := by
  induction bs generalizing a with
  | nil => rfl
  | cons b bs ih =>
      by_cases hb : b.IsFree
      · rw [freeBlocks_cons_free h hb, freeTotal_cons_free hb, List.map_cons, List.sum_cons, ih h.2]
      · rw [freeBlocks_cons_used h hb, freeTotal_cons_used hb, ih h.2]

theorem blockList_bounds {x : ℕ × ℕ} (hx : x ∈ blockList a bs) :
    a ≤ x.1 ∧ x.1 + x.2 ≤ a + total bs := by
  induction bs generalizing a with
  | nil => cases hx
  | cons b bs ih =>
      rw [total_cons]
      rcases List.mem_cons.mp hx with rfl | hx
      · exact ⟨le_rfl, by dsimp only; omega⟩
      · have hbounds := ih hx
        omega

theorem pairwise_blockList (a : ℕ) (bs : List Block) :
    (blockList a bs).Pairwise fun x y ↦ x.1 + x.2 ≤ y.1 := by
  induction bs generalizing a with
  | nil => exact List.Pairwise.nil
  | cons b bs ih =>
      exact List.pairwise_cons.mpr ⟨fun y hy ↦ (blockList_bounds hy).1, ih (a + b.size)⟩

theorem blockList_disjoint {x y : ℕ × ℕ} (hx : x ∈ blockList a bs) (hy : y ∈ blockList a bs) :
    x = y ∨ x.1 + x.2 ≤ y.1 ∨ y.1 + y.2 ≤ x.1 := by
  have hsymm : Std.Symm fun x y : ℕ × ℕ ↦ x.1 + x.2 ≤ y.1 ∨ y.1 + y.2 ≤ x.1 :=
    ⟨fun _ _ h ↦ h.symm⟩
  have hpairs : (blockList a bs).Pairwise fun x y ↦ x.1 + x.2 ≤ y.1 ∨ y.1 + y.2 ≤ x.1 :=
    (pairwise_blockList a bs).imp fun hxy ↦ Or.inl hxy
  exact or_iff_not_imp_left.mpr fun hne ↦ hpairs.forall hx hy hne

theorem mem_blockList {x : ℕ × ℕ} (h : Tiles t m a bs nx) (hx : x ∈ blockList a bs) :
    ∃ b ∈ bs, b.size = x.2 ∧ guardOf m x = b.guard := by
  induction bs generalizing a with
  | nil => cases hx
  | cons b bs ih =>
      rcases List.mem_cons.mp hx with rfl | hx
      · exact ⟨b, by simp, rfl, h.1.guard⟩
      · obtain ⟨c, hc, hsize, hguard⟩ := ih h.2 hx
        exact ⟨c, by simp [hc], hsize, hguard⟩

theorem mem_freeBlocks {x : ℕ × ℕ} {blocks : List (ℕ × ℕ)} :
    x ∈ freeBlocks m blocks ↔ x ∈ blocks ∧ guardOf m x = memBlockStatFree := by
  simp [freeBlocks]

theorem isFree_of_guard {b : Block} (h : b.guard = memBlockStatFree) : b.IsFree := by
  by_contra hb
  rw [Block.guard_of_used hb] at h
  exact absurd h (by decide)

theorem freeBlocks_apart (h : Tiles t m a bs nx) (hapart : Apart bs) :
    ∀ x ∈ freeBlocks m (blockList a bs), ∀ y ∈ freeBlocks m (blockList a bs), x.1 + x.2 ≠ y.1 := by
  induction bs generalizing a with
  | nil => intro x hx; cases hx
  | cons b bs ih =>
      obtain ⟨hnext, hapart'⟩ := List.isChain_cons.mp hapart
      have hroom := h.1.room
      have hword := t.word_pos
      intro x hx y hy
      by_cases hb : b.IsFree
      · rw [freeBlocks_cons_free h hb] at hx hy
        rcases List.mem_cons.mp hx with rfl | hx <;> rcases List.mem_cons.mp hy with rfl | hy
        · dsimp only
          omega
        · -- a free block right behind `b` would be its neighbour in the list
          intro heq
          obtain ⟨hy, hguard⟩ := mem_freeBlocks.mp hy
          cases bs with
          | nil => cases hy
          | cons c bs =>
              have hroomc := h.2.1.room
              rcases List.mem_cons.mp hy with rfl | hy
              · exact hnext c rfl ⟨hb, isFree_of_guard (h.2.1.guard.symm.trans hguard)⟩
              · have hge := (blockList_bounds hy).1
                dsimp only at heq
                omega
        · have hge := (blockList_bounds (mem_freeBlocks.mp hx).1).1
          dsimp only
          omega
        · exact ih h.2 hapart' x hx y hy
      · rw [freeBlocks_cons_used h hb] at hx hy
        exact ih h.2 hapart' x hx y hy

theorem statusLoop_valid {top fuel : ℕ} {status : HeapStatus} (h : Tiles t m a bs 0) (ha : 0 < a)
    (htop : a + total bs = top) (hbound : top < 256 ^ t.word) (hfuel : bs.length < fuel) :
    ∃ status', statusLoop t m top fuel a (firstFree a bs 0) status = some status' ∧
      status'.valid = 1 := by
  induction bs generalizing a fuel status with
  | nil =>
      obtain ⟨fuel, rfl⟩ : ∃ f, fuel = f + 1 := ⟨fuel - 1, by simp at hfuel; omega⟩
      rw [total_nil, Nat.add_zero] at htop
      rw [statusLoop, if_neg (by omega), if_pos ⟨htop, rfl⟩]
      exact ⟨_, rfl, rfl⟩
  | cons b bs ih =>
      rw [List.length_cons] at hfuel
      obtain ⟨fuel, rfl⟩ : ∃ f, fuel = f + 1 := ⟨fuel - 1, by omega⟩
      obtain ⟨hblock, hbs⟩ := h
      rw [total_cons] at htop
      have hroom := hblock.room
      have hword := t.word_pos
      have hdog : memDogAddr t m a = a + b.size - 1 :=
        memDogAddr_eq hblock.header (by omega) (by omega)
      rw [statusLoop, if_pos (by omega)]
      dsimp only
      rw [hdog, hblock.guard, hblock.header, wadd_of_lt (by omega), firstFree]
      by_cases hb : b.IsFree
      · rw [if_pos hb, Block.guard_of_free hb, if_neg (by decide), if_pos rfl, if_neg (by simp),
          hblock.link hb]
        exact ih hbs (by omega) (by omega) (by omega)
      · have hge : firstFree (a + b.size) bs 0 = 0 ∨ a + b.size ≤ firstFree (a + b.size) bs 0 :=
          firstFree_ge
        rw [if_neg hb, Block.guard_of_used hb, if_pos rfl, if_neg (by omega)]
        exact ih hbs (by omega) (by omega) (by omega)

/-! ## The pointers that are handed out -/

variable {G : Prop}

theorem mem_allocs {x : ℕ × ℕ} :
    x ∈ allocs t a bs ↔
      ∃ xs s ys, bs = xs ++ ⟨s, some x.2⟩ :: ys ∧ x.1 = a + total xs + t.word := by
  induction bs generalizing a with
  | nil => simp [allocs]
  | cons b bs ih =>
      rw [allocs, List.mem_append, ih]
      constructor
      · rintro (hx | ⟨xs, s, ys, rfl, hptr⟩)
        · obtain ⟨n, hn, rfl⟩ : ∃ n, b.req = some n ∧ (a + t.word, n) = x := by simpa using hx
          exact ⟨[], b.size, bs, by rw [← hn]; rfl, by simp⟩
        · exact ⟨b :: xs, s, ys, rfl, by simp [hptr, Nat.add_assoc]⟩
      · rintro ⟨xs, s, ys, hbs, hptr⟩
        cases xs with
        | nil =>
            obtain ⟨rfl, rfl⟩ := List.cons.inj hbs
            exact Or.inl (by simp [Prod.ext_iff, hptr])
        | cons c xs =>
            obtain ⟨rfl, rfl⟩ := List.cons.inj hbs
            exact Or.inr ⟨xs, s, ys, rfl, by simp [hptr, Nat.add_assoc]⟩

theorem alloc_inside {x : ℕ × ℕ} (h : TilesIf G t m a bs nx) (hx : x ∈ allocs t a bs) :
    ∃ b ∈ blockList a bs, guardOf m b = memBlockStatUse ∧ b.1 + t.word = x.1 ∧
      x.1 + x.2 < b.1 + b.2 := by
  obtain ⟨xs, s, ys, rfl, hptr⟩ := mem_allocs.mp hx
  have hblock := (tilesIf_append.mp h).2.1
  have hreq : t.word + x.2 < s := hblock.room_req x.2 rfl
  refine ⟨(a + total xs, s), ?_, hblock.guard_used (Block.not_isFree_some s x.2), hptr.symm, ?_⟩
  · rw [blockList_append]
    exact List.mem_append_right _ (by simp [blockList])
  · dsimp only
    omega

theorem allocs_bounds {x : ℕ × ℕ} (h : TilesIf G t m a bs nx) (hx : x ∈ allocs t a bs) :
    a + t.word ≤ x.1 ∧ x.1 + x.2 < a + total bs := by
  obtain ⟨b, hb, -, hptr, hend⟩ := alloc_inside h hx
  have hbounds := blockList_bounds hb
  omega

theorem pairwise_allocs (h : TilesIf G t m a bs nx) :
    (allocs t a bs).Pairwise fun x y ↦ x.1 + x.2 ≤ y.1 := by
  induction bs generalizing a with
  | nil => exact List.Pairwise.nil
  | cons b bs ih =>
      refine List.pairwise_append.mpr ⟨?_, ih h.2, fun x hx y hy ↦ ?_⟩
      · cases b.req with
        | none => exact List.Pairwise.nil
        | some n => exact List.pairwise_singleton _ _
      · have hy := (allocs_bounds h.2 hy).1
        obtain ⟨n, hn, rfl⟩ : ∃ n, b.req = some n ∧ (a + t.word, n) = x := by simpa using hx
        have hreq := h.1.room_req n hn
        dsimp only
        omega

theorem alloc_apart {x c : ℕ × ℕ} (h : TilesIf G t m a bs nx) (hx : x ∈ allocs t a bs)
    (hc : c ∈ blockList a bs) :
    (x.1 + x.2 ≤ c.1 ∨ c.1 + t.word ≤ x.1) ∧ (x.1 + x.2 < c.1 + c.2 ∨ c.1 + c.2 ≤ x.1) := by
  obtain ⟨b, hb, -, hptr, hend⟩ := alloc_inside h hx
  rcases blockList_disjoint hb hc with rfl | hbc | hcb <;> omega

theorem HeapInv.sound {heap : Heap} {live : List (ℕ × ℕ)}
    (h : HeapInv t heap m (regionStart t heap) bs)
    (htop : regionStart t heap + total bs = regionEnd t heap)
    (hlive : live.Perm (allocs t (regionStart t heap) bs)) :
    Sound t heap m live (blockList (regionStart t heap) bs) := by
  have hbound := h.bound
  have htiles : TilesIf True t m (regionStart t heap) bs 0 := tilesIf_true_iff.mpr h.tiles
  have hfuel := htiles.length_lt_walkFuel hbound
  refine ⟨blockWalk_eq h.tiles htop hfuel, ?_, ?_, ?_, freeBlocks_apart h.tiles h.apart, ?_, ?_, ?_,
    ?_, ?_⟩
  · intro b hb
    obtain ⟨c, -, -, hguard⟩ := mem_blockList h.tiles hb
    rw [hguard]
    by_cases hc : c.IsFree
    · exact Or.inr (Block.guard_of_free hc)
    · exact Or.inl (Block.guard_of_used hc)
  · rw [h.freeList]
    exact freeWalk_eq h.tiles h.pos hfuel
  · refine List.pairwise_map.mpr (List.Pairwise.imp_of_mem (fun {x y} hx _ hxy ↦ ?_)
      ((pairwise_blockList _ _).sublist List.filter_sublist))
    obtain ⟨b, hb, hsize, -⟩ := mem_blockList h.tiles (mem_freeBlocks.mp hx).1
    have hroom := htiles.room hb
    have hword := t.word_pos
    omega
  · rw [h.free, sum_freeBlocks h.tiles]
  · refine (hlive.pairwise_iff ?_).mpr ((pairwise_allocs htiles).imp fun hxy ↦ Or.inl hxy)
    exact fun hxy ↦ hxy.symm
  · intro x hx
    obtain ⟨b, hb, hguard, hptr, hend⟩ := alloc_inside htiles (hlive.mem_iff.mp hx)
    exact ⟨b, hb, hguard, hptr.le, hend⟩
  · exact fun x hx b hb ↦ alloc_apart htiles (hlive.mem_iff.mp hx) hb
  · rw [memHeapStatus, h.freeList]
    have hend : regionEnd t heap < 256 ^ t.word := htop ▸ hbound
    exact statusLoop_valid h.tiles h.pos htop hend hfuel

end TuyaOpen.MemHeap
