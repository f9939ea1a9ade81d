import TuyaOpen.Lib.Mealy
import TuyaOpen.Utilities.MemHeapSound

/-!
# Runs of a heap

A client allocates, releases what it holds, and writes into the bytes it asked
for.  The link that a release writes behind the header is as wide as a
pointer; a block for a small request has no room for it before the guard when
pointers are eight bytes wide.  In every run in which such a block is released
only in front of a free one, the heap is sound in every state.
-/

namespace TuyaOpen.MemHeap

open ByteMem

variable {t : Target} {heap : Heap}

/-! ## Creation -/

def alignSlack (t : Target) (ptr : ℕ) : ℕ := (t.align - ptr % t.align) % t.align

theorem align_region {ptr size : ℕ} (hslack : alignSlack t ptr < size)
    (hfits : ptr + size < 256 ^ t.word) :
    alignUp t ptr = ptr + alignSlack t ptr ∧
      alignDown t (ptr + size) = ptr + alignSlack t ptr + alignDown t (size - alignSlack t ptr) ∧
      alignDown t (size - alignSlack t ptr) ≤ size - alignSlack t ptr := by
  simp only [alignSlack, alignUp, alignDown, wadd] at hslack ⊢
  rcases t.word_eq with hw | hw <;> rcases t.align_eq with ha | ha <;>
    simp only [hw, ha] at hslack hfits ⊢ <;> omega

theorem memHeapInit_inv {heap' : Heap} {g g' : Globals} {ptr size : ℕ}
    (h : memHeapInit t heap g ptr size = some (heap', g')) (hptr : 0 < ptr)
    (hslack : alignSlack t ptr < size) (hfits : ptr + size < 256 ^ t.word) :
    ∃ s, HeapInv t heap' g'.mem (regionStart t heap') [⟨s, none⟩] ∧
      regionStart t heap' + s = regionEnd t heap' := by
  obtain ⟨hup, hdown, hle⟩ := align_region hslack hfits
  set s := alignDown t (size - alignSlack t ptr)
  have hsize : alignDown t (wsub t.word size (wsub t.word (alignUp t ptr) ptr)) = s := by
    rw [hup, wsub_of_le (Nat.le_add_right _ _) (by omega), Nat.add_sub_cancel_left,
      wsub_of_le (by omega) (by omega)]
  have hword := t.word_eq
  have hmin : memHeapMinSize t = 24 + t.word := rfl
  rw [memHeapInit] at h
  dsimp only at h
  rw [hsize] at h
  split_ifs at h with hsmall
  obtain ⟨rfl, rfl⟩ := Prod.mk.inj (Option.some.inj h)
  have hstart : regionStart t { heap with
      freeList := alignUp t ptr
      base := ptr
      size := size
      free := s
      freeWatermark := s } = ptr + alignSlack t ptr := hup
  have hend : regionEnd t { heap with
      freeList := alignUp t ptr
      base := ptr
      size := size
      free := s
      freeWatermark := s } = ptr + alignSlack t ptr + s := by
    rw [regionEnd, wadd_of_lt hfits, hdown]
  have hdog : memDogAddr t (setSize t (setNext t g.mem (alignUp t ptr) 0) (alignUp t ptr) s)
      (alignUp t ptr) = ptr + alignSlack t ptr + s - 1 := by
    rw [hup]
    exact memDogAddr_eq (load_store_self (by omega)) (by omega) (by omega)
  refine ⟨s, ?_, by rw [hstart, hend]⟩
  rw [hstart, hdog, hup]
  refine ⟨by omega, by simp only [total_cons, total_nil]; omega, ⟨?_, trivial⟩, ?_, ?_,
    List.isChain_singleton _⟩
  · refine ⟨?_, setByte_self _ _ _, fun _ ↦ ?_, by dsimp only; omega, fun _ ↦ by dsimp only; omega,
      by simp⟩
    · simp (disch := omega) only [blockSize, setSize, load_setByte_of_disjoint, load_store_self]
    · simp (disch := omega) only [blockNext, setSize, setNext, load_setByte_of_disjoint,
        load_store_of_disjoint, load_store_self]
      rfl
  · rw [firstFree, if_pos (Block.isFree_none s)]
  · rfl

theorem memHeapCreate_inv {heaps : List Heap} {g g' : Globals} {ptr size i : ℕ}
    (h : memHeapCreate t heaps g ptr size = some (i, heap, g')) (hslack : alignSlack t ptr < size)
    (hfits : ptr + size < 256 ^ t.word) :
    ∃ s, HeapInv t heap g'.mem (regionStart t heap) [⟨s, none⟩] ∧
      regionStart t heap + s = regionEnd t heap := by
  rw [memHeapCreate] at h
  split_ifs at h with hparams
  rw [not_or] at hparams
  split at h
  · cases h
  · split at h
    · cases h
    · next slot _ =>
        obtain ⟨r, hinit, heq⟩ := Option.map_eq_some_iff.mp h
        obtain ⟨rfl, rfl⟩ := Prod.mk.inj heq
        exact memHeapInit_inv hinit (by omega) hslack hfits

/-! ## The client -/

/-- The heap and the pointers that its client holds, with the bytes it asked for. -/
structure HeapRun where
  heap : Heap
  globals : Globals
  live : List (ℕ × ℕ)

inductive HeapEvent
  | allocate (size : ℕ)
  | deallocate (ptr : ℕ)
  | write (ptr offset : ℕ) (byte : UInt8)

def heapStep (t : Target) (s : HeapRun) : HeapEvent → Option HeapRun
  | .allocate size => (memAllocate t s.heap s.globals size).map fun (ptr, heap, g) ↦
    { heap := heap
      globals := g
      live := if ptr = 0 then s.live else (ptr, size) :: s.live }
  | .deallocate ptr => (memDeallocate t s.heap s.globals ptr).map fun (heap, g) ↦
    { heap := heap
      globals := g
      live := s.live.filter fun x ↦ x.1 ≠ ptr }
  | .write ptr offset byte => some
    { s with globals := { s.globals with mem := setByte s.globals.mem (ptr + offset) byte } }

/-- `none` is the state of a call that does not return. -/
def heapMachine (t : Target) : Mealy (Option HeapRun) HeapEvent Unit where
  step o e := (o.bind fun s ↦ heapStep t s e, ())

/-- The link of the block at `block` does not reach its guard, or the block behind
it is free. -/
def KeepsGuard (t : Target) (heap : Heap) (m : Mem) (block : ℕ) : Prop :=
  2 * t.word < blockSize t m block ∨
    (block + blockSize t m block < regionEnd t heap ∧
      m (memDogAddr t m (block + blockSize t m block)) = memBlockStatFree)

/-- A request is a word; what is released or written to is held by the client, a
write stays in the bytes asked for, and the guard of what is released is kept. -/
def Allowed (t : Target) (s : HeapRun) : HeapEvent → Prop
  | .allocate size => size < 256 ^ t.word
  | .deallocate ptr =>
    (∃ x ∈ s.live, x.1 = ptr) ∧ KeepsGuard t s.heap s.globals.mem (ptr - t.word)
  | .write ptr offset _ => ∃ x ∈ s.live, x.1 = ptr ∧ offset < x.2

def AllowedRun (t : Target) (o : Option HeapRun) (e : HeapEvent) : Prop := ∀ s ∈ o, Allowed t s e

/-- The region is tiled by blocks, and the used ones are those the client holds. -/
def RunInv (t : Target) (s : HeapRun) : Prop :=
  ∃ bs, HeapInv t s.heap s.globals.mem (regionStart t s.heap) bs ∧
    regionStart t s.heap + total bs = regionEnd t s.heap ∧
    s.live.Perm (allocs t (regionStart t s.heap) bs)

theorem RunInv.sound {s : HeapRun} (h : RunInv t s) :
    ∃ blocks, Sound t s.heap s.globals.mem s.live blocks := by
  obtain ⟨bs, hinv, htop, hlive⟩ := h
  exact ⟨_, hinv.sound htop hlive⟩

theorem region_congr {heap' : Heap} (hbase : heap'.base = heap.base)
    (hsize : heap'.size = heap.size) :
    regionStart t heap' = regionStart t heap ∧ regionEnd t heap' = regionEnd t heap := by
  rw [regionStart, regionStart, regionEnd, regionEnd, hbase, hsize]
  exact ⟨rfl, rfl⟩

theorem RunInv.allocate {s : HeapRun} {size : ℕ} (h : RunInv t s) (hsize : size < 256 ^ t.word) :
    ∃ s', heapStep t s (.allocate size) = some s' ∧ RunInv t s' := by
  obtain ⟨bs, hinv, htop, hlive⟩ := h
  obtain ⟨ptr, heap', g', bs', heq, hinv', htotal, hbase, hregion, hcases⟩ :=
    memAllocate_inv (heapInvIf_true_iff.mpr hinv) hsize
  obtain ⟨hstart, hend⟩ := region_congr (t := t) hbase hregion
  refine ⟨_, by rw [heapStep, heq, Option.map_some], bs', ?_, ?_, ?_⟩
  · rw [hstart]
    exact heapInvIf_true_iff.mp hinv'
  · rw [hstart, hend, htotal]
    exact htop
  · dsimp only
    rw [hstart]
    rcases hcases with ⟨rfl, rfl⟩ | ⟨hne, ls, rs, hold, hnew⟩
    · rw [if_pos rfl]
      exact hlive
    · rw [if_neg hne, hnew]
      exact ((hold ▸ hlive).cons (ptr, size)).trans List.perm_middle.symm

theorem head_free_of_guard {m : Mem} {a s : ℕ} {xs ys : List Block} {b : Block} {top : ℕ}
    (h : Tiles t m a (xs ++ b :: ys) 0) (hs : b.size = s) (htop : a + total (xs ++ b :: ys) = top)
    (hbound : top < 256 ^ t.word) (hlt : a + total xs + s < top)
    (hguard : m (memDogAddr t m (a + total xs + s)) = memBlockStatFree) :
    ∃ g ∈ ys.head?, g.IsFree := by
  subst hs
  obtain ⟨-, -, hys⟩ := tiles_append.mp h
  rw [total_append, total_cons] at htop
  cases ys with
  | nil =>
      rw [total_nil] at htop
      omega
  | cons g ys =>
      have hroom := hys.1.room
      have hword := t.word_pos
      rw [total_cons] at htop
      rw [memDogAddr_eq hys.1.header (by omega) (by omega), hys.1.guard] at hguard
      exact ⟨g, rfl, isFree_of_guard hguard⟩

theorem filter_allocs {G : Prop} {m : Mem} {a s n : ℕ} {xs ys : List Block}
    (h : TilesIf G t m a (xs ++ ⟨s, some n⟩ :: ys) 0) :
    (allocs t a (xs ++ ⟨s, some n⟩ :: ys)).filter (fun x ↦ x.1 ≠ a + total xs + t.word) =
      allocs t a xs ++ allocs t (a + total xs + s) ys := by
  obtain ⟨hxs, hblock, hys⟩ := tilesIf_append.mp h
  have hroom : 2 * t.word ≤ s := hblock.room
  have hword := t.word_pos
  dsimp only at hys
  have hleft : ∀ x ∈ allocs t a xs, decide (x.1 ≠ a + total xs + t.word) = true := by
    intro x hx
    have hbounds := allocs_bounds hxs hx
    rw [decide_eq_true_eq]
    omega
  have hright : ∀ x ∈ allocs t (a + total xs + s) ys,
      decide (x.1 ≠ a + total xs + t.word) = true := by
    intro x hx
    have hbounds := allocs_bounds hys hx
    rw [decide_eq_true_eq]
    omega
  have hcons : allocs t (a + total xs) (⟨s, some n⟩ :: ys) =
      (a + total xs + t.word, n) :: allocs t (a + total xs + s) ys := rfl
  rw [allocs_append, hcons, List.filter_append, List.filter_cons_of_neg (by simp),
    List.filter_eq_self.mpr hleft, List.filter_eq_self.mpr hright]

theorem RunInv.deallocate {s : HeapRun} {ptr : ℕ} (h : RunInv t s)
    (hallowed : Allowed t s (.deallocate ptr)) :
    ∃ s', heapStep t s (.deallocate ptr) = some s' ∧ RunInv t s' := by
  obtain ⟨bs, hinv, htop, hlive⟩ := h
  obtain ⟨⟨⟨p, n⟩, hmem, rfl⟩, hkeeps⟩ := hallowed
  obtain ⟨xs, k, ys, rfl, hptr⟩ := mem_allocs.mp (hlive.mem_iff.mp hmem)
  dsimp only at hptr hkeeps ⊢
  subst hptr
  have hblock := (tiles_append.mp hinv.tiles).2.1
  have hkeeps' : 2 * t.word < k ∨ ∃ g ∈ ys.head?, g.IsFree := by
    rw [KeepsGuard, Nat.add_sub_cancel, hblock.header] at hkeeps
    refine hkeeps.imp_right fun ⟨hlt, hguard⟩ ↦ ?_
    exact head_free_of_guard hinv.tiles rfl htop (htop ▸ hinv.bound) hlt hguard
  obtain ⟨heap', g', bs', heq, hout⟩ :=
    memDeallocate_inv (heapInvIf_true_iff.mpr hinv) (hkeeps'.imp_left fun hlt _ ↦ hlt)
  obtain ⟨hstart, hend⟩ := region_congr (t := t) hout.base_eq hout.size_eq
  refine ⟨_, by rw [heapStep, heq, Option.map_some], bs', ?_, ?_, ?_⟩
  · rw [hstart]
    exact heapInvIf_true_iff.mp hout.inv
  · rw [hstart, hend, hout.total_eq]
    exact htop
  · dsimp only
    rw [hstart, hout.allocs_eq, ← filter_allocs (tilesIf_true_iff.mpr hinv.tiles)]
    exact hlive.filter _

theorem RunInv.write {s : HeapRun} {ptr offset : ℕ} {byte : UInt8} (h : RunInv t s)
    (hallowed : Allowed t s (.write ptr offset byte)) :
    ∃ s', heapStep t s (.write ptr offset byte) = some s' ∧ RunInv t s' := by
  obtain ⟨bs, hinv, htop, hlive⟩ := h
  obtain ⟨⟨p, n⟩, hmem, rfl, hoffset⟩ := hallowed
  obtain ⟨xs, k, ys, rfl, hptr⟩ := mem_allocs.mp (hlive.mem_iff.mp hmem)
  dsimp only at hptr hoffset ⊢
  subst hptr
  have hreq : t.word + n < k := (tiles_append.mp hinv.tiles).2.1.room_req n rfl
  have htiles : TilesIf True t
      (setByte s.globals.mem (regionStart t s.heap + total xs + t.word + offset) byte)
      (regionStart t s.heap) (xs ++ ⟨k, some n⟩ :: ys) 0 :=
    (tilesIf_true_iff.mpr hinv.tiles).congr_payload fun x hx ↦ setByte_of_ne (by omega)
  exact ⟨_, rfl, xs ++ ⟨k, some n⟩ :: ys, ⟨hinv.pos, hinv.bound, tilesIf_true_iff.mp htiles,
    hinv.freeList, hinv.free, hinv.apart⟩, htop, hlive⟩

theorem RunInv.step {s : HeapRun} {e : HeapEvent} (h : RunInv t s) (hallowed : Allowed t s e) :
    ∃ s', heapStep t s e = some s' ∧ RunInv t s' := by
  cases e with
  | allocate size => exact h.allocate hallowed
  | deallocate ptr => exact h.deallocate hallowed
  | write ptr offset byte => exact h.write hallowed

def created (heap : Heap) (g : Globals) : HeapRun where
  heap := heap
  globals := g
  live := []

theorem runInv_created {heaps : List Heap} {g g' : Globals} {ptr size i : ℕ}
    (h : memHeapCreate t heaps g ptr size = some (i, heap, g')) (hslack : alignSlack t ptr < size)
    (hfits : ptr + size < 256 ^ t.word) : RunInv t (created heap g') := by
  obtain ⟨s, hinv, htop⟩ := memHeapCreate_inv h hslack hfits
  refine ⟨[⟨s, none⟩], hinv, ?_, List.Perm.refl []⟩
  rw [total_cons, total_nil, Nat.add_zero]
  exact htop

/-- Every call of an allowed run returns, and every state is sound. -/
theorem heap_run_sound {heaps : List Heap} {g g' : Globals} {ptr size i : ℕ}
    (hcreate : memHeapCreate t heaps g ptr size = some (i, heap, g'))
    (hslack : alignSlack t ptr < size) (hfits : ptr + size < 256 ^ t.word) {es : List HeapEvent}
    (hes : (heapMachine t).Guarded (AllowedRun t) (some (created heap g')) es) :
    ∃ s blocks, (heapMachine t).final (some (created heap g')) es = some s ∧
      Sound t s.heap s.globals.mem s.live blocks := by
  have hstep : ∀ o e, (∃ s, o = some s ∧ RunInv t s) → AllowedRun t o e →
      ∃ s, ((heapMachine t).step o e).1 = some s ∧ RunInv t s := by
    rintro o e ⟨s, rfl, hs⟩ hallowed
    exact hs.step (hallowed s rfl)
  obtain ⟨s, hfinal, hs⟩ := (heapMachine t).inv_final hstep
    ⟨created heap g', rfl, runInv_created hcreate hslack hfits⟩ hes
  obtain ⟨blocks, hsound⟩ := hs.sound
  exact ⟨s, blocks, hfinal, hsound⟩

/-! ## Pointers of eight bytes -/

instance (heap : Heap) (m : Mem) (block : ℕ) : Decidable (KeepsGuard t heap m block) :=
  inferInstanceAs (Decidable (_ ∨ _))

instance (s : HeapRun) : (e : HeapEvent) → Decidable (Allowed t s e)
  | .allocate size => inferInstanceAs (Decidable (size < 256 ^ t.word))
  | .deallocate ptr => inferInstanceAs
    (Decidable ((∃ x ∈ s.live, x.1 = ptr) ∧ KeepsGuard t s.heap s.globals.mem (ptr - t.word)))
  | .write ptr offset _ => inferInstanceAs (Decidable (∃ x ∈ s.live, x.1 = ptr ∧ offset < x.2))

instance (o : Option HeapRun) (e : HeapEvent) : Decidable (AllowedRun t o e) :=
  inferInstanceAs (Decidable (∀ s ∈ o, Allowed t s e))

def linux64 : Target where
  word := 8
  align := 8
  word_eq := Or.inr rfl
  align_eq := Or.inr rfl

theorem smallHeap_isSome :
    (memHeapCreate linux64 [⟨0, 0, 0, 0, 0⟩] ⟨fun _ ↦ 0, 0, 0⟩ 64 160).isSome = true := by
  decide +kernel

def smallHeap : ℕ × Heap × Globals :=
  (memHeapCreate linux64 [⟨0, 0, 0, 0, 0⟩] ⟨fun _ ↦ 0, 0, 0⟩ 64 160).get smallHeap_isSome

theorem smallHeap_eq :
    memHeapCreate linux64 [⟨0, 0, 0, 0, 0⟩] ⟨fun _ ↦ 0, 0, 0⟩ 64 160 =
      some (smallHeap.1, smallHeap.2.1, smallHeap.2.2) := (Option.some_get smallHeap_isSome).symm

def smallRun : Option HeapRun := some (created smallHeap.2.1 smallHeap.2.2)

/-- Two requests, a write at the end of the first block, and its release. -/
theorem heap_run_sound_nine :
    let es := [.allocate 9, .write 208 8 0xff, .allocate 30, .deallocate 208]
    (heapMachine linux64).Guarded (AllowedRun linux64) smallRun es ∧
      ∃ s blocks, (heapMachine linux64).final smallRun es = some s ∧
        Sound linux64 s.heap s.globals.mem s.live blocks := by
  intro es
  have hes : (heapMachine linux64).Guarded (AllowedRun linux64) smallRun es := by
    refine ⟨?_, ?_, ?_, ?_, trivial⟩ <;> decide +kernel
  exact ⟨hes, heap_run_sound smallHeap_eq (by decide) (by decide) hes⟩

/-- The block for four bytes is 16 bytes long: releasing it writes the link over
its guard, and the walk over the heap stops there. -/
theorem small_release_loses_guard :
    let o := (heapMachine linux64).final smallRun [.allocate 4, .deallocate 216]
    ((heapMachine linux64).final smallRun [.allocate 4]).map HeapRun.live = some [(216, 4)] ∧
      (o.bind fun s ↦ memHeapStatus linux64 s.heap s.globals.mem) = some ⟨160, 0, 0, 0, 0, 0⟩ ∧
      ¬ ∃ s blocks, o = some s ∧ Sound linux64 s.heap s.globals.mem s.live blocks := by
  intro o
  have hstatus : (o.bind fun s ↦ memHeapStatus linux64 s.heap s.globals.mem) =
      some ⟨160, 0, 0, 0, 0, 0⟩ := by decide +kernel
  refine ⟨by decide +kernel, hstatus, ?_⟩
  rintro ⟨s, blocks, ho, hsound⟩
  obtain ⟨status, hvalid, hone⟩ := hsound.valid
  rw [ho, Option.bind_some, hvalid] at hstatus
  rw [Option.some.inj hstatus] at hone
  exact absurd hone (by decide)

end TuyaOpen.MemHeap
