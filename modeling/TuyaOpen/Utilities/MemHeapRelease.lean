import TuyaOpen.Utilities.MemHeapOps

/-!
# Release

A released block is loose for a moment: it has its header and its link, but
writing the link may have destroyed its guard.  It is first linked behind, or
joined to, the free block before it, and then joined to a free block that it
touches on the other side.  A small block keeps a guard only in that last
case.
-/

namespace TuyaOpen.MemHeap

open ByteMem

variable {F : Prop} {t : Target} {m : Mem} {a nx : ℕ} {heap : Heap} {xs ys : List Block}

/-- A released block of `s` bytes at `q` that is linked to `nx`; whether its guard
is there depends on `G`. -/
structure LooseAt (t : Target) (m : Mem) (q s nx : ℕ) (G : Prop) : Prop where
  header : blockSize t m q = s
  link : blockNext t m q = nx
  guard : G → m (q + s - 1) = memBlockStatFree
  room : 2 * t.word ≤ s

theorem LooseAt.congr {m' : Mem} {q s : ℕ} {G : Prop} (h : LooseAt t m q s nx G)
    (hmem : ∀ x, q ≤ x → x < q + s → m' x = m x) : LooseAt t m' q s nx G := by
  have hroom := h.room
  have hword := t.word_pos
  refine ⟨?_, ?_, fun hG ↦ ?_, hroom⟩
  · rw [← h.header]
    exact load_congr fun x hx hlt ↦ hmem x hx (by omega)
  · rw [← h.link]
    exact load_congr fun x hx hlt ↦ hmem x (by omega) (by omega)
  · rw [← h.guard hG]
    exact hmem _ (by omega) (by omega)

/-- The region while a block of it is loose: the blocks before it, which link to
it, and the blocks behind it. -/
structure Loose (F : Prop) (t : Target) (m : Mem) (a : ℕ) (xs : List Block) (s : ℕ)
    (ys : List Block) (G : Prop) : Prop where
  before : TilesIf F t m a xs (a + total xs)
  block : LooseAt t m (a + total xs) s (firstFree (a + total xs + s) ys 0) G
  behind : TilesIf F t m (a + total xs + s) ys 0

/-- The loose block of `s` bytes behind `xs` is now one of `s'` bytes behind `xs'`,
and the last block of `xs'` is not free. -/
structure Absorbed (t : Target) (a : ℕ) (xs : List Block) (s : ℕ) (xs' : List Block) (s' : ℕ) :
    Prop where
  le : s ≤ s'
  total_eq : total xs' + s' = total xs + s
  freeTotal_eq : freeTotal xs' + s' = freeTotal xs + s
  allocs_eq : allocs t a xs' = allocs t a xs
  apart : Apart xs'
  last : ∀ b ∈ xs'.getLast?, ¬ b.IsFree

theorem linkBehind_join {us : List Block} {f : Block} {s : ℕ} {G : Prop} (ha : 0 < a)
    (hbound : a + total (us ++ [f]) + s + total ys < 256 ^ t.word) (hf : f.IsFree)
    (hxs : TilesIf F t m a (us ++ [f]) (firstFree (a + total (us ++ [f]) + s) ys 0))
    (hblock : LooseAt t m (a + total (us ++ [f])) s (firstFree (a + total (us ++ [f]) + s) ys 0) G)
    (hys : TilesIf F t m (a + total (us ++ [f]) + s) ys 0) (hapart : Apart (us ++ [f])) :
    linkBehind t heap m (a + total us) (a + total (us ++ [f])) =
        (heap, setSize t m (a + total us) (f.size + s), a + total us) ∧
      Loose F t (setSize t m (a + total us) (f.size + s)) a us (f.size + s) ys G ∧
      Absorbed t a (us ++ [f]) s us (f.size + s) := by
  obtain ⟨hus, hfAt, -⟩ := tilesIf_append.mp hxs
  have hroom := hfAt.room
  have hroom' := hblock.room
  have hshift : a + total (us ++ [f]) = a + total us + f.size := by simp [Nat.add_assoc]
  obtain ⟨hapart', -, hlast⟩ := List.isChain_append.mp hapart
  rw [firstFree, if_pos hf] at hus
  rw [hshift] at hbound hblock hys hfAt ⊢
  have hlink : blockNext t m (a + total us) = firstFree (a + total us + f.size + s) ys 0 :=
    hfAt.link hf
  refine ⟨?_, ⟨?_, ⟨?_, ?_, fun hG ↦ ?_, by omega⟩, ?_⟩, ?_⟩
  · rw [linkBehind, if_neg (by omega), hfAt.header, wadd_of_lt (by omega), if_pos rfl,
      hblock.header, wadd_of_lt (by omega)]
  · exact hus.congr fun x _ hlt ↦ store_of_disjoint (by omega)
  · exact load_store_self (by omega)
  · rw [← Nat.add_assoc, ← hlink]
    exact load_store_of_disjoint (by omega)
  · rw [← Nat.add_assoc, ← hblock.guard hG]
    exact store_of_disjoint (by omega)
  · rw [← Nat.add_assoc]
    exact hys.congr fun x hx _ ↦ store_of_disjoint (by omega)
  · refine ⟨by omega, by simp [Nat.add_assoc], ?_, ?_, hapart', fun b hb hfree ↦ ?_⟩
    · rw [freeTotal_append, freeTotal_cons_free hf, freeTotal_nil]
      omega
    · rw [allocs_append, allocs, show f.req = none from hf]
      simp [allocs]
    · exact hlast b hb f (by simp) ⟨hfree, hf⟩

theorem linkBehind_link {us vs : List Block} {f : Block} {s : ℕ} {G : Prop} (ha : 0 < a)
    (hbound : a + total (us ++ f :: vs) + s + total ys < 256 ^ t.word) (hf : f.IsFree)
    (hvs : ∀ b ∈ vs, ¬ b.IsFree) (hne : vs ≠ [])
    (hxs : TilesIf F t m a (us ++ f :: vs) nx)
    (hblock : LooseAt t m (a + total (us ++ f :: vs)) s
      (firstFree (a + total (us ++ f :: vs) + s) ys 0) G)
    (hys : TilesIf F t m (a + total (us ++ f :: vs) + s) ys 0) (hapart : Apart (us ++ f :: vs)) :
    linkBehind t heap m (a + total us) (a + total (us ++ f :: vs)) =
        (heap, setNext t m (a + total us) (a + total (us ++ f :: vs)), a + total (us ++ f :: vs)) ∧
      Loose F t (setNext t m (a + total us) (a + total (us ++ f :: vs))) a (us ++ f :: vs) s ys G ∧
      Absorbed t a (us ++ f :: vs) s (us ++ f :: vs) s := by
  obtain ⟨-, hfAt, hvsAt⟩ := tilesIf_append.mp hxs
  have hroom := hfAt.room
  have hvspos : 0 < total vs := by
    obtain ⟨v, vs, rfl⟩ := List.exists_cons_of_ne_nil hne
    have hv := hvsAt.1.room
    have hword := t.word_pos
    rw [total_cons]
    omega
  have hshift : a + total (us ++ f :: vs) = a + total us + f.size + total vs := by
    simp [Nat.add_assoc]
  refine ⟨?_, ⟨hxs.relink hf hvs (by omega), hblock.congr fun x hx _ ↦ ?_,
    hys.congr fun x hx _ ↦ ?_⟩, le_rfl, rfl, rfl, rfl, hapart, fun b hb ↦ ?_⟩
  · rw [linkBehind, if_neg (by omega), hfAt.header, wadd_of_lt (by omega), if_neg (by omega)]
  · exact store_of_disjoint (by omega)
  · exact store_of_disjoint (by omega)
  · rw [List.getLast?_append_cons, List.getLast?_cons_of_ne_nil hne] at hb
    exact hvs b (List.mem_of_getLast? hb)

theorem linkBehind_loose (heap : Heap) {s : ℕ} {G : Prop} (ha : 0 < a)
    (hbound : a + total xs + s + total ys < 256 ^ t.word)
    (hxs : TilesIf F t m a xs (firstFree (a + total xs + s) ys 0))
    (hblock : LooseAt t m (a + total xs) s (firstFree (a + total xs + s) ys 0) G)
    (hys : TilesIf F t m (a + total xs + s) ys 0)
    (hfree : heap.freeList = firstFree a xs (firstFree (a + total xs + s) ys 0))
    (hapart : Apart xs) :
    ∃ m' xs' s', linkBehind t heap m (lastFree a xs 0) (a + total xs) =
        ({ heap with freeList := firstFree a xs' (a + total xs') }, m', a + total xs') ∧
      Loose F t m' a xs' s' ys G ∧ Absorbed t a xs s xs' s' ∧
      ∀ x, x < a + total xs' ∨ a + total xs' + s' ≤ x → ¬ InFree a xs' x → m' x = m x := by
  rcases last_free_split xs with hused | ⟨us, f, vs, rfl, hf, hvs⟩
  · rw [linkBehind, if_pos (lastFree_of_used hused)]
    exact ⟨m, xs, s, by rw [firstFree_of_used hused], ⟨hxs.next_of_used hused _, hblock, hys⟩,
      ⟨le_rfl, rfl, rfl, rfl, hapart, fun b hb ↦ hused b (List.mem_of_getLast? hb)⟩,
      fun _ _ _ ↦ rfl⟩
  · rw [lastFree_of_split hf hvs]
    by_cases hne : vs = []
    · subst hne
      obtain ⟨heq, hloose, habsorbed⟩ := linkBehind_join ha hbound hf hxs hblock hys hapart
      refine ⟨_, us, f.size + s, ?_, hloose, habsorbed, fun x hx _ ↦ ?_⟩
      · have hfirst : heap.freeList = firstFree a us (a + total us) := by
          rw [hfree, firstFree_append, firstFree, if_pos hf]
        rw [heq, ← hfirst]
      · have hroom := hblock.room
        exact store_of_disjoint (by omega)
    · obtain ⟨heq, hloose, habsorbed⟩ := linkBehind_link ha hbound hf hvs hne hxs hblock hys hapart
      refine ⟨_, us ++ f :: vs, s, ?_, hloose, habsorbed, fun x _ hx ↦ ?_⟩
      · rw [heq, ← firstFree_next hf _, ← hfree]
      · have hroom := (tilesIf_append.mp hxs).2.1.room
        have hout := not_inFree hx rfl hf
        exact store_of_disjoint (by omega)

theorem apart_insert_free {s : ℕ} (hxs : Apart xs) (hlast : ∀ b ∈ xs.getLast?, ¬ b.IsFree)
    (hys : Apart ys) (hhead : ∀ b ∈ ys.head?, ¬ b.IsFree) : Apart (xs ++ ⟨s, none⟩ :: ys) := by
  refine List.isChain_append.mpr ⟨hxs, List.isChain_cons.mpr ⟨fun b hb h ↦ hhead b hb h.2, hys⟩, ?_⟩
  exact fun b hb _ _ h ↦ hlast b hb h.1

theorem joinNext_eq {q s s' v : ℕ} (hq : 0 < q) (hs : blockSize t m q = s)
    (hs' : blockSize t m (q + s) = s') (hv : blockNext t m (q + s) = v)
    (hbound : q + s + s' < 256 ^ t.word) :
    joinNext t m q (q + s) = setNext t (setSize t m q (s + s')) q v := by
  have hv' : blockNext t (setSize t m q (s + s')) (q + s) = v := by
    rw [← hv]
    exact load_store_of_disjoint (by omega)
  rw [joinNext, hs, wadd_of_lt (by omega), if_pos ⟨by omega, rfl⟩, hs', wadd_of_lt (by omega)]
  dsimp only
  rw [hv']

theorem joinNext_join {s : ℕ} {G : Prop} {g : Block} (h : Loose F t m a xs s (g :: ys) G)
    (ha : 0 < a) (hbound : a + total xs + s + total (g :: ys) < 256 ^ t.word) (hg : g.IsFree) :
    TilesIf F t (joinNext t m (a + total xs) (a + total xs + s)) a
      (xs ++ ⟨s + g.size, none⟩ :: ys) 0 := by
  obtain ⟨hgAt, hys⟩ := h.behind
  have hroom := h.block.room
  have hroomg := hgAt.room
  have hword := t.word_pos
  rw [total_cons] at hbound
  have hv : firstFree (a + total xs + s + g.size) ys 0 < 256 ^ t.word :=
    firstFree_lt (by omega) (by omega)
  rw [joinNext_eq (by omega) h.block.header hgAt.header (hgAt.link hg) (by omega),
    tilesIf_append, firstFree, if_pos (Block.isFree_none _)]
  have hout : ∀ x, x < a + total xs ∨ a + total xs + s ≤ x →
      setNext t (setSize t m (a + total xs) (s + g.size)) (a + total xs)
        (firstFree (a + total xs + s + g.size) ys 0) x = m x := by
    intro x hx
    rw [setNext, store_of_disjoint (by omega)]
    exact store_of_disjoint (by omega)
  refine ⟨h.before.congr fun x _ hlt ↦ hout x (Or.inl hlt), ⟨?_, fun hF ↦ ?_, fun _ ↦ ?_, ?_,
    fun _ _ ↦ ?_, by simp⟩, ?_⟩
  · simp (disch := omega) only [blockSize, setNext, setSize, load_store_of_disjoint,
      load_store_self]
  · dsimp only
    rw [hout _ (by omega), ← Nat.add_assoc, hgAt.guard fun _ ↦ hF (Block.isFree_none _),
      Block.guard_of_free hg]
    rfl
  · rw [← Nat.add_assoc]
    exact load_store_self hv
  · dsimp only
    omega
  · dsimp only
    omega
  · rw [← Nat.add_assoc]
    exact hys.congr fun x hx _ ↦ hout x (by omega)

theorem joinNext_of_used {s : ℕ} {G : Prop} (h : Loose F t m a xs s ys G)
    (hbound : a + total xs + s + total ys < 256 ^ t.word) (hkeeps : F → G ∧ 2 * t.word < s)
    (hhead : ∀ b ∈ ys.head?, ¬ b.IsFree) :
    TilesIf F t (joinNext t m (a + total xs) (firstFree (a + total xs + s) ys 0)) a
      (xs ++ ⟨s, none⟩ :: ys) 0 := by
  have hapart : ¬ (firstFree (a + total xs + s) ys 0 ≠ 0 ∧ wadd t.word (a + total xs)
      (blockSize t m (a + total xs)) = firstFree (a + total xs + s) ys 0) := by
    rw [h.block.header, wadd_of_lt (by omega)]
    rintro ⟨hnx, heq⟩
    cases ys with
    | nil => exact hnx rfl
    | cons g ys =>
        have hroomg := h.behind.1.room
        have hword := t.word_pos
        rw [firstFree, if_neg (hhead g (by simp))] at hnx heq
        have hge : firstFree (a + total xs + s + g.size) ys 0 = 0 ∨
            a + total xs + s + g.size ≤ firstFree (a + total xs + s + g.size) ys 0 := firstFree_ge
        omega
  rw [joinNext, if_neg hapart, tilesIf_append, firstFree, if_pos (Block.isFree_none s)]
  refine ⟨h.before, ⟨h.block.header, fun hF ↦ h.block.guard (hkeeps (hF rfl)).1,
    fun _ ↦ h.block.link, h.block.room, fun hF _ ↦ (hkeeps hF).2, by simp⟩, h.behind⟩

theorem joinNext_tiles {s : ℕ} {G : Prop} (h : Loose F t m a xs s ys G) (ha : 0 < a)
    (hbound : a + total xs + s + total ys < 256 ^ t.word) (hxs : Apart xs)
    (hlast : ∀ b ∈ xs.getLast?, ¬ b.IsFree) (hys : Apart ys)
    (hkeeps : (F → G ∧ 2 * t.word < s) ∨ ∃ g ∈ ys.head?, g.IsFree) :
    ∃ s' ys', TilesIf F t (joinNext t m (a + total xs) (firstFree (a + total xs + s) ys 0)) a
        (xs ++ ⟨s', none⟩ :: ys') 0 ∧ s ≤ s' ∧
      s' + total ys' = s + total ys ∧ s' + freeTotal ys' = s + freeTotal ys ∧
      allocs t (a + total xs + s') ys' = allocs t (a + total xs + s) ys ∧
      Apart (xs ++ ⟨s', none⟩ :: ys') := by
  by_cases hhead : ∃ g ∈ ys.head?, g.IsFree
  · obtain ⟨g, hg, hfree⟩ := hhead
    obtain ⟨ys, rfl⟩ := List.head?_eq_some_iff.mp hg
    obtain ⟨hnext, hys'⟩ := List.isChain_cons.mp hys
    refine ⟨s + g.size, ys, ?_, Nat.le_add_right _ _, by simp [Nat.add_assoc], ?_, ?_, ?_⟩
    · rw [firstFree, if_pos hfree]
      exact joinNext_join h ha hbound hfree
    · rw [freeTotal_cons_free hfree, Nat.add_assoc]
    · rw [allocs, show g.req = none from hfree, ← Nat.add_assoc]
      rfl
    · exact apart_insert_free hxs hlast hys' fun b hb hbfree ↦ hnext b hb ⟨hfree, hbfree⟩
  · have hused : ∀ b ∈ ys.head?, ¬ b.IsFree := fun b hb hfree ↦ hhead ⟨b, hb, hfree⟩
    exact ⟨s, ys, joinNext_of_used h hbound (hkeeps.resolve_right hhead) hused, le_rfl, rfl, rfl,
      rfl, apart_insert_free hxs hlast hys hused⟩

/-! ## The whole release -/

def looseMem (t : Target) (m : Mem) (q s nx : ℕ) : Mem :=
  setNext t (setByte m (q + s - 1) memBlockStatFree) q nx

theorem looseMem_of_disjoint {q s x : ℕ} (hroom : 2 * t.word ≤ s) (hx : x < q ∨ q + s ≤ x) :
    looseMem t m q s nx x = m x := by
  have hword := t.word_pos
  simp (disch := omega) only [looseMem, setNext, store_of_disjoint, setByte_of_ne]

theorem looseAt_looseMem {q s : ℕ} (hsize : blockSize t m q = s) (hroom : 2 * t.word ≤ s)
    (hnx : nx < 256 ^ t.word) : LooseAt t (looseMem t m q s nx) q s nx (2 * t.word < s) := by
  have hword := t.word_pos
  refine ⟨?_, load_store_self hnx, fun hG ↦ ?_, hroom⟩
  · refine (load_store_of_disjoint (by omega)).trans (Eq.trans ?_ hsize)
    exact load_setByte_of_disjoint (by omega)
  · simp (disch := omega) only [looseMem, setNext, store_of_disjoint, setByte_self]

theorem memDeallocate_eq {g : Globals} {q s pre : ℕ} (hsize : blockSize t g.mem q = s)
    (hroom : 2 * t.word ≤ s) (hbound : q + s < 256 ^ t.word)
    (hguard : g.mem (q + s - 1) = memBlockStatUse)
    (hloop : neighbourLoop t (setByte g.mem (q + s - 1) memBlockStatFree) q (walkFuel t) 0
      heap.freeList = some (pre, nx)) :
    let r := linkBehind t { heap with free := wadd t.word heap.free s }
      (looseMem t g.mem q s nx) pre q
    memDeallocate t heap g (q + t.word) = some
      (r.1, { g with mem := joinNext t r.2.1 r.2.2 nx, freeSize := wadd t.word g.freeSize s }) := by
  have hword := t.word_pos
  have hptr : wsub t.word (q + t.word) (memBlockHeadSize t) = q := by
    rw [memBlockHeadSize, wsub_of_le (by omega) (by omega), Nat.add_sub_cancel]
  have hdog : memDogAddr t g.mem q = q + s - 1 := memDogAddr_eq hsize (by omega) hbound
  have hsize' : blockSize t (setByte g.mem (q + s - 1) memBlockStatFree) q = s :=
    (load_setByte_of_disjoint (by omega)).trans hsize
  have huse : ¬ (q + t.word = 0 ∨ g.mem (q + s - 1) ≠ memBlockStatUse) := by
    rw [hguard]
    simp only [ne_eq, not_true_eq_false, or_false]
    omega
  rw [memDeallocate]
  dsimp only
  rw [hptr, hdog, if_neg huse, hsize', hloop]
  rfl

theorem joinNext_frame {q s nx x : ℕ} (hroom : 2 * t.word ≤ s) (hx : x < q ∨ q + s ≤ x) :
    joinNext t m q nx x = m x := by
  rw [joinNext]
  split_ifs
  · simp (disch := omega) only [setNext, setSize, store_of_disjoint]
  · rfl

theorem memDeallocate_loose {g : Globals} {s req : ℕ}
    (h : HeapInvIf F t heap g.mem a (xs ++ ⟨s, some req⟩ :: ys)) :
    ∃ m' xs' s', Loose F t m' a xs' s' ys (2 * t.word < s) ∧ Absorbed t a xs s xs' s' ∧
      (∀ x, x < a + total xs' ∨ a + total xs' + s' ≤ x → ¬ InFree a xs' x → m' x = g.mem x) ∧
      memDeallocate t heap g (a + total xs + t.word) = some
        ({ heap with
            free := wadd t.word heap.free s
            freeList := firstFree a xs' (a + total xs') },
         { g with
            mem := joinNext t m' (a + total xs') (firstFree (a + total xs + s) ys 0)
            freeSize := wadd t.word g.freeSize s }) := by
  have hpos := h.pos
  have hword := t.word_pos
  have hbound : a + (total xs + (s + total ys)) < 256 ^ t.word := by
    simpa using h.bound
  obtain ⟨hxs, hblock, hys⟩ := tilesIf_append.mp h.tiles
  obtain ⟨haxs, -, -⟩ := List.isChain_append.mp h.apart
  rw [firstFree, if_neg (Block.not_isFree_some s req)] at hxs
  have hfirst : heap.freeList = firstFree a xs (firstFree (a + total xs + s) ys 0) := by
    rw [h.freeList, firstFree_append, firstFree, if_neg (Block.not_isFree_some s req)]
  have hsize : blockSize t g.mem (a + total xs) = s := hblock.header
  have hroom : 2 * t.word ≤ s := hblock.room
  have hguard : g.mem (a + total xs + s - 1) = memBlockStatUse :=
    hblock.guard_used (Block.not_isFree_some s req)
  dsimp only at hxs hys
  generalize hv : firstFree (a + total xs + s) ys 0 = v at hxs hfirst ⊢
  have hvlt : v < 256 ^ t.word := hv ▸ firstFree_lt (by omega) (by omega)
  have hloop : neighbourLoop t (setByte g.mem (a + total xs + s - 1) memBlockStatFree)
      (a + total xs) (walkFuel t) 0 heap.freeList = some (lastFree a xs 0, v) := by
    have hbehind : v = 0 ∨ a + total xs + s ≤ v := hv ▸ firstFree_ge
    have hxs' : TilesIf F t (setByte g.mem (a + total xs + s - 1) memBlockStatFree) a xs v :=
      hxs.congr fun x _ hlt ↦ setByte_of_ne (by omega)
    have heq := neighbourLoop_eq hxs' hpos rfl (by omega) (List.nil_append xs).symm
      (hxs.length_lt_walkFuel (by omega))
    rwa [total_nil, Nat.add_zero, ← hfirst] at heq
  have hblock' := looseAt_looseMem hsize hroom hvlt
  subst hv
  obtain ⟨m', xs', s', hlink, hloose, habsorbed, hframe⟩ := linkBehind_loose
    { heap with free := wadd t.word heap.free s } hpos (by omega)
    (hxs.congr fun x _ hlt ↦ looseMem_of_disjoint hroom (Or.inl hlt)) hblock'
    (hys.congr fun x hx _ ↦ looseMem_of_disjoint hroom (Or.inr hx)) hfirst haxs
  refine ⟨m', xs', s', hloose, habsorbed, fun x hx hfree ↦ ?_, ?_⟩
  · have htotal := habsorbed.total_eq
    have hle := habsorbed.le
    rw [hframe x hx hfree]
    exact looseMem_of_disjoint hroom (by omega)
  · rw [memDeallocate_eq hsize hroom (by omega) hguard hloop, hlink]

/-- The block of `s` bytes behind `xs` went back to the heap. -/
structure Released (F : Prop) (t : Target) (heap : Heap) (g : Globals) (a : ℕ) (xs : List Block)
    (s req : ℕ) (ys : List Block) (heap' : Heap) (g' : Globals) (bs' : List Block) : Prop where
  inv : HeapInvIf F t heap' g'.mem a bs'
  total_eq : total bs' = total (xs ++ ⟨s, some req⟩ :: ys)
  base_eq : heap'.base = heap.base
  size_eq : heap'.size = heap.size
  free_eq : heap'.free = heap.free + s
  freeSize_eq : g'.freeSize = wadd t.word g.freeSize s
  allocs_eq : allocs t a bs' = allocs t a xs ++ allocs t (a + total xs + s) ys
  frame : ∀ x, ¬ InFree a bs' x → g'.mem x = g.mem x

/-- The pointer is no longer handed out, and the blocks tile the region.  For the
guards of all free blocks the link must not reach the guard of the released
block, or that guard is not the guard of a block any more. -/
theorem memDeallocate_inv {g : Globals} {s req : ℕ}
    (h : HeapInvIf F t heap g.mem a (xs ++ ⟨s, some req⟩ :: ys))
    (hkeeps : (F → 2 * t.word < s) ∨ ∃ g ∈ ys.head?, g.IsFree) :
    ∃ heap' g' bs', memDeallocate t heap g (a + total xs + t.word) = some (heap', g') ∧
      Released F t heap g a xs s req ys heap' g' bs' := by
  obtain ⟨m', xs', s', hloose, habsorbed, hframe, heq⟩ := memDeallocate_loose h
  have hbound : a + (total xs + (s + total ys)) < 256 ^ t.word := by
    simpa using h.bound
  have hshift : a + total xs' + s' = a + total xs + s := by
    have htotal := habsorbed.total_eq
    omega
  have hkeeps' : (F → 2 * t.word < s ∧ 2 * t.word < s') ∨ ∃ g ∈ ys.head?, g.IsFree :=
    hkeeps.imp_left fun hs hF ↦ ⟨hs hF, lt_of_lt_of_le (hs hF) habsorbed.le⟩
  have hays : Apart ys := (List.isChain_cons.mp (List.isChain_append.mp h.apart).2.1).2
  obtain ⟨r, zs, htiles, hle, htotal, hfree, hallocs, hapart⟩ := joinNext_tiles hloose h.pos
    (by omega) habsorbed.apart habsorbed.last hays hkeeps'
  rw [hshift] at htiles hallocs
  have hsum : total (xs' ++ ⟨r, none⟩ :: zs) = total (xs ++ ⟨s, some req⟩ :: ys) := by
    simp only [total_append, total_cons]
    omega
  have hfreeOld : heap.free = freeTotal xs + freeTotal ys := by
    rw [h.free, freeTotal_append, freeTotal_cons_used (Block.not_isFree_some s req)]
  have hfreeNew : freeTotal (xs' ++ ⟨r, none⟩ :: zs) = heap.free + s := by
    rw [freeTotal_append, freeTotal_cons_free (Block.isFree_none r), hfreeOld]
    have habsorbedFree := habsorbed.freeTotal_eq
    dsimp only
    omega
  have hfreeLe := freeTotal_le (xs' ++ ⟨r, none⟩ :: zs)
  have hbound' := h.bound
  have hfreeEq : wadd t.word heap.free s = heap.free + s := wadd_of_lt (by omega)
  refine ⟨_, _, xs' ++ ⟨r, none⟩ :: zs, heq, ⟨h.pos, ?_, htiles, ?_, ?_, hapart⟩, hsum, rfl, rfl,
    hfreeEq, rfl, ?_, fun x hx ↦ ?_⟩
  · rw [hsum]
    exact h.bound
  · rw [firstFree_append, firstFree, if_pos (Block.isFree_none r)]
  · rw [hfreeNew]
    exact hfreeEq
  · rw [allocs_append, habsorbed.allocs_eq, allocs, hallocs]
    rfl
  · have hout := not_inFree hx rfl (Block.isFree_none r)
    dsimp only at hout ⊢
    rw [joinNext_frame hloose.block.room (by omega)]
    refine hframe x (by omega) fun hin ↦ hx ?_
    obtain ⟨us, p, vs, hus, hp, hlow, hhigh⟩ := hin
    exact ⟨us, p, vs ++ ⟨r, none⟩ :: zs, by rw [hus, List.append_assoc]; rfl, hp, hlow, hhigh⟩

end TuyaOpen.MemHeap
