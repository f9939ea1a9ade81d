import TuyaOpen.Utilities.MemHeap
import Mathlib.Data.List.Chain

/-!
# A region as a row of blocks

The abstract heap is the list of its blocks in the order of their addresses.
`Tiles` says that the headers, guards and links in memory are those of such a
list.  It is stated for a segment of the region, with the free block that
follows the segment as a parameter, so that a region splits at every block.
-/

namespace TuyaOpen.MemHeap

open ByteMem

structure Block where
  size : ℕ
  req : Option ℕ
  deriving DecidableEq

namespace Block

def IsFree (b : Block) : Prop := b.req = none

instance (b : Block) : Decidable b.IsFree := inferInstanceAs (Decidable (b.req = none))

@[simp] theorem isFree_none (s : ℕ) : IsFree ⟨s, none⟩ := rfl

@[simp] theorem not_isFree_some (s n : ℕ) : ¬ IsFree ⟨s, some n⟩ := Option.some_ne_none n

def guard (b : Block) : UInt8 := if b.IsFree then memBlockStatFree else memBlockStatUse

theorem guard_of_free {b : Block} (h : b.IsFree) : b.guard = memBlockStatFree := if_pos h

theorem guard_of_used {b : Block} (h : ¬ b.IsFree) : b.guard = memBlockStatUse := if_neg h

end Block

def total (bs : List Block) : ℕ := (bs.map Block.size).sum

@[simp] theorem total_nil : total [] = 0 := rfl

@[simp] theorem total_cons (b : Block) (bs : List Block) : total (b :: bs) = b.size + total bs := by
  simp [total]

@[simp] theorem total_append (bs cs : List Block) : total (bs ++ cs) = total bs + total cs := by
  simp [total]

/-- The first free block of a segment at `a`, `nx` when it has none. -/
@[grind =] def firstFree (a : ℕ) : List Block → ℕ → ℕ
  | [], nx => nx
  | b :: bs, nx => if b.IsFree then a else firstFree (a + b.size) bs nx

/-- The last free block of a segment at `a`, `pre` when it has none. -/
@[grind =] def lastFree (a : ℕ) : List Block → ℕ → ℕ
  | [], pre => pre
  | b :: bs, pre => lastFree (a + b.size) bs (if b.IsFree then a else pre)

variable {t : Target} {m m' : Mem} {a nx pre : ℕ} {b : Block} {bs cs : List Block}

@[simp] theorem firstFree_append :
    firstFree a (bs ++ cs) nx = firstFree a bs (firstFree (a + total bs) cs nx) := by
  induction bs generalizing a with
  | nil => rfl
  | cons b bs ih =>
      rw [List.cons_append, firstFree, firstFree, ih, total_cons, Nat.add_assoc]

@[simp] theorem lastFree_append :
    lastFree a (bs ++ cs) pre = lastFree (a + total bs) cs (lastFree a bs pre) := by
  induction bs generalizing a pre with
  | nil => rfl
  | cons b bs ih =>
      rw [List.cons_append, lastFree, lastFree, ih, total_cons, Nat.add_assoc]

theorem firstFree_of_used (h : ∀ b ∈ bs, ¬ b.IsFree) : firstFree a bs nx = nx := by
  induction bs generalizing a with
  | nil => rfl
  | cons b bs ih =>
      rw [firstFree, if_neg (h b (by simp)), ih fun c hc ↦ h c (by simp [hc])]

theorem lastFree_of_used (h : ∀ b ∈ bs, ¬ b.IsFree) : lastFree a bs pre = pre := by
  induction bs generalizing a with
  | nil => rfl
  | cons b bs ih =>
      rw [lastFree, if_neg (h b (by simp)), ih fun c hc ↦ h c (by simp [hc])]

theorem firstFree_next {f : Block} (hf : f.IsFree) (nx' : ℕ) :
    firstFree a (bs ++ f :: cs) nx = firstFree a (bs ++ f :: cs) nx' := by
  rw [firstFree_append, firstFree_append, firstFree, firstFree, if_pos hf, if_pos hf]

theorem firstFree_lt {bound : ℕ} (h : a + total bs < bound) (hnx : nx < bound) :
    firstFree a bs nx < bound := by
  induction bs generalizing a with
  | nil => exact hnx
  | cons b bs ih =>
      rw [total_cons] at h
      rw [firstFree]
      split_ifs
      · omega
      · exact ih (by omega)

theorem firstFree_ge : firstFree a bs nx = nx ∨ a ≤ firstFree a bs nx := by
  induction bs generalizing a with
  | nil => exact Or.inl rfl
  | cons b bs ih =>
      rw [firstFree]
      split_ifs
      · exact Or.inr le_rfl
      · exact ih.imp_right fun h ↦ le_trans (Nat.le_add_right a b.size) h

theorem last_free_split (bs : List Block) :
    (∀ b ∈ bs, ¬ b.IsFree) ∨
      ∃ xs f ys, bs = xs ++ f :: ys ∧ f.IsFree ∧ ∀ b ∈ ys, ¬ b.IsFree := by
  induction bs with
  | nil => exact Or.inl (by simp)
  | cons b bs ih =>
      rcases ih with hused | ⟨xs, f, ys, rfl, hf, hys⟩
      · by_cases hb : b.IsFree
        · exact Or.inr ⟨[], b, bs, rfl, hb, hused⟩
        · exact Or.inl (by simpa [hb] using hused)
      · exact Or.inr ⟨b :: xs, f, ys, rfl, hf, hys⟩

/-! ## Blocks in memory -/

/-- The block `b` stands at `a`, linked to `nx` when it is free.  A free block
has room for its header, its link and its guard; in a used one the link, which
is written at its release, may still reach the guard. -/
structure BlockAt (t : Target) (m : Mem) (a : ℕ) (b : Block) (nx : ℕ) : Prop where
  header : blockSize t m a = b.size
  guard : m (a + b.size - 1) = b.guard
  link : b.IsFree → blockNext t m a = nx
  room : 2 * t.word ≤ b.size
  room_free : b.IsFree → 2 * t.word < b.size
  room_req : ∀ n ∈ b.req, t.word + n < b.size

/-- The blocks `bs` stand one behind the other from `a` on; `nx` is the free block
that follows them. -/
def Tiles (t : Target) (m : Mem) (a : ℕ) : List Block → ℕ → Prop
  | [], _ => True
  | b :: bs, nx => BlockAt t m a b (firstFree (a + b.size) bs nx) ∧ Tiles t m (a + b.size) bs nx

/-- Like `BlockAt`, where the guard of a free block is there under `G`.  The link
of a small block that was released is written over its guard. -/
structure BlockIf (G : Prop) (t : Target) (m : Mem) (a : ℕ) (b : Block) (nx : ℕ) : Prop where
  header : blockSize t m a = b.size
  guard : (b.IsFree → G) → m (a + b.size - 1) = b.guard
  link : b.IsFree → blockNext t m a = nx
  room : 2 * t.word ≤ b.size
  room_free : G → b.IsFree → 2 * t.word < b.size
  room_req : ∀ n ∈ b.req, t.word + n < b.size

@[grind =] def TilesIf (G : Prop) (t : Target) (m : Mem) (a : ℕ) : List Block → ℕ → Prop
  | [], _ => True
  | b :: bs, nx =>
    BlockIf G t m a b (firstFree (a + b.size) bs nx) ∧ TilesIf G t m (a + b.size) bs nx

theorem Target.word_pos (t : Target) : 0 < t.word := by
  rcases t.word_eq with h | h <;> omega

theorem blockIf_true_iff : BlockIf True t m a b nx ↔ BlockAt t m a b nx :=
  ⟨fun h ↦ ⟨h.header, h.guard fun _ ↦ trivial, h.link, h.room, h.room_free trivial, h.room_req⟩,
    fun h ↦ ⟨h.header, fun _ ↦ h.guard, h.link, h.room, fun _ ↦ h.room_free, h.room_req⟩⟩

theorem tilesIf_true_iff : TilesIf True t m a bs nx ↔ Tiles t m a bs nx := by
  induction bs generalizing a with
  | nil => exact Iff.rfl
  | cons b bs ih => exact and_congr blockIf_true_iff ih

variable {G : Prop}

theorem BlockIf.guard_used (h : BlockIf G t m a b nx) (hb : ¬ b.IsFree) :
    m (a + b.size - 1) = memBlockStatUse :=
  (h.guard fun hf ↦ absurd hf hb).trans (Block.guard_of_used hb)

theorem BlockIf.congr (h : BlockIf G t m a b nx)
    (hmem : ∀ x, a ≤ x → x < a + b.size → m' x = m x) : BlockIf G t m' a b nx := by
  have hroom := h.room
  have hword := t.word_pos
  refine ⟨?_, fun hG ↦ ?_, fun hb ↦ ?_, h.room, h.room_free, h.room_req⟩
  · rw [← h.header]
    exact load_congr fun x hx hlt ↦ hmem x hx (by omega)
  · rw [← h.guard hG, hmem _ (by omega) (by omega)]
  · rw [← h.link hb]
    exact load_congr fun x hx hlt ↦ hmem x (by omega) (by omega)

theorem BlockIf.mono {F : Prop} (h : BlockIf G t m a b nx) (hFG : F → G) : BlockIf F t m a b nx :=
  ⟨h.header, fun hF ↦ h.guard fun hb ↦ hFG (hF hb), h.link, h.room, fun hF ↦ h.room_free (hFG hF),
    h.room_req⟩

theorem TilesIf.mono {F : Prop} (h : TilesIf G t m a bs nx) (hFG : F → G) :
    TilesIf F t m a bs nx := by
  induction bs generalizing a with
  | nil => trivial
  | cons b bs ih => exact ⟨h.1.mono hFG, ih h.2⟩

theorem TilesIf.congr (h : TilesIf G t m a bs nx)
    (hmem : ∀ x, a ≤ x → x < a + total bs → m' x = m x) : TilesIf G t m' a bs nx := by
  induction bs generalizing a with
  | nil => trivial
  | cons b bs ih =>
      rw [total_cons] at hmem
      refine ⟨h.1.congr fun x hx hlt ↦ hmem x hx (by omega), ih h.2 fun x hx hlt ↦ ?_⟩
      exact hmem x (by omega) (by omega)

theorem tilesIf_append :
    TilesIf G t m a (bs ++ cs) nx ↔
      TilesIf G t m a bs (firstFree (a + total bs) cs nx) ∧
        TilesIf G t m (a + total bs) cs nx := by
  induction bs generalizing a with
  | nil => simp [TilesIf]
  | cons b bs ih =>
      rw [List.cons_append, TilesIf, TilesIf, ih, firstFree_append, total_cons, and_assoc,
        Nat.add_assoc]

theorem tiles_append :
    Tiles t m a (bs ++ cs) nx ↔
      Tiles t m a bs (firstFree (a + total bs) cs nx) ∧ Tiles t m (a + total bs) cs nx := by
  simp only [← tilesIf_true_iff]
  exact tilesIf_append

/-- The bytes between the header of a used block and its guard belong to its
caller: the tiling does not depend on them. -/
theorem TilesIf.congr_payload {xs ys : List Block} {s n : ℕ}
    (h : TilesIf G t m a (xs ++ ⟨s, some n⟩ :: ys) nx)
    (hmem : ∀ x, x < a + total xs + t.word ∨ a + total xs + s - 1 ≤ x → m' x = m x) :
    TilesIf G t m' a (xs ++ ⟨s, some n⟩ :: ys) nx := by
  obtain ⟨hxs, hblock, hys⟩ := tilesIf_append.mp h
  have hword := t.word_pos
  have hreq : t.word + n < s := hblock.room_req n rfl
  refine tilesIf_append.mpr ⟨?_, ⟨?_, fun hG ↦ ?_, by simp, hblock.room, by simp,
    hblock.room_req⟩, ?_⟩
  · exact hxs.congr fun x _ hlt ↦ hmem x (by omega)
  · exact (load_congr fun x _ hlt ↦ hmem x (by omega)).trans hblock.header
  · exact (hmem _ (Or.inr le_rfl)).trans (hblock.guard hG)
  · exact hys.congr fun x hx _ ↦ hmem x (by dsimp only at hx; omega)

theorem TilesIf.next_of_used (h : TilesIf G t m a bs nx) (hused : ∀ b ∈ bs, ¬ b.IsFree)
    (nx' : ℕ) : TilesIf G t m a bs nx' := by
  induction bs generalizing a with
  | nil => trivial
  | cons b bs ih =>
      obtain ⟨hb, hbs⟩ := h
      have hnot : ¬ b.IsFree := hused b (by simp)
      refine ⟨⟨hb.header, hb.guard, fun hf ↦ absurd hf hnot, hb.room, hb.room_free, hb.room_req⟩,
        ?_⟩
      exact ih hbs fun c hc ↦ hused c (by simp [hc])

theorem TilesIf.room (h : TilesIf G t m a bs nx) (hb : b ∈ bs) : 2 * t.word ≤ b.size := by
  induction bs generalizing a with
  | nil => cases hb
  | cons c bs ih =>
      rcases List.mem_cons.mp hb with rfl | hb
      · exact h.1.room
      · exact ih h.2 hb

theorem TilesIf.length_le (h : TilesIf G t m a bs nx) : bs.length ≤ total bs := by
  induction bs generalizing a with
  | nil => rfl
  | cons b bs ih =>
      have hb := h.1.room
      have hword := t.word_pos
      have hbs := ih h.2
      rw [List.length_cons, total_cons]
      omega

end TuyaOpen.MemHeap
