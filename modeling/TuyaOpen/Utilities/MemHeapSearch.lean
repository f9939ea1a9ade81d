import TuyaOpen.Utilities.MemHeapTiling

/-!
# The loops over the free list

Over a tiled segment the loops end, and the blocks they give are blocks of the
segment: `mem_chunk_get` chooses a free block that is large enough, together
with the free block before it, and `MEM_Deallocate` finds the free blocks on
both sides of the released one.
-/

namespace TuyaOpen.MemHeap

open ByteMem

variable {G : Prop} {t : Target} {m : Mem} {a n : ℕ} {bs ps qs : List Block}

/-- `this` is a free block of at least `n` bytes, and `pre` is the free block
before it, 0 when it is the first. -/
def Chosen (a n : ℕ) (bs : List Block) (pre this : ℕ) : Prop :=
  ∃ xs f ys, bs = xs ++ f :: ys ∧ f.IsFree ∧ n ≤ f.size ∧ this = a + total xs ∧
    pre = lastFree a xs 0

theorem TilesIf.free_block {nx : ℕ} {xs ys : List Block} {f : Block}
    (h : TilesIf G t m a (xs ++ f :: ys) nx) (hf : f.IsFree) :
    blockSize t m (a + total xs) = f.size ∧
      blockNext t m (a + total xs) = firstFree (a + total (xs ++ [f])) ys nx := by
  obtain ⟨hblock, -⟩ := (tilesIf_append.mp h).2
  refine ⟨hblock.header, ?_⟩
  rw [hblock.link hf, total_append, total_cons, total_nil, Nat.add_zero, Nat.add_assoc]

theorem lastFree_concat_free {f : Block} (hf : f.IsFree) :
    lastFree a (ps ++ [f]) 0 = a + total ps := by
  rw [lastFree_append, lastFree, lastFree, if_pos hf]

theorem lastFree_concat_used {b : Block} (hb : ¬ b.IsFree) :
    lastFree a (ps ++ [b]) 0 = lastFree a ps 0 := by
  rw [lastFree_append, lastFree, lastFree, if_neg hb]

theorem firstFree_cons_used {nx : ℕ} {b : Block} (hb : ¬ b.IsFree) :
    firstFree (a + total ps) (b :: qs) nx = firstFree (a + total (ps ++ [b])) qs nx := by
  rw [firstFree, if_neg hb, total_append, total_cons, total_nil, Nat.add_zero, Nat.add_assoc]

theorem fitLoop_chosen {pre this fuel k : ℕ} (h : TilesIf G t m a bs 0) (ha : 0 < a)
    (hbs : bs = ps ++ qs) (hchosen : Chosen a n bs pre this) (hfuel : qs.length < fuel) :
    ∃ pre' this', fitLoop t m n fuel pre this (lastFree a ps 0)
        (firstFree (a + total ps) qs 0) k = some (pre', this') ∧ Chosen a n bs pre' this' := by
  induction qs generalizing ps pre this k fuel with
  | nil =>
      obtain ⟨fuel, rfl⟩ : ∃ f, fuel = f + 1 := ⟨fuel - 1, by simp at hfuel; omega⟩
      exact ⟨pre, this, by simp [fitLoop, firstFree], hchosen⟩
  | cons q qs ih =>
      have hbs' : bs = (ps ++ [q]) ++ qs := by simp [hbs]
      rw [List.length_cons] at hfuel
      by_cases hq : q.IsFree
      · obtain ⟨fuel, rfl⟩ : ∃ f, fuel = f + 1 := ⟨fuel - 1, by omega⟩
        obtain ⟨hsize, hnext⟩ := (hbs ▸ h).free_block hq
        have hne : a + total ps ≠ 0 := by omega
        rw [firstFree, if_pos hq, fitLoop, if_neg hne, hnext, hsize, ← lastFree_concat_free hq]
        split_ifs with hfit hdepth
        · refine ⟨_, _, rfl, ps, q, qs, hbs, hq, hfit.1, lastFree_concat_free hq, rfl⟩
        · refine ih hbs' ⟨ps, q, qs, hbs, hq, hfit.1, lastFree_concat_free hq, rfl⟩ (by omega)
        · exact ⟨pre, this, rfl, hchosen⟩
        · exact ih hbs' hchosen (by omega)
      · rw [firstFree_cons_used hq, ← lastFree_concat_used hq]
        exact ih hbs' hchosen (by omega)

theorem TilesIf.length_lt_walkFuel {nx : ℕ} (h : TilesIf G t m a bs nx)
    (hbound : a + total bs < 256 ^ t.word) : bs.length < walkFuel t := by
  have hlength := h.length_le
  rw [walkFuel]
  omega

theorem findLoop_chosen {fuel : ℕ} (h : TilesIf G t m a bs 0) (ha : 0 < a)
    (hbound : a + total bs < 256 ^ t.word) (hbs : bs = ps ++ qs) (hfuel : qs.length < fuel) :
    ∃ r, findLoop t m n fuel (lastFree a ps 0) (firstFree (a + total ps) qs 0) = some r ∧
      (∀ x ∈ r, Chosen a n bs x.1 x.2) ∧ (r = none → ∀ q ∈ qs, q.IsFree → q.size < n) := by
  induction qs generalizing ps fuel with
  | nil =>
      obtain ⟨fuel, rfl⟩ : ∃ f, fuel = f + 1 := ⟨fuel - 1, by simp at hfuel; omega⟩
      exact ⟨none, by simp [findLoop, firstFree], by simp, by simp⟩
  | cons q qs ih =>
      have hbs' : bs = (ps ++ [q]) ++ qs := by simp [hbs]
      rw [List.length_cons] at hfuel
      by_cases hq : q.IsFree
      · obtain ⟨fuel, rfl⟩ : ∃ f, fuel = f + 1 := ⟨fuel - 1, by omega⟩
        obtain ⟨hsize, hnext⟩ := (hbs ▸ h).free_block hq
        have hne : a + total ps ≠ 0 := by omega
        rw [firstFree, if_pos hq, findLoop, if_neg hne, hnext, hsize]
        split_ifs with hfit
        · have hchosen : Chosen a n bs (lastFree a ps 0) (a + total ps) :=
            ⟨ps, q, qs, hbs, hq, hfit, rfl, rfl⟩
          have hqs : qs.length < walkFuel t := by
            have hlt := h.length_lt_walkFuel hbound
            rw [hbs, List.length_append, List.length_cons] at hlt
            omega
          obtain ⟨pre', this', hloop, hchosen'⟩ :=
            fitLoop_chosen (k := 0) h ha hbs' hchosen hqs
          rw [lastFree_concat_free hq] at hloop
          exact ⟨some (pre', this'), by rw [hloop]; rfl, by simpa using hchosen', by simp⟩
        · rw [← lastFree_concat_free hq]
          have hfuel' : qs.length < fuel := by omega
          obtain ⟨r, hloop, hr, hnone⟩ := ih hbs' hfuel'
          exact ⟨r, hloop, hr, fun hr' ↦
            List.forall_mem_cons.mpr ⟨fun _ ↦ Nat.lt_of_not_le hfit, hnone hr'⟩⟩
      · rw [firstFree_cons_used hq, ← lastFree_concat_used hq]
        have hfuel' : qs.length < fuel := by omega
        obtain ⟨r, hloop, hr, hnone⟩ := ih hbs' hfuel'
        exact ⟨r, hloop, hr, fun hr' ↦
          List.forall_mem_cons.mpr ⟨fun hfree ↦ absurd hfree hq, hnone hr'⟩⟩

theorem neighbourLoop_eq {fuel block nx : ℕ} (h : TilesIf G t m a bs nx) (ha : 0 < a)
    (hblock : block = a + total bs) (hnx : nx = 0 ∨ block < nx) (hbs : bs = ps ++ qs)
    (hfuel : qs.length < fuel) :
    neighbourLoop t m block fuel (lastFree a ps 0) (firstFree (a + total ps) qs nx) =
      some (lastFree a bs 0, nx) := by
  induction qs generalizing ps fuel with
  | nil =>
      obtain ⟨fuel, rfl⟩ : ∃ f, fuel = f + 1 := ⟨fuel - 1, by simp at hfuel; omega⟩
      rw [List.append_nil] at hbs
      rw [neighbourLoop, firstFree, if_neg (by omega), hbs]
  | cons q qs ih =>
      have hbs' : bs = (ps ++ [q]) ++ qs := by simp [hbs]
      rw [List.length_cons] at hfuel
      by_cases hq : q.IsFree
      · obtain ⟨fuel, rfl⟩ : ∃ f, fuel = f + 1 := ⟨fuel - 1, by omega⟩
        obtain ⟨-, hnext⟩ := (hbs ▸ h).free_block hq
        have hroom : 2 * t.word ≤ q.size := h.room (by simp [hbs])
        have hword := t.word_pos
        have hbehind : a + total ps ≠ 0 ∧ a + total ps < block := by
          rw [hblock, hbs, total_append, total_cons]
          omega
        rw [firstFree, if_pos hq, neighbourLoop, if_pos hbehind, hnext, ← lastFree_concat_free hq]
        exact ih hbs' (by omega)
      · rw [firstFree_cons_used hq, ← lastFree_concat_used hq]
        exact ih hbs' (by omega)

end TuyaOpen.MemHeap
