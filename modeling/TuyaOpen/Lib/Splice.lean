import Mathlib.Data.List.Basic
import Mathlib.Logic.Function.Basic

/-!
# Buffers and blocks of bytes

## Copying into a buffer

`splice dst off src` is the buffer `dst` after `memcpy` of the whole of `src`
to offset `off`.  Everything about it follows from one pointwise equation.
-/

namespace List

variable {α : Type*}

/-- The buffer `dst` with `src` copied over it from position `off` on. -/
def splice (dst : List α) (off : ℕ) (src : List α) : List α :=
  dst.take off ++ src ++ dst.drop (off + src.length)

@[simp] theorem splice_nil (dst : List α) (off : ℕ) : dst.splice off [] = dst := by
  simp [splice]

@[simp] theorem length_splice {dst : List α} {off : ℕ} {src : List α}
    (h : off + src.length ≤ dst.length) : (dst.splice off src).length = dst.length := by
  simp only [splice, length_append, length_take, length_drop]
  omega

/-- Reading a spliced buffer: inside the copied range the source is seen,
outside it the old content. -/
theorem getD_splice {dst : List α} {off : ℕ} {src : List α}
    (h : off + src.length ≤ dst.length) (k : ℕ) (d : α) :
    (dst.splice off src).getD k d =
      if off ≤ k ∧ k < off + src.length then src.getD (k - off) d else dst.getD k d := by
  have htake : (dst.take off).length = off := by simp; omega
  simp only [splice, getD_eq_getElem?_getD, append_assoc, getElem?_append, htake,
    getElem?_take, getElem?_drop]
  split_ifs with h1 h2 h3 <;> first | rfl | omega | skip
  · congr 2
    omega

theorem take_splice {dst : List α} {off : ℕ} (h : off ≤ dst.length) (src : List α) :
    (dst.splice off src).take (off + src.length) = dst.take off ++ src := by
  have hlen : (dst.take off ++ src).length = off + src.length := by
    rw [length_append, length_take]
    omega
  rw [splice, take_append_of_le_length (Nat.le_of_eq hlen.symm)]
  exact take_of_length_le (Nat.le_of_eq hlen)

/-- One more element written behind the place of the first. -/
theorem splice_set {dst : List α} {off : ℕ} (h : off < dst.length) (a : α) (src : List α) :
    (dst.set off a).splice (off + 1) src = dst.splice off (a :: src) := by
  have htake : (dst.set off a).take (off + 1) = dst.take off ++ [a] := by
    rw [take_add_one, take_set, set_eq_of_length_le (by rw [length_take]; omega),
      getElem?_set_self h]
    rfl
  have hdrop : (dst.set off a).drop (off + 1 + src.length) =
      dst.drop (off + (a :: src).length) := by
    rw [drop_set_of_lt (by omega), length_cons, Nat.add_comm src.length 1, Nat.add_assoc]
  rw [splice, splice, htake, hdrop, append_cons (dst.take off) a src]

end List

/-!
## A heap of byte blocks

A heap maps addresses to live blocks.  Addresses are not used again, writing
outside of a live block and freeing a block that is not live are undefined.
-/

structure Blocks where
  next : ℕ
  block : ℕ → Option (List UInt8)

namespace Blocks

/-- The new block is at the address `h.next`. -/
def alloc (h : Blocks) (content : List UInt8) : Blocks where
  next := h.next + 1
  block := Function.update h.block h.next (some content)

def write (h : Blocks) (a off : ℕ) (bs : List UInt8) : Option Blocks :=
  match h.block a with
  | none => none
  | some content =>
      if off + bs.length ≤ content.length then
        some { h with block := Function.update h.block a (some (content.splice off bs)) }
      else none

def free (h : Blocks) (a : ℕ) : Option Blocks :=
  match h.block a with
  | none => none
  | some _ => some { h with block := Function.update h.block a none }

variable {h h' : Blocks} {a : ℕ}

@[simp] theorem alloc_block_self (h : Blocks) (content : List UInt8) :
    (h.alloc content).block h.next = some content :=
  Function.update_self ..

theorem alloc_block_of_ne (content : List UInt8) (ha : a ≠ h.next) :
    (h.alloc content).block a = h.block a :=
  Function.update_of_ne ha ..

theorem write_of_fits {off : ℕ} {bs content : List UInt8} (ha : h.block a = some content)
    (hfit : off + bs.length ≤ content.length) :
    h.write a off bs =
      some { h with block := Function.update h.block a (some (content.splice off bs)) } := by
  simp only [write, ha, if_pos hfit]

theorem free_of_live {content : List UInt8} (ha : h.block a = some content) :
    h.free a = some { h with block := Function.update h.block a none } := by
  simp only [free, ha]

end Blocks
