import Mathlib.Data.List.Basic
import Mathlib.Data.Nat.Notation
import Mathlib.Logic.Function.Basic

/-!
# Circular doubly linked lists

Nodes are linked by two maps.  A ring runs from its head through a list of
other nodes and back to the head; in it both maps agree and no node stands
twice.
-/

structure Links (ν : Type*) where
  next : ν → ν
  prev : ν → ν

namespace Links

variable {ν : Type*}

/-- From `a` the links lead through `xs` to `b`, and back. -/
def Seg (L : Links ν) (a : ν) : List ν → ν → Prop
  | [], b => L.next a = b ∧ L.prev b = a
  | x :: xs, b => L.next a = x ∧ L.prev x = a ∧ L.Seg x xs b

/-- The nodes `xs` stand in the ring of the head `h`. -/
def Ring (L : Links ν) (h : ν) (xs : List ν) : Prop := (h :: xs).Nodup ∧ L.Seg h xs h

variable {L L' : Links ν} {a b h n x : ν} {xs ys : List ν}

theorem Seg.congr (hseg : L.Seg a xs b) (hnext : ∀ c ∈ a :: xs, L'.next c = L.next c)
    (hprev : ∀ c ∈ xs ++ [b], L'.prev c = L.prev c) : L'.Seg a xs b := by
  induction xs generalizing a with
  | nil => exact ⟨(hnext a (by simp)).trans hseg.1, (hprev b (by simp)).trans hseg.2⟩
  | cons x xs ih =>
      obtain ⟨hax, hxa, hrest⟩ := hseg
      refine ⟨(hnext a (by simp)).trans hax, (hprev x (by simp)).trans hxa, ?_⟩
      apply ih hrest
      · exact fun c hc ↦ hnext c (List.mem_cons_of_mem a hc)
      · exact fun c hc ↦ hprev c (List.mem_cons_of_mem x hc)

theorem seg_append_cons :
    L.Seg a (xs ++ x :: ys) b ↔ L.Seg a xs x ∧ L.Seg x ys b := by
  induction xs generalizing a with
  | nil => exact and_assoc.symm
  | cons y xs ih => simp [Seg, ih, and_assoc]

theorem Seg.next_eq (hseg : L.Seg a xs b) : L.next a = xs.headD b := by
  cases xs with
  | nil => exact hseg.1
  | cons x xs => exact hseg.1

theorem Ring.next_head (hr : L.Ring h xs) : L.next h = xs.headD h := hr.2.next_eq

theorem Ring.next_node (hr : L.Ring h (xs ++ x :: ys)) : L.next x = ys.headD h :=
  (seg_append_cons.mp hr.2).2.next_eq

theorem nodup_insert (hnodup : (h :: (xs ++ ys)).Nodup) (hn : n ∉ h :: (xs ++ ys)) :
    (h :: (xs ++ n :: ys)).Nodup := by
  have hperm : (h :: (xs ++ n :: ys)).Perm (n :: h :: (xs ++ ys)) :=
    (List.perm_middle.cons h).trans (List.Perm.swap n h _)
  exact hperm.nodup_iff.mpr (List.nodup_cons.mpr ⟨hn, hnodup⟩)

variable [DecidableEq ν]

@[grind =] def setNext (L : Links ν) (a b : ν) :
    Links ν := { L with next := Function.update L.next a b }

def setPrev (L : Links ν) (a b : ν) : Links ν := { L with prev := Function.update L.prev a b }

/-- The nodes from `p` on that the links lead through before the head. -/
def walk (L : Links ν) (h : ν) : ℕ → ν → List ν
  | 0, _ => []
  | k + 1, p => if p = h then [] else p :: L.walk h k (L.next p)

/-- Link `new` between `pre` and `nxt`. -/
def insert (L : Links ν) (new pre nxt : ν) : Links ν :=
  (((L.setPrev nxt new).setNext new nxt).setPrev new pre).setNext pre new

/-- Link `pre` to `nxt`. -/
def bridge (L : Links ν) (pre nxt : ν) : Links ν := (L.setPrev nxt pre).setNext pre nxt

theorem Seg.walk_eq {k : ℕ} (hseg : L.Seg a xs h) (hh : h ∉ xs) (hk : xs.length ≤ k) :
    L.walk h k (L.next a) = xs := by
  induction xs generalizing a k with
  | nil =>
      rw [hseg.1]
      cases k with
      | zero => rfl
      | succ k => rw [walk, if_pos rfl]
  | cons x xs ih =>
      obtain ⟨k, rfl⟩ : ∃ j, k = j + 1 := ⟨k - 1, by simp at hk; omega⟩
      rw [List.mem_cons, not_or] at hh
      rw [List.length_cons] at hk
      have hrest := ih hseg.2.2 hh.2 (Nat.le_of_succ_le_succ hk)
      rw [hseg.1, walk, if_neg (Ne.symm hh.1), hrest]

theorem Ring.walk_eq {k : ℕ} (hr : L.Ring h xs) (hk : xs.length ≤ k) :
    L.walk h k (L.next h) = xs :=
  hr.2.walk_eq (List.nodup_cons.mp hr.1).1 hk

theorem ring_init (L : Links ν) (h : ν) : ((L.setNext h h).setPrev h h).Ring h [] := by
  refine ⟨List.nodup_cons.mpr ⟨List.not_mem_nil, List.nodup_nil⟩, ?_, ?_⟩
  · exact Function.update_self ..
  · exact Function.update_self ..

theorem insert_next_of_ne {c pre nxt : ν} (hn : c ≠ n) (hpre : c ≠ pre) :
    (L.insert n pre nxt).next c = L.next c := by
  simp [insert, setNext, setPrev, hn, hpre]

theorem insert_prev_of_ne {c pre nxt : ν} (hn : c ≠ n) (hnxt : c ≠ nxt) :
    (L.insert n pre nxt).prev c = L.prev c := by
  simp [insert, setNext, setPrev, hn, hnxt]

theorem insert_seg {pre nxt : ν} (hpre : n ≠ pre) (hnxt : n ≠ nxt) :
    (L.insert n pre nxt).Seg pre [n] nxt := by
  refine ⟨?_, ?_, ?_, ?_⟩
  · simp [insert, setNext]
  · simp [insert, setNext, setPrev]
  · simp [insert, setNext, setPrev, hpre]
  · simp [insert, setNext, setPrev, hnxt.symm]

theorem Ring.insert_front (hr : L.Ring h xs) (hn : n ∉ h :: xs) :
    (L.insert n h (L.next h)).Ring h (n :: xs) := by
  obtain ⟨hnodup, hseg⟩ := hr
  refine ⟨@nodup_insert ν h n [] xs hnodup hn, ?_⟩
  rw [List.mem_cons, not_or] at hn
  rw [List.nodup_cons] at hnodup
  cases xs with
  | nil =>
      rw [hseg.1]
      exact insert_seg hn.1 hn.1
  | cons x xs =>
      obtain ⟨hnext, hprev, hrest⟩ := hseg
      rw [hnext]
      have hnx : n ≠ x := fun heq ↦ hn.2 (heq ▸ List.mem_cons_self)
      change (L.insert n h x).Seg h ([n] ++ x :: xs) h
      apply seg_append_cons.mpr
      refine ⟨insert_seg hn.1 hnx, hrest.congr (fun c hc ↦ ?_) fun c hc ↦ ?_⟩
      · apply insert_next_of_ne
        · rintro rfl
          exact hn.2 hc
        · rintro rfl
          exact hnodup.1 hc
      · rw [List.mem_append, List.mem_singleton] at hc
        apply insert_prev_of_ne
        · rintro rfl
          exact hc.elim (fun hmem ↦ hn.2 (List.mem_cons_of_mem x hmem)) hn.1
        · rintro rfl
          refine hc.elim (List.nodup_cons.mp hnodup.2).1 fun heq ↦ hnodup.1 ?_
          exact heq ▸ List.mem_cons_self

theorem Ring.insert_back (hr : L.Ring h xs) (hn : n ∉ h :: xs) :
    (L.insert n (L.prev h) h).Ring h (xs ++ [n]) := by
  obtain ⟨hnodup, hseg⟩ := hr
  rw [← List.append_nil xs] at hnodup hn
  refine ⟨nodup_insert hnodup hn, ?_⟩
  rw [List.append_nil] at hnodup hn
  rw [List.mem_cons, not_or] at hn
  rw [List.nodup_cons] at hnodup
  rcases List.eq_nil_or_concat xs with rfl | ⟨ys, y, rfl⟩
  · rw [hseg.2]
    exact insert_seg hn.1 hn.1
  · rw [List.concat_eq_append] at hseg hn hnodup ⊢
    obtain ⟨hfront, hnext, hprev⟩ := seg_append_cons.mp hseg
    have hny : n ≠ y := fun heq ↦ hn.2 (by simp [heq])
    have hyh : y ≠ h := fun heq ↦ hnodup.1 (by simp [heq])
    rw [hprev, List.append_assoc]
    apply seg_append_cons.mpr
    refine ⟨hfront.congr (fun c hc ↦ ?_) fun c hc ↦ ?_, insert_seg hny hn.1⟩
    · have hcy : c ≠ y := by
        rintro rfl
        rcases List.mem_cons.mp hc with rfl | hmem
        · exact hyh rfl
        · exact (List.nodup_append.mp hnodup.2).2.2 c hmem c (by simp) rfl
      apply insert_next_of_ne _ hcy
      rintro rfl
      rcases List.mem_cons.mp hc with rfl | hmem
      · exact hn.1 rfl
      · exact hn.2 (List.mem_append_left _ hmem)
    · apply insert_prev_of_ne
      · rintro rfl
        exact hn.2 hc
      · rintro rfl
        exact hnodup.1 hc

theorem Ring.bridge_front (hr : L.Ring h (x :: xs)) :
    (L.bridge (L.prev x) (L.next x)).Ring h xs := by
  obtain ⟨hnodup, hhx, hxh, hrest⟩ := hr
  have hnodup' : (h :: xs).Nodup := hnodup.sublist ((List.sublist_cons_self x xs).cons_cons h)
  refine ⟨hnodup', ?_⟩
  rw [List.nodup_cons] at hnodup'
  rw [hxh]
  cases xs with
  | nil =>
      rw [hrest.1]
      refine ⟨?_, ?_⟩
      · simp [bridge, setNext]
      · simp [bridge, setNext, setPrev]
  | cons y ys =>
      obtain ⟨hxy, hyx, htail⟩ := hrest
      rw [hxy]
      refine ⟨?_, ?_, htail.congr (fun c hc ↦ ?_) fun c hc ↦ ?_⟩
      · simp [bridge, setNext]
      · simp [bridge, setNext, setPrev]
      · have hch : c ≠ h := by
          rintro rfl
          exact hnodup'.1 hc
        simp [bridge, setNext, setPrev, hch]
      · have hcy : c ≠ y := by
          rintro rfl
          rw [List.mem_append, List.mem_singleton] at hc
          refine hc.elim (List.nodup_cons.mp hnodup'.2).1 fun heq ↦ hnodup'.1 ?_
          exact heq ▸ List.mem_cons_self
        simp [bridge, setNext, setPrev, hcy]

end Links
