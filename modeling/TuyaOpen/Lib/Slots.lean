import Mathlib.Data.List.Pairwise
import Mathlib.Data.Nat.Notation

/-!
# Tables of slots

A table is a list whose slots are replaced, and never moved.
-/

namespace Slots

variable {α : Type*}

/-- Where one element at most meets a condition, replacing the first is replacing all. -/
theorem set_eq_map {l : List α} {p : α → Prop} [DecidablePred p] {idx : ℕ} {a : α}
    (ha : l[idx]? = some a) (hp : p a) (hunique : l.Pairwise fun x y ↦ ¬(p x ∧ p y)) (z : α) :
    l.set idx z = l.map fun x ↦ if p x then z else x := by
  induction l generalizing idx with
  | nil => cases ha
  | cons x l ih =>
      obtain ⟨hx, hl⟩ := List.pairwise_cons.mp hunique
      cases idx with
      | zero =>
          cases ha
          have hrest : l.map (fun x ↦ if p x then z else x) = l := by
            refine (List.map_congr_left fun y hy ↦ ?_).trans (List.map_id l)
            exact if_neg fun hpy ↦ hx y hy ⟨hp, hpy⟩
          rw [List.set_cons_zero, List.map_cons, if_pos hp, hrest]
      | succ idx =>
          have hmem : a ∈ l := List.mem_of_getElem? ha
          have hnot : ¬p x := fun hpx ↦ hx a hmem ⟨hpx, hp⟩
          rw [List.set_cons_succ, List.map_cons, if_neg hnot, ih ha hl]

theorem pairwise_set {l : List α} {R : α → α → Prop} (h : l.Pairwise R) {x : α}
    (hleft : ∀ a ∈ l, R a x) (hright : ∀ a ∈ l, R x a) (idx : ℕ) : (l.set idx x).Pairwise R := by
  induction l generalizing idx with
  | nil => exact h
  | cons a l ih =>
      obtain ⟨ha, hl⟩ := List.pairwise_cons.mp h
      cases idx with
      | zero => exact List.pairwise_cons.mpr ⟨fun b hb ↦ hright b (List.mem_cons_of_mem a hb), hl⟩
      | succ idx =>
          have hrest := ih hl (fun b hb ↦ hleft b (List.mem_cons_of_mem a hb))
            (fun b hb ↦ hright b (List.mem_cons_of_mem a hb)) idx
          refine List.pairwise_cons.mpr ⟨fun b hb ↦ ?_, hrest⟩
          rcases List.mem_or_eq_of_mem_set hb with hb | rfl
          · exact ha b hb
          · exact hleft a List.mem_cons_self

theorem slot_of_findIdx? {l : List α} {p : α → Bool} {idx : ℕ} (h : l.findIdx? p = some idx) :
    ∃ a, l[idx]? = some a ∧ p a = true := by
  obtain ⟨hlt, hp, -⟩ := List.findIdx?_eq_some_iff_getElem.mp h
  exact ⟨l[idx], List.getElem?_eq_getElem hlt, hp⟩

/-- Of the slots that meet a condition there is one more, or as many. -/
theorem countP_set_of_not {l : List α} {p : α → Bool} {idx : ℕ} {a : α} (ha : l[idx]? = some a)
    (hp : p a = false) (z : α) :
    (l.set idx z).countP p = l.countP p + if p z = true then 1 else 0 := by
  obtain ⟨hlt, rfl⟩ := List.getElem?_eq_some_iff.mp ha
  rw [List.countP_set hlt, hp]
  rfl

/-- There is one less. -/
theorem countP_set_of_pos {l : List α} {p : α → Bool} {idx : ℕ} {a z : α} (ha : l[idx]? = some a)
    (hp : p a = true) (hz : p z = false) : (l.set idx z).countP p + 1 = l.countP p := by
  obtain ⟨hlt, rfl⟩ := List.getElem?_eq_some_iff.mp ha
  have hpos : 0 < l.countP p := List.countP_pos_iff.mpr ⟨l[idx], List.getElem_mem hlt, hp⟩
  rw [List.countP_set hlt, hp, hz]
  simp only [if_true, Bool.false_eq_true, if_false]
  omega

end Slots
