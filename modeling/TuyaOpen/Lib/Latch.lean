import Mathlib.Data.List.Chain
import Mathlib.Data.Nat.Notation

/-!
# Alarms that are polled

Time is divided into slots.  An alarm is due in some of them, and all of these carry its label.  A
poll looks at the slot twice: the first look fires an alarm that is due and open, which closes it,
and the second one opens it again where its label is gone.
-/

namespace Latch

/-- A poll, with the slot at each look; the second one may be left out where the alarm fires. -/
structure Poll where
  first : ℕ
  later : ℕ
  skips : Bool

/-- The slots come one after another, and no poll is more than a slot behind the one before. -/
def Follows (a b : Poll) : Prop := a.first ≤ a.later ∧ a.later ≤ b.first ∧ b.first ≤ a.first + 1

section

variable (due label : ℕ → Prop) [DecidablePred due] [DecidablePred label]

/-- Whether the alarm is closed behind a poll. -/
@[grind =] def closes (closed : Bool) (poll : Poll) : Bool :=
  if closed = false ∧ due poll.first then poll.skips || decide (label poll.later)
  else closed && decide (label poll.later)

/-- The slots it fires in. -/
def fires : Bool → List Poll → List ℕ
  | _, [] => []
  | closed, poll :: rest =>
      if closed = false ∧ due poll.first then
        poll.first :: fires (closes due label closed poll) rest
      else fires (closes due label closed poll) rest

/-- A closed alarm has its label in the slot, or had it in the one before. -/
def Settled (closed : Bool) (slot : ℕ) : Prop :=
  closed = true → label slot ∨ ∃ k, slot = k + 1 ∧ label k

/-- The label is nowhere twice within three slots. -/
def Rare : Prop := ∀ k, label k → ¬label (k + 1) ∧ ¬label (k + 2)

variable {due label}

theorem settled_closes (hdue : ∀ k, due k → label k) {closed : Bool} {a b : Poll}
    (hfollows : Follows a b) : Settled label (closes due label closed a) b.first := by
  obtain ⟨hlater, hnext, hslot⟩ := hfollows
  have hstep : label a.first → label b.first ∨ ∃ k, b.first = k + 1 ∧ label k := by
    intro hlabel
    rcases Nat.eq_or_lt_of_le (hlater.trans hnext) with heq | hlt
    · exact Or.inl (heq ▸ hlabel)
    · exact Or.inr ⟨a.first, by omega, hlabel⟩
  intro hcloses
  unfold closes at hcloses
  by_cases hfires : closed = false ∧ due a.first
  · exact hstep (hdue _ hfires.2)
  · rw [if_neg hfires, Bool.and_eq_true, decide_eq_true_eq] at hcloses
    rcases Nat.eq_or_lt_of_le hlater with heq | hlt
    · exact hstep (heq.symm ▸ hcloses.2)
    · exact Or.inl ((show a.later = b.first by omega) ▸ hcloses.2)

/-- Where the next poll is in the same slot, an alarm that is due is closed behind the poll. -/
theorem closes_of_same {closed : Bool} {a b : Poll} (hfollows : Follows a b)
    (hsame : b.first = a.first) (hdue : due a.first) (hlabel : label a.first) :
    closes due label closed a = true := by
  have hlater : a.later = a.first := Nat.le_antisymm (hfollows.2.1.trans_eq hsame) hfollows.1
  unfold closes
  split_ifs with hfires
  · simp [hlater, hlabel]
  · have hclosed : closed = true := by simpa [hdue] using hfires
    simp [hclosed, hlater, hlabel]

/-- Where the next poll is in another slot, an alarm that is due there is open behind the poll. -/
theorem opens_of_next (hlabel : ∀ k, due k → label k) (hrare : Rare label) {closed : Bool}
    {a b : Poll} (hfollows : Follows a b) (hsettled : Settled label closed a.first)
    (hne : b.first ≠ a.first) (hdue : due b.first) : closes due label closed a = false := by
  obtain ⟨hlater, hnext, hslot⟩ := hfollows
  have hb : b.first = a.first + 1 := by omega
  have hbefore : ¬label a.first := fun h ↦ (hrare _ h).1 (hb ▸ hlabel _ hdue)
  unfold closes
  rw [if_neg fun h ↦ hbefore (hlabel _ h.2)]
  cases closed with
  | false => rfl
  | true =>
      rcases hsettled rfl with h | ⟨k, hk, h⟩
      · exact absurd h hbefore
      · exact absurd (hlabel _ hdue) (by rw [hb, hk]; exact (hrare k h).2)

omit [DecidablePred due] [DecidablePred label] in
theorem first_le_last {poll : Poll} {rest : List Poll} (hfollows : (poll :: rest).IsChain Follows) :
    poll.first ≤ ((poll :: rest).getLast (by simp)).first := by
  induction rest generalizing poll with
  | nil => exact Nat.le_refl _
  | cons next rest ih =>
      obtain ⟨hnext, hrest⟩ := List.isChain_cons_cons.mp hfollows
      rw [List.getLast_cons_cons]
      exact (hnext.1.trans hnext.2.1).trans (ih hrest)

theorem count_fires_cons (closed : Bool) (slot : ℕ) (poll : Poll) (rest : List Poll) :
    (fires due label closed (poll :: rest)).count slot =
      (fires due label (closes due label closed poll) rest).count slot +
        if closed = false ∧ due poll.first ∧ poll.first = slot then 1 else 0 := by
  rw [fires]
  by_cases hfires : closed = false ∧ due poll.first
  · simp [hfires, List.count_cons]
  · rw [if_neg hfires, if_neg fun h ↦ hfires ⟨h.1, h.2.1⟩]
    rfl

/-- The alarm fires once in each slot it is due in, from the first poll to the last, and in no
other, unless it is closed in the first slot from the start. -/
theorem count_fires (hlabel : ∀ k, due k → label k) (hrare : Rare label) (slot : ℕ) {poll : Poll}
    {rest : List Poll} (hfollows : (poll :: rest).IsChain Follows) {closed : Bool}
    (hsettled : Settled label closed poll.first) :
    (fires due label closed (poll :: rest)).count slot =
      if due slot ∧ poll.first ≤ slot ∧ slot ≤ ((poll :: rest).getLast (by simp)).first ∧
        ¬(closed = true ∧ slot = poll.first) then 1 else 0 := by
  induction rest generalizing poll closed with
  | nil =>
      rw [count_fires_cons, fires, List.count_nil, Nat.zero_add, List.getLast_singleton]
      refine if_congr ?_ rfl rfl
      constructor
      · rintro ⟨hopen, hdue, rfl⟩
        exact ⟨hdue, Nat.le_refl _, Nat.le_refl _, fun h ↦ by simp [hopen] at h⟩
      · rintro ⟨hdue, hle, hge, hopen⟩
        obtain rfl := Nat.le_antisymm hle hge
        exact ⟨by simpa using hopen, hdue, rfl⟩
  | cons next rest ih =>
      obtain ⟨hnext, hrest⟩ := List.isChain_cons_cons.mp hfollows
      have hlast := first_le_last hrest
      have hfirst := hnext.1.trans hnext.2.1
      rw [count_fires_cons, ih hrest (settled_closes hlabel hnext), List.getLast_cons_cons]
      by_cases hslot : slot = poll.first
      · subst hslot
        -- it does not fire a second time in the slot
        rw [if_neg, Nat.zero_add]
        · refine if_congr ?_ rfl rfl
          simp [hfirst.trans hlast, and_comm]
        · rintro ⟨hdue, hle, -, hopen⟩
          have hsame := Nat.le_antisymm hle hfirst
          exact hopen ⟨closes_of_same hnext hsame hdue (hlabel _ hdue), hsame.symm⟩
      · rw [if_neg (show ¬(closed = false ∧ due poll.first ∧ poll.first = slot) from
          fun h ↦ hslot h.2.2.symm), Nat.add_zero]
        refine if_congr ?_ rfl rfl
        have hslots : next.first ≤ slot ↔ poll.first ≤ slot := by
          have := hnext.2.2
          omega
        simp only [hslots, hslot, and_false, not_false_eq_true, and_true]
        refine and_congr_right fun hdue ↦ and_congr_right fun _ ↦ and_iff_left ?_
        rintro ⟨hcloses, rfl⟩
        simp [opens_of_next hlabel hrare hnext hsettled hslot hdue] at hcloses

end

end Latch
