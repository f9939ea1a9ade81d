import Mathlib.Data.List.Nodup
import Mathlib.Logic.Function.Basic

/-!
# Requests that wait for an answer

Requests have numbers in the order of their calls.  A caller puts its request into a list, where the
request is then accepted, and an answer takes it out of the list.  What is said of each request,
`P`, is a parameter, so that what changes it is a step of its own.
-/

/-- The list holds the requests that were accepted and not answered, each once; those of the callers
are not accepted yet. -/
structure Pending {α ι : Type*} (number : α → ℕ) (P : α → Prop) (list : List α)
    (calls : ι → Option α) (count : ℕ) (accepted answered : List ℕ) : Prop where
  entries : ∀ a ∈ list, P a
  calling : ∀ t a, calls t = some a → P a ∧ number a < count ∧ number a ∉ accepted
  distinct : ∀ t t' a a', calls t = some a → calls t' = some a' → number a = number a' → t = t'
  nodup : (list.map number).Nodup
  waits : ∀ n, n ∈ list.map number ↔ n ∈ accepted ∧ n ∉ answered
  answeredNodup : answered.Nodup
  answeredAccepted : ∀ n ∈ answered, n ∈ accepted
  acceptedLt : ∀ n ∈ accepted, n < count

namespace Pending

variable {α ι : Type*} {number : α → ℕ} {P Q : α → Prop} {list pre post : List α}
  {calls : ι → Option α} {count : ℕ} {accepted answered : List ℕ} {a : α}

theorem nil (number : α → ℕ) (P : α → Prop) :
    Pending number P [] (fun _ : ι ↦ none) 0 [] [] where
  entries a ha := absurd ha List.not_mem_nil
  calling t a ha := by cases ha
  distinct t t' a a' ha := by cases ha
  nodup := List.nodup_nil
  waits n := iff_of_false List.not_mem_nil fun hn ↦ List.not_mem_nil hn.1
  answeredNodup := List.nodup_nil
  answeredAccepted n hn := absurd hn List.not_mem_nil
  acceptedLt n hn := absurd hn List.not_mem_nil

theorem imp (h : Pending number P list calls count accepted answered) (hPQ : ∀ a, P a → Q a) :
    Pending number Q list calls count accepted answered :=
  { h with
    entries := fun a ha ↦ hPQ a (h.entries a ha)
    calling := fun t a ha ↦ ⟨hPQ a (h.calling t a ha).1, (h.calling t a ha).2⟩ }

theorem later (h : Pending number P list calls count accepted answered) {count' : ℕ}
    (hcount : count ≤ count') : Pending number P list calls count' accepted answered :=
  { h with
    calling := fun t a ha ↦
      ⟨(h.calling t a ha).1, Nat.lt_of_lt_of_le (h.calling t a ha).2.1 hcount,
        (h.calling t a ha).2.2⟩
    acceptedLt := fun n hn ↦ Nat.lt_of_lt_of_le (h.acceptedLt n hn) hcount }

/-- A request that is in the list waits. -/
theorem waits_of_mem (h : Pending number P list calls count accepted answered) (ha : a ∈ list) :
    number a ∈ accepted ∧ number a ∉ answered :=
  (h.waits (number a)).mp (List.mem_map_of_mem ha)

theorem exists_of_waits (h : Pending number P list calls count accepted answered) {n : ℕ}
    (hacc : n ∈ accepted) (hnot : n ∉ answered) : ∃ a ∈ list, number a = n :=
  List.mem_map.mp ((h.waits n).mpr ⟨hacc, hnot⟩)

/-- A request is accepted behind its call. -/
theorem accept (h : Pending number P list calls count accepted answered) (ha : P a)
    (hlt : number a < count) (hnew : number a ∉ accepted)
    (hcalls : ∀ t a', calls t = some a' → number a' ≠ number a) :
    Pending number P (list ++ [a]) calls count (accepted ++ [number a]) answered where
  entries a' ha' := by
    rcases List.mem_append.mp ha' with hin | hin
    · exact h.entries a' hin
    · rw [List.mem_singleton.mp hin]
      exact ha
  calling t a' ha' := by
    obtain ⟨hP, hlt', hnot⟩ := h.calling t a' ha'
    refine ⟨hP, hlt', fun hin ↦ ?_⟩
    rcases List.mem_append.mp hin with hin | hin
    · exact hnot hin
    · exact hcalls t a' ha' (List.mem_singleton.mp hin)
  distinct := h.distinct
  nodup := by
    rw [List.map_append, List.nodup_append]
    refine ⟨h.nodup, List.nodup_singleton _, ?_⟩
    intro n hn n' hn' heq
    rw [List.map_singleton, List.mem_singleton] at hn'
    exact hnew (hn' ▸ heq ▸ ((h.waits n).mp hn).1)
  waits n := by
    rw [List.map_append, List.map_singleton, List.mem_append, List.mem_singleton, h.waits]
    have hanswered : number a ∉ answered := fun hin ↦ hnew (h.answeredAccepted _ hin)
    constructor
    · rintro (⟨hacc, hnot⟩ | rfl)
      · exact ⟨List.mem_append_left _ hacc, hnot⟩
      · exact ⟨List.mem_append_right _ List.mem_cons_self, hanswered⟩
    · rintro ⟨hacc, hnot⟩
      rcases List.mem_append.mp hacc with hacc | hacc
      · exact .inl ⟨hacc, hnot⟩
      · exact .inr (List.mem_singleton.mp hacc)
  answeredNodup := h.answeredNodup
  answeredAccepted n hn := List.mem_append_left _ (h.answeredAccepted n hn)
  acceptedLt n hn := by
    rcases List.mem_append.mp hn with hn | hn
    · exact h.acceptedLt n hn
    · rw [List.mem_singleton.mp hn]
      exact hlt

/-- A request is accepted at once. -/
theorem acceptNew (h : Pending number P list calls count accepted answered) (ha : P a)
    (hnumber : number a = count) :
    Pending number P (list ++ [a]) calls (count + 1) (accepted ++ [number a]) answered := by
  apply (h.later (Nat.le_succ count)).accept ha
  · exact hnumber ▸ Nat.lt_succ_self count
  · intro hin
    exact absurd (h.acceptedLt _ hin) (hnumber ▸ Nat.lt_irrefl count)
  · intro t a' ha' heq
    exact absurd (h.calling t a' ha').2.1 (heq ▸ hnumber ▸ Nat.lt_irrefl count)

/-- A request is answered. -/
theorem answer (h : Pending number P (pre ++ a :: post) calls count accepted answered) :
    Pending number P (pre ++ post) calls count accepted (answered ++ [number a]) := by
  have hwaits := h.waits_of_mem (List.mem_append_right pre List.mem_cons_self)
  have hsub : (pre ++ post).Sublist (pre ++ a :: post) :=
    (List.sublist_cons_self a post).append_left pre
  have hnodup := h.nodup
  rw [List.map_append, List.map_cons, List.nodup_middle, List.nodup_cons,
    ← List.map_append] at hnodup
  refine
    { h with
      entries := fun a' ha' ↦ h.entries a' (hsub.subset ha')
      nodup := hnodup.2
      waits := ?_
      answeredNodup := ?_
      answeredAccepted := ?_ }
  · intro n
    have hn := h.waits n
    rw [List.map_append, List.map_cons, List.mem_append, List.mem_cons] at hn
    rw [List.mem_append, List.mem_singleton]
    by_cases heq : n = number a
    · rw [heq]
      exact iff_of_false hnodup.1 fun hnot ↦ hnot.2 (.inr rfl)
    · rw [List.map_append, List.mem_append]
      simp only [heq, false_or, or_false] at hn ⊢
      exact hn
  · rw [List.nodup_append]
    refine ⟨h.answeredNodup, List.nodup_singleton _, ?_⟩
    intro n hn n' hn' heq
    exact hwaits.2 (List.mem_singleton.mp hn' ▸ heq ▸ hn)
  · intro n hn
    rcases List.mem_append.mp hn with hn | hn
    · exact h.answeredAccepted n hn
    · rw [List.mem_singleton.mp hn]
      exact hwaits.1

/-- A request in the list changes. -/
theorem replace (h : Pending number P (pre ++ a :: post) calls count accepted answered) {a' : α}
    (ha' : P a') (hnumber : number a' = number a) :
    Pending number P (pre ++ a' :: post) calls count accepted answered := by
  have hmap : (pre ++ a' :: post).map number = (pre ++ a :: post).map number := by simp [hnumber]
  refine { h with entries := ?_, nodup := hmap ▸ h.nodup, waits := fun n ↦ hmap ▸ h.waits n }
  intro b hb
  rcases List.mem_append.mp hb with hin | hin
  · exact h.entries b (List.mem_append_left _ hin)
  · rcases List.mem_cons.mp hin with rfl | hin
    · exact ha'
    · exact h.entries b (List.mem_append_right pre (List.mem_cons_of_mem a hin))

section Calls

variable [DecidableEq ι]

/-- A caller begins, with the next number. -/
theorem call (h : Pending number P list calls count accepted answered) (t : ι) (ha : P a)
    (hnumber : number a = count) :
    Pending number P list (Function.update calls t (some a)) (count + 1) accepted answered := by
  have hfresh : ∀ t' a', calls t' = some a' → number a' ≠ number a := by
    intro t' a' ha' heq
    exact absurd (h.calling t' a' ha').2.1 (heq ▸ hnumber ▸ Nat.lt_irrefl count)
  refine
    { h with
      calling := ?_
      distinct := ?_
      acceptedLt := fun n hn ↦ Nat.lt_succ_of_lt (h.acceptedLt n hn) }
  · intro t' a' ha'
    by_cases ht : t' = t
    · rw [ht, Function.update_self] at ha'
      obtain rfl := Option.some.inj ha'
      refine ⟨ha, hnumber ▸ Nat.lt_succ_self count, fun hin ↦ ?_⟩
      exact absurd (h.acceptedLt _ hin) (hnumber ▸ Nat.lt_irrefl count)
    · rw [Function.update_of_ne ht] at ha'
      obtain ⟨hP, hlt, hnot⟩ := h.calling t' a' ha'
      exact ⟨hP, Nat.lt_succ_of_lt hlt, hnot⟩
  · intro t₁ t₂ a₁ a₂ ha₁ ha₂ heq
    by_cases ht₁ : t₁ = t
    · by_cases ht₂ : t₂ = t
      · exact ht₁.trans ht₂.symm
      · rw [ht₁, Function.update_self] at ha₁
        rw [Function.update_of_ne ht₂] at ha₂
        obtain rfl := Option.some.inj ha₁
        exact absurd heq.symm (hfresh t₂ a₂ ha₂)
    · rw [Function.update_of_ne ht₁] at ha₁
      by_cases ht₂ : t₂ = t
      · rw [ht₂, Function.update_self] at ha₂
        obtain rfl := Option.some.inj ha₂
        exact absurd heq (hfresh t₁ a₁ ha₁)
      · rw [Function.update_of_ne ht₂] at ha₂
        exact h.distinct t₁ t₂ a₁ a₂ ha₁ ha₂ heq

/-- A caller puts its request into the list. -/
theorem acceptCall (h : Pending number P list calls count accepted answered) {t : ι}
    (hcall : calls t = some a) :
    Pending number P (list ++ [a]) (Function.update calls t none) count (accepted ++ [number a])
      answered := by
  have hrest : ∀ t' a', Function.update calls t none t' = some a' →
      t' ≠ t ∧ calls t' = some a' := by
    intro t' a' ha'
    by_cases ht : t' = t
    · rw [ht, Function.update_self] at ha'
      cases ha'
    · rw [Function.update_of_ne ht] at ha'
      exact ⟨ht, ha'⟩
  have hcleared : Pending number P list (Function.update calls t none) count accepted answered :=
    { h with
      calling := fun t' a' ha' ↦ h.calling t' a' (hrest t' a' ha').2
      distinct := fun t₁ t₂ a₁ a₂ ha₁ ha₂ ↦
        h.distinct t₁ t₂ a₁ a₂ (hrest t₁ a₁ ha₁).2 (hrest t₂ a₂ ha₂).2 }
  obtain ⟨hP, hlt, hnew⟩ := h.calling t a hcall
  apply hcleared.accept hP hlt hnew
  intro t' a' ha' heq
  exact (hrest t' a' ha').1 (h.distinct t' t a' a (hrest t' a' ha').2 hcall heq)

end Calls

end Pending
