import Mathlib.Data.List.Find
import Mathlib.Data.List.Nodup
import Mathlib.Logic.Function.Basic

/-!
# Lists with keys

A list of records that are found by a key stands for a finite map, as long as the keys differ.
-/

namespace Keyed

variable {α κ : Type*} [DecidableEq κ] (key : α → κ)

/-- The map behind a list. -/
def lookup (xs : List α) (k : κ) : Option α := xs.find? fun x ↦ key x = k

/-- A record in the place of the first of a key. -/
def replace (k : κ) (y : α) : List α → List α
  | [] => []
  | x :: xs => if key x = k then y :: xs else x :: replace k y xs

/-- The first record of a key is changed where it stands. -/
@[grind =] def modify (k : κ) (f : α → α) : List α → List α
  | [] => []
  | x :: xs => if key x = k then f x :: xs else x :: modify k f xs

def Distinct (xs : List α) : Prop := (xs.map key).Nodup

instance (xs : List α) : Decidable (Distinct key xs) := inferInstanceAs (Decidable (List.Nodup _))

/-- The first record of a key is taken out. -/
def erase (k : κ) (xs : List α) : List α := xs.eraseP fun x ↦ key x = k

variable {key}
variable {xs : List α} {k : κ} {y : α}

@[simp] theorem lookup_nil (k : κ) : lookup key [] k = none := rfl

theorem lookup_cons (x : α) (xs : List α) (k : κ) :
    lookup key (x :: xs) k = if key x = k then some x else lookup key xs k := by
  by_cases h : key x = k <;> simp [lookup, h]

/-- Another test that agrees on the records takes out the same. -/
theorem eraseP_eq_erase {p : α → Bool} (h : ∀ x ∈ xs, p x = decide (key x = k)) :
    xs.eraseP p = erase key k xs := by
  induction xs with
  | nil => rfl
  | cons x xs ih =>
      rw [erase, List.eraseP_cons, List.eraseP_cons, h x List.mem_cons_self,
        ih fun y hy ↦ h y (List.mem_cons_of_mem x hy)]
      rfl

theorem mem_of_lookup (h : lookup key xs k = some y) : y ∈ xs ∧ key y = k :=
  ⟨List.mem_of_find?_eq_some h, by simpa using List.find?_some h⟩

theorem lookup_eq_none : lookup key xs k = none ↔ ∀ x ∈ xs, key x ≠ k := by
  simp [lookup]

theorem mem_erase_of_ne {x : α} (h : key x ≠ k) : x ∈ erase key k xs ↔ x ∈ xs := by
  apply List.mem_eraseP_of_neg
  simpa using h

theorem erase_of_lookup_eq_none (h : lookup key xs k = none) : erase key k xs = xs := by
  apply List.eraseP_of_forall_not
  intro x hx
  simpa using lookup_eq_none.mp h x hx

theorem lookup_replace (hy : key y = k) (h : (lookup key xs k).isSome) :
    lookup key (replace key k y xs) = Function.update (lookup key xs) k (some y) := by
  funext k'
  induction xs with
  | nil => simp at h
  | cons x xs ih =>
      by_cases hx : key x = k
      · rw [replace, if_pos hx, lookup_cons]
        by_cases hk : k' = k
        · rw [hk, Function.update_self, if_pos hy]
        · rw [Function.update_of_ne hk, if_neg (by rw [hy]; exact Ne.symm hk), lookup_cons,
            if_neg (by rw [hx]; exact Ne.symm hk)]
      · rw [lookup_cons, if_neg hx] at h
        rw [replace, if_neg hx, lookup_cons, ih h]
        by_cases hk : k' = k
        · rw [hk, Function.update_self, Function.update_self, if_neg hx]
        · rw [Function.update_of_ne hk, Function.update_of_ne hk, lookup_cons]

theorem lookup_modify {f : α → α} (hf : ∀ x, key x = k → key (f x) = k) :
    lookup key (modify key k f xs) =
      Function.update (lookup key xs) k ((lookup key xs k).map f) := by
  funext k'
  induction xs with
  | nil => simp [modify, Function.update_apply]
  | cons x xs ih =>
      by_cases hx : key x = k
      · rw [modify, if_pos hx, lookup_cons, lookup_cons, if_pos hx, hf x hx]
        by_cases hk : k' = k
        · rw [hk, Function.update_self, if_pos rfl, Option.map_some]
        · rw [Function.update_of_ne hk, if_neg (Ne.symm hk), lookup_cons,
            if_neg (by rw [hx]; exact Ne.symm hk)]
      · rw [modify, if_neg hx, lookup_cons, lookup_cons, if_neg hx, ih]
        by_cases hk : k' = k
        · rw [hk, Function.update_self, Function.update_self, if_neg hx]
        · rw [Function.update_of_ne hk, Function.update_of_ne hk, lookup_cons]

/-- What a change of one record keeps of it, it keeps of the whole list. -/
theorem map_modify {β : Type*} {g : α → β} {f : α → α}
    (h : ∀ x, lookup key xs k = some x → g (f x) = g x) :
    (modify key k f xs).map g = xs.map g := by
  induction xs with
  | nil => rfl
  | cons x xs ih =>
      rw [modify]
      split_ifs with hx
      · rw [List.map_cons, List.map_cons, h x (by rw [lookup_cons, if_pos hx])]
      · rw [List.map_cons, List.map_cons, ih fun y hy ↦ h y (by rw [lookup_cons, if_neg hx, hy])]

theorem modify_self {f : α → α} (h : ∀ x, lookup key xs k = some x → f x = x) :
    modify key k f xs = xs := by
  have hmap : (modify key k f xs).map id = xs.map id := map_modify h
  simpa using hmap

/-- A filter that does not see the change gives the same when it drops the record, or when nothing
changes. -/
theorem filter_modify_iff {f : α → α} {p : α → Bool}
    (hp : ∀ x, lookup key xs k = some x → p (f x) = p x) :
    (modify key k f xs).filter p = xs.filter p ↔
      ∀ x, lookup key xs k = some x → p x = true → f x = x := by
  induction xs with
  | nil => simp [modify]
  | cons x xs ih =>
      simp only [modify, lookup_cons] at hp ⊢
      by_cases hx : key x = k
      · have hpx := hp x (if_pos hx)
        simp only [if_pos hx, Option.some.injEq, forall_eq']
        cases hkeep : p x with
        | true => simp [hpx, hkeep]
        | false => simp [hpx, hkeep]
      · simp only [if_neg hx] at hp ⊢
        have htail := ih hp
        cases hkeep : p x with
        | true => simpa [List.filter_cons, hkeep] using htail
        | false => simpa [List.filter_cons, hkeep] using htail

variable (key) in
/-- A change for every key: each is made at the first record of its key. -/
@[grind =] def modifyEach (F : κ → α → α) : List α → List α
  | [] => []
  | x :: xs => F (key x) x :: modifyEach (Function.update F (key x) id) xs

theorem modifyEach_id (xs : List α) : modifyEach key (fun _ ↦ id) xs = xs := by
  induction xs with
  | nil => rfl
  | cons x xs ih =>
      have hid : Function.update (fun _ : κ ↦ (id : α → α)) (key x) id = fun _ ↦ id :=
        Function.update_eq_self (key x) fun _ ↦ (id : α → α)
      rw [modifyEach, hid, ih]
      rfl

theorem key_update_id {F : κ → α → α} (hF : ∀ k x, key (F k x) = key x) (k₀ k : κ) (x : α) :
    key (Function.update F k₀ id k x) = key x := by
  by_cases hk : k = k₀
  · rw [hk, Function.update_self]
    rfl
  · rw [Function.update_of_ne hk, hF]

/-- A change of one record that comes before is one more change for its key. -/
theorem modifyEach_modify {F : κ → α → α} {f : α → α} (hf : ∀ x, key (f x) = key x) :
    modifyEach key F (modify key k f xs) = modifyEach key (Function.update F k (F k ∘ f)) xs := by
  induction xs generalizing F with
  | nil => rfl
  | cons x xs ih =>
      rw [modify, modifyEach]
      by_cases hx : key x = k
      · rw [if_pos hx, modifyEach, hf, hx, Function.update_self, Function.update_idem]
        rfl
      · rw [if_neg hx, modifyEach, ih, Function.update_of_ne hx,
          Function.update_of_ne (Ne.symm hx), Function.update_comm hx]

theorem lookup_modifyEach {F : κ → α → α} (hF : ∀ k x, key (F k x) = key x) (k : κ) :
    lookup key (modifyEach key F xs) k = (lookup key xs k).map (F k) := by
  induction xs generalizing F with
  | nil => rfl
  | cons x xs ih =>
      rw [modifyEach, lookup_cons, lookup_cons, hF]
      by_cases hx : key x = k
      · rw [if_pos hx, if_pos hx, hx, Option.map_some]
      · rw [if_neg hx, if_neg hx, ih (key_update_id hF (key x)), Function.update_of_ne (Ne.symm hx)]

/-- The changes keep a property of every record exactly when they keep it of
the records that are found. -/
theorem map_modifyEach_iff {β : Type*} {F : κ → α → α} {g : α → β} :
    (modifyEach key F xs).map g = xs.map g ↔
      ∀ k x, lookup key xs k = some x → g (F k x) = g x := by
  induction xs generalizing F with
  | nil => simp [modifyEach]
  | cons x xs ih =>
      rw [modifyEach, List.map_cons, List.map_cons, List.cons.injEq, ih]
      constructor
      · rintro ⟨hhead, htail⟩ k y hy
        rw [lookup_cons] at hy
        split_ifs at hy with hx
        · obtain rfl : x = y := Option.some.inj hy
          rwa [← hx]
        · have hk := htail k y hy
          rwa [Function.update_of_ne (Ne.symm hx)] at hk
      · intro h
        refine ⟨h (key x) x (by rw [lookup_cons, if_pos rfl]), fun k y hy ↦ ?_⟩
        by_cases hk : k = key x
        · rw [hk, Function.update_self]
          rfl
        · rw [Function.update_of_ne hk]
          exact h k y (by rw [lookup_cons, if_neg (Ne.symm hk), hy])

theorem lookup_append_singleton (h : lookup key xs (key y) = none) :
    lookup key (xs ++ [y]) = Function.update (lookup key xs) (key y) (some y) := by
  funext k
  rw [lookup, List.find?_append]
  by_cases hk : k = key y
  · subst hk
    rw [Function.update_self]
    change (lookup key xs (key y)).or _ = _
    rw [h]
    simp
  · rw [Function.update_of_ne hk]
    have hlast : [y].find? (fun x ↦ decide (key x = k)) = none := by simpa using Ne.symm hk
    rw [hlast, Option.or_none]
    rfl

theorem map_key_replace (hy : key y = k) : (replace key k y xs).map key = xs.map key := by
  induction xs with
  | nil => rfl
  | cons x xs ih =>
      by_cases hx : key x = k
      · rw [replace, if_pos hx, List.map_cons, List.map_cons, hy, hx]
      · rw [replace, if_neg hx, List.map_cons, List.map_cons, ih]

theorem Distinct.append_singleton (h : Distinct key xs) (hnew : lookup key xs (key y) = none) :
    Distinct key (xs ++ [y]) := by
  rw [Distinct, List.map_append, List.map_singleton, List.nodup_append]
  refine ⟨h, List.nodup_singleton _, ?_⟩
  intro a ha b hb
  obtain ⟨x, hx, rfl⟩ := List.mem_map.mp ha
  rw [List.mem_singleton.mp hb]
  exact lookup_eq_none.mp hnew x hx

omit [DecidableEq κ] in
theorem Distinct.filter (h : Distinct key xs) (p : α → Bool) : Distinct key (xs.filter p) :=
  h.sublist (List.filter_sublist.map key)

theorem lookup_filter (h : Distinct key xs) (p : α → Bool) (k : κ) :
    lookup key (xs.filter p) k = (lookup key xs k).filter p := by
  induction xs with
  | nil => rfl
  | cons x xs ih =>
      obtain ⟨hx, hxs⟩ := List.nodup_cons.mp h
      have htail := ih hxs
      rw [lookup_cons]
      by_cases hk : key x = k
      · have hnone : lookup key xs k = none := by
          rw [lookup_eq_none]
          intro x' hx' hkey
          exact hx (List.mem_map.mpr ⟨x', hx', hkey.trans hk.symm⟩)
        rw [if_pos hk]
        by_cases hp : p x = true
        · rw [List.filter_cons_of_pos hp, lookup_cons, if_pos hk, Option.filter_some, if_pos hp]
        · rw [List.filter_cons_of_neg hp, htail, hnone, Option.filter_some, if_neg hp]
          rfl
      · rw [if_neg hk, ← htail]
        by_cases hp : p x = true
        · rw [List.filter_cons_of_pos hp, lookup_cons, if_neg hk]
        · rw [List.filter_cons_of_neg hp]

/-- The order of records with distinct keys does not matter. -/
theorem Distinct.lookup_perm {ys : List α} (h : Distinct key xs) (hperm : xs.Perm ys) :
    lookup key xs = lookup key ys := by
  funext k
  apply List.find?_eq_find?_of_perm hperm
  rintro x ⟨hx, hxk⟩ y ⟨hy, hyk⟩
  have heq : key x = key y := (of_decide_eq_true hxk).trans (of_decide_eq_true hyk).symm
  exact List.inj_on_of_nodup_map h hx hy heq

/-- A walk that takes out the records it comes by, each by its key. -/
theorem foldl_erase (p : α → Bool) (kept rest : List α) (h : Distinct key (kept ++ rest)) :
    rest.foldl (fun xs x ↦ if p x then erase key (key x) xs else xs) (kept ++ rest) =
      kept ++ rest.filter fun x ↦ !p x := by
  induction rest generalizing kept with
  | nil => simp
  | cons x rest ih =>
      rw [List.foldl_cons]
      by_cases hp : p x = true
      · have hkept : ∀ x' ∈ kept, ¬decide (key x' = key x) = true := by
          intro x' hx' heq
          rw [Distinct, List.map_append, List.nodup_append] at h
          exact h.2.2 _ (List.mem_map_of_mem hx') (key x) (by simp) (by simpa using heq)
        have herase : erase key (key x) (kept ++ x :: rest) = kept ++ rest := by
          rw [erase, List.eraseP_append_right _ hkept, List.eraseP_cons_of_pos (by simp)]
        have hsub : (kept ++ rest).Sublist (kept ++ x :: rest) :=
          (List.sublist_cons_self x rest).append_left kept
        rw [if_pos hp, herase, ih kept (h.sublist (hsub.map key)),
          List.filter_cons_of_neg (by simp [hp])]
      · have happend : kept ++ x :: rest = (kept ++ [x]) ++ rest := by simp
        rw [if_neg hp, happend, ih (kept ++ [x]) (happend ▸ h), List.append_assoc,
          List.filter_cons_of_pos (by simp [hp])]
        rfl

end Keyed
