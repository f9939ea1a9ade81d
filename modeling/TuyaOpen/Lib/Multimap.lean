import Mathlib.Data.List.Basic

/-!
# Multimaps, newest entry first

A multimap is the list of its entries.  What can be observed of it is the
list of values of each key, in the order in which an enumeration meets them,
and the number of entries.
-/

abbrev Multimap (κ ν : Type*) := List (κ × ν)

namespace Multimap

variable {κ ν : Type*} [DecidableEq κ]

def values (m : Multimap κ ν) (k : κ) : List ν :=
  (m.filter fun e ↦ e.1 = k).map Prod.snd

@[simp] theorem values_nil (k : κ) : values ([] : Multimap κ ν) k = [] := rfl

end Multimap
