import Mathlib.Data.List.Range
import Mathlib.Data.List.Nodup
import Mathlib.Data.List.Perm.Subperm

set_option autoImplicit false

/-!
# Foundation: every index in exactly one place

A pool of the indices below `n` is kept in several lists: the free ones, the held
ones, the ones that wait.  `Once n l` says of all these lists together that every
index is in exactly one of them, and once.  Moving an index from one list to
another keeps that, whatever the lists are for.
-/

namespace LproxyCv.Foundation

/-- Every number below `n` occurs exactly once in `l`, and no other number does. -/
def Once (n : Nat) (l : List Nat) : Prop := l.Perm (List.range n)

theorem once_range (n : Nat) : Once n (List.range n) := List.Perm.refl _

/-- There are at most `n` different numbers below `n`. -/
theorem length_le_of_nodup {n : Nat} {l : List Nat} (h : l.Nodup) (hlt : ∀ i ∈ l, i < n) :
    l.length ≤ n := by
  have hsub : l ⊆ List.range n := fun i hi => List.mem_range.mpr (hlt i hi)
  have hlen := (List.subperm_of_subset h hsub).length_le
  rwa [List.length_range] at hlen

namespace Once

variable {n i : Nat} {l l' xs ys : List Nat}

/-- The order of the places does not matter. -/
theorem perm (h : Once n l) (hperm : l'.Perm l) : Once n l' := hperm.trans h

theorem nodup (h : Once n l) : l.Nodup := h.nodup_iff.mpr List.nodup_range

theorem mem_iff (h : Once n l) : i ∈ l ↔ i < n := by
  rw [List.Perm.mem_iff h, List.mem_range]

/-- No index is in two places. -/
theorem disjoint (h : Once n (xs ++ ys)) (hi : i ∈ xs) : i ∉ ys := by
  intro hy
  exact (List.nodup_append.mp h.nodup).2.2 i hi i hy rfl

/-- Take the first index of the second list. -/
theorem take (h : Once n (xs ++ i :: ys)) : Once n (i :: xs ++ ys) :=
  h.perm List.perm_middle.symm

/-- Give an index of the first list back. -/
theorem give (h : Once n (xs ++ ys)) (hi : i ∈ xs) : Once n (xs.erase i ++ i :: ys) := by
  refine h.perm (List.perm_middle.trans ?_)
  exact (List.perm_cons_erase hi).symm.append_right ys

end Once

end LproxyCv.Foundation
