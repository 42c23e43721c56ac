import Mathlib.Data.List.Sort

set_option autoImplicit false

/-!
# Foundation: comparisons and stable sorts

A stable sort keeps its promises where the comparison is a weak order on the elements
that it is given.  `compareKeys` compares elements by their keys and takes an element without a
key to be equal to every other; `weakOrder_compareKeys` says when that is a weak order.
-/

namespace LproxyCv.Foundation

/-- The comparison is consistent on the elements of `l`: one way is the other way turned round,
and what is not greater is so transitively. -/
structure WeakOrder {α : Type} (cmp : α → α → Ordering) (l : List α) : Prop where
  swap : ∀ a ∈ l, ∀ b ∈ l, cmp b a = (cmp a b).swap
  trans : ∀ a ∈ l, ∀ b ∈ l, ∀ d ∈ l, cmp a b ≠ .gt → cmp b d ≠ .gt → cmp a d ≠ .gt

/-- A sort that orders any elements on which the comparison is a weak order, and leaves equal
ones in the order in which they came. -/
structure SortsStably {α : Type} (sortBy : (α → α → Ordering) → List α → List α) : Prop where
  perm : ∀ cmp l, (sortBy cmp l).Perm l
  sorted : ∀ cmp l, WeakOrder cmp l → (sortBy cmp l).Pairwise fun a b => cmp a b ≠ .gt
  stable : ∀ cmp l, WeakOrder cmp l → ∀ a ∈ l,
    (sortBy cmp l).filter (fun b => cmp a b = .eq) = l.filter fun b => cmp a b = .eq

namespace WeakOrder

variable {α : Type} {cmp : α → α → Ordering} {l : List α}

theorem total (h : WeakOrder cmp l) {a b : α} (ha : a ∈ l) (hb : b ∈ l) :
    cmp a b ≠ .gt ∨ cmp b a ≠ .gt := by
  rw [h.swap a ha b hb]
  cases cmp a b <;> simp

/-- Two elements that are equal to a third are equal. -/
theorem not_gt_of_eq (h : WeakOrder cmp l) {a b d : α} (ha : a ∈ l) (hb : b ∈ l) (hd : d ∈ l)
    (hab : cmp a b = .eq) (had : cmp a d = .eq) : cmp b d ≠ .gt := by
  have hba : cmp b a = .eq := by
    rw [h.swap a ha b hb, hab]
    rfl
  exact h.trans b hb a ha d hd (by simp [hba]) (by simp [had])

/-- Insertion puts the elements in order. -/
theorem sorted_insertionSort (h : WeakOrder cmp l) :
    (l.insertionSort fun x y => cmp x y ≠ .gt).Pairwise fun x y => cmp x y ≠ .gt := by
  let le : {x // x ∈ l} → {x // x ∈ l} → Prop := fun x y => cmp x.1 y.1 ≠ .gt
  have : Std.Total le := ⟨fun x y => h.total x.2 y.2⟩
  have : IsTrans _ le := ⟨fun x y z => h.trans x.1 x.2 y.1 y.2 z.1 z.2⟩
  have hmap := List.map_insertionSort le (fun x y => cmp x y ≠ .gt) Subtype.val l.attach
    fun _ _ _ _ => Iff.rfl
  rw [List.attach_map_subtype_val] at hmap
  rw [← hmap, List.pairwise_map]
  exact List.pairwise_insertionSort le l.attach

end WeakOrder

/-- Insertion is a stable sort. -/
theorem sortsStably_insertionSort {α : Type} :
    SortsStably fun (cmp : α → α → Ordering) (l : List α) =>
      l.insertionSort fun x y => cmp x y ≠ .gt where
  perm _ _ := List.perm_insertionSort _ _
  sorted _ _ h := h.sorted_insertionSort
  stable cmp l h a ha := by
    have hperm := (List.perm_insertionSort (fun x y => cmp x y ≠ .gt) l).filter
      fun b => cmp a b = .eq
    -- the elements that are equal to `a` are in order as they came
    have hclass : (l.filter fun b => cmp a b = .eq).Pairwise fun x y => cmp x y ≠ .gt := by
      apply List.pairwise_of_forall_mem_list
      intro b hb d hd
      rw [List.mem_filter, decide_eq_true_eq] at hb hd
      exact h.not_gt_of_eq ha hb.1 hd.1 hb.2 hd.2
    have hsub := (List.sublist_insertionSort hclass List.filter_sublist).filter
      fun b => decide (cmp a b = .eq)
    rw [List.filter_filter] at hsub
    simp only [Bool.and_self] at hsub
    exact (hsub.eq_of_length hperm.length_eq.symm).symm

/-! ## Elements without a key -/

section Keys

variable {α κ : Type} [LinearOrder κ]

/-- Compare two elements by their keys.  An element without a key equals every other. -/
def compareKeys (key : α → Option κ) (a b : α) : Ordering :=
  match key a, key b with
  | some x, some y => compare x y
  | _, _ => .eq

variable {key : α → Option κ} {l : List α} {a b : α} {x y : κ}

theorem compareKeys_some (ha : key a = some x) (hb : key b = some y) :
    compareKeys key a b = compare x y := by
  simp only [compareKeys, ha, hb]

theorem compareKeys_none_left (ha : key a = none) : compareKeys key a b = .eq := by
  simp only [compareKeys, ha]

theorem compareKeys_none_right (hb : key b = none) : compareKeys key a b = .eq := by
  unfold compareKeys
  rw [hb]
  cases key a with
  | none => rfl
  | some x => rfl

theorem compareKeys_swap (key : α → Option κ) (a b : α) :
    compareKeys key b a = (compareKeys key a b).swap := by
  cases ha : key a with
  | none => rw [compareKeys_none_left ha, compareKeys_none_right ha, Ordering.swap_eq]
  | some x =>
      cases hb : key b with
      | none => rw [compareKeys_none_left hb, compareKeys_none_right hb, Ordering.swap_eq]
      | some y =>
          rw [compareKeys_some ha hb, compareKeys_some hb ha]
          exact Std.OrientedOrd.eq_swap

/-- The comparison is a weak order exactly when all elements have a key, or those that have one
have the same. -/
theorem weakOrder_compareKeys :
    WeakOrder (compareKeys key) l ↔
      (∀ a ∈ l, (key a).isSome) ∨
        ∀ a ∈ l, ∀ b ∈ l, ∀ x y, key a = some x → key b = some y → x = y := by
  constructor
  · intro h
    by_cases hall : ∀ a ∈ l, (key a).isSome
    · exact .inl hall
    · right
      -- an element without a key stands between any two that have one
      push Not at hall
      obtain ⟨gap, hgap, hnone⟩ := hall
      have hkey : key gap = none := Option.not_isSome_iff_eq_none.mp hnone
      have hle : ∀ a ∈ l, ∀ b ∈ l, ∀ x y, key a = some x → key b = some y → x ≤ y := by
        intro a ha b hb x y hx hy
        have htrans := h.trans a ha gap hgap b hb
          (by rw [compareKeys_none_right hkey]; decide)
          (by rw [compareKeys_none_left hkey]; decide)
        rw [compareKeys_some hx hy] at htrans
        exact compare_le_iff_le.mp htrans
      intro a ha b hb x y hx hy
      exact le_antisymm (hle a ha b hb x y hx hy) (hle b hb a ha y x hy hx)
  · intro h
    refine ⟨fun a _ b _ => compareKeys_swap key a b, ?_⟩
    intro a ha b hb d hd hab hbd
    cases hx : key a with
    | none =>
        rw [compareKeys_none_left hx]
        decide
    | some x =>
        cases hz : key d with
        | none =>
            rw [compareKeys_none_right hz]
            decide
        | some z =>
            rw [compareKeys_some hx hz]
            apply compare_le_iff_le.mpr
            rcases h with hall | hsame
            · obtain ⟨y, hy⟩ := Option.isSome_iff_exists.mp (hall b hb)
              rw [compareKeys_some hx hy] at hab
              rw [compareKeys_some hy hz] at hbd
              exact le_trans (compare_le_iff_le.mp hab) (compare_le_iff_le.mp hbd)
            · exact le_of_eq (hsame a ha d hd x z hx hz)

/-- Elements in order have their keys in order. -/
theorem keys_of_sorted
    (hsorted : l.Pairwise fun a b => compareKeys key a b ≠ .gt) :
    (l.filterMap key).Pairwise (· ≤ ·) := by
  rw [List.pairwise_filterMap]
  refine hsorted.imp ?_
  intro a b hab x hx y hy
  rw [compareKeys_some hx hy] at hab
  exact compare_le_iff_le.mp hab

end Keys

end LproxyCv.Foundation
