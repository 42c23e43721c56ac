import Mathlib.Algebra.BigOperators.Group.List.Basic
import Mathlib.Data.List.Rotate
import Mathlib.Tactic.Abel

set_option autoImplicit false

/-!
# Foundation: a ring of the last values and their sum

Every value that is put into a ring of fixed length takes the place of the oldest one.
The sum is not computed anew: the new value is added to it and the one it replaces is
taken off.
-/

namespace LproxyCv.Foundation.Ring

variable {α : Type}

/-- The values of a ring, the newest first.  `index` is the place of the oldest one, which
is where the next one goes. -/
def newestFirst (queue : List α) (index : Nat) : List α := (queue.rotate index).reverse

/-- The last `n` of some values, which are given newest first.  Where there are fewer,
`fill` stands for those that are missing. -/
def lastOf (n : Nat) (fill : α) (values : List α) : List α :=
  (values ++ List.replicate n fill).take n

theorem newestFirst_replicate (n index : Nat) (fill : α) :
    newestFirst (List.replicate n fill) index = lastOf n fill [] := by
  simp [newestFirst, lastOf]

theorem lastOf_cons {n : Nat} (hn : 0 < n) (fill x : α) (values : List α) :
    lastOf n fill (x :: values) = x :: (lastOf n fill values).dropLast := by
  obtain ⟨m, rfl⟩ : ∃ m, n = m + 1 := ⟨n - 1, by omega⟩
  have hlen : (lastOf (m + 1) fill values).length = m + 1 := by
    rw [lastOf, List.length_take, List.length_append, List.length_replicate]
    omega
  rw [List.dropLast_eq_take, hlen, Nat.add_sub_cancel, lastOf, lastOf, List.cons_append,
    List.take_succ_cons, List.take_take, Nat.min_eq_left (Nat.le_succ m)]

/-- A new value comes before the others, and the oldest one is gone. -/
theorem newestFirst_set {queue : List α} {index : Nat} (hindex : index < queue.length) (x : α) :
    newestFirst (queue.set index x) ((index + 1) % queue.length) =
      x :: (newestFirst queue index).dropLast := by
  have hmod := List.rotate_mod (queue.set index x) (index + 1)
  rw [List.length_set] at hmod
  have hnew : (queue.set index x).rotate (index + 1) =
      queue.drop (index + 1) ++ (queue.take index ++ [x]) := by
    have htake : (queue.set index x).take (index + 1) = queue.take index ++ [x] := by
      rw [List.take_succ_eq_append_getElem (by rwa [List.length_set]), List.getElem_set_self,
        List.take_set_of_le (Nat.le_refl index)]
    rw [List.rotate_eq_drop_append_take (by rw [List.length_set]; omega), htake,
      List.drop_set_of_lt (Nat.lt_succ_self index)]
  have hold : queue.rotate index = queue[index] :: (queue.drop (index + 1) ++ queue.take index) := by
    rw [List.rotate_eq_drop_append_take (Nat.le_of_lt hindex), List.drop_eq_getElem_cons hindex,
      List.cons_append]
  rw [newestFirst, newestFirst, hmod, hnew, hold, ← List.append_assoc, List.reverse_append,
    List.reverse_singleton, List.singleton_append, List.reverse_cons, List.dropLast_concat]

/-- A ring and its sum: the ring holds the last values, zeros where there are none. -/
structure Tracks [AddCommGroup α] (queue : List α) (index : Nat) (sum : α) (values : List α) :
    Prop where
  index_lt : index < queue.length
  newest : newestFirst queue index = lastOf queue.length 0 values
  sum_eq : sum = queue.sum

theorem tracks_replicate [AddCommGroup α] {n : Nat} (hn : 0 < n) :
    Tracks (List.replicate n (0 : α)) 0 0 [] where
  index_lt := by rwa [List.length_replicate]
  newest := by rw [newestFirst_replicate, List.length_replicate]
  sum_eq := by simp

/-- One more value, which takes the place of `old`. -/
theorem Tracks.append [AddCommGroup α] {queue : List α} {index : Nat} {sum old : α}
    {values : List α} (h : Tracks queue index sum values) (hold : queue[index]? = some old)
    (x : α) :
    Tracks (queue.set index x) ((index + 1) % queue.length) (sum + x - old) (x :: values) where
  index_lt := by
    rw [List.length_set]
    exact Nat.mod_lt _ (Nat.zero_lt_of_lt h.index_lt)
  newest := by
    rw [newestFirst_set h.index_lt, List.length_set, lastOf_cons (Nat.zero_lt_of_lt h.index_lt),
      h.newest]
  sum_eq := by
    obtain ⟨hlt, hget⟩ := List.getElem?_eq_some_iff.mp hold
    rw [List.sum_set', dif_pos hlt, hget, h.sum_eq]
    abel

end LproxyCv.Foundation.Ring
