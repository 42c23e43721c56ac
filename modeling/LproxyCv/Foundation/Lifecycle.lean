import Mathlib.Data.List.Count
import Mathlib.Data.Multiset.Range
import Mathlib.Logic.Relation

set_option autoImplicit false

/-!
# Foundation: keeping connections alive

A manager keeps one connection for each index of a table.  An index is with an
attempt to connect, which is a task of its own, or in the table, while another
task serves the connection, or in a queue of attempts to be made later.  The
tasks are nowhere in the manager's state; `Lifecycle` has them beside it.

As long as the manager is not stopped, every index is in exactly one of the three
places (`Placed`), so that a connection that comes up always finds its place in
the table free; once it is stopped, nothing is started and nothing comes up.
-/

namespace LproxyCv.Foundation

/-- A manager of connections and its tasks. -/
structure Lifecycle where
  /-- the attempts to connect that are under way -/
  connecting : Multiset Nat
  /-- the connections that are served -/
  serving : List Nat
  /-- the indices that have a connection in the table -/
  table : List Bool
  /-- the attempts to be made later -/
  queue : List Nat
  stopped : Bool
  /-- all attempts ever started -/
  started : List Nat
  deriving DecidableEq

namespace Lifecycle

/-- The index has a connection in the table. -/
def Present (l : Lifecycle) (i : Nat) : Prop := l.table[i]? = some true

instance (l : Lifecycle) (i : Nat) : Decidable (l.Present i) :=
  inferInstanceAs (Decidable (_ = _))

/-- All `n` attempts have been started. -/
def init (n : Nat) : Lifecycle :=
  { connecting := Multiset.range n
    serving := []
    table := List.replicate n false
    queue := []
    stopped := false
    started := List.range n }

/-- The steps of a manager.  What the queue holds no longer matters once the
manager is stopped. -/
inductive Step : Lifecycle → Lifecycle → Prop where
  | succeed {l : Lifecycle} {i : Nat} : l.stopped = false → i ∈ l.connecting →
      l.table[i]? = some false →
      Step l { l with
        connecting := l.connecting.erase i
        serving := i :: l.serving
        table := l.table.set i true }
  | fail {l : Lifecycle} {i : Nat} : l.stopped = false → i ∈ l.connecting →
      Step l { l with connecting := l.connecting.erase i, queue := i :: l.queue }
  | drop {l : Lifecycle} {i : Nat} : l.stopped = true →
      Step l { l with connecting := l.connecting.erase i }
  | leave {l : Lifecycle} {i : Nat} : l.stopped = false → i ∈ l.serving →
      Step l { l with
        serving := l.serving.erase i
        table := l.table.set i false
        queue := i :: l.queue }
  | leaveStopped {l : Lifecycle} {i : Nat} (queue : List Nat) : l.stopped = true →
      i ∈ l.serving →
      Step l { l with
        serving := l.serving.erase i
        table := l.table.set i false
        queue := queue }
  | retry {l : Lifecycle} : l.stopped = false →
      Step l { l with
        connecting := ↑l.queue + l.connecting
        queue := []
        started := l.queue ++ l.started }
  | stop {l : Lifecycle} : Step l { l with stopped := true }

/-- Every index is in one place, and the served connections are the ones in the
table. -/
structure Placed (n : Nat) (l : Lifecycle) : Prop where
  length : l.table.length = n
  once : l.stopped = false → ∀ i < n,
    l.connecting.count i + (if l.Present i then 1 else 0) + l.queue.count i = 1
  served : ∀ i, l.serving.count i = if l.Present i then 1 else 0
  bound : ∀ i ∈ l.connecting, i < n
  queued : l.stopped = false → ∀ i ∈ l.queue, i < n

theorem placed_init (n : Nat) : Placed n (init n) where
  length := List.length_replicate
  once := by
    intro _ i hi
    have hone := Multiset.count_eq_one_of_mem (Multiset.nodup_range n) (Multiset.mem_range.mpr hi)
    simp [init, Present, hone, List.getElem?_replicate]
  served := by
    intro i
    simp [init, Present, List.getElem?_replicate]
  bound := fun i hi => Multiset.mem_range.mp hi
  queued := by simp [init]

/-- A change of one index of the table. -/
theorem present_set {l l' : Lifecycle} {i : Nat} {b : Bool} (h : l'.table = l.table.set i b)
    (hi : i < l.table.length) (j : Nat) :
    l'.Present j ↔ if i = j then b = true else l.Present j := by
  unfold Present
  rw [h, List.getElem?_set]
  by_cases hj : i = j
  · simp [hj, hj ▸ hi]
  · simp [hj]

theorem lt_of_present {n : Nat} {l : Lifecycle} (h : Placed n l) {i : Nat} (hi : l.Present i) :
    i < n := by
  rw [← h.length]
  exact (List.getElem?_eq_some_iff.mp hi).1

/-- The served connections have a place in the table. -/
theorem Placed.present {n : Nat} {l : Lifecycle} (h : Placed n l) {i : Nat}
    (hi : i ∈ l.serving) : l.Present i := by
  have hpos := List.count_pos_iff.mpr hi
  rw [h.served] at hpos
  by_contra hnot
  rw [if_neg hnot] at hpos
  omega

/-- A connection that goes leaves the table and its task. -/
theorem Placed.served_leave {n : Nat} {l l' : Lifecycle} (h : Placed n l) {i : Nat}
    (hi : i ∈ l.serving) (hserving : l'.serving = l.serving.erase i)
    (htable : l'.table = l.table.set i false) :
    ∀ j, l'.serving.count j = if l'.Present j then 1 else 0 := by
  intro j
  have hp := h.present hi
  have hin : i < l.table.length := (List.getElem?_eq_some_iff.mp hp).1
  have hset := present_set htable hin j
  have hserved := h.served j
  rw [hserving]
  by_cases hij : i = j
  · subst hij
    rw [if_pos hp] at hserved
    rw [if_neg (by simp [hset]), List.count_erase_self]
    omega
  · rw [List.count_erase_of_ne (Ne.symm hij), hserved]
    simp only [hset, if_neg hij]

/-- A connection that comes up enters the table and has a task. -/
theorem Placed.served_enter {n : Nat} {l l' : Lifecycle} (h : Placed n l) {i : Nat}
    (hfree : l.table[i]? = some false) (hserving : l'.serving = i :: l.serving)
    (htable : l'.table = l.table.set i true) :
    ∀ j, l'.serving.count j = if l'.Present j then 1 else 0 := by
  intro j
  have hset := present_set htable (List.getElem?_eq_some_iff.mp hfree).1 j
  have hserved := h.served j
  rw [hserving]
  by_cases hij : i = j
  · subst hij
    rw [if_neg (by simp [Present, hfree])] at hserved
    rw [if_pos (by simp [hset]), List.count_cons_self, hserved]
  · rw [List.count_cons_of_ne hij, hserved]
    simp only [hset, if_neg hij]

/-- A step that moves one index from one place to another keeps every index in one place. -/
theorem Placed.once_of_moved {n : Nat} {l l' : Lifecycle} (h : Placed n l)
    (hrun : l.stopped = false) {i : Nat}
    (hmoved : l'.connecting.count i + (if l'.Present i then 1 else 0) + l'.queue.count i =
      l.connecting.count i + (if l.Present i then 1 else 0) + l.queue.count i)
    (hother : ∀ j, i ≠ j → l'.connecting.count j = l.connecting.count j ∧
      (l'.Present j ↔ l.Present j) ∧ l'.queue.count j = l.queue.count j) {j : Nat} (hj : j < n) :
    l'.connecting.count j + (if l'.Present j then 1 else 0) + l'.queue.count j = 1 := by
  by_cases hij : i = j
  · subst hij
    rw [hmoved]
    exact h.once hrun i hj
  · obtain ⟨hconnecting, hpresent, hqueue⟩ := hother j hij
    simp only [hconnecting, hpresent, hqueue]
    exact h.once hrun j hj

/-- Every step keeps every index in its place. -/
theorem Placed.step {n : Nat} {l l' : Lifecycle} (h : Placed n l) (hstep : Step l l') :
    Placed n l' := by
  cases hstep with
  | @succeed i hrun hi hfree =>
      have hset := @present_set l { l with
        connecting := l.connecting.erase i, serving := i :: l.serving,
        table := l.table.set i true } i true rfl (List.getElem?_eq_some_iff.mp hfree).1
      have hpos := Multiset.count_pos.mpr hi
      refine ⟨by rw [List.length_set]; exact h.length, ?_, h.served_enter hfree rfl rfl,
        fun j hj => h.bound j (Multiset.mem_of_mem_erase hj), h.queued⟩
      intro _ j hj
      refine h.once_of_moved hrun (i := i) ?_ ?_ hj
      · rw [if_pos ((hset i).mpr (by simp)), if_neg (by simp [Present, hfree]),
          Multiset.count_erase_self]
        dsimp only
        omega
      · intro j hij
        exact ⟨Multiset.count_erase_of_ne (Ne.symm hij) _, by rw [hset, if_neg hij], rfl⟩
  | @fail i hrun hi =>
      have hpos := Multiset.count_pos.mpr hi
      refine ⟨h.length, ?_, h.served, fun j hj => h.bound j (Multiset.mem_of_mem_erase hj), ?_⟩
      · intro _ j hj
        refine h.once_of_moved hrun (i := i) ?_ ?_ hj
        · rw [Multiset.count_erase_self, List.count_cons_self]
          have hsame : Present { l with
            connecting := l.connecting.erase i, queue := i :: l.queue } i ↔ l.Present i := Iff.rfl
          simp only [hsame]
          omega
        · intro j hij
          exact ⟨Multiset.count_erase_of_ne (Ne.symm hij) _, Iff.rfl, List.count_cons_of_ne hij⟩
      · intro _ j hj
        rcases List.mem_cons.mp hj with rfl | hmem
        · exact h.bound j hi
        · exact h.queued hrun j hmem
  | drop hstop =>
      refine ⟨h.length, ?_, h.served, fun j hj => h.bound j (Multiset.mem_of_mem_erase hj),
        h.queued⟩
      intro hrun
      rw [hstop] at hrun
      cases hrun
  | @leave i hrun hi =>
      have hin : i < l.table.length := (List.getElem?_eq_some_iff.mp (h.present hi)).1
      have hset := @present_set l { l with
        serving := l.serving.erase i, table := l.table.set i false, queue := i :: l.queue }
        i false rfl hin
      refine ⟨by rw [List.length_set]; exact h.length, ?_, h.served_leave hi rfl rfl, h.bound, ?_⟩
      · intro _ j hj
        refine h.once_of_moved hrun (i := i) ?_ ?_ hj
        · rw [if_pos (h.present hi), if_neg (by simp [hset]), List.count_cons_self]
          dsimp only
          omega
        · intro j hij
          exact ⟨rfl, by rw [hset, if_neg hij], List.count_cons_of_ne hij⟩
      · intro _ j hj
        rcases List.mem_cons.mp hj with rfl | hmem
        · exact lt_of_present h (h.present hi)
        · exact h.queued hrun j hmem
  | @leaveStopped i queue hstop hi =>
      refine ⟨by rw [List.length_set]; exact h.length, ?_, h.served_leave hi rfl rfl, h.bound, ?_⟩
      · intro hrun
        rw [hstop] at hrun
        cases hrun
      · intro hrun
        rw [hstop] at hrun
        cases hrun
  | retry hrun =>
      refine ⟨h.length, ?_, h.served, ?_, by simp⟩
      · intro _ j hj
        have hone := h.once hrun j hj
        have hsame : Present { l with
            connecting := ↑l.queue + l.connecting, queue := [],
            started := l.queue ++ l.started } j ↔ l.Present j := Iff.rfl
        simp only [hsame, Multiset.count_add, Multiset.coe_count, List.count_nil]
        omega
      · intro j hj
        rcases Multiset.mem_add.mp hj with hq | hc
        · exact h.queued hrun j (Multiset.mem_coe.mp hq)
        · exact h.bound j hc
  | stop => exact ⟨h.length, Bool.noConfusion, h.served, h.bound, Bool.noConfusion⟩

/-- An attempt under way finds its place in the table free. -/
theorem Placed.free {n : Nat} {l : Lifecycle} (h : Placed n l) (hrun : l.stopped = false) {i : Nat}
    (hi : i ∈ l.connecting) : l.table[i]? = some false := by
  have hlt := h.bound i hi
  have hone := h.once hrun i hlt
  have hpos := Multiset.count_pos.mpr hi
  have hnot : ¬ l.Present i := by
    intro hp
    rw [if_pos hp] at hone
    omega
  rw [← h.length] at hlt
  rw [Present, List.getElem?_eq_getElem hlt, Option.some.injEq, Bool.not_eq_true] at hnot
  rw [List.getElem?_eq_getElem hlt, hnot]

/-- What a stopped manager no longer does: `l'` is `l` without some of its
connections. -/
structure Halted (l l' : Lifecycle) : Prop where
  stopped : l'.stopped = true
  started : l'.started = l.started
  present : ∀ i, l'.Present i → l.Present i

/-- A stopped manager stays stopped, starts nothing, and nothing comes up. -/
theorem halted_step {l l' : Lifecycle} (hstop : l.stopped = true) (hstep : Step l l') :
    Halted l l' := by
  cases hstep with
  | succeed hrun _ _ =>
      rw [hstop] at hrun
      cases hrun
  | fail hrun _ =>
      rw [hstop] at hrun
      cases hrun
  | drop _ => exact ⟨hstop, rfl, fun _ h => h⟩
  | leave hrun _ =>
      rw [hstop] at hrun
      cases hrun
  | @leaveStopped i queue _ hi =>
      refine ⟨hstop, rfl, ?_⟩
      intro j hj
      rw [Present, List.getElem?_set] at hj
      split at hj
      · split at hj
        · cases hj
        · cases hj
      · exact hj
  | retry hrun =>
      rw [hstop] at hrun
      cases hrun
  | stop => exact ⟨rfl, rfl, fun _ h => h⟩

/-- The same of every number of steps. -/
theorem halted_steps {l l' : Lifecycle} (hstop : l.stopped = true)
    (hsteps : Relation.ReflTransGen Step l l') : Halted l l' := by
  induction hsteps with
  | refl => exact ⟨hstop, rfl, fun _ h => h⟩
  | tail _ hlast ih =>
      have hnext := halted_step ih.stopped hlast
      exact ⟨hnext.stopped, hnext.started.trans ih.started,
        fun i hi => ih.present i (hnext.present i hi)⟩

/-- Every number of steps keeps every index in its place. -/
theorem Placed.steps {n : Nat} {l l' : Lifecycle} (h : Placed n l)
    (hsteps : Relation.ReflTransGen Step l l') : Placed n l' := by
  induction hsteps with
  | refl => exact h
  | tail _ hlast ih => exact ih.step hlast

end Lifecycle

end LproxyCv.Foundation
