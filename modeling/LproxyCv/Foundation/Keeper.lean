import LproxyCv.Foundation.Lifecycle
import LproxyCv.Foundation.Run

set_option autoImplicit false

/-!
# Foundation: a manager beside its tasks

An attempt to connect is a task that calls its manager back once, with the
connection or with an error; the task of a connection calls back when the
connection is gone.  `Manager` has these calls and all other inputs as functions,
and `Step` runs them beside the tasks, in any order.

`Keeps` says of each call alone what it does to the table, the queue and the flag
that stops the manager.  From that, `Keeps.run` has every run follow `Lifecycle`.
-/

namespace LproxyCv.Foundation

/-- The calls into a manager `μ`.  `κ` is a task that connects, `ρ` what a
connection brings along, `ι` any other input.  `none` is a panic. -/
structure Manager (μ κ ρ ι : Type) where
  index : κ → Nat
  /-- an attempt has succeeded; the flag tells whether the connection is taken -/
  connected : μ → κ → ρ → Option (Bool × μ)
  failed : μ → κ → Option μ
  ended : μ → Nat → Option μ
  /-- any other input, with the attempts it starts -/
  input : μ → ι → Option (μ × List κ)

/-- A manager, its tasks, and the attempts ever started. -/
structure Tasks (μ κ : Type) where
  mgr : μ
  connecting : List κ
  serving : List Nat
  started : List κ
  deriving DecidableEq

/-- What a task or the surroundings do. -/
inductive Call (κ ρ ι : Type) where
  | connected (task : κ) (conn : ρ)
  | failed (task : κ)
  | ended (i : Nat)
  | input (x : ι)

/-- Where a manager keeps its table, its queue and the flag that stops it. -/
structure View (μ : Type) where
  table : μ → List Bool
  queue : μ → List Nat
  stopped : μ → Bool

namespace Manager

variable {μ κ ρ ι : Type} (M : Manager μ κ ρ ι)

/-- A manager and the attempts it starts with. -/
def start (m : μ) (tasks : List κ) : Tasks μ κ := ⟨m, tasks, [], tasks⟩

/-- The steps of a manager and its tasks. -/
inductive Step [DecidableEq κ] : Tasks μ κ → Call κ ρ ι → Tasks μ κ → Prop where
  | connected {s : Tasks μ κ} {task : κ} {conn : ρ} {taken : Bool} {m : μ} :
      task ∈ s.connecting → M.connected s.mgr task conn = some (taken, m) →
      Step s (.connected task conn) { s with
        mgr := m
        connecting := s.connecting.erase task
        serving := if taken then M.index task :: s.serving else s.serving }
  | failed {s : Tasks μ κ} {task : κ} {m : μ} :
      task ∈ s.connecting → M.failed s.mgr task = some m →
      Step s (.failed task) { s with mgr := m, connecting := s.connecting.erase task }
  | ended {s : Tasks μ κ} {i : Nat} {m : μ} :
      i ∈ s.serving → M.ended s.mgr i = some m →
      Step s (.ended i) { s with mgr := m, serving := s.serving.erase i }
  | input {s : Tasks μ κ} {x : ι} {m : μ} {tasks : List κ} :
      M.input s.mgr x = some (m, tasks) →
      Step s (.input x) { s with
        mgr := m
        connecting := tasks ++ s.connecting
        started := tasks ++ s.started }

/-- What an input does to the manager, as far as its connections are concerned. -/
inductive Turn (V : View μ) (m m' : μ) (tasks : List κ) : Prop where
  | idle : V.table m' = V.table m → V.queue m' = V.queue m → V.stopped m' = V.stopped m →
      tasks = [] → Turn V m m' tasks
  | retry : V.stopped m = false → V.stopped m' = false → V.table m' = V.table m →
      V.queue m' = [] → tasks.map M.index = V.queue m → Turn V m m' tasks
  | stop : V.stopped m' = true → V.table m' = V.table m → V.queue m' = V.queue m →
      tasks = [] → Turn V m m' tasks

/-- What each call does to a manager of `n` connections.  The invariant `inv` is
the manager's own; the inputs `tick` never panic. -/
structure Keeps (V : View μ) (n : Nat) (inv : μ → Prop) (tick : ι → Prop) : Prop where
  connected : ∀ {m : μ} {task : κ} (conn : ρ), inv m → V.stopped m = false →
    (V.table m)[M.index task]? = some false →
    ∃ m', M.connected m task conn = some (true, m') ∧ inv m' ∧
      V.table m' = (V.table m).set (M.index task) true ∧ V.queue m' = V.queue m ∧
      V.stopped m' = false
  refused : ∀ {m : μ} {task : κ} (conn : ρ), inv m → V.stopped m = true →
    M.connected m task conn = some (false, m)
  failed : ∀ {m : μ} {task : κ}, inv m → V.stopped m = false → M.index task < n →
    ∃ m', M.failed m task = some m' ∧ inv m' ∧ V.table m' = V.table m ∧
      V.queue m' = M.index task :: V.queue m ∧ V.stopped m' = false
  abandoned : ∀ {m : μ} {task : κ}, inv m → V.stopped m = true → M.failed m task = some m
  ended : ∀ {m : μ} {i : Nat}, inv m → (V.table m)[i]? = some true → i < n →
    ∃ m', M.ended m i = some m' ∧ inv m' ∧ V.table m' = (V.table m).set i false ∧
      (V.stopped m = false → V.queue m' = i :: V.queue m) ∧ V.stopped m' = V.stopped m
  input : ∀ {m m' : μ} {x : ι} {tasks : List κ}, inv m → M.input m x = some (m', tasks) →
    inv m' ∧ M.Turn V m m' tasks
  ticks : ∀ {m : μ} {x : ι}, inv m → (V.stopped m = false → ∀ i ∈ V.queue m, i < n) →
    tick x → M.input m x ≠ none

/-- What a manager and its tasks look like from afar. -/
def lifecycle (V : View μ) (s : Tasks μ κ) : Lifecycle :=
  { connecting := (s.connecting : Multiset κ).map M.index
    serving := s.serving
    table := V.table s.mgr
    queue := V.queue s.mgr
    stopped := V.stopped s.mgr
    started := s.started.map M.index }

variable {M}

theorem mem_connecting {V : View μ} {s : Tasks μ κ} {task : κ} (h : task ∈ s.connecting) :
    M.index task ∈ (M.lifecycle V s).connecting :=
  Multiset.mem_map_of_mem _ (Multiset.mem_coe.mpr h)

/-- An attempt that is over is over from afar. -/
theorem map_erase [DecidableEq κ] {s : Tasks μ κ} {task : κ} (h : task ∈ s.connecting) :
    ((s.connecting.erase task : List κ) : Multiset κ).map M.index =
      ((s.connecting : Multiset κ).map M.index).erase (M.index task) := by
  rw [← Multiset.coe_erase]
  exact Multiset.map_erase_of_mem M.index _ (Multiset.mem_coe.mpr h)

/-- An attempt that ends when the manager has stopped is dropped. -/
theorem step_drop [DecidableEq κ] {V : View μ} {s : Tasks μ κ} {task : κ}
    (hmem : task ∈ s.connecting) (hstop : V.stopped s.mgr = true) :
    Lifecycle.Step (M.lifecycle V s)
      (M.lifecycle V { s with connecting := s.connecting.erase task }) := by
  have hto := Lifecycle.Step.drop (l := M.lifecycle V s) (i := M.index task) hstop
  convert hto using 1
  simp [lifecycle, map_erase hmem]

/-- Every step of a manager and its tasks is a step of a life cycle, or none. -/
theorem Keeps.step [DecidableEq κ] {V : View μ} {n : Nat} {inv : μ → Prop} {tick : ι → Prop}
    (h : M.Keeps V n inv tick) {s s' : Tasks μ κ} {e : Call κ ρ ι}
    (hplaced : (M.lifecycle V s).Placed n) (hinv : inv s.mgr) (hstep : M.Step s e s') :
    inv s'.mgr ∧ Relation.ReflTransGen Lifecycle.Step (M.lifecycle V s) (M.lifecycle V s') := by
  cases hstep with
  | @connected task conn taken m hmem hcall =>
      cases hstop : V.stopped s.mgr with
      | false =>
          have hfree := hplaced.free hstop (mem_connecting hmem)
          obtain ⟨m', hok, hinv', htable, hqueue, hrun⟩ := h.connected conn hinv hstop hfree
          rw [hcall] at hok
          cases hok
          refine ⟨hinv', .single ?_⟩
          have hto := Lifecycle.Step.succeed (l := M.lifecycle V s) hstop
            (mem_connecting hmem) hfree
          convert hto using 1
          simp [lifecycle, htable, hqueue, hrun, hstop, map_erase hmem]
      | true =>
          rw [h.refused conn hinv hstop] at hcall
          cases hcall
          exact ⟨hinv, .single (step_drop hmem hstop)⟩
  | @failed task m hmem hcall =>
      cases hstop : V.stopped s.mgr with
      | false =>
          have hlt := hplaced.bound _ (mem_connecting hmem)
          obtain ⟨m', hok, hinv', htable, hqueue, hrun⟩ := h.failed hinv hstop hlt
          rw [hcall] at hok
          cases hok
          refine ⟨hinv', .single ?_⟩
          have hto := Lifecycle.Step.fail (l := M.lifecycle V s) hstop (mem_connecting hmem)
          convert hto using 1
          simp [lifecycle, htable, hqueue, hrun, hstop, map_erase hmem]
      | true =>
          rw [h.abandoned hinv hstop] at hcall
          cases hcall
          exact ⟨hinv, .single (step_drop hmem hstop)⟩
  | @ended i m hmem hcall =>
      have hpresent := hplaced.present hmem
      obtain ⟨m', hok, hinv', htable, hqueue, hsame⟩ :=
        h.ended hinv hpresent (Lifecycle.lt_of_present hplaced hpresent)
      rw [hcall] at hok
      cases hok
      refine ⟨hinv', .single ?_⟩
      cases hstop : V.stopped s.mgr with
      | false =>
          have hto := Lifecycle.Step.leave (l := M.lifecycle V s) hstop hmem
          convert hto using 1
          simp [lifecycle, htable, hqueue hstop, hsame]
      | true =>
          have hto := Lifecycle.Step.leaveStopped (l := M.lifecycle V s) (V.queue m) hstop hmem
          convert hto using 1
          simp [lifecycle, htable, hsame]
  | @input x m tasks hcall =>
      obtain ⟨hinv', hturn⟩ := h.input hinv hcall
      refine ⟨hinv', ?_⟩
      cases hturn with
      | idle htable hqueue hsame htasks =>
          subst htasks
          have heq : M.lifecycle V { s with
              mgr := m, connecting := [] ++ s.connecting, started := [] ++ s.started } =
              M.lifecycle V s := by
            simp [lifecycle, htable, hqueue, hsame]
          rw [heq]
      | retry hrun hrun' htable hqueue htasks =>
          refine .single ?_
          have hto := Lifecycle.Step.retry (l := M.lifecycle V s) hrun
          convert hto using 1
          simp [lifecycle, htable, hqueue, hrun, hrun', ← htasks, ← Multiset.coe_add]
      | stop hstop htable hqueue htasks =>
          subst htasks
          refine .single ?_
          have hto := Lifecycle.Step.stop (l := M.lifecycle V s)
          convert hto using 1
          simp [lifecycle, htable, hqueue, hstop]

/-- Starting attempts that all succeed or all fail. -/
theorem mapM_if {α β : Type} (c : Bool) (g : α → β) (l : List α) :
    (l.mapM fun a => if c then some (g a) else none) =
      if l = [] ∨ c = true then some (l.map g) else none := by
  induction l with
  | nil => simp
  | cons a l ih =>
      rw [List.mapM_cons, ih]
      cases c <;> simp

/-- Which places of a table are taken. -/
def taken {τ : Type} (table : List (Option τ)) : List Bool := table.map Option.isSome

section Taken

variable {τ : Type} {table : List (Option τ)} {i : Nat}

theorem taken_false (h : (taken table)[i]? = some false) : table[i]? = some none := by
  simpa [taken] using h

theorem taken_true (h : (taken table)[i]? = some true) : ∃ t, table[i]? = some (some t) := by
  simpa [taken, Option.isSome_iff_exists] using h

theorem taken_set (t : Option τ) : taken (table.set i t) = (taken table).set i t.isSome := by
  simp [taken, List.map_set]

/-- A connection that changes stays where it is. -/
theorem taken_set_some {t t' : τ} (h : table[i]? = some (some t)) :
    taken (table.set i (some t')) = taken table := by
  have htaken : (taken table)[i]? = some true := by
    rw [taken, List.getElem?_map, h]
    rfl
  obtain ⟨hlt, heq⟩ := List.getElem?_eq_some_iff.mp htaken
  rw [taken_set, Option.isSome_some, ← heq, List.set_getElem_self]

theorem taken_map (f : τ → τ) : taken (table.map (Option.map f)) = taken table := by
  simp [taken]

end Taken

/-! ## Runs -/

variable [DecidableEq κ]

/-- What holds in every state that a manager reaches. -/
structure Kept (M : Manager μ κ ρ ι) (V : View μ) (n : Nat) (tick : ι → Prop) (s : Tasks μ κ) :
    Prop where
  /-- every index is in exactly one place -/
  once : V.stopped s.mgr = false → ∀ i < n,
    (s.connecting.map M.index).count i + (if (V.table s.mgr)[i]? = some true then 1 else 0) +
      (V.queue s.mgr).count i = 1
  /-- what is in the table is served by one task, so that it comes back when that task ends -/
  served : ∀ i, s.serving.count i = if (V.table s.mgr)[i]? = some true then 1 else 0
  /-- a connection that comes up is taken -/
  taken : V.stopped s.mgr = false → ∀ task ∈ s.connecting, ∀ conn,
    ∃ m, M.connected s.mgr task conn = some (true, m)
  /-- and never found with its place occupied -/
  unpanicked : ∀ task ∈ s.connecting, ∀ conn, M.connected s.mgr task conn ≠ none
  ticks : ∀ x, tick x → M.input s.mgr x ≠ none
  /-- a stopped manager starts nothing and takes nothing -/
  halted : V.stopped s.mgr = true →
    ∀ (es : List (Call κ ρ ι)) (s' : Tasks μ κ), Run M.Step s es s' →
      V.stopped s'.mgr = true ∧ s'.started = s.started ∧
      ∀ i : Nat, (V.table s'.mgr)[i]? = some true → (V.table s.mgr)[i]? = some true

/-- The attempts ever started only become more. -/
theorem started_suffix {s s' : Tasks μ κ} {es : List (Call κ ρ ι)} (hrun : Run M.Step s es s') :
    s.started <:+ s'.started := by
  refine hrun.preserves (I := fun t => s.started <:+ t.started) ?_ List.suffix_rfl
  intro t e t' ht hstep
  cases hstep with
  | connected _ _ => exact ht
  | failed _ _ => exact ht
  | ended _ _ => exact ht
  | input _ => exact ht.trans (List.suffix_append _ _)

variable {V : View μ} {n : Nat} {inv : μ → Prop} {tick : ι → Prop}

/-- Every run of a manager and its tasks is one of a life cycle. -/
theorem Keeps.run (h : M.Keeps V n inv tick) {s s' : Tasks μ κ} {es : List (Call κ ρ ι)}
    (hplaced : (M.lifecycle V s).Placed n) (hinv : inv s.mgr) (hrun : Run M.Step s es s') :
    inv s'.mgr ∧ (M.lifecycle V s').Placed n ∧
      Relation.ReflTransGen Lifecycle.Step (M.lifecycle V s) (M.lifecycle V s') := by
  refine hrun.preserves (I := fun t => inv t.mgr ∧ (M.lifecycle V t).Placed n ∧
    Relation.ReflTransGen Lifecycle.Step (M.lifecycle V s) (M.lifecycle V t)) ?_
    ⟨hinv, hplaced, .refl⟩
  rintro t e t' ⟨htinv, htplaced, hto⟩ hstep
  obtain ⟨hinv', hsteps⟩ := h.step htplaced htinv hstep
  exact ⟨hinv', htplaced.steps hsteps, hto.trans hsteps⟩

/-- Every state a manager reaches keeps its connections. -/
theorem Keeps.kept (h : M.Keeps V n inv tick) {s s' : Tasks μ κ} {es : List (Call κ ρ ι)}
    (hplaced : (M.lifecycle V s).Placed n) (hinv : inv s.mgr) (hrun : Run M.Step s es s') :
    M.Kept V n tick s' := by
  obtain ⟨hinv', hplaced', _⟩ := h.run hplaced hinv hrun
  have htaken : V.stopped s'.mgr = false → ∀ task ∈ s'.connecting, ∀ conn,
      ∃ m, M.connected s'.mgr task conn = some (true, m) := by
    intro hstop task hmem conn
    obtain ⟨m, hok, _⟩ := h.connected conn hinv' hstop (hplaced'.free hstop (mem_connecting hmem))
    exact ⟨m, hok⟩
  refine ⟨?_, ?_, htaken, ?_, ?_, ?_⟩
  · intro hstop i hi
    have hone := hplaced'.once hstop i hi
    simp only [lifecycle, Multiset.map_coe, Multiset.coe_count] at hone
    convert hone using 2
    exact congrArg _ (if_congr Iff.rfl rfl rfl)
  · intro i
    exact (hplaced'.served i).trans (if_congr Iff.rfl rfl rfl)
  · intro task hmem conn hpanic
    cases hstop : V.stopped s'.mgr with
    | false =>
        obtain ⟨m, hok⟩ := htaken hstop task hmem conn
        rw [hpanic] at hok
        cases hok
    | true =>
        rw [h.refused conn hinv' hstop] at hpanic
        cases hpanic
  · intro x hx
    exact h.ticks hinv' hplaced'.queued hx
  · intro hstop fs s'' hrest
    obtain ⟨_, _, hsteps⟩ := h.run hplaced' hinv' hrest
    have hhalted := Lifecycle.halted_steps hstop hsteps
    have hlen := congrArg List.length hhalted.started
    simp only [lifecycle, List.length_map] at hlen
    exact ⟨hhalted.stopped, ((started_suffix hrest).eq_of_length hlen.symm).symm, hhalted.present⟩

omit [DecidableEq κ] in
/-- A manager with an empty table whose attempts have all just been started. -/
theorem placed_start {m : μ} {tasks : List κ} (htable : V.table m = List.replicate n false)
    (hqueue : V.queue m = []) (hstop : V.stopped m = false)
    (htasks : tasks.map M.index = List.range n) :
    (M.lifecycle V (start m tasks)).Placed n := by
  have hinit : M.lifecycle V (start m tasks) = Lifecycle.init n := by
    simp [lifecycle, start, Lifecycle.init, htable, hqueue, hstop, htasks, Multiset.range]
  rw [hinit]
  exact Lifecycle.placed_init n

end Manager

end LproxyCv.Foundation
