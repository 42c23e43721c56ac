import Mathlib.Data.List.Basic

set_option autoImplicit false

/-!
# Foundation: tasks that hold their owner

An owner keeps the triggers of the tasks it has spawned, and each of the tasks holds the
owner.  So when the owner's own future returns, the owner is dropped, and its triggers with
it, only if no task is left (`leave_over_iff`); to end the tasks, the owner has to drop the
triggers itself (`exists_join`).
-/

namespace LproxyCv.Foundation

/-- A task: what it does, and where the trigger is kept that ends it when it is dropped.  A task
without one ends by itself. -/
structure Task (σ ω : Type) where
  work : ω
  slot : Option σ
  deriving DecidableEq, Repr

/-- An owner with the tasks that hold it: whether its own future runs, the tasks that run, and
the triggers it keeps, while it is there. -/
structure Spawned (σ ω : Type) where
  serving : Bool
  tasks : List (Task σ ω)
  triggers : List σ
  deriving DecidableEq, Repr

namespace Spawned

variable {σ ω : Type}

/-- An owner whose future has just begun. -/
def begin : Spawned σ ω := ⟨true, [], []⟩

/-- Spawn a task, and keep its trigger. -/
def spawn (t : Spawned σ ω) (work : ω) (slot : Option σ) : Spawned σ ω :=
  { t with tasks := t.tasks ++ [⟨work, slot⟩], triggers := t.triggers ++ slot.toList }

/-- Nothing runs any more. -/
def Over (t : Spawned σ ω) : Prop := t.serving = false ∧ t.tasks = []

/-- The triggers of the tasks are kept. -/
def Kept (t : Spawned σ ω) : Prop := ∀ task ∈ t.tasks, ∀ s, task.slot = some s → s ∈ t.triggers

/-- The triggers of the tasks are kept at certain places. -/
def Within (slots : List σ) (t : Spawned σ ω) : Prop :=
  ∀ task ∈ t.tasks, ∀ s, task.slot = some s → s ∈ slots

theorem kept_begin : (begin : Spawned σ ω).Kept := fun _ h => absurd h List.not_mem_nil

theorem within_begin (slots : List σ) : (begin : Spawned σ ω).Within slots :=
  fun _ h => absurd h List.not_mem_nil

theorem Kept.spawn {t : Spawned σ ω} (h : t.Kept) (work : ω) (slot : Option σ) :
    (t.spawn work slot).Kept := by
  intro task htask s hs
  rcases List.mem_append.mp htask with htask | htask
  · exact List.mem_append_left _ (h task htask s hs)
  · rw [List.mem_singleton.mp htask] at hs
    exact List.mem_append_right _ (Option.mem_toList.mpr hs)

theorem Within.spawn {slots : List σ} {t : Spawned σ ω} (h : t.Within slots) (work : ω) {s : σ}
    (hs : s ∈ slots) : (t.spawn work (some s)).Within slots := by
  intro task htask s' hs'
  rcases List.mem_append.mp htask with htask | htask
  · exact h task htask s' hs'
  · rw [List.mem_singleton.mp htask] at hs'
    exact Option.some.inj hs' ▸ hs

theorem Within.spawn_free {slots : List σ} {t : Spawned σ ω} (h : t.Within slots) (work : ω) :
    (t.spawn work none).Within slots := by
  intro task htask s hs
  rcases List.mem_append.mp htask with htask | htask
  · exact h task htask s hs
  · rw [List.mem_singleton.mp htask] at hs
    cases hs

variable [DecidableEq σ]

/-- The tasks end whose triggers are dropped. -/
def settle (t : Spawned σ ω) : Spawned σ ω :=
  { t with tasks := t.tasks.filter fun task => task.slot.all fun s => s ∈ t.triggers }

/-- The owner's future returns.  The owner goes, with its triggers, unless a task holds it. -/
def leave (t : Spawned σ ω) : Spawned σ ω :=
  settle { t with serving := false, triggers := if t.tasks.isEmpty then [] else t.triggers }

/-- The owner drops triggers. -/
def release (t : Spawned σ ω) (slots : List σ) : Spawned σ ω :=
  { t with triggers := t.triggers.filter fun s => s ∉ slots }

/-- Wait for all tasks; `none` is to wait for ever. -/
def join (t : Spawned σ ω) : Option (Spawned σ ω) :=
  if t.serving = false ∧ ∀ task ∈ t.tasks, task.slot = none then some { t with tasks := [] }
  else none

variable {t : Spawned σ ω}

/-- When the owner's future returns, everything is over exactly when nothing was spawned. -/
theorem leave_over_iff (h : t.Kept) : t.leave.Over ↔ t.tasks = [] := by
  unfold leave settle Over
  cases htasks : t.tasks with
  | nil => simp
  | cons task tasks =>
      have hslot : task.slot.all (fun s => decide (s ∈ t.triggers)) = true := by
        have hkept := h task (by simp [htasks])
        cases hs : task.slot with
        | none => rfl
        | some s => simp [hkept s hs]
      simp [hslot]

/-- An owner that drops the triggers of its tasks can be waited for. -/
theorem exists_join {slots : List σ} (h : t.Within slots) :
    ∃ t', (t.release slots).leave.join = some t' ∧ t'.Over := by
  have hnone : ∀ task ∈ (t.release slots).leave.tasks, task.slot = none := by
    intro task htask
    obtain ⟨htask, hkept⟩ := List.mem_filter.mp htask
    cases hs : task.slot with
    | none => rfl
    | some s =>
        have hin : s ∈ slots := h task htask s hs
        rw [hs, Option.all_some, decide_eq_true_eq] at hkept
        split at hkept
        · exact absurd hkept List.not_mem_nil
        · have hout := (List.mem_filter.mp hkept).2
          exact absurd hin (of_decide_eq_true hout)
  exact ⟨_, if_pos ⟨rfl, hnone⟩, rfl, rfl⟩

end Spawned

end LproxyCv.Foundation
