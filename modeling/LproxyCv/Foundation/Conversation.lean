import LproxyCv.Foundation.Run
import Mathlib.Data.List.Basic

set_option autoImplicit false

/-!
# Foundation: conversations that share a line

A log has what was said, each with the key of the conversation it belongs to.  A protocol says
where a conversation starts and what may be said next, and `status` where each conversation of
a log stands: `none` when something was said in it that may not be.  What is said in one
conversation moves that one, and no other.
-/

namespace LproxyCv.Foundation

/-- How a conversation starts, and what becomes of it by what is said. -/
structure Protocol (σ α : Type) where
  start : σ
  hear : σ → α → Option σ

namespace Protocol

variable {σ α κ : Type} [DecidableEq κ]

/-- What was said in one conversation. -/
def about (log : List (κ × α)) (k : κ) : List α := (log.filter (·.1 = k)).map Prod.snd

/-- Where a conversation stands, if only what may be said was said in it. -/
def status (p : Protocol σ α) (log : List (κ × α)) (k : κ) : Option σ :=
  (about log k).foldlM p.hear p.start

variable {p : Protocol σ α} {log said : List (κ × α)} {k k' : κ} {a : α}

@[simp] theorem status_nil : p.status ([] : List (κ × α)) k = some p.start := rfl

/-- What was not said in a conversation leaves it where it stands. -/
theorem status_append_of_ne (h : ∀ x ∈ said, x.1 ≠ k) :
    p.status (log ++ said) k = p.status log k := by
  have hnone : said.filter (·.1 = k) = [] := by
    rw [List.filter_eq_nil_iff]
    intro x hx
    simpa using h x hx
  rw [status, about, List.filter_append, hnone, List.append_nil]
  rfl

/-- What is said in a conversation moves it. -/
theorem status_concat_self : p.status (log ++ [(k, a)]) k = (p.status log k).bind (p.hear · a) := by
  have hone : about (log ++ [(k, a)]) k = about log k ++ [a] := by simp [about]
  rw [status, hone, List.foldlM_append]
  simp [status]

theorem status_concat_of_ne (h : k' ≠ k) : p.status (log ++ [(k', a)]) k = p.status log k :=
  status_append_of_ne (by simpa using h)

/-- When nothing that is said leads back to the start, a conversation at its start has not
begun. -/
theorem not_mem_of_status_start (hstart : ∀ s a, p.hear s a ≠ some p.start)
    (h : p.status log k = some p.start) (a : α) : (k, a) ∉ log := by
  intro hmem
  have hne : about log k ≠ [] := by
    have hin : a ∈ about log k := List.mem_map.mpr ⟨(k, a), by simpa using hmem, rfl⟩
    exact List.ne_nil_of_mem hin
  obtain ⟨front, last, hsplit⟩ := (about log k).eq_nil_or_concat.resolve_left hne
  rw [status, hsplit, List.concat_eq_append, List.foldlM_append] at h
  simp only [List.foldlM_cons, List.foldlM_nil, Option.bind_eq_bind, Option.bind_eq_some_iff,
    Option.pure_def, Option.some.injEq] at h
  obtain ⟨s, _, s', hlast, rfl⟩ := h
  exact hstart s last hlast

/-- A conversation that has not begun had not begun before. -/
theorem status_start_of_append (hstart : ∀ s a, p.hear s a ≠ some p.start)
    (h : p.status (log ++ said) k = some p.start) : p.status log k = some p.start := by
  have hnone : log.filter (·.1 = k) = [] := by
    rw [List.filter_eq_nil_iff]
    intro x hx hkey
    obtain ⟨k', a⟩ := x
    rw [decide_eq_true_eq] at hkey
    subst hkey
    exact not_mem_of_status_start hstart h a (List.mem_append_left _ hx)
  rw [status, about, hnone]
  rfl

end Protocol

end LproxyCv.Foundation
