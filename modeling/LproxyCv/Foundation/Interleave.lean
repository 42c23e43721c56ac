import Mathlib.Data.List.Basic

set_option autoImplicit false

/-!
# Foundation: many queues over one

A shared queue carries items of many keys.  `only k q` is what it carries for the
key `k`, in order; the queue interleaves some lists when it carries, for each key,
the list of that key and nothing else.  Whatever is done to each item by itself,
and however the keys are named on the way, each key's part is the one that went in.
-/

namespace LproxyCv.Foundation

variable {κ α β γ : Type} [DecidableEq κ] [DecidableEq γ]

/-- The items of one key, in order. -/
def only (k : κ) (q : List (κ × α)) : List α :=
  q.filterMap fun p => if p.1 = k then some p.2 else none

/-- The shared queue carries the list of each key, in order, and nothing else. -/
structure Interleaves (keys : List κ) (lists : κ → List α) (q : List (κ × α)) : Prop where
  known : ∀ p ∈ q, p.1 ∈ keys
  order : ∀ k ∈ keys, only k q = lists k

theorem mem_only {k : κ} {a : α} {q : List (κ × α)} : a ∈ only k q ↔ (k, a) ∈ q := by
  unfold only
  rw [List.mem_filterMap]
  constructor
  · rintro ⟨⟨k', a'⟩, hmem, hsome⟩
    split at hsome
    · rename_i hk
      cases hsome
      exact hk ▸ hmem
    · cases hsome
  · intro hmem
    exact ⟨(k, a), hmem, if_pos rfl⟩

/-- An item of the queue is one of its key's list. -/
theorem Interleaves.mem {keys : List κ} {lists : κ → List α} {q : List (κ × α)}
    (h : Interleaves keys lists q) {p : κ × α} (hp : p ∈ q) : p.2 ∈ lists p.1 := by
  rw [← h.order p.1 (h.known p hp)]
  exact mem_only.mpr hp

/-- Items sent under an address of their key are, at the address of one key, the
items of that key, as long as different keys have different addresses. -/
theorem only_address {keys : List κ} {addr : κ → γ}
    (hinj : ∀ k ∈ keys, ∀ k' ∈ keys, addr k = addr k' → k = k') {q : List (κ × α)}
    (hq : ∀ p ∈ q, p.1 ∈ keys) (f : κ → α → β) {k : κ} (hk : k ∈ keys) :
    only (addr k) (q.map fun p => (addr p.1, f p.1 p.2)) = (only k q).map (f k) := by
  induction q with
  | nil => rfl
  | cons p q ih =>
      have hrest := ih fun p' hp' => hq p' (List.mem_cons_of_mem p hp')
      have hp := hq p List.mem_cons_self
      unfold only at hrest ⊢
      by_cases hkey : p.1 = k
      · simp [hkey, hrest]
      · have haddr : addr p.1 ≠ addr k := fun heq => hkey (hinj p.1 hp k hk heq)
        simp [hkey, haddr, hrest]

end LproxyCv.Foundation
