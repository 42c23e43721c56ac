import Mathlib.Data.List.AList

set_option autoImplicit false

/-!
# Foundation: a delay queue, and a table whose entries hold its keys

A delay queue holds values that are each due at some time, under keys that the queue
chooses and uses again.  When a value is due is left open here: any value of the queue can
be the next.  To put off again or to take out what is not there is a panic.

A table is `Paired` with a queue when its entries and the values of the queue belong to
each other, one to one.
-/

namespace LproxyCv.Foundation

/-- What is still in a table after an erasure has another key, and was there before. -/
theorem lookup_erase_eq_some {κ : Type} {β : κ → Type} [DecidableEq κ] {table : AList β}
    {a a' : κ} {b : β a'} (hlookup : (table.erase a).lookup a' = some b) :
    a' ≠ a ∧ table.lookup a' = some b := by
  have hne : a' ≠ a := by
    rintro rfl
    rw [AList.lookup_erase] at hlookup
    cases hlookup
  rw [AList.lookup_erase_ne hne] at hlookup
  exact ⟨hne, hlookup⟩

/-- The values that are put off, under their keys. -/
structure DelayQueue (α : Type) where
  items : AList fun _ : Nat => α

namespace DelayQueue

variable {α : Type}

/-- Nothing is put off. -/
def new : DelayQueue α := ⟨∅⟩

/-- Put a value off, under a key that no value has. -/
def insert (q : DelayQueue α) (key : Nat) (value : α) : DelayQueue α :=
  ⟨q.items.insert key value⟩

/-- Put off again what a key is for. -/
def reset (q : DelayQueue α) (key : Nat) : Option (DelayQueue α) :=
  if key ∈ q.items then some q else none

/-- Take out what a key is for. -/
def remove (q : DelayQueue α) (key : Nat) : Option (α × DelayQueue α) :=
  (q.items.lookup key).map fun value => (value, ⟨q.items.erase key⟩)

/-- Take everything out. -/
def clear (_ : DelayQueue α) : DelayQueue α := new

end DelayQueue

/-- Each entry of the table holds the key of a value of the queue, which is the entry's own
name; and each value of the queue has its entry, which holds its key. -/
structure Paired {α β : Type} [DecidableEq α] (table : AList fun _ : α => β × Nat)
    (q : DelayQueue α) : Prop where
  delay : ∀ {a : α} {b : β} {k : Nat}, table.lookup a = some (b, k) → q.items.lookup k = some a
  entry : ∀ {a : α} {k : Nat}, q.items.lookup k = some a → ∃ b, table.lookup a = some (b, k)

namespace Paired

variable {α β : Type} [DecidableEq α] {table : AList fun _ : α => β × Nat}
  {q q' : DelayQueue α} {a a' : α} {b : β} {k : Nat}

theorem empty : Paired (∅ : AList fun _ : α => β × Nat) DelayQueue.new :=
  ⟨by simp, by simp [DelayQueue.new]⟩

/-- Add an entry under a new name, with a new key. -/
theorem insert (h : Paired table q) (ha : a ∉ table) (hk : k ∉ q.items) :
    Paired (table.insert a (b, k)) (q.insert k a) := by
  constructor
  · intro a' b' k' hlookup
    by_cases haa : a' = a
    · subst haa
      rw [AList.lookup_insert] at hlookup
      cases hlookup
      exact AList.lookup_insert _
    · rw [AList.lookup_insert_ne haa] at hlookup
      have hold := h.delay hlookup
      have hne : k' ≠ k := by
        rintro rfl
        exact hk (AList.lookup_isSome.mp (Option.isSome_of_mem hold))
      exact (AList.lookup_insert_ne hne).trans hold
  · intro a' k' hlookup
    by_cases hkk : k' = k
    · subst hkk
      rw [DelayQueue.insert, AList.lookup_insert] at hlookup
      cases hlookup
      exact ⟨b, AList.lookup_insert _⟩
    · rw [DelayQueue.insert, AList.lookup_insert_ne hkk] at hlookup
      obtain ⟨b', hold⟩ := h.entry hlookup
      have hne : a' ≠ a := by
        rintro rfl
        exact ha (AList.lookup_isSome.mp (Option.isSome_of_mem hold))
      exact ⟨b', (AList.lookup_insert_ne hne).trans hold⟩

/-- The key of an entry can be put off again. -/
theorem reset (h : Paired table q) (hlookup : table.lookup a = some (b, k)) :
    q.reset k = some q :=
  if_pos (AList.lookup_isSome.mp (Option.isSome_of_mem (h.delay hlookup)))

/-- Take a value out together with its entry. -/
theorem erase (h : Paired table q) (hlookup : table.lookup a = some (b, k)) :
    Paired (table.erase a) ⟨q.items.erase k⟩ := by
  constructor
  · intro a' b' k' hlookup'
    obtain ⟨haa, hbefore⟩ := lookup_erase_eq_some hlookup'
    have hold := h.delay hbefore
    have hkk : k' ≠ k := by
      rintro rfl
      rw [h.delay hlookup] at hold
      exact haa (Option.some.inj hold).symm
    exact (AList.lookup_erase_ne hkk).trans hold
  · intro a' k' hlookup'
    obtain ⟨hkk, hbefore⟩ := lookup_erase_eq_some hlookup'
    obtain ⟨b', hold⟩ := h.entry hbefore
    have haa : a' ≠ a := by
      rintro rfl
      rw [hlookup] at hold
      exact hkk (Prod.mk.inj (Option.some.inj hold)).2.symm
    exact ⟨b', (AList.lookup_erase_ne haa).trans hold⟩

/-- The key of an entry can be taken out. -/
theorem remove (h : Paired table q) (hlookup : table.lookup a = some (b, k)) :
    q.remove k = some (a, ⟨q.items.erase k⟩) := by
  rw [DelayQueue.remove, h.delay hlookup]
  rfl

end Paired

end LproxyCv.Foundation
