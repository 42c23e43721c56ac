import Mathlib.Data.List.AList

set_option autoImplicit false

/-!
# Foundation: open descriptors and who closes them

A system hands out numbers that are not in use, and takes them back when they are closed.
`Descriptors` knows beside the numbers who has opened each of them, and what every close
was: on whose behalf, and whose the number was then.  A close of a number that is not open
does nothing, and is one all the same.
-/

namespace LproxyCv.Foundation

/-- A close: on whose behalf it was made, and who had opened what it closed. -/
structure Close where
  behalf : Nat
  owner : Option Nat
  deriving DecidableEq

/-- The open numbers with those who opened them, and the closes, the last one first. -/
structure Descriptors where
  opened : AList fun _ : Nat => Nat
  closes : List Close

namespace Descriptors

/-- Nothing has been opened. -/
def new : Descriptors := ⟨∅, []⟩

/-- `who` opens a number that is not in use. -/
def openAt (d : Descriptors) (fd who : Nat) : Descriptors :=
  { d with opened := d.opened.insert fd who }

/-- A close on behalf of `who`. -/
def close (d : Descriptors) (fd who : Nat) : Descriptors :=
  ⟨d.opened.erase fd, ⟨who, d.opened.lookup fd⟩ :: d.closes⟩

/-- Several closes, one after the other: the numbers, and on whose behalf. -/
def closeAll (d : Descriptors) (l : List (Nat × Nat)) : Descriptors :=
  l.foldl (fun d p => d.close p.1 p.2) d

/-- How many closes there were on behalf of `who`. -/
def closesOf (d : Descriptors) (who : Nat) : Nat := d.closes.countP fun c => c.behalf = who

variable {d : Descriptors} {fd fd' who who' : Nat}

@[simp] theorem closesOf_openAt : (d.openAt fd who).closesOf who' = d.closesOf who' := rfl

@[simp] theorem closesOf_close_self : (d.close fd who).closesOf who = d.closesOf who + 1 := by
  simp [closesOf, close]

theorem closesOf_close_ne (hne : who' ≠ who) :
    (d.close fd who).closesOf who' = d.closesOf who' := by
  simp [closesOf, close, hne.symm]

/-- What is open after a close was open before, under another number. -/
theorem lookup_close (hlookup : (d.close fd who).opened.lookup fd' = some who') :
    fd' ≠ fd ∧ d.opened.lookup fd' = some who' := by
  have hne : fd' ≠ fd := by
    rintro rfl
    rw [close, AList.lookup_erase] at hlookup
    cases hlookup
  rw [close, AList.lookup_erase_ne hne] at hlookup
  exact ⟨hne, hlookup⟩

/-- Every close was of what its maker had opened, nobody has made two, and whose number is
still open has made none. -/
structure Tidy (d : Descriptors) : Prop where
  own : ∀ c ∈ d.closes, c.owner = some c.behalf
  once : ∀ who, d.closesOf who ≤ 1
  left : ∀ {fd who : Nat}, d.opened.lookup fd = some who → d.closesOf who = 0
  apart : ∀ {fd fd' who : Nat}, d.opened.lookup fd = some who → d.opened.lookup fd' = some who →
    fd = fd'

theorem tidy_new : new.Tidy :=
  ⟨nofun, fun _ => Nat.zero_le _, by simp [new], by simp [new]⟩

namespace Tidy

/-- To open is tidy for one who has opened and closed nothing yet. -/
theorem openAt (h : d.Tidy) (hclosed : d.closesOf who = 0)
    (hopened : ∀ fd, d.opened.lookup fd ≠ some who) : (d.openAt fd who).Tidy := by
  refine ⟨h.own, h.once, ?_, ?_⟩
  · intro fd' who' hlookup
    by_cases hfd : fd' = fd
    · subst hfd
      rw [Descriptors.openAt, AList.lookup_insert] at hlookup
      cases hlookup
      exact hclosed
    · rw [Descriptors.openAt, AList.lookup_insert_ne hfd] at hlookup
      exact h.left hlookup
  · intro fd₁ fd₂ who' h₁ h₂
    by_cases hfd₁ : fd₁ = fd <;> by_cases hfd₂ : fd₂ = fd
    · exact hfd₁.trans hfd₂.symm
    · subst hfd₁
      rw [Descriptors.openAt, AList.lookup_insert] at h₁
      rw [Descriptors.openAt, AList.lookup_insert_ne hfd₂] at h₂
      cases h₁
      exact absurd h₂ (hopened fd₂)
    · subst hfd₂
      rw [Descriptors.openAt, AList.lookup_insert_ne hfd₁] at h₁
      rw [Descriptors.openAt, AList.lookup_insert] at h₂
      cases h₂
      exact absurd h₁ (hopened fd₁)
    · rw [Descriptors.openAt, AList.lookup_insert_ne hfd₁] at h₁
      rw [Descriptors.openAt, AList.lookup_insert_ne hfd₂] at h₂
      exact h.apart h₁ h₂

/-- To close one's own number is tidy. -/
theorem close (h : d.Tidy) (hlookup : d.opened.lookup fd = some who) : (d.close fd who).Tidy := by
  refine ⟨?_, ?_, ?_, ?_⟩
  · intro c hc
    rcases List.mem_cons.mp hc with rfl | hold
    · exact hlookup
    · exact h.own c hold
  · intro who'
    by_cases hwho : who' = who
    · subst hwho
      rw [closesOf_close_self, h.left hlookup]
    · rw [closesOf_close_ne hwho]
      exact h.once who'
  · intro fd' who' hlookup'
    obtain ⟨hne, hold⟩ := lookup_close hlookup'
    have hwho : who' ≠ who := by
      rintro rfl
      exact hne (h.apart hold hlookup)
    rw [closesOf_close_ne hwho]
    exact h.left hold
  · intro fd₁ fd₂ who' h₁ h₂
    exact h.apart (lookup_close h₁).2 (lookup_close h₂).2

/-- To close numbers of one's own is tidy, when each does it once. -/
theorem closeAll {l : List (Nat × Nat)} (h : d.Tidy)
    (hopened : ∀ p ∈ l, d.opened.lookup p.1 = some p.2) (hnodup : (l.map Prod.snd).Nodup) :
    (d.closeAll l).Tidy := by
  induction l generalizing d with
  | nil => exact h
  | cons p l ih =>
      obtain ⟨hnotin, hnodup⟩ := List.nodup_cons.mp hnodup
      refine ih (h.close (hopened p List.mem_cons_self)) ?_ hnodup
      intro p' hp'
      have hlookup := hopened p' (List.mem_cons_of_mem p hp')
      have hne : p'.1 ≠ p.1 := by
        intro heq
        rw [heq, hopened p List.mem_cons_self] at hlookup
        exact hnotin (Option.some.inj hlookup ▸ List.mem_map_of_mem hp')
      exact (AList.lookup_erase_ne hne).trans hlookup

end Tidy

/-- What is open after several closes was open before. -/
theorem lookup_of_closeAll {l : List (Nat × Nat)}
    (hlookup : (d.closeAll l).opened.lookup fd = some who) : d.opened.lookup fd = some who := by
  induction l generalizing d with
  | nil => exact hlookup
  | cons p l ih => exact (lookup_close (ih hlookup)).2

/-- A number that is not among those that are closed stays open. -/
theorem lookup_closeAll {l : List (Nat × Nat)} (hnotin : fd ∉ l.map Prod.fst) :
    (d.closeAll l).opened.lookup fd = d.opened.lookup fd := by
  induction l generalizing d with
  | nil => rfl
  | cons p l ih =>
      obtain ⟨hne, hrest⟩ := not_or.mp (List.mem_cons.not.mp hnotin)
      exact (ih hrest).trans (AList.lookup_erase_ne hne)

theorem closesOf_closeAll {l : List (Nat × Nat)} :
    (d.closeAll l).closesOf who = d.closesOf who + (l.map Prod.snd).count who := by
  induction l generalizing d with
  | nil => rfl
  | cons p l ih =>
      have hrest := ih (d := d.close p.1 p.2)
      by_cases hwho : who = p.2
      · subst hwho
        rw [closesOf_close_self] at hrest
        rw [List.map_cons, List.count_cons_self]
        exact hrest.trans (by omega)
      · rw [closesOf_close_ne hwho] at hrest
        rw [List.map_cons, List.count_cons_of_ne (Ne.symm hwho)]
        exact hrest

end Descriptors

end LproxyCv.Foundation
