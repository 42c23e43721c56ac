import Mathlib.Data.String.Basic

set_option autoImplicit false

/-!
# Foundation: byte offsets in a text

A text is characters, and an offset in it counts bytes.  A text can be cut only where a
character ends, so cutting at an offset may fail (`splitBytes`); a search gives an offset at
which it cannot (`find`).
-/

namespace LproxyCv.Foundation

open String (utf8Len)

/-- The text before an offset and the text behind it, if no character is across it. -/
def splitBytes (text : List Char) (n : Nat) : Option (List Char × List Char) :=
  if n = 0 then some ([], text)
  else
    match text with
    | [] => none
    | c :: rest =>
        if c.utf8Size ≤ n then
          (splitBytes rest (n - c.utf8Size)).map fun r => (c :: r.1, r.2)
        else none

/-- The text from an offset on. -/
def sliceFrom (text : List Char) (start : Nat) : Option (List Char) :=
  (splitBytes text start).map Prod.snd

/-- The text between two offsets. -/
def slice (text : List Char) (start stop : Nat) : Option (List Char) :=
  if start ≤ stop then
    (sliceFrom text start).bind fun rest => (splitBytes rest (stop - start)).map Prod.fst
  else none

theorem splitBytes_eq_some_iff {text front rest : List Char} {n : Nat} :
    splitBytes text n = some (front, rest) ↔ text = front ++ rest ∧ utf8Len front = n := by
  induction text generalizing n front with
  | nil =>
      unfold splitBytes
      by_cases hn : n = 0
      · rw [if_pos hn]
        constructor
        · intro h
          cases h
          exact ⟨rfl, hn.symm⟩
        · rintro ⟨htext, _⟩
          obtain ⟨rfl, rfl⟩ := List.append_eq_nil_iff.mp htext.symm
          rfl
      · rw [if_neg hn]
        refine ⟨nofun, ?_⟩
        rintro ⟨htext, hlen⟩
        obtain ⟨rfl, _⟩ := List.append_eq_nil_iff.mp htext.symm
        exact absurd hlen.symm hn
  | cons c text ih =>
      unfold splitBytes
      have hpos := c.utf8Size_pos
      by_cases hn : n = 0
      · rw [if_pos hn]
        constructor
        · intro h
          cases h
          exact ⟨rfl, hn.symm⟩
        · rintro ⟨htext, hlen⟩
          have hfront : front = [] := String.utf8Len_eq_zero.mp (hlen.trans hn)
          rw [hfront, List.nil_append] at htext
          rw [hfront, htext]
      · rw [if_neg hn]
        dsimp only
        constructor
        · intro h
          by_cases hle : c.utf8Size ≤ n
          · rw [if_pos hle] at h
            obtain ⟨⟨front', rest'⟩, hsplit, hr⟩ := Option.map_eq_some_iff.mp h
            obtain ⟨rfl, rfl⟩ := Prod.mk.inj hr
            obtain ⟨htext, hlen⟩ := ih.mp hsplit
            refine ⟨congrArg (c :: ·) htext, ?_⟩
            rw [String.utf8Len_cons, hlen]
            omega
          · rw [if_neg hle] at h
            cases h
        · rintro ⟨htext, hlen⟩
          cases front with
          | nil => exact absurd hlen.symm hn
          | cons d front =>
              obtain ⟨rfl, hrest⟩ := List.cons.inj htext
              rw [String.utf8Len_cons] at hlen
              rw [if_pos (by omega), ih.mpr ⟨hrest, (by omega : utf8Len front = _)⟩]
              rfl

theorem sliceFrom_eq_some_iff {text rest : List Char} {n : Nat} :
    sliceFrom text n = some rest ↔ ∃ front, text = front ++ rest ∧ utf8Len front = n := by
  unfold sliceFrom
  constructor
  · intro h
    obtain ⟨⟨front, rest'⟩, hsplit, rfl⟩ := Option.map_eq_some_iff.mp h
    exact ⟨front, splitBytes_eq_some_iff.mp hsplit⟩
  · rintro ⟨front, hsplit⟩
    rw [splitBytes_eq_some_iff.mpr hsplit]
    rfl

/-- Cutting behind a front is cutting what is behind it. -/
theorem sliceFrom_append (front text : List Char) (n : Nat) :
    sliceFrom (front ++ text) (utf8Len front + n) = sliceFrom text n := by
  ext rest
  rw [sliceFrom_eq_some_iff, sliceFrom_eq_some_iff]
  constructor
  · rintro ⟨front', htext, hlen⟩
    rcases List.append_eq_append_iff.mp htext with ⟨between, rfl, rfl⟩ | ⟨between, rfl, rfl⟩
    · rw [String.utf8Len_append] at hlen
      exact ⟨between, rfl, by omega⟩
    · -- the cut is not in front of the end of the front
      rw [String.utf8Len_append] at hlen
      have hbetween : between = [] := String.utf8Len_eq_zero.mp (by omega)
      rw [hbetween] at hlen ⊢
      exact ⟨[], rfl, by rw [String.utf8Len_nil] at hlen ⊢; omega⟩
  · rintro ⟨front', rfl, rfl⟩
    exact ⟨front ++ front', (List.append_assoc _ _ _).symm, String.utf8Len_append _ _⟩

/-! ## Searching -/

/-- The offset at which a pattern is found first. -/
def find (pat : List Char) : List Char → Option Nat
  | [] => if pat = [] then some 0 else none
  | c :: rest =>
      if pat.isPrefixOf (c :: rest) then some 0
      else (find pat rest).map (· + c.utf8Size)

/-- The first place of a pattern in a text. -/
structure FirstAt (pat text before after : List Char) : Prop where
  eq : text = before ++ pat ++ after
  first : ∀ before' after', text = before' ++ pat ++ after' → before.length ≤ before'.length

/-- A text in which a pattern is. -/
def contains (pat text : List Char) : Bool := (find pat text).isSome

theorem FirstAt.unique {pat text before after before' after' : List Char}
    (h : FirstAt pat text before after) (h' : FirstAt pat text before' after') :
    before = before' ∧ after = after' := by
  have hlen : before.length = before'.length :=
    Nat.le_antisymm (h.first _ _ h'.eq) (h'.first _ _ h.eq)
  have heq := h.eq.symm.trans h'.eq
  rw [List.append_assoc, List.append_assoc] at heq
  obtain ⟨hbefore, hrest⟩ := List.append_inj heq hlen
  exact ⟨hbefore, List.append_cancel_left hrest⟩

/-- A pattern in front of a text is there first. -/
theorem firstAt_front (pat after : List Char) : FirstAt pat (pat ++ after) [] after :=
  ⟨rfl, fun _ _ _ => Nat.zero_le _⟩

/-- A pattern that is not in front of a text is behind the first character. -/
theorem cut_behind {pat text before after : List Char} {c : Char} (hnot : ¬ pat <+: c :: text)
    (heq : c :: text = before ++ pat ++ after) :
    ∃ before', before = c :: before' ∧ text = before' ++ pat ++ after := by
  cases before with
  | nil => exact absurd ⟨after, heq.symm⟩ hnot
  | cons d before =>
      obtain ⟨rfl, htext⟩ := List.cons.inj heq
      exact ⟨before, rfl, htext⟩

theorem firstAt_cons_iff {pat text before after : List Char} {c : Char}
    (hnot : ¬ pat <+: c :: text) :
    FirstAt pat (c :: text) before after ↔
      ∃ before', before = c :: before' ∧ FirstAt pat text before' after := by
  constructor
  · intro h
    obtain ⟨before', rfl, htext⟩ := cut_behind hnot h.eq
    exact ⟨before', rfl, htext, fun b a heq => Nat.le_of_succ_le_succ
      (h.first (c :: b) a (congrArg (c :: ·) heq))⟩
  · rintro ⟨before', rfl, h⟩
    refine ⟨congrArg (c :: ·) h.eq, fun b a heq => ?_⟩
    obtain ⟨b', rfl, htext⟩ := cut_behind hnot heq
    exact Nat.succ_le_succ (h.first _ _ htext)

theorem firstAt_nil_iff {pat before after : List Char} :
    FirstAt pat [] before after ↔ before = [] ∧ pat = [] ∧ after = [] := by
  constructor
  · intro h
    have heq := h.eq
    rw [eq_comm, List.append_eq_nil_iff, List.append_eq_nil_iff] at heq
    exact ⟨heq.1.1, heq.1.2, heq.2⟩
  · rintro ⟨rfl, rfl, rfl⟩
    exact firstAt_front [] []

theorem find_eq_some_iff {pat text : List Char} {n : Nat} :
    find pat text = some n ↔
      ∃ before after, FirstAt pat text before after ∧ utf8Len before = n := by
  induction text generalizing n with
  | nil =>
      unfold find
      simp only [firstAt_nil_iff]
      by_cases hpat : pat = []
      · simp [hpat]
      · simp [hpat]
  | cons c text ih =>
      unfold find
      by_cases hhere : pat <+: c :: text
      · obtain ⟨after, hafter⟩ := hhere
        rw [if_pos (List.isPrefixOf_iff_prefix.mpr ⟨after, hafter⟩), ← hafter, Option.some_inj]
        constructor
        · rintro rfl
          exact ⟨[], after, firstAt_front pat after, rfl⟩
        · rintro ⟨before, after', hfirst, rfl⟩
          obtain ⟨rfl, _⟩ := hfirst.unique (firstAt_front pat after)
          rfl
      · rw [if_neg fun h => hhere (List.isPrefixOf_iff_prefix.mp h)]
        simp only [firstAt_cons_iff hhere]
        constructor
        · intro h
          obtain ⟨m, hm, rfl⟩ := Option.map_eq_some_iff.mp h
          obtain ⟨before, after, hfirst, rfl⟩ := ih.mp hm
          exact ⟨c :: before, after, ⟨before, rfl, hfirst⟩, rfl⟩
        · rintro ⟨_, after, ⟨before, rfl, hfirst⟩, rfl⟩
          rw [ih.mpr ⟨before, after, hfirst, rfl⟩]
          rfl

/-- What is found can be cut off, and what is behind the offset starts with the pattern. -/
theorem FirstAt.slice_eq {pat text before after : List Char} (h : FirstAt pat text before after) :
    (splitBytes text (utf8Len before)).map Prod.fst = some before := by
  rw [splitBytes_eq_some_iff.mpr ⟨h.eq.trans (List.append_assoc _ _ _), rfl⟩]
  rfl

end LproxyCv.Foundation
