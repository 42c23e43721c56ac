import LproxyCv.Foundation.Run
import Mathlib.Data.List.Basic

set_option autoImplicit false

/-!
# Foundation: picking in turn

A scan of `len` positions starts at a cursor, goes round, and picks the first position that
can be picked; then the cursor is moved behind it.  A position that can be picked is passed
over fewer than `len` times, because each pick of another brings the cursor closer to it
(`Picks.closer`, `Run.countP_le`).
-/

namespace LproxyCv.Foundation

/-- The first position from the cursor on, going round, that can be picked. -/
def Picks (can : Nat → Prop) (len cur n : Nat) : Prop :=
  ∃ k < len, (cur + k) % len = n ∧ can n ∧ ∀ j < k, ¬ can ((cur + j) % len)

/-! ## Scanning -/

/-- The positions from the cursor on, and then those before it, are all of them going round. -/
theorem positions_eq_map {len cur : Nat} (h : cur ≤ len) :
    List.range' cur (len - cur) ++ List.range cur =
      (List.range len).map fun k => (cur + k) % len := by
  have hsplit : List.range len =
      List.range (len - cur) ++ (List.range cur).map ((len - cur) + ·) := by
    rw [← List.range_add]
    congr 1
    omega
  rw [hsplit, List.map_append, List.range'_eq_map_range, List.map_map]
  congr 1
  · refine List.map_congr_left ?_
    intro k hk
    have hlt := List.mem_range.mp hk
    exact (Nat.mod_eq_of_lt (by omega)).symm
  · refine (List.map_id _).symm.trans (List.map_congr_left ?_)
    intro k hk
    have hlt := List.mem_range.mp hk
    have hround : cur + (len - cur + k) = k + len := by omega
    rw [id, Function.comp_apply, hround, Nat.add_mod_right]
    exact (Nat.mod_eq_of_lt (by omega)).symm

/-- What is found first has nothing in front of it. -/
theorem findSome?_range {β : Type} {f : Nat → Option β} {n : Nat} {b : β} :
    (List.range n).findSome? f = some b ↔ ∃ k < n, f k = some b ∧ ∀ j < k, f j = none := by
  induction n with
  | zero => simp
  | succ n ih =>
      rw [List.range_succ, List.findSome?_append]
      cases hfirst : (List.range n).findSome? f with
      | some a =>
          rw [hfirst] at ih
          rw [Option.some_or]
          constructor
          · intro heq
            obtain ⟨k, hk, hrest⟩ := ih.mp heq
            exact ⟨k, by omega, hrest⟩
          · rintro ⟨k, hk, hfound, hfront⟩
            refine ih.mpr ⟨k, ?_, hfound, hfront⟩
            by_contra hlast
            have hnone : (List.range n).findSome? f = none := by
              rw [List.findSome?_eq_none_iff]
              intro j hj
              have hlt := List.mem_range.mp hj
              exact hfront j (by omega)
            cases hfirst.symm.trans hnone
      | none =>
          have hfront : ∀ j < n, f j = none := by
            intro j hj
            exact List.findSome?_eq_none_iff.mp hfirst j (List.mem_range.mpr hj)
          rw [Option.none_or, List.findSome?_singleton]
          constructor
          · intro hlast
            exact ⟨n, by omega, hlast, hfront⟩
          · rintro ⟨k, hk, hfound, _⟩
            rcases Nat.lt_succ_iff_lt_or_eq.mp hk with hlt | rfl
            · cases hfound.symm.trans (hfront k hlt)
            · exact hfound

variable {β : Type} {f : Nat → Option β} {len cur : Nat}

theorem scan_some {b : β} (h : cur ≤ len) :
    (List.range' cur (len - cur) ++ List.range cur).findSome? f = some b ↔
      ∃ k < len, f ((cur + k) % len) = some b ∧ ∀ j < k, f ((cur + j) % len) = none := by
  rw [positions_eq_map h, List.findSome?_map, findSome?_range]
  rfl

theorem scan_none (h : cur ≤ len) :
    (List.range' cur (len - cur) ++ List.range cur).findSome? f = none ↔
      ∀ n < len, f n = none := by
  rw [List.findSome?_eq_none_iff]
  have hmem : ∀ n, n ∈ List.range' cur (len - cur) ++ List.range cur ↔ n < len := by
    intro n
    rw [List.mem_append, List.mem_range'_1, List.mem_range]
    omega
  simp only [hmem]

/-! ## Turns -/

/-- Every position is so many behind the cursor. -/
theorem exists_behind {p : Nat} (h : cur ≤ len) (hp : p < len) :
    ∃ d < len, (cur + d) % len = p := by
  refine ⟨(p + (len - cur)) % len, Nat.mod_lt _ (by omega), ?_⟩
  have hround : cur + (p + (len - cur)) = p + len := by omega
  rw [Nat.add_mod_mod, hround, Nat.add_mod_right, Nat.mod_eq_of_lt hp]

/-- A position that can be picked is picked, or is closer to the cursor afterwards. -/
theorem Picks.closer {can : Nat → Prop} {n p d : Nat} (h : Picks can len cur n) (hcan : can p)
    (hd : (cur + d) % len = p) (hne : n ≠ p) : ∃ d' < d, ((n + 1) % len + d') % len = p := by
  obtain ⟨k, _, rfl, _, hfront⟩ := h
  have hle : k ≤ d := by
    by_contra hlt
    exact hfront d (by omega) (hd ▸ hcan)
  have hk : k ≠ d := by
    rintro rfl
    exact hne hd
  refine ⟨d - k - 1, by omega, ?_⟩
  have hround : cur + k + (1 + (d - k - 1)) = cur + d := by omega
  rw [Nat.mod_add_mod, Nat.add_assoc, Nat.mod_add_mod, hround, hd]

/-- Let each step that counts bring a rank down, and the others leave it.  Then no more steps of a
run count than its rank at the start. -/
theorem Run.countP_le {σ ε : Type} {step : σ → ε → σ → Prop} {rank : σ → Nat → Prop}
    {counts : ε → Bool}
    (hstep : ∀ s e t d, rank s d → step s e t →
      if counts e then ∃ d' < d, rank t d' else rank t d)
    {s t : σ} {es : List ε} (hrun : Run step s es t) {d : Nat} (hs : rank s d) :
    es.countP counts ≤ d := by
  induction hrun generalizing d with
  | nil _ => exact Nat.zero_le d
  | @cons s m t e es hfirst _ ih =>
      have hnext := hstep _ _ _ _ hs hfirst
      rw [List.countP_cons]
      by_cases hcounts : counts e = true
      · rw [if_pos hcounts] at hnext ⊢
        obtain ⟨d', hlt, hm⟩ := hnext
        have hrest := ih hm
        omega
      · rw [if_neg hcounts] at hnext ⊢
        exact ih hnext

end LproxyCv.Foundation
