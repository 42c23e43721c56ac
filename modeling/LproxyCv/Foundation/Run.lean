import Mathlib.Logic.Relation

set_option autoImplicit false

/-!
# Foundation: labelled runs, invariants and simulations

A system is a labelled transition relation `step : σ → ε → σ → Prop`.  `Run step`
records the labels a run took, so that a statement about every interleaving is
a statement about every label list.  The rules every system below uses are
proved once: an invariant kept by each step is kept by each run, a run splits at
each of its steps, what each step adds adds up, and a step-wise simulation lifts to
runs.
-/

namespace LproxyCv.Foundation

/-- A run of `step`, with the labels it took in order. -/
inductive Run {σ ε : Type} (step : σ → ε → σ → Prop) : σ → List ε → σ → Prop where
  | nil (s : σ) : Run step s [] s
  | cons {s m t : σ} {e : ε} {es : List ε} :
      step s e m → Run step m es t → Run step s (e :: es) t

/-- The steps of `step` that also meet a condition on the state before them and
on their label. -/
def Guarded {σ ε : Type} (guard : σ → ε → Prop) (step : σ → ε → σ → Prop) :
    σ → ε → σ → Prop :=
  fun s e t => guard s e ∧ step s e t

/-- What is done when it can be done, and when that is no failure. -/
def attempt {σ ε : Type} (enabled : σ → ε → Prop) [∀ s e, Decidable (enabled s e)]
    (handle : σ → ε → Option σ) (s : σ) (e : ε) : Option σ :=
  if enabled s e then handle s e else none

namespace Run

variable {σ ε : Type} {step : σ → ε → σ → Prop}

/-- An invariant of every step is an invariant of every run. -/
theorem preserves {I : σ → Prop}
    (hstep : ∀ s e t, I s → step s e t → I t)
    {s t : σ} {es : List ε} (hrun : Run step s es t) (hs : I s) : I t := by
  induction hrun with
  | nil _ => exact hs
  | cons hfirst _ ih => exact ih (hstep _ _ _ hs hfirst)

/-- Where each step has what was there before and what its label brings, a run has what its
labels bring, as long as there is room. -/
theorem accumulates {α : Type} (room : σ → Prop) (has : σ → α → Prop) (brings : ε → α → Prop)
    (hroom : ∀ s e t, step s e t → room t → room s)
    (hstep : ∀ s e t, step s e t → room t → ∀ a, has t a ↔ has s a ∨ brings e a)
    {s t : σ} {es : List ε} (hrun : Run step s es t) (ht : room t) :
    room s ∧ ∀ a, has t a ↔ has s a ∨ ∃ e ∈ es, brings e a := by
  induction hrun with
  | nil s => exact ⟨ht, fun a => by simp⟩
  | @cons s m t e es hfirst _ ih =>
      obtain ⟨hm, hrest⟩ := ih ht
      refine ⟨hroom s e m hfirst hm, ?_⟩
      intro a
      rw [hrest, hstep s e m hfirst hm, or_assoc]
      simp only [List.mem_cons, exists_eq_or_imp]

/-- A run seen through a function that every step can be seen through. -/
theorem map {τ : Type} {step' : τ → ε → τ → Prop} (f : σ → τ)
    (hf : ∀ s e t, step s e t → step' (f s) e (f t)) {s t : σ} {es : List ε}
    (hrun : Run step s es t) : Run step' (f s) es (f t) := by
  induction hrun with
  | nil s => exact .nil (f s)
  | cons hfirst _ ih => exact .cons (hf _ _ _ hfirst) ih

/-- A run seen through a function that only some labels matter to. -/
theorem filterMap {τ ι : Type} {step' : τ → ι → τ → Prop} (f : σ → τ) (g : ε → Option ι)
    (hsome : ∀ s e t i, step s e t → g e = some i → step' (f s) i (f t))
    (hnone : ∀ s e t, step s e t → g e = none → f t = f s) {s t : σ} {es : List ε}
    (hrun : Run step s es t) : Run step' (f s) (es.filterMap g) (f t) := by
  induction hrun with
  | nil s => exact .nil (f s)
  | @cons s m t e es hfirst _ ih =>
      cases hg : g e with
      | none =>
          rw [List.filterMap_cons_none hg, ← hnone _ _ _ hfirst hg]
          exact ih
      | some i =>
          rw [List.filterMap_cons_some hg]
          exact .cons (hsome _ _ _ i hfirst hg) ih

/-- A run of a stronger relation is a run of a weaker one. -/
theorem mono {step' : σ → ε → σ → Prop} (hle : ∀ s e t, step s e t → step' s e t)
    {s t : σ} {es : List ε} (hrun : Run step s es t) : Run step' s es t :=
  hrun.map id hle

/-- A run behind a run. -/
theorem append {s m t : σ} {es es' : List ε} (hrun : Run step s es m) (hrest : Run step m es' t) :
    Run step s (es ++ es') t := by
  induction hrun with
  | nil _ => exact hrest
  | cons hfirst _ ih => exact .cons hfirst (ih hrest)

/-- A run splits where its labels do. -/
theorem split {s t : σ} {es es' : List ε} (hrun : Run step s (es ++ es') t) :
    ∃ m, Run step s es m ∧ Run step m es' t := by
  induction es generalizing s with
  | nil => exact ⟨s, .nil s, hrun⟩
  | cons e es ih =>
      obtain _ | ⟨hfirst, hrest⟩ := hrun
      obtain ⟨m, hrun, hlast⟩ := ih hrest
      exact ⟨m, .cons hfirst hrun, hlast⟩

/-- The last step of a run. -/
theorem last {s t : σ} {es : List ε} {e : ε} (hrun : Run step s es t)
    (he : es.getLast? = some e) : ∃ m, step m e t := by
  induction hrun with
  | nil s => cases he
  | @cons s m t e' es hfirst hrest ih =>
      cases es with
      | nil =>
          cases he
          cases hrest
          exact ⟨s, hfirst⟩
      | cons e'' es => exact ih (List.getLast?_cons_cons.symm.trans he)

/-- Forgetting the guard of a guarded run. -/
theorem unguard {guard : σ → ε → Prop} {s t : σ} {es : List ε}
    (hrun : Run (Guarded guard step) s es t) : Run step s es t :=
  hrun.mono fun _ _ _ h => h.2

/-- A run whose labels all have a property is one of steps whose labels do. -/
theorem restrict {P : ε → Prop} {s t : σ} {es : List ε} (hrun : Run step s es t)
    (hall : ∀ e ∈ es, P e) : Run (fun s e t => step s e t ∧ P e) s es t := by
  induction hrun with
  | nil s => exact .nil s
  | cons hfirst _ ih =>
      obtain ⟨hlabel, hlabels⟩ := List.forall_mem_cons.mp hall
      exact .cons ⟨hfirst, hlabel⟩ (ih hlabels)

/-- What can be done one after the other is a run. -/
theorem of_attempts {enabled : σ → ε → Prop} [∀ s e, Decidable (enabled s e)]
    {handle : σ → ε → Option σ} {s t : σ} {es : List ε}
    (h : es.foldlM (attempt enabled handle) s = some t) :
    Run (fun s e t => enabled s e ∧ handle s e = some t) s es t := by
  induction es generalizing s with
  | nil =>
      cases h
      exact .nil _
  | cons e es ih =>
      simp only [List.foldlM_cons, Option.bind_eq_bind, Option.bind_eq_some_iff] at h
      obtain ⟨m, hm, hrest⟩ := h
      unfold attempt at hm
      split at hm
      · rename_i henabled
        exact .cons ⟨henabled, hm⟩ (ih hrest)
      · cases hm

/-- Where the invariant holds, let a step have a property exactly when it meets the
guard, and let the property carry the invariant on.  Then the runs whose steps all
meet the guard are those whose steps all have the property. -/
theorem guarded_iff {I : σ → Prop} {guard : σ → ε → Prop} {prop : σ → ε → σ → Prop}
    (hiff : ∀ s e t, I s → step s e t → (prop s e t ↔ guard s e))
    (hkeep : ∀ s e t, I s → step s e t → prop s e t → I t) {s t : σ} {es : List ε} (hs : I s) :
    Run (Guarded guard step) s es t ↔ Run (fun s e t => step s e t ∧ prop s e t) s es t := by
  constructor
  · intro hrun
    induction hrun with
    | nil s => exact .nil s
    | cons hfirst _ ih =>
        obtain ⟨hguard, hstep⟩ := hfirst
        have hprop := (hiff _ _ _ hs hstep).mpr hguard
        exact .cons ⟨hstep, hprop⟩ (ih (hkeep _ _ _ hs hstep hprop))
  · intro hrun
    induction hrun with
    | nil s => exact .nil s
    | cons hfirst _ ih =>
        obtain ⟨hstep, hprop⟩ := hfirst
        exact .cons ⟨(hiff _ _ _ hs hstep).mp hprop, hstep⟩ (ih (hkeep _ _ _ hs hstep hprop))

/-- Where the guard is met, each step keeps the invariant, and where it is not, the step leaves
something that stays: a run is guarded and keeps the invariant, or it leaves that. -/
theorem guarded_or {I J : σ → Prop} {guard : σ → ε → Prop}
    (hkeep : ∀ s e t, I s → guard s e → step s e t → I t)
    (hbreak : ∀ s e t, I s → ¬ guard s e → step s e t → J t)
    (hstay : ∀ s e t, J s → step s e t → J t) {s t : σ} {es : List ε} (hrun : Run step s es t)
    (hs : I s) : Run (Guarded guard step) s es t ∧ I t ∨ J t := by
  induction hrun with
  | nil s => exact .inl ⟨.nil s, hs⟩
  | @cons s m t e es hfirst hrest ih =>
      by_cases hguard : guard s e
      · refine (ih (hkeep s e m hs hguard hfirst)).imp_left ?_
        rintro ⟨hrun, ht⟩
        exact ⟨.cons ⟨hguard, hfirst⟩ hrun, ht⟩
      · exact .inr (hrest.preserves hstay (hbreak s e m hs hguard hfirst))

end Run

end LproxyCv.Foundation
