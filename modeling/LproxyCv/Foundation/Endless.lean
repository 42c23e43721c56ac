import LproxyCv.Foundation.Reader
import Mathlib.Logic.Relation
import Mathlib.Order.WellFounded
import Mathlib.Data.Set.Finite.Basic
import Mathlib.Order.Preorder.Finite

set_option autoImplicit false

/-!
# Foundation: going round

Where only finitely many places have a step to another, following the steps from a
place either comes to an end or leads round, and it leads round exactly when it comes
back to a place (`acc_iff_not_circular`).

`Hangs` says of a family of readers, as `Follows` does of what they return, where they
take any number of iterations.
-/

namespace LproxyCv.Foundation

section Circular

variable {α : Type} {r : α → α → Prop} {a : α}

/-- The steps from a place lead to one that they come back to. -/
def Circular (r : α → α → Prop) (a : α) : Prop :=
  ∃ b, Relation.ReflTransGen r a b ∧ Relation.TransGen r b b

theorem not_transGen_of_acc (h : Acc (fun x y => r y x) a) : ¬ Relation.TransGen r a a := by
  induction h with
  | intro a _ ih =>
      intro hround
      obtain ⟨b, hstep, hrest⟩ := Relation.TransGen.head'_iff.mp hround
      exact ih b hstep (Relation.TransGen.tail' hrest hstep)

theorem not_circular_of_acc (h : Acc (fun x y => r y x) a) : ¬ Circular r a := by
  rintro ⟨b, hchain, hround⟩
  induction hchain using Relation.ReflTransGen.head_induction_on with
  | refl => exact not_transGen_of_acc h hround
  | head hstep _ ih => exact ih (h.inv hstep)

theorem transGen_chain {f : Nat → α} (hf : ∀ n, r (f n) (f (n + 1))) {m n : Nat} (h : m < n) :
    Relation.TransGen r (f m) (f n) := by
  induction h with
  | refl => exact .single (hf m)
  | step _ ih => exact ih.tail (hf _)

/-- Without a way round, the steps come to an end. -/
theorem acc_of_not_circular (hfin : {x | ∃ y, r x y}.Finite) (h : ¬ Circular r a) :
    Acc (fun x y => r y x) a := by
  by_contra hacc
  obtain ⟨f, rfl, hf⟩ := not_acc_iff_exists_descending_chain.mp hacc
  -- a chain without end is at one of finitely many places twice
  have hmem : ∀ n, f n ∈ {x | ∃ y, r x y} := fun n => ⟨f (n + 1), hf n⟩
  obtain ⟨m, n, hlt, heq⟩ := hfin.exists_lt_map_eq_of_forall_mem hmem
  refine h ⟨f m, ?_, ?_⟩
  · cases m with
    | zero => exact .refl
    | succ m => exact (transGen_chain hf (Nat.succ_pos m)).to_reflTransGen
  · have hround := transGen_chain hf hlt
    rwa [← heq] at hround

theorem acc_iff_not_circular (hfin : {x | ∃ y, r x y}.Finite) (a : α) :
    Acc (fun x y => r y x) a ↔ ¬ Circular r a :=
  ⟨not_circular_of_acc, acc_of_not_circular hfin⟩

/-- A place that is not on the way to an end has a next one that is not either. -/
theorem Circular.step (hfin : {x | ∃ y, r x y}.Finite) (h : Circular r a) :
    ∃ b, r a b ∧ Circular r b := by
  have hacc : ¬ Acc (fun x y => r y x) a := fun hacc => (acc_iff_not_circular hfin a).mp hacc h
  obtain ⟨b, hb, hstep⟩ := exists_not_acc_lt_of_not_acc hacc
  exact ⟨b, hstep, not_not.mp fun hround => hb ((acc_iff_not_circular hfin b).mpr hround)⟩

end Circular

/-! ## Readers that do not return -/

namespace Layout

variable {β : Type}

/-- No place. -/
def never : Nat → Prop := fun _ => False

/-- A part is endless, or it ends and what lies behind it is endless. -/
def thenEndless (l : Layout β) (here : Nat → Prop) (behind : β → Nat → Prop) (p : Nat) : Prop :=
  here p ∨ ∃ v q, l.ends p v q ∧ behind v q

/-- One of `n` parts is endless. -/
def timesEndless (l : Layout Unit) (here : Nat → Prop) : Nat → Nat → Prop
  | 0 => never
  | n + 1 => l.thenEndless here fun _ => timesEndless l here n

end Layout

open Layout

/-- A reader that has no loop. -/
def Steady {α : Type} (x : Reader α) : Prop := ∀ c, x c ≠ .hang

theorem steady_pure {α : Type} (a : α) : Steady (Pure.pure a) := by
  intro c
  simp [Reader.pure_apply]

theorem Steady.bind {α β : Type} {x : Reader α} {f : α → Reader β} (hx : Steady x)
    (hf : ∀ a, Steady (f a)) : Steady (x >>= f) := by
  intro c
  rw [Reader.bind_apply]
  cases hr : x c with
  | ok r => exact hf r.1 r.2
  | err e => simp [Outcome.bind]
  | panic => simp [Outcome.bind]
  | hang => exact absurd hr (hx c)

/-- The readers take any number of iterations exactly where `endless` holds. -/
structure Hangs {α : Type} (b : Bytes) (x : Nat → Reader α) (endless : Nat → Prop) : Prop where
  mono : Grows b x
  hang : ∀ p, (∀ fuel, x fuel ⟨b, p⟩ = .hang) ↔ endless p

namespace Hangs

variable {α β γ : Type} {b : Bytes}

/-- A reader without a loop does not hang. -/
theorem of_steady {x : Reader α} (h : Steady x) : Hangs b (fun _ => x) never where
  mono _ _ _ _ := rfl
  hang p := ⟨fun hhang => h ⟨b, p⟩ (hhang 0), False.elim⟩

theorem pure (a : α) : Hangs b (fun _ => Pure.pure a) never := of_steady (steady_pure a)

/-- A reader behind another hangs where the first does, or behind it. -/
theorem bind {x : Nat → Reader α} {f : Nat → α → Reader γ} {l : Layout β} {π : α → β}
    {here : Nat → Prop} {behind : β → Nat → Prop} (hx : Follows b x l π) (hhere : Hangs b x here)
    (hf : ∀ a, Hangs b (fun fuel => f fuel a) (behind (π a))) :
    Hangs b (fun fuel => x fuel >>= f fuel) (l.thenEndless here behind) where
  mono := Grows.bind hx.mono hx.keeps fun a => (hf a).mono
  hang p := by
    dsimp only [Reader.bind_apply]
    constructor
    · intro hhang
      by_cases hfirst : ∀ fuel, x fuel ⟨b, p⟩ = .hang
      · exact .inl ((hhere.hang p).mp hfirst)
      · obtain ⟨fuel, hne⟩ := not_forall.mp hfirst
        have hboth := hhang fuel
        cases hr : x fuel ⟨b, p⟩ with
        | ok r =>
            have hcursor := hx.keeps fuel p r.1 r.2 hr
            refine .inr ⟨π r.1, r.2.pos, (hx.ok fuel p r.1 r.2 hr).2, ?_⟩
            refine ((hf r.1).hang _).mp fun fuel' => ?_
            -- with the iterations of the first on top, the second is the one that hangs
            have hmore := hhang (fuel + fuel')
            rw [hx.ok_more hr fuel', Outcome.bind, hcursor] at hmore
            by_contra hback
            have hgrow := (hf r.1).mono fuel' fuel r.2.pos hback
            rw [Nat.add_comm fuel' fuel] at hgrow
            exact hback (hgrow.symm.trans hmore)
        | err e => simp [hr, Outcome.bind] at hboth
        | panic => simp [hr, Outcome.bind] at hboth
        | hang => exact absurd hr hne
    · rintro (hp | ⟨v, q, hends, hq⟩) fuel
      · rw [(hhere.hang p).mpr hp fuel]
        rfl
      · obtain ⟨fuel', a, hr, rfl⟩ := hx.ends p v q hends
        by_cases hne : x fuel ⟨b, p⟩ = .hang
        · rw [hne]
          rfl
        · have hmore := hx.mono fuel fuel' p hne
          rw [Nat.add_comm, hx.ok_more hr fuel] at hmore
          rw [← hmore, Outcome.bind]
          exact ((hf a).hang q).mpr hq fuel

/-- The same, when what comes second does not depend on what the first says. -/
theorem seq {x : Nat → Reader α} {f : Nat → α → Reader γ} {l : Layout β} {π : α → β}
    {here behind : Nat → Prop} (hx : Follows b x l π) (hhere : Hangs b x here)
    (hf : ∀ a, Hangs b (fun fuel => f fuel a) behind) :
    Hangs b (fun fuel => x fuel >>= f fuel) (l.thenEndless here fun _ => behind) := by
  have hbehind : ∀ a, Hangs b (fun fuel => f fuel a) ((fun _ : β => behind) (π a)) := hf
  exact bind hx hhere hbehind

/-- What is made of the value does not hang. -/
theorem map {x : Nat → Reader α} {e : Nat → Prop} (hkeeps : Keeps b x) (h : Hangs b x e)
    (g : α → γ) : Hangs b (fun fuel => x fuel >>= fun a => Pure.pure (g a)) e where
  mono := Grows.bind h.mono hkeeps fun a _ _ _ _ => rfl
  hang p := by
    rw [← h.hang p]
    refine forall_congr' fun fuel => ?_
    dsimp only [Reader.bind_apply]
    cases x fuel ⟨b, p⟩ <;> simp [Outcome.bind, Reader.pure_apply]

/-- A reader `n` times hangs at one of its times. -/
theorem times {x : Nat → Reader α} {l : Layout Unit} {e : Nat → Prop}
    (hx : Follows b x l fun _ => ()) (h : Hangs b x e) :
    ∀ n, Hangs b (fun fuel => (x fuel).times n) (l.timesEndless e n)
  | 0 => pure []
  | n + 1 => seq hx h fun a => (times hx h n).map (hx.times n).keeps fun as => a :: as

end Hangs

/-! ## Readers that return -/

section Settles

variable {α β : Type}

/-- The readers come to an end in finitely many iterations. -/
def Ends (x : Nat → Reader α) (c : Cursor) : Prop := ∃ fuel, x fuel c ≠ .hang

/-- The readers return a value or an error. -/
def Settles (x : Nat → Reader α) (c : Cursor) : Prop :=
  ∃ fuel, (∃ r, x fuel c = .ok r) ∨ ∃ e, x fuel c = .err e

variable {b : Bytes} {x : Nat → Reader α} {l : Layout β} {π : α → β} {e : Nat → Prop} {p : Nat}

theorem Hangs.ends_iff (h : Hangs b x e) : Ends x ⟨b, p⟩ ↔ ¬ e p := by
  rw [← h.hang p]
  exact not_forall.symm

/-- A reader returns where it is neither endless nor cut short. -/
theorem Hangs.settles_iff (h : Hangs b x e) (hx : Follows b x l π) :
    Settles x ⟨b, p⟩ ↔ ¬ e p ∧ ¬ l.cut p := by
  rw [← h.ends_iff]
  constructor
  · rintro ⟨fuel, hr⟩
    have hne : x fuel ⟨b, p⟩ ≠ .hang ∧ x fuel ⟨b, p⟩ ≠ .panic := by
      rcases hr with ⟨r, hr⟩ | ⟨e, hr⟩ <;> simp [hr]
    refine ⟨⟨fuel, hne.1⟩, fun hcut => hne.2 ?_⟩
    obtain ⟨more, hpanic⟩ := hx.cut p hcut
    have hmore := hx.mono fuel more p hne.1
    rw [Nat.add_comm, hx.panic_more hpanic fuel] at hmore
    exact hmore.symm
  · rintro ⟨⟨fuel, hne⟩, hcut⟩
    refine ⟨fuel, ?_⟩
    cases hr : x fuel ⟨b, p⟩ with
    | ok r => exact .inl ⟨r, rfl⟩
    | err e => exact .inr ⟨e, rfl⟩
    | panic => exact absurd (hx.panic fuel p hr) hcut
    | hang => exact absurd hr hne

end Settles

end LproxyCv.Foundation
