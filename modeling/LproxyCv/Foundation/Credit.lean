import Mathlib.Init

set_option autoImplicit false

/-!
# Foundation: credit

A sender may be ahead of a receiver by a window.  The receiver takes what waits one by one,
counts what it has taken, and reports the count when it is a batch; a report gives back that
much of the window.  What is on its way to a receiver that does not wait for it is lost.

While the sender keeps to the window no more than the window waits (`Bounded.held_le`), and as
long as nothing is lost the sender is never stopped for good: when nothing waits there is room
for more (`Exact.room_pos`).
-/

namespace LproxyCv.Foundation

/-- How much may wait, and how much is reported at once. -/
structure Window where
  size : Nat
  batch : Nat
  batch_pos : 0 < batch
  batch_le : batch ≤ size

/-- A sender and its receiver. -/
structure Flow where
  /-- what was sent -/
  given : Nat
  /-- what waits to be taken -/
  held : Nat
  /-- what was taken and is not reported -/
  counted : Nat
  /-- what was reported -/
  returned : Nat
  deriving DecidableEq, Repr

namespace Flow

/-- What may still be sent. -/
def room (w : Window) (f : Flow) : Nat := w.size + f.returned - f.given

/-- The steps of a sender that keeps to the window, and of its receiver. -/
inductive Step (w : Window) (f : Flow) : Flow → Prop where
  | rest : Step w f f
  | give : f.given < w.size + f.returned →
      Step w f { f with given := f.given + 1, held := f.held + 1 }
  | lose : f.given < w.size + f.returned → Step w f { f with given := f.given + 1 }
  | take : 0 < f.held → f.counted + 1 ≠ w.batch →
      Step w f { f with held := f.held - 1, counted := f.counted + 1 }
  | report : 0 < f.held → f.counted + 1 = w.batch →
      Step w f ⟨f.given, f.held - 1, 0, f.returned + w.batch⟩

/-- The sender has kept to the window, and the receiver reports in time. -/
structure Bounded (w : Window) (f : Flow) : Prop where
  accounted : f.returned + f.counted + f.held ≤ f.given
  within : f.given ≤ w.size + f.returned
  counted : f.counted < w.batch

/-- Nothing is lost. -/
def Exact (f : Flow) : Prop := f.given = f.returned + f.counted + f.held

variable {w : Window} {f f' : Flow}

theorem bounded_zero (w : Window) : Bounded w ⟨0, 0, 0, 0⟩ :=
  ⟨Nat.le_refl 0, Nat.zero_le _, w.batch_pos⟩

theorem Bounded.step (h : Bounded w f) (hstep : Step w f f') : Bounded w f' := by
  obtain ⟨haccounted, hwithin, hcounted⟩ := h
  cases hstep with
  | rest => exact ⟨haccounted, hwithin, hcounted⟩
  | give hroom => exact ⟨by simp only; omega, hroom, hcounted⟩
  | lose hroom => exact ⟨by simp only; omega, hroom, hcounted⟩
  | take hheld hmisses => exact ⟨by simp only; omega, hwithin, by simp only; omega⟩
  | report hheld hmeets => exact ⟨by simp only; omega, by simp only; omega, w.batch_pos⟩

/-- What waits and what is counted fit in the window. -/
theorem Bounded.held_le (h : Bounded w f) : f.held + f.counted ≤ w.size := by
  have haccounted := h.accounted
  have hwithin := h.within
  omega

/-- Only what is sent and not kept is lost. -/
theorem Exact.step (h : Exact f) (hstep : Step w f f')
    (hkept : f'.given - f.given ≤ f'.held - f.held) : Exact f' := by
  unfold Exact at h ⊢
  cases hstep with
  | rest => exact h
  | give _ => simp only; omega
  | lose _ => simp only at hkept; omega
  | take hheld _ => simp only; omega
  | report hheld hmeets => simp only; omega

/-- The window is what may still be sent, what waits and what is counted. -/
theorem Exact.room_add (h : Exact f) (hbounded : Bounded w f) :
    f.room w + f.held + f.counted = w.size := by
  have hle := hbounded.held_le
  unfold Exact at h
  unfold room
  omega

/-- When nothing waits, more may be sent. -/
theorem Exact.room_pos (h : Exact f) (hbounded : Bounded w f) (hheld : f.held = 0) :
    0 < f.room w := by
  have hadd := h.room_add hbounded
  have hcounted := hbounded.counted
  have hle := w.batch_le
  omega

end Flow

end LproxyCv.Foundation
