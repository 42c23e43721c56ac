set_option autoImplicit false

/-!
# Foundation: how a call ends

A call of the modelled program returns a value, returns the `Err` of a
`Result`, or panics.  `hang` is not an ending: it stands for a loop that has
used up the number of iterations it was given, so that a statement about every
number of iterations is a statement about the loop itself.
-/

namespace LproxyCv.Foundation

/-- The kinds of `std::io::Error` the program builds. -/
inductive ErrorKind where
  | other
  | invalidInput
  deriving DecidableEq, Repr

/-- An error of `std::io`: one of the operating system, or one the program built
from a kind and a text. -/
inductive IoError where
  | os (code : Int)
  | custom (kind : ErrorKind) (text : String)
  deriving DecidableEq, Repr

/-- How a call ends. -/
inductive Outcome (α : Type) where
  | ok (value : α)
  | err (error : IoError)
  | panic
  | hang
  deriving DecidableEq, Repr

namespace Outcome

variable {α β : Type}

/-- Sequencing: only a value lets the rest of the program run. -/
def bind (x : Outcome α) (f : α → Outcome β) : Outcome β :=
  match x with
  | ok a => f a
  | err e => err e
  | panic => panic
  | hang => hang

/-- The value of a call that is expected not to fail. -/
def unwrap : Outcome α → Outcome α
  | err _ => panic
  | x => x

theorem bind_eq_ok_iff {x : Outcome α} {f : α → Outcome β} {b : β} :
    x.bind f = ok b ↔ ∃ a, x = ok a ∧ f a = ok b := by
  cases x <;> simp [bind]

theorem bind_eq_panic_iff {x : Outcome α} {f : α → Outcome β} :
    x.bind f = panic ↔ x = panic ∨ ∃ a, x = ok a ∧ f a = panic := by
  cases x <;> simp [bind]

end Outcome

end LproxyCv.Foundation
