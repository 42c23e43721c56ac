import Mathlib.Data.List.Basic

set_option autoImplicit false

/-!
# Foundation: numbers in a text

A number in decimal is digits, and its value is `Nat.ofDigitChars`.  The parsers of unsigned
numbers, whatever their size, take a plus sign as well, and nothing that is too large
(`parseUnsigned`).
-/

namespace LproxyCv.Foundation

/-- The value of a hexadecimal digit. -/
def hexDigit (c : Char) : Option Nat :=
  if c.isDigit then some (c.toNat - 48)
  else if 'a' ≤ c ∧ c ≤ 'f' then some (c.toNat - 87)
  else if 'A' ≤ c ∧ c ≤ 'F' then some (c.toNat - 55)
  else none

/-- A number: some digits, and nothing else. -/
def IsDecimal (ds : List Char) : Prop := ds ≠ [] ∧ ∀ c ∈ ds, c.isDigit = true

instance (ds : List Char) : Decidable (IsDecimal ds) :=
  @instDecidableAnd _ _ _ (List.decidableBAll (fun c => c.isDigit = true) ds)

/-- The value of digits. -/
def decimal (ds : List Char) : Nat := Nat.ofDigitChars 10 ds 0

/-- What is behind the plus sign, if there is one. -/
def unsigned (s : List Char) : List Char := if s.head? = some '+' then s.tail else s

/-- The number below `limit` that a text is. -/
def parseUnsigned (limit : Nat) (s : List Char) : Option Nat :=
  if IsDecimal (unsigned s) ∧ decimal (unsigned s) < limit then some (decimal (unsigned s))
  else none

theorem IsDecimal.head_ne {ds : List Char} (h : IsDecimal ds) {c : Char}
    (hc : c.isDigit = false) : ds.head? ≠ some c := by
  intro hhead
  have hmem := h.2 c (List.mem_of_mem_head? hhead)
  rw [hc] at hmem
  cases hmem

theorem IsDecimal.not_mem {ds : List Char} (h : IsDecimal ds) {c : Char}
    (hc : c.isDigit = false) : c ∉ ds := by
  intro hmem
  have hdigit := h.2 c hmem
  rw [hc] at hdigit
  cases hdigit

/-- There is no sign in front of digits. -/
theorem IsDecimal.unsigned_eq {ds : List Char} (h : IsDecimal ds) : unsigned ds = ds :=
  if_neg (h.head_ne (by decide))

/-- Digits are parsed as the number they are, if it is not too large. -/
theorem IsDecimal.parseUnsigned {ds : List Char} (h : IsDecimal ds) (limit : Nat) :
    parseUnsigned limit ds = if decimal ds < limit then some (decimal ds) else none := by
  rw [Foundation.parseUnsigned, h.unsigned_eq]
  simp only [h, true_and]

/-- Every number has digits. -/
theorem isDecimal_toDigits (n : Nat) : IsDecimal (Nat.toDigits 10 n) :=
  ⟨Nat.toDigits_ne_nil, fun _ hc => Nat.isDigit_of_mem_toDigits (by decide) (by decide) hc⟩

theorem decimal_toDigits (n : Nat) : decimal (Nat.toDigits 10 n) = n :=
  Nat.ofDigitChars_ten_toDigits

end LproxyCv.Foundation
