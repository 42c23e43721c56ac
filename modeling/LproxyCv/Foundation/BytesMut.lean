import LproxyCv.Foundation.Bytes

set_option autoImplicit false

/-!
# Foundation: a byte buffer that makes room

A buffer is asked for room before it is written to, and then written to behind what it
holds.  How much more room than it is asked for it makes is up to the allocator.
-/

namespace LproxyCv.Foundation

/-- What a buffer holds, and how much it could hold. -/
structure BytesMut where
  data : Bytes
  capacity : Nat
  length_le : data.length ≤ capacity
  deriving DecidableEq, Repr

namespace BytesMut

/-- An empty buffer.  The allocator gives what it is asked for, or what it likes to give if
that is more. -/
def withCapacity (capacity offered : Nat) : BytesMut :=
  ⟨[], max offered capacity, Nat.zero_le _⟩

/-- How many bytes can be written before the buffer has to grow. -/
def spare (b : BytesMut) : Nat := b.capacity - b.data.length

/-- Make room for `additional` bytes, unless it is there. -/
def reserve (b : BytesMut) (additional offered : Nat) : BytesMut :=
  if additional ≤ b.spare then b
  else
    { b with
      capacity := max offered (b.data.length + additional)
      length_le := by omega }

/-- These bytes have been written behind the data.  It is a panic if there was no room. -/
def advanceMut (b : BytesMut) (bs : Bytes) : Option BytesMut :=
  if h : b.data.length + bs.length ≤ b.capacity then
    some ⟨b.data ++ bs, b.capacity, by rwa [List.length_append]⟩
  else none

/-- Take the first `n` bytes out, and the room they are in with them. -/
def splitTo (b : BytesMut) (n : Nat) : Option (Bytes × BytesMut) :=
  if n ≤ b.data.length then
    some (b.data.take n,
      { data := b.data.drop n
        capacity := b.capacity - n
        length_le := by
          rw [List.length_drop]
          exact Nat.sub_le_sub_right b.length_le n })
  else none

/-- Forget the data. -/
def clear (b : BytesMut) : BytesMut := ⟨[], b.capacity, Nat.zero_le _⟩

@[simp] theorem data_reserve (b : BytesMut) (additional offered : Nat) :
    (b.reserve additional offered).data = b.data := by
  unfold reserve
  split <;> rfl

/-- There is at least as much room as was asked for. -/
theorem le_spare_reserve (b : BytesMut) (additional offered : Nat) :
    additional ≤ (b.reserve additional offered).spare := by
  unfold reserve
  split
  · rename_i hroom
    exact hroom
  · simp only [spare]
    omega

variable {b b' : BytesMut} {bs : Bytes}

/-- What fits can be written. -/
theorem advanceMut_of_le (h : bs.length ≤ b.spare) : ∃ b', b.advanceMut bs = some b' := by
  have hle := b.length_le
  have hfit : b.data.length + bs.length ≤ b.capacity := by
    simp only [spare] at h
    omega
  exact ⟨_, dif_pos hfit⟩

theorem data_advanceMut (h : b.advanceMut bs = some b') : b'.data = b.data ++ bs := by
  unfold advanceMut at h
  split at h
  · cases h
    rfl
  · cases h

/-- All of the data can be taken out. -/
theorem splitTo_length (b : BytesMut) : ∃ b', b.splitTo b.data.length = some (b.data, b') := by
  rw [splitTo, if_pos (Nat.le_refl _), List.take_length]
  exact ⟨_, rfl⟩

theorem splitTo_length_eq (h : b.splitTo b.data.length = some (bs, b')) : bs = b.data := by
  obtain ⟨_, hall⟩ := b.splitTo_length
  rw [h, Option.some.injEq, Prod.mk.injEq] at hall
  exact hall.1

end BytesMut

end LproxyCv.Foundation
