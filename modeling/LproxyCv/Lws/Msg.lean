import LproxyCv.Foundation.Outcome
import LproxyCv.Foundation.Transport

set_option autoImplicit false

/-!
# Lws: the three message buffers

`RMessage` collects one length-prefixed frame, `WMessage` is a buffer on its way
out with a cursor, `TMessage` is a read buffer with room for the headers that
are filled in later.

The `buf` field of each is an `Option<Vec<u8>>` in the source, `Some` from the
constructor until the consumer takes the vector out together with the message;
here it is the vector.  A length computed with `as u16` is `UInt16.ofNat`, which
drops the high bits, and `+` on `UInt16` wraps, as the release builds do.
-/

namespace LproxyCv.Lws

open LproxyCv.Foundation

/-- The capacity of a message buffer. -/
def defaultCap : Nat := 8096

/-- The size of the length field at the start of a frame. -/
def headSize : Nat := 2

/-- The length field of a buffer: its first two bytes, least significant first. -/
def lengthField (bs : Bytes) : UInt16 := UInt16.ofNat (leNat (bs.take headSize))

theorem lengthField_toNat (bs : Bytes) :
    (lengthField bs).toNat = leNat (bs.take headSize) := by
  have hlt : leNat (bs.take headSize) < 256 ^ (bs.take headSize).length := leNat_lt _
  have hlen : (bs.take headSize).length ≤ 2 := by simp [headSize]
  have hpow : 256 ^ (bs.take headSize).length ≤ 256 ^ 2 :=
    Nat.pow_le_pow_right (by omega) hlen
  unfold lengthField
  rw [UInt16.toNat_ofNat']
  omega

/-- The length field depends on the first two bytes only. -/
theorem lengthField_append {p b : Bytes} (h : headSize ≤ p.length) :
    lengthField (p ++ b) = lengthField p := by
  unfold lengthField
  rw [List.take_append_of_le_length h]

/-! ## Reading a frame -/

/-- A frame under construction. -/
structure RMessage where
  buf : Bytes
  cachedLegnth : UInt16
  error : Option IoError
  deriving DecidableEq, Repr

/-- The error of a frame whose length field is refused. -/
def invalidLength (v : UInt16) : IoError :=
  .custom .other ("cached_legnth not valid:" ++ toString v.toNat)

namespace RMessage

/-- An empty message. -/
def new : RMessage := ⟨[], 0, none⟩

/-- A message is finished when it failed, or when it is as long as its header says. -/
def isCompleted (m : RMessage) : Bool :=
  if m.error.isSome then true
  else decide (0 < m.cachedLegnth) && decide (m.cachedLegnth = UInt16.ofNat m.buf.length)

/-- How many bytes the message still takes; `none` where the subtraction of the
source underflows. -/
def remainingMut (m : RMessage) : Option Nat :=
  if m.error.isSome then some 0
  else if m.buf.length < headSize then some (headSize - m.buf.length)
  else if m.buf.length ≤ m.cachedLegnth.toNat then
    some (m.cachedLegnth.toNat - m.buf.length)
  else none

/-- Account for `bs`, just written at the end of the buffer: the length field is
decoded as soon as both of its bytes are there, and refused when it is zero or
larger than the buffer. -/
def advanceMut (m : RMessage) (bs : Bytes) : RMessage :=
  let buf := m.buf ++ bs
  if m.cachedLegnth = 0 ∧ headSize ≤ buf.length then
    let v := lengthField buf
    { buf := buf
      cachedLegnth := v
      error := if v = 0 ∨ UInt16.ofNat defaultCap < v then some (invalidLength v)
        else m.error }
  else { m with buf := buf }

/-- Copy a slice that fits into the message.  The copy loop of `put_slice` makes
one pass over a slice that fits and none over an empty one. -/
def putSlice (m : RMessage) (src : Bytes) : RMessage :=
  if src = [] then m else m.advanceMut src

/-- The slice `bytes_mut` hands out, from the end of the vector on, is well
defined and ends inside the buffer's allocation. -/
def InBuffer (m : RMessage) : Prop :=
  ∃ r, m.remainingMut = some r ∧ m.buf.length + r ≤ defaultCap

instance (m : RMessage) : Decidable m.InBuffer :=
  match h : m.remainingMut with
  | none => .isFalse fun ⟨_, hr, _⟩ => by simp [h] at hr
  | some r =>
      if hle : m.buf.length + r ≤ defaultCap then .isTrue ⟨r, h, hle⟩
      else .isFalse fun ⟨_, hr, hcap⟩ => by
        rw [h] at hr
        cases hr
        exact hle hcap

end RMessage

/-! ## Writing a buffer -/

/-- A buffer on its way out; the bytes before the cursor are sent. -/
structure WMessage where
  buf : Bytes
  cursor : UInt16
  deriving DecidableEq, Repr

namespace WMessage

/-- A buffer to be sent from `cursor` on. -/
def new (v : Bytes) (cursor : UInt16) : WMessage := ⟨v, cursor⟩

/-- The comparison is made on 16 bits. -/
def isCompleted (w : WMessage) : Bool := decide (w.cursor = UInt16.ofNat w.buf.length)

/-- How many bytes are left to send. -/
def remaining (w : WMessage) : Nat := w.buf.length - w.cursor.toNat

/-- The bytes left to send. -/
def bytes (w : WMessage) : Bytes := w.buf.drop w.cursor.toNat

/-- Move the cursor past `cnt` sent bytes. -/
def advance (w : WMessage) (cnt : Nat) : WMessage :=
  { w with cursor := w.cursor + UInt16.ofNat cnt }

@[simp] theorem bytes_length (w : WMessage) : w.bytes.length = w.remaining := by
  simp [bytes, remaining]

@[simp] theorem advance_buf (w : WMessage) (cnt : Nat) : (w.advance cnt).buf = w.buf := rfl

/-- A buffer whose length fits the cursor and whose cursor lies inside it. -/
def Fits (w : WMessage) : Prop := w.cursor.toNat ≤ w.buf.length ∧ w.buf.length < 2 ^ 16

theorem Fits.isCompleted_iff {w : WMessage} (h : w.Fits) :
    w.isCompleted = true ↔ w.bytes = [] := by
  obtain ⟨hcur, hlen⟩ := h
  have hnat : (UInt16.ofNat w.buf.length).toNat = w.buf.length := by
    rw [UInt16.toNat_ofNat']
    omega
  unfold isCompleted bytes
  rw [decide_eq_true_eq, List.drop_eq_nil_iff, ← UInt16.toNat_inj, hnat]
  omega

/-- Sending part of a buffer that fits the cursor leaves exactly the rest. -/
theorem Fits.advance {w : WMessage} (h : w.Fits) {cnt : Nat} (hcnt : cnt ≤ w.remaining) :
    (w.advance cnt).Fits ∧ (w.advance cnt).bytes = w.bytes.drop cnt := by
  obtain ⟨hcur, hlen⟩ := h
  unfold remaining at hcnt
  have hnat : (w.advance cnt).cursor.toNat = w.cursor.toNat + cnt := by
    unfold WMessage.advance
    rw [UInt16.toNat_add, UInt16.toNat_ofNat']
    omega
  refine ⟨⟨?_, hlen⟩, ?_⟩
  · rw [hnat, advance_buf]
    omega
  · unfold bytes
    rw [hnat, advance_buf, List.drop_drop]

end WMessage

/-! ## Reading a request's own socket -/

/-- A read buffer whose first bytes are kept for the headers. -/
structure TMessage where
  buf : Bytes
  capacity : Nat
  deriving DecidableEq, Repr

/-- How many bytes `TMessage` keeps for the headers. -/
def tmessageKeep : Nat := 7

namespace TMessage

/-- A buffer with nothing read yet. -/
def new : TMessage := ⟨List.replicate tmessageKeep 0, defaultCap⟩

/-- What was read: the bytes behind the room for the headers. -/
def payload (m : TMessage) : Bytes := m.buf.drop tmessageKeep

/-- The room left in the buffer. -/
def remainingMut (m : TMessage) : Nat := m.capacity - m.buf.length

/-- Account for `bs`, just written at the end of the buffer. -/
def advanceMut (m : TMessage) (bs : Bytes) : TMessage := { m with buf := m.buf ++ bs }

end TMessage

end LproxyCv.Lws
