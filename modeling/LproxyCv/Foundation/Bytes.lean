import Mathlib.Data.List.Basic
import Mathlib.Tactic.Ring
import Mathlib.Tactic.Linarith

set_option autoImplicit false

/-!
# Foundation: byte strings, little-endian numbers and positioned access

The wire formats of this development are lists of bytes.  A number of `n` bytes
is written least significant byte first by `leBytes` and read back by `leNat`;
`readLE` and `putAt` are the positioned forms, which fail instead of reaching
past the end of the buffer.  Nothing here depends on a particular protocol.
-/

namespace LproxyCv.Foundation

/-- A byte string. -/
abbrev Bytes : Type := List UInt8

/-- The bytes of a text. -/
def utf8 (s : String) : Bytes := s.toUTF8.data.toList

theorem utf8_append (s t : String) : utf8 (s ++ t) = utf8 s ++ utf8 t := by
  simp [utf8, String.toUTF8, String.toByteArray_append]

/-- What holds of the 256 bytes holds of every byte. -/
theorem of_every_byte {P : UInt8 → Prop} (h : ∀ n < 256, P (UInt8.ofNat n)) (x : UInt8) : P x := by
  have hx := h x.toNat x.toNat_lt
  rwa [UInt8.ofNat_toNat] at hx

theorem utf8_append_ne_nil {s t : String} (h : utf8 s ≠ []) : utf8 (s ++ t) ≠ [] := by
  rw [utf8_append]
  exact List.append_ne_nil_of_left_ne_nil h _

/-! ## Little-endian numbers -/

/-- The `n` low bytes of `v`, least significant first. -/
def leBytes : Nat → Nat → Bytes
  | 0, _ => []
  | n + 1, v => UInt8.ofNat v :: leBytes n (v / 256)

/-- The number whose bytes, least significant first, are given. -/
def leNat : Bytes → Nat
  | [] => 0
  | b :: bs => b.toNat + 256 * leNat bs

@[simp] theorem leBytes_length (n v : Nat) : (leBytes n v).length = n := by
  induction n generalizing v with
  | zero => rfl
  | succ n ih => simp [leBytes, ih]

theorem leNat_lt (bs : Bytes) : leNat bs < 256 ^ bs.length := by
  induction bs with
  | nil => simp [leNat]
  | cons b bs ih =>
      have hb : b.toNat < 256 := b.toNat_lt
      have hpow : 256 ^ (b :: bs).length = 256 * 256 ^ bs.length := by
        rw [List.length_cons, Nat.pow_succ, Nat.mul_comm]
      rw [hpow, leNat]
      omega

/-- Reading back a written number loses only what does not fit its width. -/
theorem leNat_leBytes (n v : Nat) : leNat (leBytes n v) = v % 256 ^ n := by
  induction n generalizing v with
  | zero => simp [leBytes, leNat, Nat.mod_one]
  | succ n ih =>
      have hbyte : (UInt8.ofNat v).toNat = v % 256 := by simp
      rw [leBytes, leNat, ih, hbyte, Nat.pow_succ', Nat.mod_mul]

theorem leNat_leBytes_of_lt {n v : Nat} (h : v < 256 ^ n) : leNat (leBytes n v) = v := by
  rw [leNat_leBytes, Nat.mod_eq_of_lt h]

/-- Every byte string of length `n` is the encoding of its number. -/
theorem leBytes_leNat (bs : Bytes) : leBytes bs.length (leNat bs) = bs := by
  induction bs with
  | nil => rfl
  | cons b bs ih =>
      have hb : b.toNat < 256 := b.toNat_lt
      have hdiv : (b.toNat + 256 * leNat bs) / 256 = leNat bs := by omega
      have hmod : UInt8.ofNat (b.toNat + 256 * leNat bs) = b := by
        apply UInt8.toNat.inj
        rw [UInt8.toNat_ofNat']
        omega
      rw [List.length_cons, leNat, leBytes, hdiv, hmod, ih]

/-! ## Positioned access -/

/-- The `n`-byte little-endian number at `offset`; `none` past the end. -/
def readLE (n : Nat) (bs : Bytes) (offset : Nat) : Option Nat :=
  if offset + n ≤ bs.length then some (leNat ((bs.drop offset).take n)) else none

/-- Overwrite the bytes from `offset` on with `bs`; `none` if they do not fit. -/
def putAt (buf : Bytes) (offset : Nat) (bs : Bytes) : Option Bytes :=
  if offset + bs.length ≤ buf.length then
    some (buf.take offset ++ bs ++ buf.drop (offset + bs.length))
  else none

/-- Two writes, the second right behind the first, are one. -/
theorem putAt_putAt (buf : Bytes) (offset : Nat) (bs bs' : Bytes) :
    (putAt buf offset bs).bind (fun out => putAt out (offset + bs.length) bs') =
      putAt buf offset (bs ++ bs') := by
  by_cases hfit : offset + bs.length ≤ buf.length
  · have hpre : (buf.take offset ++ bs).length = offset + bs.length := by
      rw [List.length_append, List.length_take]
      omega
    have hout : (buf.take offset ++ bs ++ buf.drop (offset + bs.length)).length = buf.length := by
      rw [List.length_append, hpre, List.length_drop]
      omega
    have htake : (buf.take offset ++ bs ++ buf.drop (offset + bs.length)).take
        (offset + bs.length) = buf.take offset ++ bs := List.take_left' hpre
    have hdrop : (buf.take offset ++ bs ++ buf.drop (offset + bs.length)).drop
        (offset + bs.length + bs'.length) = buf.drop (offset + bs.length + bs'.length) := by
      rw [← List.drop_drop, List.drop_left' hpre, List.drop_drop]
    rw [putAt, if_pos hfit, Option.bind_some, putAt, hout, htake, hdrop, putAt, List.length_append,
      ← Nat.add_assoc]
    simp only [List.append_assoc]
  · have hlong : ¬ offset + (bs ++ bs').length ≤ buf.length := by
      rw [List.length_append]
      omega
    simp only [putAt, hfit, hlong, if_false, Option.bind_none]

/-- A block just written is what a read at its position sees. -/
theorem readLE_block (pre bs post : Bytes) :
    readLE bs.length (pre ++ bs ++ post) pre.length = some (leNat bs) := by
  have hfit : pre.length + bs.length ≤ (pre ++ bs ++ post).length := by
    simp only [List.length_append]
    omega
  have hblock : ((pre ++ bs ++ post).drop pre.length).take bs.length = bs := by
    rw [List.append_assoc, List.drop_left' rfl, List.take_left' rfl]
  unfold readLE
  rw [if_pos hfit, hblock]

theorem readLE_some {n : Nat} {bs : Bytes} {offset : Nat} (h : offset + n ≤ bs.length) :
    readLE n bs offset = some (leNat ((bs.drop offset).take n)) := if_pos h

theorem readLE_fits {n : Nat} {bs : Bytes} {offset v : Nat} (h : readLE n bs offset = some v) :
    offset + n ≤ bs.length := by
  unfold readLE at h
  split at h
  · assumption
  · cases h

theorem readLE_behind (n : Nat) (front bs : Bytes) (offset : Nat) :
    readLE n (front ++ bs) (front.length + offset) = readLE n bs offset := by
  have hfit : front.length + offset + n ≤ (front ++ bs).length ↔ offset + n ≤ bs.length := by
    rw [List.length_append]
    omega
  unfold readLE
  simp only [hfit, ← List.drop_drop, List.drop_left]

theorem readLE_leBytes {n v : Nat} (h : v < 256 ^ n) (rest : Bytes) :
    readLE n (leBytes n v ++ rest) 0 = some v := by
  have hblock := readLE_block [] (leBytes n v) rest
  rw [leBytes_length, leNat_leBytes_of_lt h] at hblock
  exact hblock

theorem readLE_skip (n m v : Nat) (rest : Bytes) (offset : Nat) :
    readLE n (leBytes m v ++ rest) (offset + m) = readLE n rest offset := by
  have hbehind := readLE_behind n (leBytes m v) rest offset
  rwa [leBytes_length, Nat.add_comm] at hbehind

end LproxyCv.Foundation
