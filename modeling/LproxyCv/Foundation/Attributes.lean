import LproxyCv.Foundation.Bytes

set_option autoImplicit false

/-!
# Foundation: messages of nested attributes

An attribute is a length, a type and what it carries, padded to a multiple of four bytes;
what it carries are bytes, or attributes again, as a bit of its type says.  The length counts
the four bytes of the head and not the padding, and numbers are in the byte order of the
machine.  `decode` walks the attributes of a buffer by their lengths and gives nothing unless
they take it up exactly; what was encoded is decoded (`decode_encode`).

`page` is a buffer of zeros of which the front is written.
-/

namespace LproxyCv.Foundation

/-! ## Byte orders -/

/-- The byte order of a machine. -/
inductive Endian where
  | little
  | big
  deriving DecidableEq, Repr

namespace Endian

/-- The bytes of a number of `n` bytes. -/
def bytes (e : Endian) (n v : Nat) : Bytes :=
  match e with
  | little => leBytes n v
  | big => (leBytes n v).reverse

/-- The number that bytes are. -/
def nat (e : Endian) (bs : Bytes) : Nat :=
  match e with
  | little => leNat bs
  | big => leNat bs.reverse

@[simp] theorem length_bytes (e : Endian) (n v : Nat) : (e.bytes n v).length = n := by
  cases e with
  | little => exact leBytes_length n v
  | big => rw [bytes, List.length_reverse, leBytes_length]

theorem nat_bytes (e : Endian) {n v : Nat} (h : v < 256 ^ n) : e.nat (e.bytes n v) = v := by
  cases e with
  | little => exact leNat_leBytes_of_lt h
  | big => rw [nat, bytes, List.reverse_reverse, leNat_leBytes_of_lt h]

end Endian

/-! ## Attributes -/

/-- The length with its padding. -/
def padded (n : Nat) : Nat := (n + 3) / 4 * 4

theorem le_padded (n : Nat) : n ≤ padded n := by
  unfold padded
  omega

/-- An attribute. -/
inductive Attr where
  | data (type : Nat) (bytes : Bytes)
  | nested (type : Nat) (attrs : List Attr)

namespace Attr

/-- The bit of the types of attributes that carry attributes. -/
def nestedBit : Nat := 2 ^ 15

/-- The bytes of an attribute of a type that carries `payload`. -/
def frame (e : Endian) (type : Nat) (payload : Bytes) : Bytes :=
  e.bytes 2 (4 + payload.length) ++ e.bytes 2 type ++ payload ++
    List.replicate (padded payload.length - payload.length) 0

mutual

/-- The bytes of an attribute. -/
def encodeOne (e : Endian) : Attr → Bytes
  | data type bytes => frame e type bytes
  | nested type attrs => frame e (type + nestedBit) (encode e attrs)

/-- The bytes of attributes. -/
def encode (e : Endian) : List Attr → Bytes
  | [] => []
  | a :: as => encodeOne e a ++ encode e as

end

mutual

/-- The lengths and the types are numbers of their bytes. -/
def FitsOne (e : Endian) : Attr → Prop
  | data type bytes => type < nestedBit ∧ 4 + bytes.length < 2 ^ 16
  | nested type attrs => type < nestedBit ∧ 4 + (encode e attrs).length < 2 ^ 16 ∧ Fits e attrs

/-- All lengths and types are numbers of their bytes. -/
def Fits (e : Endian) : List Attr → Prop
  | [] => True
  | a :: as => FitsOne e a ∧ Fits e as

end

/-- The attributes of a buffer, in so many steps. -/
def decodeSteps (e : Endian) : Nat → Bytes → Option (List Attr)
  | 0, bs => if bs = [] then some [] else none
  | fuel + 1, bs =>
      if bs = [] then some []
      else
        let len := e.nat (bs.take 2)
        let type := e.nat ((bs.drop 2).take 2)
        if 4 ≤ len ∧ padded len ≤ bs.length then do
          let rest ← decodeSteps e fuel (bs.drop (padded len))
          let payload := (bs.take len).drop 4
          if nestedBit ≤ type then do
            let attrs ← decodeSteps e fuel payload
            some (nested (type - nestedBit) attrs :: rest)
          else some (data type payload :: rest)
        else none

/-- The attributes of a buffer, if they take it up exactly. -/
def decode (e : Endian) (bs : Bytes) : Option (List Attr) := decodeSteps e bs.length bs

/-! ## What was encoded is decoded -/

section Frame

variable (e : Endian) {type : Nat} {payload : Bytes}

theorem length_frame (type : Nat) (payload : Bytes) :
    (frame e type payload).length = padded (4 + payload.length) := by
  have hle := le_padded payload.length
  have hpad : padded (4 + payload.length) = 4 + padded payload.length := by
    unfold padded
    omega
  simp only [frame, List.length_append, Endian.length_bytes, List.length_replicate]
  omega

theorem frame_append_parts (rest : Bytes) : frame e type payload ++ rest =
    e.bytes 2 (4 + payload.length) ++ (e.bytes 2 type ++ (payload ++
      (List.replicate (padded payload.length - payload.length) 0 ++ rest))) := by
  simp only [frame, List.append_assoc]

theorem len_of_frame (hlen : 4 + payload.length < 2 ^ 16) (rest : Bytes) :
    e.nat ((frame e type payload ++ rest).take 2) = 4 + payload.length := by
  rw [frame_append_parts, List.take_left' (e.length_bytes 2 _), e.nat_bytes (by omega)]

theorem type_of_frame (htype : type < 2 ^ 16) (rest : Bytes) :
    e.nat (((frame e type payload ++ rest).drop 2).take 2) = type := by
  rw [frame_append_parts, List.drop_left' (e.length_bytes 2 _),
    List.take_left' (e.length_bytes 2 _), e.nat_bytes (by omega)]

theorem payload_of_frame (rest : Bytes) :
    ((frame e type payload ++ rest).take (4 + payload.length)).drop 4 = payload := by
  have hhead : (e.bytes 2 (4 + payload.length) ++ e.bytes 2 type).length = 4 := by
    rw [List.length_append, e.length_bytes, e.length_bytes]
  rw [List.drop_take, frame_append_parts, ← List.append_assoc, List.drop_left' hhead,
    Nat.add_sub_cancel_left, List.take_left' rfl]

theorem rest_of_frame (rest : Bytes) :
    (frame e type payload ++ rest).drop (padded (4 + payload.length)) = rest :=
  List.drop_left' (length_frame e _ _)

/-- One step of the walk: the attribute in front, and those behind it. -/
theorem decodeSteps_frame {fuel : Nat} (htype : type < 2 ^ 16)
    (hlen : 4 + payload.length < 2 ^ 16) (rest : Bytes) :
    decodeSteps e (fuel + 1) (frame e type payload ++ rest) = (decodeSteps e fuel rest).bind
      fun attrs => if nestedBit ≤ type then
          (decodeSteps e fuel payload).bind fun inner => some (nested (type - nestedBit) inner :: attrs)
        else some (data type payload :: attrs) := by
  have hlength : (frame e type payload ++ rest).length =
      padded (4 + payload.length) + rest.length := by
    rw [List.length_append, length_frame]
  have hne : frame e type payload ++ rest ≠ [] := by
    apply List.ne_nil_of_length_pos
    have hle := le_padded (4 + payload.length)
    omega
  rw [decodeSteps, if_neg hne]
  simp only [len_of_frame e hlen, type_of_frame e htype, payload_of_frame, rest_of_frame, hlength]
  rw [if_pos (by omega)]
  rfl

end Frame

theorem decodeSteps_encode (e : Endian) {fuel : Nat} {attrs : List Attr} (hfits : Fits e attrs)
    (hfuel : (encode e attrs).length ≤ fuel) :
    decodeSteps e fuel (encode e attrs) = some attrs := by
  induction fuel generalizing attrs with
  | zero =>
      cases attrs with
      | nil => rfl
      | cons a as =>
          -- an attribute takes at least its head
          rw [encode, List.length_append] at hfuel
          have hpos : 4 ≤ (encodeOne e a).length := by
            cases a with
            | data type bytes =>
                rw [encodeOne, length_frame]
                exact (Nat.le_add_right 4 _).trans (le_padded _)
            | nested type inner =>
                rw [encodeOne, length_frame]
                exact (Nat.le_add_right 4 _).trans (le_padded _)
          omega
  | succ fuel ih =>
      cases attrs with
      | nil => rfl
      | cons a as =>
          rw [Fits] at hfits
          obtain ⟨hone, hrest⟩ := hfits
          rw [encode, List.length_append] at hfuel
          cases a with
          | data type bytes =>
              rw [encodeOne, length_frame] at hfuel
              have hle := le_padded (4 + bytes.length)
              rw [FitsOne] at hone
              obtain ⟨htype, hlen⟩ := hone
              have hbit : nestedBit < 2 ^ 16 := by decide
              rw [encode, encodeOne, decodeSteps_frame e (by omega) hlen,
                ih hrest (by omega), Option.bind_some, if_neg (Nat.not_le_of_lt htype)]
          | nested type inner =>
              rw [encodeOne, length_frame] at hfuel
              have hle := le_padded (4 + (encode e inner).length)
              rw [FitsOne] at hone
              obtain ⟨htype, hlen, hinner⟩ := hone
              have hbits : nestedBit + nestedBit = 2 ^ 16 := by decide
              rw [encode, encodeOne, decodeSteps_frame e (by omega) hlen,
                ih hrest (by omega), Option.bind_some, if_pos (Nat.le_add_left _ _),
                ih hinner (by omega), Option.bind_some, Nat.add_sub_cancel]

/-- Attributes whose numbers fit are decoded from their bytes. -/
theorem decode_encode (e : Endian) {attrs : List Attr} (hfits : Fits e attrs) :
    decode e (encode e attrs) = some attrs :=
  decodeSteps_encode e hfits le_rfl

end Attr

/-! ## Writing to a buffer of zeros -/

/-- A buffer of `n` bytes whose front is written. -/
def page (front : Bytes) (n : Nat) : Bytes := front ++ List.replicate (n - front.length) 0

theorem length_page {front : Bytes} {n : Nat} (h : front.length ≤ n) :
    (page front n).length = n := by
  rw [page, List.length_append, List.length_replicate]
  omega

/-- To write behind the front, with a gap of zeros, is to have more of a front. -/
theorem putAt_page {front bs : Bytes} {n pos : Nat} (gap : Nat) (hpos : pos = front.length + gap)
    (hfit : pos + bs.length ≤ n) :
    putAt (page front n) pos bs = some (page (front ++ List.replicate gap 0 ++ bs) n) := by
  have hfront : (page front n).take pos = front ++ List.replicate gap 0 := by
    have hmin : min gap (n - front.length) = gap := by omega
    rw [page, List.take_append, hpos, Nat.add_sub_cancel_left,
      List.take_of_length_le (Nat.le_add_right _ _), List.take_replicate, hmin]
  have hback : (page front n).drop (pos + bs.length) =
      List.replicate (n - (pos + bs.length)) 0 := by
    rw [page, List.drop_append, List.drop_eq_nil_of_le (by omega), List.nil_append,
      List.drop_replicate]
    congr 1
    omega
  have hlength : (front ++ List.replicate gap 0 ++ bs).length = pos + bs.length := by
    rw [List.length_append, List.length_append, List.length_replicate, hpos]
  rw [putAt, length_page (by omega), if_pos hfit, hfront, hback, page, hlength]

/-- Zeros behind the front are there already. -/
theorem page_zeros {front : Bytes} {n : Nat} (gap : Nat) (hfit : front.length + gap ≤ n) :
    page (front ++ List.replicate gap 0) n = page front n := by
  have hrest : gap + (n - (front.length + gap)) = n - front.length := by omega
  rw [page, page, List.length_append, List.length_replicate, List.append_assoc,
    List.replicate_append_replicate, hrest]

/-- What is at the front of a page, with some of the zeros behind it. -/
theorem take_page {front : Bytes} {n len : Nat} (gap : Nat) (hlen : len = front.length + gap)
    (hfit : len ≤ n) : (page front n).take len = front ++ List.replicate gap 0 := by
  have hmin : min gap (n - front.length) = gap := by omega
  rw [page, List.take_append, hlen, Nat.add_sub_cancel_left,
    List.take_of_length_le (Nat.le_add_right _ _), List.take_replicate, hmin]

/-- Behind the front of a page there are zeros. -/
theorem drop_page {front : Bytes} {n len : Nat} (hlen : front.length ≤ len) :
    (page front n).drop len = List.replicate (n - len) 0 := by
  rw [page, List.drop_append, List.drop_eq_nil_of_le hlen, List.nil_append, List.drop_replicate]
  congr 1
  omega

end LproxyCv.Foundation
