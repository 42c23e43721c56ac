import LproxyCv.Dns.DnsPacket

set_option autoImplicit false

/-!
# Dns: the layout of a message

Where the parts of a message lie, as far as offset 512: its numbers, its names with
their labels and pointers, its questions and records.  A part is cut short when it
takes a byte that the slice does not have, at an offset below 512; the parser
panics exactly there (`fromBuffer_panics_iff`).
-/

namespace LproxyCv.Dns

open LproxyCv.Foundation

/-- The byte at an offset that the parser may read. -/
def ByteAt (b : Bytes) (p : Nat) (x : UInt8) : Prop := p < 512 ∧ b[p]? = some x

/-- An offset that the parser may read, behind the end of the slice. -/
def Beyond (b : Bytes) (p : Nat) : Prop := p < 512 ∧ b.length ≤ p

/-- The number that bytes stand for, the highest first. -/
def beNat (bs : Bytes) : Nat := bs.foldl (fun n x => n * 256 + x.toNat) 0

/-- A number of `n` bytes. -/
def number (b : Bytes) (n : Nat) : Layout Nat where
  cut p := ∃ j, p ≤ j ∧ j < p + n ∧ Beyond b j
  ends p v q := q = p + n ∧ p + n ≤ 512 ∧ p + n ≤ b.length ∧ v = beNat ((b.drop p).take n)

/-- Some `n` bytes. -/
def bytes (b : Bytes) (n : Nat) : Layout Unit := (number b n).forget

/-- `n` bytes that nobody looks at. -/
def gap (n : Nat) : Layout Unit where
  cut _ := False
  ends p _ q := q = p + n

/-- Whether a byte is the first of a pointer. -/
def IsPointer (x : UInt8) : Prop := 192 ≤ x.toNat

/-- The offset of a pointer. -/
def pointerTo (x y : UInt8) : Nat := (x.toNat - 192) * 256 + y.toNat

/-- A name that starts at the first offset goes on at the second, where it stands,
after its labels; a pointer at its end leads to a name that ends too. -/
inductive NameEnds (b : Bytes) : Nat → Nat → Prop where
  | root {p : Nat} : ByteAt b p 0 → NameEnds b p (p + 1)
  | pointer {p q : Nat} {x y : UInt8} : ByteAt b p x → IsPointer x → ByteAt b (p + 1) y →
      NameEnds b (pointerTo x y) q → NameEnds b p (p + 2)
  | label {p q : Nat} {x : UInt8} : ByteAt b p x → ¬ IsPointer x → x ≠ 0 →
      p + 1 + x.toNat < 512 → p + 1 + x.toNat ≤ b.length → NameEnds b (p + 1 + x.toNat) q →
      NameEnds b p q

/-- A name that is cut short: at a length, within a pointer or a label, or
anywhere behind them. -/
inductive NameCut (b : Bytes) : Nat → Prop where
  | length {p : Nat} : Beyond b p → NameCut b p
  | pointerByte {p : Nat} {x : UInt8} : ByteAt b p x → IsPointer x → Beyond b (p + 1) →
      NameCut b p
  | pointer {p : Nat} {x y : UInt8} : ByteAt b p x → IsPointer x → ByteAt b (p + 1) y →
      NameCut b (pointerTo x y) → NameCut b p
  | text {p : Nat} {x : UInt8} : ByteAt b p x → ¬ IsPointer x → x ≠ 0 →
      p + 1 + x.toNat < 512 → b.length < p + 1 + x.toNat → NameCut b p
  | label {p : Nat} {x : UInt8} : ByteAt b p x → ¬ IsPointer x → x ≠ 0 →
      p + 1 + x.toNat < 512 → p + 1 + x.toNat ≤ b.length → NameCut b (p + 1 + x.toNat) →
      NameCut b p

/-- A name. -/
def name (b : Bytes) : Layout Unit where
  cut := NameCut b
  ends p _ q := NameEnds b p q

/-- The header: an identity, flags, and how many questions and records follow. -/
def header (b : Bytes) : Layout (Nat × Nat × Nat × Nat) :=
  (number b 2).andThen fun _ => (number b 2).andThen fun _ =>
    (number b 2).andThen fun questions => (number b 2).andThen fun answers =>
      (number b 2).andThen fun authorities =>
        (number b 2).value fun resources => (questions, answers, authorities, resources)

/-- A question: a name, a type and a class. -/
def question (b : Bytes) : Layout Unit :=
  (name b).andThen fun _ => (number b 2).andThen fun _ => bytes b 2

/-- What a record of a type says.  Of the types the parser does not know, it skips
as many bytes as the record says it has. -/
def recordData (b : Bytes) (qtype dataLen : Nat) : Layout Unit :=
  if qtype = 1 then bytes b 4
  else if qtype = 28 then bytes b 16
  else if qtype = 2 ∨ qtype = 5 then name b
  else if qtype = 15 then (number b 2).andThen fun _ => name b
  else gap dataLen

/-- A record: a name, a type, a class, a time to live, a length and the data. -/
def record (b : Bytes) : Layout Unit :=
  (name b).andThen fun _ => (number b 2).andThen fun qtype => (number b 2).andThen fun _ =>
    (bytes b 4).andThen fun _ => (number b 2).andThen fun dataLen => recordData b qtype dataLen

/-- A message. -/
def message (b : Bytes) : Layout Unit :=
  (header b).andThen fun n =>
    ((question b).times n.1).andThen fun _ => ((record b).times n.2.1).andThen fun _ =>
      ((record b).times n.2.2.1).andThen fun _ => (record b).times n.2.2.2

/-- A message is cut short: one of its parts takes a byte below offset 512 that the
slice does not have. -/
def CutShort (b : Bytes) : Prop := (message b).cut 0

/-! ## Numbers -/

theorem bytes_cut {b : Bytes} {n p : Nat} :
    (bytes b n).cut p ↔ ∃ j, p ≤ j ∧ j < p + n ∧ Beyond b j := Iff.rfl

theorem bytes_ends {b : Bytes} {n p q : Nat} {v : Unit} :
    (bytes b n).ends p v q ↔ q = p + n ∧ p + n ≤ 512 ∧ p + n ≤ b.length := by
  constructor
  · rintro ⟨_, ⟨h₁, h₂, h₃, _⟩, _⟩
    exact ⟨h₁, h₂, h₃⟩
  · rintro ⟨h₁, h₂, h₃⟩
    exact ⟨_, ⟨h₁, h₂, h₃, rfl⟩, rfl⟩

/-- Bytes behind bytes are bytes. -/
theorem bytes_add (b : Bytes) {m : Nat} (n : Nat) (hm : 0 < m) :
    ((bytes b m).andThen fun _ => bytes b n).Same (bytes b (m + n)) where
  cut p := by
    simp only [Layout.andThen, bytes_cut, bytes_ends]
    constructor
    · rintro (⟨j, h₁, h₂, h₃⟩ | ⟨_, q, ⟨rfl, _⟩, j, h₁, h₂, h₃⟩)
      · exact ⟨j, h₁, by omega, h₃⟩
      · exact ⟨j, by omega, by omega, h₃⟩
    · rintro ⟨j, h₁, h₂, h₃, h₄⟩
      -- the first missing byte is in the first part, or the first part is there
      by_cases hfirst : p + m ≤ b.length ∧ p + m ≤ j
      · exact .inr ⟨(), p + m, ⟨rfl, by omega, hfirst.1⟩, j, hfirst.2, by omega, h₃, h₄⟩
      · exact .inl ⟨max p b.length, by omega, by omega, by omega, by omega⟩
  ends p v q := by
    simp only [Layout.andThen, bytes_ends]
    constructor
    · rintro ⟨_, r, ⟨rfl, _⟩, rfl, h₁, h₂⟩
      exact ⟨by omega, by omega, by omega⟩
    · rintro ⟨rfl, h₁, h₂⟩
      exact ⟨(), p + m, ⟨rfl, by omega, by omega⟩, by omega, by omega, by omega⟩

theorem take_one {b : Bytes} {p : Nat} (h : p < b.length) : (b.drop p).take 1 = [b[p]] := by
  rw [List.drop_eq_getElem_cons h, List.take_succ_cons, List.take_zero]

/-- A number with its next byte. -/
theorem beNat_take_succ {b : Bytes} {p n : Nat} (h : p + n < b.length) :
    beNat ((b.drop p).take (n + 1)) =
      beNat ((b.drop p).take n) * 256 + beNat ((b.drop (p + n)).take 1) := by
  rw [List.take_add, List.drop_drop, take_one h]
  simp [beNat]

/-- The next byte of a number. -/
theorem number_succ (b : Bytes) {n : Nat} (hn : 0 < n) :
    ((number b n).andThen fun hi => (number b 1).value fun lo => hi * 256 + lo).Same
      (number b (n + 1)) where
  cut p := by
    have hcut := (bytes_add b 1 hn).cut p
    rw [bytes_cut] at hcut
    rw [show (number b (n + 1)).cut p ↔ ∃ j, p ≤ j ∧ j < p + (n + 1) ∧ Beyond b j from Iff.rfl,
      ← hcut]
    constructor
    · rintro (h | ⟨v, q, h, h'⟩)
      · exact .inl h
      · exact .inr ⟨(), q, ⟨v, h, rfl⟩, h'⟩
    · rintro (h | ⟨_, q, ⟨v, h, _⟩, h'⟩)
      · exact .inl h
      · exact .inr ⟨v, q, h, h'⟩
  ends p v q := by
    simp only [Layout.andThen, Layout.value, number]
    constructor
    · rintro ⟨_, _, ⟨rfl, h₁, h₂, rfl⟩, _, ⟨rfl, h₃, h₄, rfl⟩, rfl⟩
      exact ⟨by omega, by omega, by omega, (beNat_take_succ (by omega)).symm⟩
    · rintro ⟨rfl, h₁, h₂, rfl⟩
      exact ⟨_, p + n, ⟨rfl, by omega, by omega, rfl⟩, _, ⟨by omega, by omega, by omega, rfl⟩,
        (beNat_take_succ (by omega)).symm⟩

/-! ## How far parts reach -/

theorem number_forward (b : Bytes) (n : Nat) : (number b n).Forward := by
  rintro p v q ⟨rfl, _⟩
  exact Nat.le_add_right p n

theorem bytes_forward (b : Bytes) (n : Nat) : (bytes b n).Forward := (number_forward b n).value _

theorem name_advances (b : Bytes) : (name b).Advances 512 := by
  intro p v q h
  change NameEnds b p q at h
  induction h with
  | root h => exact ⟨h.1, Nat.lt_succ_self _⟩
  | pointer h _ _ _ _ => exact ⟨h.1, Nat.lt_add_of_pos_right (by decide)⟩
  | label h _ _ _ _ _ ih => exact ⟨h.1, by omega⟩

theorem name_forward (b : Bytes) : (name b).Forward :=
  fun p v q h => Nat.le_of_lt (name_advances b p v q h).2

theorem recordData_forward (b : Bytes) (qtype dataLen : Nat) :
    (recordData b qtype dataLen).Forward := by
  unfold recordData
  split
  · exact bytes_forward b 4
  · split
    · exact bytes_forward b 16
    · split
      · exact name_forward b
      · split
        · exact (number_forward b 2).andThen fun _ => name_forward b
        · rintro p v q rfl
          exact Nat.le_add_right p dataLen

theorem question_advances (b : Bytes) : (question b).Advances 512 :=
  (name_advances b).andThen fun _ => (number_forward b 2).andThen fun _ => bytes_forward b 2

theorem record_advances (b : Bytes) : (record b).Advances 512 :=
  (name_advances b).andThen fun _ => (number_forward b 2).andThen fun qtype =>
    (number_forward b 2).andThen fun _ => (bytes_forward b 4).andThen fun _ =>
      (number_forward b 2).andThen fun dataLen => recordData_forward b qtype dataLen

/-! ## The readers of numbers -/

namespace BytePacketBuffer

/-- A byte is a number of one byte. -/
theorem follows_read (b : Bytes) : Follows b (fun _ => read) (number b 1) UInt8.toNat := by
  refine .of_steady ?_ ?_ ?_
  · intro p
    unfold read
    dsimp only [number]
    constructor
    · intro h
      split at h
      · cases h
      · split at h
        · rename_i hlt hnone
          exact ⟨p, le_rfl, by omega, by omega, List.getElem?_eq_none_iff.mp hnone⟩
        · cases h
    · rintro ⟨j, h₁, h₂, h₃, h₄⟩
      obtain rfl : j = p := by omega
      rw [if_neg (by omega), List.getElem?_eq_none h₄]
  · intro p a c h
    unfold read at h
    dsimp only at h
    split at h
    · cases h
    · split at h
      · cases h
      · rename_i hlt x hx
        cases h
        obtain ⟨hin, rfl⟩ := List.getElem?_eq_some_iff.mp hx
        refine ⟨rfl, rfl, by omega, by omega, ?_⟩
        rw [take_one hin]
        simp [beNat]
  · rintro p v q ⟨rfl, h₁, h₂, rfl⟩
    refine ⟨b[p], ?_, ?_⟩
    · unfold read
      dsimp only
      rw [if_neg (by omega), List.getElem?_eq_getElem (by omega)]
    · rw [take_one (by omega)]
      simp [beNat]

theorem toNat_word (hi lo : UInt8) :
    (hi.toUInt16 <<< 8 ||| lo.toUInt16).toNat = hi.toNat * 256 + lo.toNat := by
  have hhi := hi.toNat_lt
  have hlo := lo.toNat_lt
  have hshift : (hi.toUInt16 <<< 8).toNat = hi.toNat <<< 8 := by
    rw [UInt16.toNat_shiftLeft, UInt8.toNat_toUInt16]
    have hval : (8 : UInt16).toNat % 16 = 8 := rfl
    rw [hval, Nat.shiftLeft_eq]
    exact Nat.mod_eq_of_lt (by omega)
  rw [UInt16.toNat_or, hshift, UInt8.toNat_toUInt16,
    ← Nat.shiftLeft_add_eq_or_of_lt (by omega : lo.toNat < 2 ^ 8), Nat.shiftLeft_eq]

/-- Two bytes are a number of two bytes. -/
theorem follows_readU16 (b : Bytes) :
    Follows b (fun _ => readU16) (number b 2) UInt16.toNat :=
  ((follows_read b).bind fun hi =>
    ((follows_read b).value fun lo => hi.toNat * 256 + lo).map fun lo =>
      toNat_word hi lo).congr (number_succ b Nat.one_pos)

/-- Four bytes are four bytes. -/
theorem follows_readU32 (b : Bytes) :
    Follows b (fun _ => readU32) (bytes b 4) fun _ => () := by
  have hbyte : Follows b (fun _ => read) (bytes b 1) fun _ => () := (follows_read b).forget
  have hlast := fun x y z : UInt8 => hbyte.map (g := fun w : UInt8 =>
    x.toUInt32 <<< 24 ||| y.toUInt32 <<< 16 ||| z.toUInt32 <<< 8 ||| w.toUInt32 <<< 0)
    (r := fun _ => ()) fun _ => rfl
  have htwo := fun x y : UInt8 =>
    (hbyte.seq fun z => hlast x y z).congr (bytes_add b 1 Nat.one_pos)
  have hthree := fun x : UInt8 => (hbyte.seq fun y => htwo x y).congr (bytes_add b 2 Nat.one_pos)
  exact (hbyte.seq fun x => hthree x).congr (bytes_add b 3 Nat.one_pos)

/-! ## The reader of names -/

theorem get_far {b : Bytes} {pos p : Nat} (h : 512 ≤ pos) :
    get pos ⟨b, p⟩ = .err endOfBuffer := if_pos h

theorem get_beyond {b : Bytes} {pos p : Nat} (h : Beyond b pos) : get pos ⟨b, p⟩ = .panic := by
  unfold get
  dsimp only
  rw [if_neg (by have := h.1; omega), List.getElem?_eq_none h.2]

theorem get_byte {b : Bytes} {pos p : Nat} {x : UInt8} (h : ByteAt b pos x) :
    get pos ⟨b, p⟩ = .ok (x, ⟨b, p⟩) := by
  unfold get
  dsimp only
  rw [if_neg (by have := h.1; omega), h.2]

theorem offset_cases (b : Bytes) (p : Nat) : 512 ≤ p ∨ Beyond b p ∨ ∃ x, ByteAt b p x := by
  by_cases hfar : 512 ≤ p
  · exact .inl hfar
  · by_cases hin : p < b.length
    · exact .inr (.inr ⟨b[p], by omega, List.getElem?_eq_getElem hin⟩)
    · exact .inr (.inl ⟨by omega, by omega⟩)

theorem isPointer_iff (x : UInt8) : x &&& 0xC0 = 0xC0 ↔ IsPointer x := by
  unfold IsPointer
  revert x
  exact of_every_byte (by decide +kernel)

theorem pointer_target {x : UInt8} (y : UInt8) (h : IsPointer x) :
    ((x.toUInt16 ^^^ 0xC0) <<< 8 ||| y.toUInt16).toNat = pointerTo x y := by
  have hall : ∀ x : UInt8, 192 ≤ x.toNat → (x ^^^ 0xC0).toNat = x.toNat - 192 :=
    of_every_byte (by decide +kernel)
  have hbits := hall x h
  have hwide : x.toUInt16 ^^^ 0xC0 = (x ^^^ 0xC0).toUInt16 := rfl
  rw [hwide, toNat_word, hbits, pointerTo]

/-- Where the buffer is after the part of a name that goes on at `q`. -/
def after (jumped : Bool) (p q : Nat) : Nat := if jumped then p else q

theorem seekUnless_apply (jumped : Bool) (b : Bytes) (p q : Nat) :
    seekUnless jumped q ⟨b, p⟩ = .ok ((), ⟨b, after jumped p q⟩) := by
  cases jumped <;> rfl

/-- What a name can find at an offset. -/
inductive Found (b : Bytes) (pos : Nat) : Prop where
  | far : 512 ≤ pos → Found b pos
  | beyond : Beyond b pos → Found b pos
  | root : ByteAt b pos 0 → Found b pos
  | pointerFar (x : UInt8) : ByteAt b pos x → IsPointer x → 512 ≤ pos + 1 → Found b pos
  | pointerBeyond (x : UInt8) : ByteAt b pos x → IsPointer x → Beyond b (pos + 1) → Found b pos
  | pointer (x y : UInt8) : ByteAt b pos x → IsPointer x → ByteAt b (pos + 1) y → Found b pos
  | textFar (x : UInt8) : ByteAt b pos x → ¬ IsPointer x → x ≠ 0 → 512 ≤ pos + 1 + x.toNat →
      Found b pos
  | text (x : UInt8) : ByteAt b pos x → ¬ IsPointer x → x ≠ 0 → pos + 1 + x.toNat < 512 →
      b.length < pos + 1 + x.toNat → Found b pos
  | label (x : UInt8) : ByteAt b pos x → ¬ IsPointer x → x ≠ 0 → pos + 1 + x.toNat < 512 →
      pos + 1 + x.toNat ≤ b.length → Found b pos

theorem found (b : Bytes) (pos : Nat) : Found b pos := by
  rcases offset_cases b pos with hfar | hbeyond | ⟨x, hx⟩
  · exact .far hfar
  · exact .beyond hbeyond
  · by_cases hpointer : IsPointer x
    · rcases offset_cases b (pos + 1) with hfar | hbeyond | ⟨y, hy⟩
      · exact .pointerFar x hx hpointer hfar
      · exact .pointerBeyond x hx hpointer hbeyond
      · exact .pointer x y hx hpointer hy
    · by_cases hzero : x = 0
      · exact .root (hzero ▸ hx)
      · by_cases hfar : 512 ≤ pos + 1 + x.toNat
        · exact .textFar x hx hpointer hzero hfar
        · by_cases hin : pos + 1 + x.toNat ≤ b.length
          · exact .label x hx hpointer hzero (by omega) hin
          · exact .text x hx hpointer hzero (by omega) (by omega)

section Labels

variable {unicode : UnicodeLower} {b : Bytes} {fuel pos p : Nat} {jumped : Bool}
  {delim outstr : String} {x y : UInt8}

theorem readLabels_far (h : 512 ≤ pos) :
    readLabels unicode (fuel + 1) pos jumped delim outstr ⟨b, p⟩ = .err endOfBuffer := by
  rw [readLabels, Reader.bind_apply, get_far h]
  rfl

theorem readLabels_beyond (h : Beyond b pos) :
    readLabels unicode (fuel + 1) pos jumped delim outstr ⟨b, p⟩ = .panic := by
  rw [readLabels, Reader.bind_apply, get_beyond h]
  rfl

theorem readLabels_root (h : ByteAt b pos 0) :
    readLabels unicode (fuel + 1) pos jumped delim outstr ⟨b, p⟩ =
      .ok (outstr, ⟨b, after jumped p (pos + 1)⟩) := by
  rw [readLabels, Reader.bind_apply, get_byte h]
  dsimp only [Outcome.bind]
  rw [if_neg (by decide), if_pos rfl, Reader.bind_apply, seekUnless_apply]
  rfl

/-- What a pointer does, once its second byte is read. -/
theorem readLabels_isPointer (h : ByteAt b pos x) (hx : IsPointer x) :
    readLabels unicode (fuel + 1) pos jumped delim outstr ⟨b, p⟩ =
      (get (pos + 1) ⟨b, after jumped p (pos + 2)⟩).bind fun r =>
        readLabels unicode fuel ((x.toUInt16 ^^^ 0xC0) <<< 8 ||| r.1.toUInt16).toNat true delim
          outstr r.2 := by
  rw [readLabels, Reader.bind_apply, get_byte h]
  dsimp only [Outcome.bind]
  rw [if_pos ((isPointer_iff x).mpr hx), Reader.bind_apply, seekUnless_apply]
  rfl

theorem readLabels_pointerFar (h : ByteAt b pos x) (hx : IsPointer x) (hfar : 512 ≤ pos + 1) :
    readLabels unicode (fuel + 1) pos jumped delim outstr ⟨b, p⟩ = .err endOfBuffer := by
  rw [readLabels_isPointer h hx, get_far hfar]
  rfl

theorem readLabels_pointerBeyond (h : ByteAt b pos x) (hx : IsPointer x)
    (hbeyond : Beyond b (pos + 1)) :
    readLabels unicode (fuel + 1) pos jumped delim outstr ⟨b, p⟩ = .panic := by
  rw [readLabels_isPointer h hx, get_beyond hbeyond]
  rfl

theorem readLabels_pointer (h : ByteAt b pos x) (hx : IsPointer x) (hy : ByteAt b (pos + 1) y) :
    readLabels unicode (fuel + 1) pos jumped delim outstr ⟨b, p⟩ =
      readLabels unicode fuel (pointerTo x y) true delim outstr
        ⟨b, after jumped p (pos + 2)⟩ := by
  rw [readLabels_isPointer h hx, get_byte hy]
  dsimp only [Outcome.bind]
  rw [pointer_target y hx]

/-- What a label does, once its text is read. -/
theorem readLabels_isLabel (h : ByteAt b pos x) (hx : ¬ IsPointer x) (hzero : x ≠ 0) :
    readLabels unicode (fuel + 1) pos jumped delim outstr ⟨b, p⟩ =
      (getRange (pos + 1) x.toNat ⟨b, p⟩).bind fun r =>
        readLabels unicode fuel (pos + 1 + x.toNat) jumped "."
          (outstr ++ delim ++ toLowercase unicode (fromUtf8Lossy r.1)) r.2 := by
  rw [readLabels, Reader.bind_apply, get_byte h]
  dsimp only [Outcome.bind]
  rw [if_neg (fun hp => hx ((isPointer_iff x).mp hp)), if_neg hzero]
  rfl

theorem readLabels_textFar (h : ByteAt b pos x) (hx : ¬ IsPointer x) (hzero : x ≠ 0)
    (hfar : 512 ≤ pos + 1 + x.toNat) :
    readLabels unicode (fuel + 1) pos jumped delim outstr ⟨b, p⟩ = .err endOfBuffer := by
  rw [readLabels_isLabel h hx hzero]
  unfold getRange
  dsimp only
  rw [if_pos hfar]
  rfl

theorem readLabels_text (h : ByteAt b pos x) (hx : ¬ IsPointer x) (hzero : x ≠ 0)
    (hnear : pos + 1 + x.toNat < 512) (hcut : b.length < pos + 1 + x.toNat) :
    readLabels unicode (fuel + 1) pos jumped delim outstr ⟨b, p⟩ = .panic := by
  rw [readLabels_isLabel h hx hzero]
  unfold getRange
  dsimp only
  rw [if_neg (by omega), if_neg (by omega)]
  rfl

theorem readLabels_label (h : ByteAt b pos x) (hx : ¬ IsPointer x) (hzero : x ≠ 0)
    (hnear : pos + 1 + x.toNat < 512) (hin : pos + 1 + x.toNat ≤ b.length) :
    readLabels unicode (fuel + 1) pos jumped delim outstr ⟨b, p⟩ =
      readLabels unicode fuel (pos + 1 + x.toNat) jumped "." (outstr ++ delim ++
        toLowercase unicode (fromUtf8Lossy ((b.drop (pos + 1)).take x.toNat))) ⟨b, p⟩ := by
  rw [readLabels_isLabel h hx hzero]
  unfold getRange
  dsimp only
  rw [if_neg (by omega), if_pos hin]
  rfl

end Labels

/-- More iterations change nothing but a hang. -/
theorem readLabels_mono (unicode : UnicodeLower) (b : Bytes) (more : Nat) :
    ∀ (fuel pos : Nat) (jumped : Bool) (delim outstr : String) (p : Nat),
      readLabels unicode fuel pos jumped delim outstr ⟨b, p⟩ ≠ .hang →
      readLabels unicode (fuel + more) pos jumped delim outstr ⟨b, p⟩ =
        readLabels unicode fuel pos jumped delim outstr ⟨b, p⟩ := by
  intro fuel
  induction fuel with
  | zero =>
      intro pos jumped delim outstr p hne
      exact absurd rfl hne
  | succ fuel ih =>
      intro pos jumped delim outstr p hne
      rw [Nat.add_right_comm]
      cases found b pos with
      | far h => rw [readLabels_far h, readLabels_far h]
      | beyond h => rw [readLabels_beyond h, readLabels_beyond h]
      | root h => rw [readLabels_root h, readLabels_root h]
      | pointerFar x h hx hfar => rw [readLabels_pointerFar h hx hfar, readLabels_pointerFar h hx hfar]
      | pointerBeyond x h hx hbeyond =>
          rw [readLabels_pointerBeyond h hx hbeyond, readLabels_pointerBeyond h hx hbeyond]
      | pointer x y h hx hy =>
          rw [readLabels_pointer h hx hy] at hne ⊢
          rw [readLabels_pointer h hx hy]
          exact ih _ _ _ _ _ hne
      | textFar x h hx hzero hfar =>
          rw [readLabels_textFar h hx hzero hfar, readLabels_textFar h hx hzero hfar]
      | text x h hx hzero hnear hcut =>
          rw [readLabels_text h hx hzero hnear hcut, readLabels_text h hx hzero hnear hcut]
      | label x h hx hzero hnear hin =>
          rw [readLabels_label h hx hzero hnear hin] at hne ⊢
          rw [readLabels_label h hx hzero hnear hin]
          exact ih _ _ _ _ _ hne

/-- What the loop over labels finds is what the layout of a name says. -/
theorem readLabels_sound (unicode : UnicodeLower) (b : Bytes) :
    ∀ (fuel pos : Nat) (jumped : Bool) (delim outstr : String) (p : Nat),
      (readLabels unicode fuel pos jumped delim outstr ⟨b, p⟩ = .panic → NameCut b pos) ∧
      ∀ s c, readLabels unicode fuel pos jumped delim outstr ⟨b, p⟩ = .ok (s, c) →
        ∃ q, NameEnds b pos q ∧ c = ⟨b, after jumped p q⟩ := by
  intro fuel
  induction fuel with
  | zero =>
      intro pos jumped delim outstr p
      refine ⟨?_, ?_⟩
      · intro h
        cases h
      · intro s c h
        cases h
  | succ fuel ih =>
      intro pos jumped delim outstr p
      cases found b pos with
      | far h => simp [readLabels_far h]
      | beyond h =>
          rw [readLabels_beyond h]
          exact ⟨fun _ => .length h, fun _ _ hok => by cases hok⟩
      | root h =>
          rw [readLabels_root h]
          refine ⟨(by intro hpanic; cases hpanic), ?_⟩
          intro s c hok
          cases hok
          exact ⟨pos + 1, .root h, rfl⟩
      | pointerFar x h hx hfar => simp [readLabels_pointerFar h hx hfar]
      | pointerBeyond x h hx hbeyond =>
          rw [readLabels_pointerBeyond h hx hbeyond]
          exact ⟨fun _ => .pointerByte h hx hbeyond, fun _ _ hok => by cases hok⟩
      | pointer x y h hx hy =>
          rw [readLabels_pointer h hx hy]
          obtain ⟨hcut, hends⟩ := ih (pointerTo x y) true delim outstr (after jumped p (pos + 2))
          refine ⟨fun hpanic => .pointer h hx hy (hcut hpanic), ?_⟩
          intro s c hok
          obtain ⟨q, hq, hc⟩ := hends s c hok
          exact ⟨pos + 2, .pointer h hx hy hq, hc⟩
      | textFar x h hx hzero hfar => simp [readLabels_textFar h hx hzero hfar]
      | text x h hx hzero hnear hcut =>
          rw [readLabels_text h hx hzero hnear hcut]
          exact ⟨fun _ => .text h hx hzero hnear hcut, fun _ _ hok => by cases hok⟩
      | label x h hx hzero hnear hin =>
          rw [readLabels_label h hx hzero hnear hin]
          obtain ⟨hcut, hends⟩ := ih (pos + 1 + x.toNat) jumped "." (outstr ++ delim ++
            toLowercase unicode (fromUtf8Lossy ((b.drop (pos + 1)).take x.toNat))) p
          refine ⟨fun hpanic => .label h hx hzero hnear hin (hcut hpanic), ?_⟩
          intro s c hok
          obtain ⟨q, hq, hc⟩ := hends s c hok
          exact ⟨q, .label h hx hzero hnear hin hq, hc⟩

/-- Where a name is cut short, the loop panics. -/
theorem readLabels_cut (unicode : UnicodeLower) {b : Bytes} {pos : Nat} (h : NameCut b pos) :
    ∀ (jumped : Bool) (delim outstr : String) (p : Nat),
      ∃ fuel, readLabels unicode fuel pos jumped delim outstr ⟨b, p⟩ = .panic := by
  induction h with
  | length h => exact fun _ _ _ _ => ⟨1, readLabels_beyond h⟩
  | pointerByte h hx hbeyond => exact fun _ _ _ _ => ⟨1, readLabels_pointerBeyond h hx hbeyond⟩
  | pointer h hx hy _ ih =>
      intro jumped delim outstr p
      obtain ⟨fuel, hfuel⟩ := ih true delim outstr _
      exact ⟨fuel + 1, by rw [readLabels_pointer h hx hy, hfuel]⟩
  | text h hx hzero hnear hcut =>
      exact fun _ _ _ _ => ⟨1, readLabels_text h hx hzero hnear hcut⟩
  | label h hx hzero hnear hin _ ih =>
      intro jumped delim outstr p
      obtain ⟨fuel, hfuel⟩ := ih jumped "." _ p
      exact ⟨fuel + 1, by rw [readLabels_label h hx hzero hnear hin, hfuel]⟩

/-- Where a name ends, the loop ends. -/
theorem readLabels_ends (unicode : UnicodeLower) {b : Bytes} {pos q : Nat}
    (h : NameEnds b pos q) :
    ∀ (jumped : Bool) (delim outstr : String) (p : Nat), ∃ fuel s,
      readLabels unicode fuel pos jumped delim outstr ⟨b, p⟩ = .ok (s, ⟨b, after jumped p q⟩) := by
  induction h with
  | root h => exact fun _ _ outstr _ => ⟨1, outstr, readLabels_root h⟩
  | pointer h hx hy _ ih =>
      intro jumped delim outstr p
      obtain ⟨fuel, s, hfuel⟩ := ih true delim outstr _
      exact ⟨fuel + 1, s, by rw [readLabels_pointer h hx hy, hfuel]; rfl⟩
  | label h hx hzero hnear hin _ ih =>
      intro jumped delim outstr p
      obtain ⟨fuel, s, hfuel⟩ := ih jumped "." _ p
      exact ⟨fuel + 1, s, by rw [readLabels_label h hx hzero hnear hin, hfuel]⟩

/-- Names are read as they lie in the message. -/
theorem follows_readQname (unicode : UnicodeLower) (b : Bytes) (outstr : String) :
    Follows b (fun fuel => readQname unicode fuel outstr) (name b) fun _ => () where
  mono fuel more p hne := readLabels_mono unicode b more fuel p false "" outstr p hne
  panic fuel p h := (readLabels_sound unicode b fuel p false "" outstr p).1 h
  cut p h := readLabels_cut unicode h false "" outstr p
  ok := by
    intro fuel p s c h
    obtain ⟨q, hq, rfl⟩ := (readLabels_sound unicode b fuel p false "" outstr p).2 s c h
    exact ⟨rfl, hq⟩
  ends := by
    intro p _ q h
    obtain ⟨fuel, s, hfuel⟩ := readLabels_ends unicode h false "" outstr p
    exact ⟨fuel, s, hfuel, rfl⟩

end BytePacketBuffer

open BytePacketBuffer

/-! ## The reader of messages -/

theorem DnsHeader.follows_read (b : Bytes) :
    Follows b (fun _ => DnsHeader.read) (header b) fun h =>
      (h.questions.toNat, h.answers.toNat, h.authoritativeEntries.toNat,
        h.resourceEntries.toNat) := by
  have hword := follows_readU16 b
  refine hword.seq fun id => hword.seq fun flags => hword.bind fun questions =>
    hword.bind fun answers => hword.bind fun authorities => ?_
  exact (hword.value fun resources => (questions.toNat, answers.toNat, authorities.toNat,
    resources)).map fun _ => rfl

theorem DnsQuestion.follows_read (unicode : UnicodeLower) (b : Bytes) :
    Follows b (DnsQuestion.read unicode) (question b) fun _ => () := by
  have hword := follows_readU16 b
  refine (follows_readQname unicode b "").seq fun name => hword.seq fun qtype => ?_
  exact hword.forget.map fun _ => rfl

theorem queryType_fromNum (num : UInt16) :
    QueryType.fromNum num = .a ∧ num.toNat = 1 ∨ QueryType.fromNum num = .ns ∧ num.toNat = 2 ∨
      QueryType.fromNum num = .cname ∧ num.toNat = 5 ∨
      QueryType.fromNum num = .mx ∧ num.toNat = 15 ∨
      QueryType.fromNum num = .aaaa ∧ num.toNat = 28 ∨
      QueryType.fromNum num = .unknown num ∧
        ∀ n ∈ [1, 2, 5, 15, 28], num.toNat ≠ n := by
  unfold QueryType.fromNum
  by_cases h1 : num = 1
  · subst h1
    exact .inl ⟨rfl, rfl⟩
  · by_cases h2 : num = 2
    · subst h2
      exact .inr (.inl ⟨rfl, rfl⟩)
    · by_cases h5 : num = 5
      · subst h5
        exact .inr (.inr (.inl ⟨rfl, rfl⟩))
      · by_cases h15 : num = 15
        · subst h15
          exact .inr (.inr (.inr (.inl ⟨rfl, rfl⟩)))
        · by_cases h28 : num = 28
          · subst h28
            exact .inr (.inr (.inr (.inr (.inl ⟨rfl, rfl⟩))))
          · refine .inr (.inr (.inr (.inr (.inr ⟨by simp [h1, h2, h5, h15, h28], ?_⟩))))
            have hne : ∀ n : UInt16, num ≠ n → num.toNat ≠ n.toNat :=
              fun n h heq => h (UInt16.toNat_inj.mp heq)
            simpa using ⟨hne 1 h1, hne 2 h2, hne 5 h5, hne 15 h15, hne 28 h28⟩

theorem DnsRecord.follows_readData (unicode : UnicodeLower) (b : Bytes) (domain : String)
    (qtypeNum : UInt16) (ttl : UInt32) (dataLen : UInt16) :
    Follows b (fun fuel => DnsRecord.readData unicode fuel domain qtypeNum ttl dataLen
      (QueryType.fromNum qtypeNum)) (recordData b qtypeNum.toNat dataLen.toNat) fun _ => () := by
  have hname := follows_readQname unicode b ""
  have hquad := follows_readU32 b
  unfold recordData
  rcases queryType_fromNum qtypeNum with ⟨heq, hnum⟩ | ⟨heq, hnum⟩ | ⟨heq, hnum⟩ | ⟨heq, hnum⟩ |
    ⟨heq, hnum⟩ | ⟨heq, hnum⟩
  · rw [heq, hnum]
    exact hquad.map fun _ => rfl
  · rw [heq, hnum]
    exact hname.map fun _ => rfl
  · rw [heq, hnum]
    exact hname.map fun _ => rfl
  · rw [heq, hnum]
    exact (follows_readU16 b).seq fun _ => hname.map fun _ => rfl
  · rw [heq, hnum]
    -- four numbers of four bytes are sixteen bytes
    have hlast := fun x y z : UInt32 => hquad.map (g := fun w => DnsRecord.aaaa domain
      ⟨highHalf x, lowHalf x, highHalf y, lowHalf y, highHalf z, lowHalf z,
        highHalf w, lowHalf w⟩ ttl) (r := fun _ => ()) fun _ => rfl
    have htwo := fun x y : UInt32 =>
      (hquad.seq fun z => hlast x y z).congr (bytes_add b 4 (by decide))
    have hthree := fun x : UInt32 =>
      (hquad.seq fun y => htwo x y).congr (bytes_add b 8 (by decide))
    exact (hquad.seq fun x => hthree x).congr (bytes_add b 12 (by decide))
  · rw [heq, if_neg (hnum 1 (by decide)), if_neg (hnum 28 (by decide)),
      if_neg (fun h => h.elim (hnum 2 (by decide)) (hnum 5 (by decide))),
      if_neg (hnum 15 (by decide))]
    refine .of_steady ?_ ?_ ?_
    · intro p
      refine ⟨?_, fun hcut => hcut.elim⟩
      intro h
      cases h
    · intro p a c h
      cases h
      exact ⟨rfl, rfl⟩
    · rintro p v q rfl
      exact ⟨_, rfl, rfl⟩

theorem DnsRecord.follows_read (unicode : UnicodeLower) (b : Bytes) :
    Follows b (DnsRecord.read unicode) (record b) fun _ => () := by
  have hword := follows_readU16 b
  refine (follows_readQname unicode b "").seq fun domain => hword.bind fun qtypeNum =>
    hword.seq fun _ => (follows_readU32 b).seq fun ttl => hword.bind fun dataLen => ?_
  exact DnsRecord.follows_readData unicode b domain qtypeNum ttl dataLen

theorem DnsPacket.follows_fromBuffer (unicode : UnicodeLower) (b : Bytes) :
    Follows b (DnsPacket.fromBuffer unicode) (message b) fun _ => () := by
  have hquestion := DnsQuestion.follows_read unicode b
  have hrecord := DnsRecord.follows_read unicode b
  refine (DnsHeader.follows_read b).bind fun header => (hquestion.times _).seq fun questions =>
    (hrecord.times _).seq fun answers => (hrecord.times _).seq fun authorities => ?_
  exact (hrecord.times _).map fun _ => rfl

/-- The parser goes behind the end of the slice exactly when the message is cut
short; otherwise it returns a message or an error, if it returns. -/
theorem fromBuffer_panics_iff (unicode : UnicodeLower) (b : Bytes) :
    (∀ fuel, DnsPacket.fromBuffer unicode fuel ⟨b, 0⟩ ≠ .panic) ↔ ¬ CutShort b := by
  have hfollows := DnsPacket.follows_fromBuffer unicode b
  constructor
  · intro h hcut
    obtain ⟨fuel, hpanic⟩ := hfollows.cut 0 hcut
    exact h fuel hpanic
  · intro h fuel hpanic
    exact h (hfollows.panic fuel 0 hpanic)

/-- A datagram of a header alone, which announces one question. -/
theorem header_alone_panics :
    DnsPacket.fromBuffer (fun _ c _ => [c]) 1 ⟨[0x12, 0x34, 1, 0, 0, 1, 0, 0, 0, 0, 0, 0], 0⟩ =
      .panic := by
  decide +kernel

/-! ## Messages of 512 bytes and more -/

theorem name_whole {b : Bytes} (h : 512 ≤ b.length) : (name b).Whole := by
  intro p hcut
  change NameCut b p at hcut
  induction hcut with
  | length hbeyond =>
      have := hbeyond.1
      have := hbeyond.2
      omega
  | pointerByte _ _ hbeyond =>
      have := hbeyond.1
      have := hbeyond.2
      omega
  | pointer _ _ _ _ ih => exact ih
  | text _ _ _ hnear hcut => omega
  | label _ _ _ _ _ _ ih => exact ih

theorem number_whole {b : Bytes} (h : 512 ≤ b.length) (n : Nat) : (number b n).Whole := by
  rintro p ⟨j, _, _, hlt, hlen⟩
  omega

theorem bytes_whole {b : Bytes} (h : 512 ≤ b.length) (n : Nat) : (bytes b n).Whole :=
  (number_whole h n).value _

theorem record_whole {b : Bytes} (h : 512 ≤ b.length) : (record b).Whole := by
  have hword := number_whole h
  refine (name_whole h).andThen fun _ => (hword 2).andThen fun qtype => (hword 2).andThen fun _ =>
    (bytes_whole h 4).andThen fun _ => (hword 2).andThen fun dataLen => ?_
  unfold recordData
  split
  · exact bytes_whole h 4
  · split
    · exact bytes_whole h 16
    · split
      · exact name_whole h
      · split
        · exact (hword 2).andThen fun _ => name_whole h
        · exact fun _ hcut => hcut

/-- A message of 512 bytes or more is never cut short. -/
theorem not_cutShort_of_long {b : Bytes} (h : 512 ≤ b.length) : ¬ CutShort b := by
  have hword := number_whole h
  have hheader : (header b).Whole :=
    (hword 2).andThen fun _ => (hword 2).andThen fun _ => (hword 2).andThen fun _ =>
      (hword 2).andThen fun _ => (hword 2).andThen fun _ => (hword 2).value _
  have hquestion : (question b).Whole :=
    (name_whole h).andThen fun _ => (hword 2).andThen fun _ => bytes_whole h 2
  have hrecord := record_whole h
  exact (hheader.andThen fun n => (hquestion.times n.1).andThen fun _ =>
    (hrecord.times n.2.1).andThen fun _ => (hrecord.times n.2.2.1).andThen fun _ =>
      hrecord.times n.2.2.2) 0

end LproxyCv.Dns
