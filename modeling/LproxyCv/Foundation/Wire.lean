import LproxyCv.Foundation.Bytes

set_option autoImplicit false

/-!
# Foundation: messages of tagged fields

A message is a row of fields, each behind a tag that has its number and how it is written.  What
a message that was generated from its declaration calls to write, measure and read fields is a
`Runtime`; `Runtime.Lawful` is what such a library promises: what it writes is read back,
whatever follows, and the sizes are those of what is written, in 32 bits.  A message is read by
taking fields until there are none (`mergeFields`), and a row of fields that are read back one by
one is read back (`mergeFields_row`).

`WireFormat.runtime` is such a library over any way to write numbers, and `base128` the usual
one, in groups of seven bits, the lowest first, in which the top bit of a byte says that there
are more.
-/

namespace LproxyCv.Foundation

/-- What generated messages call.  What is written is returned, and readers return what is
left behind what they took; `none` is an error. -/
structure Runtime where
  /-- the fields that a message does not know -/
  UnknownFields : Type
  noFields : UnknownFields
  writeTag (field wireType : Nat) : Bytes
  writeRawVarint32 (v : UInt32) : Bytes
  writeString (field : Nat) (s : String) : Bytes
  writeUInt32 (field : Nat) (v : UInt32) : Bytes
  writeUnknownFields (fields : UnknownFields) : Bytes
  computeRawVarint32Size (v : UInt32) : UInt32
  stringSize (field : Nat) (s : String) : UInt32
  valueSize (field : Nat) (v : UInt32) (wireType : Nat) : UInt32
  unknownFieldsSize (fields : UnknownFields) : UInt32
  readTagUnpack (bs : Bytes) : Option (Nat × Nat × Bytes)
  readSingularProto3StringInto (wireType : Nat) (bs : Bytes) (target : String) :
    Option (String × Bytes)
  readRepeatedUInt32Into (wireType : Nat) (bs : Bytes) (target : List UInt32) :
    Option (List UInt32 × Bytes)
  /-- a message starts as `new`, and takes the bytes that are its own with `mergeFrom` -/
  readRepeatedMessageInto {σ : Type} (new : σ) (mergeFrom : σ → Bytes → Option σ)
    (wireType : Nat) (bs : Bytes) (target : List σ) : Option (List σ × Bytes)
  readUnknownOrSkipGroup (field wireType : Nat) (bs : Bytes) (fields : UnknownFields) :
    Option (UnknownFields × Bytes)
  /-- the bytes of a message, from whether it has all it needs, its size, and what it writes -/
  writeToBytes (initialized : Bool) (size : UInt32) (written : Bytes) : Option Bytes

namespace Runtime

/-- A field whose tag is one byte. -/
def Small (field : Nat) : Prop := 0 < field ∧ field < 16

instance (field : Nat) : Decidable (Small field) := inferInstanceAs (Decidable (_ ∧ _))

/-- What the library promises.  Wire type 0 is a number, and 2 is bytes behind their length. -/
structure Lawful (rt : Runtime) : Prop where
  length_writeTag {field wireType : Nat} : Small field → wireType ≤ 5 →
    (rt.writeTag field wireType).length = 1
  readTag {field wireType : Nat} (rest : Bytes) : Small field → wireType ≤ 5 →
    rt.readTagUnpack (rt.writeTag field wireType ++ rest) = some (field, wireType, rest)
  readString (field : Nat) (s : String) : Small field → (utf8 s).length < 2 ^ 32 →
    ∃ body, rt.writeString field s = rt.writeTag field 2 ++ body ∧ ∀ rest target,
      rt.readSingularProto3StringInto 2 (body ++ rest) target = some (s, rest)
  readUInt32 (field : Nat) (v : UInt32) : Small field →
    ∃ body, rt.writeUInt32 field v = rt.writeTag field 0 ++ body ∧ ∀ rest target,
      rt.readRepeatedUInt32Into 0 (body ++ rest) target = some (target ++ [v], rest)
  readMessage {σ : Type} (new : σ) (mergeFrom : σ → Bytes → Option σ) {bs : Bytes}
    (rest : Bytes) (target : List σ) : bs.length < 2 ^ 32 →
    rt.readRepeatedMessageInto new mergeFrom 2
      (rt.writeRawVarint32 (UInt32.ofNat bs.length) ++ bs ++ rest) target =
      (mergeFrom new bs).map fun m => (target ++ [m], rest)
  computeRawVarint32Size_eq (v : UInt32) :
    rt.computeRawVarint32Size v = UInt32.ofNat (rt.writeRawVarint32 v).length
  length_writeString (field : Nat) (s : String) :
    (utf8 s).length ≤ (rt.writeString field s).length
  stringSize_eq {field : Nat} {s : String} : Small field → (utf8 s).length < 2 ^ 32 →
    rt.stringSize field s = UInt32.ofNat (rt.writeString field s).length
  valueSize_eq {field : Nat} (v : UInt32) : Small field →
    rt.valueSize field v 0 = UInt32.ofNat (rt.writeUInt32 field v).length
  writeUnknownFields_nil : rt.writeUnknownFields rt.noFields = []
  unknownFieldsSize_nil : rt.unknownFieldsSize rt.noFields = 0
  /-- the buffer has the computed size, and it is an error when it is not filled -/
  writeToBytes_eq (size : UInt32) (written : Bytes) : rt.writeToBytes true size written =
    if written.length = size.toNat then some written else none

/-! ## Rows of fields -/

variable {rt : Runtime} {σ : Type}

/-- Take fields until there are none; `step` takes one behind its tag. -/
def mergeLoop (rt : Runtime) (step : σ → Nat → Nat → Bytes → Option (σ × Bytes)) :
    Nat → σ → Bytes → Option σ
  | _, m, [] => some m
  | 0, _, _ :: _ => none
  | fuel + 1, m, b :: bs => do
      let (field, wireType, rest) ← rt.readTagUnpack (b :: bs)
      let (m, rest) ← step m field wireType rest
      mergeLoop rt step fuel m rest

/-- Read a message of fields; a field is at least one byte. -/
def mergeFields (rt : Runtime) (step : σ → Nat → Nat → Bytes → Option (σ × Bytes)) (m : σ)
    (bs : Bytes) : Option σ :=
  mergeLoop rt step bs.length m bs

/-- The bytes are a row of fields that takes the message from one value to another. -/
inductive Row (rt : Runtime) (step : σ → Nat → Nat → Bytes → Option (σ × Bytes)) :
    σ → Bytes → σ → Prop where
  | nil (m : σ) : Row rt step m [] m
  | cons {m m' m'' : σ} {field wireType : Nat} {body bs : Bytes} : Small field →
      wireType ≤ 5 → (∀ rest, step m field wireType (body ++ rest) = some (m', rest)) →
      Row rt step m' bs m'' → Row rt step m (rt.writeTag field wireType ++ body ++ bs) m''

variable {step : σ → Nat → Nat → Bytes → Option (σ × Bytes)} {m m' m'' : σ} {bs : Bytes}
  {field wireType : Nat}

theorem Row.append {bs' : Bytes} (h : Row rt step m bs m') (h' : Row rt step m' bs' m'') :
    Row rt step m (bs ++ bs') m'' := by
  induction h with
  | nil m => exact h'
  | cons hfield htype hstep _ ih =>
      rw [List.append_assoc]
      exact .cons hfield htype hstep (ih h')

/-- One field of a row. -/
theorem Row.one {body : Bytes} (hfield : Small field) (htype : wireType ≤ 5)
    (hstep : ∀ rest, step m field wireType (body ++ rest) = some (m', rest)) :
    Row rt step m (rt.writeTag field wireType ++ body) m' := by
  have hrow : Row rt step m (rt.writeTag field wireType ++ body ++ []) m' :=
    .cons hfield htype hstep (.nil m')
  rwa [List.append_nil] at hrow

theorem mergeLoop_row (hrt : rt.Lawful) {fuel : Nat} (h : Row rt step m bs m')
    (hfuel : bs.length ≤ fuel) : mergeLoop rt step fuel m bs = some m' := by
  induction h generalizing fuel with
  | nil m =>
      cases fuel with
      | zero => rfl
      | succ fuel => rfl
  | @cons m m' m'' field wireType body bs hfield htype hstep _ ih =>
      obtain ⟨b, htag⟩ := List.length_eq_one_iff.mp (hrt.length_writeTag hfield htype)
      have hget := hrt.readTag (body ++ bs) hfield htype
      rw [htag] at hfuel hget ⊢
      simp only [List.cons_append, List.nil_append, List.length_cons, List.length_append] at hfuel
      obtain ⟨fuel, rfl⟩ : ∃ n, fuel = n + 1 := ⟨fuel - 1, by omega⟩
      rw [List.append_assoc]
      simp only [List.cons_append, List.nil_append] at hget ⊢
      simp only [mergeLoop, hget, Option.bind_eq_bind, Option.bind_some, hstep]
      exact ih (by omega)

/-- A row of fields is read back. -/
theorem mergeFields_row (hrt : rt.Lawful) (h : Row rt step m bs m') :
    mergeFields rt step m bs = some m' :=
  mergeLoop_row hrt h (Nat.le_refl _)

end Runtime

/-! ## Numbers -/

/-- How numbers are written, and what is not understood is skipped. -/
structure WireFormat where
  put : Nat → Bytes
  get : Bytes → Option (Nat × Bytes)
  size : Nat → Nat
  /-- skip what is written in this way -/
  skip : Nat → Bytes → Option Bytes
  get_put : ∀ v rest, v < 2 ^ 32 → get (put v ++ rest) = some (v, rest)
  length_put : ∀ v, v < 2 ^ 32 → (put v).length = size v
  size_small : ∀ v, v < 128 → size v = 1

namespace WireFormat

variable (w : WireFormat)

/-- The tag of a field. -/
def putTag (field wireType : Nat) : Bytes := w.put (8 * field + wireType)

/-- The number of a field, how it is written, and what is behind the tag. -/
def getTag (bs : Bytes) : Option (Nat × Nat × Bytes) := do
  let (v, rest) ← w.get bs
  if v / 8 % 2 ^ 29 = 0 ∨ 5 < v % 8 then none else some (v / 8 % 2 ^ 29, v % 8, rest)

/-- A number of 32 bits. -/
def getUInt32 (bs : Bytes) : Option (UInt32 × Bytes) := do
  let (v, rest) ← w.get bs
  some (UInt32.ofNat v, rest)

/-- Bytes behind their length, which is kept modulo the width of its field. -/
def putBlock (bs : Bytes) : Bytes := w.put (UInt32.ofNat bs.length).toNat ++ bs

def getBlock (bs : Bytes) : Option (Bytes × Bytes) := do
  let (n, rest) ← w.getUInt32 bs
  if n.toNat ≤ rest.length then some (rest.take n.toNat, rest.drop n.toNat) else none

/-- Numbers one behind the other; each is at least one byte. -/
def readPacked : Nat → Bytes → Option (List UInt32)
  | _, [] => some []
  | 0, _ :: _ => none
  | fuel + 1, b :: bs => do
      let (v, rest) ← w.getUInt32 (b :: bs)
      let vs ← readPacked fuel rest
      some (v :: vs)

/-- The size of a tag. -/
def tagSize (field : Nat) : UInt32 := UInt32.ofNat (w.size (8 * field))

/-- The size of a number. -/
def varintSize (v : UInt32) : UInt32 := UInt32.ofNat (w.size v.toNat)

/-- The library that writes numbers so, and keeps what a message does not know as it came. -/
def runtime : Runtime where
  UnknownFields := List (Nat × Nat × Bytes)
  noFields := []
  writeTag := w.putTag
  writeRawVarint32 v := w.put v.toNat
  writeString field s := w.putTag field 2 ++ w.putBlock (utf8 s)
  writeUInt32 field v := w.putTag field 0 ++ w.put v.toNat
  writeUnknownFields fields := fields.flatMap fun f => w.putTag f.1 f.2.1 ++ f.2.2
  computeRawVarint32Size := w.varintSize
  stringSize field s :=
    let len := UInt32.ofNat (utf8 s).length
    w.tagSize field + (w.varintSize len + len)
  valueSize field v _ := w.tagSize field + w.varintSize v
  unknownFieldsSize fields :=
    fields.foldl (fun size f => size + (w.tagSize f.1 + UInt32.ofNat f.2.2.length)) 0
  readTagUnpack := w.getTag
  readSingularProto3StringInto wireType bs _ :=
    if wireType = 2 then do
      let (block, rest) ← w.getBlock bs
      let s ← String.fromUTF8? ⟨block.toArray⟩
      some (s, rest)
    else none
  readRepeatedUInt32Into wireType bs target :=
    if wireType = 0 then do
      let (v, rest) ← w.getUInt32 bs
      some (target ++ [v], rest)
    else if wireType = 2 then do
      let (block, rest) ← w.getBlock bs
      let vs ← w.readPacked block.length block
      some (target ++ vs, rest)
    else none
  readRepeatedMessageInto new mergeFrom wireType bs target :=
    if wireType = 2 then do
      let (block, rest) ← w.getBlock bs
      let m ← mergeFrom new block
      some (target ++ [m], rest)
    else none
  readUnknownOrSkipGroup field wireType bs fields :=
    (w.skip wireType bs).map fun rest =>
      (fields ++ [(field, wireType, bs.take (bs.length - rest.length))], rest)
  writeToBytes initialized size written :=
    if initialized ∧ written.length = size.toNat then some written else none

variable {w} {field wireType : Nat} {bs rest : Bytes}

theorem length_putTag (hfield : Runtime.Small field) (htype : wireType ≤ 5) :
    (w.putTag field wireType).length = 1 := by
  obtain ⟨_, hsmall⟩ := hfield
  rw [putTag, w.length_put _ (by omega), w.size_small _ (by omega)]

theorem getTag_putTag (hfield : Runtime.Small field) (htype : wireType ≤ 5) :
    w.getTag (w.putTag field wireType ++ rest) = some (field, wireType, rest) := by
  obtain ⟨hpos, hsmall⟩ := hfield
  have hget := w.get_put (8 * field + wireType) rest (by omega)
  have hnumber : (8 * field + wireType) / 8 % 2 ^ 29 = field := by omega
  have hway : (8 * field + wireType) % 8 = wireType := by omega
  simp only [getTag, putTag, hget, Option.bind_eq_bind, Option.bind_some, hnumber, hway]
  rw [if_neg (by omega)]

theorem getUInt32_put (v : UInt32) : w.getUInt32 (w.put v.toNat ++ rest) = some (v, rest) := by
  have hget := w.get_put v.toNat rest v.toNat_lt
  simp [getUInt32, hget]

theorem getBlock_putBlock (h : bs.length < 2 ^ 32) :
    w.getBlock (w.putBlock bs ++ rest) = some (bs, rest) := by
  have hlen : (UInt32.ofNat bs.length).toNat = bs.length := by
    rw [UInt32.toNat_ofNat']
    exact Nat.mod_eq_of_lt h
  unfold getBlock putBlock
  rw [List.append_assoc, getUInt32_put]
  simp only [Option.bind_eq_bind, Option.bind_some]
  rw [hlen, if_pos (by simp), List.take_left' rfl, List.drop_left' rfl]

theorem fromUTF8_utf8 (s : String) : String.fromUTF8? ⟨(utf8 s).toArray⟩ = some s := by
  have hbytes : (⟨(utf8 s).toArray⟩ : ByteArray) = s.toByteArray := rfl
  rw [hbytes, String.fromUTF8?, dif_pos s.isValidUTF8]
  rfl

theorem varintSize_eq (v : UInt32) : w.varintSize v = UInt32.ofNat (w.put v.toNat).length := by
  rw [w.length_put _ v.toNat_lt, varintSize]

theorem tagSize_eq (wireType : Nat) (hfield : Runtime.Small field) (htype : wireType ≤ 5) :
    w.tagSize field = UInt32.ofNat (w.putTag field wireType).length := by
  have hlen := length_putTag (w := w) hfield htype
  obtain ⟨_, hsmall⟩ := hfield
  rw [hlen, tagSize, w.size_small _ (by omega)]

/-- The library keeps its promises. -/
theorem lawful_runtime (w : WireFormat) : w.runtime.Lawful where
  length_writeTag := length_putTag
  readTag _ := getTag_putTag
  readString field s _ hlen := by
    refine ⟨w.putBlock (utf8 s), rfl, ?_⟩
    intro rest target
    simp [runtime, getBlock_putBlock hlen, fromUTF8_utf8]
  readUInt32 field v _ := by
    refine ⟨w.put v.toNat, rfl, ?_⟩
    intro rest target
    simp [runtime, getUInt32_put]
  readMessage {σ} new mergeFrom {bs} rest target hlen := by
    have hblock : w.getBlock (w.putBlock bs ++ rest) = some (bs, rest) := getBlock_putBlock hlen
    rw [putBlock] at hblock
    simp only [runtime, hblock, if_pos, Option.bind_eq_bind, Option.bind_some]
    cases mergeFrom new bs with
    | none => rfl
    | some m => rfl
  computeRawVarint32Size_eq := varintSize_eq
  length_writeString field s := by
    show _ ≤ (w.putTag field 2 ++ w.putBlock (utf8 s)).length
    simp only [putBlock, List.length_append]
    omega
  stringSize_eq {field s} hfield hlen := by
    show w.tagSize field + (w.varintSize (UInt32.ofNat _) + UInt32.ofNat _) =
      UInt32.ofNat (w.putTag field 2 ++ w.putBlock (utf8 s)).length
    rw [putBlock, List.length_append, List.length_append, UInt32.ofNat_add, UInt32.ofNat_add,
      tagSize_eq 2 hfield (by decide), varintSize_eq]
  valueSize_eq {field} v hfield := by
    show w.tagSize field + w.varintSize v = UInt32.ofNat (w.putTag field 0 ++ w.put v.toNat).length
    rw [List.length_append, UInt32.ofNat_add, tagSize_eq 0 hfield (by decide),
      varintSize_eq]
  writeUnknownFields_nil := rfl
  unknownFieldsSize_nil := rfl
  writeToBytes_eq size written := by simp [runtime]

/-! ## Groups of seven bits -/

/-- At most `n` groups of a number. -/
def putGroups : Nat → Nat → Bytes
  | 0, _ => []
  | n + 1, v =>
      if v < 128 then [UInt8.ofNat v]
      else UInt8.ofNat (v % 128 + 128) :: putGroups n (v / 128)

/-- A number of at most `n` groups. -/
def getGroups : Nat → Bytes → Option (Nat × Bytes)
  | 0, _ => none
  | _ + 1, [] => none
  | n + 1, b :: bs =>
      if b.toNat < 128 then some (b.toNat, bs)
      else do
        let (v, rest) ← getGroups n bs
        some (b.toNat % 128 + 128 * v, rest)

theorem getGroups_putGroups (n v : Nat) (rest : Bytes) (h : v < 128 ^ (n + 1)) :
    getGroups (n + 1) (putGroups (n + 1) v ++ rest) = some (v, rest) := by
  induction n generalizing v with
  | zero =>
      have hv : v < 128 := h
      have hbyte : (UInt8.ofNat v).toNat = v := by
        rw [UInt8.toNat_ofNat']
        omega
      rw [putGroups, if_pos hv, List.singleton_append, getGroups, hbyte, if_pos hv]
  | succ n ih =>
      rw [putGroups]
      split
      · rename_i hv
        have hbyte : (UInt8.ofNat v).toNat = v := by
          rw [UInt8.toNat_ofNat']
          omega
        rw [List.singleton_append, getGroups, hbyte, if_pos hv]
      · have hbyte : (UInt8.ofNat (v % 128 + 128)).toNat = v % 128 + 128 := by
          rw [UInt8.toNat_ofNat']
          omega
        have hrest := ih (v / 128) (Nat.div_lt_of_lt_mul (by rwa [Nat.pow_succ'] at h))
        rw [List.cons_append, getGroups, hbyte, if_neg (by omega), hrest]
        simp only [Option.bind_eq_bind, Option.bind_some]
        rw [show (v % 128 + 128) % 128 + 128 * (v / 128) = v by omega]

/-- The size of a number of 32 bits. -/
def sizeGroups (v : Nat) : Nat :=
  if v < 2 ^ 7 then 1
  else if v < 2 ^ 14 then 2
  else if v < 2 ^ 21 then 3
  else if v < 2 ^ 28 then 4
  else 5

theorem putGroups_length (v : Nat) (h : v < 2 ^ 32) : (putGroups 10 v).length = sizeGroups v := by
  have hstep : ∀ n u, (putGroups (n + 1) u).length =
      if u < 128 then 1 else (putGroups n (u / 128)).length + 1 := by
    intro n u
    rw [putGroups]
    split <;> rfl
  have hlast : v / 128 / 128 / 128 / 128 < 128 := by omega
  rw [hstep, hstep, hstep, hstep, hstep, if_pos hlast]
  unfold sizeGroups
  split_ifs <;> omega

/-- The format in groups of seven bits; what is skipped is a number, a text, or of a fixed
size. -/
def base128 : WireFormat where
  put v := putGroups 10 v
  get bs := (getGroups 10 bs).map fun r => (r.1 % 2 ^ 64, r.2)
  size := sizeGroups
  skip
    | 0, bs => (getGroups 10 bs).map Prod.snd
    | 1, bs => if 8 ≤ bs.length then some (bs.drop 8) else none
    | 2, bs => do
        let (n, rest) ← getGroups 10 bs
        if n ≤ rest.length then some (rest.drop n) else none
    | 5, bs => if 4 ≤ bs.length then some (bs.drop 4) else none
    | _, _ => none
  get_put := by
    intro v rest h
    rw [getGroups_putGroups 9 v rest (by omega), Option.map_some, Nat.mod_eq_of_lt (by omega)]
  length_put := putGroups_length
  size_small := fun v h => if_pos h

end WireFormat

end LproxyCv.Foundation
