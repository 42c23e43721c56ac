import LproxyCv.Foundation.Wire
import LproxyCv.Services.AccReport

set_option autoImplicit false

/-!
# Services: the bytes of a report

The report of the accesses goes to the server as a message of tagged fields, which the library
for such messages writes (`rt`).  Its size is computed first, which leaves the size of every part
in that part, and the bytes are written into a buffer of that size.  Sizes have 32 bits: for a
report that needs no more, what is written fills the buffer, and is read as the report
(`writeToBytes_mergeFrom`).
-/

namespace LproxyCv.Services

open LproxyCv.Foundation LproxyCv.Net

namespace Cv

/-- A name and its clients. -/
structure AccDomain (rt : Runtime) where
  domain : String
  srcIP : List UInt32
  unknownFields : rt.UnknownFields
  cachedSize : UInt32

/-- The report of the accesses. -/
structure AccReport (rt : Runtime) where
  domains : List (AccDomain rt)
  unknownFields : rt.UnknownFields
  cachedSize : UInt32

variable {rt : Runtime}

namespace AccDomain

def new : AccDomain rt := ⟨"", [], rt.noFields, 0⟩

def isInitialized (_ : AccDomain rt) : Bool := true

/-- Take one field. -/
def mergeField (m : AccDomain rt) (fieldNumber wireType : Nat) (bs : Bytes) :
    Option (AccDomain rt × Bytes) :=
  match fieldNumber with
  | 1 => do
      let (domain, rest) ← rt.readSingularProto3StringInto wireType bs m.domain
      some ({ m with domain := domain }, rest)
  | 2 => do
      let (srcIP, rest) ← rt.readRepeatedUInt32Into wireType bs m.srcIP
      some ({ m with srcIP := srcIP }, rest)
  | _ => do
      let (fields, rest) ← rt.readUnknownOrSkipGroup fieldNumber wireType bs m.unknownFields
      some ({ m with unknownFields := fields }, rest)

def mergeFrom (m : AccDomain rt) (bs : Bytes) : Option (AccDomain rt) :=
  rt.mergeFields mergeField m bs

/-- The size, and the message that keeps it. -/
def computeSize (m : AccDomain rt) : UInt32 × AccDomain rt :=
  let mySize := if m.domain.isEmpty then 0 else rt.stringSize 1 m.domain
  let mySize := m.srcIP.foldl (fun mySize value => mySize + rt.valueSize 2 value 0) mySize
  let mySize := mySize + rt.unknownFieldsSize m.unknownFields
  (mySize, { m with cachedSize := mySize })

def writeToWithCachedSizes (m : AccDomain rt) : Bytes :=
  (if m.domain.isEmpty then [] else rt.writeString 1 m.domain) ++
    m.srcIP.flatMap (rt.writeUInt32 2) ++ rt.writeUnknownFields m.unknownFields

end AccDomain

namespace AccReport

def new : AccReport rt := ⟨[], rt.noFields, 0⟩

def isInitialized (m : AccReport rt) : Bool := m.domains.all AccDomain.isInitialized

/-- Take one field. -/
def mergeField (m : AccReport rt) (fieldNumber wireType : Nat) (bs : Bytes) :
    Option (AccReport rt × Bytes) :=
  match fieldNumber with
  | 1 => do
      let (domains, rest) ←
        rt.readRepeatedMessageInto AccDomain.new AccDomain.mergeFrom wireType bs m.domains
      some ({ m with domains := domains }, rest)
  | _ => do
      let (fields, rest) ← rt.readUnknownOrSkipGroup fieldNumber wireType bs m.unknownFields
      some ({ m with unknownFields := fields }, rest)

def mergeFrom (m : AccReport rt) (bs : Bytes) : Option (AccReport rt) :=
  rt.mergeFields mergeField m bs

/-- The size, and the message whose parts keep theirs. -/
def computeSize (m : AccReport rt) : UInt32 × AccReport rt :=
  let domains := m.domains.map AccDomain.computeSize
  let mySize := domains.foldl (fun mySize value =>
    mySize + (1 + rt.computeRawVarint32Size value.1 + value.1)) 0
  let mySize := mySize + rt.unknownFieldsSize m.unknownFields
  (mySize, { m with domains := domains.map Prod.snd, cachedSize := mySize })

def writeToWithCachedSizes (m : AccReport rt) : Bytes :=
  m.domains.flatMap (fun v =>
    rt.writeTag 1 2 ++ (rt.writeRawVarint32 v.cachedSize ++ v.writeToWithCachedSizes)) ++
    rt.writeUnknownFields m.unknownFields

def writeToBytes (m : AccReport rt) : Option Bytes :=
  let (size, m) := m.computeSize
  rt.writeToBytes m.isInitialized size m.writeToWithCachedSizes

end AccReport

end Cv

/-- A name and its clients as they are put into a report. -/
def AccDomain.message (rt : Runtime) (m : AccDomain) : Cv.AccDomain rt :=
  { Cv.AccDomain.new with domain := m.domain, srcIP := m.srcIP }

/-- The report as it is made. -/
def AccReport.message (rt : Runtime) (m : AccReport) : Cv.AccReport rt :=
  { Cv.AccReport.new with domains := m.domains.map (AccDomain.message rt) }

/-- What is written of a name and its clients. -/
def AccDomain.written (rt : Runtime) (m : AccDomain) : Bytes :=
  (m.message rt).computeSize.2.writeToWithCachedSizes

/-- It is in the report behind its size. -/
def AccDomain.block (rt : Runtime) (m : AccDomain) : Bytes :=
  rt.writeTag 1 2 ++ (rt.writeRawVarint32 (m.message rt).computeSize.1 ++ m.written rt)

/-- What is written of the report, whatever the size of the buffer. -/
def AccReport.written (rt : Runtime) (m : AccReport) : Bytes :=
  (m.message rt).computeSize.2.writeToWithCachedSizes

variable {rt : Runtime}

/-! ## Sizes -/

/-- Sizes that are added up one by one are the size of the whole. -/
theorem foldl_size {α : Type} {f : α → UInt32} {g : α → Bytes} {l : List α}
    (h : ∀ a ∈ l, f a = UInt32.ofNat (g a).length) (size : UInt32) :
    l.foldl (fun mySize a => mySize + f a) size = size + UInt32.ofNat (l.flatMap g).length := by
  induction l generalizing size with
  | nil => exact (UInt32.add_zero size).symm
  | cons a l ih =>
      obtain ⟨ha, hl⟩ := List.forall_mem_cons.mp h
      rw [List.foldl_cons, ih hl, List.flatMap_cons, List.length_append, UInt32.ofNat_add, ← ha,
        UInt32.add_assoc]

theorem AccDomain.written_eq (hrt : rt.Lawful) (m : AccDomain) : m.written rt =
    (if m.domain.isEmpty then [] else rt.writeString 1 m.domain) ++
      m.srcIP.flatMap (rt.writeUInt32 2) := by
  show _ ++ _ ++ rt.writeUnknownFields rt.noFields = _
  rw [hrt.writeUnknownFields_nil, List.append_nil]
  rfl

theorem AccReport.written_eq (hrt : rt.Lawful) (m : AccReport) :
    m.written rt = m.domains.flatMap (AccDomain.block rt) := by
  have hfields : (m.message rt).computeSize.2.domains =
      m.domains.map fun v => (v.message rt).computeSize.2 := by
    simp [message, Cv.AccReport.computeSize]
  show _ ++ rt.writeUnknownFields rt.noFields = _
  rw [hrt.writeUnknownFields_nil, List.append_nil, hfields, List.flatMap_map]
  rfl

theorem AccDomain.length_domain (hrt : rt.Lawful) (m : AccDomain) :
    (utf8 m.domain).length ≤ (m.written rt).length := by
  rw [written_eq hrt, List.length_append]
  split
  · rename_i hempty
    have hname : m.domain = "" := by simpa using hempty
    rw [hname]
    exact Nat.zero_le _
  · exact Nat.le_trans (hrt.length_writeString 1 m.domain) (Nat.le_add_right _ _)

/-- The computed size is the number of bytes. -/
theorem AccDomain.computeSize_eq (hrt : rt.Lawful) (m : AccDomain)
    (h : (m.written rt).length < 2 ^ 32) :
    (m.message rt).computeSize.1 = UInt32.ofNat (m.written rt).length := by
  have hname : (if m.domain.isEmpty then 0 else rt.stringSize 1 m.domain) =
      UInt32.ofNat (if m.domain.isEmpty then [] else rt.writeString 1 m.domain).length := by
    split
    · rfl
    · exact hrt.stringSize_eq (by decide) (Nat.lt_of_le_of_lt (m.length_domain hrt) h)
  have hvalues := foldl_size (l := m.srcIP) (g := rt.writeUInt32 2)
    fun v _ => hrt.valueSize_eq v (by decide)
  show List.foldl (fun mySize value => mySize + rt.valueSize 2 value 0)
    (if m.domain.isEmpty then 0 else rt.stringSize 1 m.domain) m.srcIP +
    rt.unknownFieldsSize rt.noFields = _
  rw [hrt.unknownFieldsSize_nil, UInt32.add_zero, hvalues, hname, written_eq hrt,
    List.length_append, UInt32.ofNat_add]

theorem AccReport.length_written (hrt : rt.Lawful) {m : AccReport} {v : AccDomain}
    (hv : v ∈ m.domains) : (v.written rt).length ≤ (m.written rt).length := by
  obtain ⟨front, back, hsplit⟩ := List.append_of_mem hv
  rw [written_eq hrt, hsplit, List.flatMap_append, List.flatMap_cons, AccDomain.block]
  simp only [List.length_append]
  omega

theorem AccDomain.size_block (hrt : rt.Lawful) (m : AccDomain)
    (h : (m.written rt).length < 2 ^ 32) :
    1 + rt.computeRawVarint32Size (m.message rt).computeSize.1 + (m.message rt).computeSize.1 =
      UInt32.ofNat (m.block rt).length := by
  have htag : (rt.writeTag 1 2).length = 1 := hrt.length_writeTag (by decide) (by decide)
  rw [block, List.length_append, List.length_append, UInt32.ofNat_add, UInt32.ofNat_add, htag,
    ← hrt.computeRawVarint32Size_eq, ← m.computeSize_eq hrt h, UInt32.add_assoc]
  rfl

theorem AccReport.computeSize_eq (hrt : rt.Lawful) (m : AccReport)
    (h : (m.written rt).length < 2 ^ 32) :
    (m.message rt).computeSize.1 = UInt32.ofNat (m.written rt).length := by
  have hdomains := foldl_size (l := m.domains) (g := AccDomain.block rt)
    fun v hv => v.size_block hrt (Nat.lt_of_le_of_lt (length_written hrt hv) h)
  have hsize : (m.message rt).computeSize.1 =
      m.domains.foldl (fun mySize v => mySize +
        (1 + rt.computeRawVarint32Size (v.message rt).computeSize.1 +
          (v.message rt).computeSize.1)) 0 + rt.unknownFieldsSize rt.noFields := by
    simp [message, Cv.AccReport.computeSize, Cv.AccReport.new, List.foldl_map]
  rw [hsize, hrt.unknownFieldsSize_nil, UInt32.add_zero, hdomains, UInt32.zero_add,
    written_eq hrt]

/-! ## Reading back -/

theorem AccDomain.row_sources (hrt : rt.Lawful) (m : Cv.AccDomain rt) (vs : List UInt32) :
    rt.Row Cv.AccDomain.mergeField m (vs.flatMap (rt.writeUInt32 2))
      { m with srcIP := m.srcIP ++ vs } := by
  induction vs generalizing m with
  | nil =>
      rw [List.append_nil]
      exact .nil m
  | cons v vs ih =>
      obtain ⟨body, hwrite, hread⟩ := hrt.readUInt32 2 v (by decide)
      have hrest := ih { m with srcIP := m.srcIP ++ [v] }
      rw [List.append_assoc] at hrest
      rw [List.flatMap_cons, hwrite]
      refine .cons (by decide) (by decide) ?_ hrest
      intro rest
      simp [Cv.AccDomain.mergeField, hread]

/-- The fields of a name and its clients are read back. -/
theorem AccDomain.row_written (hrt : rt.Lawful) (m : AccDomain)
    (h : (m.written rt).length < 2 ^ 32) :
    rt.Row Cv.AccDomain.mergeField Cv.AccDomain.new (m.written rt) (m.message rt) := by
  have hname : rt.Row Cv.AccDomain.mergeField (Cv.AccDomain.new : Cv.AccDomain rt)
      (if m.domain.isEmpty then [] else rt.writeString 1 m.domain)
      ⟨m.domain, [], rt.noFields, 0⟩ := by
    split
    · rename_i hempty
      have hname : m.domain = "" := by simpa using hempty
      rw [hname]
      exact .nil _
    · obtain ⟨body, hwrite, hread⟩ := hrt.readString 1 m.domain (by decide)
        (Nat.lt_of_le_of_lt (m.length_domain hrt) h)
      rw [hwrite]
      refine .one (by decide) (by decide) ?_
      intro rest
      simp [Cv.AccDomain.mergeField, hread, Cv.AccDomain.new]
  rw [written_eq hrt]
  exact hname.append (row_sources hrt ⟨m.domain, [], rt.noFields, 0⟩ m.srcIP)

theorem AccReport.row_domains (hrt : rt.Lawful) (m : Cv.AccReport rt) (vs : List AccDomain)
    (h : ∀ v ∈ vs, (v.written rt).length < 2 ^ 32) :
    rt.Row Cv.AccReport.mergeField m (vs.flatMap (AccDomain.block rt))
      { m with domains := m.domains ++ vs.map (AccDomain.message rt) } := by
  induction vs generalizing m with
  | nil =>
      rw [List.map_nil, List.append_nil]
      exact .nil m
  | cons v vs ih =>
      obtain ⟨hv, hvs⟩ := List.forall_mem_cons.mp h
      have hrest := ih { m with domains := m.domains ++ [v.message rt] } hvs
      rw [List.append_assoc] at hrest
      have hown : Cv.AccDomain.mergeFrom Cv.AccDomain.new (v.written rt) = some (v.message rt) :=
        Runtime.mergeFields_row hrt (v.row_written hrt hv)
      rw [List.flatMap_cons, List.map_cons, AccDomain.block]
      refine .cons (by decide) (by decide) ?_ hrest
      intro rest
      have hread := hrt.readMessage Cv.AccDomain.new Cv.AccDomain.mergeFrom rest m.domains hv
      rw [hown, List.append_assoc] at hread
      rw [v.computeSize_eq hrt hv]
      simp [Cv.AccReport.mergeField, hread]

/-- The bytes fill the buffer exactly when there are fewer of them than 2 to the 32. -/
theorem AccReport.writeToBytes_eq (hrt : rt.Lawful) (m : AccReport) :
    (m.message rt).writeToBytes =
      if (m.written rt).length < 2 ^ 32 then some (m.written rt) else none := by
  have hinitialized : (m.message rt).computeSize.2.isInitialized = true := by
    simp [Cv.AccReport.isInitialized, Cv.AccDomain.isInitialized]
  have hfills : (m.written rt).length = (m.message rt).computeSize.1.toNat ↔
      (m.written rt).length < 2 ^ 32 := by
    constructor
    · intro heq
      rw [heq]
      exact UInt32.toNat_lt _
    · intro h
      rw [m.computeSize_eq hrt h, UInt32.toNat_ofNat_of_lt' h]
  show rt.writeToBytes (m.message rt).computeSize.2.isInitialized _ (m.written rt) = _
  rw [hinitialized, hrt.writeToBytes_eq]
  exact if_congr hfills rfl rfl

theorem AccReport.mergeFrom_written (hrt : rt.Lawful) (m : AccReport)
    (h : (m.written rt).length < 2 ^ 32) :
    Cv.AccReport.mergeFrom Cv.AccReport.new (m.written rt) = some (m.message rt) := by
  have hrow := row_domains hrt Cv.AccReport.new m.domains
    fun v hv => Nat.lt_of_le_of_lt (length_written hrt hv) h
  rw [← written_eq hrt] at hrow
  exact Runtime.mergeFields_row hrt hrow

/-- A report is written exactly when what is written of it has fewer than 2 to the 32 bytes; then
that many are the computed size; and what is written is read as the report. -/
theorem AccReport.writeToBytes_mergeFrom (hrt : rt.Lawful) (m : AccReport) :
    ((m.written rt).length < 2 ^ 32 →
      (m.message rt).computeSize.1.toNat = (m.written rt).length) ∧
    ((m.message rt).writeToBytes.isSome = true ↔ (m.written rt).length < 2 ^ 32) ∧
    ∀ bytes, (m.message rt).writeToBytes = some bytes → bytes = m.written rt ∧
      Cv.AccReport.mergeFrom Cv.AccReport.new bytes = some (m.message rt) := by
  refine ⟨?_, ?_, ?_⟩
  · intro h
    rw [m.computeSize_eq hrt h, UInt32.toNat_ofNat_of_lt' h]
  · rw [writeToBytes_eq hrt]
    split
    · rename_i hfits
      exact iff_of_true rfl hfits
    · rename_i hlong
      exact iff_of_false Bool.false_ne_true hlong
  · intro bytes hbytes
    rw [writeToBytes_eq hrt] at hbytes
    split at hbytes
    · rename_i hfits
      cases hbytes
      exact ⟨rfl, m.mergeFrom_written hrt hfits⟩
    · cases hbytes

/-- A name with one client, in groups of seven bits. -/
theorem AccReport.writeToBytes_mergeFrom_base128 :
    (AccReport.message WireFormat.base128.runtime ⟨[⟨"a", [300]⟩]⟩).writeToBytes =
      some [10, 6, 10, 1, 97, 16, 172, 2] ∧
    Cv.AccReport.mergeFrom Cv.AccReport.new [10, 6, 10, 1, 97, 16, 172, 2] =
      some (AccReport.message WireFormat.base128.runtime ⟨[⟨"a", [300]⟩]⟩) := by
  have hbytes : (AccReport.message WireFormat.base128.runtime ⟨[⟨"a", [300]⟩]⟩).writeToBytes =
      some [10, 6, 10, 1, 97, 16, 172, 2] := by decide +kernel
  have hread := writeToBytes_mergeFrom WireFormat.base128.lawful_runtime ⟨[⟨"a", [300]⟩]⟩
  exact ⟨hbytes, (hread.2.2 _ hbytes).2⟩

end LproxyCv.Services
