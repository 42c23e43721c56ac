import LproxyCv.Dns.DnsPacket
import LproxyCv.Foundation.Writer

set_option autoImplicit false

/-!
# Dns: writing a message

The writers of DNS messages.  To write at an offset of 512 or more is an error, and to
write behind the end of the buffer, at a lower offset, is a panic.  The length of the data
of a record is set when the data has been written.
-/

namespace LproxyCv.Dns

open LproxyCv.Foundation LproxyCv.Net

namespace BytePacketBuffer

/-- Write a byte. -/
def write (val : UInt8) : Reader Unit := fun b =>
  if 512 ≤ b.pos then .err endOfBuffer
  else if b.pos < b.buf.length then .ok ((), ⟨b.buf.set b.pos val, b.pos + 1⟩)
  else .panic

/-- See `write`. -/
def writeU8 (val : UInt8) : Reader Unit := write val

/-- Write two bytes. -/
def writeU16 (val : UInt16) : Reader Unit := do
  write (val >>> 8).toUInt8
  write (val &&& 0xFF).toUInt8

/-- Write four bytes. -/
def writeU32 (val : UInt32) : Reader Unit := do
  write ((val >>> 24) &&& 0xFF).toUInt8
  write ((val >>> 16) &&& 0xFF).toUInt8
  write ((val >>> 8) &&& 0xFF).toUInt8
  write ((val >>> 0) &&& 0xFF).toUInt8

/-- The error of a label that is too long. -/
def labelTooLong : IoError :=
  .custom .invalidInput "Single label exceeds 63 characters of length"

/-- Write a label: how long it is, and its bytes. -/
def writeLabel (label : String) : Reader Unit :=
  let len := (utf8 label).length
  if 0x34 < len then fun _ => .err labelTooLong
  else do
    writeU8 (UInt8.ofNat len)
    Reader.each writeU8 (utf8 label)

/-- The labels of a name. -/
def splitLabels (qname : String) : List String :=
  (qname.toList.splitOn '.').map String.ofList

/-- The dots are where a name is cut. -/
theorem splitLabels_join {labels : List String} (hne : labels ≠ [])
    (hdot : ∀ l ∈ labels, '.' ∉ l.toList) : splitLabels (".".intercalate labels) = labels := by
  have hdots : ∀ l ∈ labels.map String.toList, '.' ∉ l := by
    intro l hl
    obtain ⟨label, hlabel, rfl⟩ := List.mem_map.mp hl
    exact hdot label hlabel
  have hsplit := List.splitOn_intercalate '.' hdots (by simpa using hne)
  unfold splitLabels
  rw [String.toList_intercalate, show ".".toList = ['.'] from rfl, hsplit, List.map_map]
  exact (List.map_congr_left fun l _ => String.ofList_toList).trans (List.map_id labels)

/-- Write a name. -/
def writeQname (qname : String) : Reader Unit := do
  Reader.each writeLabel (splitLabels qname)
  writeU8 0

/-- Set a byte that was written. -/
def set (pos : Nat) (val : UInt8) : Reader Unit := fun b =>
  if pos < b.buf.length then .ok ((), { b with buf := b.buf.set pos val }) else .panic

/-- Set two bytes that were written. -/
def setU16 (pos : Nat) (val : UInt16) : Reader Unit := do
  set pos (val >>> 8).toUInt8
  set (pos + 1) (val &&& 0xFF).toUInt8

end BytePacketBuffer

open BytePacketBuffer

/-- The number of a result. -/
def ResultCode.toNum : ResultCode → UInt8
  | .noerror => 0
  | .formerr => 1
  | .servfail => 2
  | .nxdomain => 3
  | .notimp => 4
  | .refused => 5

/-- Write a header. -/
def DnsHeader.write (h : DnsHeader) : Reader Unit := do
  writeU16 h.id
  writeU8 (h.recursionDesired.toUInt8 ||| h.truncatedMessage.toUInt8 <<< 1 |||
    h.authoritativeAnswer.toUInt8 <<< 2 ||| h.opcode <<< 3 ||| h.response.toUInt8 <<< 7)
  writeU8 (h.rescode.toNum ||| h.checkingDisabled.toUInt8 <<< 4 |||
    h.authedData.toUInt8 <<< 5 ||| h.z.toUInt8 <<< 6 ||| h.recursionAvailable.toUInt8 <<< 7)
  writeU16 h.questions
  writeU16 h.answers
  writeU16 h.authoritativeEntries
  writeU16 h.resourceEntries

/-- The number of a type. -/
def QueryType.toNum : QueryType → UInt16
  | .unknown x => x
  | .a => 1
  | .ns => 2
  | .cname => 5
  | .mx => 15
  | .aaaa => 28

/-- Write a question. -/
def DnsQuestion.write (q : DnsQuestion) : Reader Unit := do
  writeQname q.name
  writeU16 q.qtype.toNum
  writeU16 1

namespace DnsRecord

/-- Write what stands before the length of a record. -/
def writeHead (domain : String) (qtype : QueryType) (ttl : UInt32) : Reader Unit := do
  writeQname domain
  writeU16 qtype.toNum
  writeU16 1
  writeU32 ttl

/-- Write data behind their length, which is set when they are written. -/
def writeSized (data : Reader Unit) : Reader Unit := do
  let pos ← getPos
  writeU16 0
  data
  let after ← getPos
  setU16 pos (UInt16.ofNat (after - (pos + 2)))

/-- Write a record, and return how long it is.  A record of an unknown type is left out. -/
def write (r : DnsRecord) : Reader Nat := do
  let startPos ← getPos
  match r with
  | .a domain addr ttl => do
      writeHead domain .a ttl
      writeU16 4
      Reader.each writeU8 addr.octets
  | .ns domain host ttl => do
      writeHead domain .ns ttl
      writeSized (writeQname host)
  | .cname domain host ttl => do
      writeHead domain .cname ttl
      writeSized (writeQname host)
  | .mx domain priority host ttl => do
      writeHead domain .mx ttl
      writeSized do
        writeU16 priority
        writeQname host
  | .aaaa domain addr ttl => do
      writeHead domain .aaaa ttl
      writeU16 16
      Reader.each writeU16 addr.segments
  | .unknown _ _ _ _ => pure ()
  let pos ← getPos
  pure (pos - startPos)

end DnsRecord

namespace DnsPacket

/-- The header of a message with the numbers of what follows it. -/
def counted (p : DnsPacket) : DnsHeader :=
  { p.header with
    questions := UInt16.ofNat p.questions.length
    answers := UInt16.ofNat p.answers.length
    authoritativeEntries := UInt16.ofNat p.authorities.length
    resourceEntries := UInt16.ofNat p.resources.length }

/-- Write a message, which gets the numbers of its parts set. -/
def write (p : DnsPacket) : Reader DnsPacket := do
  let header := p.counted
  header.write
  Reader.each DnsQuestion.write p.questions
  Reader.each DnsRecord.write p.answers
  Reader.each DnsRecord.write p.authorities
  Reader.each DnsRecord.write p.resources
  pure { p with header := header }

end DnsPacket

end LproxyCv.Dns
