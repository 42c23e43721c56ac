import LproxyCv.Dns.Text
import LproxyCv.Foundation.Reader
import LproxyCv.Net

set_option autoImplicit false

/-!
# Dns: reading a message

The parser of DNS messages, as readers of a buffer.  A byte at an offset of 512 or
more is an error, and a byte behind the end of the slice, at a lower offset, is a
panic.  `fuel` bounds the iterations of the loop that follows the labels of a
name, which a message can make endless.
-/

namespace LproxyCv.Dns

open LproxyCv.Foundation LproxyCv.Net

/-- The slice that a message is read from. -/
abbrev BytePacketBuffer : Type := Cursor

namespace BytePacketBuffer

/-- The error of every read at an offset of 512 or more. -/
def endOfBuffer : IoError := .custom .invalidInput "End of buffer"

/-- Where the buffer is. -/
def getPos : Reader Nat := fun b => .ok (b.pos, b)

/-- Skip bytes, whether they are there or not. -/
def step (steps : Nat) : Reader Unit := fun b => .ok ((), { b with pos := b.pos + steps })

/-- Go to an offset, whether there are bytes or not. -/
def seek (pos : Nat) : Reader Unit := fun b => .ok ((), { b with pos := pos })

/-- The next byte. -/
def read : Reader UInt8 := fun b =>
  if 512 ≤ b.pos then .err endOfBuffer
  else
    match b.buf[b.pos]? with
    | none => .panic
    | some res => .ok (res, { b with pos := b.pos + 1 })

/-- The byte at an offset. -/
def get (pos : Nat) : Reader UInt8 := fun b =>
  if 512 ≤ pos then .err endOfBuffer
  else
    match b.buf[pos]? with
    | none => .panic
    | some res => .ok (res, b)

/-- The bytes at an offset. -/
def getRange (start len : Nat) : Reader Bytes := fun b =>
  if 512 ≤ start + len then .err endOfBuffer
  else if start + len ≤ b.buf.length then .ok ((b.buf.drop start).take len, b)
  else .panic

/-- The next two bytes. -/
def readU16 : Reader UInt16 := do
  let hi ← read
  let lo ← read
  pure (hi.toUInt16 <<< 8 ||| lo.toUInt16)

/-- The next four bytes. -/
def readU32 : Reader UInt32 := do
  let a ← read
  let b ← read
  let c ← read
  let d ← read
  pure (a.toUInt32 <<< 24 ||| b.toUInt32 <<< 16 ||| c.toUInt32 <<< 8 ||| d.toUInt32 <<< 0)

/-- Go to an offset, unless the name has already sent the reader elsewhere. -/
def seekUnless (jumped : Bool) (pos : Nat) : Reader Unit := if jumped then pure () else seek pos

/-- The loop over the labels of a name: where the next one is, whether a pointer
was followed, what goes before the next label, and the name so far. -/
def readLabels (unicode : UnicodeLower) : Nat → Nat → Bool → String → String → Reader String
  | 0, _, _, _, _ => fun _ => .hang
  | fuel + 1, pos, jumped, delim, outstr => do
      let len ← get pos
      if len &&& 0xC0 = 0xC0 then
        seekUnless jumped (pos + 2)
        let b2 ← get (pos + 1)
        let offset := (len.toUInt16 ^^^ 0xC0) <<< 8 ||| b2.toUInt16
        readLabels unicode fuel offset.toNat true delim outstr
      else if len = 0 then
        seekUnless jumped (pos + 1)
        pure outstr
      else
        let strBuffer ← getRange (pos + 1) len.toNat
        let label := toLowercase unicode (fromUtf8Lossy strBuffer)
        readLabels unicode fuel (pos + 1 + len.toNat) jumped "." (outstr ++ delim ++ label)

/-- A name, behind what is already there. -/
def readQname (unicode : UnicodeLower) (fuel : Nat) (outstr : String) : Reader String := do
  let pos ← getPos
  readLabels unicode fuel pos false "" outstr

end BytePacketBuffer

open BytePacketBuffer

/-- The result of a query. -/
inductive ResultCode where
  | noerror
  | formerr
  | servfail
  | nxdomain
  | notimp
  | refused
  deriving DecidableEq, Repr

/-- The result with a number. -/
def ResultCode.fromNum (num : UInt8) : ResultCode :=
  if num = 1 then .formerr
  else if num = 2 then .servfail
  else if num = 3 then .nxdomain
  else if num = 4 then .notimp
  else if num = 5 then .refused
  else .noerror

/-- The header of a message. -/
structure DnsHeader where
  id : UInt16
  recursionDesired : Bool
  truncatedMessage : Bool
  authoritativeAnswer : Bool
  opcode : UInt8
  response : Bool
  rescode : ResultCode
  checkingDisabled : Bool
  authedData : Bool
  z : Bool
  recursionAvailable : Bool
  questions : UInt16
  answers : UInt16
  authoritativeEntries : UInt16
  resourceEntries : UInt16
  deriving DecidableEq, Repr

/-- Read a header. -/
def DnsHeader.read : Reader DnsHeader := do
  let id ← readU16
  let flags ← readU16
  let a := (flags >>> 8).toUInt8
  let b := (flags &&& 0xFF).toUInt8
  let questions ← readU16
  let answers ← readU16
  let authoritativeEntries ← readU16
  let resourceEntries ← readU16
  pure
    { id := id
      recursionDesired := decide (0 < a &&& 1)
      truncatedMessage := decide (0 < a &&& 2)
      authoritativeAnswer := decide (0 < a &&& 4)
      opcode := (a >>> 3) &&& 0x0F
      response := decide (0 < a &&& 128)
      rescode := ResultCode.fromNum (b &&& 0x0F)
      checkingDisabled := decide (0 < b &&& 16)
      authedData := decide (0 < b &&& 32)
      z := decide (0 < b &&& 64)
      recursionAvailable := decide (0 < b &&& 128)
      questions := questions
      answers := answers
      authoritativeEntries := authoritativeEntries
      resourceEntries := resourceEntries }

/-- What a question or a record is about. -/
inductive QueryType where
  | unknown (num : UInt16)
  | a
  | ns
  | cname
  | mx
  | aaaa
  deriving DecidableEq, Repr

/-- The type with a number. -/
def QueryType.fromNum (num : UInt16) : QueryType :=
  if num = 1 then .a
  else if num = 2 then .ns
  else if num = 5 then .cname
  else if num = 15 then .mx
  else if num = 28 then .aaaa
  else .unknown num

/-- A question. -/
structure DnsQuestion where
  name : String
  qtype : QueryType
  deriving DecidableEq, Repr

/-- Read a question. -/
def DnsQuestion.read (unicode : UnicodeLower) (fuel : Nat) : Reader DnsQuestion := do
  let name ← readQname unicode fuel ""
  let qtype ← readU16
  let _ ← readU16
  pure ⟨name, QueryType.fromNum qtype⟩

/-- A record. -/
inductive DnsRecord where
  | unknown (domain : String) (qtype dataLen : UInt16) (ttl : UInt32)
  | a (domain : String) (addr : Ipv4Addr) (ttl : UInt32)
  | ns (domain host : String) (ttl : UInt32)
  | cname (domain host : String) (ttl : UInt32)
  | mx (domain : String) (priority : UInt16) (host : String) (ttl : UInt32)
  | aaaa (domain : String) (addr : Ipv6Addr) (ttl : UInt32)
  deriving DecidableEq, Repr

namespace DnsRecord

/-- The octets of a number, the highest first. -/
def ipv4Of (raw : UInt32) : Ipv4Addr :=
  ⟨((raw >>> 24) &&& 0xFF).toUInt8, ((raw >>> 16) &&& 0xFF).toUInt8,
    ((raw >>> 8) &&& 0xFF).toUInt8, ((raw >>> 0) &&& 0xFF).toUInt8⟩

/-- The upper and the lower half of a number. -/
def highHalf (raw : UInt32) : UInt16 := ((raw >>> 16) &&& 0xFFFF).toUInt16

/-- See `highHalf`. -/
def lowHalf (raw : UInt32) : UInt16 := ((raw >>> 0) &&& 0xFFFF).toUInt16

/-- Read what a record of a type says, behind its fixed fields. -/
def readData (unicode : UnicodeLower) (fuel : Nat) (domain : String) (qtypeNum : UInt16)
    (ttl : UInt32) (dataLen : UInt16) : QueryType → Reader DnsRecord
  | .a => do
      let raw ← readU32
      pure (.a domain (ipv4Of raw) ttl)
  | .aaaa => do
      let r1 ← readU32
      let r2 ← readU32
      let r3 ← readU32
      let r4 ← readU32
      let addr : Ipv6Addr :=
        ⟨highHalf r1, lowHalf r1, highHalf r2, lowHalf r2, highHalf r3, lowHalf r3,
          highHalf r4, lowHalf r4⟩
      pure (.aaaa domain addr ttl)
  | .ns => do
      let ns ← readQname unicode fuel ""
      pure (.ns domain ns ttl)
  | .cname => do
      let cname ← readQname unicode fuel ""
      pure (.cname domain cname ttl)
  | .mx => do
      let priority ← readU16
      let mx ← readQname unicode fuel ""
      pure (.mx domain priority mx ttl)
  | .unknown _ => do
      step dataLen.toNat
      pure (.unknown domain qtypeNum dataLen ttl)

/-- Read a record. -/
def read (unicode : UnicodeLower) (fuel : Nat) : Reader DnsRecord := do
  let domain ← readQname unicode fuel ""
  let qtypeNum ← readU16
  let _ ← readU16
  let ttl ← readU32
  let dataLen ← readU16
  readData unicode fuel domain qtypeNum ttl dataLen (QueryType.fromNum qtypeNum)

end DnsRecord

/-- A message. -/
structure DnsPacket where
  header : DnsHeader
  questions : List DnsQuestion
  answers : List DnsRecord
  authorities : List DnsRecord
  resources : List DnsRecord
  deriving DecidableEq, Repr

/-- Read a message. -/
def DnsPacket.fromBuffer (unicode : UnicodeLower) (fuel : Nat) : Reader DnsPacket := do
  let header ← DnsHeader.read
  let questions ← (DnsQuestion.read unicode fuel).times header.questions.toNat
  let answers ← (DnsRecord.read unicode fuel).times header.answers.toNat
  let authorities ← (DnsRecord.read unicode fuel).times header.authoritativeEntries.toNat
  let resources ← (DnsRecord.read unicode fuel).times header.resourceEntries.toNat
  pure ⟨header, questions, answers, authorities, resources⟩

end LproxyCv.Dns
