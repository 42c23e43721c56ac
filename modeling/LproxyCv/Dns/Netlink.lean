import LproxyCv.Foundation.Attributes

set_option autoImplicit false

/-!
# Dns: the messages that fill the tables of the kernel

An address goes into a table of the kernel with a netlink message: a header, and attributes
that name the protocol and the table and carry the address.  The lengths of the nested
attributes are computed from the inside out before anything is written, and what is written
are their heads, one by one, at a place of the buffer that is counted along; the two agree
(`packets_wellFormed`), in both byte orders.

A write that is not inside the buffer is a panic, and `none` here.
-/

namespace LproxyCv.Dns

open LproxyCv.Foundation

/-! ## The parts of a message -/

def nlmFRequest : UInt16 := 1
def ipsetCmdAdd : UInt16 := 9
def nfnlSubsysIpset : UInt16 := 6
def ipsetProtocol : UInt8 := 6
def ipsetAttrProtocol : UInt16 := 1
def ipsetAttrSetname : UInt16 := 2
def nlaFNested : UInt16 := (1 : UInt16) <<< 15
def ipsetAttrData : UInt16 := 7
def ipsetAttrIpaddrIpv4 : UInt16 := 1
def ipsetAttrIpaddrIpv6 : UInt16 := 2
def ipsetAttrIp : UInt16 := 1
def ipsetAttrCidr : UInt16 := 3
def nlaFNetByteorder : UInt16 := (1 : UInt16) <<< 14

/-- The address family of IPv4. -/
def afInet : UInt8 := 2

/-- A length, with what is missing to a multiple of four. -/
def align4 (len : Nat) : UInt32 := UInt32.ofNat (padded len)

/-- The header of a message. -/
structure NlMsgHdr where
  length : UInt32
  messageType : UInt16
  flags : UInt16
  sequenceNumber : UInt32
  portNumber : UInt32
  deriving DecidableEq, Repr

namespace NlMsgHdr

/-- The header of a message that adds to a table; its length is not known yet. -/
def new : NlMsgHdr := ⟨0, ipsetCmdAdd ||| nfnlSubsysIpset <<< 8, nlmFRequest, 0, 0⟩

def alignSize (_ : NlMsgHdr) : UInt32 := 16

/-- Write the header. -/
def writeTo (e : Endian) (h : NlMsgHdr) (buffer : Bytes) (pos : Nat) : Option Bytes := do
  let buffer ← putAt buffer pos (e.bytes 4 h.length.toNat)
  let buffer ← putAt buffer (pos + 4) (e.bytes 2 h.messageType.toNat)
  let buffer ← putAt buffer (pos + 6) (e.bytes 2 h.flags.toNat)
  let buffer ← putAt buffer (pos + 8) (e.bytes 4 h.sequenceNumber.toNat)
  putAt buffer (pos + 12) (e.bytes 4 h.portNumber.toNat)

end NlMsgHdr

/-- The second header of a message. -/
structure NfGenMsg where
  nfgenFamily : UInt8
  version : UInt8
  resId : UInt16
  deriving DecidableEq, Repr

namespace NfGenMsg

def new (af : UInt8) : NfGenMsg := ⟨af, 0, 0⟩

def alignSize (_ : NfGenMsg) : UInt32 := align4 4

/-- Write the second header. -/
def writeTo (e : Endian) (h : NfGenMsg) (buffer : Bytes) (pos : Nat) : Option Bytes := do
  let buffer ← putAt buffer pos [h.nfgenFamily]
  let buffer ← putAt buffer (pos + 1) [h.version]
  putAt buffer (pos + 2) (e.bytes 2 h.resId.toNat)

end NfGenMsg

/-- The head of an attribute. -/
structure NlAttr where
  nlaLen : UInt16
  nlaType : UInt16
  deriving DecidableEq, Repr

namespace NlAttr

/-- The head of an attribute that carries so many bytes. -/
def newData (nlaType dataLen : UInt16) : NlAttr := ⟨(align4 4).toUInt16 + dataLen, nlaType⟩

def alignSize (a : NlAttr) : UInt32 := align4 a.nlaLen.toNat

/-- Write the head. -/
def writeTo (e : Endian) (a : NlAttr) (buffer : Bytes) (pos : Nat) : Option Bytes := do
  let buffer ← putAt buffer pos (e.bytes 2 a.nlaLen.toNat)
  putAt buffer (pos + 2) (e.bytes 2 a.nlaType.toNat)

end NlAttr

/-! ## The messages -/

/-- The head of an address. -/
def addressHead (ipaddrType : UInt16) (ipvec : Bytes) : NlAttr :=
  NlAttr.newData (ipaddrType ||| nlaFNetByteorder) (UInt16.ofNat ipvec.length)

/-- The head of the attribute around an address. -/
def ipHead (attr5 : NlAttr) : NlAttr :=
  NlAttr.newData (nlaFNested ||| ipsetAttrIp) attr5.alignSize.toUInt16

/-- The head of the attribute around an entry of so many bytes. -/
def dataHead (size : UInt32) : NlAttr :=
  NlAttr.newData (nlaFNested ||| ipsetAttrData) size.toUInt16

/-- Both messages start with the headers and the attribute of the protocol. -/
def writeHead (e : Endian) (hdr : NlMsgHdr) (nfg : NfGenMsg) (attr1 : NlAttr) (out : Bytes) :
    Option (UInt32 × Bytes) := do
  let writen : UInt32 := 0
  let out ← hdr.writeTo e out writen.toNat
  let writen := writen + hdr.alignSize
  let out ← nfg.writeTo e out writen.toNat
  let writen := writen + nfg.alignSize
  let out ← attr1.writeTo e out writen.toNat
  let out ← putAt out (writen + align4 4).toNat [ipsetProtocol]
  let writen := writen + attr1.alignSize
  some (writen, out)

/-- The name of the table is next. -/
def writeSetname (e : Endian) (setname : String) (attr2 : NlAttr) (writen : UInt32) (out : Bytes) :
    Option (UInt32 × Bytes) := do
  let out ← attr2.writeTo e out writen.toNat
  let out ← putAt out (writen + align4 4).toNat (utf8 setname)
  let writen := writen + attr2.alignSize
  some (writen, out)

/-- Then come the heads around the address, and the address.  The place is that of the head of
the address. -/
def writeAddress (e : Endian) (ipvec : Bytes) (attr3 attr4 attr5 : NlAttr) (writen : UInt32)
    (out : Bytes) : Option (UInt32 × Bytes) := do
  let out ← attr3.writeTo e out writen.toNat
  let writen := writen + align4 4
  let out ← attr4.writeTo e out writen.toNat
  let writen := writen + align4 4
  let out ← attr5.writeTo e out writen.toNat
  let out ← putAt out (writen + align4 4).toNat ipvec
  some (writen, out)

/-- What both messages have in common: the length of the message, the place of the head of the
address, and the buffer. -/
def constructPacket (e : Endian) (setname : String) (ipvec : Bytes) (attr3 attr4 attr5 : NlAttr)
    (out : Bytes) : Option (UInt32 × UInt32 × Bytes) := do
  let nfg := NfGenMsg.new afInet
  let attr1 := NlAttr.newData ipsetAttrProtocol 1
  let attr2 := NlAttr.newData ipsetAttrSetname (UInt16.ofNat (utf8 setname).length)
  let hdr := { NlMsgHdr.new with
    length := NlMsgHdr.new.alignSize + nfg.alignSize + attr1.alignSize + attr2.alignSize +
      attr3.alignSize }
  let (writen, out) ← writeHead e hdr nfg attr1 out
  let (writen, out) ← writeSetname e setname attr2 writen out
  let (writen2, out) ← writeAddress e ipvec attr3 attr4 attr5 writen out
  some (hdr.length, writen2, out)

/-- The message that adds an address to a table of addresses. -/
def constructIphashPacket (e : Endian) (setname : String) (ipvec out : Bytes) :
    Option (UInt32 × Bytes) := do
  let ipaddrType := if 4 < ipvec.length then ipsetAttrIpaddrIpv6 else ipsetAttrIpaddrIpv4
  let attr5 := addressHead ipaddrType ipvec
  let attr4 := ipHead attr5
  let attr3 := dataHead attr4.alignSize
  let (length, _, out) ← constructPacket e setname ipvec attr3 attr4 attr5 out
  some (length, out)

/-- The message that adds a range of addresses to a table of ranges: there is the length of the
range behind the address. -/
def constructV4nethashPacket (e : Endian) (setname : String) (ipvec : Bytes) (mask : UInt8)
    (out : Bytes) : Option (UInt32 × Bytes) := do
  let attr6 := NlAttr.newData ipsetAttrCidr 1
  let attr5 := addressHead ipsetAttrIpaddrIpv4 ipvec
  let attr4 := ipHead attr5
  let attr3 := dataHead (attr4.alignSize + attr6.alignSize)
  let (length, writen2, out) ← constructPacket e setname ipvec attr3 attr4 attr5 out
  let writen := writen2 + attr5.alignSize
  let out ← attr6.writeTo e out writen.toNat
  let writen := writen + align4 4
  let out ← putAt out writen.toNat [mask]
  some (length, out)

/-! ## What a message says -/

/-- A message to add to a table of the kernel, with its attributes. -/
structure IsMessage (e : Endian) (bs : Bytes) (attrs : List Attr) : Prop where
  length : e.nat (bs.take 4) = bs.length
  /-- to add, to a table, as a request, with no number, for IPv4 -/
  head : (bs.take 20).drop 4 = e.bytes 2 (9 + 256 * 6) ++ e.bytes 2 1 ++ e.bytes 4 0 ++
    e.bytes 4 0 ++ [2, 0, 0, 0]
  attrs : Attr.decode e (bs.drop 20) = some attrs

/-- The attributes that add to a table: the protocol, the name of the table, and `entry`. -/
def addAttrs (setname : String) (entry : List Attr) : List Attr :=
  [.data 1 [6], .data 2 (utf8 setname), .nested 7 entry]

/-- The attribute of an address: in the byte order of the network, of one of two types. -/
def addressAttr (ipvec : Bytes) : Attr :=
  .nested 1 [.data ((if ipvec.length = 4 then 1 else 2) + 2 ^ 14) ipvec]

/-! ## Sizes -/

theorem align4_toNat {n : Nat} (h : n ≤ 2 ^ 31) : (align4 n).toNat = padded n := by
  rw [align4, UInt32.toNat_ofNat']
  unfold padded
  omega

theorem NlAttr.newData_len {nlaType dataLen : UInt16} (h : 4 + dataLen.toNat < 2 ^ 16) :
    (newData nlaType dataLen).nlaLen.toNat = 4 + dataLen.toNat := by
  have hfour : (align4 4).toUInt16.toNat = 4 := by decide
  rw [newData, UInt16.toNat_add, hfour, Nat.mod_eq_of_lt h]

theorem NlAttr.alignSize_toNat (a : NlAttr) : a.alignSize.toNat = padded a.nlaLen.toNat :=
  align4_toNat (by have hlt := a.nlaLen.toNat_lt; omega)

/-! ## What is written -/

section Written

variable {e : Endian} {front : Bytes} {n pos : Nat}

/-- The bytes of a head. -/
def NlAttr.bytes (e : Endian) (a : NlAttr) : Bytes :=
  e.bytes 2 a.nlaLen.toNat ++ e.bytes 2 a.nlaType.toNat

theorem NlAttr.length_bytes (a : NlAttr) : (a.bytes e).length = 4 := by
  rw [NlAttr.bytes, List.length_append, e.length_bytes, e.length_bytes]

/-- What is done after a step that does not panic. -/
theorem bind_of_eq_some {α β : Type} {x : Option α} {f : α → Option β} {out : α} {r : β}
    (hx : x = some out) (hf : f out = some r) : (x >>= f) = some r := by
  rw [hx]
  exact hf

/-- A head is written behind a gap. -/
theorem NlAttr.writeTo_page (a : NlAttr) (gap : Nat) (hpos : pos = front.length + gap)
    (hfit : pos + 4 ≤ n) : a.writeTo e (page front n) pos =
      some (page (front ++ List.replicate gap 0 ++ a.bytes e) n) := by
  have hlen : (e.bytes 2 a.nlaLen.toNat).length = 2 := e.length_bytes 2 _
  have hfirst : (e.bytes 2 a.nlaLen.toNat ++ e.bytes 2 a.nlaType.toNat).length = 4 :=
    NlAttr.length_bytes a
  have hboth := putAt_putAt (page front n) pos (e.bytes 2 a.nlaLen.toNat)
    (e.bytes 2 a.nlaType.toNat)
  rw [hlen] at hboth
  rw [writeTo, Option.bind_eq_bind, hboth, putAt_page gap hpos (by omega), NlAttr.bytes]

/-- The header is written to the start of a buffer. -/
theorem NlMsgHdr.writeTo_page (h : NlMsgHdr) (hfit : 16 ≤ n) :
    h.writeTo e (page [] n) 0 = some (page (e.bytes 4 h.length.toNat ++
      e.bytes 2 h.messageType.toNat ++ e.bytes 2 h.flags.toNat ++
      e.bytes 4 h.sequenceNumber.toNat ++ e.bytes 4 h.portNumber.toNat) n) := by
  refine bind_of_eq_some (putAt_page 0 (by simp) (by simp; omega)) ?_
  refine bind_of_eq_some (putAt_page 0 (by simp) (by simp; omega)) ?_
  refine bind_of_eq_some (putAt_page 0 (by simp) (by simp; omega)) ?_
  refine bind_of_eq_some (putAt_page 0 (by simp) (by simp; omega)) ?_
  refine (putAt_page 0 (by simp) (by simp; omega)).trans ?_
  simp only [List.replicate_zero, List.append_nil, List.nil_append]

/-- The second header is written behind the front. -/
theorem NfGenMsg.writeTo_page (h : NfGenMsg) (hpos : pos = front.length) (hfit : pos + 4 ≤ n) :
    h.writeTo e (page front n) pos =
      some (page (front ++ [h.nfgenFamily] ++ [h.version] ++ e.bytes 2 h.resId.toNat) n) := by
  refine bind_of_eq_some (putAt_page 0 hpos (by simp; omega)) ?_
  refine bind_of_eq_some (putAt_page 0 (by simp [hpos]) (by simp; omega)) ?_
  refine (putAt_page 0 (by simp [hpos]) (by simp; omega)).trans ?_
  simp only [List.replicate_zero, List.append_nil]

end Written

/-- The place behind a head. -/
theorem add_head {w : UInt32} {k : Nat} (hw : w.toNat = k) (hk : k ≤ 2 ^ 20) :
    (w + align4 4).toNat = k + 4 := by
  have hfour : (align4 4).toNat = 4 := by decide
  rw [UInt32.toNat_add, hfour, hw]
  omega

section Parts

variable {e : Endian} {front : Bytes} {n : Nat} {writen : UInt32}

/-- The bytes of the headers. -/
def headerBytes (e : Endian) (length : Nat) : Bytes :=
  e.bytes 4 length ++ e.bytes 2 (9 + 256 * 6) ++ e.bytes 2 1 ++ e.bytes 4 0 ++ e.bytes 4 0 ++
    [2, 0, 0, 0]

theorem length_headerBytes (length : Nat) : (headerBytes e length).length = 20 := by
  simp [headerBytes]

theorem writeHead_page (length : UInt32) (hfit : 25 ≤ n) :
    writeHead e { NlMsgHdr.new with length := length } (NfGenMsg.new afInet)
      (NlAttr.newData ipsetAttrProtocol 1) (page [] n) =
    some (28, page (headerBytes e length.toNat ++
      (NlAttr.newData ipsetAttrProtocol 1).bytes e ++ [ipsetProtocol]) n) := by
  have hzero : e.bytes 2 0 = [0, 0] := by cases e <;> rfl
  unfold writeHead
  refine bind_of_eq_some (NlMsgHdr.writeTo_page _ (by omega)) ?_
  refine bind_of_eq_some (NfGenMsg.writeTo_page _ (by simp; rfl) ?_) ?_
  · show 16 + 4 ≤ n
    omega
  refine bind_of_eq_some (NlAttr.writeTo_page _ 0 (by simp; rfl) ?_) ?_
  · show 20 + 4 ≤ n
    omega
  refine bind_of_eq_some (putAt_page 0 (by simp [NlAttr.length_bytes]; rfl) ?_) ?_
  · show 24 + 1 ≤ n
    omega
  have hplace : (0 : UInt32) + NlMsgHdr.new.alignSize + (NfGenMsg.new afInet).alignSize +
      (NlAttr.newData ipsetAttrProtocol 1).alignSize = 28 := by decide
  have hfront : e.bytes 4 length.toNat ++ e.bytes 2 NlMsgHdr.new.messageType.toNat ++
      e.bytes 2 NlMsgHdr.new.flags.toNat ++ e.bytes 4 NlMsgHdr.new.sequenceNumber.toNat ++
      e.bytes 4 NlMsgHdr.new.portNumber.toNat ++ [(NfGenMsg.new afInet).nfgenFamily] ++
      [(NfGenMsg.new afInet).version] ++ e.bytes 2 (NfGenMsg.new afInet).resId.toNat =
        headerBytes e length.toNat := by
    show e.bytes 4 length.toNat ++ e.bytes 2 (9 + 256 * 6) ++ e.bytes 2 1 ++ e.bytes 4 0 ++
      e.bytes 4 0 ++ [2] ++ [0] ++ e.bytes 2 0 = _
    rw [hzero, headerBytes]
    simp only [List.append_assoc, List.cons_append, List.nil_append]
  simp only [List.replicate_zero, List.append_nil]
  rw [hfront]
  exact congrArg (fun w => some (w, _)) hplace

theorem writeSetname_page {setname : String} {attr2 : NlAttr} (gap : Nat)
    (hwriten : writen.toNat = front.length + gap) (hlimit : writen.toNat ≤ 2 ^ 20)
    (hfit : writen.toNat + 4 + (utf8 setname).length ≤ n) :
    writeSetname e setname attr2 writen (page front n) =
      some (writen + attr2.alignSize,
        page (front ++ List.replicate gap 0 ++ attr2.bytes e ++ utf8 setname) n) := by
  have hname := add_head rfl hlimit
  unfold writeSetname
  refine bind_of_eq_some (NlAttr.writeTo_page _ gap hwriten (by omega)) ?_
  refine bind_of_eq_some (putAt_page 0 ?_ (by omega)) ?_
  · simp only [List.length_append, List.length_replicate, NlAttr.length_bytes]
    omega
  rw [List.replicate_zero, List.append_nil]

theorem writeAddress_page {ipvec : Bytes} {attr3 attr4 attr5 : NlAttr} (gap : Nat)
    (hwriten : writen.toNat = front.length + gap) (hlimit : writen.toNat ≤ 2 ^ 19)
    (hfit : writen.toNat + 12 + ipvec.length ≤ n) :
    writeAddress e ipvec attr3 attr4 attr5 writen (page front n) =
      some (writen + align4 4 + align4 4, page (front ++ List.replicate gap 0 ++ attr3.bytes e ++
        attr4.bytes e ++ attr5.bytes e ++ ipvec) n) := by
  have h4 := add_head (w := writen) rfl (by omega)
  have h5 := add_head h4 (by omega)
  have h6 := add_head h5 (by omega)
  unfold writeAddress
  refine bind_of_eq_some (NlAttr.writeTo_page _ gap hwriten (by omega)) ?_
  refine bind_of_eq_some (NlAttr.writeTo_page _ 0 ?_ (by omega)) ?_
  · simp only [List.length_append, List.length_replicate, NlAttr.length_bytes]
    omega
  refine bind_of_eq_some (NlAttr.writeTo_page _ 0 ?_ (by omega)) ?_
  · simp only [List.length_append, List.length_replicate, NlAttr.length_bytes]
    omega
  refine bind_of_eq_some (putAt_page 0 ?_ (by omega)) ?_
  · simp only [List.length_append, List.length_replicate, NlAttr.length_bytes]
    omega
  simp only [List.replicate_zero, List.append_nil]

end Parts

section Message

variable {e : Endian} {setname : String}

theorem nameAttr_len (hname : (utf8 setname).length ≤ 60000) :
    (NlAttr.newData ipsetAttrSetname (UInt16.ofNat (utf8 setname).length)).nlaLen.toNat =
      4 + (utf8 setname).length := by
  have hofNat : (UInt16.ofNat (utf8 setname).length).toNat = (utf8 setname).length :=
    UInt16.toNat_ofNat_of_lt' (Nat.lt_of_le_of_lt hname (by decide))
  rw [NlAttr.newData_len (by omega), hofNat]

theorem protocol_front : (NlAttr.newData ipsetAttrProtocol 1).bytes e ++ [ipsetProtocol] ++
    List.replicate 3 0 = Attr.frame e 1 [6] := rfl

theorem setname_front (hname : (utf8 setname).length ≤ 60000) :
    (NlAttr.newData ipsetAttrSetname (UInt16.ofNat (utf8 setname).length)).bytes e ++
      utf8 setname ++ List.replicate
        (padded (4 + (utf8 setname).length) - (4 + (utf8 setname).length)) 0 =
      Attr.frame e 2 (utf8 setname) := by
  have hgap : padded (4 + (utf8 setname).length) - (4 + (utf8 setname).length) =
      padded (utf8 setname).length - (utf8 setname).length := by
    unfold padded
    omega
  rw [NlAttr.bytes, nameAttr_len hname, hgap]
  rfl

/-- What both messages start with. -/
def front (e : Endian) (setname : String) (length : Nat) (heads ipvec : Bytes) : Bytes :=
  headerBytes e length ++ Attr.encode e [.data 1 [6], .data 2 (utf8 setname)] ++ heads ++ ipvec

theorem constructPacket_page (e : Endian) (hname : (utf8 setname).length ≤ 60000)
    (ipvec : Bytes) (attr3 attr4 attr5 : NlAttr) :
    ∃ length writen2 : UInt32,
      length.toNat = 28 + padded (4 + (utf8 setname).length) + padded attr3.nlaLen.toNat ∧
      writen2.toNat = 28 + padded (4 + (utf8 setname).length) + 8 ∧
      ∀ n, 28 + padded (4 + (utf8 setname).length) + 12 + ipvec.length ≤ n →
        constructPacket e setname ipvec attr3 attr4 attr5 (page [] n) =
          some (length, writen2, page (front e setname length.toNat
            (attr3.bytes e ++ attr4.bytes e ++ attr5.bytes e) ipvec) n) := by
  have hsize := NlAttr.alignSize_toNat
    (NlAttr.newData ipsetAttrSetname (UInt16.ofNat (utf8 setname).length))
  rw [nameAttr_len hname] at hsize
  have hle := le_padded (4 + (utf8 setname).length)
  have hsmall : padded (4 + (utf8 setname).length) ≤ 60008 := by
    unfold padded
    omega
  have hplace : (28 + (NlAttr.newData ipsetAttrSetname
      (UInt16.ofNat (utf8 setname).length)).alignSize).toNat =
        28 + padded (4 + (utf8 setname).length) := by
    have hconst : (28 : UInt32).toNat = 28 := rfl
    rw [UInt32.toNat_add, hsize, hconst]
    omega
  have hlength : (NlMsgHdr.new.alignSize + (NfGenMsg.new afInet).alignSize +
      (NlAttr.newData ipsetAttrProtocol 1).alignSize + (NlAttr.newData ipsetAttrSetname
        (UInt16.ofNat (utf8 setname).length)).alignSize + attr3.alignSize).toNat =
      28 + padded (4 + (utf8 setname).length) + padded attr3.nlaLen.toNat := by
    have hconst : (NlMsgHdr.new.alignSize + (NfGenMsg.new afInet).alignSize +
        (NlAttr.newData ipsetAttrProtocol 1).alignSize).toNat = 28 := by decide
    have hlarge : padded attr3.nlaLen.toNat ≤ 2 ^ 16 := by
      have hlt := attr3.nlaLen.toNat_lt
      unfold padded
      omega
    rw [UInt32.toNat_add, UInt32.toNat_add, hconst, hsize, attr3.alignSize_toNat]
    omega
  refine ⟨_, _, hlength, (add_head (add_head hplace (by omega)) (by omega)), fun n hfit => ?_⟩
  unfold constructPacket
  refine bind_of_eq_some (writeHead_page (e := e) (n := n) _ (by omega)) ?_
  refine bind_of_eq_some (writeSetname_page 3 ?_ (by decide) ?_) ?_
  · simp only [List.length_append, length_headerBytes, NlAttr.length_bytes]
    rfl
  · show 28 + 4 + (utf8 setname).length ≤ n
    omega
  refine bind_of_eq_some (writeAddress_page
    (padded (4 + (utf8 setname).length) - (4 + (utf8 setname).length)) ?_ ?_ ?_) ?_
  · rw [hplace]
    simp only [List.length_append, length_headerBytes, NlAttr.length_bytes,
      List.length_replicate, List.length_cons, List.length_nil]
    omega
  · omega
  · omega
  simp only [front, ← protocol_front, ← setname_front hname, Attr.encode, Attr.encodeOne,
    List.append_assoc, List.append_nil]

end Message

/-! ## The messages are messages -/

section Address

variable {e : Endian} {setname : String} {ipvec : Bytes}

/-- A head in front of what it carries is an attribute, if there is nothing to pad. -/
theorem NlAttr.frame_eq {a : NlAttr} {type : Nat} {payload : Bytes}
    (hlen : a.nlaLen.toNat = 4 + payload.length) (htype : a.nlaType.toNat = type)
    (hwhole : padded payload.length = payload.length) :
    a.bytes e ++ payload = Attr.frame e type payload := by
  rw [NlAttr.bytes, hlen, htype, Attr.frame, hwhole, Nat.sub_self, List.replicate_zero,
    List.append_nil]

/-- The head of an attribute around others, whose size is known. -/
theorem NlAttr.around_len {nlaType : UInt16} {size : UInt32} {k : Nat} (hsize : size.toNat = k)
    (hk : k < 2 ^ 15) : (newData nlaType size.toUInt16).nlaLen.toNat = 4 + k := by
  have hshort : size.toUInt16.toNat = k := by
    rw [UInt32.toNat_toUInt16, hsize]
    omega
  rw [newData_len (by omega), hshort]

/-- Headers and attributes are a message. -/
theorem isMessage_of_encode {attrs : List Attr} (hfits : Attr.Fits e attrs) {length : Nat}
    (hlength : length = 20 + (Attr.encode e attrs).length) (hlimit : length < 2 ^ 32) :
    IsMessage e (headerBytes e length ++ Attr.encode e attrs) attrs where
  length := by
    have htake : (headerBytes e length ++ Attr.encode e attrs).take 4 = e.bytes 4 length := by
      simp only [headerBytes, List.append_assoc]
      exact List.take_left' (e.length_bytes 4 _)
    rw [htake, e.nat_bytes (by omega), List.length_append, length_headerBytes, hlength]
  head := by
    rw [List.take_left' (length_headerBytes length)]
    simp only [headerBytes, List.append_assoc]
    exact List.drop_left' (e.length_bytes 4 _)
  attrs := by
    rw [List.drop_left' (length_headerBytes length), Attr.decode_encode e hfits]

/-- Of a page that a message takes up the front of, the rest is zeros. -/
theorem message_of_page {attrs : List Attr} (hfits : Attr.Fits e attrs) {length : UInt32}
    (hlength : length.toNat = 20 + (Attr.encode e attrs).length) {n : Nat} (hn : length.toNat ≤ n) :
    (page (headerBytes e length.toNat ++ Attr.encode e attrs) n).length = n ∧
      (page (headerBytes e length.toNat ++ Attr.encode e attrs) n).drop length.toNat =
        List.replicate (n - length.toNat) 0 ∧
      IsMessage e ((page (headerBytes e length.toNat ++ Attr.encode e attrs) n).take length.toNat)
        attrs := by
  have hfront : (headerBytes e length.toNat ++ Attr.encode e attrs).length = length.toNat := by
    rw [List.length_append, length_headerBytes, hlength]
  refine ⟨length_page (by omega), drop_page (by omega), ?_⟩
  rw [take_page 0 (by omega) hn, List.replicate_zero, List.append_nil]
  exact isMessage_of_encode hfits hlength length.toNat_lt

theorem length_addressAttr (e : Endian) (hip : ipvec.length = 4 ∨ ipvec.length = 16) :
    (Attr.encodeOne e (addressAttr ipvec)).length = 8 + ipvec.length := by
  rw [addressAttr, Attr.encodeOne, Attr.length_frame, Attr.encode, Attr.encode, Attr.encodeOne,
    List.append_nil, Attr.length_frame]
  unfold padded
  omega

theorem fits_addressAttr (e : Endian) (hip : ipvec.length = 4 ∨ ipvec.length = 16) :
    Attr.FitsOne e (addressAttr ipvec) := by
  have hbit : Attr.nestedBit = 32768 := rfl
  simp only [addressAttr, Attr.FitsOne, Attr.Fits, Attr.encode, Attr.encodeOne, Attr.length_frame,
    List.append_nil, hbit]
  unfold padded
  refine ⟨by omega, by omega, ⟨?_, by omega⟩, trivial⟩
  split <;> omega

/-- The heads of the address and of the attribute around it. -/
theorem address_heads {ipaddrType : UInt16} (hip : ipvec.length = 4 ∨ ipvec.length = 16)
    (htype : (ipaddrType ||| nlaFNetByteorder).toNat =
      (if ipvec.length = 4 then 1 else 2) + 2 ^ 14) :
    (addressHead ipaddrType ipvec).alignSize.toNat = 4 + ipvec.length ∧
      (ipHead (addressHead ipaddrType ipvec)).alignSize.toNat = 8 + ipvec.length ∧
      (ipHead (addressHead ipaddrType ipvec)).bytes e ++
        ((addressHead ipaddrType ipvec).bytes e ++ ipvec) =
          Attr.encodeOne e (addressAttr ipvec) := by
  have hwhole : padded ipvec.length = ipvec.length ∧
      padded (4 + ipvec.length) = 4 + ipvec.length ∧
      padded (8 + ipvec.length) = 8 + ipvec.length := by
    unfold padded
    omega
  have hofNat : (UInt16.ofNat ipvec.length).toNat = ipvec.length :=
    UInt16.toNat_ofNat_of_lt' (Nat.lt_of_le_of_lt (by omega : _ ≤ 16) (by decide))
  have hlen5 : (addressHead ipaddrType ipvec).nlaLen.toNat = 4 + ipvec.length := by
    rw [addressHead, NlAttr.newData_len (by omega), hofNat]
  have hsize5 := (addressHead ipaddrType ipvec).alignSize_toNat
  rw [hlen5, hwhole.2.1] at hsize5
  have hlen4 : (ipHead (addressHead ipaddrType ipvec)).nlaLen.toNat = 4 + (4 + ipvec.length) :=
    NlAttr.around_len hsize5 (by omega)
  have hsize4 := (ipHead (addressHead ipaddrType ipvec)).alignSize_toNat
  rw [hlen4, ← Nat.add_assoc, hwhole.2.2] at hsize4
  refine ⟨hsize5, hsize4, ?_⟩
  have hlength5 : (Attr.frame e ((if ipvec.length = 4 then 1 else 2) + 2 ^ 14) ipvec).length =
      4 + ipvec.length := by
    rw [Attr.length_frame, hwhole.2.1]
  rw [NlAttr.frame_eq hlen5 htype hwhole.1, addressAttr, Attr.encodeOne, Attr.encode, Attr.encode,
    Attr.encodeOne, List.append_nil]
  exact NlAttr.frame_eq (by rw [hlength5, hlen4]) rfl (by rw [hlength5, hwhole.2.1])

/-- The head around an entry, behind the name of the table. -/
theorem entry_head {entry : List Attr} {size : UInt32} (hname : (utf8 setname).length ≤ 60000)
    (hsize : size.toNat = (Attr.encode e entry).length) (hshort : size.toNat < 2 ^ 15)
    (hentry : Attr.Fits e entry)
    (hwhole : padded (Attr.encode e entry).length = (Attr.encode e entry).length) :
    Attr.encode e [.data 1 [6], .data 2 (utf8 setname)] ++
        ((dataHead size).bytes e ++ Attr.encode e entry) =
          Attr.encode e (addAttrs setname entry) ∧
      8 + padded (4 + (utf8 setname).length) + padded (dataHead size).nlaLen.toNat =
        (Attr.encode e (addAttrs setname entry)).length ∧
      padded (dataHead size).nlaLen.toNat = 4 + (Attr.encode e entry).length ∧
      Attr.Fits e (addAttrs setname entry) := by
  have hlen : (dataHead size).nlaLen.toNat = 4 + (Attr.encode e entry).length :=
    NlAttr.around_len hsize (hsize ▸ hshort)
  refine ⟨?_, ?_, ?_, ?_⟩
  · rw [NlAttr.frame_eq hlen rfl hwhole]
    simp only [addAttrs, Attr.encode, Attr.encodeOne, List.append_assoc, List.append_nil]
    rfl
  · have hproto : padded (4 + [(6 : UInt8)].length) = 8 := rfl
    simp only [addAttrs, Attr.encode, Attr.encodeOne, List.length_append, Attr.length_frame,
      List.length_nil, hproto, hlen]
    omega
  · rw [hlen]
    unfold padded at hwhole ⊢
    omega
  · have hbit : Attr.nestedBit = 32768 := rfl
    simp only [addAttrs, Attr.Fits, Attr.FitsOne, hbit, List.length_cons, List.length_nil]
    refine ⟨by omega, by omega, ⟨by omega, ?_, hentry⟩, trivial⟩
    omega

end Address

/-- The message that adds an address names the table and carries the address. -/
theorem constructIphashPacket_wellFormed (e : Endian) {setname : String}
    (hname : (utf8 setname).length ≤ 60000) {ipvec : Bytes}
    (hip : ipvec.length = 4 ∨ ipvec.length = 16) :
    ∃ length : UInt32,
      length.toNat = 20 + (Attr.encode e (addAttrs setname [addressAttr ipvec])).length ∧
      ∀ n, length.toNat ≤ n → ∃ out,
        constructIphashPacket e setname ipvec (List.replicate n 0) = some (length, out) ∧
        out.length = n ∧ out.drop length.toNat = List.replicate (n - length.toNat) 0 ∧
        IsMessage e (out.take length.toNat) (addAttrs setname [addressAttr ipvec]) := by
  obtain ⟨ipaddrType, hipaddrType⟩ : ∃ t, t =
    if 4 < ipvec.length then ipsetAttrIpaddrIpv6 else ipsetAttrIpaddrIpv4 := ⟨_, rfl⟩
  have htype : (ipaddrType ||| nlaFNetByteorder).toNat =
      (if ipvec.length = 4 then 1 else 2) + 2 ^ 14 := by
    rcases hip with hip | hip
    · rw [hipaddrType, if_neg (by omega), if_pos hip]
      rfl
    · rw [hipaddrType, if_pos (by omega), if_neg (by omega)]
      rfl
  obtain ⟨_, hsize4, hheads⟩ := address_heads (e := e) hip htype
  have hone : Attr.encode e [addressAttr ipvec] = Attr.encodeOne e (addressAttr ipvec) := by
    rw [Attr.encode, Attr.encode, List.append_nil]
  have hbytes := length_addressAttr e hip
  rw [← hone] at hheads hbytes
  obtain ⟨hentry, htotal, hdata, hfits⟩ := entry_head hname (hsize4.trans hbytes.symm) (by omega)
    ⟨fits_addressAttr e hip, trivial⟩ (by unfold padded; omega)
  obtain ⟨length, _, hlength, _, hpacket⟩ := constructPacket_page e hname ipvec
    (dataHead (ipHead (addressHead ipaddrType ipvec)).alignSize)
    (ipHead (addressHead ipaddrType ipvec)) (addressHead ipaddrType ipvec)
  refine ⟨length, by omega, fun n hn => ⟨_, ?_, message_of_page hfits (by omega) hn⟩⟩
  unfold constructIphashPacket
  rw [← hipaddrType]
  refine bind_of_eq_some (hpacket n (by omega)) ?_
  simp only [front, List.append_assoc, hheads, hentry]

/-! ## The length of the prefix -/

theorem cidr_frame (e : Endian) (mask : UInt8) :
    (NlAttr.newData ipsetAttrCidr 1).bytes e ++ [mask] ++ List.replicate 3 0 =
      Attr.frame e 3 [mask] := by
  have hone : [mask].length = 1 := rfl
  rw [Attr.frame, hone]
  rfl

theorem encode_rangeEntry (e : Endian) (ipvec : Bytes) (mask : UInt8) :
    Attr.encode e [addressAttr ipvec, .data 3 [mask]] =
      Attr.encodeOne e (addressAttr ipvec) ++ Attr.frame e 3 [mask] := by
  rw [Attr.encode, Attr.encode, Attr.encode, List.append_nil, Attr.encodeOne]

theorem length_rangeEntry (e : Endian) {ipvec : Bytes} (hip : ipvec.length = 4) (mask : UInt8) :
    (Attr.encode e [addressAttr ipvec, .data 3 [mask]]).length = 20 := by
  have hone : [mask].length = 1 := rfl
  rw [encode_rangeEntry, List.length_append, length_addressAttr e (.inl hip), Attr.length_frame,
    hip, hone]
  rfl

/-- The length of what stands in front of it. -/
theorem length_front (e : Endian) (setname : String) (length : Nat) (heads ipvec : Bytes) :
    (front e setname length heads ipvec).length =
      28 + padded (4 + (utf8 setname).length) + heads.length + ipvec.length := by
  have hproto : padded (4 + [(6 : UInt8)].length) = 8 := rfl
  simp only [front, Attr.encode, Attr.encodeOne, List.length_append, length_headerBytes,
    Attr.length_frame, List.length_nil, hproto]
  omega

/-- The message that adds a range names the table and carries the address and the length. -/
theorem constructV4nethashPacket_wellFormed (e : Endian) {setname : String}
    (hname : (utf8 setname).length ≤ 60000) {ipvec : Bytes} (hip : ipvec.length = 4)
    (mask : UInt8) :
    ∃ length : UInt32,
      length.toNat = 20 + (Attr.encode e
        (addAttrs setname [addressAttr ipvec, .data 3 [mask]])).length ∧
      ∀ n, length.toNat ≤ n → ∃ out,
        constructV4nethashPacket e setname ipvec mask (List.replicate n 0) = some (length, out) ∧
        out.length = n ∧ out.drop length.toNat = List.replicate (n - length.toNat) 0 ∧
        IsMessage e (out.take length.toNat)
          (addAttrs setname [addressAttr ipvec, .data 3 [mask]]) := by
  have hip' : ipvec.length = 4 ∨ ipvec.length = 16 := .inl hip
  have htype : (ipsetAttrIpaddrIpv4 ||| nlaFNetByteorder).toNat =
      (if ipvec.length = 4 then 1 else 2) + 2 ^ 14 := by
    rw [if_pos hip]
    rfl
  obtain ⟨hsize5, hsize4, hheads⟩ := address_heads (e := e) hip' htype
  have hone : [mask].length = 1 := rfl
  have hbytes := length_rangeEntry e hip mask
  have hsize : ((ipHead (addressHead ipsetAttrIpaddrIpv4 ipvec)).alignSize +
      (NlAttr.newData ipsetAttrCidr 1).alignSize).toNat = 20 := by
    have hsize6 : (NlAttr.newData ipsetAttrCidr 1).alignSize.toNat = 8 := rfl
    rw [UInt32.toNat_add, hsize4, hsize6, hip]
  obtain ⟨hentry, htotal, hdata, hfits⟩ := entry_head hname (hsize.trans hbytes.symm) (by omega)
    ⟨fits_addressAttr e hip', ⟨by decide, by rw [hone]; decide⟩, trivial⟩ (by rw [hbytes]; rfl)
  obtain ⟨length, writen2, hlength, hwriten2, hpacket⟩ := constructPacket_page e hname ipvec
    (dataHead ((ipHead (addressHead ipsetAttrIpaddrIpv4 ipvec)).alignSize +
      (NlAttr.newData ipsetAttrCidr 1).alignSize))
    (ipHead (addressHead ipsetAttrIpaddrIpv4 ipvec)) (addressHead ipsetAttrIpaddrIpv4 ipvec)
  have hle : padded (4 + (utf8 setname).length) ≤ 60008 := by
    unfold padded
    omega
  have hplace : (writen2 + (addressHead ipsetAttrIpaddrIpv4 ipvec).alignSize).toNat =
      writen2.toNat + 8 := by
    rw [UInt32.toNat_add, hsize5, hip]
    omega
  have hfront : (front e setname length.toNat
      ((dataHead ((ipHead (addressHead ipsetAttrIpaddrIpv4 ipvec)).alignSize +
        (NlAttr.newData ipsetAttrCidr 1).alignSize)).bytes e ++
        (ipHead (addressHead ipsetAttrIpaddrIpv4 ipvec)).bytes e ++
        (addressHead ipsetAttrIpaddrIpv4 ipvec).bytes e) ipvec).length = writen2.toNat + 8 := by
    simp only [length_front, List.length_append, NlAttr.length_bytes, hip]
    omega
  rw [hbytes] at hdata
  refine ⟨length, by omega, fun n hn => ⟨_, ?_, message_of_page hfits (by omega) hn⟩⟩
  unfold constructV4nethashPacket
  refine bind_of_eq_some (hpacket n (by omega)) ?_
  refine bind_of_eq_some (NlAttr.writeTo_page _ 0 (by rw [hplace, hfront, Nat.add_zero])
    (by omega)) ?_
  have hbehind := add_head hplace (by omega : writen2.toNat + 8 ≤ 2 ^ 20)
  refine bind_of_eq_some (putAt_page 0 ?_ (by rw [hone]; omega)) ?_
  · rw [hbehind, List.length_append, List.length_append, hfront, NlAttr.length_bytes]
    rfl
  -- the last bytes of the padding are not written, and zeros already
  rw [← page_zeros 3]
  · simp only [front, List.append_assoc, List.replicate_zero, List.append_nil]
    rw [← hentry, encode_rangeEntry, ← hheads, ← cidr_frame]
    simp only [List.append_assoc]
  · rw [List.length_append, List.length_append, List.length_append, List.length_append, hfront,
      NlAttr.length_bytes, List.length_replicate, hone]
    omega

/-- Both messages are messages, whatever the length of the name, and nothing is written behind
them. -/
theorem packets_wellFormed (e : Endian) (setname : String)
    (hname : (utf8 setname).length ≤ 60000) :
    (∀ ipvec : Bytes, ipvec.length = 4 ∨ ipvec.length = 16 →
      ∃ length : UInt32, ∀ n, length.toNat ≤ n → ∃ out,
        constructIphashPacket e setname ipvec (List.replicate n 0) = some (length, out) ∧
        out.length = n ∧ out.drop length.toNat = List.replicate (n - length.toNat) 0 ∧
        IsMessage e (out.take length.toNat) (addAttrs setname [addressAttr ipvec])) ∧
    ∀ (ipvec : Bytes) (mask : UInt8), ipvec.length = 4 →
      ∃ length : UInt32, ∀ n, length.toNat ≤ n → ∃ out,
        constructV4nethashPacket e setname ipvec mask (List.replicate n 0) = some (length, out) ∧
        out.length = n ∧ out.drop length.toNat = List.replicate (n - length.toNat) 0 ∧
        IsMessage e (out.take length.toNat)
          (addAttrs setname [addressAttr ipvec, .data 3 [mask]]) := by
  constructor
  · intro ipvec hip
    obtain ⟨length, _, hmessage⟩ := constructIphashPacket_wellFormed e hname hip
    exact ⟨length, hmessage⟩
  · intro ipvec mask hip
    obtain ⟨length, _, hmessage⟩ := constructV4nethashPacket_wellFormed e hname hip mask
    exact ⟨length, hmessage⟩

theorem packets_wellFormed_lproxy :
    ∃ length : UInt32, ∀ n, length.toNat ≤ n → ∃ out,
      constructV4nethashPacket .little "LPROXYN" [10, 0, 0, 0] 8 (List.replicate n 0) =
        some (length, out) ∧
      out.length = n ∧ out.drop length.toNat = List.replicate (n - length.toNat) 0 ∧
      IsMessage .little (out.take length.toNat)
        (addAttrs "LPROXYN" [addressAttr [10, 0, 0, 0], .data 3 [8]]) :=
  (packets_wellFormed .little "LPROXYN" (by decide)).2 [10, 0, 0, 0] 8 rfl

example : constructIphashPacket .little "L" [10, 0, 0, 1] (List.replicate 53 0) =
    some (52, [52, 0, 0, 0, 9, 6, 1, 0, 0, 0, 0, 0, 0, 0, 0, 0, 2, 0, 0, 0, 5, 0, 1, 0, 6, 0, 0, 0,
      5, 0, 2, 0, 76, 0, 0, 0, 16, 0, 7, 128, 12, 0, 1, 128, 8, 0, 1, 64, 10, 0, 0, 1, 0]) := by
  decide +kernel

/-! ## The tables -/

def ipsetTableNull : String := "LPROXY\x00"
def ipsetTable6Null : String := "LPROXY6\x00"
def ipsetNethashTableNull : String := "LPROXYN\x00"

/-- What is sent to the kernel to add an address to a table. -/
def ipsetAddIphash (e : Endian) (ipvec : Bytes) (tbname : String) : Option Bytes := do
  let vec := List.replicate 256 0
  let (len, vec) ← constructIphashPacket e tbname ipvec vec
  some (vec.take len.toNat)

/-- What is sent to the kernel to add a range to the table of ranges. -/
def ipsetAddNethash (e : Endian) (ipvec : Bytes) (mask : UInt8) : Option Bytes := do
  let vec := List.replicate 256 0
  let (len, vec) ← constructV4nethashPacket e ipsetNethashTableNull ipvec mask vec
  some (vec.take len.toNat)

/-- The buffer is large enough for the names of the tables. -/
theorem ipsetAddIphash_isMessage (e : Endian) {ipvec : Bytes} {tbname : String}
    (hip : ipvec.length = 4 ∨ ipvec.length = 16)
    (htbname : tbname = ipsetTableNull ∨ tbname = ipsetTable6Null) :
    ∃ bs, ipsetAddIphash e ipvec tbname = some bs ∧
      IsMessage e bs (addAttrs tbname [addressAttr ipvec]) := by
  have hname : (utf8 tbname).length ≤ 9 := by
    rcases htbname with rfl | rfl <;> decide
  obtain ⟨length, hlength, hmessage⟩ := constructIphashPacket_wellFormed e
    (by omega : (utf8 tbname).length ≤ 60000) hip
  have hfit : length.toNat ≤ 256 := by
    simp only [hlength, addAttrs, Attr.encode, Attr.encodeOne, List.length_append,
      Attr.length_frame, List.length_nil, length_addressAttr e hip, List.length_cons]
    unfold padded
    omega
  obtain ⟨out, hout, _, _, hattrs⟩ := hmessage 256 hfit
  exact ⟨_, bind_of_eq_some hout rfl, hattrs⟩

theorem ipsetAddNethash_isMessage (e : Endian) {ipvec : Bytes} (hip : ipvec.length = 4)
    (mask : UInt8) : ∃ bs, ipsetAddNethash e ipvec mask = some bs ∧
      IsMessage e bs
        (addAttrs ipsetNethashTableNull [addressAttr ipvec, .data 3 [mask]]) := by
  have hname : (utf8 ipsetNethashTableNull).length = 8 := by decide
  obtain ⟨length, hlength, hmessage⟩ := constructV4nethashPacket_wellFormed e
    (by omega : (utf8 ipsetNethashTableNull).length ≤ 60000) hip mask
  have hfit : length.toNat ≤ 256 := by
    simp only [hlength, addAttrs, Attr.encode, Attr.encodeOne, List.length_append,
      Attr.length_frame, List.length_nil, length_addressAttr e (.inl hip), List.length_cons, hip,
      hname]
    decide
  obtain ⟨out, hout, _, _, hattrs⟩ := hmessage 256 hfit
  exact ⟨_, bind_of_eq_some hout rfl, hattrs⟩

end LproxyCv.Dns
