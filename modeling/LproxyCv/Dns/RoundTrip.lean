import LproxyCv.Dns.WrittenNames

set_option autoImplicit false

/-!
# Dns: a message that is written is read again

The parser reads what the writer has written: headers, questions, records, messages.
-/

namespace LproxyCv.Dns

open LproxyCv.Foundation LproxyCv.Net BytePacketBuffer

/-! ## The header -/

/-- The flags of the first byte. -/
theorem firstFlags (rd tc aa qr : Bool) {opcode : UInt8} (hop : opcode ≤ 15) :
    let a := rd.toUInt8 ||| tc.toUInt8 <<< 1 ||| aa.toUInt8 <<< 2 ||| opcode <<< 3 |||
      qr.toUInt8 <<< 7
    decide (0 < a &&& 1) = rd ∧ decide (0 < a &&& 2) = tc ∧ decide (0 < a &&& 4) = aa ∧
      (a >>> 3) &&& 0x0F = opcode ∧ decide (0 < a &&& 128) = qr := by
  have hall : ∀ (rd tc aa qr : Bool), ∀ n < 16,
      let opcode := UInt8.ofNat n
      let a := rd.toUInt8 ||| tc.toUInt8 <<< 1 ||| aa.toUInt8 <<< 2 ||| opcode <<< 3 |||
        qr.toUInt8 <<< 7
      decide (0 < a &&& 1) = rd ∧ decide (0 < a &&& 2) = tc ∧ decide (0 < a &&& 4) = aa ∧
        (a >>> 3) &&& 0x0F = opcode ∧ decide (0 < a &&& 128) = qr := by decide +kernel
  have hlt : opcode.toNat < 16 := Nat.lt_succ_of_le (UInt8.le_iff_toNat_le.mp hop)
  have hflags := hall rd tc aa qr opcode.toNat hlt
  rwa [UInt8.ofNat_toNat] at hflags

/-- The flags of the second byte. -/
theorem secondFlags (rescode : ResultCode) (cd ad z ra : Bool) :
    let b := rescode.toNum ||| cd.toUInt8 <<< 4 ||| ad.toUInt8 <<< 5 ||| z.toUInt8 <<< 6 |||
      ra.toUInt8 <<< 7
    ResultCode.fromNum (b &&& 0x0F) = rescode ∧ decide (0 < b &&& 16) = cd ∧
      decide (0 < b &&& 32) = ad ∧ decide (0 < b &&& 64) = z ∧ decide (0 < b &&& 128) = ra := by
  cases rescode <;> revert cd ad z ra <;> decide +kernel

theorem DnsHeader.inverts_write {h : DnsHeader} (hop : h.opcode ≤ 15) :
    Inverts h.write DnsHeader.read h := by
  refine (inverts_writeU16 h.id).bind fun _ => (inverts_word _ _).pair ?_
  refine (inverts_writeU16 h.questions).bind fun _ => (inverts_writeU16 h.answers).bind fun _ =>
    (inverts_writeU16 h.authoritativeEntries).bind fun _ =>
      (inverts_writeU16 h.resourceEntries).map ?_
  obtain ⟨hrd, htc, haa, hopcode, hqr⟩ := firstFlags h.recursionDesired h.truncatedMessage
    h.authoritativeAnswer h.response hop
  obtain ⟨hrescode, hcd, had, hz, hra⟩ := secondFlags h.rescode h.checkingDisabled h.authedData
    h.z h.recursionAvailable
  simp only [bytes_word, hrd, htc, haa, hopcode, hqr, hrescode, hcd, had, hz, hra]

/-! ## Questions -/

/-- A question that is written and read as it is. -/
structure DnsQuestion.Plain (q : DnsQuestion) : Prop where
  name : PlainName q.name
  qtype : ∀ n, q.qtype = .unknown n → QueryType.fromNum n = .unknown n

theorem DnsQuestion.Plain.fromNum_toNum {q : DnsQuestion} (h : q.Plain) :
    QueryType.fromNum q.qtype.toNum = q.qtype := by
  cases hq : q.qtype with
  | unknown n => exact h.qtype n hq
  | a => rfl
  | ns => rfl
  | cname => rfl
  | mx => rfl
  | aaaa => rfl

theorem DnsQuestion.inverts_write (unicode : UnicodeLower) {fuel : Nat} (hfuel : 512 ≤ fuel)
    {q : DnsQuestion} (h : q.Plain) : Inverts q.write (DnsQuestion.read unicode fuel) q := by
  refine (inverts_writeQname unicode hfuel h.name).bind fun _ =>
    (inverts_writeU16 q.qtype.toNum).bind fun _ => (inverts_writeU16 1).map ?_
  rw [h.fromNum_toNum]

/-! ## Data behind their length -/

namespace BytePacketBuffer

theorem read_byte {b : Bytes} {p : Nat} {x : UInt8} (h : ByteAt b p x) :
    read ⟨b, p⟩ = .ok (x, ⟨b, p + 1⟩) := by
  unfold read
  dsimp only
  rw [if_neg (Nat.not_le_of_lt h.1), h.2]

theorem readU16_bytes {b : Bytes} {p : Nat} {x y : UInt8} (hx : ByteAt b p x)
    (hy : ByteAt b (p + 1) y) : readU16 ⟨b, p⟩ = .ok (word x y, ⟨b, p + 2⟩) := by
  rw [readU16, Reader.bind_apply, read_byte hx]
  dsimp only [Outcome.bind]
  rw [Reader.bind_apply, read_byte hy]
  rfl

theorem readU16_ok {b : Bytes} {p : Nat} {v : UInt16} {c : Cursor}
    (h : readU16 ⟨b, p⟩ = .ok (v, c)) :
    ∃ x y, ByteAt b p x ∧ ByteAt b (p + 1) y ∧ c = ⟨b, p + 2⟩ := by
  rw [readU16] at h
  obtain ⟨x, m, hfirst, h⟩ := Reader.bind_eq_ok_iff.mp h
  obtain ⟨hx, rfl⟩ := read_ok hfirst
  obtain ⟨y, m, hsecond, h⟩ := Reader.bind_eq_ok_iff.mp h
  obtain ⟨hy, rfl⟩ := read_ok hsecond
  cases h
  exact ⟨x, y, hx, hy, rfl⟩

theorem set_ok {pos : Nat} {val : UInt8} {c c' : Cursor} {r : Unit}
    (h : set pos val c = .ok (r, c')) : c' = ⟨c.buf.set pos val, c.pos⟩ := by
  unfold set at h
  split at h
  · cases h
    rfl
  · cases h

/-- Two bytes are set, and nothing else. -/
theorem setU16_ok {pos : Nat} {val : UInt16} {c c' : Cursor} {r : Unit}
    (h : setU16 pos val c = .ok (r, c')) :
    c'.pos = c.pos ∧ c'.buf.length = c.buf.length ∧
      ∀ i, i ≠ pos → i ≠ pos + 1 → c'.buf[i]? = c.buf[i]? := by
  rw [setU16] at h
  obtain ⟨r', m, hfirst, hsecond⟩ := Reader.bind_eq_ok_iff.mp h
  have hm := set_ok hfirst
  subst hm
  have hc' := set_ok hsecond
  subst hc'
  refine ⟨rfl, by rw [List.length_set, List.length_set], ?_⟩
  intro i hi hi'
  exact (List.getElem?_set_ne (Ne.symm hi')).trans (List.getElem?_set_ne (Ne.symm hi))

end BytePacketBuffer

/-- Data are read behind their length, whatever it is. -/
theorem DnsRecord.inverts_writeSized {α : Type} {data : Reader Unit} {x : Reader α} {v : α}
    (h : Inverts data x v) :
    Inverts (DnsRecord.writeSized data) (readU16 >>= fun _ => x) v := by
  have hsteps : ∀ {c c' : Cursor} {r : Unit}, DnsRecord.writeSized data c = .ok (r, c') →
      ∃ m m' val r₁ r₂ r₃, writeU16 0 c = .ok (r₁, m) ∧ data m = .ok (r₂, m') ∧
        setU16 c.pos val m' = .ok (r₃, c') := by
    intro c c' r hw
    rw [DnsRecord.writeSized] at hw
    obtain ⟨pos, k, hpos, hw⟩ := Reader.bind_eq_ok_iff.mp hw
    cases hpos
    obtain ⟨r₁, m, hzero, hw⟩ := Reader.bind_eq_ok_iff.mp hw
    obtain ⟨r₂, m', hdata, hw⟩ := Reader.bind_eq_ok_iff.mp hw
    exact ⟨m, m', _, r₁, r₂, r, hzero, hdata, hw⟩
  constructor
  · intro c c' r hw
    obtain ⟨m, m', val, r₁, r₂, r₃, hzero, hdata, hset⟩ := hsteps hw
    have hwritten := ((inverts_writeU16 0).written hzero).trans (h.written hdata)
    obtain ⟨hpos, hlength, hsame⟩ := setU16_ok hset
    refine ⟨hpos ▸ hwritten.le, hlength.trans hwritten.length, ?_⟩
    intro i hi hi'
    exact (hsame i (by omega) (by omega)).trans (hwritten.before i hi hi')
  · intro c c' r hw b hagree
    obtain ⟨m, m', val, r₁, r₂, r₃, hzero, hdata, hset⟩ := hsteps hw
    have hwritten := h.written hdata
    obtain ⟨hpos, hlength, hsame⟩ := setU16_ok hset
    obtain ⟨_, _, ⟨_, hfirst⟩, ⟨hnear, hsecond⟩, hm⟩ :=
      readU16_ok ((inverts_writeU16 0).read hzero (.refl _ _ _))
    have hmpos : m.pos = c.pos + 2 := congrArg Cursor.pos hm
    obtain ⟨hin, _⟩ := List.getElem?_eq_some_iff.mp hsecond
    have hle := hwritten.le
    have hlen := hwritten.length
    -- the two bytes of the length are there
    have hbyte : ∀ i, c.pos ≤ i → i < m.pos → ∃ x, ByteAt b i x := by
      intro i hi hi'
      have hlt : i < c'.buf.length := by omega
      refine ⟨c'.buf[i], by omega, ?_⟩
      rw [hagree i hi (by omega), List.getElem?_eq_getElem hlt]
    obtain ⟨x, hx⟩ := hbyte c.pos le_rfl (by omega)
    obtain ⟨y, hy⟩ := hbyte (c.pos + 1) (by omega) (by omega)
    have hdataAgree : Agree m.pos m'.pos m'.buf b := by
      intro i hi hi'
      rw [hagree i (by omega) (by omega), hsame i (by omega) (by omega)]
    rw [Reader.bind_apply, readU16_bytes hx hy, Outcome.bind]
    dsimp only
    rw [← hmpos, h.read hdata hdataAgree, hpos]

/-! ## Records -/

namespace DnsRecord

/-- A record that is written and read as it is. -/
def Plain : DnsRecord → Prop
  | .unknown _ _ _ _ => False
  | .a domain _ _ => PlainName domain
  | .ns domain host _ => PlainName domain ∧ PlainName host
  | .cname domain host _ => PlainName domain ∧ PlainName host
  | .mx domain _ host _ => PlainName domain ∧ PlainName host
  | .aaaa domain _ _ => PlainName domain

/-- To ask for the offset writes nothing. -/
theorem inverts_getPos {α β : Type} {g : Nat → Reader β} {x : Reader α} {v : α}
    (h : ∀ pos, Inverts (g pos) x v) : Inverts (getPos >>= g) x v where
  written {c} _ _ hw := (h c.pos).written hw
  read {c} _ _ hw _ hagree := (h c.pos).read hw hagree

theorem inverts_measured {α β γ : Type} {w : Reader β} {x : Reader α} {v : α}
    (h : Inverts w x v) (g : Nat → γ) :
    Inverts (w >>= fun _ => getPos >>= fun pos => pure (g pos)) x v :=
  h.behind fun _ => inverts_getPos fun pos => .pure (g pos) v

section Kinds

variable (unicode : UnicodeLower) {fuel : Nat} {domain host : String} (ttl : UInt32)

/-- A record of a known type: what stands before its length, and what it says. -/
theorem inverts_head (hfuel : 512 ≤ fuel) (hdomain : PlainName domain) {qtype : QueryType}
    (hqtype : QueryType.fromNum qtype.toNum = qtype) {β : Type} {k : Reader β} {r : DnsRecord}
    (hk : Inverts k (readU16 >>= fun dataLen =>
      readData unicode fuel domain qtype.toNum ttl dataLen qtype) r) :
    Inverts (writeHead domain qtype ttl >>= fun _ => k) (DnsRecord.read unicode fuel) r := by
  simp only [writeHead, Reader.bind_assoc]
  refine (inverts_writeQname unicode hfuel hdomain).bind fun _ =>
    (inverts_writeU16 qtype.toNum).bind fun _ => (inverts_writeU16 1).bind fun _ =>
      (inverts_writeU32 ttl).bind fun _ => ?_
  rwa [hqtype]

end Kinds

theorem inverts_write (unicode : UnicodeLower) {fuel : Nat} (hfuel : 512 ≤ fuel)
    {r : DnsRecord} (h : r.Plain) : Inverts r.write (DnsRecord.read unicode fuel) r := by
  have hname : ∀ {name : String}, PlainName name →
      Inverts (writeQname name) (readQname unicode fuel "") name :=
    inverts_writeQname unicode hfuel
  unfold write
  refine (inverts_getPos fun startPos => ?_)
  cases r with
  | unknown => exact h.elim
  | a domain addr ttl =>
      exact inverts_head unicode ttl hfuel h rfl
        ((inverts_writeU16 4).bind fun _ =>
          inverts_measured (inverts_octets (fun addr => DnsRecord.a domain addr ttl) addr)
            fun pos => pos - startPos)
  | ns domain host ttl =>
      exact inverts_head unicode ttl hfuel h.1 rfl
        (inverts_measured (inverts_writeSized ((hname h.2).map rfl)) _)
  | cname domain host ttl =>
      exact inverts_head unicode ttl hfuel h.1 rfl
        (inverts_measured (inverts_writeSized ((hname h.2).map rfl)) _)
  | mx domain priority host ttl =>
      exact inverts_head unicode ttl hfuel h.1 rfl
        (inverts_measured (inverts_writeSized
          ((inverts_writeU16 priority).bind fun _ => (hname h.2).map rfl)) _)
  | aaaa domain addr ttl =>
      exact inverts_head unicode ttl hfuel h rfl
        ((inverts_writeU16 16).bind fun _ =>
          inverts_measured (inverts_segments (fun addr => DnsRecord.aaaa domain addr ttl) addr)
            fun pos => pos - startPos)

end DnsRecord

/-! ## Messages -/

namespace DnsPacket

/-- A message that is written and read as it is, but for the numbers in its header. -/
structure Plain (p : DnsPacket) : Prop where
  opcode : p.header.opcode ≤ 15
  questions : ∀ q ∈ p.questions, q.Plain
  answers : ∀ r ∈ p.answers, r.Plain
  authorities : ∀ r ∈ p.authorities, r.Plain
  resources : ∀ r ∈ p.resources, r.Plain
  few : p.questions.length < 65536 ∧ p.answers.length < 65536 ∧
    p.authorities.length < 65536 ∧ p.resources.length < 65536

/-- A section of a message, with its number. -/
theorem inverts_section {α β : Type} {w : α → Reader β} {x : Reader α} {l : List α}
    (h : ∀ a ∈ l, Inverts (w a) x a) (hfew : l.length < 65536) :
    Inverts (Reader.each w l) (x.times (UInt16.ofNat l.length).toNat) l := by
  rw [UInt16.toNat_ofNat_of_lt' hfew]
  exact .each h

theorem inverts_write (unicode : UnicodeLower) {fuel : Nat} (hfuel : 512 ≤ fuel)
    {p : DnsPacket} (h : p.Plain) :
    Inverts p.write (fromBuffer unicode fuel) { p with header := p.counted } := by
  obtain ⟨hquestions, hanswers, hauthorities, hresources⟩ := h.few
  have hrecords : ∀ {l : List DnsRecord}, (∀ r ∈ l, r.Plain) →
      ∀ r ∈ l, Inverts r.write (DnsRecord.read unicode fuel) r :=
    fun hl r hr => DnsRecord.inverts_write unicode hfuel (hl r hr)
  refine (DnsHeader.inverts_write (h := p.counted) h.opcode).bind fun _ => ?_
  refine (inverts_section (fun q hq => DnsQuestion.inverts_write unicode hfuel
    (h.questions q hq)) hquestions).bind fun _ => ?_
  refine (inverts_section (hrecords h.answers) hanswers).bind fun _ => ?_
  refine (inverts_section (hrecords h.authorities) hauthorities).bind fun _ => ?_
  exact ((inverts_section (hrecords h.resources) hresources).ret _).map rfl

/-- What is read from a buffer that a message was written to, from its start: the message,
with the numbers that were written, and the end of it. -/
theorem fromBuffer_write (unicode : UnicodeLower) {fuel : Nat} (hfuel : 512 ≤ fuel)
    {p p' : DnsPacket} {b b' : Bytes} {q : Nat} (h : p.Plain)
    (hwrite : p.write ⟨b, 0⟩ = .ok (p', ⟨b', q⟩)) :
    fromBuffer unicode fuel ⟨b', 0⟩ = .ok ({ p with header := p.counted }, ⟨b', q⟩) :=
  (inverts_write unicode hfuel h).read hwrite (.refl 0 q b')

/-- A message with a record of each kind. -/
def sampleReply : DnsPacket where
  header :=
    { id := 0x1234
      recursionDesired := true
      truncatedMessage := false
      authoritativeAnswer := true
      opcode := 2
      response := true
      rescode := .refused
      checkingDisabled := false
      authedData := true
      z := false
      recursionAvailable := true
      questions := 0
      answers := 0
      authoritativeEntries := 0
      resourceEntries := 0 }
  questions := [⟨"a-1.example", .unknown 99⟩]
  answers := [.a "a-1.example" ⟨10, 0, 0, 1⟩ 300]
  authorities := [.ns "example" "ns.example" 60, .cname "b.example" "a-1.example" 60]
  resources := [.mx "example" 10 "mx.example" 60, .aaaa "ns.example" ⟨1, 2, 3, 4, 5, 6, 7, 8⟩ 9]

theorem sampleReply_plain : sampleReply.Plain where
  opcode := by decide
  questions := by
    rintro q (_ | ⟨_, ⟨⟩⟩)
    exact ⟨⟨["a-1", "example"], by decide +kernel⟩, by rintro n ⟨⟩; decide⟩
  answers := by
    rintro r (_ | ⟨_, ⟨⟩⟩)
    exact ⟨["a-1", "example"], by decide +kernel⟩
  authorities := by
    rintro r (_ | ⟨_, _ | ⟨_, ⟨⟩⟩⟩)
    · exact ⟨⟨["example"], by decide +kernel⟩, ["ns", "example"], by decide +kernel⟩
    · exact ⟨⟨["b", "example"], by decide +kernel⟩, ["a-1", "example"], by decide +kernel⟩
  resources := by
    rintro r (_ | ⟨_, _ | ⟨_, ⟨⟩⟩⟩)
    · exact ⟨⟨["example"], by decide +kernel⟩, ["mx", "example"], by decide +kernel⟩
    · exact ⟨["ns", "example"], by decide +kernel⟩
  few := by decide

/-- A message of five records in a fresh buffer of 512 bytes. -/
theorem fromBuffer_write_sampleReply : ∃ b' q,
    (sampleReply.write ⟨List.replicate 512 0, 0⟩).bind (fun r => .ok r.2) = .ok ⟨b', q⟩ ∧
      q = 192 ∧ fromBuffer (fun _ c _ => [c]) 512 ⟨b', 0⟩ =
        .ok ({ sampleReply with header := sampleReply.counted }, ⟨b', q⟩) := by
  have hwrite : (sampleReply.write ⟨List.replicate 512 0, 0⟩).bind (fun r => .ok r.2.pos) =
      .ok 192 := by decide +kernel
  obtain ⟨⟨p', b', q⟩, hw, hq⟩ := Outcome.bind_eq_ok_iff.mp hwrite
  have hpos : q = 192 := Outcome.ok.inj hq
  exact ⟨b', q, by rw [hw]; rfl, hpos,
    fromBuffer_write _ le_rfl sampleReply_plain hw⟩

end DnsPacket

end LproxyCv.Dns
