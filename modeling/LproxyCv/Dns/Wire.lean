import LproxyCv.Dns.Lengths
import LproxyCv.Dns.Names
import LproxyCv.Dns.RoundTrip

set_option autoImplicit false

/-!
# Dns: messages that are well formed

What a message is that is well formed, of whatever length: its header, its questions, and
records that say how long they are, with names of labels of up to 63 bytes whose pointers lead
back.  The parser reads as much of it as stands in the first 512 bytes (`gives_record`).
-/

namespace LproxyCv.Dns

open LproxyCv.Foundation BytePacketBuffer

/-! ## The parts of a message -/

/-- Two bytes that stand for a number. -/
def WordAt (b : Bytes) (p : Nat) (v : UInt16) : Prop :=
  ∃ x y, b[p]? = some x ∧ b[p + 1]? = some y ∧ word x y = v

/-- Four bytes that stand for a number. -/
def QuadAt (b : Bytes) (p : Nat) (v : UInt32) : Prop :=
  ∃ x y z w, b[p]? = some x ∧ b[p + 1]? = some y ∧ b[p + 2]? = some z ∧ b[p + 3]? = some w ∧
    quad x y z w = v

/-- A name that is well formed.  Its labels have up to 63 bytes, and a pointer leads to a name
that stands in front of it. -/
inductive WireName (b : Bytes) : Nat → List Bytes → Nat → Prop where
  | root {p : Nat} : b[p]? = some 0 → WireName b p [] (p + 1)
  | pointer {p q : Nat} {x y : UInt8} {labels : List Bytes} : b[p]? = some x → IsPointer x →
      b[p + 1]? = some y → WireName b (pointerTo x y) labels q → q ≤ p →
      WireName b p labels (p + 2)
  | label {p q : Nat} {x : UInt8} {l : Bytes} {labels : List Bytes} : b[p]? = some x →
      0 < l.length → l.length ≤ 63 → x.toNat = l.length → (b.drop (p + 1)).take l.length = l →
      WireName b (p + 1 + l.length) labels q → WireName b p (l :: labels) q

/-- A question that is well formed. -/
def WireQuestion (unicode : UnicodeLower) (b : Bytes) (p : Nat) (question : DnsQuestion) (q : Nat) :
    Prop :=
  ∃ labels n qtype qclass, WireName b p labels n ∧ WordAt b n qtype ∧ WordAt b (n + 2) qclass ∧
    question = ⟨nameText unicode labels, QueryType.fromNum qtype⟩ ∧ q = n + 4

/-- Data of a record that are well formed: of a type that is known as long as the record says,
of another so many bytes. -/
inductive WireData (unicode : UnicodeLower) (b : Bytes) (domain : String) (ttl : UInt32) :
    UInt16 → UInt16 → Nat → DnsRecord → Prop where
  | a {p : Nat} {raw : UInt32} : QuadAt b p raw →
      WireData unicode b domain ttl 1 4 p (.a domain (DnsRecord.ipv4Of raw) ttl)
  | aaaa {p : Nat} {r1 r2 r3 r4 : UInt32} : QuadAt b p r1 → QuadAt b (p + 4) r2 →
      QuadAt b (p + 8) r3 → QuadAt b (p + 12) r4 →
      WireData unicode b domain ttl 28 16 p
        (.aaaa domain ⟨DnsRecord.highHalf r1, DnsRecord.lowHalf r1, DnsRecord.highHalf r2,
          DnsRecord.lowHalf r2, DnsRecord.highHalf r3, DnsRecord.lowHalf r3,
          DnsRecord.highHalf r4, DnsRecord.lowHalf r4⟩ ttl)
  | ns {p : Nat} {len : UInt16} {labels : List Bytes} : WireName b p labels (p + len.toNat) →
      WireData unicode b domain ttl 2 len p (.ns domain (nameText unicode labels) ttl)
  | cname {p : Nat} {len : UInt16} {labels : List Bytes} : WireName b p labels (p + len.toNat) →
      WireData unicode b domain ttl 5 len p (.cname domain (nameText unicode labels) ttl)
  | mx {p : Nat} {len priority : UInt16} {labels : List Bytes} : WordAt b p priority →
      WireName b (p + 2) labels (p + len.toNat) →
      WireData unicode b domain ttl 15 len p (.mx domain priority (nameText unicode labels) ttl)
  | unknown {p : Nat} {qtype len : UInt16} : QueryType.fromNum qtype = .unknown qtype →
      p + len.toNat ≤ b.length →
      WireData unicode b domain ttl qtype len p (.unknown domain qtype len ttl)

/-- A record that is well formed. -/
def WireRecord (unicode : UnicodeLower) (b : Bytes) (p : Nat) (r : DnsRecord) (q : Nat) : Prop :=
  ∃ labels n qtype qclass ttl len, WireName b p labels n ∧ WordAt b n qtype ∧
    WordAt b (n + 2) qclass ∧ QuadAt b (n + 4) ttl ∧ WordAt b (n + 8) len ∧
    WireData unicode b (nameText unicode labels) ttl qtype len (n + 10) r ∧
    q = n + 10 + len.toNat

/-- A message that is well formed: its header, and as many questions and records as it says,
one behind the other up to the end. -/
structure WireMessage (unicode : UnicodeLower) (b : Bytes) (p : DnsPacket) : Prop where
  header : DnsHeader.read ⟨b, 0⟩ = .ok (p.header, ⟨b, 12⟩)
  body : ∃ start, Run (WireQuestion unicode b) 12 p.questions start ∧
    Run (WireRecord unicode b) start p.records b.length
  questions : p.questions.length = p.header.questions.toNat
  answers : p.answers.length = p.header.answers.toNat
  authorities : p.authorities.length = p.header.authoritativeEntries.toNat
  resources : p.resources.length = p.header.resourceEntries.toNat

/-! ## How far they reach -/

theorem WireName.lt {b : Bytes} {p q : Nat} {labels : List Bytes} (h : WireName b p labels q) :
    p < q := by
  induction h with
  | root _ => exact Nat.lt_succ_self _
  | pointer _ _ _ _ _ _ => omega
  | label _ _ _ _ _ _ ih => omega

/-- A name in the first 512 bytes is one that the parser can read.  What its pointers lead to
stands there as well. -/
theorem WireName.nameAt {b : Bytes} {p q : Nat} {labels : List Bytes}
    (h : WireName b p labels q) (hq : q ≤ 512) : NameAt b p labels q := by
  induction h with
  | root h => exact .root ⟨by omega, h⟩
  | pointer hx hpointer hy _ hfront ih =>
      exact .pointer ⟨by omega, hx⟩ hpointer ⟨by omega, hy⟩ (ih (by omega))
  | label hx hpos hshort hlen htake hrest ih =>
      have hlt := hrest.lt
      refine .label ⟨by omega, hx⟩ ?_ ?_ (hlen ▸ htake) hlen.symm (hlen ▸ ih hq)
      · unfold IsPointer
        omega
      · rintro rfl
        exact absurd hlen (Nat.ne_of_lt hpos)

/-- How many bytes of a record the parser does not look at. -/
def DnsRecord.unread : DnsRecord → Nat
  | .unknown _ _ dataLen _ => dataLen.toNat
  | _ => 0

theorem WireData.unread {unicode : UnicodeLower} {b : Bytes} {domain : String} {ttl : UInt32}
    {qtype len : UInt16} {p : Nat} {r : DnsRecord}
    (h : WireData unicode b domain ttl qtype len p r) :
    r.unread = 0 ∨ r.unread = len.toNat := by
  cases h with
  | unknown => exact .inr rfl
  | a => exact .inl rfl
  | aaaa => exact .inl rfl
  | ns => exact .inl rfl
  | cname => exact .inl rfl
  | mx => exact .inl rfl

/-- What the parser looks at of a record stands in front of the rest. -/
theorem WireRecord.unread {unicode : UnicodeLower} {b : Bytes} {p q : Nat} {r : DnsRecord}
    (h : WireRecord unicode b p r q) : p + r.unread < q := by
  obtain ⟨labels, n, qtype, qclass, ttl, len, hname, _, _, _, _, hdata, rfl⟩ := h
  have hlt := hname.lt
  rcases hdata.unread with hzero | hlen <;> omega

/-! ## What the parser reads of them -/

theorem read_word {b : Bytes} {p : Nat} {v : UInt16} (h : WordAt b p v) (hp : p + 2 ≤ 512) :
    readU16 ⟨b, p⟩ = .ok (v, ⟨b, p + 2⟩) := by
  obtain ⟨x, y, hx, hy, rfl⟩ := h
  exact readU16_bytes ⟨by omega, hx⟩ ⟨by omega, hy⟩

theorem read_quad {b : Bytes} {p : Nat} {v : UInt32} (h : QuadAt b p v) (hp : p + 4 ≤ 512) :
    readU32 ⟨b, p⟩ = .ok (v, ⟨b, p + 4⟩) := by
  obtain ⟨x, y, z, w, hx, hy, hz, hw, rfl⟩ := h
  have hread : ∀ {i : Nat} {a : UInt8}, b[i]? = some a → i < 512 →
      read ⟨b, i⟩ = .ok (a, ⟨b, i + 1⟩) := fun ha hi => read_byte ⟨hi, ha⟩
  rw [readU32, Reader.bind_apply, hread hx (by omega)]
  dsimp only [Outcome.bind]
  rw [Reader.bind_apply, hread hy (by omega)]
  dsimp only [Outcome.bind]
  rw [Reader.bind_apply, hread hz (by omega)]
  dsimp only [Outcome.bind]
  rw [Reader.bind_apply, hread hw (by omega)]
  rfl

section Gives

variable {unicode : UnicodeLower} {b : Bytes}

theorem gives_name {p q : Nat} {labels : List Bytes} (h : WireName b p labels q) (hq : q ≤ 512) :
    Gives (fun fuel => readQname unicode fuel "") ⟨b, p⟩ (nameText unicode labels) ⟨b, q⟩ :=
  gives_readQname unicode (h.nameAt hq)

theorem gives_question {p q : Nat} {question : DnsQuestion}
    (h : WireQuestion unicode b p question q) (hq : q ≤ 512) :
    Gives (DnsQuestion.read unicode) ⟨b, p⟩ question ⟨b, q⟩ := by
  obtain ⟨labels, n, qtype, qclass, hname, hqtype, hqclass, rfl, rfl⟩ := h
  exact (gives_name hname (by omega)).bind ((Gives.of_steady (read_word hqtype (by omega))).bind
    ((Gives.of_steady (read_word hqclass (by omega))).map _))

theorem gives_data {domain : String} {ttl : UInt32} {qtype len : UInt16} {p : Nat} {r : DnsRecord}
    (h : WireData unicode b domain ttl qtype len p r) (hq : p + len.toNat ≤ 512 + r.unread) :
    Gives (fun fuel => DnsRecord.readData unicode fuel domain qtype ttl len
      (QueryType.fromNum qtype)) ⟨b, p⟩ r ⟨b, p + len.toNat⟩ := by
  cases h with
  | unknown hqtype _ =>
      rw [hqtype]
      exact .of_steady rfl
  | a hraw => exact (Gives.of_steady (read_quad hraw hq)).map _
  | aaaa h1 h2 h3 h4 =>
      have hend : p + 16 ≤ 512 := hq
      exact (Gives.of_steady (read_quad h1 (by omega))).bind
        ((Gives.of_steady (read_quad h2 (by omega))).bind
          ((Gives.of_steady (read_quad h3 (by omega))).bind
            ((Gives.of_steady (read_quad h4 (by omega))).map _)))
  | ns hname => exact (gives_name hname hq).map _
  | cname hname => exact (gives_name hname hq).map _
  | mx hpriority hname =>
      have hlt := hname.lt
      have hend : p + len.toNat ≤ 512 := hq
      exact (Gives.of_steady (read_word hpriority (by omega))).bind
        ((gives_name hname hend).map _)

/-- The parser reads a record of which it looks at nothing behind the first 512 bytes. -/
theorem gives_record {p q : Nat} {r : DnsRecord} (h : WireRecord unicode b p r q)
    (hq : q ≤ 512 + r.unread) : Gives (DnsRecord.read unicode) ⟨b, p⟩ r ⟨b, q⟩ := by
  obtain ⟨labels, n, qtype, qclass, ttl, len, hname, hqtype, hqclass, httl, hlen, hdata, rfl⟩ := h
  have hend : n + 10 ≤ 512 := by
    rcases hdata.unread with hzero | hunread <;> omega
  exact (gives_name hname (by omega)).bind ((Gives.of_steady (read_word hqtype (by omega))).bind
    ((Gives.of_steady (read_word hqclass (by omega))).bind
      ((Gives.of_steady (read_quad httl (by omega))).bind
        ((Gives.of_steady (read_word hlen (by omega))).bind (gives_data hdata hq)))))

end Gives

end LproxyCv.Dns
