import LproxyCv.Dns.DnsFrames
import LproxyCv.Dns.Query
import LproxyCv.Dns.Routing
import LproxyCv.Dns.Wire
import LproxyCv.Services.AccLog

set_option autoImplicit false

/-!
# Dns: long answers

The parser takes no byte from offset 512 on, however long the slice is.  An answer that is longer
goes to the client all the same, but its addresses are not saved (`seen_iff`).
-/

namespace LproxyCv.Dns

open LproxyCv.Foundation LproxyCv.Net LproxyCv.Tunnels LproxyCv.Services BytePacketBuffer

/-! ## What is saved of an answer -/

/-- The address of a record, with the name that it is the address of. -/
def DnsRecord.address : DnsRecord → Option (String × IpAddr)
  | .a domain addr _ => some (domain, .v4 addr)
  | .aaaa domain addr _ => some (domain, .v6 addr)
  | _ => none

/-- Whether an address goes into the tables of the kernel: those of the host itself and those of
groups do not. -/
def routable : IpAddr → Bool
  | .v4 addr => !(addr.a == 127) && !(224 ≤ addr.a && addr.a ≤ 239)
  | .v6 addr => !(addr == ⟨0, 0, 0, 0, 0, 0, 0, 1⟩) && !(addr.a &&& 0xFF00 == 0xFF00)

/-- The addresses of an answer, for the log. -/
def saveDomainRecord (p : DnsPacket) : DNSAddRecord := p.answers.filterMap DnsRecord.address

/-- What is put into the tables of the kernel for an answer, and what is logged of it. -/
def Router.saveIpset (f : Router) (p : DnsPacket) : List IpAddr × DNSAddRecord :=
  (if f.workAsGlobal then []
    else (p.answers.filterMap DnsRecord.address).filterMap fun r =>
      if routable r.2 then some r.2 else none,
    saveDomainRecord p)

/-- The addresses that go into the tables are those that are logged, unless all goes to the
server anyway. -/
theorem mem_saveIpset_iff {f : Router} {p : DnsPacket} {ip : IpAddr} :
    ip ∈ (f.saveIpset p).1 ↔ f.workAsGlobal = false ∧ routable ip = true ∧
      ∃ domain, (domain, ip) ∈ (f.saveIpset p).2 := by
  unfold Router.saveIpset saveDomainRecord
  cases f.workAsGlobal with
  | true => simp
  | false =>
      simp only [Bool.false_eq_true, if_false, true_and]
      rw [List.mem_filterMap]
      constructor
      · rintro ⟨⟨domain, ip'⟩, hmem, hip⟩
        split at hip
        · rename_i hroutable
          cases hip
          exact ⟨hroutable, domain, hmem⟩
        · cases hip
      · rintro ⟨hroutable, domain, hmem⟩
        exact ⟨(domain, ip), hmem, if_pos hroutable⟩

/-! ## How much is read -/

namespace DnsPacket

/-- How many bytes at the end of a message the parser does not look at. -/
def unread (p : DnsPacket) : Nat := (p.records.getLast?.map DnsRecord.unread).getD 0

end DnsPacket

theorem NameEnds.le_limit {b : Bytes} {p q : Nat} (h : NameEnds b p q) : q ≤ 512 := by
  induction h with
  | root h => exact h.1
  | pointer _ _ h _ _ => exact h.1
  | label _ _ _ _ _ _ ih => exact ih

/-- The data of a record, as far as they are read, stand in the first 512 bytes. -/
theorem readData_le {unicode : UnicodeLower} {fuel : Nat} {b : Bytes} {domain : String}
    {qtypeNum dataLen : UInt16} {ttl : UInt32} {qtype : QueryType} {p q : Nat} {r : DnsRecord}
    (hp : p ≤ 512) (h : DnsRecord.readData unicode fuel domain qtypeNum ttl dataLen qtype ⟨b, p⟩ =
      .ok (r, ⟨b, q⟩)) : q ≤ 512 + r.unread := by
  have hquad := follows_readU32 b
  have hname := follows_readQname unicode b ""
  cases qtype with
  | unknown num =>
      cases h
      exact Nat.add_le_add_right hp dataLen.toNat
  | a =>
      obtain ⟨_, _, _, hends, h⟩ := hquad.bind_ok fuel h
      cases h
      exact (bytes_ends.mp hends).1 ▸ (bytes_ends.mp hends).2.1
  | ns =>
      obtain ⟨_, _, _, hends, h⟩ := hname.bind_ok fuel h
      cases h
      exact NameEnds.le_limit hends
  | cname =>
      obtain ⟨_, _, _, hends, h⟩ := hname.bind_ok fuel h
      cases h
      exact NameEnds.le_limit hends
  | mx =>
      obtain ⟨_, _, _, _, h⟩ := (follows_readU16 b).bind_ok fuel h
      obtain ⟨_, _, _, hends, h⟩ := hname.bind_ok fuel h
      cases h
      exact NameEnds.le_limit hends
  | aaaa =>
      obtain ⟨_, _, _, _, h⟩ := hquad.bind_ok fuel h
      obtain ⟨_, _, _, _, h⟩ := hquad.bind_ok fuel h
      obtain ⟨_, _, _, _, h⟩ := hquad.bind_ok fuel h
      obtain ⟨_, _, _, hends, h⟩ := hquad.bind_ok fuel h
      cases h
      exact (bytes_ends.mp hends).1 ▸ (bytes_ends.mp hends).2.1

/-- Nothing that is read of a record stands behind the first 512 bytes. -/
theorem Reads.le {unicode : UnicodeLower} {fuel : Nat} {b : Bytes} {p q : Nat} {r : DnsRecord}
    (h : Reads unicode fuel b p r q) : q ≤ 512 + r.unread := by
  have hword := follows_readU16 b
  unfold Reads at h
  rw [DnsRecord.read] at h
  obtain ⟨_, _, _, _, h⟩ := (follows_readQname unicode b "").bind_ok fuel h
  obtain ⟨_, _, _, _, h⟩ := hword.bind_ok fuel h
  obtain ⟨_, _, _, _, h⟩ := hword.bind_ok fuel h
  obtain ⟨_, _, _, _, h⟩ := (follows_readU32 b).bind_ok fuel h
  obtain ⟨_, _, _, ⟨rfl, hnear, _⟩, h⟩ := hword.bind_ok fuel h
  exact readData_le hnear h

/-! ## Questions and records one behind the other -/

section Parts

variable {unicode : UnicodeLower} {b : Bytes} {start q : Nat}

theorem opening_le {k : Nat} (h : (opening b).ends 0 k start) : start ≤ 512 := by
  have htimes : ∀ {n p q : Nat}, p ≤ 512 → ((question b).times n).ends p () q → q ≤ 512 := by
    intro n
    induction n with
    | zero =>
        rintro p q hp ⟨_, rfl⟩
        exact hp
    | succ n ih =>
        rintro p q _ ⟨_, m, ⟨_, _, _, _, _, _, hends⟩, hrest⟩
        exact ih ((bytes_ends.mp hends).1 ▸ (bytes_ends.mp hends).2.1) hrest
  obtain ⟨n, m, hheader, _, hquestions, _⟩ := h
  refine htimes ?_ hquestions
  rw [header_ends hheader]
  decide

/-- Questions that stand in the first 512 bytes are read. -/
theorem gives_questions {questions : List DnsQuestion}
    (hrun : Run (WireQuestion unicode b) start questions q) (hq : q ≤ 512) :
    start ≤ 512 ∧
      Run (fun p a q => Gives (DnsQuestion.read unicode) ⟨b, p⟩ a ⟨b, q⟩) start questions q := by
  induction hrun with
  | nil p => exact ⟨hq, .nil p⟩
  | cons hfirst _ ih =>
      obtain ⟨hm, hrest⟩ := ih hq
      have hread := gives_question hfirst hm
      obtain ⟨labels, n, qtype, qclass, hname, _, _, _, rfl⟩ := hfirst
      have hlt := hname.lt
      exact ⟨by omega, .cons hread hrest⟩

/-- Records of which nothing is looked at behind the first 512 bytes are read. -/
theorem gives_records {rs : List DnsRecord} (hrun : Run (WireRecord unicode b) start rs q)
    (hq : q ≤ 512 + (rs.getLast?.map DnsRecord.unread).getD 0) :
    start ≤ 512 ∧
      Run (fun p r q => Gives (DnsRecord.read unicode) ⟨b, p⟩ r ⟨b, q⟩) start rs q := by
  induction hrun with
  | nil p => exact ⟨hq, .nil p⟩
  | @cons p m q r rs hfirst hrest ih =>
      have hunread := hfirst.unread
      cases rs with
      | nil =>
          -- of the last record the end may stand further behind
          cases hrest
          have hend : m ≤ 512 + r.unread := hq
          exact ⟨by omega, .cons (gives_record hfirst hend) (.nil m)⟩
      | cons r' rs =>
          rw [List.getLast?_cons_cons] at hq
          obtain ⟨hm, hmore⟩ := ih hq
          exact ⟨by omega, .cons (gives_record hfirst (by omega)) hmore⟩

end Parts

/-! ## Messages -/

namespace DnsPacket

section Messages

variable {unicode : UnicodeLower} {b : Bytes} {p : DnsPacket}

/-- A well-formed message is read, if nothing that is looked at stands behind the first 512
bytes. -/
theorem gives_message (h : WireMessage unicode b p) (hshort : b.length ≤ 512 + p.unread) :
    Gives (fromBuffer unicode) ⟨b, 0⟩ p ⟨b, b.length⟩ := by
  obtain ⟨start, hquestions, hrecords⟩ := h.body
  obtain ⟨hstart, hrecords⟩ := gives_records hrecords hshort
  obtain ⟨_, hquestions⟩ := gives_questions hquestions hstart
  obtain ⟨q₁, hanswers, hrecords⟩ := hrecords.split
  obtain ⟨q₂, hauthorities, hresources⟩ := hrecords.split
  have hasked := Gives.times hquestions
  have hanswered := Gives.times hanswers
  have hnamed := Gives.times hauthorities
  have hadded := Gives.times hresources
  rw [h.questions] at hasked
  rw [h.answers] at hanswered
  rw [h.authorities] at hnamed
  rw [h.resources] at hadded
  exact (Gives.of_steady h.header).bind (hasked.bind (hanswered.bind (hnamed.bind
    (hadded.map _))))

/-- Where a message is read to its end, nothing that is looked at stands behind the first 512
bytes. -/
theorem le_of_gives (h : Gives (fromBuffer unicode) ⟨b, 0⟩ p ⟨b, b.length⟩) :
    b.length ≤ 512 + p.unread := by
  obtain ⟨enough, hread⟩ := h
  obtain ⟨m, start, hreadAs⟩ := readAs_of_fromBuffer (hread enough le_rfl)
  unfold unread
  cases hlast : p.records.getLast? with
  | none =>
      have hrun := hreadAs.records
      have hnone : p.records = [] := List.getLast?_eq_none_iff.mp hlast
      have hstart := opening_le hreadAs.opening
      rw [hnone] at hrun
      cases hrun
      exact hstart
  | some r =>
      obtain ⟨s, hr⟩ := hreadAs.records.last hlast
      exact hr.le

end Messages

/-- A message is read with all its questions and records, and whenever it goes to a client as an
answer, its addresses are saved before. -/
structure Seen (unicode : UnicodeLower) (b : Bytes) (p : DnsPacket) : Prop where
  read : Gives (fromBuffer unicode) ⟨b, 0⟩ p ⟨b, b.length⟩
  saved : ∃ enough, ∀ fuel, enough ≤ fuel → ∀ (t : DnsTunnel) (tx : Channel) (head : Bytes),
    t.udpTx = some tx → head.length = 6 → ∃ addr,
      t.onReqData unicode fuel (head ++ b) true = .ok [.saveIpset p, .udpSend tx b addr]

/-- What a tunnel does with an answer that is read. -/
theorem onReqData_of_read {unicode : UnicodeLower} {fuel : Nat} {b : Bytes} {p : DnsPacket}
    {c : Cursor} (hread : fromBuffer unicode fuel ⟨b, 0⟩ = .ok (p, c)) {t : DnsTunnel}
    {tx : Channel} {head : Bytes} (htx : t.udpTx = some tx) (hhead : head.length = 6) :
    ∃ addr, t.onReqData unicode fuel (head ++ b) true =
      .ok [.saveIpset p, .udpSend tx b addr] := by
  have hlength : ¬ (head ++ b).length < 6 := by
    rw [List.length_append]
    omega
  have hcontent : (head ++ b).drop 6 = b := List.drop_left' hhead
  have hport : ∃ port, readLE 2 (head ++ b) 0 = some port := ⟨_, if_pos (by omega)⟩
  have hip : ∃ ip, readLE 4 (head ++ b) 2 = some ip := ⟨_, if_pos (by omega)⟩
  obtain ⟨port, hport⟩ := hport
  obtain ⟨ip, hip⟩ := hip
  refine ⟨⟨.v4 (DnsRecord.ipv4Of (UInt32.ofNat ip)), UInt16.ofNat port⟩, ?_⟩
  simp only [DnsTunnel.onReqData, if_neg hlength, htx, hport, hip, hcontent, hread, if_true]

/-- A well-formed message is read, and its addresses saved, exactly if no more than 512 bytes of
it are looked at: of a last record of a type that is not known, the data are not. -/
theorem seen_iff {unicode : UnicodeLower} {b : Bytes} {p : DnsPacket}
    (h : WireMessage unicode b p) : p.Seen unicode b ↔ b.length ≤ 512 + p.unread := by
  constructor
  · intro hseen
    exact le_of_gives hseen.read
  · intro hshort
    have hgives := gives_message h hshort
    obtain ⟨enough, hread⟩ := hgives
    refine ⟨⟨enough, hread⟩, enough, ?_⟩
    intro fuel hfuel t tx head htx hhead
    exact onReqData_of_read (hread fuel hfuel) htx hhead

/-- The header of an answer with so many questions and records. -/
def answerHeader (questions answers : UInt16) : DnsHeader :=
  { DnsHeader.new with
    id := 7
    recursionDesired := true
    response := true
    recursionAvailable := true
    questions := questions
    answers := answers }

/-- An answer with an address of `example.com`, whose name is that of the question. -/
def exampleAnswer : Bytes :=
  [0, 7, 0x81, 0x80, 0, 1, 0, 1, 0, 0, 0, 0, 7, 0x65, 0x78, 0x61, 0x6D, 0x70, 0x6C, 0x65, 3, 0x63,
    0x6F, 0x6D, 0, 0, 1, 0, 1, 0xC0, 12, 0, 1, 0, 1, 0, 0, 0, 60, 0, 4, 93, 184, 216, 34]

/-- What it says. -/
def exampleAnswered : DnsPacket :=
  { DnsPacket.new with
    header := answerHeader 1 1
    questions := [⟨"example.com", .a⟩]
    answers := [.a "example.com" ⟨93, 184, 216, 34⟩ 60] }

theorem wireMessage_exampleAnswer :
    WireMessage (fun _ c _ => [c]) exampleAnswer exampleAnswered where
  header := by decide +kernel
  body := by
    have hname : WireName exampleAnswer 12 [[0x65, 0x78, 0x61, 0x6D, 0x70, 0x6C, 0x65],
        [0x63, 0x6F, 0x6D]] 25 :=
      .label (x := 7) rfl (by decide) (by decide) rfl rfl
        (.label (x := 3) rfl (by decide) (by decide) rfl rfl (.root rfl))
    have hpointer : WireName exampleAnswer 29 [[0x65, 0x78, 0x61, 0x6D, 0x70, 0x6C, 0x65],
        [0x63, 0x6F, 0x6D]] 31 := .pointer (y := 12) rfl (Nat.le_refl 192) rfl hname (by decide)
    have hquestion : WireQuestion (fun _ c _ => [c]) exampleAnswer 12 ⟨"example.com", .a⟩ 29 :=
      ⟨_, 25, 1, 1, hname, ⟨0, 1, rfl, rfl, by decide⟩, ⟨0, 1, rfl, rfl, by decide⟩,
        by decide +kernel, rfl⟩
    have hdata : WireData (fun _ c _ => [c]) exampleAnswer "example.com" 60 1 4 41
        (.a "example.com" (DnsRecord.ipv4Of (quad 93 184 216 34)) 60) :=
      .a ⟨93, 184, 216, 34, rfl, rfl, rfl, rfl, rfl⟩
    refine ⟨29, .cons hquestion (.nil 29), .cons ?_ (.nil 45)⟩
    exact ⟨_, 31, 1, 1, 60, 4, hpointer, ⟨0, 1, rfl, rfl, by decide⟩, ⟨0, 1, rfl, rfl, by decide⟩,
      ⟨0, 0, 0, 60, rfl, rfl, rfl, rfl, by decide⟩, ⟨0, 4, rfl, rfl, by decide⟩, hdata, rfl⟩
  questions := rfl
  answers := rfl
  authorities := rfl
  resources := rfl

/-- It is short enough. -/
theorem seen_exampleAnswer : exampleAnswered.Seen (fun _ c _ => [c]) exampleAnswer :=
  (seen_iff wireMessage_exampleAnswer).mpr (by decide)

/-- An answer of 538 bytes: a record of type RRSIG with a long signature, and an address. -/
def signedAnswer : Bytes :=
  [0, 7, 0x81, 0x80, 0, 0, 0, 2, 0, 0, 0, 0, 0, 0, 46, 0, 1, 0, 0, 0, 60, 1, 244] ++
    (List.replicate 500 0xFF ++ [0, 0, 1, 0, 1, 0, 0, 0, 60, 0, 4, 10, 0, 0, 1])

/-- What it says. -/
def signedAnswered : DnsPacket :=
  { DnsPacket.new with
    header := answerHeader 0 2
    answers := [.unknown "" 46 500 60, .a "" ⟨10, 0, 0, 1⟩ 60] }

theorem wireMessage_signedAnswer :
    WireMessage (fun _ c _ => [c]) signedAnswer signedAnswered where
  header := by decide +kernel
  body := by
    have hbyte : ∀ i < 12, signedAnswer[523 + i]? =
        [0, 0, 1, 0, 1, 0, 0, 0, 60, 0, 4, 10][i]? := by decide +kernel
    have haddr : QuadAt signedAnswer 534 (quad 10 0 0 1) := by
      refine ⟨10, 0, 0, 1, hbyte 11 (by decide), ?_, ?_, ?_, rfl⟩ <;> decide +kernel
    have hlong : WireRecord (fun _ c _ => [c]) signedAnswer 12 (.unknown "" 46 500 60) 523 :=
      ⟨[], 13, 46, 1, 60, 500, .root rfl, ⟨0, 46, rfl, rfl, by decide⟩,
        ⟨0, 1, rfl, rfl, by decide⟩, ⟨0, 0, 0, 60, rfl, rfl, rfl, rfl, by decide⟩,
        ⟨1, 244, rfl, rfl, by decide⟩, .unknown rfl (by decide +kernel), rfl⟩
    have hlast : WireRecord (fun _ c _ => [c]) signedAnswer 523
        (.a "" (DnsRecord.ipv4Of (quad 10 0 0 1)) 60) 538 :=
      ⟨[], 524, 1, 1, 60, 4, .root (hbyte 0 (by decide)),
        ⟨0, 1, hbyte 1 (by decide), hbyte 2 (by decide), by decide⟩,
        ⟨0, 1, hbyte 3 (by decide), hbyte 4 (by decide), by decide⟩,
        ⟨0, 0, 0, 60, hbyte 5 (by decide), hbyte 6 (by decide), hbyte 7 (by decide),
          hbyte 8 (by decide), by decide⟩,
        ⟨0, 4, hbyte 9 (by decide), hbyte 10 (by decide), by decide⟩, .a haddr, rfl⟩
    have hlength : signedAnswer.length = 538 := by decide +kernel
    rw [hlength]
    exact ⟨12, .nil 12, .cons hlong (.cons hlast (.nil 538))⟩
  questions := rfl
  answers := rfl
  authorities := rfl
  resources := rfl

/-- Nothing of it is saved, and the client gets it. -/
theorem signedAnswer_not_seen : WireMessage (fun _ c _ => [c]) signedAnswer signedAnswered ∧
    ¬ signedAnswered.Seen (fun _ c _ => [c]) signedAnswer ∧
    (DnsTunnel.new 1 7 2 0).onReqData (fun _ c _ => [c]) 2
      ([0xA0, 0x0F, 2, 1, 168, 192] ++ signedAnswer) true =
        .ok [.udpSend 2 signedAnswer ⟨.v4 ⟨192, 168, 1, 2⟩, 4000⟩] := by
  refine ⟨wireMessage_signedAnswer, ?_, by decide +kernel⟩
  intro hseen
  exact absurd (le_of_gives hseen.read) (by decide +kernel)

end DnsPacket

end LproxyCv.Dns
