import LproxyCv.Dns.RoundTrip

set_option autoImplicit false

/-!
# Dns: asking for the address of a name

`MyDns` asks a server for the address of a name, with a message of one question.  The writer
takes labels of up to 52 bytes, where those of a host name may have 63: for a name with a longer
one `MyDns::prepare_query` panics (`asks_iff`).
-/

namespace LproxyCv.Dns

open LproxyCv.Foundation BytePacketBuffer

/-! ## The query -/

/-- A header of zeros. -/
def DnsHeader.new : DnsHeader where
  id := 0
  recursionDesired := false
  truncatedMessage := false
  authoritativeAnswer := false
  opcode := 0
  response := false
  rescode := .noerror
  checkingDisabled := false
  authedData := false
  z := false
  recursionAvailable := false
  questions := 0
  answers := 0
  authoritativeEntries := 0
  resourceEntries := 0

/-- A message of nothing. -/
def DnsPacket.new : DnsPacket := ⟨.new, [], [], [], []⟩

/-- A query for a name: its socket, and the message that it sends from the start of a buffer. -/
structure MyDns where
  domain : String
  udp : Option Nat
  sendBuf : Option Bytes
  sendLen : Nat
  deriving DecidableEq, Repr

/-- The message that asks for the address of a name. -/
def MyDns.packet (domain : String) : DnsPacket :=
  { DnsPacket.new with
    header := { DnsHeader.new with id := 6666, questions := 1, recursionDesired := true }
    questions := [⟨domain, .a⟩] }

/-- Write the query, and bind a socket for it, of which comes `bound`. -/
def MyDns.prepareQuery (bound : Outcome Nat) (m : MyDns) : Outcome MyDns :=
  ((packet m.domain).write ⟨List.replicate 512 0, 0⟩).unwrap.bind fun written =>
    bound.bind fun udp =>
      .ok { m with udp := some udp, sendLen := written.2.pos, sendBuf := some written.2.buf }

/-! ## Room for a name -/

namespace BytePacketBuffer

theorem takes_write (val : UInt8) : Takes 512 (write val) 1 := by
  intro c hroom hlimit
  refine ⟨(), c.buf.set c.pos val, ?_, List.length_set⟩
  unfold write
  rw [if_neg (by omega), if_pos (by omega)]

theorem takes_writeU16 (val : UInt16) : Takes 512 (writeU16 val) 2 :=
  (takes_write _).bind fun _ => takes_write _

theorem returns_write (val : UInt8) : Returns 512 (write val) := by
  intro c hlimit
  unfold write
  by_cases hfar : 512 ≤ c.pos
  · rw [if_pos hfar]
    exact .inl ⟨_, rfl⟩
  · rw [if_neg hfar, if_pos (by omega)]
    exact .inr ⟨_, _, rfl, by rwa [List.length_set]⟩

theorem returns_writeU16 (val : UInt16) : Returns 512 (writeU16 val) :=
  (returns_write _).bind fun _ => returns_write _

section Labels

variable {l : String}

theorem takes_writeLabel (h : (utf8 l).length ≤ 52) :
    Takes 512 (writeLabel l) (1 + (utf8 l).length) := by
  have hbytes : Takes 512 (Reader.each writeU8 (utf8 l)) (((utf8 l).map fun _ => 1).sum) :=
    .each fun x _ => takes_write x
  have hsum : ((utf8 l).map fun _ => 1).sum = (utf8 l).length := by simp
  have hwrite : writeLabel l =
      writeU8 (UInt8.ofNat (utf8 l).length) >>= fun _ => Reader.each writeU8 (utf8 l) :=
    if_neg (Nat.not_lt_of_le h)
  rw [hwrite, ← hsum]
  exact (takes_write _).bind fun _ => hbytes

theorem fails_writeLabel (h : 52 < (utf8 l).length) : Fails 512 (writeLabel l) :=
  fun c _ => ⟨labelTooLong, congrFun (if_pos h) c⟩

theorem returns_writeLabel (l : String) : Returns 512 (writeLabel l) := by
  by_cases h : 52 < (utf8 l).length
  · exact (fails_writeLabel h).returns
  · have hwrite : writeLabel l =
        writeU8 (UInt8.ofNat (utf8 l).length) >>= fun _ => Reader.each writeU8 (utf8 l) :=
      if_neg h
    rw [hwrite]
    exact (returns_write _).bind fun _ => .each fun x _ => returns_write x

end Labels

/-! ## Names -/

theorem intercalate_splitLabels (name : String) : ".".intercalate (splitLabels name) = name := by
  have hid : (splitLabels name).map String.toList = name.toList.splitOn '.' := by
    unfold splitLabels
    rw [List.map_map]
    exact (List.map_congr_left fun l _ => String.toList_ofList).trans (List.map_id _)
  rw [← String.toList_inj, String.toList_intercalate, hid]
  exact List.intercalate_splitOn '.'

/-- With each label a length is written, and a dot is not. -/
theorem sum_labels {labels : List String} (hne : labels ≠ []) :
    (labels.map fun l => 1 + (utf8 l).length).sum =
      (utf8 (".".intercalate labels)).length + 1 := by
  induction labels with
  | nil => exact absurd rfl hne
  | cons l ls ih =>
      cases ls with
      | nil => simp [String.intercalate_singleton, Nat.add_comm]
      | cons l' ls =>
          have hdot : (utf8 ".").length = 1 := by decide +kernel
          rw [List.map_cons, List.sum_cons, ih (List.cons_ne_nil l' ls),
            String.intercalate_cons_cons, utf8_append, utf8_append, List.length_append,
            List.length_append, hdot]
          omega

theorem takes_writeQname {name : String} (h : ∀ l ∈ splitLabels name, (utf8 l).length ≤ 52) :
    Takes 512 (writeQname name) ((utf8 name).length + 1 + 1) := by
  have hne : splitLabels name ≠ [] := by
    unfold splitLabels
    exact fun hnil => List.splitOn_ne_nil '.' _ (List.map_eq_nil_iff.mp hnil)
  have hlabels : Takes 512 (Reader.each writeLabel (splitLabels name))
      ((splitLabels name).map fun l => 1 + (utf8 l).length).sum :=
    .each fun l hl => takes_writeLabel (h l hl)
  rw [sum_labels hne, intercalate_splitLabels] at hlabels
  exact hlabels.bind fun _ => takes_write 0

/-- A name with a label that is too long is not written. -/
theorem fails_writeQname {name l : String} (hl : l ∈ splitLabels name)
    (h : 52 < (utf8 l).length) : Fails 512 (writeQname name) :=
  (Fails.each hl (fun l _ => returns_writeLabel l) (fails_writeLabel h)).bind _

end BytePacketBuffer

/-! ## The query is written and read -/

/-- A name of a host: labels of up to 63 bytes that are not empty, of 253 bytes in all. -/
structure HostName (name : String) : Prop where
  labels : ∀ l ∈ splitLabels name, 0 < (utf8 l).length ∧ (utf8 l).length ≤ 63
  short : (utf8 name).length ≤ 253

namespace MyDns

section Packet

variable {name : String}

theorem takes_header (h : DnsHeader) : Takes 512 h.write 12 :=
  (takes_writeU16 h.id).bind fun _ => (takes_write _).bind fun _ => (takes_write _).bind fun _ =>
    (takes_writeU16 h.questions).bind fun _ => (takes_writeU16 h.answers).bind fun _ =>
      (takes_writeU16 h.authoritativeEntries).bind fun _ => takes_writeU16 h.resourceEntries

theorem returns_header (h : DnsHeader) : Returns 512 h.write :=
  (returns_writeU16 h.id).bind fun _ => (returns_write _).bind fun _ =>
    (returns_write _).bind fun _ => (returns_writeU16 h.questions).bind fun _ =>
      (returns_writeU16 h.answers).bind fun _ =>
        (returns_writeU16 h.authoritativeEntries).bind fun _ => returns_writeU16 h.resourceEntries

theorem takes_packet (h : ∀ l ∈ splitLabels name, (utf8 l).length ≤ 52) :
    Takes 512 (packet name).write (12 + ((utf8 name).length + 6)) := by
  have hquestion : Takes 512 (DnsQuestion.write ⟨name, .a⟩) ((utf8 name).length + 6) :=
    (takes_writeQname h).bind fun _ => (takes_writeU16 _).bind fun _ => takes_writeU16 1
  have hquestions : Takes 512 (Reader.each DnsQuestion.write (packet name).questions)
      ((utf8 name).length + 6) := hquestion.bind fun _ => .pure ()
  -- there are no records
  have hrest : Takes 512 (do
      Reader.each DnsRecord.write (packet name).answers
      Reader.each DnsRecord.write (packet name).authorities
      Reader.each DnsRecord.write (packet name).resources
      pure { packet name with header := (packet name).counted }) 0 :=
    (Takes.pure ()).bind fun _ => (Takes.pure ()).bind fun _ => (Takes.pure ()).bind fun _ =>
      .pure _
  exact (takes_header _).bind fun _ => hquestions.bind fun _ => hrest

theorem fails_packet {l : String} (hl : l ∈ splitLabels name) (h : 52 < (utf8 l).length) :
    Fails 512 (packet name).write :=
  (returns_header _).fails fun _ => (((fails_writeQname hl h).bind _).bind _).bind _

theorem inverts_packet (unicode : UnicodeLower) {fuel : Nat} (hfuel : 512 ≤ fuel)
    (h : ∀ l ∈ splitLabels name, ShortLabel l) :
    Inverts (packet name).write (DnsPacket.fromBuffer unicode fuel)
      { packet name with
        header := (packet name).counted
        questions := [⟨lowerName unicode name, .a⟩] } := by
  have hopcode : (packet name).counted.opcode ≤ 15 := show (0 : UInt8) ≤ 15 by decide
  have hquestion : Inverts (DnsQuestion.write ⟨name, .a⟩) (DnsQuestion.read unicode fuel)
      ⟨lowerName unicode name, .a⟩ :=
    (inverts_writeQname_of_short unicode hfuel h).bind fun _ =>
      (inverts_writeU16 1).bind fun _ => (inverts_writeU16 1).map rfl
  refine (DnsHeader.inverts_write hopcode).bind fun _ => ?_
  refine (hquestion.bind fun _ => (Inverts.pure () []).map rfl).bind fun _ => ?_
  exact (Inverts.pure () []).bind fun _ => (Inverts.pure () []).bind fun _ =>
    ((Inverts.pure () []).ret _).map rfl

end Packet

/-! ## What is asked -/

/-- The query is written into its buffer, so that the task that sends it does not end in a panic,
and the part of the buffer that is sent is read as one question for the name in lower case. -/
structure Asks (unicode : UnicodeLower) (fuel : Nat) (m : MyDns) : Prop where
  written : ∃ p c, (packet m.domain).write ⟨List.replicate 512 0, 0⟩ = .ok (p, c)
  no_panic : ∀ bound, bound ≠ .panic → m.prepareQuery bound ≠ .panic
  read : ∀ udp m', m.prepareQuery (.ok udp) = .ok m' → ∃ buf p,
    m'.sendBuf = some buf ∧ DnsPacket.fromBuffer unicode fuel ⟨buf.take m'.sendLen, 0⟩ =
      .ok (p, ⟨buf.take m'.sendLen, m'.sendLen⟩) ∧
    p.questions = [⟨lowerName unicode m.domain, .a⟩]

/-- What `prepareQuery` makes of what was written. -/
theorem prepareQuery_of_write {m : MyDns} {p : DnsPacket} {c : Cursor}
    (h : (packet m.domain).write ⟨List.replicate 512 0, 0⟩ = .ok (p, c)) (bound : Outcome Nat) :
    m.prepareQuery bound = bound.bind fun udp =>
      .ok { m with udp := some udp, sendLen := c.pos, sendBuf := some c.buf } := by
  rw [prepareQuery, h]
  rfl

/-- A name with short labels is asked for, if it fits in. -/
theorem asks_of_short (unicode : UnicodeLower) {fuel : Nat} (hfuel : 512 ≤ fuel) {m : MyDns}
    (hlength : (utf8 m.domain).length ≤ 253)
    (hshort : ∀ l ∈ splitLabels m.domain, ShortLabel l) : m.Asks unicode fuel := by
  have htakes := takes_packet fun l hl => (hshort l hl).2
  have hbuf : (List.replicate 512 (0 : UInt8)).length = 512 := List.length_replicate
  obtain ⟨p, b, hwrite, _⟩ := htakes ⟨List.replicate 512 0, 0⟩ (by dsimp only; omega)
    (Nat.le_of_eq hbuf.symm)
  refine ⟨⟨p, _, hwrite⟩, ?_, ?_⟩
  · intro bound hne
    rw [prepareQuery_of_write hwrite]
    cases bound with
    | panic => exact absurd rfl hne
    | ok udp => simp [Outcome.bind]
    | err e => simp [Outcome.bind]
    | hang => simp [Outcome.bind]
  · intro udp m' hm'
    rw [prepareQuery_of_write hwrite] at hm'
    cases hm'
    have hread := (inverts_packet unicode hfuel hshort).read hwrite (.take 0 _ b)
    exact ⟨b, _, rfl, hread, rfl⟩

/-- A name with a label that is too long ends the task that asks for it. -/
theorem prepareQuery_panics {m : MyDns} {l : String} (hl : l ∈ splitLabels m.domain)
    (h : 52 < (utf8 l).length) (bound : Outcome Nat) : m.prepareQuery bound = .panic := by
  obtain ⟨e, hwrite⟩ := fails_packet hl h ⟨List.replicate 512 0, 0⟩
    (Nat.le_of_eq List.length_replicate.symm)
  rw [prepareQuery, hwrite]
  rfl

/-- Of the names of hosts, those are asked for of which no label is longer than 52 bytes; and a
name with a label of more than 63 bytes is never written. -/
theorem asks_iff (unicode : UnicodeLower) {fuel : Nat} (hfuel : 512 ≤ fuel) :
    (∀ m : MyDns, HostName m.domain →
      (m.Asks unicode fuel ↔ ∀ l ∈ splitLabels m.domain, (utf8 l).length ≤ 52)) ∧
    ∀ (name l : String), l ∈ splitLabels name → 63 < (utf8 l).length →
      ∀ c : Cursor, 512 ≤ c.buf.length → ∃ e, writeQname name c = .err e := by
  refine ⟨?_, ?_⟩
  · intro m hname
    constructor
    · intro hasks l hl
      by_contra hlong
      exact hasks.no_panic (.ok 0) (by simp)
        (prepareQuery_panics hl (Nat.lt_of_not_le hlong) (.ok 0))
    · intro hshort
      exact asks_of_short unicode hfuel hname.short fun l hl =>
        ⟨(hname.labels l hl).1, hshort l hl⟩
  · intro name l hl hlong
    exact fails_writeQname hl (by omega)

/-- A name of a host with short labels. -/
theorem asks_example : (⟨"WWW.example", none, none, 0⟩ : MyDns).Asks (fun _ c _ => [c]) 512 :=
  ((asks_iff _ le_rfl).1 ⟨"WWW.example", none, none, 0⟩
    ⟨by decide +kernel, by decide +kernel⟩).mpr (by decide +kernel)

/-- A name of a host, with a label of 53 bytes. -/
def longLabel : String := String.ofList (List.replicate 53 'a') ++ ".example"

/-- Its label has the length of the labels that hosts have, and the task that asks for it
panics. -/
theorem longLabel_panics : HostName longLabel ∧
    (⟨longLabel, none, none, 0⟩ : MyDns).prepareQuery (.ok 3) = .panic ∧
    ¬ (⟨longLabel, none, none, 0⟩ : MyDns).Asks (fun _ c _ => [c]) 512 := by
  have hpanics : (⟨longLabel, none, none, 0⟩ : MyDns).prepareQuery (.ok 3) = .panic := by
    decide +kernel
  refine ⟨⟨by decide +kernel, by decide +kernel⟩, hpanics, ?_⟩
  intro hasks
  exact hasks.no_panic (.ok 3) (by simp) hpanics

end MyDns

end LproxyCv.Dns
