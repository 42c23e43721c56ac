import LproxyCv.Dns.Layout
import LproxyCv.Foundation.Run

set_option autoImplicit false

/-!
# Dns: the length that a record says it has

A record says how long its data are.  The parser reads the data of the types that it knows as
they come, and skips those of the others without asking whether they are there: it accepts
messages in which that length is not where the next record starts (`records_occupied_iff`).
-/

namespace LproxyCv.Dns

open LproxyCv.Foundation

/-! ## Records by their lengths -/

/-- The type of the record whose name ends at `n`. -/
def typeAt (b : Bytes) (n : Nat) : Nat := beNat ((b.drop n).take 2)

/-- How long the data are, as the record says whose name ends at `n`. -/
def lengthAt (b : Bytes) (n : Nat) : Nat := beNat ((b.drop (n + 8)).take 2)

/-- A record takes its name, ten bytes, and as many more as it says, all of which are there. -/
def Occupies (b : Bytes) (p q : Nat) : Prop :=
  ∃ n, NameEnds b p n ∧ q = n + 10 + lengthAt b n ∧ q ≤ b.length

/-- The length that a record says, whose name ends at `n`, is that of data of its type; where the
type is not known, so many bytes are there. -/
def LengthFits (b : Bytes) (n : Nat) : Prop :=
  if typeAt b n = 1 then lengthAt b n = 4
  else if typeAt b n = 28 then lengthAt b n = 16
  else if typeAt b n = 2 ∨ typeAt b n = 5 then NameEnds b (n + 10) (n + 10 + lengthAt b n)
  else if typeAt b n = 15 then NameEnds b (n + 12) (n + 10 + lengthAt b n)
  else n + 10 + lengthAt b n ≤ b.length

/-- What comes before the records of a message, and how many of them there are. -/
def opening (b : Bytes) : Layout Nat :=
  (header b).andThen fun n =>
    ((question b).times n.1).value fun _ => n.2.1 + (n.2.2.1 + n.2.2.2)

/-- If all records of the message are there for the parser, each says the length of its data. -/
def LengthsFit (b : Bytes) : Prop :=
  ∀ k start q, (opening b).ends 0 k start → ((record b).times k).ends start () q →
    ∀ i < k, ∀ p, ((record b).times i).ends start () p → ∀ n, NameEnds b p n → LengthFits b n

theorem opening_unique {b : Bytes} {k k' start start' : Nat} (h : (opening b).ends 0 k start)
    (h' : (opening b).ends 0 k' start') : k = k' ∧ start = start' := by
  obtain ⟨n, m, hheader, _, hquestions, rfl⟩ := h
  obtain ⟨n', m', hheader', _, hquestions', rfl⟩ := h'
  obtain ⟨rfl, rfl⟩ := (DnsHeader.follows_read b).unique hheader hheader'
  have hsame := ((DnsQuestion.follows_read (fun _ c _ => [c]) b).times n.1).unique hquestions
    hquestions'
  exact ⟨rfl, hsame.2⟩

/-! ## One record -/

theorem NameEnds.unique {b : Bytes} {p q q' : Nat} (h : NameEnds b p q) (h' : NameEnds b p q') :
    q = q' := by
  have hends : (name b).ends p () q := h
  have hends' : (name b).ends p () q' := h'
  exact ((BytePacketBuffer.follows_readQname (fun _ c _ => [c]) b "").unique hends hends').2

theorem NameEnds.le_length {b : Bytes} {p q : Nat} (h : NameEnds b p q) : q ≤ b.length := by
  induction h with
  | root h => exact (List.getElem?_eq_some_iff.mp h.2).1
  | pointer _ _ h _ _ => exact (List.getElem?_eq_some_iff.mp h.2).1
  | label _ _ _ _ _ _ ih => exact ih

/-- Where the name of a record ends, and what its data are. -/
theorem record_ends {b : Bytes} {p q : Nat} :
    (record b).ends p () q ↔ ∃ n, NameEnds b p n ∧ n + 10 ≤ 512 ∧ n + 10 ≤ b.length ∧
      (recordData b (typeAt b n) (lengthAt b n)).ends (n + 10) () q := by
  simp only [record, Layout.andThen, number, bytes_ends]
  constructor
  · rintro ⟨_, n, hname, _, _, ⟨rfl, _, _, rfl⟩, _, _, ⟨rfl, _, _, rfl⟩, _, _, ⟨rfl, _, _⟩, _, _,
      ⟨rfl, hfar, hin, rfl⟩, hdata⟩
    exact ⟨n, hname, hfar, hin, hdata⟩
  · rintro ⟨n, hname, hfar, hin, hdata⟩
    exact ⟨(), n, hname, _, n + 2, ⟨rfl, by omega, by omega, rfl⟩, _, n + 4,
      ⟨rfl, by omega, by omega, rfl⟩, (), n + 8, ⟨rfl, by omega, by omega⟩, _, n + 10,
      ⟨rfl, hfar, hin, rfl⟩, hdata⟩

/-- The data of a record end where it says exactly if it says their length, and they are there. -/
theorem data_occupied_iff {b : Bytes} {n q : Nat}
    (h : (recordData b (typeAt b n) (lengthAt b n)).ends (n + 10) () q) :
    q = n + 10 + lengthAt b n ∧ q ≤ b.length ↔ LengthFits b n := by
  have hname : ∀ {p}, NameEnds b p q →
      (q = n + 10 + lengthAt b n ∧ q ≤ b.length ↔ NameEnds b p (n + 10 + lengthAt b n)) := by
    intro p hends
    constructor
    · rintro ⟨rfl, _⟩
      exact hends
    · intro hsays
      exact ⟨hends.unique hsays, hends.le_length⟩
  unfold recordData at h
  unfold LengthFits
  split at h
  · rename_i htype
    rw [if_pos htype]
    obtain ⟨rfl, _, hin⟩ := bytes_ends.mp h
    omega
  · rename_i h₁
    rw [if_neg h₁]
    split at h
    · rename_i htype
      rw [if_pos htype]
      obtain ⟨rfl, _, hin⟩ := bytes_ends.mp h
      omega
    · rename_i h₂₈
      rw [if_neg h₂₈]
      split at h
      · rename_i htype
        rw [if_pos htype]
        exact hname h
      · rename_i hnot
        rw [if_neg hnot]
        split at h
        · rename_i htype
          rw [if_pos htype]
          obtain ⟨_, _, ⟨rfl, _⟩, hends⟩ := h
          exact hname hends
        · rename_i h₁₅
          rw [if_neg h₁₅]
          obtain rfl : q = n + 10 + lengthAt b n := h
          simp

/-- A record that is read takes what it says exactly if its length fits its type. -/
theorem occupies_iff {b : Bytes} {p q : Nat} (h : (record b).ends p () q) :
    Occupies b p q ↔ ∀ n, NameEnds b p n → LengthFits b n := by
  obtain ⟨n, hname, _, _, hdata⟩ := record_ends.mp h
  have honly : ∀ m, NameEnds b p m → m = n := fun m hm => hm.unique hname
  constructor
  · rintro ⟨m, hm, hq⟩ k hk
    obtain rfl := honly m hm
    obtain rfl := honly k hk
    exact (data_occupied_iff hdata).mp hq
  · intro hfits
    exact ⟨n, hname, (data_occupied_iff hdata).mpr (hfits n hname)⟩

/-! ## The records of a message -/

section Records

variable {unicode : UnicodeLower} {fuel : Nat} {b : Bytes} {start q : Nat} {rs : List DnsRecord}

/-- What the parser does with a record. -/
def Reads (unicode : UnicodeLower) (fuel : Nat) (b : Bytes) (p : Nat) (r : DnsRecord) (q : Nat) :
    Prop :=
  DnsRecord.read unicode fuel ⟨b, p⟩ = .ok (r, ⟨b, q⟩)

theorem Reads.ends {p q : Nat} {r : DnsRecord} (h : Reads unicode fuel b p r q) :
    (record b).ends p () q :=
  ((DnsRecord.follows_read unicode b).ok fuel p r _ h).2

theorem ends_of_run (hrun : Run (Reads unicode fuel b) start rs q) :
    ((record b).times rs.length).ends start () q := by
  induction hrun with
  | nil p => exact ⟨rfl, rfl⟩
  | cons hfirst _ ih => exact ⟨(), _, hfirst.ends, ih⟩

/-- The records that are read are those that lie one behind the other. -/
theorem run_fits_iff (hrun : Run (Reads unicode fuel b) start rs q) :
    (∀ i < rs.length, ∀ p, ((record b).times i).ends start () p →
      ∀ n, NameEnds b p n → LengthFits b n) ↔
      Run (Guarded (fun p _ => ∀ n, NameEnds b p n → LengthFits b n) (Reads unicode fuel b))
        start rs q := by
  induction hrun with
  | nil p => exact iff_of_true (by simp) (.nil p)
  | @cons p m t r rs hfirst _ ih =>
      constructor
      · intro hfits
        refine .cons ⟨hfits 0 (Nat.zero_lt_succ _) p ⟨rfl, rfl⟩, hfirst⟩ (ih.mp ?_)
        intro i hi p' hp'
        exact hfits (i + 1) (Nat.succ_lt_succ hi) p' ⟨(), m, hfirst.ends, hp'⟩
      · rintro (_ | ⟨⟨hguard, hread⟩, hrest⟩) i hi p' hp'
        rename_i m'
        -- the first record ends in one place
        obtain rfl : m = m' :=
          ((DnsRecord.follows_read unicode b).unique hfirst.ends hread.ends).2
        cases i with
        | zero =>
            obtain ⟨_, rfl⟩ := hp'
            exact hguard
        | succ i =>
            obtain ⟨_, m'', hends, hmore⟩ := hp'
            obtain rfl : m = m'' :=
              ((DnsRecord.follows_read unicode b).unique hfirst.ends hends).2
            exact ih.mpr hrest i (Nat.lt_of_succ_lt_succ hi) p' hmore

end Records

namespace DnsPacket

/-- The records of a message. -/
def records (p : DnsPacket) : List DnsRecord := p.answers ++ (p.authorities ++ p.resources)

/-- How a message was read: its header, its questions, and its records. -/
structure ReadAs (unicode : UnicodeLower) (fuel : Nat) (b : Bytes) (p : DnsPacket)
    (m start q : Nat) : Prop where
  header : DnsHeader.read ⟨b, 0⟩ = .ok (p.header, ⟨b, m⟩)
  questions : (DnsQuestion.read unicode fuel).times p.header.questions.toNat ⟨b, m⟩ =
    .ok (p.questions, ⟨b, start⟩)
  records : Run (Reads unicode fuel b) start p.records q
  count : p.records.length = p.header.answers.toNat +
    (p.header.authoritativeEntries.toNat + p.header.resourceEntries.toNat)

section Message

variable {unicode : UnicodeLower} {fuel : Nat} {b : Bytes} {p : DnsPacket} {c : Cursor}

theorem readAs_of_fromBuffer (h : fromBuffer unicode fuel ⟨b, 0⟩ = .ok (p, c)) :
    ∃ m start, p.ReadAs unicode fuel b m start c.pos := by
  have hrecord := DnsRecord.follows_read unicode b
  rw [fromBuffer] at h
  obtain ⟨header, m, hheader, _, h⟩ := (DnsHeader.follows_read b).bind_ok fuel h
  obtain ⟨questions, start, hquestions, _, h⟩ :=
    ((DnsQuestion.follows_read unicode b).times _).bind_ok fuel h
  obtain ⟨answers, q₁, hanswers, _, h⟩ := (hrecord.times _).bind_ok fuel h
  obtain ⟨authorities, q₂, hauthorities, _, h⟩ := (hrecord.times _).bind_ok fuel h
  obtain ⟨resources, c', hresources, h⟩ := Reader.bind_eq_ok_iff.mp h
  cases h
  obtain ⟨hlen, _, hrun⟩ := hrecord.run_of_times hanswers
  obtain ⟨hlen', _, hrun'⟩ := hrecord.run_of_times hauthorities
  obtain ⟨hlen'', _, hrun''⟩ := hrecord.run_of_times hresources
  refine ⟨m, start, hheader, hquestions, hrun.append (hrun'.append hrun''), ?_⟩
  simp only [records, List.length_append, hlen, hlen', hlen'']

/-- What comes before the records ends where they start. -/
theorem ReadAs.opening {m start q : Nat} (h : p.ReadAs unicode fuel b m start q) :
    (opening b).ends 0 p.records.length start := by
  have hheader := ((DnsHeader.follows_read b).ok fuel 0 _ _ h.header).2
  have hquestions := (((DnsQuestion.follows_read unicode b).times _).ok fuel m _ _ h.questions).2
  rw [h.count]
  exact ⟨_, m, hheader, (), hquestions, rfl⟩

/-- A message of which everything is there is read. -/
theorem fromBuffer_of_ends (unicode : UnicodeLower) {k start q : Nat}
    (hopening : (Dns.opening b).ends 0 k start)
    (hrecords : ((record b).times k).ends start () q) :
    ∃ fuel p, fromBuffer unicode fuel ⟨b, 0⟩ = .ok (p, ⟨b, q⟩) := by
  obtain ⟨n, m, hheader, _, hquestions, rfl⟩ := hopening
  obtain ⟨q₁, hanswers, hrest⟩ := Layout.times_add_ends.mp hrecords
  obtain ⟨q₂, hauthorities, hresources⟩ := Layout.times_add_ends.mp hrest
  have hmessage : (message b).ends 0 () q :=
    ⟨n, m, hheader, (), start, hquestions, (), q₁, hanswers, (), q₂, hauthorities, hresources⟩
  obtain ⟨fuel, p, hread, _⟩ := (follows_fromBuffer unicode b).ends 0 () q hmessage
  exact ⟨fuel, p, hread⟩

end Message

/-- The records of a message, each of which starts where the one before it ends, take what they
say: their names, ten bytes, and their data, all of which are there. -/
def Occupied (unicode : UnicodeLower) (fuel : Nat) (b : Bytes) (p : DnsPacket) (q : Nat) : Prop :=
  ∃ m start, p.ReadAs unicode fuel b m start q ∧
    Run (fun p r q => Reads unicode fuel b p r q ∧ Occupies b p q) start p.records q

/-- A reply of one record of type A, which says that it has no data; four bytes stand behind
it. -/
def emptyAddress : Bytes :=
  [0, 1, 0x81, 0x80, 0, 0, 0, 1, 0, 0, 0, 0, 0, 0, 1, 0, 1, 0, 0, 0, 60, 0, 0, 10, 0, 0, 1]

end DnsPacket

end LproxyCv.Dns
