import LproxyCv.Dns.RoundTrip

set_option autoImplicit false

/-!
# Dns: records that are left out

The parser keeps a record of a type it does not know, and the writer leaves it out, when the
header with the number of records is written.  What is read of such a message depends on how
many records of a section were left out (`encodes_what_it_counts_iff`).
-/

namespace LproxyCv.Dns

open LproxyCv.Foundation BytePacketBuffer

/-! ## What is written -/

/-- A record of a type that the writer knows. -/
def DnsRecord.known : DnsRecord → Bool
  | .unknown _ _ _ _ => false
  | _ => true

/-- The names in a record are plain, if they are written. -/
def DnsRecord.Named (r : DnsRecord) : Prop := r.known = true → r.Plain

/-- The names in a message are plain, where they are written. -/
structure DnsPacket.Named (p : DnsPacket) : Prop where
  questions : ∀ q ∈ p.questions, PlainName q.name
  answers : ∀ r ∈ p.answers, r.Named
  authorities : ∀ r ∈ p.authorities, r.Named
  resources : ∀ r ∈ p.resources, r.Named

/-- A question as it is read again: a type with a number of its own gets the name of it. -/
def DnsQuestion.reread (q : DnsQuestion) : DnsQuestion :=
  ⟨q.name, QueryType.fromNum q.qtype.toNum⟩

theorem DnsQuestion.inverts_reread (unicode : UnicodeLower) {fuel : Nat} (hfuel : 512 ≤ fuel)
    {q : DnsQuestion} (h : PlainName q.name) :
    Inverts q.write (DnsQuestion.read unicode fuel) q.reread :=
  (inverts_writeQname unicode hfuel h).bind fun _ =>
    (inverts_writeU16 q.qtype.toNum).bind fun _ => (inverts_writeU16 1).map rfl

/-- Whatever its flags, a header is read with its numbers. -/
theorem DnsHeader.inverts_numbers (h : DnsHeader) : ∃ h' : DnsHeader,
    Inverts h.write DnsHeader.read h' ∧ h'.questions = h.questions ∧ h'.answers = h.answers ∧
      h'.authoritativeEntries = h.authoritativeEntries ∧
        h'.resourceEntries = h.resourceEntries := by
  refine ⟨_, (inverts_writeU16 h.id).bind fun _ => (inverts_word _ _).pair
    ((inverts_writeU16 h.questions).bind fun _ => (inverts_writeU16 h.answers).bind fun _ =>
      (inverts_writeU16 h.authoritativeEntries).bind fun _ =>
        (inverts_writeU16 h.resourceEntries).map rfl), ?_⟩
  exact ⟨rfl, rfl, rfl, rfl⟩

namespace DnsRecord

/-- Nothing is written of a record of an unknown type. -/
theorem inverts_unknown {r : DnsRecord} (h : r.known = false) :
    Inverts r.write (pure ()) () := by
  cases r with
  | unknown domain qtype dataLen ttl =>
      unfold write
      exact inverts_getPos fun startPos => inverts_getPos fun pos => .pure _ ()
  | a => cases h
  | ns => cases h
  | cname => cases h
  | mx => cases h
  | aaaa => cases h

/-- A section of a message is read without the records that are left out. -/
theorem inverts_each (unicode : UnicodeLower) {fuel : Nat} (hfuel : 512 ≤ fuel)
    {l : List DnsRecord} (h : ∀ r ∈ l, r.Named) :
    Inverts (Reader.each write l) ((read unicode fuel).times (l.filter known).length)
      (l.filter known) := by
  rw [← List.filterMap_eq_filter]
  refine .each_filterMap ?_ ?_
  · intro r hr v hv
    obtain ⟨rfl, hknown⟩ := Option.guard_eq_some_iff.mp hv
    exact inverts_write unicode hfuel (h r hr hknown)
  · intro r hr hnone
    exact inverts_unknown (Option.guard_eq_none_iff.mp hnone)

/-- Something is written exactly of the records of the types that are known. -/
theorem write_moves_iff {r : DnsRecord} (h : r.Named) {c c' : Cursor} {n : Nat}
    (hwrite : r.write c = .ok (n, c')) : c.pos < c'.pos ↔ r.known = true := by
  cases hknown : r.known with
  | false =>
      have hread := (inverts_unknown hknown).read hwrite (.refl _ _ _)
      have hpos : c.pos = c'.pos := congrArg (fun r => r.2.pos) (Outcome.ok.inj hread)
      simp [hpos]
  | true =>
      have hread := (inverts_write (fun _ c _ => [c]) le_rfl (h hknown)).read hwrite (.refl _ _ _)
      obtain ⟨_, hends⟩ := (follows_read _ c'.buf).ok 512 c.pos r _ hread
      simpa using (record_advances c'.buf _ _ _ hends).2

/-- How many records of a section the writer leaves out. -/
def skipped (l : List DnsRecord) : Nat := (l.filter fun r => !r.known).length

/-- The number of a section is that of the records that are written, of which there are not
many, if those that are left out fill whole rounds of the counter. -/
theorem number_eq_iff {l : List DnsRecord} (hfew : (l.filter known).length ≤ 512) :
    (UInt16.ofNat l.length).toNat = (l.filter known).length ↔ 65536 ∣ skipped l := by
  have hlength : l.length = (l.filter known).length + skipped l :=
    List.length_eq_length_filter_add known
  rw [UInt16.toNat_ofNat']
  omega

end DnsRecord

/-! ## How many fit in -/

/-- Parts that take something are few where they are read. -/
theorem few_of_follows {α : Type} {x : Nat → Reader α} {l : Layout Unit} {b : Bytes}
    (hx : Follows b x l fun _ => ()) (hl : l.Advances 512) {fuel n p : Nat}
    {as : List α} {c : Cursor} (h : (x fuel).times n ⟨b, p⟩ = .ok (as, c)) : n ≤ 512 := by
  obtain ⟨_, hends⟩ := (hx.times n).ok fuel p as c h
  have hroom := hl.times hends
  omega

namespace DnsPacket

/-- The sections of a message. -/
def sections (p : DnsPacket) : List (List DnsRecord) := [p.answers, p.authorities, p.resources]

/-- The writer has gone through the header, the questions and the sections. -/
theorem write_ok {p p' : DnsPacket} {c c' : Cursor} (h : p.write c = .ok (p', c')) :
    ∃ c₁ c₂ c₃ c₄, p.counted.write c = .ok ((), c₁) ∧
      Reader.each DnsQuestion.write p.questions c₁ = .ok ((), c₂) ∧
      Reader.each DnsRecord.write p.answers c₂ = .ok ((), c₃) ∧
      Reader.each DnsRecord.write p.authorities c₃ = .ok ((), c₄) ∧
      Reader.each DnsRecord.write p.resources c₄ = .ok ((), c') := by
  rw [write] at h
  obtain ⟨_, c₁, hheader, h⟩ := Reader.bind_eq_ok_iff.mp h
  obtain ⟨_, c₂, hquestions, h⟩ := Reader.bind_eq_ok_iff.mp h
  obtain ⟨_, c₃, hanswers, h⟩ := Reader.bind_eq_ok_iff.mp h
  obtain ⟨_, c₄, hauthorities, h⟩ := Reader.bind_eq_ok_iff.mp h
  obtain ⟨_, c₅, hresources, h⟩ := Reader.bind_eq_ok_iff.mp h
  cases h
  exact ⟨c₁, c₂, c₃, c₄, hheader, hquestions, hanswers, hauthorities, hresources⟩

theorem inverts_questions (unicode : UnicodeLower) {fuel : Nat} (hfuel : 512 ≤ fuel)
    {p : DnsPacket} (h : p.Named) :
    Inverts (Reader.each DnsQuestion.write p.questions)
      ((DnsQuestion.read unicode fuel).times p.questions.length)
      (p.questions.map DnsQuestion.reread) := by
  have hsome : ∀ q ∈ p.questions, ∀ v, (some ∘ DnsQuestion.reread) q = some v →
      Inverts q.write (DnsQuestion.read unicode fuel) v := by
    rintro q hq v ⟨⟩
    exact DnsQuestion.inverts_reread unicode hfuel (h.questions q hq)
  have hnone : ∀ q ∈ p.questions, (some ∘ DnsQuestion.reread) q = none →
      Inverts q.write (pure ()) () := by
    rintro q _ ⟨⟩
  have hall := Inverts.each_filterMap hsome hnone
  rwa [List.filterMap_eq_map, List.length_map] at hall

section Written

variable {p p' : DnsPacket} {c c' : Cursor}

/-- There are few questions, and few records that are not left out. -/
theorem few_of_write (h : p.Named) (hwrite : p.write c = .ok (p', c')) :
    p.questions.length ≤ 512 ∧ ∀ l ∈ p.sections, (l.filter DnsRecord.known).length ≤ 512 := by
  -- any reader will do
  let unicode : UnicodeLower := fun _ c _ => [c]
  obtain ⟨c₁, c₂, c₃, c₄, _, hquestions, hanswers, hauthorities, hresources⟩ := write_ok hwrite
  have hsection : ∀ {l : List DnsRecord} {m m' : Cursor}, (∀ r ∈ l, r.Named) →
      Reader.each DnsRecord.write l m = .ok ((), m') →
        (l.filter DnsRecord.known).length ≤ 512 := by
    intro l m m' hnamed hw
    exact few_of_follows (DnsRecord.follows_read unicode m'.buf) (record_advances m'.buf)
      ((DnsRecord.inverts_each unicode le_rfl hnamed).read hw (.refl _ _ _))
  refine ⟨few_of_follows (DnsQuestion.follows_read unicode c₂.buf) (question_advances c₂.buf)
    ((inverts_questions unicode le_rfl h).read hquestions (.refl _ _ _)), ?_⟩
  intro l hl
  simp only [sections, List.mem_cons, List.not_mem_nil, or_false] at hl
  rcases hl with rfl | rfl | rfl
  · exact hsection h.answers hanswers
  · exact hsection h.authorities hauthorities
  · exact hsection h.resources hresources

/-- The header stays as it was written. -/
theorem header_of_write (h : p.Named) (hwrite : p.write c = .ok (p', c')) {b : Bytes}
    (hagree : Agree c.pos c'.pos c'.buf b) :
    ∃ h' m, DnsHeader.read ⟨b, c.pos⟩ = .ok (h', m) ∧
      h'.questions = p.counted.questions ∧ h'.answers = p.counted.answers ∧
      h'.authoritativeEntries = p.counted.authoritativeEntries ∧
      h'.resourceEntries = p.counted.resourceEntries := by
  let unicode : UnicodeLower := fun _ c _ => [c]
  obtain ⟨c₁, c₂, c₃, c₄, hheader, hquestions, hanswers, hauthorities, hresources⟩ :=
    write_ok hwrite
  obtain ⟨h', hinverts, hnumbers⟩ := p.counted.inverts_numbers
  have hrest : Written c₁ c' :=
    ((((inverts_questions unicode le_rfl h).written hquestions).trans
      ((DnsRecord.inverts_each unicode le_rfl h.answers).written hanswers)).trans
      ((DnsRecord.inverts_each unicode le_rfl h.authorities).written hauthorities)).trans
      ((DnsRecord.inverts_each unicode le_rfl h.resources).written hresources)
  have hbefore : Agree c.pos c₁.pos c₁.buf b :=
    (hrest.before.mono (Nat.zero_le _) le_rfl).trans (hagree.mono le_rfl hrest.le)
  exact ⟨h', _, hinverts.read hheader hbefore, hnumbers⟩

end Written

/-! ## What is read again -/

/-- The numbers of a message are those of its questions and of the records of each section that
are written. -/
structure NumbersWritten (p : DnsPacket) (h : DnsHeader) : Prop where
  questions : h.questions.toNat = p.questions.length
  answers : h.answers.toNat = (p.answers.filter DnsRecord.known).length
  authorities : h.authoritativeEntries.toNat = (p.authorities.filter DnsRecord.known).length
  resources : h.resourceEntries.toNat = (p.resources.filter DnsRecord.known).length

/-- With these numbers, what is read are the questions and the records that were written. -/
theorem inverts_known (unicode : UnicodeLower) {fuel : Nat} (hfuel : 512 ≤ fuel) {p : DnsPacket}
    (h : p.Named) (hnumbers : p.NumbersWritten p.counted) : ∃ h' : DnsHeader,
    Inverts p.write (fromBuffer unicode fuel)
      { header := h'
        questions := p.questions.map DnsQuestion.reread
        answers := p.answers.filter DnsRecord.known
        authorities := p.authorities.filter DnsRecord.known
        resources := p.resources.filter DnsRecord.known } := by
  obtain ⟨h', hinverts, hquestions, hanswers, hauthorities, hresources⟩ :=
    p.counted.inverts_numbers
  refine ⟨h', hinverts.bind fun _ => ?_⟩
  rw [hquestions, hanswers, hauthorities, hresources, hnumbers.questions, hnumbers.answers,
    hnumbers.authorities, hnumbers.resources]
  refine (inverts_questions unicode hfuel h).bind fun _ => ?_
  refine (DnsRecord.inverts_each unicode hfuel h.answers).bind fun _ => ?_
  refine (DnsRecord.inverts_each unicode hfuel h.authorities).bind fun _ => ?_
  exact ((DnsRecord.inverts_each unicode hfuel h.resources).ret _).map rfl

/-- What was written up to `q` says how many questions and records it has, and those are read
from it, wherever the buffer ends behind it. -/
structure WrittenWhole (unicode : UnicodeLower) (fuel : Nat) (p : DnsPacket) (b' : Bytes)
    (q : Nat) : Prop where
  numbers : ∃ h c, DnsHeader.read ⟨b', 0⟩ = .ok (h, c) ∧ p.NumbersWritten h
  read : ∀ b, Agree 0 q b' b → ∃ p', fromBuffer unicode fuel ⟨b, 0⟩ = .ok (p', ⟨b, q⟩) ∧
    p'.questions = p.questions.map DnsQuestion.reread ∧
    p'.answers = p.answers.filter DnsRecord.known ∧
    p'.authorities = p.authorities.filter DnsRecord.known ∧
    p'.resources = p.resources.filter DnsRecord.known

/-- The numbers in the header are those of what is written exactly if the records that are
left out of each section fill whole rounds of its counter. -/
theorem numbersWritten_iff {p p' : DnsPacket} {c c' : Cursor} (h : p.Named)
    (hwrite : p.write c = .ok (p', c')) :
    p.NumbersWritten p.counted ↔ ∀ l ∈ p.sections, 65536 ∣ DnsRecord.skipped l := by
  obtain ⟨hquestions, hfew⟩ := few_of_write h hwrite
  have hsection : ∀ l ∈ p.sections, (UInt16.ofNat l.length).toNat =
      (l.filter DnsRecord.known).length ↔ 65536 ∣ DnsRecord.skipped l :=
    fun l hl => DnsRecord.number_eq_iff (hfew l hl)
  have hall : ∀ l ∈ p.sections, l = p.answers ∨ l = p.authorities ∨ l = p.resources := by
    simp only [sections, List.mem_cons, List.not_mem_nil, or_false, imp_self, implies_true]
  have hanswers : p.answers ∈ p.sections := by simp [sections]
  have hauthorities : p.authorities ∈ p.sections := by simp [sections]
  have hresources : p.resources ∈ p.sections := by simp [sections]
  constructor
  · intro hnumbers l hl
    refine (hsection l hl).mp ?_
    rcases hall l hl with rfl | rfl | rfl
    · exact hnumbers.answers
    · exact hnumbers.authorities
    · exact hnumbers.resources
  · intro hskipped
    exact
      { questions := UInt16.toNat_ofNat_of_lt' (Nat.lt_of_le_of_lt hquestions (by decide))
        answers := (hsection _ hanswers).mpr (hskipped _ hanswers)
        authorities := (hsection _ hauthorities).mpr (hskipped _ hauthorities)
        resources := (hsection _ hresources).mpr (hskipped _ hresources) }

/-- A message is written with the numbers of what is in it, and read again without the records
that are left out, exactly if those fill whole rounds of the counter in each section: else the
header announces records that are not there. -/
theorem written_whole_iff (unicode : UnicodeLower) {fuel : Nat} (hfuel : 512 ≤ fuel)
    {p p' : DnsPacket} {b b' : Bytes} {q : Nat} (h : p.Named)
    (hwrite : p.write ⟨b, 0⟩ = .ok (p', ⟨b', q⟩)) :
    p.WrittenWhole unicode fuel b' q ↔ ∀ l ∈ p.sections, 65536 ∣ DnsRecord.skipped l := by
  obtain ⟨h', m, hread, hquestions, hanswers, hauthorities, hresources⟩ :=
    header_of_write h hwrite (.refl 0 q b')
  have hsame : p.NumbersWritten h' ↔ p.NumbersWritten p.counted := by
    constructor
    · rintro ⟨hq, ha, hn, hr⟩
      exact ⟨hquestions ▸ hq, hanswers ▸ ha, hauthorities ▸ hn, hresources ▸ hr⟩
    · rintro ⟨hq, ha, hn, hr⟩
      exact ⟨hquestions ▸ hq, hanswers ▸ ha, hauthorities ▸ hn, hresources ▸ hr⟩
  rw [← numbersWritten_iff h hwrite, ← hsame]
  constructor
  · intro hwhole
    obtain ⟨h'', m', hread', hnumbers⟩ := hwhole.numbers
    cases hread.symm.trans hread'
    exact hnumbers
  · intro hnumbers
    obtain ⟨_, hinverts⟩ := inverts_known unicode hfuel h (hsame.mp hnumbers)
    refine ⟨⟨h', m, hread, hnumbers⟩, ?_⟩
    intro d hagree
    exact ⟨_, hinverts.read hwrite hagree, rfl, rfl, rfl, rfl⟩

/-- A message with a record of each kind that is known. -/
theorem written_whole_sampleReply : ∃ b' q,
    (sampleReply.write ⟨List.replicate 512 0, 0⟩).bind (fun r => .ok r.2) = .ok ⟨b', q⟩ ∧
      (sampleReply.WrittenWhole (fun _ c _ => [c]) 512 b' q ↔
        ∀ l ∈ sampleReply.sections, 65536 ∣ DnsRecord.skipped l) := by
  have hnamed : sampleReply.Named :=
    { questions := fun q hq => (sampleReply_plain.questions q hq).name
      answers := fun r hr _ => sampleReply_plain.answers r hr
      authorities := fun r hr _ => sampleReply_plain.authorities r hr
      resources := fun r hr _ => sampleReply_plain.resources r hr }
  have hwrite : (sampleReply.write ⟨List.replicate 512 0, 0⟩).bind (fun r => .ok r.2.pos) =
      .ok 192 := by decide +kernel
  obtain ⟨⟨p', b', q⟩, hw, _⟩ := Outcome.bind_eq_ok_iff.mp hwrite
  exact ⟨b', q, by rw [hw]; rfl, written_whole_iff _ le_rfl hnamed hw⟩

/-- A query of a client that takes long answers: a question, and a record of type OPT. -/
def ednsQuery : DnsPacket where
  header := sampleReply.header
  questions := [⟨"a.example", .a⟩]
  answers := []
  authorities := []
  resources := [.unknown "" 41 0 0]

/-- What is written of it: the header announces a record that is not there. -/
def ednsWritten : Bytes :=
  [0x12, 0x34, 0x95, 0xA5, 0, 1, 0, 0, 0, 0, 0, 1, 1, 0x61, 7, 0x65, 0x78, 0x61, 0x6D, 0x70, 0x6C,
    0x65, 0, 0, 1, 0, 1]

/-- The parser goes behind the end of what was written for the record that was left out. -/
theorem ednsQuery_announces_skipped : ednsQuery.Named ∧
    (ednsQuery.write ⟨List.replicate 512 0, 0⟩).bind (fun r => .ok r.2) =
      .ok ⟨ednsWritten ++ List.replicate 485 0, 27⟩ ∧
    ¬ ednsQuery.WrittenWhole (fun _ c _ => [c]) 512 (ednsWritten ++ List.replicate 485 0) 27 ∧
    fromBuffer (fun _ c _ => [c]) 512 ⟨ednsWritten, 0⟩ = .panic := by
  refine ⟨?_, by decide +kernel, ?_, by decide +kernel⟩
  · refine ⟨?_, by rintro r ⟨⟩, by rintro r ⟨⟩, ?_⟩
    · rintro q (_ | ⟨_, ⟨⟩⟩)
      exact ⟨["a", "example"], by decide +kernel⟩
    · rintro r (_ | ⟨_, ⟨⟩⟩) hknown
      cases hknown
  · rintro ⟨⟨h, m, hread, hnumbers⟩, _⟩
    have hone : (DnsHeader.read ⟨ednsWritten ++ List.replicate 485 0, 0⟩).bind
        (fun r => .ok r.1.resourceEntries.toNat) = .ok 1 := by decide +kernel
    rw [hread, Outcome.bind] at hone
    exact absurd (hnumbers.resources.symm.trans (Outcome.ok.inj hone)) (by decide)

end DnsPacket

end LproxyCv.Dns
