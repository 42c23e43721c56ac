import LproxyCv.Dns.Layout
import LproxyCv.Foundation.Endless

set_option autoImplicit false

/-!
# Dns: names without an end

The pointers of a message can send the parser round: a pointer to itself, or back into
the labels in front of it.  The parser goes on for ever exactly when a name that it comes
to goes round (`parser_ends_iff`).
-/

namespace LproxyCv.Dns

open LproxyCv.Foundation Layout

/-- From a label to what is behind it, or from a pointer to where it leads. -/
inductive Hop (b : Bytes) : Nat → Nat → Prop where
  | pointer {p : Nat} {x y : UInt8} : ByteAt b p x → IsPointer x → ByteAt b (p + 1) y →
      Hop b p (pointerTo x y)
  | label {p : Nat} {x : UInt8} : ByteAt b p x → ¬ IsPointer x → x ≠ 0 →
      p + 1 + x.toNat < 512 → p + 1 + x.toNat ≤ b.length → Hop b p (p + 1 + x.toNat)

/-- A question whose name goes round. -/
def questionEndless (b : Bytes) : Nat → Prop :=
  (name b).thenEndless (Circular (Hop b)) fun _ => never

/-- What a record of a type says goes round. -/
def recordDataEndless (b : Bytes) (qtype : Nat) : Nat → Prop :=
  if qtype = 1 then never
  else if qtype = 28 then never
  else if qtype = 2 ∨ qtype = 5 then Circular (Hop b)
  else if qtype = 15 then (number b 2).thenEndless never fun _ => Circular (Hop b)
  else never

/-- A record whose name or data goes round. -/
def recordEndless (b : Bytes) : Nat → Prop :=
  (name b).thenEndless (Circular (Hop b)) fun _ => (number b 2).thenEndless never fun qtype =>
    (number b 2).thenEndless never fun _ => (bytes b 4).thenEndless never fun _ =>
      (number b 2).thenEndless never fun _ => recordDataEndless b qtype

/-- A message with a question or a record that goes round, behind others that end. -/
def messageEndless (b : Bytes) : Nat → Prop :=
  (header b).thenEndless never fun n =>
    ((question b).times n.1).thenEndless ((question b).timesEndless (questionEndless b) n.1)
      fun _ => ((record b).times n.2.1).thenEndless
        ((record b).timesEndless (recordEndless b) n.2.1) fun _ =>
          ((record b).times n.2.2.1).thenEndless
            ((record b).timesEndless (recordEndless b) n.2.2.1) fun _ =>
              (record b).timesEndless (recordEndless b) n.2.2.2

/-- A message sends the parser round. -/
def GoesRound (b : Bytes) : Prop := messageEndless b 0

/-! ## The loop over labels -/

theorem hop_finite (b : Bytes) : {p | ∃ q, Hop b p q}.Finite := by
  refine (Set.finite_lt_nat 512).subset ?_
  rintro p ⟨q, h⟩
  cases h with
  | pointer h _ _ => exact h.1
  | label h _ _ _ _ => exact h.1

namespace BytePacketBuffer

/-- Where the labels and pointers come to an end, so does the loop. -/
theorem readLabels_ne_hang (unicode : UnicodeLower) {b : Bytes} {pos : Nat}
    (h : Acc (fun q p => Hop b p q) pos) :
    ∀ (jumped : Bool) (delim outstr : String) (p : Nat),
      ∃ fuel, readLabels unicode fuel pos jumped delim outstr ⟨b, p⟩ ≠ .hang := by
  induction h with
  | intro pos _ ih =>
      intro jumped delim outstr p
      cases found b pos with
      | far h => exact ⟨1, by simp [readLabels_far h]⟩
      | beyond h => exact ⟨1, by simp [readLabels_beyond h]⟩
      | root h => exact ⟨1, by simp [readLabels_root h]⟩
      | pointerFar x h hx hfar => exact ⟨1, by simp [readLabels_pointerFar h hx hfar]⟩
      | pointerBeyond x h hx hbeyond =>
          exact ⟨1, by simp [readLabels_pointerBeyond h hx hbeyond]⟩
      | pointer x y h hx hy =>
          obtain ⟨fuel, hfuel⟩ := ih _ (.pointer h hx hy) true delim outstr (after jumped p (pos + 2))
          exact ⟨fuel + 1, by rwa [readLabels_pointer h hx hy]⟩
      | textFar x h hx hzero hfar => exact ⟨1, by simp [readLabels_textFar h hx hzero hfar]⟩
      | text x h hx hzero hnear hcut =>
          exact ⟨1, by simp [readLabels_text h hx hzero hnear hcut]⟩
      | label x h hx hzero hnear hin =>
          obtain ⟨fuel, hfuel⟩ := ih _ (.label h hx hzero hnear hin) jumped "." _ p
          exact ⟨fuel + 1, by rwa [readLabels_label h hx hzero hnear hin]⟩

/-- Where they go round, no number of iterations is enough. -/
theorem readLabels_hang (unicode : UnicodeLower) {b : Bytes} :
    ∀ (fuel : Nat) {pos : Nat}, Circular (Hop b) pos →
      ∀ (jumped : Bool) (delim outstr : String) (p : Nat),
        readLabels unicode fuel pos jumped delim outstr ⟨b, p⟩ = .hang := by
  intro fuel
  induction fuel with
  | zero =>
      intro pos _ jumped delim outstr p
      rfl
  | succ fuel ih =>
      intro pos h jumped delim outstr p
      obtain ⟨q, hhop, hround⟩ := h.step (hop_finite b)
      cases hhop with
      | pointer h hx hy =>
          rw [readLabels_pointer h hx hy]
          exact ih hround _ _ _ _
      | label h hx hzero hnear hin =>
          rw [readLabels_label h hx hzero hnear hin]
          exact ih hround _ _ _ _

theorem hangs_readQname (unicode : UnicodeLower) (b : Bytes) (outstr : String) :
    Hangs b (fun fuel => readQname unicode fuel outstr) (Circular (Hop b)) where
  mono := (follows_readQname unicode b outstr).mono
  hang p := by
    constructor
    · intro hhang
      by_contra hround
      have hacc := (acc_iff_not_circular (hop_finite b) p).mpr hround
      obtain ⟨fuel, hne⟩ := readLabels_ne_hang unicode hacc false "" outstr p
      exact hne (hhang fuel)
    · intro hround fuel
      exact readLabels_hang unicode fuel hround false "" outstr p

theorem steady_read : Steady read := by
  intro c
  unfold read
  split
  · simp
  · split <;> simp

theorem steady_readU16 : Steady readU16 :=
  steady_read.bind fun _ => steady_read.bind fun _ => steady_pure _

theorem steady_readU32 : Steady readU32 :=
  steady_read.bind fun _ => steady_read.bind fun _ => steady_read.bind fun _ =>
    steady_read.bind fun _ => steady_pure _

end BytePacketBuffer

open BytePacketBuffer

/-! ## The reader of messages -/

theorem DnsHeader.steady_read : Steady DnsHeader.read := by
  have hword := steady_readU16
  exact hword.bind fun _ => hword.bind fun _ => hword.bind fun _ => hword.bind fun _ =>
    hword.bind fun _ => hword.bind fun _ => steady_pure _

theorem DnsQuestion.hangs_read (unicode : UnicodeLower) (b : Bytes) :
    Hangs b (DnsQuestion.read unicode) (questionEndless b) := by
  refine .seq (follows_readQname unicode b "") (hangs_readQname unicode b "") fun name => ?_
  exact .of_steady (steady_readU16.bind fun _ => steady_readU16.bind fun _ => steady_pure _)

theorem DnsRecord.steady_aaaa (domain : String) (ttl : UInt32) (fuel : Nat) (unicode : UnicodeLower)
    (qtypeNum dataLen : UInt16) :
    Steady (DnsRecord.readData unicode fuel domain qtypeNum ttl dataLen .aaaa) := by
  have hquad := steady_readU32
  exact hquad.bind fun _ => hquad.bind fun _ => hquad.bind fun _ => hquad.bind fun _ =>
    steady_pure _

theorem DnsRecord.hangs_readData (unicode : UnicodeLower) (b : Bytes) (domain : String)
    (qtypeNum : UInt16) (ttl : UInt32) (dataLen : UInt16) :
    Hangs b (fun fuel => DnsRecord.readData unicode fuel domain qtypeNum ttl dataLen
      (QueryType.fromNum qtypeNum)) (recordDataEndless b qtypeNum.toNat) := by
  have hname : ∀ g : String → DnsRecord, Hangs b
      (fun fuel => readQname unicode fuel "" >>= fun s => pure (g s)) (Circular (Hop b)) :=
    (hangs_readQname unicode b "").map (follows_readQname unicode b "").keeps
  have hquad := steady_readU32
  unfold recordDataEndless
  rcases queryType_fromNum qtypeNum with ⟨heq, hnum⟩ | ⟨heq, hnum⟩ | ⟨heq, hnum⟩ | ⟨heq, hnum⟩ |
    ⟨heq, hnum⟩ | ⟨heq, hnum⟩
  · rw [heq, hnum]
    have ha : Steady (DnsRecord.readData unicode 0 domain qtypeNum ttl dataLen .a) :=
      hquad.bind fun _ => steady_pure _
    exact .of_steady ha
  · rw [heq, hnum]
    exact hname _
  · rw [heq, hnum]
    exact hname _
  · rw [heq, hnum]
    exact .seq (follows_readU16 b) (.of_steady steady_readU16) fun _ => hname _
  · rw [heq, hnum]
    exact .of_steady (DnsRecord.steady_aaaa domain ttl 0 unicode qtypeNum dataLen)
  · rw [heq, if_neg (hnum 1 (by decide)), if_neg (hnum 28 (by decide)),
      if_neg (fun h => h.elim (hnum 2 (by decide)) (hnum 5 (by decide))),
      if_neg (hnum 15 (by decide))]
    have hskip : Steady (DnsRecord.readData unicode 0 domain qtypeNum ttl dataLen
        (.unknown qtypeNum)) :=
      Steady.bind (fun _ => by simp [step]) fun _ => steady_pure _
    exact .of_steady hskip

theorem DnsRecord.hangs_read (unicode : UnicodeLower) (b : Bytes) :
    Hangs b (DnsRecord.read unicode) (recordEndless b) := by
  have hword := follows_readU16 b
  have hsteady : Hangs b (fun _ => readU16) never := .of_steady steady_readU16
  refine .seq (follows_readQname unicode b "") (hangs_readQname unicode b "") fun domain => ?_
  refine .bind hword hsteady fun qtypeNum => .seq hword hsteady fun _ => ?_
  refine .seq (follows_readU32 b) (.of_steady steady_readU32) fun ttl => ?_
  exact .seq hword hsteady fun dataLen => hangs_readData unicode b domain qtypeNum ttl dataLen

theorem DnsPacket.hangs_fromBuffer (unicode : UnicodeLower) (b : Bytes) :
    Hangs b (DnsPacket.fromBuffer unicode) (messageEndless b) := by
  have hquestion := DnsQuestion.follows_read unicode b
  have hrecord := DnsRecord.follows_read unicode b
  have hround := DnsRecord.hangs_read unicode b
  refine .bind (DnsHeader.follows_read b) (.of_steady DnsHeader.steady_read) fun header => ?_
  refine .seq (hquestion.times _) (.times hquestion (DnsQuestion.hangs_read unicode b) _)
    fun questions => ?_
  refine .seq (hrecord.times _) (.times hrecord hround _) fun answers => ?_
  refine .seq (hrecord.times _) (.times hrecord hround _) fun authorities => ?_
  exact (Hangs.times hrecord hround _).map (hrecord.times _).keeps _

/-- The parser of names and the parser of messages come to an end exactly where nothing
goes round, and return exactly where nothing is cut short either. -/
theorem parser_ends_iff (unicode : UnicodeLower) (b : Bytes) :
    (∀ (outstr : String) (p : Nat),
      (Ends (fun fuel => readQname unicode fuel outstr) ⟨b, p⟩ ↔ ¬ Circular (Hop b) p) ∧
      (Settles (fun fuel => readQname unicode fuel outstr) ⟨b, p⟩ ↔
        ¬ Circular (Hop b) p ∧ ¬ NameCut b p)) ∧
    (Ends (DnsPacket.fromBuffer unicode) ⟨b, 0⟩ ↔ ¬ GoesRound b) ∧
    (Settles (DnsPacket.fromBuffer unicode) ⟨b, 0⟩ ↔ ¬ GoesRound b ∧ ¬ CutShort b) := by
  have hname := hangs_readQname unicode b
  have hmessage := DnsPacket.hangs_fromBuffer unicode b
  refine ⟨fun outstr p => ⟨(hname outstr).ends_iff, ?_⟩, hmessage.ends_iff, ?_⟩
  · exact (hname outstr).settles_iff (follows_readQname unicode b outstr)
  · exact hmessage.settles_iff (DnsPacket.follows_fromBuffer unicode b)

/-- A query whose name is a pointer to itself. -/
def pointerToItself : Bytes :=
  [0x12, 0x34, 1, 0, 0, 1, 0, 0, 0, 0, 0, 0, 0xC0, 12, 0, 1, 0, 1]

/-- The parser does not come to an end on it, at its name or from the start. -/
theorem pointerToItself_hangs :
    ¬ Ends (fun fuel => readQname (fun _ c _ => [c]) fuel "") ⟨pointerToItself, 12⟩ ∧
      ¬ Ends (DnsPacket.fromBuffer fun _ c _ => [c]) ⟨pointerToItself, 0⟩ := by
  have hpointer : IsPointer 0xC0 := Nat.le_refl 192
  have hfirst : ByteAt pointerToItself 12 0xC0 := ⟨by decide, rfl⟩
  have hsecond : ByteAt pointerToItself 13 12 := ⟨by decide, rfl⟩
  have hhop : Hop pointerToItself 12 (pointerTo 0xC0 12) := .pointer hfirst hpointer hsecond
  rw [show pointerTo 0xC0 12 = 12 by decide] at hhop
  have hround : Circular (Hop pointerToItself) 12 := ⟨12, .refl, .single hhop⟩
  have hheader : (header pointerToItself).ends 0 (1, 0, 0, 0) 12 :=
    ((DnsHeader.follows_read pointerToItself).ok 0 0 _ ⟨pointerToItself, 12⟩ rfl).2
  have hmessage : GoesRound pointerToItself :=
    .inr ⟨_, 12, hheader, .inl (.inl (.inl hround))⟩
  have hname := hangs_readQname (fun _ c _ => [c]) pointerToItself ""
  have hpacket := DnsPacket.hangs_fromBuffer (fun _ c _ => [c]) pointerToItself
  exact ⟨fun h => hname.ends_iff.mp h hround, fun h => hpacket.ends_iff.mp h hmessage⟩

end LproxyCv.Dns
