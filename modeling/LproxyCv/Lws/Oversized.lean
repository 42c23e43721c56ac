import LproxyCv.Lws.CHandshake

set_option autoImplicit false

/-!
# Lws: responses without an end

The client handshake would refuse a response head that does not end within its
buffer of 1024 bytes, and leaves it to the buffer to say that it is full.  A
`BytesMut` grows, so it is full only when it can grow no longer
(`IsBytesMut`): no response is refused in time (`not_refusedInTime`), a head of
any length is read to its end, and without an end all of the stream is held
(`oversized_read_on`).
-/

namespace LproxyCv.Lws

open LproxyCv.Foundation

/-- A buffer that can grow up to `usizeMax` bytes, and does so when it is full. -/
structure ReadBuf.IsBytesMut (buf : ReadBuf) (usizeMax : Nat) : Prop where
  remaining : ∀ n, buf.hasRemainingMut n = decide (0 < usizeMax - n)
  room : ∀ n, n < usizeMax → 0 < buf.room n

/-- The buffer the handshake starts with: when it is full, its capacity doubles. -/
def ReadBuf.bytesMut (usizeMax : Nat) : ReadBuf where
  hasRemainingMut := fun n => decide (0 < usizeMax - n)
  room := fun n => if n < 1024 then 1024 - n else 2 ^ (n.log2 + 1) - n

theorem ReadBuf.isBytesMut_bytesMut (usizeMax : Nat) :
    (ReadBuf.bytesMut usizeMax).IsBytesMut usizeMax where
  remaining := fun _ => rfl
  room := by
    intro n _
    have hlt : n < 2 ^ (n.log2 + 1) := Nat.lt_log2_self
    unfold ReadBuf.bytesMut
    dsimp only
    split <;> omega

namespace CHandshake

variable {buf : ReadBuf} {usizeMax : Nat}

/-- The handshake is refused because of the length of the head. -/
def Refused (buf : ReadBuf) (c : CHandshake) : Prop :=
  ∃ c', Passes buf c c' ∧ (c'.loopPass buf).2 = .err (.custom .other "header too large")

/-- The handshake holds at most `n` bytes, all along. -/
def HoldsAtMost (buf : ReadBuf) (c : CHandshake) (n : Nat) : Prop :=
  ∀ c', Passes buf c c' → c'.readBuf.length ≤ n

/-- The handshake is refused before it holds more than the buffer it started with. -/
def RefusedInTime (buf : ReadBuf) (c : CHandshake) : Prop :=
  Refused buf c ∧ HoldsAtMost buf c 1024

/-- Only a buffer that cannot grow refuses. -/
theorem hasRemainingMut_of_tooLarge {c : CHandshake}
    (h : (c.loopPass buf).2 = .err (.custom .other "header too large")) :
    buf.hasRemainingMut c.readBuf.length = false := by
  unfold loopPass at h
  cases hstate : c.state with
  | writingHeader =>
      rw [hstate] at h
      dsimp only at h
      split at h <;> simp at h
  | done =>
      rw [hstate] at h
      simp at h
  | readingResponse =>
      rw [hstate] at h
      dsimp only at h
      by_cases hfull : buf.hasRemainingMut c.readBuf.length = false
      · exact hfull
      · rw [if_neg hfull] at h
        split at h
        · simp at h
        · simp at h
        · split at h <;> simp at h

/-- No response is refused in time, whatever the stream and however it is cut. -/
theorem not_refusedInTime (hbuf : buf.IsBytesMut usizeMax) (husize : 1024 < usizeMax)
    (c : CHandshake) : ¬ RefusedInTime buf c := by
  rintro ⟨⟨c', hpasses, herr⟩, hholds⟩
  have hfull := hasRemainingMut_of_tooLarge herr
  have hle := hholds c' hpasses
  rw [hbuf.remaining, decide_eq_false_iff_not] at hfull
  omega

/-! ## What is done instead -/

/-- A stream without a needle is read to its end, and all of it is held then. -/
theorem passes_of_noNeedle {s : Bytes} {w : WMessage} (hs : needlePosition s = none)
    (hroom : ∀ n, n ≤ s.length → buf.hasRemainingMut n = true ∧ 0 < buf.room n) :
    ∀ (n : Nat) (io : Transport) (rb : Bytes), scriptSize io.reads < n → OnlyData io.reads →
    rb ++ deliverable io.reads = s →
    ∃ io', Passes buf ⟨io, rb, w, .readingResponse⟩ ⟨io', s, w, .readingResponse⟩ ∧
      (loopPass buf ⟨io', s, w, .readingResponse⟩).2 =
        .err (.custom .other "can't read completed response") := by
  intro n
  induction n with
  | zero => intro io rb hn; omega
  | succ n ih =>
      intro io rb hn hdata hsplit
      have hlen : rb.length ≤ s.length := by
        rw [← hsplit, List.length_append]
        omega
      obtain ⟨hgrows, hpos⟩ := hroom rb.length hlen
      rcases io.pollRead_cases hpos with
        ⟨bs, io', hread, hne, _, hbytes, hsmall⟩ | ⟨_, hread, hnil⟩ |
          ⟨io', hread, hbytes, hsmall⟩ | ⟨code, _, hread, _⟩
      · have hnext := (Transport.onlyData_pollRead hpos hdata hread).1
        have hsplit' : (rb ++ bs) ++ deliverable io'.reads = s := by
          rw [List.append_assoc, ← hbytes, hsplit]
        have hfound : needlePosition (rb ++ bs) = none := by
          cases hpos' : needlePosition (rb ++ bs) with
          | none => rfl
          | some pos =>
              have hwhole := (needlePosition_append (r := deliverable io'.reads) hpos').1
              rw [hsplit', hs] at hwhole
              cases hwhole
        have hpass : loopPass buf ⟨io, rb, w, .readingResponse⟩ =
            (⟨io', rb ++ bs, w, .readingResponse⟩, .again) := by
          simp [loopPass, hgrows, hread, hne, parseResponse, hfound]
        obtain ⟨io'', hgo, herr⟩ :=
          ih io' (rb ++ bs) (by omega) hnext hsplit'
        exact ⟨io'', .step hpass (Or.inl rfl) hgo, herr⟩
      · -- the end of the stream
        rw [hnil, List.append_nil] at hsplit
        subst hsplit
        exact ⟨io, .refl _, by simp [loopPass, hgrows, hread]⟩
      · have hpass : loopPass buf ⟨io, rb, w, .readingResponse⟩ =
            (⟨io', rb, w, .readingResponse⟩, .pending) := by
          simp [loopPass, hgrows, hread]
        have hnext := (Transport.onlyData_pollRead hpos hdata hread).1
        obtain ⟨io'', hgo, herr⟩ :=
          ih io' rb (by omega) hnext (by rw [← hbytes, hsplit])
        exact ⟨io'', .step hpass (Or.inr rfl) hgo, herr⟩
      · exact absurd rfl ((Transport.onlyData_pollRead hpos hdata hread).2 code)

/-- No response is refused in time.  The head is read on for, as long as there is anything to
read: all of a stream without an end is held, and an end is found wherever it is. -/
theorem oversized_read_on (hbuf : buf.IsBytesMut usizeMax) (husize : 1024 < usizeMax)
    (io : Transport) (host pth key : String) :
    ¬ RefusedInTime buf (doClientHanshake io host pth key) ∧
    (OnlyData io.reads → TakesAll (doClientHanshake io host pth key).wmsg io.writes →
      (deliverable io.reads).length < usizeMax →
      (needlePosition (deliverable io.reads) = none →
        ∃ c', Passes buf (doClientHanshake io host pth key) c' ∧
          c'.readBuf = deliverable io.reads ∧
          (c'.loopPass buf).2 = .err (.custom .other "can't read completed response")) ∧
      ∀ pos, needlePosition (deliverable io.reads) = some pos →
        ∃ io' tail, Connects buf (doClientHanshake io host pth key) io' tail ∧
          tail.getD [] ++ deliverable io'.reads =
            (deliverable io.reads).drop (pos + needle.length)) := by
  refine ⟨not_refusedInTime hbuf husize _, fun hreads hwrites hlimit => ?_⟩
  have hroom : ∀ n, n ≤ (deliverable io.reads).length →
      buf.hasRemainingMut n = true ∧ 0 < buf.room n := by
    intro n hn
    refine ⟨?_, hbuf.room n (by omega)⟩
    rw [hbuf.remaining, decide_eq_true_eq]
    omega
  obtain ⟨w, io₁, hio₁, hgo⟩ := passes_of_takesAll buf [] io.writes _ io rfl (Nat.zero_le _)
    (request_remaining io host pth key) hwrites
  constructor
  · intro hnone
    obtain ⟨io', hread, herr⟩ := passes_of_noNeedle (w := w) hnone hroom _ io₁ []
      (Nat.lt_succ_self _) (hio₁ ▸ hreads) (by rw [List.nil_append, hio₁])
    exact ⟨_, hgo.trans hread, rfl, herr⟩
  · intro pos hpos
    obtain ⟨io', tail, hconnects, _, hrest⟩ := connects_of_needle (w := w) hpos hroom _ io₁ []
      (Nat.lt_succ_self _) (hio₁ ▸ hreads) (by rw [List.nil_append, hio₁]) rfl
    exact ⟨io', tail, .of_passes hgo hconnects, hrest⟩

/-! ## A head that is too large -/

/-- The server answers with a head of so many bytes and its end, and a byte behind it. -/
def longResponse (len : Nat) : Transport where
  reads := [.data (List.replicate len 120), .pending, .data (needle ++ [7])]
  writes := [.accept 9, .pending, .accept 1000]
  written := []

theorem deliverable_longResponse {len : Nat} (hlen : len ≠ 0) :
    deliverable (longResponse len).reads = List.replicate len 120 ++ (needle ++ [7]) := by
  have hne : List.replicate len (120 : UInt8) ≠ [] := by
    rwa [Ne, List.replicate_eq_nil_iff]
  have hend : needle ++ [7] ≠ [] := by decide
  simp only [longResponse, deliverable, if_neg hne, if_neg hend, List.append_nil]

theorem onlyData_longResponse {len : Nat} (hlen : len ≠ 0) :
    OnlyData (longResponse len).reads := by
  simp [OnlyData, longResponse, needle, hlen]

theorem needlePosition_replicate (n : Nat) (r : Bytes) :
    needlePosition (List.replicate n 120 ++ r) = (needlePosition r).map (· + n) := by
  induction n with
  | zero => simp
  | succ n ih =>
      have hno : ¬ needle.isPrefixOf (120 :: (List.replicate n 120 ++ r)) = true := by
        simp [needle]
      rw [List.replicate_succ, List.cons_append, needlePosition, if_neg hno, ih, Option.map_map]
      rfl

theorem oversized_read_on_longResponse :
    ¬ RefusedInTime (.bytesMut (2 ^ 32 - 1)) (doClientHanshake (longResponse 1100) "h" "/" "k") ∧
    ∃ io' tail, Connects (.bytesMut (2 ^ 32 - 1))
        (doClientHanshake (longResponse 1100) "h" "/" "k") io' tail ∧
      tail.getD [] ++ deliverable io'.reads =
        (deliverable (longResponse 1100).reads).drop (1100 + needle.length) := by
  have hne : 1100 ≠ 0 := by decide
  have htakes : TakesAll (doClientHanshake (longResponse 1100) "h" "/" "k").wmsg
      (longResponse 1100).writes := Or.inr (Or.inl (by decide +kernel))
  have hpos : needlePosition (deliverable (longResponse 1100).reads) = some (0 + 1100) := by
    rw [deliverable_longResponse hne, needlePosition_replicate]
    rfl
  have hlen : (deliverable (longResponse 1100).reads).length < 2 ^ 32 - 1 := by
    rw [deliverable_longResponse hne, List.length_append, List.length_replicate]
    decide
  obtain ⟨hnot, hon⟩ := oversized_read_on (ReadBuf.isBytesMut_bytesMut (2 ^ 32 - 1)) (by decide)
    (longResponse 1100) "h" "/" "k"
  exact ⟨hnot, (hon (onlyData_longResponse hne) htakes hlen).2 1100 hpos⟩

/-- The first 1024 bytes are not the end of a head, and it is not refused. -/
theorem longResponse_not_refused :
    needlePosition ((deliverable (longResponse 1100).reads).take 1024) = none ∧
      ¬ RefusedInTime (.bytesMut (2 ^ 32 - 1))
        (doClientHanshake (longResponse 1100) "h" "/" "k") := by
  constructor
  · have hle : 1024 ≤ (List.replicate 1100 (120 : UInt8)).length := by
      rw [List.length_replicate]
      decide
    have hmin : min 1024 1100 = 1024 := by decide
    have htake : (deliverable (longResponse 1100).reads).take 1024 =
        List.replicate 1024 120 ++ [] := by
      rw [deliverable_longResponse (by decide), List.take_append_of_le_length hle,
        List.take_replicate, List.append_nil, hmin]
    rw [htake, needlePosition_replicate]
    rfl
  · exact not_refusedInTime (ReadBuf.isBytesMut_bytesMut _) (by decide) _

end CHandshake

end LproxyCv.Lws
