import LproxyCv.Lws.Sink

set_option autoImplicit false

/-!
# Lws: the client handshake

The client writes an upgrade request and reads until the response head is
complete.  What it has read past the head is handed over, as the tail, together
with the connection.

`ReadBuf` is what the handshake uses of its `BytesMut`: whether a buffer of a
given length can grow, and how many free bytes it offers to the next read.  The
buffer is only appended to until the head is complete, so its length determines
both.
-/

namespace LproxyCv.Lws

open LproxyCv.Foundation

/-- The growth of the read buffer, by its length. -/
structure ReadBuf where
  hasRemainingMut : Nat → Bool
  room : Nat → Nat

/-- The states of the handshake. -/
inductive CHState where
  | writingHeader
  | readingResponse
  | done
  deriving DecidableEq, Repr

/-- A handshake in progress.  `io` is taken out together with the result, so it
is there as long as the handshake is. -/
structure CHandshake where
  io : Transport
  readBuf : Bytes
  wmsg : WMessage
  state : CHState
  deriving DecidableEq, Repr

/-- The end of a response head. -/
def needle : Bytes := [13, 10, 13, 10]

/-- The position of the first window of `bs` that is the needle. -/
def needlePosition : Bytes → Option Nat
  | [] => none
  | b :: bs =>
      if needle.isPrefixOf (b :: bs) then some 0 else (needlePosition bs).map (· + 1)

/-- The upgrade request.  `key` is the random key the client generates. -/
def requestHead (host pth key : String) : String :=
  "GET " ++ pth ++ " HTTP/1.1\r\n" ++
    "Host: " ++ host ++ "\r\n" ++
    "Connection: upgrade\r\n" ++
    "Upgrade: websocket\r\n" ++
    "Sec-WebSocket-Version: 13\r\n" ++
    "Sec-WebSocket-Key: " ++ key ++ "\r\n" ++
    "\r\n"

/-- Start a handshake. -/
def doClientHanshake (io : Transport) (host pth key : String) : CHandshake :=
  { io := io
    readBuf := []
    wmsg := WMessage.new (utf8 (requestHead host pth key)) 0
    state := .writingHeader }

/-- What one pass of the loop of `poll` comes to.  The result of the handshake
is the connection and the bytes read past the head, if any. -/
inductive HsPass where
  | again
  | pending
  | ready (io : Transport) (tail : Option Bytes)
  | err (error : IoError)
  deriving DecidableEq, Repr

namespace CHandshake

/-- Look for the end of the head, and drop the head. -/
def parseResponse (c : CHandshake) : Bool × CHandshake :=
  match needlePosition c.readBuf with
  | some pos => (true, { c with readBuf := c.readBuf.drop (pos + 4) })
  | none => (false, c)

/-- One pass of the loop of `poll`. -/
def loopPass (buf : ReadBuf) (c : CHandshake) : CHandshake × HsPass :=
  match c.state with
  | .writingHeader =>
      match c.wmsg.pollWriteBuf c.io with
      | (.pending, w, io) => ({ c with wmsg := w, io := io }, .pending)
      | (.error code, w, io) => ({ c with wmsg := w, io := io }, .err (.os code))
      | (.ok _, w, io) =>
          ({ c with
              wmsg := w
              io := io
              state := if w.isCompleted then .readingResponse else .writingHeader }, .again)
  | .readingResponse =>
      if buf.hasRemainingMut c.readBuf.length = false then
        (c, .err (.custom .other "header too large"))
      else
        match c.io.pollRead (buf.room c.readBuf.length) with
        | (.pending, io) => ({ c with io := io }, .pending)
        | (.error code, io) => ({ c with io := io }, .err (.os code))
        | (.ok bs, io) =>
            if bs = [] then
              ({ c with io := io }, .err (.custom .other "can't read completed response"))
            else
              let r := parseResponse { c with io := io, readBuf := c.readBuf ++ bs }
              (if r.1 then { r.2 with state := .done } else r.2, .again)
  | .done =>
      (c, .ready c.io (if 0 < c.readBuf.length then some c.readBuf else none))

/-- `Connects buf c io tail`: the handshake, polled on whenever it is not ready,
returns the connection `io` and the bytes `tail`. -/
inductive Connects (buf : ReadBuf) : CHandshake → Transport → Option Bytes → Prop where
  | ready {c c' : CHandshake} {io : Transport} {tail : Option Bytes} :
      c.loopPass buf = (c', .ready io tail) → Connects buf c io tail
  | step {c c' : CHandshake} {out : HsPass} {io : Transport} {tail : Option Bytes} :
      c.loopPass buf = (c', out) → out = .again ∨ out = .pending →
      Connects buf c' io tail → Connects buf c io tail

/-- A handshake has one result. -/
theorem Connects.unique {buf : ReadBuf} {c : CHandshake} {io io' : Transport}
    {tail tail' : Option Bytes} (h : Connects buf c io tail) (h' : Connects buf c io' tail') :
    io = io' ∧ tail = tail' := by
  induction h with
  | ready hpass =>
      cases h' with
      | ready hpass' =>
          rw [hpass] at hpass'
          simpa using (Prod.mk.inj hpass').2
      | step hpass' hout _ =>
          rw [hpass] at hpass'
          obtain ⟨_, rfl⟩ := Prod.mk.inj hpass'
          simp at hout
  | step hpass hout _ ih =>
      cases h' with
      | ready hpass' =>
          rw [hpass] at hpass'
          obtain ⟨_, rfl⟩ := Prod.mk.inj hpass'
          simp at hout
      | step hpass' _ hrest =>
          rw [hpass] at hpass'
          obtain ⟨rfl, _⟩ := Prod.mk.inj hpass'
          exact ih hrest

/-- `Passes buf c c'`: the handshake, polled on whenever it is not ready, comes
from `c` to `c'`. -/
inductive Passes (buf : ReadBuf) : CHandshake → CHandshake → Prop where
  | refl (c : CHandshake) : Passes buf c c
  | step {c c' c'' : CHandshake} {out : HsPass} :
      c.loopPass buf = (c', out) → out = .again ∨ out = .pending →
      Passes buf c' c'' → Passes buf c c''

theorem Passes.trans {buf : ReadBuf} {c c' c'' : CHandshake} (h : Passes buf c c')
    (h' : Passes buf c' c'') : Passes buf c c'' := by
  induction h with
  | refl _ => exact h'
  | step hpass hout _ ih => exact .step hpass hout (ih h')

/-- What a handshake comes to, it comes to from every state before. -/
theorem Connects.of_passes {buf : ReadBuf} {c c' : CHandshake} {io : Transport}
    {tail : Option Bytes} (h : Passes buf c c') (h' : Connects buf c' io tail) :
    Connects buf c io tail := by
  induction h with
  | refl _ => exact h'
  | step hpass hout _ ih => exact .step hpass hout (ih h')

/-! ## The write phase -/

/-- The script of writes takes all of `w`: it has accepted the last byte before
it fails or runs out. -/
def TakesAll : WMessage → List WriteEvent → Prop
  | _, [] => False
  | w, .pending :: ws => TakesAll w ws
  | _, .error _ :: _ => False
  | w, .accept n :: ws =>
      (w.advance (min n w.remaining)).isCompleted = true ∨
        TakesAll (w.advance (min n w.remaining)) ws

theorem request_remaining (io : Transport) (host pth key : String) :
    (doClientHanshake io host pth key).wmsg.remaining ≠ 0 := by
  have hne : utf8 (requestHead host pth key) ≠ [] := by
    unfold requestHead
    repeat' refine utf8_append_ne_nil ?_
    decide
  have hpos := List.length_pos_of_ne_nil hne
  show (utf8 (requestHead host pth key)).length - (0 : UInt16).toNat ≠ 0
  rw [UInt16.toNat_zero]
  omega

/-- Once the request is taken, the handshake is reading the response. -/
theorem passes_of_takesAll (buf : ReadBuf) (rb : Bytes) : ∀ (ws : List WriteEvent)
    (w : WMessage) (io : Transport), io.writes = ws → w.cursor.toNat ≤ w.buf.length →
    w.remaining ≠ 0 → TakesAll w ws →
    ∃ w' io', io'.reads = io.reads ∧
      Passes buf ⟨io, rb, w, .writingHeader⟩ ⟨io', rb, w', .readingResponse⟩ := by
  intro ws
  induction ws with
  | nil => intro w io _ _ _ htakes; exact absurd htakes (by simp [TakesAll])
  | cons e ws ih =>
      intro w io hws hcur hrem htakes
      cases e with
      | error code => exact absurd htakes (by simp [TakesAll])
      | pending =>
          obtain ⟨w', io', hreads, hgo⟩ := ih w { io with writes := ws } rfl hcur hrem htakes
          refine ⟨w', io', hreads, .step ?_ (Or.inr rfl) hgo⟩
          simp [loopPass, WMessage.pollWriteBuf, hrem, Transport.pollWrite, hws]
      | accept n =>
          have hpass : loopPass buf ⟨io, rb, w, .writingHeader⟩ =
              (⟨⟨io.reads, ws, io.written ++ w.bytes.take n⟩, rb,
                w.advance (min n w.remaining),
                if (w.advance (min n w.remaining)).isCompleted then .readingResponse
                else .writingHeader⟩, .again) := by
            simp [loopPass, WMessage.pollWriteBuf, hrem, Transport.pollWrite, hws]
          by_cases hdone : (w.advance (min n w.remaining)).isCompleted = true
          · rw [if_pos hdone] at hpass
            exact ⟨w.advance (min n w.remaining), ⟨io.reads, ws, io.written ++ w.bytes.take n⟩,
              rfl, .step hpass (Or.inl rfl) (.refl _)⟩
          · rw [if_neg hdone] at hpass
            have hle : (w.advance (min n w.remaining)).cursor.toNat ≤
                (w.advance (min n w.remaining)).buf.length := by
              unfold WMessage.advance WMessage.remaining
              rw [UInt16.toNat_add, UInt16.toNat_ofNat']
              dsimp only
              omega
            have hleft : (w.advance (min n w.remaining)).remaining ≠ 0 := by
              -- a cursor at the end of the buffer is a completed one
              intro hzero
              apply hdone
              have hsub : (w.advance (min n w.remaining)).buf.length -
                  (w.advance (min n w.remaining)).cursor.toNat = 0 := hzero
              unfold WMessage.isCompleted
              rw [decide_eq_true_eq]
              apply UInt16.toNat.inj
              rw [UInt16.toNat_ofNat']
              have hlt := (w.advance (min n w.remaining)).cursor.toNat_lt
              omega
            have hrest : TakesAll (w.advance (min n w.remaining)) ws :=
              htakes.resolve_left hdone
            obtain ⟨w', io', hreads, hgo⟩ :=
              ih _ ⟨io.reads, ws, io.written ++ w.bytes.take n⟩ rfl hle hleft hrest
            exact ⟨w', io', hreads, .step hpass (Or.inl rfl) hgo⟩

theorem connects_of_takesAll (buf : ReadBuf) (rb : Bytes) : ∀ (ws : List WriteEvent)
    (w : WMessage) (io : Transport), io.writes = ws → w.cursor.toNat ≤ w.buf.length →
    w.remaining ≠ 0 → TakesAll w ws →
    ∃ w' io', io'.reads = io.reads ∧ ∀ io'' tail,
      Connects buf ⟨io', rb, w', .readingResponse⟩ io'' tail →
      Connects buf ⟨io, rb, w, .writingHeader⟩ io'' tail := by
  intro ws w io hws hcur hrem htakes
  obtain ⟨w', io', hreads, hgo⟩ := passes_of_takesAll buf rb ws w io hws hcur hrem htakes
  exact ⟨w', io', hreads, fun io'' tail h => .of_passes hgo h⟩

/-! ## The read phase -/

/-- The needle found in a buffer stays where it is when more is read. -/
theorem needlePosition_append {bs r : Bytes} {pos : Nat} (h : needlePosition bs = some pos) :
    needlePosition (bs ++ r) = some pos ∧ pos + needle.length ≤ bs.length := by
  induction bs generalizing pos with
  | nil => simp [needlePosition] at h
  | cons b bs ih =>
      by_cases hhere : needle.isPrefixOf (b :: bs) = true
      · have hprefix : needle <+: b :: bs := by simpa using hhere
        have hlonger : needle.isPrefixOf (b :: bs ++ r) = true := by
          simpa using hprefix.trans (List.prefix_append _ r)
        rw [needlePosition, if_pos hhere] at h
        cases h
        rw [List.cons_append, needlePosition, ← List.cons_append, if_pos hlonger]
        exact ⟨rfl, by simpa using hprefix.length_le⟩
      · rw [needlePosition, if_neg hhere] at h
        obtain ⟨pos', hpos', rfl⟩ : ∃ pos', needlePosition bs = some pos' ∧ pos' + 1 = pos := by
          simpa using h
        obtain ⟨hfound, hle⟩ := ih hpos'
        have hlen : needle.length ≤ (b :: bs).length := by
          rw [List.length_cons]
          omega
        have hstill : ¬ needle.isPrefixOf (b :: bs ++ r) = true := by
          intro hprefix
          apply hhere
          have htake : needle <+: b :: bs ++ r := by simpa using hprefix
          simpa using List.prefix_of_prefix_length_le htake (List.prefix_append _ r) hlen
        rw [List.cons_append, needlePosition, ← List.cons_append, if_neg hstill, hfound]
        refine ⟨rfl, ?_⟩
        rw [List.length_cons]
        omega

/-- The handshake ends behind the first needle of the stream, and hands over all
that it has read past it. -/
theorem connects_of_needle {buf : ReadBuf} {s : Bytes} {pos : Nat} {w : WMessage}
    (hs : needlePosition s = some pos)
    (hroom : ∀ n, n ≤ s.length → buf.hasRemainingMut n = true ∧ 0 < buf.room n) :
    ∀ (n : Nat) (io : Transport) (rb : Bytes), scriptSize io.reads < n → OnlyData io.reads →
    rb ++ deliverable io.reads = s → needlePosition rb = none →
    ∃ io' tail, Connects buf ⟨io, rb, w, .readingResponse⟩ io' tail ∧ OnlyData io'.reads ∧
      tail.getD [] ++ deliverable io'.reads = s.drop (pos + needle.length) := by
  intro n
  induction n with
  | zero => intro io rb hn; omega
  | succ n ih =>
      intro io rb hn hdata hsplit hnone
      have hlen : rb.length ≤ s.length := by
        rw [← hsplit, List.length_append]
        omega
      obtain ⟨hgrows, hpos⟩ := hroom rb.length hlen
      -- one read of the response
      rcases io.pollRead_cases hpos with
        ⟨bs, io', hread, hne, _, hbytes, hsmall⟩ | ⟨_, _, hnil⟩ | ⟨io', hread, hbytes, hsmall⟩ |
          ⟨code, _, hread, _⟩
      · have hnext := (Transport.onlyData_pollRead hpos hdata hread).1
        have hsplit' : (rb ++ bs) ++ deliverable io'.reads = s := by
          rw [List.append_assoc, ← hbytes, hsplit]
        cases hfound : needlePosition (rb ++ bs) with
        | some pos' =>
            -- the needle came with this read
            have hsame := (needlePosition_append (r := deliverable io'.reads) hfound).1
            rw [hsplit', hs] at hsame
            cases hsame
            have hle := (needlePosition_append (r := deliverable io'.reads) hfound).2
            have hpass : loopPass buf ⟨io, rb, w, .readingResponse⟩ =
                (⟨io', (rb ++ bs).drop (pos + 4), w, .done⟩, .again) := by
              simp [loopPass, hgrows, hread, hne, parseResponse, hfound]
            refine ⟨io', _, .step hpass (Or.inl rfl) (.ready rfl), hnext, ?_⟩
            have hdrop : s.drop (pos + needle.length) =
                (rb ++ bs).drop (pos + 4) ++ deliverable io'.reads := by
              rw [← hsplit', List.drop_append_of_le_length hle]
              rfl
            rw [hdrop]
            congr 1
            dsimp only
            split
            · rfl
            · rename_i hempty
              rw [Option.getD_none]
              exact (List.eq_nil_of_length_eq_zero (by omega)).symm
        | none =>
            have hpass : loopPass buf ⟨io, rb, w, .readingResponse⟩ =
                (⟨io', rb ++ bs, w, .readingResponse⟩, .again) := by
              simp [loopPass, hgrows, hread, hne, parseResponse, hfound]
            obtain ⟨io'', tail, hgo, hrest⟩ :=
              ih io' (rb ++ bs) (by omega) hnext hsplit' hfound
            exact ⟨io'', tail, .step hpass (Or.inl rfl) hgo, hrest⟩
      · -- the stream cannot end before its needle
        rw [hnil, List.append_nil] at hsplit
        rw [hsplit, hs] at hnone
        cases hnone
      · have hpass : loopPass buf ⟨io, rb, w, .readingResponse⟩ =
            (⟨io', rb, w, .readingResponse⟩, .pending) := by
          simp [loopPass, hgrows, hread]
        have hnext := (Transport.onlyData_pollRead hpos hdata hread).1
        obtain ⟨io'', tail, hgo, hrest⟩ :=
          ih io' rb (by omega) hnext (by rw [← hbytes, hsplit]) hnone
        exact ⟨io'', tail, .step hpass (Or.inr rfl) hgo, hrest⟩
      · exact absurd rfl ((Transport.onlyData_pollRead hpos hdata hread).2 code)

end CHandshake

end LproxyCv.Lws
