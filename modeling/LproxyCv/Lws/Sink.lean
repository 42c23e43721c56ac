import LproxyCv.Lws.Msg

set_option autoImplicit false

/-!
# Lws: the sending half of a framed connection

`LwsFramed` and `TcpFramed` implement `Sink<WMessage>` with the same code: one
buffer is being written at a time, `poll_ready` finishes it, `start_send` puts
the next one in its place, and `poll_flush` writes until the buffer is done or
the transport is not ready.  The code is modelled once, on the pair of the
buffer and the transport, and each of the two connections applies it.

`Sends` is what `forward` does with a queue of buffers: it flushes whenever it
likes and starts a buffer only after `poll_ready` was ready.
-/

namespace LproxyCv.Lws

open LproxyCv.Foundation

/-- The answer of `poll_ready` and `poll_flush`.  `spin` is the loop of
`poll_flush` going round without ever finding its buffer completed. -/
inductive FlushResult where
  | pending
  | ready
  | err (code : Int)
  | spin
  deriving DecidableEq, Repr

/-- One `poll_write_buf`: nothing is offered to the transport when nothing
remains, and the cursor moves by what the transport took. -/
def WMessage.pollWriteBuf (w : WMessage) (io : Transport) :
    WriteResult × WMessage × Transport :=
  if w.remaining = 0 then (.ok 0, w, io)
  else
    match io.pollWrite w.bytes with
    | (.ok n, io') => (.ok n, w.advance n, io')
    | (r, io') => (r, w, io')

/-- The writing loop of `poll_flush`, for at most the given number of passes. -/
def flushLoop : Nat → WMessage → Transport → Option WMessage × Transport × FlushResult
  | 0, w, io => (some w, io, .spin)
  | n + 1, w, io =>
      match w.pollWriteBuf io with
      | (.pending, w', io') => (some w', io', .pending)
      | (.error code, w', io') => (some w', io', .err code)
      | (.ok _, w', io') =>
          if w'.isCompleted then (none, io', .ready) else flushLoop n w' io'

/-- The buffer being written and the connection it is written to. -/
structure SinkHalf where
  writing : Option WMessage
  io : Transport
  deriving DecidableEq, Repr

namespace SinkHalf

/-- Write the current buffer until it is done or the transport is not ready.
Every pass uses up one write of the script, so the passes allowed here are more
than the loop can make. -/
def pollFlush (s : SinkHalf) : SinkHalf × FlushResult :=
  match s.writing with
  | none => (s, .ready)
  | some w =>
      let r := flushLoop (s.io.writes.length + 1) w s.io
      (⟨r.1, r.2.1⟩, r.2.2)

/-- Ready for the next buffer once the current one is flushed. -/
def pollReady (s : SinkHalf) : SinkHalf × FlushResult :=
  if s.writing.isSome then s.pollFlush else (s, .ready)

/-- Take the next buffer. -/
def startSend (s : SinkHalf) (item : WMessage) : SinkHalf := { s with writing := some item }

/-- The bytes of the current buffer still to be written. -/
def unsent (s : SinkHalf) : Bytes :=
  match s.writing with
  | none => []
  | some w => w.bytes

/-- The current buffer, if any, fits its cursor. -/
def Fits (s : SinkHalf) : Prop := ∀ w, s.writing = some w → w.Fits

end SinkHalf

/-! ## What one flush writes -/

/-- One write moves bytes from the buffer to the wire and loses none. -/
theorem WMessage.pollWriteBuf_spec {w : WMessage} (hfits : w.Fits) (io : Transport) :
    (w.pollWriteBuf io).2.1.Fits ∧
      (w.pollWriteBuf io).2.2.written ++ (w.pollWriteBuf io).2.1.bytes =
        io.written ++ w.bytes ∧
      (w.pollWriteBuf io).2.2.reads = io.reads := by
  unfold pollWriteBuf
  split
  · exact ⟨hfits, rfl, rfl⟩
  · cases hws : io.writes with
    | nil => simp [Transport.pollWrite, hws, hfits]
    | cons e ws =>
        cases e with
        | pending => simp [Transport.pollWrite, hws, hfits]
        | error code => simp [Transport.pollWrite, hws, hfits]
        | accept n =>
            have hadv := hfits.advance (show min n w.remaining ≤ w.remaining by omega)
            have htake : w.bytes.take n = w.bytes.take (min n w.remaining) := by
              rw [← w.bytes_length, List.take_eq_take_min]
            simp only [Transport.pollWrite, hws, bytes_length]
            refine ⟨hadv.1, ?_, trivial⟩
            rw [hadv.2, htake, List.append_assoc, List.take_append_drop]

/-- A write that is answered uses up one entry of the script, unless nothing
remains to be written. -/
theorem WMessage.pollWriteBuf_writes {w : WMessage} {io : Transport} {n : Nat}
    (hrem : w.remaining ≠ 0) (h : (w.pollWriteBuf io).1 = .ok n) :
    (w.pollWriteBuf io).2.2.writes.length < io.writes.length := by
  unfold pollWriteBuf at h ⊢
  rw [if_neg hrem] at h ⊢
  cases hws : io.writes with
  | nil => simp [Transport.pollWrite, hws] at h
  | cons e ws => cases e <;> simp [Transport.pollWrite, hws] at h ⊢

/-- What the flush loop leaves: no byte is lost or written twice, the loop is
`ready` exactly with an empty buffer, and it never spins. -/
theorem flushLoop_spec : ∀ (fuel : Nat) (w : WMessage) (io : Transport),
    w.Fits → io.writes.length < fuel →
    (⟨(flushLoop fuel w io).1, (flushLoop fuel w io).2.1⟩ : SinkHalf).Fits ∧
      (flushLoop fuel w io).2.1.written ++
          (⟨(flushLoop fuel w io).1, (flushLoop fuel w io).2.1⟩ : SinkHalf).unsent =
        io.written ++ w.bytes ∧
      ((flushLoop fuel w io).2.2 = .ready → (flushLoop fuel w io).1 = none) ∧
      (flushLoop fuel w io).2.2 ≠ .spin ∧
      (flushLoop fuel w io).2.1.reads = io.reads := by
  intro fuel
  induction fuel with
  | zero => intro w io _ hlen; omega
  | succ fuel ih =>
      intro w io hfits hlen
      have hspec := WMessage.pollWriteBuf_spec hfits io
      have hless := @WMessage.pollWriteBuf_writes w io
      rcases hpoll : w.pollWriteBuf io with ⟨result, w', io'⟩
      rw [hpoll] at hspec hless
      obtain ⟨hfits', hbytes, hreads⟩ := hspec
      simp only at hfits' hbytes hreads
      cases result with
      | pending => simp_all [flushLoop, SinkHalf.Fits, SinkHalf.unsent]
      | error code => simp_all [flushLoop, SinkHalf.Fits, SinkHalf.unsent]
      | ok n =>
          by_cases hdone : w'.isCompleted = true
          · have hnil : w'.bytes = [] := hfits'.isCompleted_iff.mp hdone
            rw [hnil, List.append_nil] at hbytes
            simp_all [flushLoop, SinkHalf.Fits, SinkHalf.unsent]
          · have hrem : w.remaining ≠ 0 := by
              -- nothing remained: the write changed nothing, so the cursor was at the end
              intro hzero
              have hw : w' = w := by
                have hself : w.pollWriteBuf io = (.ok 0, w, io) := by
                  simp [WMessage.pollWriteBuf, hzero]
                rw [hself] at hpoll
                exact (Prod.mk.inj (Prod.mk.inj hpoll).2).1.symm
              apply hdone
              rw [hw]
              apply hfits.isCompleted_iff.mpr
              rw [← List.length_eq_zero_iff, WMessage.bytes_length, hzero]
            have hlen' := hless hrem rfl
            simp only at hlen'
            have hrec := ih w' io' hfits' (by omega)
            simp only [flushLoop, hpoll, hdone, Bool.false_eq_true, if_false]
            rw [hbytes, hreads] at hrec
            exact hrec

/-- Flushing loses no byte, writes none twice, and is ready only with the buffer
written out. -/
theorem SinkHalf.pollFlush_spec {s : SinkHalf} (hfits : s.Fits) :
    s.pollFlush.1.Fits ∧
      s.pollFlush.1.io.written ++ s.pollFlush.1.unsent = s.io.written ++ s.unsent ∧
      (s.pollFlush.2 = .ready → s.pollFlush.1.writing = none) ∧
      s.pollFlush.2 ≠ .spin := by
  cases hw : s.writing with
  | none => simp_all [pollFlush, SinkHalf.Fits]
  | some w =>
      have hspec := flushLoop_spec (s.io.writes.length + 1) w s.io (hfits w hw) (by omega)
      simp only [pollFlush, hw, unsent]
      exact ⟨hspec.1, hspec.2.1, hspec.2.2.1, hspec.2.2.2.1⟩

theorem SinkHalf.pollReady_spec {s : SinkHalf} (hfits : s.Fits) :
    s.pollReady.1.Fits ∧
      s.pollReady.1.io.written ++ s.pollReady.1.unsent = s.io.written ++ s.unsent ∧
      (s.pollReady.2 = .ready → s.pollReady.1.writing = none) := by
  unfold pollReady
  split
  · have hspec := pollFlush_spec hfits
    exact ⟨hspec.1, hspec.2.1, hspec.2.2.1⟩
  · rename_i hnone
    exact ⟨hfits, rfl, fun _ => by simpa using hnone⟩

/-- A write that is not answered changes nothing. -/
theorem WMessage.pollWriteBuf_of_not_ok {w w' : WMessage} {io io' : Transport} {r : WriteResult}
    (h : w.pollWriteBuf io = (r, w', io')) (hr : ∀ n, r ≠ .ok n) : w' = w := by
  unfold pollWriteBuf at h
  split at h
  · cases h
    exact absurd rfl (hr 0)
  · split at h
    · cases h
      exact absurd rfl (hr _)
    · cases h
      rfl

/-- A buffer with bytes left is flushed until none is left, or keeps some. -/
theorem flushLoop_unsent : ∀ (fuel : Nat) (w : WMessage) (io : Transport), w.Fits →
    w.bytes ≠ [] → (flushLoop fuel w io).2.2 ≠ .ready →
      ∃ w', (flushLoop fuel w io).1 = some w' ∧ w'.bytes ≠ [] := by
  intro fuel
  induction fuel with
  | zero =>
      intro w io _ hleft _
      exact ⟨w, rfl, hleft⟩
  | succ fuel ih =>
      intro w io hfits hleft hready
      have hfits' := (WMessage.pollWriteBuf_spec hfits io).1
      rcases hpoll : w.pollWriteBuf io with ⟨result, w', io'⟩
      rw [hpoll] at hfits'
      simp only [flushLoop, hpoll] at hready ⊢
      cases result with
      | pending => exact ⟨w', rfl, WMessage.pollWriteBuf_of_not_ok hpoll (by simp) ▸ hleft⟩
      | error code => exact ⟨w', rfl, WMessage.pollWriteBuf_of_not_ok hpoll (by simp) ▸ hleft⟩
      | ok n =>
          by_cases hdone : w'.isCompleted = true
          · simp [hdone] at hready
          · simp only [hdone, Bool.false_eq_true, if_false] at hready ⊢
            exact ih w' io' hfits' (fun hnil => hdone (hfits'.isCompleted_iff.mpr hnil)) hready

namespace SinkHalf

/-- The current buffer, if any, has bytes left. -/
def Open (s : SinkHalf) : Prop := ∀ w, s.writing = some w → w.bytes ≠ []

/-- A flush is ready exactly when nothing is left to write. -/
theorem pollFlush_ready_iff {s : SinkHalf} (hfits : s.Fits) (hopen : s.Open) :
    s.pollFlush.1.Open ∧ (s.pollFlush.2 = .ready ↔ s.pollFlush.1.unsent = []) := by
  obtain ⟨_, _, hnone, _⟩ := pollFlush_spec hfits
  by_cases hready : s.pollFlush.2 = .ready
  · have hwriting := hnone hready
    refine ⟨fun w h => ?_, iff_of_true hready ?_⟩
    · rw [hwriting] at h
      cases h
    · simp [unsent, hwriting]
  · cases hw : s.writing with
    | none => exact absurd (by simp [pollFlush, hw]) hready
    | some w =>
        have hleft := flushLoop_unsent (s.io.writes.length + 1) w s.io (hfits w hw) (hopen w hw)
        simp only [pollFlush, hw] at hready ⊢
        obtain ⟨w', hw', hbytes⟩ := hleft hready
        refine ⟨fun w'' h => ?_, iff_of_false hready ?_⟩
        · dsimp only at h
          rw [hw'] at h
          cases h
          exact hbytes
        · simpa [unsent, hw'] using hbytes

end SinkHalf

/-! ## Sending a queue -/

/-- The three operations of a sink of buffers. -/
structure SinkOps (σ : Type) where
  pollReady : σ → σ × FlushResult
  startSend : σ → WMessage → σ
  pollFlush : σ → σ × FlushResult

/-- The operations of the shared code. -/
def SinkHalf.ops : SinkOps SinkHalf := ⟨pollReady, startSend, pollFlush⟩

/-- `Sends ops s q t`: a task that forwards the queue `q` into the sink `s` gets
through all of it and leaves the sink as `t`.  It may flush at any moment, and
polls again whenever the sink is not ready. -/
inductive Sends {σ : Type} (ops : SinkOps σ) : σ → List WMessage → σ → Prop where
  | close {s t : σ} : ops.pollFlush s = (t, .ready) → Sends ops s [] t
  | flush {s m t : σ} {q : List WMessage} {r : FlushResult} :
      ops.pollFlush s = (m, r) → r = .pending ∨ r = .ready → Sends ops m q t → Sends ops s q t
  | wait {s m t : σ} {w : WMessage} {q : List WMessage} :
      ops.pollReady s = (m, .pending) → Sends ops m (w :: q) t → Sends ops s (w :: q) t
  | send {s m t : σ} {w : WMessage} {q : List WMessage} :
      ops.pollReady s = (m, .ready) → Sends ops (ops.startSend m w) q t →
      Sends ops s (w :: q) t

/-- A sink that is a view of another one sends the same. -/
theorem Sends.view {σ τ : Type} {ops : SinkOps σ} {ops' : SinkOps τ} (view : σ → τ)
    (hready : ∀ s, ops'.pollReady (view s) = (view (ops.pollReady s).1, (ops.pollReady s).2))
    (hstart : ∀ s w, ops'.startSend (view s) w = view (ops.startSend s w))
    (hflush : ∀ s, ops'.pollFlush (view s) = (view (ops.pollFlush s).1, (ops.pollFlush s).2))
    {s t : σ} {q : List WMessage} (h : Sends ops s q t) : Sends ops' (view s) q (view t) := by
  induction h with
  | close hf => exact .close (by rw [hflush, hf])
  | flush hf hr _ ih => exact .flush (by rw [hflush, hf]) hr ih
  | wait hp _ ih => exact .wait (by rw [hready, hp]) ih
  | send hp _ ih => exact .send (by rw [hready, hp]) (by rw [hstart]; exact ih)

/-- Under any partial writes the wire gets exactly the buffers of the queue,
each from its cursor on, in order. -/
theorem SinkHalf.sends_written {s t : SinkHalf} {q : List WMessage}
    (h : Sends ops s q t) (hs : s.Fits) (hq : ∀ w ∈ q, w.Fits) :
    t.io.written = s.io.written ++ s.unsent ++ (q.map WMessage.bytes).flatten := by
  induction h with
  | @close s t hf =>
      obtain ⟨_, hbytes, hready, _⟩ := pollFlush_spec hs
      have hf' : s.pollFlush = (t, .ready) := hf
      rw [hf'] at hbytes hready
      have hnone : t.writing = none := hready rfl
      simpa [unsent, hnone] using hbytes
  | @flush s m t q r hf _ _ ih =>
      obtain ⟨hfits, hbytes, _, _⟩ := pollFlush_spec hs
      have hf' : s.pollFlush = (m, r) := hf
      rw [hf'] at hfits hbytes
      rw [ih hfits hq, hbytes]
  | @wait s m t w q hp _ ih =>
      obtain ⟨hfits, hbytes, _⟩ := pollReady_spec hs
      have hp' : s.pollReady = (m, .pending) := hp
      rw [hp'] at hfits hbytes
      rw [ih hfits hq, hbytes]
  | @send s m t w q hp _ ih =>
      obtain ⟨_, hbytes, hready⟩ := pollReady_spec hs
      have hp' : s.pollReady = (m, .ready) := hp
      rw [hp'] at hbytes hready
      have hnone : m.writing = none := hready rfl
      have hfits' : (m.startSend w).Fits := by
        intro w' hw'
        have heq : w = w' := by simpa [startSend] using hw'
        exact heq ▸ hq w List.mem_cons_self
      have hrec := ih hfits' fun w' hw' => hq w' (List.mem_cons_of_mem w hw')
      have hm : m.io.written = s.io.written ++ s.unsent := by
        simpa [unsent, hnone] using hbytes
      have hstart : (ops.startSend m w).io.written ++ (ops.startSend m w).unsent =
          s.io.written ++ s.unsent ++ w.bytes := by
        simp [ops, startSend, unsent, hm]
      rw [hrec, hstart, List.map_cons, List.flatten_cons, List.append_assoc]

end LproxyCv.Lws
