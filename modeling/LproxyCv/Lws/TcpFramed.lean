import LproxyCv.Lws.Sink

set_option autoImplicit false

/-!
# Lws: the connection of a request

`TcpFramed` hands out what its connection delivers, read by read, in buffers that
keep room for the headers in front.  Its sending half is that of `LwsFramed`.
The allocation of a new buffer has exactly the capacity that was asked for.
-/

namespace LproxyCv.Lws

open LproxyCv.Foundation

/-- The connection of a request. -/
structure TcpFramed where
  io : Transport
  reading : Option TMessage
  writing : Option WMessage
  hasFinished : Bool
  deriving DecidableEq, Repr

/-- The answer of `poll_next`. -/
inductive TcpPoll where
  | pending
  | finished
  | item (message : TMessage)
  | err (code : Int)
  deriving DecidableEq, Repr

namespace TcpFramed

/-- A connection on which nothing was read or written. -/
def new (io : Transport) : TcpFramed :=
  { io := io, reading := none, writing := none, hasFinished := false }

/-- `poll_next`.  `poll_read_buf` answers `Ok(0)` without reading when the buffer
is full. -/
def pollNext (f : TcpFramed) : TcpFramed × TcpPoll :=
  let msg := f.reading.getD TMessage.new
  if msg.remainingMut = 0 then ({ f with reading := some msg, hasFinished := true }, .finished)
  else
    match f.io.pollRead msg.remainingMut with
    | (.pending, io) => ({ f with io := io, reading := some msg }, .pending)
    | (.error code, io) =>
        ({ f with io := io, reading := some msg, hasFinished := true }, .err code)
    | (.ok bs, io) =>
        let msg' := msg.advanceMut bs
        if bs = [] then
          ({ f with io := io, reading := some msg', hasFinished := true }, .finished)
        else ({ f with io := io, reading := none }, .item msg')

/-- `Yields f ms out g`: a consumer polls the connection until it is over.  It is
handed the buffers `ms` and then `out`, and leaves the connection as `g`. -/
inductive Yields : TcpFramed → List TMessage → TcpPoll → TcpFramed → Prop where
  | item {f f' g : TcpFramed} {m : TMessage} {ms : List TMessage} {out : TcpPoll} :
      f.pollNext = (f', .item m) → Yields f' ms out g → Yields f (m :: ms) out g
  | wait {f f' g : TcpFramed} {ms : List TMessage} {out : TcpPoll} :
      f.pollNext = (f', .pending) → Yields f' ms out g → Yields f ms out g
  | finished {f f' : TcpFramed} : f.pollNext = (f', .finished) → Yields f [] .finished f'
  | err {f f' : TcpFramed} {code : Int} :
      f.pollNext = (f', .err code) → Yields f [] (.err code) f'

/-! ## The sending half -/

/-- The buffer being written and the connection. -/
def sinkHalf (f : TcpFramed) : SinkHalf := ⟨f.writing, f.io⟩

/-- Put back a sending half. -/
def withSink (f : TcpFramed) (s : SinkHalf) : TcpFramed :=
  { f with io := s.io, writing := s.writing }

/-- `poll_ready` of the sink. -/
def pollReady (f : TcpFramed) : TcpFramed × FlushResult :=
  (f.withSink f.sinkHalf.pollReady.1, f.sinkHalf.pollReady.2)

/-- `start_send` of the sink. -/
def startSend (f : TcpFramed) (item : WMessage) : TcpFramed :=
  f.withSink (f.sinkHalf.startSend item)

/-- `poll_flush` of the sink. -/
def pollFlush (f : TcpFramed) : TcpFramed × FlushResult :=
  (f.withSink f.sinkHalf.pollFlush.1, f.sinkHalf.pollFlush.2)

/-- The operations of the sink. -/
def sinkOps : SinkOps TcpFramed := ⟨pollReady, startSend, pollFlush⟩

/-- The sink half of a request's connection sends what the shared code sends. -/
theorem sends_sinkHalf {f g : TcpFramed} {q : List WMessage} (h : Sends sinkOps f q g) :
    Sends SinkHalf.ops f.sinkHalf q g.sinkHalf :=
  h.view sinkHalf (fun _ => rfl) (fun _ _ => rfl) (fun _ => rfl)

/-! ## What is read comes out -/

/-- A buffer filled by one read: it has the room for the headers, and no more
than its allocation. -/
def Filled (m : TMessage) : Prop := tmessageKeep ≤ m.buf.length ∧ m.buf.length ≤ defaultCap

theorem remainingMut_new : TMessage.new.remainingMut = defaultCap - tmessageKeep := by
  simp [TMessage.remainingMut, TMessage.new]

/-- Nothing of the buffer is filled yet. -/
def Fresh (f : TcpFramed) : Prop := f.reading.getD TMessage.new = TMessage.new

/-- What one poll of a connection that delivers its stream comes to. -/
inductive PollSpec (f : TcpFramed) : TcpFramed → TcpPoll → Prop where
  | item {f' : TcpFramed} {m : TMessage} : Filled m →
      deliverable f.io.reads = m.payload ++ deliverable f'.io.reads → OnlyData f'.io.reads →
      f'.Fresh → scriptSize f'.io.reads < scriptSize f.io.reads → PollSpec f f' (.item m)
  | pending {f' : TcpFramed} : deliverable f.io.reads = deliverable f'.io.reads →
      OnlyData f'.io.reads → f'.Fresh →
      scriptSize f'.io.reads < scriptSize f.io.reads → PollSpec f f' .pending
  | finished {f' : TcpFramed} : deliverable f.io.reads = [] → PollSpec f f' .finished

theorem pollNext_spec {f : TcpFramed} (hfresh : f.Fresh) (hdata : OnlyData f.io.reads) :
    PollSpec f f.pollNext.1 f.pollNext.2 := by
  have hroom : 0 < defaultCap - tmessageKeep := by decide
  have hne : ¬ defaultCap - tmessageKeep = 0 := by decide
  unfold pollNext
  rw [hfresh]
  dsimp only
  rw [remainingMut_new, if_neg hne]
  rcases f.io.pollRead_cases hroom with
    ⟨bs, io, hread, hbs, hle, hbytes, hless⟩ | ⟨io, hread, hnil⟩ | ⟨io, hread, hbytes, hless⟩ |
      ⟨code, io, hread, _⟩
  · have hdata' := (Transport.onlyData_pollRead hroom hdata hread).1
    simp only [hread, hbs, if_false]
    have hlen : (TMessage.new.advanceMut bs).buf.length = tmessageKeep + bs.length := by
      simp [TMessage.advanceMut, TMessage.new]
    have hpayload : (TMessage.new.advanceMut bs).payload = bs :=
      List.drop_left' (by simp [TMessage.new])
    refine .item ⟨by omega, by omega⟩ ?_ hdata' rfl hless
    rw [hpayload]
    exact hbytes
  · simp only [hread]
    exact .finished hnil
  · simp only [hread]
    exact .pending hbytes (Transport.onlyData_pollRead hroom hdata hread).1 rfl hless
  · exact absurd rfl ((Transport.onlyData_pollRead hroom hdata hread).2 code)

/-- The buffers handed out carry the stream, and then it is over. -/
theorem Yields.payloads {f g : TcpFramed} {ms : List TMessage} {out : TcpPoll}
    (h : Yields f ms out g) (hfresh : f.Fresh) (hdata : OnlyData f.io.reads) :
    out = .finished ∧ (∀ m ∈ ms, Filled m) ∧
      (ms.map TMessage.payload).flatten = deliverable f.io.reads := by
  induction h with
  | item hpoll _ ih =>
      have hspec := pollNext_spec hfresh hdata
      rw [hpoll] at hspec
      cases hspec with
      | item hfill hbytes hdata' hfresh' _ =>
          obtain ⟨hout, hall, hflat⟩ := ih hfresh' hdata'
          refine ⟨hout, List.forall_mem_cons.mpr ⟨hfill, hall⟩, ?_⟩
          rw [List.map_cons, List.flatten_cons, hflat, hbytes]
  | wait hpoll _ ih =>
      have hspec := pollNext_spec hfresh hdata
      rw [hpoll] at hspec
      cases hspec with
      | pending hbytes hdata' hfresh' _ =>
          obtain ⟨hout, hall, hflat⟩ := ih hfresh' hdata'
          exact ⟨hout, hall, hflat.trans hbytes.symm⟩
  | finished hpoll =>
      have hspec := pollNext_spec hfresh hdata
      rw [hpoll] at hspec
      cases hspec with
      | finished hnil => exact ⟨rfl, by simp, hnil.symm⟩
  | err hpoll =>
      have hspec := pollNext_spec hfresh hdata
      rw [hpoll] at hspec
      cases hspec

/-- A connection that delivers its stream can be read to its end. -/
theorem yields_exists : ∀ (n : Nat) {f : TcpFramed}, scriptSize f.io.reads < n → f.Fresh →
    OnlyData f.io.reads → ∃ ms g, Yields f ms .finished g := by
  intro n
  induction n with
  | zero => intro f hn; omega
  | succ n ih =>
      intro f hn hfresh hdata
      have hspec := pollNext_spec hfresh hdata
      rcases hpoll : f.pollNext with ⟨f', out⟩
      rw [hpoll] at hspec
      cases hspec with
      | item _ _ hdata' hfresh' hless =>
          obtain ⟨ms, g, hms⟩ := ih (by omega) hfresh' hdata'
          exact ⟨_, g, .item hpoll hms⟩
      | pending _ hdata' hfresh' hless =>
          obtain ⟨ms, g, hms⟩ := ih (by omega) hfresh' hdata'
          exact ⟨ms, g, .wait hpoll hms⟩
      | finished _ => exact ⟨[], f', .finished hpoll⟩

end TcpFramed

end LproxyCv.Lws
