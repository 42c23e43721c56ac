import LproxyCv.Lws.Msg
import LproxyCv.Net
import LproxyCv.Tunnels.Reqq

set_option autoImplicit false

/-!
# Tunnels: one tunnel of the client

A tunnel multiplexes the requests of its table over one connection.  Each
function returns what it sends; `none` is a panic of the source.  A send into a
channel whose receiver is gone is only logged by the source, except that a ping
that could not be sent is not counted.
-/

namespace LproxyCv.Tunnels

open LproxyCv.Foundation LproxyCv.Lws LproxyCv.Net

/-- What a tunnel does to its surroundings. -/
inductive Effect where
  | send (tx : Channel) (msg : WMessage)
  | udpRecv (tx : Channel) (payload : Bytes) (src dst : SocketAddr)
  | shutdown (rawfd : Int)
  deriving DecidableEq, Repr

/-- A tunnel. -/
structure Tunnel where
  tx : Channel
  udpxTx : Option Channel
  index : Nat
  requests : Reqq
  capacity : UInt16
  rtt : Rtt
  reqCount : UInt16
  pingCount : UInt8
  rawfd : Int
  busy : Nat
  requestQuota : UInt16
  deriving DecidableEq

/-- The bytes of an address in a frame: the port, the family, the address. -/
def writeSocketaddr (addr : SocketAddr) : Bytes :=
  leBytes 2 addr.port.toNat ++
    match addr.ip with
    | .v4 v4 => 0 :: v4.octets
    | .v6 v6 => 1 :: v6.segments.flatMap fun s => leBytes 2 s.toNat

/-- Four octets at `offset`. -/
def readIpv4 (bs : Bytes) (offset : Nat) : Option Ipv4Addr := do
  let a ← readLE 1 bs offset
  let b ← readLE 1 bs (offset + 1)
  let c ← readLE 1 bs (offset + 2)
  let d ← readLE 1 bs (offset + 3)
  some ⟨UInt8.ofNat a, UInt8.ofNat b, UInt8.ofNat c, UInt8.ofNat d⟩

/-- Eight segments at `offset`. -/
def readIpv6 (bs : Bytes) (offset : Nat) : Option Ipv6Addr := do
  let a ← readLE 2 bs offset
  let b ← readLE 2 bs (offset + 2)
  let c ← readLE 2 bs (offset + 4)
  let d ← readLE 2 bs (offset + 6)
  let e ← readLE 2 bs (offset + 8)
  let f ← readLE 2 bs (offset + 10)
  let g ← readLE 2 bs (offset + 12)
  let h ← readLE 2 bs (offset + 14)
  some ⟨UInt16.ofNat a, UInt16.ofNat b, UInt16.ofNat c, UInt16.ofNat d,
    UInt16.ofNat e, UInt16.ofNat f, UInt16.ofNat g, UInt16.ofNat h⟩

/-- The address at `offset`, and the offset behind it. -/
def readSocketaddr (bs : Bytes) (offset : Nat) : Option (SocketAddr × Nat) := do
  let port ← readLE 2 bs offset
  let addrType ← readLE 1 bs (offset + 2)
  if addrType = 0 then
    let v4 ← readIpv4 bs (offset + 3)
    some (⟨.v4 v4, UInt16.ofNat port⟩, offset + 7)
  else
    let v6 ← readIpv6 bs (offset + 3)
    some (⟨.v6 v6, UInt16.ofNat port⟩, offset + 19)

/-- The frame that tells the server about a new request. -/
def sendRequestCreatedToServer (ts : TunStub) (ip : IpAddr) (port : UInt16) : Effect :=
  let addr : Bytes :=
    match ip with
    | .v4 v4 => 0 :: v4.octets
    | .v6 v6 => 2 :: v6.segments.flatMap fun s => leBytes 2 s.toNat
  .send ts.tunnelTx
    (WMessage.new (frame .reqCreated (ts.header.toBytes ++ addr ++ leBytes 2 port.toNat)) 0)

/-- The frame that tells the server that a request is over. -/
def sendRequestClosedToServer (ts : TunStub) : Effect :=
  .send ts.tunnelTx (WMessage.new (frame .reqClientClosed ts.header.toBytes) 0)

namespace Tunnel

/-- A tunnel just connected. -/
def new (tx : Channel) (rawfd : Int) (idx cap : Nat) (requestQuota : UInt16) : Tunnel :=
  { tx := tx
    udpxTx := none
    index := idx
    requests := Reqq.new cap
    capacity := UInt16.ofNat cap
    rtt := Rtt.new
    reqCount := 0
    pingCount := 0
    rawfd := rawfd
    busy := 0
    requestQuota := requestQuota }

/-! ## Requests -/

/-- The channel of the request with this index and tag. -/
def getRequestTx (t : Tunnel) (reqIdx reqTag : UInt16) : Option Channel :=
  match t.requests.slot reqIdx.toNat with
  | none => none
  | some req => if req.tag = reqTag then req.requestTx else none

/-- Close the channel of the request with this index and tag. -/
def freeRequestTx (t : Tunnel) (reqIdx reqTag : UInt16) : Tunnel :=
  match t.requests.slot reqIdx.toNat with
  | none => t
  | some req =>
      if req.tag = reqTag ∧ req.requestTx.isSome then
        { t with requests := t.requests.setSlot reqIdx.toNat { req with requestTx := none } }
      else t

/-- Hand out a slot to a request.  The index 65535 stands for a failed
allocation. -/
def onRequestCreatedInternal (t : Tunnel) (req : Request) : Tunnel × Option TunStub :=
  let r := t.requests.alloc req
  if r.1.1 ≠ 65535 then
    ({ t with requests := r.2, reqCount := t.reqCount + 1 },
      some
        { tunnelTx := t.tx
          tunIdx := UInt16.ofNat t.index
          reqIdx := r.1.1
          reqTag := r.1.2
          requestQuota := t.requestQuota })
  else ({ t with requests := r.2 }, none)

/-- A new request for an address. -/
def onRequestCreated (t : Tunnel) (req : Request) (ip : IpAddr) (port : UInt16) :
    Tunnel × Option TunStub × List Effect :=
  match t.onRequestCreatedInternal req with
  | (t', some ts) => (t', some ts, [sendRequestCreatedToServer ts ip port])
  | (t', none) => (t', none, [])

/-- Take the slot with this index and tag back, and count it. -/
def release (t : Tunnel) (reqIdx reqTag : UInt16) : Bool × Tunnel :=
  let r := t.requests.free reqIdx reqTag
  (r.1, { t with requests := r.2, reqCount := if r.1 then t.reqCount - 1 else t.reqCount })

/-- The task of a request has ended. -/
def onRequestClosed (t : Tunnel) (tunstub : TunStub) : Tunnel × List Effect :=
  let r := t.release tunstub.reqIdx tunstub.reqTag
  (r.2, if r.1 then [sendRequestClosedToServer tunstub] else [])

/-- The connection is gone. -/
def onClosed (t : Tunnel) : Tunnel := { t with requests := t.requests.clearAll }

/-! ## Frames of the server -/

/-- Answer a ping. -/
def replyPing (t : Tunnel) (msg : RMessage) : Option (Tunnel × List Effect) := do
  let vec ← pongOf msg.buf
  some (t, [.send t.tx (WMessage.new vec 0)])

/-- The answer to a ping has come. -/
def onPong (t : Tunnel) (bs : Bytes) (elapsed : UInt64) : Option Tunnel := do
  match ← pongRtt bs elapsed with
  | none => some t
  | some sample => some { t with pingCount := 0, rtt := t.rtt.append sample }

/-- A UDP packet of the server. -/
def onUdpxSouth (t : Tunnel) (msg : RMessage) : Option (List Effect) :=
  match t.udpxTx with
  | none => some []
  | some udpx => do
      let bs := msg.buf.drop 3
      let (srcAddr, offset) ← readSocketaddr bs 0
      let (dstAddr, offset) ← readSocketaddr bs offset
      some [.udpRecv udpx (msg.buf.drop (3 + offset)) srcAddr dstAddr]

/-- A frame of the server. -/
def onTunnelMsg (t : Tunnel) (msg : RMessage) (elapsed : UInt64) :
    Option (Tunnel × List Effect) := do
  let (cmd, bs) ← readCmd msg.buf
  let t := { t with busy := t.busy + (bs.length + 1) }
  match cmd with
  | .ping => t.replyPing msg
  | .pong => do
      let t ← t.onPong bs elapsed
      some (t, [])
  | .udpX => do
      let effects ← t.onUdpxSouth msg
      some (t, effects)
  | .reqData => do
      let th ← THeader.readFrom bs
      match t.getRequestTx th.reqIdx th.reqTag with
      | none => some (t, [])
      | some tx => some (t, [.send tx (WMessage.new msg.buf (UInt16.ofNat (3 + theaderSize)))])
  | .reqServerFinished => do
      let th ← THeader.readFrom bs
      some (t.freeRequestTx th.reqIdx th.reqTag, [])
  | .reqServerClosed => do
      let th ← THeader.readFrom bs
      some ((t.release th.reqIdx th.reqTag).2, [])
  | _ => some (t, [])

/-! ## Keepalive and UDP -/

/-- Send a ping, unless too many are unanswered.  `sent` tells whether the
channel still has a receiver. -/
def sendPing (t : Tunnel) (elapsed : UInt64) (sent : Bool) : Bool × Tunnel × List Effect :=
  if 5 < t.pingCount then (false, t, [])
  else if sent then
    let rtt :=
      if 0 < t.pingCount then
        t.rtt.append (Int64.ofNat t.pingCount.toNat * Int64.ofNat keepAliveInterval)
      else t.rtt
    (true, { t with pingCount := t.pingCount + 1, rtt := rtt },
      [.send t.tx (WMessage.new (pingFrame elapsed) 0)])
  else (true, t, [])

/-- Shut the connection down. -/
def closeRawfd (t : Tunnel) : Effect := .shutdown t.rawfd

/-- Forget how much the tunnel has carried. -/
def resetBusy (t : Tunnel) : Tunnel := { t with busy := 0 }

/-- Connect the UDP proxy. -/
def setUdpxTx (t : Tunnel) (tx : Channel) : Tunnel := { t with udpxTx := some tx }

/-- A UDP packet for the server. -/
def udpProxyNorth (t : Tunnel) (msg : Bytes) (srcAddr dstAddr : SocketAddr) : Effect :=
  .send t.tx
    (WMessage.new (frame .udpX (writeSocketaddr srcAddr ++ writeSocketaddr dstAddr ++ msg)) 0)

/-! ## What each function does to the table -/

/-- Taking a slot back either finds the tag, empties the slot and counts it, or
changes nothing. -/
theorem release_cases (t : Tunnel) (reqIdx reqTag : UInt16) :
    (∃ req, t.requests.slot reqIdx.toNat = some req ∧ req.tag = reqTag ∧
      (t.requests.free reqIdx reqTag).1 = true ∧
      (t.release reqIdx reqTag).1 = true ∧
      (t.release reqIdx reqTag).2.requests.freeList = reqIdx.toNat :: t.requests.freeList ∧
      (t.release reqIdx reqTag).2.requests.elements =
        t.requests.elements.set reqIdx.toNat (Reqq.cleanReq req) ∧
      (t.release reqIdx reqTag).2.reqCount = t.reqCount - 1) ∨
    ((t.requests.free reqIdx reqTag).1 = false ∧ t.release reqIdx reqTag = (false, t) ∧
      ∀ req, t.requests.slot reqIdx.toNat = some req → req.tag ≠ reqTag) := by
  unfold release
  rcases t.requests.free_cases reqIdx reqTag with
    ⟨req, hslot, htag, hok, hfree, helems⟩ | ⟨hsame, htag⟩
  · left
    exact ⟨req, hslot, htag, hok, hok, hfree, helems, by simp [hok]⟩
  · right
    rw [hsame]
    exact ⟨rfl, rfl, htag⟩

/-- Handing out a slot fills the one on top of the stack, if its index is a
valid handle; nothing else of the tunnel changes. -/
theorem onRequestCreated_cons {t : Tunnel} {i : Nat} {rest : List Nat}
    (h : t.requests.freeList = i :: rest) (hi : i < 65535) (req2 : Request) (ip : IpAddr)
    (port : UInt16) :
    ∃ req ts, t.requests.slot i = some req ∧
      (t.onRequestCreated req2 ip port).2.1 = some ts ∧
      ts.reqIdx.toNat = i ∧ ts.reqTag = req.tag + 1 ∧ ts.tunnelTx = t.tx ∧
      ts.tunIdx = UInt16.ofNat t.index ∧
      (t.onRequestCreated req2 ip port).1.requests.freeList = rest ∧
      (t.onRequestCreated req2 ip port).1.requests.elements =
        t.requests.elements.set i (Reqq.fillReq req req2) ∧
      (t.onRequestCreated req2 ip port).1.reqCount = t.reqCount + 1 ∧
      (t.onRequestCreated req2 ip port).1.tx = t.tx ∧
      (t.onRequestCreated req2 ip port).1.index = t.index := by
  obtain ⟨req, hslot, hhandle, hfree, helems⟩ := Reqq.alloc_cons h req2
  have hnat : (UInt16.ofNat i).toNat = i := by
    rw [UInt16.toNat_ofNat']
    omega
  have hne : (t.requests.alloc req2).1.1 ≠ 65535 := by
    intro heq
    have hval := congrArg UInt16.toNat heq
    rw [hhandle, hnat] at hval
    have hmax : (65535 : UInt16).toNat = 65535 := rfl
    omega
  have hcreated : t.onRequestCreatedInternal req2 =
      ({ t with requests := (t.requests.alloc req2).2, reqCount := t.reqCount + 1 },
        some ⟨t.tx, UInt16.ofNat t.index, UInt16.ofNat i, req.tag + 1, t.requestQuota⟩) := by
    unfold onRequestCreatedInternal
    rw [if_pos hne, hhandle]
  refine ⟨req, _, hslot, by rw [onRequestCreated, hcreated], hnat, rfl, rfl, rfl, ?_⟩
  rw [onRequestCreated, hcreated]
  exact ⟨hfree, helems, rfl, rfl, rfl⟩

/-- No request is taken when no slot is free. -/
theorem onRequestCreated_nil {t : Tunnel} (h : t.requests.freeList = []) (req2 : Request)
    (ip : IpAddr) (port : UInt16) : t.onRequestCreated req2 ip port = (t, none, []) := by
  simp [onRequestCreated, onRequestCreatedInternal, Reqq.alloc_nil h]

/-- Closing a channel leaves every slot with its tag and its trigger. -/
theorem freeRequestTx_slot (t : Tunnel) (reqIdx reqTag : UInt16) :
    (t.freeRequestTx reqIdx reqTag).requests.freeList = t.requests.freeList ∧
    (t.freeRequestTx reqIdx reqTag).requests.elements.length = t.requests.elements.length ∧
    ∀ i req', (t.freeRequestTx reqIdx reqTag).requests.slot i = some req' →
      ∃ req, t.requests.slot i = some req ∧ req'.tag = req.tag ∧ req'.trigger = req.trigger ∧
        (req'.requestTx = req.requestTx ∨ req'.requestTx = none) := by
  have hsame : ∀ i req', t.requests.slot i = some req' →
      ∃ req, t.requests.slot i = some req ∧ req'.tag = req.tag ∧ req'.trigger = req.trigger ∧
        (req'.requestTx = req.requestTx ∨ req'.requestTx = none) :=
    fun i req' h => ⟨req', h, rfl, rfl, Or.inl rfl⟩
  unfold freeRequestTx
  split
  · exact ⟨rfl, rfl, hsame⟩
  · rename_i req hslot
    split
    · refine ⟨rfl, by simp [Reqq.setSlot], ?_⟩
      intro i req' h
      rw [Reqq.slot_set (q := t.requests) rfl] at h
      by_cases hi : reqIdx.toNat = i
      · rw [if_pos hi, ← hi, hslot] at h
        cases h
        exact ⟨req, by rw [← hi, hslot], rfl, rfl, Or.inr rfl⟩
      · rw [if_neg hi] at h
        exact hsame i req' h
    · exact ⟨rfl, rfl, hsame⟩

@[simp] theorem freeRequestTx_reqCount (t : Tunnel) (reqIdx reqTag : UInt16) :
    (t.freeRequestTx reqIdx reqTag).reqCount = t.reqCount := by
  unfold freeRequestTx
  split
  · rfl
  · split <;> rfl

/-! ## What a frame does to the requests -/

/-- What a frame does, as far as the requests are concerned.  `b` is what the
frame adds to the load of the tunnel. -/
inductive MsgSpec (t : Tunnel) (msg : RMessage) : Tunnel → List Effect → Prop where
  /-- the payload goes to the request that holds the slot -/
  | data {th : THeader} {effects : List Effect} (b : Nat) :
      requestFrame msg.buf = some (.reqData, th) →
      effects = ((t.getRequestTx th.reqIdx th.reqTag).map fun tx =>
        Effect.send tx (WMessage.new msg.buf (UInt16.ofNat (3 + theaderSize)))).toList →
      MsgSpec t msg { t with busy := b } effects
  /-- the server has no more data for a request -/
  | finished {th : THeader} (b : Nat) :
      requestFrame msg.buf = some (.reqServerFinished, th) →
      MsgSpec t msg { t.freeRequestTx th.reqIdx th.reqTag with busy := b } []
  /-- the server has closed a request -/
  | closed {th : THeader} (b : Nat) :
      requestFrame msg.buf = some (.reqServerClosed, th) →
      MsgSpec t msg { (t.release th.reqIdx th.reqTag).2 with busy := b } []
  /-- the frame is not about a request -/
  | other {t' : Tunnel} {effects : List Effect} :
      (∀ cmd th, requestFrame msg.buf = some (cmd, th) →
        cmd ≠ .reqData ∧ cmd ≠ .reqServerFinished ∧ cmd ≠ .reqServerClosed) →
      t'.requests = t.requests → t'.reqCount = t.reqCount → t'.tx = t.tx →
      t'.index = t.index → MsgSpec t msg t' effects

theorem onPong_requests {t t' : Tunnel} {bs : Bytes} {elapsed : UInt64}
    (h : t.onPong bs elapsed = some t') :
    t'.requests = t.requests ∧ t'.reqCount = t.reqCount ∧ t'.tx = t.tx ∧ t'.index = t.index := by
  unfold onPong at h
  simp only [Option.bind_eq_bind, Option.bind_eq_some_iff] at h
  obtain ⟨sample, _, h⟩ := h
  cases sample with
  | none =>
      cases h
      exact ⟨rfl, rfl, rfl, rfl⟩
  | some sample =>
      cases h
      exact ⟨rfl, rfl, rfl, rfl⟩

/-- The ways in which a frame is taken, once its length is added to the load. -/
inductive MsgCase (t : Tunnel) (msg : RMessage) (elapsed : UInt64) :
    Tunnel → List Effect → Prop where
  | data {bs : Bytes} {th : THeader} : readCmd msg.buf = some (.reqData, bs) →
      THeader.readFrom bs = some th →
      MsgCase t msg elapsed t ((t.getRequestTx th.reqIdx th.reqTag).map fun tx =>
        Effect.send tx (WMessage.new msg.buf (UInt16.ofNat (3 + theaderSize)))).toList
  | finished {bs : Bytes} {th : THeader} : readCmd msg.buf = some (.reqServerFinished, bs) →
      THeader.readFrom bs = some th →
      MsgCase t msg elapsed (t.freeRequestTx th.reqIdx th.reqTag) []
  | closed {bs : Bytes} {th : THeader} : readCmd msg.buf = some (.reqServerClosed, bs) →
      THeader.readFrom bs = some th →
      MsgCase t msg elapsed (t.release th.reqIdx th.reqTag).2 []
  | pong {bs : Bytes} {t' : Tunnel} : readCmd msg.buf = some (.pong, bs) →
      t.onPong bs elapsed = some t' → MsgCase t msg elapsed t' []
  | other {cmd : Cmd} {bs : Bytes} {effects : List Effect} : readCmd msg.buf = some (cmd, bs) →
      cmd ≠ .reqData ∧ cmd ≠ .reqServerFinished ∧ cmd ≠ .reqServerClosed → cmd ≠ .pong →
      MsgCase t msg elapsed t effects

theorem onTunnelMsg_cases {t t' : Tunnel} {msg : RMessage} {elapsed : UInt64}
    {effects : List Effect} (h : t.onTunnelMsg msg elapsed = some (t', effects)) :
    ∃ b, MsgCase { t with busy := b } msg elapsed t' effects := by
  unfold onTunnelMsg at h
  simp only [Option.bind_eq_bind, Option.bind_eq_some_iff] at h
  obtain ⟨⟨cmd, bs⟩, hread, h⟩ := h
  refine ⟨t.busy + (bs.length + 1), ?_⟩
  cases cmd with
  | reqData =>
      simp only [Option.bind_eq_some_iff] at h
      obtain ⟨th, hth, h⟩ := h
      have hdata : MsgCase { t with busy := t.busy + (bs.length + 1) } msg elapsed _ _ :=
        .data hread hth
      split at h
      · rename_i hslot
        cases h
        rwa [hslot] at hdata
      · rename_i tx hslot
        cases h
        rwa [hslot] at hdata
  | reqServerFinished =>
      simp only [Option.bind_eq_some_iff, Option.some.injEq, Prod.mk.injEq] at h
      obtain ⟨th, hth, rfl, rfl⟩ := h
      exact .finished hread hth
  | reqServerClosed =>
      simp only [Option.bind_eq_some_iff, Option.some.injEq, Prod.mk.injEq] at h
      obtain ⟨th, hth, rfl, rfl⟩ := h
      exact .closed hread hth
  | pong =>
      simp only [Option.bind_eq_some_iff, Option.some.injEq, Prod.mk.injEq] at h
      obtain ⟨t'', hpong, rfl, rfl⟩ := h
      exact .pong hread hpong
  | ping =>
      simp only [replyPing, Option.bind_eq_bind, Option.bind_eq_some_iff, Option.some.injEq,
        Prod.mk.injEq] at h
      obtain ⟨_, _, rfl, _⟩ := h
      exact .other hread (by simp) (by simp)
  | udpX =>
      simp only [Option.bind_eq_some_iff, Option.some.injEq, Prod.mk.injEq] at h
      obtain ⟨_, _, rfl, _⟩ := h
      exact .other hread (by simp) (by simp)
  | _ =>
      cases h
      exact .other hread (by simp) (by simp)

theorem freeRequestTx_busy (t : Tunnel) (b : Nat) (reqIdx reqTag : UInt16) :
    Tunnel.freeRequestTx { t with busy := b } reqIdx reqTag =
      { t.freeRequestTx reqIdx reqTag with busy := b } := by
  unfold freeRequestTx
  dsimp only
  split
  · rfl
  · split <;> rfl

/-- What a frame does to the requests of a tunnel. -/
theorem onTunnelMsg_spec {t t' : Tunnel} {msg : RMessage} {elapsed : UInt64}
    {effects : List Effect} (h : t.onTunnelMsg msg elapsed = some (t', effects)) :
    MsgSpec t msg t' effects := by
  obtain ⟨b, hcase⟩ := onTunnelMsg_cases h
  cases hcase with
  | data hread hth => exact .data b (requestFrame_of_readCmd hread hth) rfl
  | finished hread hth =>
      rw [freeRequestTx_busy]
      exact .finished b (requestFrame_of_readCmd hread hth)
  | closed hread hth => exact .closed b (requestFrame_of_readCmd hread hth)
  | pong hread hpong =>
      obtain ⟨hreqs, hcount, htx, hindex⟩ := onPong_requests hpong
      refine .other (fun cmd' th heq => ?_) hreqs hcount htx hindex
      rw [cmd_of_requestFrame hread heq]
      simp
  | other hread hcmd _ =>
      refine .other (fun cmd' th heq => ?_) rfl rfl rfl rfl
      rw [cmd_of_requestFrame hread heq]
      exact hcmd

end Tunnel

end LproxyCv.Tunnels
