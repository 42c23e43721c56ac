import LproxyCv.Dns.DnsTunnel
import LproxyCv.Dns.EndlessNames
import LproxyCv.Dns.WrittenNumbers
import LproxyCv.Tunnels.Envelopes

set_option autoImplicit false

/-!
# Dns: the frames of the forwarder's tunnels

A message of a client goes to the server behind the client's port and address, and the
server's answer comes back behind them.  On its way through, the answer is parsed for the
addresses it names.
-/

namespace LproxyCv.Dns

open LproxyCv.Foundation LproxyCv.Lws LproxyCv.Net LproxyCv.Tunnels

/-- What a tunnel of the forwarder does to its surroundings. -/
inductive DnsEffect where
  | tunnel (effect : Effect)
  | saveIpset (packet : DnsPacket)
  | udpSend (tx : Channel) (content : Bytes) (addr : SocketAddr)
  deriving DecidableEq, Repr

namespace DnsTunnel

/-! ## To the server -/

/-- The number of an address of IPv4.  IPv6 is not supported and counts as 0. -/
def ipNumber : IpAddr → UInt32
  | .v4 v4 => BytePacketBuffer.quad v4.a v4.b v4.c v4.d
  | .v6 _ => 0

/-- The buffer that a message is sent in: the length, the command, the port and the
address, written into the first nine bytes, and the message behind them. -/
def dnsBuf (message : Bytes) (addr : SocketAddr) : Option Bytes := do
  let total := 9 + message.length
  let bs := List.replicate total 0
  let bs ← putAt bs 0 (leBytes 2 total)
  let bs ← putAt bs 2 [Cmd.reqData.toUInt8]
  let bs ← putAt bs 3 (leBytes 2 addr.port.toNat)
  let bs ← putAt bs 5 (leBytes 4 (ipNumber addr.ip).toNat)
  copyRest bs 9 message

/-- A message of a client, for the server. -/
def onDnsUdpMsg (t : DnsTunnel) (message : Bytes) (addr : SocketAddr) : Option Effect := do
  let buf ← dnsBuf message addr
  some (.send t.tx (WMessage.new buf 0))

/-! ## From the server -/

/-- Answer a ping. -/
def replyPing (t : DnsTunnel) (msg : RMessage) : Option Effect := do
  let vec ← pongOf msg.buf
  some (.send t.tx (WMessage.new vec 0))

/-- An answer for a client.  `sent` tells whether the channel of the UDP server still has
a receiver; one that has none is a panic. -/
def onReqData (unicode : UnicodeLower) (fuel : Nat) (t : DnsTunnel) (bs : Bytes) (sent : Bool) :
    Outcome (List DnsEffect) :=
  if bs.length < 6 then .ok []
  else
    match t.udpTx with
    | none => .ok []
    | some tx =>
        match readLE 2 bs 0, readLE 4 bs 2 with
        | some port, some ip32 =>
            let content := bs.drop 6
            let sockaddr : SocketAddr :=
              ⟨.v4 (DnsRecord.ipv4Of (UInt32.ofNat ip32)), UInt16.ofNat port⟩
            let send := DnsEffect.udpSend tx content sockaddr
            match DnsPacket.fromBuffer unicode fuel ⟨content, 0⟩ with
            | .ok (p, _) => if sent then .ok [.saveIpset p, send] else .panic
            | .err _ => if sent then .ok [send] else .panic
            | .panic => .panic
            | .hang => .hang
        | _, _ => .panic

/-- A frame of the server. -/
def onTunnelMsg (unicode : UnicodeLower) (fuel : Nat) (t : DnsTunnel) (msg : RMessage)
    (elapsed : UInt64) (sent : Bool) : Outcome (DnsTunnel × List DnsEffect) :=
  match readCmd msg.buf with
  | none => .panic
  | some (.ping, _) =>
      match t.replyPing msg with
      | none => .panic
      | some effect => .ok (t, [.tunnel effect])
  | some (.pong, bs) =>
      match t.onPong bs elapsed with
      | none => .panic
      | some t => .ok (t, [])
  | some (.reqData, bs) =>
      (t.onReqData unicode fuel bs sent).bind fun effects => .ok (t, effects)
  | some (_, _) => .ok (t, [])

/-! ## There and back -/

/-- The first nine bytes are the head of a frame, the port and the address. -/
theorem dnsBuf_eq (message : Bytes) (addr : SocketAddr) :
    dnsBuf message addr = some (frame .reqData
      (leBytes 2 addr.port.toNat ++ leBytes 4 (ipNumber addr.ip).toNat ++ message)) := by
  obtain ⟨total, htotal⟩ : ∃ total, total = 9 + message.length := ⟨_, rfl⟩
  have hfills := (fills_putAt (leBytes 2 total)).andThen
    ((fills_putAt [Cmd.reqData.toUInt8]).andThen ((fills_putAt (leBytes 2 addr.port.toNat)).andThen
      (fills_putAt (leBytes 4 (ipNumber addr.ip).toNat))))
  have hsize : total = (leBytes 2 total ++ ([Cmd.reqData.toUInt8] ++ (leBytes 2 addr.port.toNat ++
      leBytes 4 (ipNumber addr.ip).toNat))).length + message.length := by
    simp only [List.length_append, leBytes_length, List.length_singleton]
    omega
  have hbody : 3 + (leBytes 2 addr.port.toNat ++ leBytes 4 (ipNumber addr.ip).toNat ++
      message).length = total := by
    simp only [List.length_append, leBytes_length]
    omega
  have hcopy := hfills.copied message hsize
  rw [dnsBuf, ← htotal, frame, hbody]
  simpa [Option.bind_map, Option.bind_assoc, Function.comp_def] using hcopy

/-- The body of such a frame holds the port, the address and the message. -/
theorem dnsBody_read (port : UInt16) (v4 : Ipv4Addr) (message : Bytes) :
    let bs := leBytes 2 port.toNat ++ leBytes 4 (ipNumber (.v4 v4)).toNat ++ message
    ¬ bs.length < 6 ∧ readLE 2 bs 0 = some port.toNat ∧
      readLE 4 bs 2 = some (ipNumber (.v4 v4)).toNat ∧ bs.drop 6 = message := by
  refine ⟨?_, ?_, ?_, ?_⟩
  · simp only [List.length_append, leBytes_length]
    omega
  · rw [List.append_assoc]
    exact readLE_leBytes port.toNat_lt _
  · have hskip := readLE_skip 4 2 port.toNat (leBytes 4 (ipNumber (.v4 v4)).toNat ++ message) 0
    rw [readLE_leBytes (ipNumber (.v4 v4)).toNat_lt] at hskip
    rw [List.append_assoc]
    exact hskip
  · exact List.drop_left' (by simp)

/-- An answer that came from the server as the message went there goes to the client. -/
theorem onReqData_dnsBody (unicode : UnicodeLower) (fuel : Nat) (t : DnsTunnel) {udp : Channel}
    (hudp : t.udpTx = some udp) (port : UInt16) (v4 : Ipv4Addr) (message : Bytes)
    (hparse : (∃ r, DnsPacket.fromBuffer unicode fuel ⟨message, 0⟩ = .ok r) ∨
      ∃ e, DnsPacket.fromBuffer unicode fuel ⟨message, 0⟩ = .err e) :
    ∃ saved, t.onReqData unicode fuel
        (leBytes 2 port.toNat ++ leBytes 4 (ipNumber (.v4 v4)).toNat ++ message) true =
          .ok (saved ++ [.udpSend udp message ⟨.v4 v4, port⟩]) ∧
      ∀ effect ∈ saved, ∃ p, effect = .saveIpset p := by
  obtain ⟨hlong, hport, hip, hcontent⟩ := dnsBody_read port v4 message
  have haddr : DnsRecord.ipv4Of (UInt32.ofNat (ipNumber (.v4 v4)).toNat) = v4 := by
    rw [UInt32.ofNat_toNat]
    exact BytePacketBuffer.ipv4Of_quad v4.a v4.b v4.c v4.d
  rcases hparse with ⟨⟨p, rest⟩, hok⟩ | ⟨e, herr⟩
  · refine ⟨[.saveIpset p], ?_, fun effect h => ⟨p, List.mem_singleton.mp h⟩⟩
    simp only [onReqData, if_neg hlong, hudp, hport, hip, hcontent, hok, haddr, UInt16.ofNat_toNat]
    rfl
  · refine ⟨[], ?_, fun effect h => by cases h⟩
    simp only [onReqData, if_neg hlong, hudp, hport, hip, hcontent, herr, haddr,
      UInt16.ofNat_toNat]
    rfl

end DnsTunnel

/-- A packet that one tunnel sends and another receives is the same packet between the
same two addresses, and a DNS message with an address of IPv4 that one tunnel sends and
another receives is the same message for the same address, whatever the parser that looks at
it in between returns. -/
theorem envelopes_return (unicode : UnicodeLower) (fuel : Nat) :
    (∀ (t t' : Tunnel) (udpx : Channel) (payload : Bytes) (srcAddr dstAddr : SocketAddr)
      (cachedLegnth : UInt16) (error : Option IoError), ∃ buf,
        udpxBuf payload srcAddr dstAddr = some buf ∧
        t.udpProxyNorth payload srcAddr dstAddr = .send t.tx (WMessage.new buf 0) ∧
        (t'.setUdpxTx udpx).onUdpxSouth ⟨buf, cachedLegnth, error⟩ =
          some [.udpRecv udpx payload srcAddr dstAddr]) ∧
    (∀ (t t' : DnsTunnel) (udp : Channel) (message : Bytes) (v4 : Ipv4Addr) (port : UInt16)
      (cachedLegnth : UInt16) (error : Option IoError) (elapsed : UInt64),
        t'.udpTx = some udp →
        (∃ r, DnsPacket.fromBuffer unicode fuel ⟨message, 0⟩ = .ok r) ∨
          (∃ e, DnsPacket.fromBuffer unicode fuel ⟨message, 0⟩ = .err e) →
        ∃ buf saved,
          t.onDnsUdpMsg message ⟨.v4 v4, port⟩ = some (.send t.tx (WMessage.new buf 0)) ∧
          t'.onTunnelMsg unicode fuel ⟨buf, cachedLegnth, error⟩ elapsed true =
            .ok (t', saved ++ [.udpSend udp message ⟨.v4 v4, port⟩]) ∧
          ∀ effect ∈ saved, ∃ p, effect = .saveIpset p) := by
  constructor
  · intro t t' udpx payload srcAddr dstAddr cachedLegnth error
    have hbuf := udpxBuf_eq payload srcAddr dstAddr
    exact ⟨_, hbuf, rfl, t'.onUdpxSouth_udpxBuf udpx hbuf ⟨_, cachedLegnth, error⟩ rfl⟩
  · intro t t' udp message v4 port cachedLegnth error elapsed hudp hparse
    obtain ⟨saved, hdata, hsaved⟩ :=
      t'.onReqData_dnsBody unicode fuel hudp port v4 message hparse
    refine ⟨frame .reqData (leBytes 2 port.toNat ++
      leBytes 4 (DnsTunnel.ipNumber (.v4 v4)).toNat ++ message), saved, ?_, ?_, hsaved⟩
    · rw [DnsTunnel.onDnsUdpMsg, DnsTunnel.dnsBuf_eq]
      rfl
    · rw [DnsTunnel.onTunnelMsg, readCmd_frame]
      dsimp only
      rw [hdata]
      rfl

/-- What the parser makes of twelve zeros: a header that announces nothing. -/
def zeroPacket : DnsPacket :=
  { header := ⟨0, false, false, false, 0, false, .noerror, false, false, false, false, 0, 0, 0, 0⟩
    questions := []
    answers := []
    authorities := []
    resources := [] }

/-- A message that is a header and no more is parsed, and comes back. -/
theorem envelopes_return_header :
    ∃ buf saved,
      (DnsTunnel.new 1 7 2 0).onDnsUdpMsg (List.replicate 12 0) ⟨.v4 ⟨192, 168, 1, 2⟩, 4000⟩ =
        some (.send 1 (WMessage.new buf 0)) ∧
      (DnsTunnel.new 3 8 4 1).onTunnelMsg (fun _ c _ => [c]) 0 ⟨buf, 21, none⟩ 0 true =
        .ok (DnsTunnel.new 3 8 4 1,
          saved ++ [.udpSend 4 (List.replicate 12 0) ⟨.v4 ⟨192, 168, 1, 2⟩, 4000⟩]) ∧
      ∀ effect ∈ saved, ∃ p, effect = .saveIpset p :=
  (envelopes_return (fun _ c _ => [c]) 0).2 (DnsTunnel.new 1 7 2 0) (DnsTunnel.new 3 8 4 1) 4
    (List.replicate 12 0) ⟨192, 168, 1, 2⟩ 4000 21 none 0 rfl
    (.inl ⟨(zeroPacket, ⟨List.replicate 12 0, 12⟩), by decide +kernel⟩)

end LproxyCv.Dns
