import LproxyCv.Dns.DnsTunnel
import LproxyCv.Tunnels.TunMgr

set_option autoImplicit false

/-!
# Dns: the forwarder and its tunnels

The forwarder keeps tunnels as the tunnel manager does, with three differences: an
attempt to connect needs the channel of its UDP server, a tunnel that goes is put
off even when the forwarder is stopped, and it is the UDP server that has the
first attempts started.

This module has what concerns the tunnels.  As elsewhere, `none` is a panic, and
the queue is a stack with its top at the head.
-/

namespace LproxyCv.Dns

open LproxyCv.Foundation LproxyCv.Lws LproxyCv.Net LproxyCv.Tunnels

/-- The UDP socket that clients send their questions to. -/
structure UdpServer where
  listenAddr : String
  tx : Option Channel × Option Trigger
  deriving DecidableEq

namespace UdpServer

/-- A server that has not started. -/
def new (addr : String) : UdpServer := ⟨addr, (none, none)⟩

/-- The channel and the trigger of a socket that is bound. -/
def setTx (s : UdpServer) (tx : Channel) (trigger : Trigger) : UdpServer :=
  { s with tx := (some tx, some trigger) }

/-- The channel, while there is one. -/
def getTx (s : UdpServer) : Option Channel := s.tx.1

/-- Give the socket up. -/
def stop (s : UdpServer) : UdpServer := { s with tx := (none, none) }

end UdpServer

/-- The UDP socket that asks the local DNS server, with the questions that are
open: those since the last tick, and those from before it. -/
structure LocalResolver where
  tx : Option Channel × Option Trigger
  requestMemoHistory : List (String × SocketAddr)
  requestMemo : List (String × SocketAddr)
  /-- whether it holds the forwarder, which it needs to start again -/
  fw : Bool
  deriving DecidableEq

namespace LocalResolver

/-- A resolver that has not started. -/
def new : LocalResolver := ⟨(none, none), [], [], false⟩

/-- Start on a socket, if one can be bound. -/
def start (r : LocalResolver) (socket : Option (Channel × Trigger)) : Bool × LocalResolver :=
  match socket with
  | none => (false, r)
  | some (tx, trigger) => (true, { r with tx := (some tx, some trigger), fw := true })

/-- The socket is gone. -/
def invalidTx (r : LocalResolver) : LocalResolver := { r with tx := (none, none) }

/-- Forget the questions from before the last tick. -/
def keepalive (r : LocalResolver) : LocalResolver :=
  { r with requestMemoHistory := r.requestMemo, requestMemo := [] }

/-- Give the socket up. -/
def stop (r : LocalResolver) : LocalResolver := { r with tx := (none, none), fw := false }

end LocalResolver

/-- The forwarder. -/
structure Forwarder where
  udpAddr : String
  relayDomain : String
  relayPort : UInt16
  dnsTunUrl : String
  dnsServer : String
  tunnels : List (Option DnsTunnel)
  reconnectQueue : List UInt16
  capacity : Nat
  server : UdpServer
  discarded : Bool
  keepaliveTrigger : Option Trigger
  lresolver : LocalResolver
  token : String
  deriving DecidableEq

/-- What an attempt to connect a tunnel takes from the forwarder. -/
structure DnsConnectTask where
  index : Nat
  relayDomain : String
  relayPort : UInt16
  wsUrl : String
  udpTx : Channel
  dnsServer : String
  deriving DecidableEq

/-- The tunnel of an attempt that has succeeded. -/
def DnsConnectTask.tunnel (task : DnsConnectTask) (tx : Channel) (rawfd : Int) : DnsTunnel :=
  DnsTunnel.new tx rawfd task.udpTx task.index

namespace Forwarder

/-- The address of the UDP server. -/
def localAddr : String := "127.0.0.1:5001"

/-- A forwarder without tunnels. -/
def new (cfg : TunCfg) : Forwarder :=
  { udpAddr := localAddr
    relayDomain := cfg.relayDomain
    relayPort := cfg.relayPort
    dnsTunUrl := cfg.tunnelUrl
    dnsServer := cfg.defaultDnsServer
    tunnels := List.replicate cfg.dnsTunnelNumber none
    reconnectQueue := []
    capacity := cfg.dnsTunnelNumber
    server := UdpServer.new localAddr
    discarded := false
    keepaliveTrigger := none
    lresolver := LocalResolver.new
    token := cfg.token }

/-- The tunnels there are. -/
def liveTunnels (f : Forwarder) : List DnsTunnel := f.tunnels.filterMap id

/-- Put a tunnel in its place, or empty the place. -/
def setTunnel (f : Forwarder) (index : Nat) (t : Option DnsTunnel) : Forwarder :=
  { f with tunnels := f.tunnels.set index t }

/-- Do something to each tunnel. -/
def mapTunnels (f : Forwarder) (g : DnsTunnel → DnsTunnel) : Forwarder :=
  { f with tunnels := f.tunnels.map (Option.map g) }

/-! ## Connecting -/

/-- The address that a tunnel connects to. -/
def wsUrl (f : Forwarder) : String := s!"{f.dnsTunUrl}?dns=1&tok={f.token}"

/-- What an attempt to connect takes along. -/
def connectTask (f : Forwarder) (udpTx : Channel) (index : Nat) : DnsConnectTask :=
  { index := index
    relayDomain := f.relayDomain
    relayPort := f.relayPort
    wsUrl := f.wsUrl
    udpTx := udpTx
    dnsServer := f.dnsServer }

/-- Start an attempt to connect.  An address that is not one is a panic. -/
def connect (parses : String → Bool) (f : Forwarder) (udpTx : Channel) (index : Nat) :
    Option DnsConnectTask :=
  if parses f.wsUrl then some (f.connectTask udpTx index) else none

/-- The UDP server has a socket: start the attempts for all tunnels. -/
def onDnsUdpCreated (parses : String → Bool) (f : Forwarder) (udps : UdpServer) :
    Option (List DnsConnectTask) :=
  match udps.getTx with
  | some tx => (List.range f.capacity).mapM (f.connect parses tx)
  | none => some []

/-- Start the timer, the UDP server and the resolver.  `udp` and `resolver` are the
sockets that could be bound; the flag tells whether both could. -/
def init (parses : String → Bool) (f : Forwarder) (trigger : Trigger)
    (udp resolver : Option (Channel × Trigger)) :
    Option (Bool × Forwarder × List DnsConnectTask) :=
  let f : Forwarder := { f with keepaliveTrigger := some trigger }
  match udp with
  | none => some (false, f, [])
  | some (tx, udpTrigger) => do
      let server := f.server.setTx tx udpTrigger
      let tasks ← f.onDnsUdpCreated parses server
      let r := f.lresolver.start resolver
      some (r.1, { f with server := server, lresolver := r.2 }, tasks)

/-- A tunnel is connected.  A forwarder that is stopped does not take it; a tunnel
that is already there is a panic. -/
def onTunnelCreated (f : Forwarder) (tun : DnsTunnel) : Option (Bool × Forwarder) :=
  if f.discarded then some (false, f)
  else
    match f.tunnels[tun.index]? with
    | none => none
    | some (some _) => none
    | some none => some (true, f.setTunnel tun.index (some tun))

/-- Have a tunnel connected at the next tick. -/
def reconnectLater (f : Forwarder) (index : Nat) : Forwarder :=
  { f with reconnectQueue := UInt16.ofNat index :: f.reconnectQueue }

/-- The connection of a tunnel is gone. -/
def onTunnelClosed (f : Forwarder) (index : Nat) : Option Forwarder :=
  match f.tunnels[index]? with
  | none => none
  | some none => some f
  | some (some _) => some ((f.setTunnel index none).reconnectLater index)

/-- A tunnel could not be connected. -/
def onTunnelBuildError (f : Forwarder) (index : Nat) : Forwarder :=
  if f.discarded then f else f.reconnectLater index

/-- Start the attempts that have been put off, if there is a socket for their
answers. -/
def processReconnect (parses : String → Bool) (f : Forwarder) :
    Option (Forwarder × List DnsConnectTask) :=
  match f.server.getTx with
  | some tx => do
      let tasks ← (f.reconnectQueue.map UInt16.toNat).mapM (f.connect parses tx)
      some ({ f with reconnectQueue := [] }, tasks)
  | none => some (f, [])

/-- The resolver's socket is gone. -/
def onLresolverUdpClosed (f : Forwarder) : Forwarder :=
  { f with lresolver := f.lresolver.invalidTx }

/-! ## Keepalive -/

/-- What pinging a tunnel does: one that has not answered for too long is shut
down. -/
def pingEffects (elapsed : Channel → UInt64) (sent : Channel → Bool) (t : DnsTunnel) :
    List Effect :=
  let r := t.sendPing (elapsed t.tx) (sent t.tx)
  if r.1 then r.2.2 else r.2.2 ++ [r.2.1.closeRawfd]

/-- Ping all tunnels. -/
def sendPings (f : Forwarder) (elapsed : Channel → UInt64) (sent : Channel → Bool) :
    Forwarder × List Effect :=
  (f.mapTunnels fun t => (t.sendPing (elapsed t.tx) (sent t.tx)).2.1,
    f.liveTunnels.flatMap (pingEffects elapsed sent))

/-- A keepalive tick. -/
def keepalive (parses : String → Bool) (f : Forwarder) (elapsed : Channel → UInt64)
    (sent : Channel → Bool) : Option (Forwarder × List DnsConnectTask × List Effect) :=
  if f.discarded then some (f, [], [])
  else do
    let f : Forwarder := { f with lresolver := f.lresolver.keepalive }
    let (f, pings) := f.sendPings elapsed sent
    let (f, tasks) ← f.processReconnect parses
    some (f, tasks, pings)

/-- Stop: no tunnel is taken or rebuilt any more, and all are shut down. -/
def stop (f : Forwarder) : Forwarder × List Effect :=
  if f.discarded then (f, [])
  else
    ({ f with
        discarded := true
        keepaliveTrigger := none
        server := f.server.stop
        lresolver := f.lresolver.stop },
      f.liveTunnels.map DnsTunnel.closeRawfd)

/-- The answer to a ping, read by the task of a tunnel.  The task and the table
share the tunnel. -/
def onPong (f : Forwarder) (index : Nat) (bs : Bytes) (elapsed : UInt64) : Option Forwarder := do
  let tun ← f.tunnels[index]?.join
  let tun ← tun.onPong bs elapsed
  some (f.setTunnel index (some tun))

end Forwarder

end LproxyCv.Dns
