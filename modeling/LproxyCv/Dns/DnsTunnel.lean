import LproxyCv.Tunnels.Tunnel

set_option autoImplicit false

/-!
# Dns: one tunnel of the forwarder

The forwarder's tunnels carry DNS messages and no requests.  They are kept alive
the way the others are.
-/

namespace LproxyCv.Dns

open LproxyCv.Foundation LproxyCv.Lws LproxyCv.Tunnels

/-- A tunnel of the forwarder. -/
structure DnsTunnel where
  tx : Channel
  index : Nat
  rtt : Rtt
  pingCount : UInt8
  udpTx : Option Channel
  rawfd : Int
  deriving DecidableEq

namespace DnsTunnel

/-- A tunnel just connected. -/
def new (tx : Channel) (rawfd : Int) (udpTx : Channel) (idx : Nat) : DnsTunnel :=
  { tx := tx
    index := idx
    rtt := Rtt.new
    pingCount := 0
    udpTx := some udpTx
    rawfd := rawfd }

/-- Send a ping, unless too many are unanswered.  `sent` tells whether the
channel still has a receiver. -/
def sendPing (t : DnsTunnel) (elapsed : UInt64) (sent : Bool) : Bool × DnsTunnel × List Effect :=
  if 5 < t.pingCount then (false, t, [])
  else if sent then
    let rtt :=
      if 0 < t.pingCount then
        t.rtt.append (Int64.ofNat t.pingCount.toNat * Int64.ofNat keepAliveInterval)
      else t.rtt
    (true, { t with pingCount := t.pingCount + 1, rtt := rtt },
      [.send t.tx (WMessage.new (pingFrame elapsed) 0)])
  else (true, t, [])

/-- The answer to a ping has come. -/
def onPong (t : DnsTunnel) (bs : Bytes) (elapsed : UInt64) : Option DnsTunnel := do
  match ← pongRtt bs elapsed with
  | none => some t
  | some sample => some { t with pingCount := 0, rtt := t.rtt.append sample }

/-- Shut the connection down. -/
def closeRawfd (t : DnsTunnel) : Effect := .shutdown t.rawfd

end DnsTunnel

end LproxyCv.Dns
