import LproxyCv.Tunnels.Tunnel

set_option autoImplicit false

/-!
# Tunnels: the task of a request

What the task of a request sends to the server: the data of its socket, the end
of that data, and a report of how much it has written out.  Whether the tunnel's
channel still has a receiver decides what the task does next, not what is sent.
-/

namespace LproxyCv.Tunnels.ReqServ

open LproxyCv.Foundation LproxyCv.Lws LproxyCv.Tunnels

/-- The socket has data. -/
def onRequestMsg (message : TMessage) (tun : TunStub) : Option (List Effect) := do
  let vec ← stampFrame message.buf .reqData tun.header
  some [.send tun.tunnelTx (WMessage.new vec 0)]

/-- The socket has no more data. -/
def onRequestRecvFinished (tun : TunStub) : Effect :=
  .send tun.tunnelTx (WMessage.new (frame .reqClientFinished tun.header.toBytes) 0)

/-- So many messages were written to the socket since the last report. -/
def sendRequestQuota (tun : TunStub) (quota : UInt16) : Effect :=
  .send tun.tunnelTx
    (WMessage.new (frame .reqClientQuota (tun.header.toBytes ++ leBytes 2 quota.toNat)) 0)

/-- One more message is on its way to the socket: the count goes up, and it is
reported when it reaches half the quota. -/
def countWriteOut (tun : TunStub) (writeOut : UInt16) : UInt16 × List Effect :=
  if writeOut + 1 = tun.requestQuota / 2 then
    (0, [sendRequestQuota tun (writeOut + 1)])
  else (writeOut + 1, [])

end LproxyCv.Tunnels.ReqServ
