import LproxyCv.Foundation.Bytes

set_option autoImplicit false

/-!
# Net: addresses

The address types of the standard library, with the parts the program reads.
-/

namespace LproxyCv.Net

open LproxyCv.Foundation

/-- The octets of an IPv4 address. -/
structure Ipv4Addr where
  a : UInt8
  b : UInt8
  c : UInt8
  d : UInt8
  deriving DecidableEq, Repr

/-- The segments of an IPv6 address. -/
structure Ipv6Addr where
  a : UInt16
  b : UInt16
  c : UInt16
  d : UInt16
  e : UInt16
  f : UInt16
  g : UInt16
  h : UInt16
  deriving DecidableEq, Repr

namespace Ipv4Addr

/-- The octets in order. -/
def octets (v : Ipv4Addr) : Bytes := [v.a, v.b, v.c, v.d]

end Ipv4Addr

namespace Ipv6Addr

/-- The segments in order. -/
def segments (v : Ipv6Addr) : List UInt16 := [v.a, v.b, v.c, v.d, v.e, v.f, v.g, v.h]

end Ipv6Addr

/-- An address of either family. -/
inductive IpAddr where
  | v4 (addr : Ipv4Addr)
  | v6 (addr : Ipv6Addr)
  deriving DecidableEq, Repr

/-- An address and a port. -/
structure SocketAddr where
  ip : IpAddr
  port : UInt16
  deriving DecidableEq, Repr

/-- Whether the address is one of IPv4. -/
def SocketAddr.isIpv4 (s : SocketAddr) : Bool :=
  match s.ip with
  | .v4 _ => true
  | .v6 _ => false

end LproxyCv.Net
