import RustyBacnet.Lib.BigEndian

/-!
# B/IP addresses

IPv4 socket addresses as `bacnet-bip-codec` reads them from six octets, and the group destinations
of a B/IP link (`node/addressing.rs` of `bacnet-bip-core`).
-/

namespace RustyBacnet.Bip

open BigEndian

/-- The bits of an IPv4 address. -/
structure Ip where
  bits : UInt32
  deriving DecidableEq

namespace Ip

def unspecified : Ip := ⟨0⟩

def isUnspecified (ip : Ip) : Bool := ip.bits == 0

def isBroadcast (ip : Ip) : Bool := ip.bits == 0xFFFFFFFF

def isMulticast (ip : Ip) : Bool := ip.bits >>> 28 == 0xE

def isLoopback (ip : Ip) : Bool := ip.bits >>> 24 == 127

end Ip

/-- `SocketAddrV4`. -/
structure SocketAddr where
  ip : Ip
  port : UInt16
  deriving DecidableEq

def addressFromSlice : List UInt8 → Option SocketAddr
  | [a, b, c, d, high, low] =>
    some
      ⟨⟨a.toUInt32 <<< 24 ||| b.toUInt32 <<< 16 ||| c.toUInt32 <<< 8 ||| d.toUInt32⟩,
        ofBytes16 high low⟩
  | _ => none

/-- The addresses that reach more than one node of a link. -/
structure Groups where
  broadcast : SocketAddr
  interface : Ip
  directed : Ip
  deriving DecidableEq

namespace Groups

def containsIp (groups : Groups) (ip : Ip) : Bool :=
  let directed := !groups.directed.isUnspecified && groups.directed == ip
  let subnet := ip == groups.broadcast.ip || directed
  ip.isBroadcast || ip.isMulticast || (subnet && !ip.isLoopback && ip != groups.interface)

def contains (groups : Groups) (address : SocketAddr) : Bool :=
  address == groups.broadcast || groups.containsIp address.ip

end Groups

end RustyBacnet.Bip
