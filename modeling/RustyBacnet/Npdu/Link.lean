import RustyBacnet.Npdu.View

/-!
# Link addresses, limits and rejects

`mac.rs`, `limits.rs` and `reject.rs` of `bacnet-npdu`: a link-layer address in fixed storage, the
longest NPDUs a port takes, and the data of a Reject-Message-To-Network.
-/

namespace RustyBacnet

open BigEndian

/-- A link-layer address of at most `maxMacLen` octets. -/
structure Mac where
  octets : List UInt8
  bounded : octets.length ≤ maxMacLen
  deriving DecidableEq

namespace Mac

def empty : Mac := ⟨[], Nat.zero_le _⟩

def fromSlice (octets : List UInt8) : Option Mac :=
  if h : octets.length ≤ maxMacLen then some ⟨octets, h⟩ else none

def isEmpty (mac : Mac) : Bool := mac.octets.isEmpty

@[ext] theorem ext {a b : Mac} (h : a.octets = b.octets) : a = b := by
  cases a
  cases b
  cases h
  rfl

end Mac

/-- The longest NPDUs a port takes. -/
structure NpduLimits where
  unicast : UInt16
  broadcast : UInt16
  deriving DecidableEq

namespace NpduLimits

def both (octets : UInt16) : NpduLimits := ⟨octets, octets⟩

def standard : NpduLimits := both 1497

def get (limits : NpduLimits) (broadcast : Bool) : ℕ :=
  if broadcast then limits.broadcast.toNat else limits.unicast.toNat

end NpduLimits

/-- Why a router refused a message. -/
structure RejectMessageReason where
  raw : UInt8
  deriving DecidableEq

namespace RejectMessageReason

def other : RejectMessageReason := ⟨0⟩
def notDirectlyConnected : RejectMessageReason := ⟨1⟩
def routerBusy : RejectMessageReason := ⟨2⟩
def unknownMessageType : RejectMessageReason := ⟨3⟩
def messageTooLong : RejectMessageReason := ⟨4⟩
def addressingError : RejectMessageReason := ⟨6⟩

end RejectMessageReason

/-- The data of a Reject-Message-To-Network. -/
structure RejectMessageToNetwork where
  reason : RejectMessageReason
  network : UInt16
  deriving DecidableEq

namespace RejectMessageToNetwork

def decode : List UInt8 → Option RejectMessageToNetwork
  | [reason, high, low] => some ⟨⟨reason⟩, ofBytes16 high low⟩
  | _ => none

def toBytes (reject : RejectMessageToNetwork) : List UInt8 :=
  reject.reason.raw :: toBytes16 reject.network

end RejectMessageToNetwork

end RustyBacnet
