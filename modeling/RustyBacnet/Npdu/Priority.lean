import Mathlib.Data.Nat.Basic

/-!
# Network priorities

The four BACnet network priorities, in increasing order.
-/

namespace RustyBacnet

inductive NetworkPriority where
  | normal
  | urgent
  | criticalEquipment
  | lifeSafety
  deriving DecidableEq

namespace NetworkPriority

/-- The value of the two low control bits, which orders the priorities. -/
def rank : NetworkPriority → ℕ
  | normal => 0
  | urgent => 1
  | criticalEquipment => 2
  | lifeSafety => 3

/-- The priority in the two low bits of a control octet. -/
def fromControl (control : UInt8) : NetworkPriority :=
  match control &&& 0x03 with
  | 0 => normal
  | 1 => urgent
  | 2 => criticalEquipment
  | _ => lifeSafety

/-- The two low bits of a control octet that stand for the priority. -/
def toRaw : NetworkPriority → UInt8
  | normal => 0
  | urgent => 1
  | criticalEquipment => 2
  | lifeSafety => 3

end NetworkPriority

end RustyBacnet
