import Mathlib.Data.List.Lex
import Mathlib.Data.Prod.Lex
import RustyBacnet.Encoding.Primitives

/-!
# Who a subscription belongs to and what it monitors

The recipient a subscription is counted under, the route its notifications take, and the key the
table orders its entries by. Keys compare through `order`: the object, then the coordinates in the
order of the source's `rank`. Each coordinate of each family stands in it, so the order is linear.
-/

namespace RustyBacnet.Cov

open Encoding

/-- The part of `bacnet-types`' `Error` that subscriptions are refused with. -/
inductive Error where
  | encoding (message : String)
  | protocol (errorClass errorCode : ℕ)
  deriving DecidableEq

namespace Error

/-- `RESOURCES`, `NO_SPACE_TO_ADD_LIST_ELEMENT`. -/
def noSpaceToAddListElement : Error := .protocol 3 19

/-- `SERVICES`, `VALUE_OUT_OF_RANGE`. -/
def valueOutOfRange : Error := .protocol 5 37

end Error

/-! ## Addresses -/

/-- The immediate transport destination, and the routed source behind it. -/
structure SubscriberEndpoint where
  mac : List UInt8
  network : Option NpduAddress
  deriving DecidableEq

/-- The client's own address, without the router it is reached through. -/
inductive CovRecipient where
  | direct (mac : List UInt8)
  | routed (source : NpduAddress)
  deriving DecidableEq

namespace CovRecipient

def fromEndpoint (mac : List UInt8) : Option NpduAddress → CovRecipient
  | some source => .routed source
  | none => .direct mac

/-- The octets `validate` measures. -/
def mac : CovRecipient → List UInt8
  | .direct mac => mac
  | .routed source => source.macAddress

def macTooLong (octets : ℕ) : String :=
  "COV recipient MAC of " ++ toString octets
    ++ " octets exceeds the 18-octet BACnetAddress limit"

def isUnaddressed : CovRecipient → Bool
  | .direct _ => false
  | .routed source => source.macAddress.isEmpty

def validate (recipient : CovRecipient) : Except Error Unit :=
  if recipient.isUnaddressed then
    .error (.encoding "COV routed recipient requires a nonempty source MAC")
  else if recipient.mac.length > maxMacLen then
    .error (.encoding (macTooLong recipient.mac.length))
  else .ok ()

/-- The derived order's coordinates: direct before routed, then the address. -/
def order : CovRecipient → ℕ ×ₗ ℕ ×ₗ List ℕ
  | .direct mac => toLex (0, toLex (0, mac.map UInt8.toNat))
  | .routed source =>
    toLex (1, toLex (source.network.toNat, source.macAddress.map UInt8.toNat))

theorem order_injective : Function.Injective order := by
  have hmac : Function.Injective (List.map UInt8.toNat) :=
    List.map_injective_iff.mpr fun _ _ h => UInt8.toNat_inj.mp h
  rintro (mac | ⟨network, mac⟩) (mac' | ⟨network', mac'⟩) h
  · have hpair := Prod.ext_iff.mp (toLex.injective (Prod.ext_iff.mp (toLex.injective h)).2)
    exact congrArg _ (hmac hpair.2)
  · exact absurd (Prod.ext_iff.mp (toLex.injective h)).1 (nomatch ·)
  · exact absurd (Prod.ext_iff.mp (toLex.injective h)).1 (nomatch ·)
  · have hpair := Prod.ext_iff.mp (toLex.injective (Prod.ext_iff.mp (toLex.injective h)).2)
    have hnetwork := UInt16.toNat_inj.mp hpair.1
    have hmacs := hmac hpair.2
    exact congrArg _ (NpduAddress.mk.injEq .. ▸ ⟨hnetwork, hmacs⟩)

instance : LinearOrder CovRecipient where
  __ := PartialOrder.lift order order_injective
  le_total a b := le_total a.order b.order
  toDecidableLE a b := inferInstanceAs (Decidable (a.order ≤ b.order))
  toDecidableEq := inferInstance

end CovRecipient

/-! ## Keys -/

/-- A Multiple notification context; the two forms are independent. -/
structure MultipleContextKey where
  recipient : CovRecipient
  processId : UInt32
  confirmed : Bool
  deriving DecidableEq

inductive CovSubscriptionKey where
  | object (recipient : CovRecipient) (processId : UInt32) (oid : ObjectIdentifier)
  | property (recipient : CovRecipient) (processId : UInt32) (oid : ObjectIdentifier)
      (propertyId : UInt32) (index : Option UInt32)
  | multiple (context : MultipleContextKey) (oid : ObjectIdentifier) (propertyId : UInt32)
      (index : Option UInt32)
  deriving DecidableEq

namespace CovSubscriptionKey

def monitored : CovSubscriptionKey → ObjectIdentifier
  | .object _ _ oid => oid
  | .property _ _ oid _ _ => oid
  | .multiple _ oid _ _ => oid

def multipleContext : CovSubscriptionKey → Option MultipleContextKey
  | .multiple context _ _ _ => some context
  | _ => none

def recipient : CovSubscriptionKey → CovRecipient
  | .object recipient _ _ => recipient
  | .property recipient _ _ _ _ => recipient
  | .multiple context _ _ _ => context.recipient

def optionOrder (number : Option UInt32) : ℕ := number.elim 0 fun n => n.toNat + 1

def rank : CovSubscriptionKey → Bool ×ₗ ℕ ×ₗ ℕ ×ₗ CovRecipient ×ₗ ℕ ×ₗ Bool
  | .object recipient processId _ =>
    toLex (false, toLex (optionOrder none, toLex (optionOrder none,
      toLex (recipient, toLex (processId.toNat, false)))))
  | .property recipient processId _ propertyId index =>
    toLex (false, toLex (optionOrder (some propertyId), toLex (optionOrder index,
      toLex (recipient, toLex (processId.toNat, false)))))
  | .multiple context _ propertyId index =>
    toLex (true, toLex (optionOrder (some propertyId), toLex (optionOrder index,
      toLex (context.recipient, toLex (context.processId.toNat, context.confirmed)))))

def objectOrder (oid : ObjectIdentifier) : ℕ ×ₗ ℕ :=
  toLex (oid.objectType.toNat, oid.instanceNumber.toNat)

/-- What `cmp` compares. -/
def order (key : CovSubscriptionKey) : (ℕ ×ₗ ℕ) ×ₗ (Bool ×ₗ ℕ ×ₗ ℕ ×ₗ CovRecipient ×ₗ ℕ ×ₗ Bool) :=
  toLex (objectOrder key.monitored, key.rank)

theorem optionOrder_injective : Function.Injective optionOrder := by
  rintro (_ | n) (_ | m) h
  · rfl
  · exact absurd h (Nat.succ_ne_zero _).symm
  · exact absurd h (Nat.succ_ne_zero _)
  · exact congrArg some (UInt32.toNat_inj.mp (Nat.succ.inj h))

theorem objectOrder_injective : Function.Injective objectOrder := by
  rintro ⟨objectType, instanceNumber, _, _⟩ ⟨objectType', instanceNumber', _, _⟩ h
  have hpair := Prod.ext_iff.mp (toLex.injective h)
  have htype := UInt32.toNat_inj.mp hpair.1
  have hinstance := UInt32.toNat_inj.mp hpair.2
  subst htype
  subst hinstance
  rfl

theorem order_injective : Function.Injective order := by
  intro key key' h
  have hpair := Prod.ext_iff.mp (toLex.injective h)
  have hobject : key.monitored = key'.monitored := objectOrder_injective hpair.1
  have hrank : key.rank = key'.rank := hpair.2
  cases key with
  | object recipient processId oid =>
    cases key' with
    | object =>
      simp only [rank, EmbeddingLike.apply_eq_iff_eq, Prod.mk.injEq, UInt32.toNat_inj] at hrank
      simp only [monitored] at hobject
      simp only [CovSubscriptionKey.object.injEq]
      exact ⟨hrank.2.2.2.1, hrank.2.2.2.2.1, hobject⟩
    | property =>
      simp only [rank, EmbeddingLike.apply_eq_iff_eq, Prod.mk.injEq] at hrank
      exact absurd (optionOrder_injective hrank.2.1) (nomatch ·)
    | multiple =>
      simp only [rank, EmbeddingLike.apply_eq_iff_eq, Prod.mk.injEq] at hrank
      exact absurd hrank.1 (nomatch ·)
  | property recipient processId oid propertyId index =>
    cases key' with
    | object =>
      simp only [rank, EmbeddingLike.apply_eq_iff_eq, Prod.mk.injEq] at hrank
      exact absurd (optionOrder_injective hrank.2.1) (nomatch ·)
    | property =>
      simp only [rank, EmbeddingLike.apply_eq_iff_eq, Prod.mk.injEq, UInt32.toNat_inj] at hrank
      simp only [monitored] at hobject
      simp only [CovSubscriptionKey.property.injEq]
      exact ⟨hrank.2.2.2.1, hrank.2.2.2.2.1, hobject,
        Option.some.inj (optionOrder_injective hrank.2.1), optionOrder_injective hrank.2.2.1⟩
    | multiple =>
      simp only [rank, EmbeddingLike.apply_eq_iff_eq, Prod.mk.injEq] at hrank
      exact absurd hrank.1 (nomatch ·)
  | multiple context oid propertyId index =>
    cases key' with
    | object =>
      simp only [rank, EmbeddingLike.apply_eq_iff_eq, Prod.mk.injEq] at hrank
      exact absurd hrank.1 (nomatch ·)
    | property =>
      simp only [rank, EmbeddingLike.apply_eq_iff_eq, Prod.mk.injEq] at hrank
      exact absurd hrank.1 (nomatch ·)
    | multiple context' =>
      obtain ⟨recipient, processId, confirmed⟩ := context
      obtain ⟨recipient', processId', confirmed'⟩ := context'
      simp only [rank, EmbeddingLike.apply_eq_iff_eq, Prod.mk.injEq, UInt32.toNat_inj] at hrank
      simp only [monitored] at hobject
      simp only [CovSubscriptionKey.multiple.injEq, MultipleContextKey.mk.injEq]
      exact ⟨hrank.2.2.2, hobject, Option.some.inj (optionOrder_injective hrank.2.1),
        optionOrder_injective hrank.2.2.1⟩

instance : LinearOrder CovSubscriptionKey where
  __ := PartialOrder.lift order order_injective
  le_total a b := le_total a.order b.order
  toDecidableLE a b := inferInstanceAs (Decidable (a.order ≤ b.order))
  toDecidableEq := inferInstance

theorem recipient_of_multipleContext {key : CovSubscriptionKey} {context : MultipleContextKey}
    (h : key.multipleContext = some context) : key.recipient = context.recipient := by
  cases key with
  | object => cases h
  | property => cases h
  | multiple => cases h; rfl

end CovSubscriptionKey

end RustyBacnet.Cov
