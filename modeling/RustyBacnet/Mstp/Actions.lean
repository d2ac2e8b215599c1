import RustyBacnet.Mstp.Frame
import RustyBacnet.Mstp.Counters

/-!
# The actions a core hands its adapter

`actions.rs`: control actions, which turn the transceiver around and put a frame on the wire, come
first; deliveries wait in a ring of slots. The control actions need no ring, because at most one
frame of the station's waits or is on the wire at a time. `ActionQueue.tripped` records that a
debug assertion failed; a release build goes on, and so does the model.
-/

namespace RustyBacnet.Mstp

inductive Direction where
  | receive
  | transmit
  deriving DecidableEq

/-- The generation of a request handed to the application, a `u32`. -/
structure RequestId where
  generation : ℕ
  deriving DecidableEq

/-- The generation of a transmit handed to the adapter, a `u32`. -/
structure TransmitId where
  generation : ℕ
  deriving DecidableEq

/-- `wrapping_add(1)` on a `u32`. -/
def nextGeneration (generation : ℕ) : ℕ := (generation + 1) % 4294967296

/-- What the adapter is asked to do. -/
inductive Action where
  | setDirection (direction : Direction)
  | transmit (id : TransmitId) (header : FrameHeader) (length : ℕ)
  | deliverNpdu (source destination : UInt8) (npdu : List UInt8) (requestId : Option RequestId)
  | deliverFrame (frameType : FrameType) (source destination : UInt8) (data : List UInt8)
  | idle
  deriving DecidableEq

/-- The frame buffer length that `NPDU`-octet slots need, checked when the buffers are built. -/
def frameRoom (npdu : ℕ) : ℕ :=
  if npdu ≤ maxStandardMpduData then maxStandardFrameLength
  else preamble.length + headerLength + npdu + (npdu + 253) / 254 + 5

/-- Received data waiting to be polled. -/
structure DeliverySlot where
  requestId : Option RequestId
  frameType : FrameType
  source : UInt8
  destination : UInt8
  length : ℕ
  data : List UInt8
  deriving DecidableEq

def DeliverySlot.empty (npdu : ℕ) : DeliverySlot := ⟨none, ⟨0⟩, 0, 0, 0, List.replicate npdu 0⟩

/-- The buffers a caller lends: one frame and `DELIVERIES` slots of `NPDU` octets. Built only with
a slot at least and room for the longest frame. -/
structure ActionBuffers (npdu : ℕ) where
  frame : List UInt8
  deliveries : List DeliverySlot
  deliveries_pos : 0 < deliveries.length
  room : frameRoom npdu ≤ frame.length

/-- A frame whose actions have not all been polled. -/
structure QueuedTransmit where
  id : TransmitId
  /-- Its switch to transmit was polled; the frame itself is next. -/
  directionPolled : Bool
  deriving DecidableEq

structure ActionQueue (npdu : ℕ) where
  /-- A switch back to receive waits, ahead of any transmit. -/
  receive : Bool
  transmit : Option QueuedTransmit
  frame : List UInt8
  frameLength : ℕ
  deliveries : List DeliverySlot
  /-- The oldest waiting delivery. -/
  head : ℕ
  /-- How many deliveries wait. -/
  waiting : ℕ
  /-- A debug assertion failed. -/
  tripped : Bool
  deriving DecidableEq

def carriesNpdu (t : FrameType) : Bool :=
  t = .bacnetDataExpectingReply ∨ t = .bacnetDataNotExpectingReply ∨
    t = .bacnetExtendedDataExpectingReply ∨ t = .bacnetExtendedDataNotExpectingReply

def wrap (index length : ℕ) : ℕ := if length ≤ index then index - length else index

namespace ActionQueue

variable {npdu : ℕ}

def new (buffers : ActionBuffers npdu) : ActionQueue npdu where
  receive := false
  transmit := none
  frame := buffers.frame
  frameLength := 0
  deliveries := buffers.deliveries
  head := 0
  waiting := 0
  tripped := false

/-- `debug_assert!`. -/
def debugAssert (a : ActionQueue npdu) (holds : Bool) : ActionQueue npdu :=
  { a with tripped := a.tripped || !holds }

/-- Encode the frame this station sends next into the frame buffer. -/
def encodeFrame (a : ActionQueue npdu) (frame : Frame) :
    Except FrameError Unit × ActionQueue npdu :=
  let a := a.debugAssert a.transmit.isNone
  match frame.encodeInto a.frame with
  | (.error error, octets) => (.error error, { a with frame := octets })
  | (.ok length, octets) => (.ok (), { a with frame := octets, frameLength := length })

def queueReceive (a : ActionQueue npdu) : ActionQueue npdu :=
  { a.debugAssert a.transmit.isNone with receive := true }

/-- The frame encoded last, which a confirmed start hands the adapter. -/
def encoded (a : ActionQueue npdu) : List UInt8 := a.frame.take a.frameLength

def header (a : ActionQueue npdu) : FrameHeader :=
  ⟨⟨a.frame.getD 2 0⟩, a.frame.getD 3 0, a.frame.getD 4 0⟩

/-- Queue the encoded frame: a switch to transmit, then the frame. -/
def queueTransmit (a : ActionQueue npdu) (id : TransmitId) : ActionQueue npdu :=
  { a.debugAssert a.transmit.isNone with transmit := some ⟨id, false⟩ }

/-- Whether the frame of `id` has yet to be polled. -/
def transmitQueued (a : ActionQueue npdu) (id : TransmitId) : Bool :=
  a.transmit.any fun transmit => transmit.id = id

def purgeTransmit (a : ActionQueue npdu) (id : TransmitId) : ActionQueue npdu :=
  if a.transmitQueued id then { a with transmit := none } else a

/-- Queue received data for delivery, copying it in; `false` when it was dropped. -/
def enqueueDelivery (a : ActionQueue npdu) (header : FrameHeader) (data : List UInt8)
    (requestId : Option RequestId) : Bool × ActionQueue npdu :=
  if 65535 < data.length ∨ npdu < data.length ∨ a.waiting = a.deliveries.length then (false, a)
  else
    let index := wrap (a.head + a.waiting) a.deliveries.length
    let deliveries := a.deliveries.modify index fun slot =>
      { requestId := requestId
        frameType := header.frameType
        source := header.source
        destination := header.destination
        length := data.length
        data := data ++ slot.data.drop data.length }
    (true, { a with deliveries := deliveries, waiting := a.waiting + 1 })

def deliveryAction (slot : DeliverySlot) : Action :=
  let data := slot.data.take slot.length
  if carriesNpdu slot.frameType then
    .deliverNpdu slot.source slot.destination data slot.requestId
  else .deliverFrame slot.frameType slot.source slot.destination data

def poll (a : ActionQueue npdu) : Action × ActionQueue npdu :=
  if a.receive then (.setDirection .receive, { a with receive := false })
  else
    match a.transmit with
    | some transmit =>
      if transmit.directionPolled then
        (.transmit transmit.id a.header a.frameLength, { a with transmit := none })
      else
        (.setDirection .transmit,
          { a with transmit := some { transmit with directionPolled := true } })
    | none =>
      if a.waiting = 0 then (.idle, a)
      else
        let slot := a.deliveries.getD a.head (DeliverySlot.empty npdu)
        (deliveryAction slot,
          { a with head := wrap (a.head + 1) a.deliveries.length, waiting := a.waiting - 1 })

end ActionQueue

end RustyBacnet.Mstp
