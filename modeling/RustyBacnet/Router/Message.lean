import RustyBacnet.Npdu.Link

/-!
# The data of network messages

`message.rs` of `bacnet-router-core`: the views of the payloads a router reads and the writers of
the ones it sends. A parser takes the whole payload or refuses it; a writer fills the front of the
buffer it is given, or leaves it alone.
-/

namespace RustyBacnet.Router

open BigEndian Slices

inductive DataError where
  | length (length : ℕ)
  | noRoom (needed available : ℕ)
  | tooManyEntries (count : ℕ)
  deriving DecidableEq

/-- Copy octets into the front of a buffer: how many, and the buffer afterwards. -/
def writeFront (octets out : List UInt8) : Except DataError ℕ × List UInt8 :=
  if octets.length ≤ out.length then (.ok octets.length, splice out 0 octets)
  else (.error (.noRoom octets.length out.length), out)

/-- The data of an I-Am-Router, a Router-Busy or a Router-Available. -/
structure Networks where
  octets : List UInt8
  deriving DecidableEq

namespace Networks

def empty : Networks := ⟨[]⟩

def parse (payload : List UInt8) : Except DataError Networks :=
  if payload.length % 2 = 0 then .ok ⟨payload⟩ else .error (.length payload.length)

def isEmpty (list : Networks) : Bool := list.octets.isEmpty

/-- The octets two by two: `as_chunks`, which leaves an odd one out. -/
def pairs : List UInt8 → List UInt16
  | high :: low :: rest => ofBytes16 high low :: pairs rest
  | _ => []

def iter (list : Networks) : List UInt16 := pairs list.octets

def write (networks : List UInt16) (out : List UInt8) : Except DataError ℕ × List UInt8 :=
  writeFront (networks.flatMap toBytes16) out

end Networks

/-! ## Fixed layouts -/

inductive WhoIsRouter where
  | all
  | network (network : UInt16)
  deriving DecidableEq

def WhoIsRouter.parse : List UInt8 → Except DataError WhoIsRouter
  | [] => .ok .all
  | [high, low] => .ok (.network (ofBytes16 high low))
  | payload => .error (.length payload.length)

def networkAndOctet : List UInt8 → Except DataError (UInt16 × UInt8)
  | [high, low, octet] => .ok (ofBytes16 high low, octet)
  | payload => .error (.length payload.length)

structure ICouldBeRouter where
  network : UInt16
  performanceIndex : UInt8
  deriving DecidableEq

def ICouldBeRouter.parse (payload : List UInt8) : Except DataError ICouldBeRouter :=
  (networkAndOctet payload).map fun (network, octet) => ⟨network, octet⟩

structure EstablishConnection where
  network : UInt16
  terminationTime : UInt8
  deriving DecidableEq

def EstablishConnection.parse (payload : List UInt8) : Except DataError EstablishConnection :=
  (networkAndOctet payload).map fun (network, octet) => ⟨network, octet⟩

structure DisconnectConnection where
  network : UInt16
  deriving DecidableEq

def DisconnectConnection.parse : List UInt8 → Except DataError DisconnectConnection
  | [high, low] => .ok ⟨ofBytes16 high low⟩
  | payload => .error (.length payload.length)

structure NetworkNumberIs where
  network : UInt16
  flag : UInt8
  deriving DecidableEq

namespace NetworkNumberIs

def configured : UInt8 := 1

def parse (payload : List UInt8) : Except DataError NetworkNumberIs :=
  (networkAndOctet payload).map fun (network, octet) => ⟨network, octet⟩

def isConfigured (number : NetworkNumberIs) : Bool := number.flag == configured

def toBytes (number : NetworkNumberIs) : List UInt8 := toBytes16 number.network ++ [number.flag]

end NetworkNumberIs

/-! ## Routing tables on the wire -/

structure RoutingEntry where
  network : UInt16
  portId : UInt8
  portInfo : List UInt8
  deriving DecidableEq

/-- The data of an Initialize-Routing-Table or its Ack: a count and the entries behind it. -/
structure RoutingEntries where
  count : UInt8
  entries : List UInt8
  deriving DecidableEq

def splitEntry : List UInt8 → Option (RoutingEntry × List UInt8)
  | high :: low :: portId :: infoLen :: rest =>
    if infoLen.toNat ≤ rest.length then
      some (⟨ofBytes16 high low, portId, rest.take infoLen.toNat⟩, rest.drop infoLen.toNat)
    else none
  | _ => none

namespace RoutingEntries

def entryLen : ℕ := 4

/-- The octets behind `count` entries. -/
def skip : ℕ → List UInt8 → Option (List UInt8)
  | 0, octets => some octets
  | count + 1, octets => (splitEntry octets).bind fun (_, rest) => skip count rest

def parse (payload : List UInt8) : Except DataError RoutingEntries :=
  match payload with
  | [] => .error (.length payload.length)
  | count :: entries =>
    if skip count.toNat entries = some [] then .ok ⟨count, entries⟩
    else .error (.length payload.length)

/-- The entries of `octets`; each takes four octets at least, so its length is fuel enough. -/
def entriesIn : ℕ → List UInt8 → List RoutingEntry
  | 0, _ => []
  | fuel + 1, octets =>
    match splitEntry octets with
    | some (entry, rest) => entry :: entriesIn fuel rest
    | none => []

def iter (entries : RoutingEntries) : List RoutingEntry :=
  entriesIn entries.entries.length entries.entries

/-- The octets of an entry for a network and its Port ID. -/
def entryOctets (entry : UInt16 × UInt8) : List UInt8 := toBytes16 entry.1 ++ [entry.2, 0]

def write (entries : List (UInt16 × UInt8)) (out : List UInt8) : Except DataError ℕ × List UInt8 :=
  if 255 < entries.length then (.error (.tooManyEntries entries.length), out)
  else writeFront (UInt8.ofNat entries.length :: entries.flatMap entryOctets) out

end RoutingEntries

theorem writeFront_eq (octets out : List UInt8) :
    writeFront octets out =
      if octets.length ≤ out.length then (.ok octets.length, octets ++ out.drop octets.length)
      else (.error (.noRoom octets.length out.length), out) := by
  unfold writeFront
  simp [splice]

@[simp] theorem length_flatMap_toBytes16 (networks : List UInt16) :
    (networks.flatMap toBytes16).length = 2 * networks.length := by
  induction networks with
  | nil => rfl
  | cons network rest ih =>
    rw [List.flatMap_cons, List.length_append, ih, List.length_cons]
    simp [toBytes16]
    omega

@[simp] theorem length_flatMap_entryOctets (entries : List (UInt16 × UInt8)) :
    (entries.flatMap RoutingEntries.entryOctets).length = 4 * entries.length := by
  induction entries with
  | nil => rfl
  | cons entry rest ih =>
    rw [List.flatMap_cons, List.length_append, ih, List.length_cons]
    simp [RoutingEntries.entryOctets, toBytes16]
    omega

end RustyBacnet.Router
