import RustyBacnet.Npdu.View

/-!
# Encoding an NPDU

`encode.rs` of `bacnet-npdu`: `encoded_len` and `encode_into`, which writes into the caller's
buffer through a cursor after every field has been checked. `wire` says which octets that are:
`encodeInto_eq` has the whole function as its checks and one copy of `wire`.
-/

namespace RustyBacnet

open Slices BigEndian

/-- Why an NPDU can't be written. -/
inductive EncodeError where
  | noRoom (needed available : ℕ)
  | reservedNetwork
  | emptySource
  | addressTooLong
  deriving DecidableEq

/-- The caller's buffer and the offset the next octets go to. -/
structure Cursor where
  out : List UInt8
  offset : ℕ
  deriving DecidableEq

namespace Cursor

def put (cursor : Cursor) (octets : List UInt8) : Cursor where
  out := splice cursor.out cursor.offset octets
  offset := cursor.offset + octets.length

def putAddress (cursor : Cursor) (address : Address) : Cursor :=
  ((cursor.put (toBytes16 address.network)).put [UInt8.ofNat address.mac.length]).put address.mac

end Cursor

namespace Npdu

def addressLen (address : Option Address) : ℕ := address.elim 0 fun a => 3 + a.mac.length

/-- The octets a message type takes, with its vendor id. -/
def messageLen : Option NetworkMessageType → ℕ
  | some kind => if kind.isProprietary then 3 else 1
  | none => 0

def encodedLen (npdu : Npdu) : ℕ :=
  2 + addressLen npdu.destination + addressLen npdu.source + npdu.destination.isSome.toNat
    + messageLen npdu.messageType + npdu.payload.length

/-- The control octet: the priority's bits and one bit for each part that follows. -/
def controlOctet (npdu : Npdu) : UInt8 :=
  npdu.priority.toRaw
    ||| (if npdu.messageType.isSome then networkMessageBit else 0)
    ||| (if npdu.destination.isSome then destinationBit else 0)
    ||| (if npdu.source.isSome then sourceBit else 0)
    ||| (if npdu.expectingReply then expectingReplyBit else 0)

def checkDestination : Option Address → Except EncodeError Unit
  | some destination =>
    if destination.network = 0 then .error .reservedNetwork
    else if maxMacLen < destination.mac.length then .error .addressTooLong
    else .ok ()
  | none => .ok ()

def checkSource : Option Address → Except EncodeError Unit
  | some source =>
    if source.network = 0 ∨ source.network = globalNetwork then .error .reservedNetwork
    else if source.mac = [] then .error .emptySource
    else if maxMacLen < source.mac.length then .error .addressTooLong
    else .ok ()
  | none => .ok ()

/-- The checks of `encode_into` ahead of its buffer check. -/
def checkFields (npdu : Npdu) : Except EncodeError Unit :=
  match checkDestination npdu.destination with
  | .error refused => .error refused
  | .ok () => checkSource npdu.source

/-- The writes of `encode_into`, from an empty cursor. -/
def putAll (npdu : Npdu) (cursor : Cursor) : Cursor :=
  let cursor := cursor.put [npduVersion, npdu.controlOctet]
  let cursor := npdu.destination.elim cursor cursor.putAddress
  let cursor := npdu.source.elim cursor cursor.putAddress
  let cursor := if npdu.destination.isSome then cursor.put [npdu.hopCount] else cursor
  let cursor :=
    match npdu.messageType with
    | some kind =>
      let cursor := cursor.put [kind.raw]
      if kind.isProprietary then cursor.put (toBytes16 (npdu.vendorId.getD 0)) else cursor
    | none => cursor
  cursor.put npdu.payload

/-- Encode into the front of `out`: the octets written, and the buffer afterwards. -/
def encodeInto (npdu : Npdu) (out : List UInt8) : Except EncodeError ℕ × List UInt8 :=
  match npdu.checkFields with
  | .error refused => (.error refused, out)
  | .ok () =>
    let needed := npdu.encodedLen
    if out.length < needed then (.error (.noRoom needed out.length), out)
    else (.ok needed, (npdu.putAll ⟨out.take needed, 0⟩).out ++ out.drop needed)

/-! ## The octets of an NPDU -/

def addressOctets : Option Address → List UInt8
  | some address =>
    toBytes16 address.network ++ UInt8.ofNat address.mac.length :: address.mac
  | none => []

def hopOctets (npdu : Npdu) : List UInt8 :=
  if npdu.destination.isSome then [npdu.hopCount] else []

def messageOctets (npdu : Npdu) : List UInt8 :=
  match npdu.messageType with
  | some kind =>
    kind.raw :: if kind.isProprietary then toBytes16 (npdu.vendorId.getD 0) else []
  | none => []

/-- The protocol control information behind the control octet. -/
def npci (npdu : Npdu) : List UInt8 :=
  addressOctets npdu.destination ++ addressOctets npdu.source ++ npdu.hopOctets
    ++ npdu.messageOctets

def wire (npdu : Npdu) : List UInt8 :=
  [npduVersion, npdu.controlOctet] ++ npdu.npci ++ npdu.payload

@[simp] theorem length_addressOctets (address : Option Address) :
    (addressOctets address).length = addressLen address := by
  cases address with
  | none => rfl
  | some a =>
    simp [addressOctets, addressLen]
    omega

variable (npdu : Npdu)

@[simp] theorem length_hopOctets : npdu.hopOctets.length = npdu.destination.isSome.toNat := by
  unfold hopOctets
  cases npdu.destination <;> rfl

@[simp] theorem length_messageOctets : npdu.messageOctets.length = messageLen npdu.messageType := by
  unfold messageOctets messageLen
  cases npdu.messageType with
  | none => rfl
  | some kind =>
    dsimp only
    split_ifs <;> rfl

theorem length_npci :
    npdu.npci.length = addressLen npdu.destination + addressLen npdu.source
      + npdu.destination.isSome.toNat + messageLen npdu.messageType := by
  simp [npci]
  omega

theorem length_wire : npdu.wire.length = npdu.encodedLen := by
  simp [wire, npci, encodedLen]
  omega

end Npdu

/-! ## What the cursor writes -/

namespace Cursor

/-- A buffer of `room` octets whose front, up to the cursor, is `done`. -/
structure Wrote (cursor : Cursor) (room : ℕ) (done : List UInt8) : Prop where
  length : cursor.out.length = room
  offset : cursor.offset = done.length
  front : cursor.out.take done.length = done

variable {cursor : Cursor} {room : ℕ} {done : List UInt8}

theorem Wrote.put {octets : List UInt8} (h : cursor.Wrote room done)
    (hroom : (done ++ octets).length ≤ room) : (cursor.put octets).Wrote room (done ++ octets) := by
  rw [List.length_append] at hroom
  have hle : cursor.offset + octets.length ≤ cursor.out.length := by
    rw [h.offset, h.length]
    exact hroom
  refine ⟨?_, ?_, ?_⟩
  · rw [← h.length]
    exact length_splice hle
  · rw [List.length_append, ← h.offset]
    rfl
  · have hfront : (cursor.out.take cursor.offset ++ octets).length
        = (done ++ octets).length := by
      rw [h.offset, h.front]
    show (splice cursor.out cursor.offset octets).take _ = _
    unfold splice
    rw [List.take_left' hfront, h.offset, h.front]

theorem Wrote.putAddress {address : Address} (h : cursor.Wrote room done)
    (hroom : (done ++ Npdu.addressOctets (some address)).length ≤ room) :
    (cursor.putAddress address).Wrote room (done ++ Npdu.addressOctets (some address)) := by
  have hoctets : done ++ Npdu.addressOctets (some address)
      = done ++ toBytes16 address.network ++ [UInt8.ofNat address.mac.length]
        ++ address.mac := by
    simp [Npdu.addressOctets]
  rw [hoctets] at hroom ⊢
  have hshort := hroom
  rw [List.length_append] at hshort
  have hshorter := hshort
  rw [List.length_append] at hshorter
  exact ((h.put (by omega)).put (by omega)).put hroom

theorem Wrote.out_eq (h : cursor.Wrote room done) (hroom : done.length = room) :
    cursor.out = done := by
  rw [← h.front, hroom, ← h.length, List.take_length]

end Cursor

namespace Npdu

variable {room : ℕ} {done : List UInt8} (address : Option Address) (npdu : Npdu)

theorem wrote_address {cursor : Cursor} (h : cursor.Wrote room done)
    (hroom : (done ++ addressOctets address).length ≤ room) :
    (address.elim cursor cursor.putAddress).Wrote room (done ++ addressOctets address) := by
  cases address with
  | none =>
    rw [show done ++ addressOctets none = done from List.append_nil done]
    exact h
  | some a => exact h.putAddress hroom

theorem wrote_hop {cursor : Cursor} (h : cursor.Wrote room done)
    (hroom : (done ++ npdu.hopOctets).length ≤ room) :
    (if npdu.destination.isSome then cursor.put [npdu.hopCount] else cursor).Wrote room
      (done ++ npdu.hopOctets) := by
  unfold hopOctets at hroom ⊢
  split_ifs with hd
  · rw [if_pos hd] at hroom
    exact h.put hroom
  · rw [List.append_nil]
    exact h

theorem wrote_message {cursor : Cursor} (h : cursor.Wrote room done)
    (hroom : (done ++ npdu.messageOctets).length ≤ room) :
    (match npdu.messageType with
      | some kind =>
        let cursor := cursor.put [kind.raw]
        if kind.isProprietary then cursor.put (toBytes16 (npdu.vendorId.getD 0)) else cursor
      | none => cursor).Wrote room (done ++ npdu.messageOctets) := by
  unfold messageOctets at hroom ⊢
  cases hkind : npdu.messageType with
  | none =>
    rw [List.append_nil]
    exact h
  | some kind =>
    simp only [hkind] at hroom ⊢
    split_ifs at hroom ⊢ with hp
    · rw [List.append_cons] at hroom ⊢
      have hshort := hroom
      rw [List.length_append] at hshort
      exact (h.put (by omega)).put hroom
    · exact h.put hroom

/-- Every write of `encode_into` stays inside the octets it asked for, and fills them. -/
theorem putAll_wrote {buffer : List UInt8} (h : buffer.length = npdu.encodedLen) :
    (npdu.putAll ⟨buffer, 0⟩).Wrote npdu.encodedLen npdu.wire := by
  have hlen := npdu.length_wire
  have hwire : npdu.wire = [npduVersion, npdu.controlOctet] ++ addressOctets npdu.destination
      ++ addressOctets npdu.source ++ npdu.hopOctets ++ npdu.messageOctets ++ npdu.payload := by
    simp [wire, npci]
  rw [hwire] at hlen ⊢
  have h0 : Cursor.Wrote ⟨buffer, 0⟩ npdu.encodedLen [] := ⟨h, rfl, rfl⟩
  have h5 := Nat.le_of_eq hlen
  have h4 := h5
  rw [List.length_append] at h4
  have h3 := h4
  rw [List.length_append] at h3
  have h2 := h3
  rw [List.length_append] at h2
  have h1 := h2
  rw [List.length_append] at h1
  have h00 := h1
  rw [List.length_append] at h00
  refine Cursor.Wrote.put ?_ h5
  refine wrote_message npdu ?_ (by omega)
  refine wrote_hop npdu ?_ (by omega)
  refine wrote_address npdu.source ?_ (by omega)
  refine wrote_address npdu.destination ?_ (by omega)
  exact h0.put (by rw [List.nil_append]; omega)

/-- `encode_into` as its checks and one copy. -/
theorem encodeInto_eq (out : List UInt8) :
    npdu.encodeInto out =
      match npdu.checkFields with
      | .error refused => (.error refused, out)
      | .ok () =>
        if out.length < npdu.encodedLen then
          (.error (.noRoom npdu.encodedLen out.length), out)
        else (.ok npdu.encodedLen, npdu.wire ++ out.drop npdu.encodedLen) := by
  unfold encodeInto
  cases npdu.checkFields with
  | error refused => rfl
  | ok _ =>
    dsimp only
    split_ifs with hroom
    · rfl
    · have hbuffer : (out.take npdu.encodedLen).length = npdu.encodedLen := by
        rw [List.length_take]
        omega
      rw [(npdu.putAll_wrote hbuffer).out_eq npdu.length_wire]

/-! ## The fields the codec accepts -/

/-- A DNET and DADR a frame can carry. -/
def DestinationOk (address : Address) : Prop :=
  address.network ≠ 0 ∧ address.mac.length ≤ maxMacLen

/-- An SNET and SADR a frame can carry. -/
def SourceOk (address : Address) : Prop :=
  address.network ≠ 0 ∧ address.network ≠ globalNetwork ∧ address.mac ≠ []
    ∧ address.mac.length ≤ maxMacLen

/-- The addresses are ones the decoder accepts. -/
structure Encodable (npdu : Npdu) : Prop where
  destination : ∀ address ∈ npdu.destination, DestinationOk address
  source : ∀ address ∈ npdu.source, SourceOk address

theorem checkDestination_eq_ok :
    checkDestination address = .ok () ↔ ∀ a ∈ address, DestinationOk a := by
  cases address with
  | none => simp [checkDestination]
  | some a =>
    unfold checkDestination DestinationOk
    dsimp only
    split_ifs with hnet hlen
    · simp [hnet]
    · simp only [Option.mem_some_iff, forall_eq', false_iff, not_and]
      intro _
      omega
    · simp only [Option.mem_some_iff, forall_eq', true_iff]
      exact ⟨hnet, Nat.not_lt.mp hlen⟩

theorem checkSource_eq_ok : checkSource address = .ok () ↔ ∀ a ∈ address, SourceOk a := by
  cases address with
  | none => simp [checkSource]
  | some a =>
    unfold checkSource SourceOk
    dsimp only
    split_ifs with hnet hmac hlen
    · simp only [Option.mem_some_iff, forall_eq', false_iff]
      rintro ⟨h0, hglobal, _⟩
      rcases hnet with hnet | hnet
      · exact h0 hnet
      · exact hglobal hnet
    · simp [hmac]
    · simp only [Option.mem_some_iff, forall_eq', false_iff]
      rintro ⟨_, _, _, hle⟩
      omega
    · simp only [Option.mem_some_iff, forall_eq', true_iff]
      rw [not_or] at hnet
      exact ⟨hnet.1, hnet.2, hmac, Nat.not_lt.mp hlen⟩

theorem checkFields_eq_ok : npdu.checkFields = .ok () ↔ npdu.Encodable := by
  have hd := checkDestination_eq_ok npdu.destination
  have hs := checkSource_eq_ok npdu.source
  unfold checkFields
  cases hcheck : checkDestination npdu.destination with
  | error refused =>
    rw [hcheck] at hd
    simp only [reduceCtorEq, false_iff] at hd ⊢
    intro h
    exact hd h.destination
  | ok _ =>
    rw [hcheck] at hd
    rw [hs]
    exact ⟨fun h => ⟨hd.mp rfl, h⟩, fun h => h.source⟩

instance (npdu : Npdu) : Decidable npdu.Encodable :=
  decidable_of_iff _ (checkFields_eq_ok npdu)

end Npdu

end RustyBacnet
