import RustyBacnet.Npdu.Codec

/-!
# The owned NPDU

`npdu.rs` of `bacnet-encoding`: the NPDU with its own buffers, which encodes and decodes through
the view. `encodeNpdu_eq` has the growing and shrinking of the output buffer as one append.
-/

namespace RustyBacnet.Encoding

/-- A network address with its own MAC. -/
structure NpduAddress where
  network : UInt16
  macAddress : List UInt8
  deriving DecidableEq

def NpduAddress.view (address : NpduAddress) : Address := ⟨address.network, address.macAddress⟩

/-- `From<Address> for NpduAddress`. -/
def NpduAddress.ofView (address : Address) : NpduAddress := ⟨address.network, address.mac⟩

/-- An NPDU that owns its addresses and payload. -/
structure Npdu where
  expectingReply : Bool
  priority : NetworkPriority
  destination : Option NpduAddress
  source : Option NpduAddress
  hopCount : UInt8
  messageType : Option NetworkMessageType
  vendorId : Option UInt16
  payload : List UInt8
  deriving DecidableEq

/-- A copy of the view's control information, with an empty payload. -/
def Npdu.headerFrom (view : RustyBacnet.Npdu) : Npdu where
  expectingReply := view.expectingReply
  priority := view.priority
  destination := view.destination.map NpduAddress.ofView
  source := view.source.map NpduAddress.ofView
  hopCount := view.hopCount
  messageType := view.messageType
  vendorId := view.vendorId
  payload := []

def Npdu.view (npdu : Npdu) : RustyBacnet.Npdu where
  expectingReply := npdu.expectingReply
  priority := npdu.priority
  destination := npdu.destination.map NpduAddress.view
  source := npdu.source.map NpduAddress.view
  hopCount := npdu.hopCount
  messageType := npdu.messageType
  vendorId := npdu.vendorId
  payload := npdu.payload
  payloadOffset := 0

/-- A refusal's text, with the numbers of its placeholders. -/
structure RangeError where
  label : String
  values : List ℕ
  deriving DecidableEq

def encodeError (npdu : Npdu) : EncodeError → RangeError
  | .reservedNetwork =>
    if npdu.destination.any fun d => d.network == 0 then ⟨"NPDU DNET must not be 0", [0, 0]⟩
    else
      ⟨"NPDU SNET must be 1..65534, got \x7b\x7d",
        [npdu.source.elim 0 fun s => s.network.toNat, 0]⟩
  | .emptySource => ⟨"NPDU SLEN must not be 0", [0, 0]⟩
  | .addressTooLong =>
    match npdu.destination.filter fun d => maxMacLen < d.macAddress.length with
    | some d =>
      ⟨"NPDU destination address of \x7b\x7d octets exceeds the \x7b\x7d-octet limit",
        [d.macAddress.length, maxMacLen]⟩
    | none =>
      match npdu.source with
      | some s =>
        ⟨"NPDU source address of \x7b\x7d octets exceeds the \x7b\x7d-octet limit",
          [s.macAddress.length, maxMacLen]⟩
      | none => ⟨"an over-long address is one of the two", [0, 0]⟩
  | .noRoom _ _ => ⟨"NPDU encoding refused", [0, 0]⟩

/-- Append an NPDU to `buf`. -/
def encodeNpdu (buf : List UInt8) (npdu : Npdu) : Except RangeError Unit × List UInt8 :=
  let start := buf.length
  let grown := buf ++ List.replicate npdu.view.encodedLen 0
  match npdu.view.encodeInto (grown.drop start) with
  | (.ok _, tail) => (.ok (), grown.take start ++ tail)
  | (.error refused, tail) =>
    (.error (encodeError npdu refused), (grown.take start ++ tail).take start)

/-- Why octets are no NPDU, with an owned source address. -/
inductive NpduDecodeError where
  | addressTooLong (field : AddressField) (length : UInt8) (dnet : Option UInt16)
      (source : Option NpduAddress)
  | malformed (fault : Malformed)
  deriving DecidableEq

/-- The NPDU in `data`, whose payload is the rest of `data`. -/
def decodeNpdu (data : List UInt8) : Except NpduDecodeError Npdu :=
  match RustyBacnet.Npdu.decode data with
  | .ok view => .ok { Npdu.headerFrom view with payload := data.drop view.payloadOffset }
  | .error (.addressTooLong field length dnet source) =>
    .error (.addressTooLong field length dnet (source.map NpduAddress.ofView))
  | .error (.malformed fault) => .error (.malformed fault)

/-! ## The two levels agree -/

theorem encodeNpdu_eq (buf : List UInt8) (npdu : Npdu) :
    encodeNpdu buf npdu =
      match npdu.view.checkFields with
      | .ok () => (.ok (), buf ++ npdu.view.wire)
      | .error refused => (.error (encodeError npdu refused), buf) := by
  unfold encodeNpdu
  dsimp only
  rw [List.drop_left, List.take_left, npdu.view.encodeInto_eq]
  cases npdu.view.checkFields with
  | error refused =>
    dsimp only
    rw [List.take_left]
  | ok _ =>
    rw [List.length_replicate, if_neg (Nat.lt_irrefl _)]
    rw [List.drop_eq_nil_of_le (by rw [List.length_replicate]), List.append_nil]

@[simp] theorem map_view_ofView (address : Option Address) :
    (address.map NpduAddress.ofView).map NpduAddress.view = address := by
  cases address <;> rfl

theorem view_headerFrom (view : RustyBacnet.Npdu) (payload : List UInt8) :
    Npdu.view { Npdu.headerFrom view with payload := payload }
      = { view with payload := payload, payloadOffset := 0 } := by
  unfold Npdu.view Npdu.headerFrom
  rw [map_view_ofView, map_view_ofView]

/-- `decode_npdu` returns what the view's decoder returns, in buffers of its own. -/
theorem decodeNpdu_agrees (data : List UInt8) :
    match RustyBacnet.Npdu.decode data with
    | .ok view =>
      ∃ owned, decodeNpdu data = .ok owned ∧ owned.view = { view with payloadOffset := 0 }
    | .error (.addressTooLong field length dnet source) =>
      decodeNpdu data
        = .error (.addressTooLong field length dnet (source.map NpduAddress.ofView))
    | .error (.malformed fault) => decodeNpdu data = .error (.malformed fault) := by
  unfold decodeNpdu
  cases h : RustyBacnet.Npdu.decode data with
  | ok view =>
    refine ⟨_, rfl, ?_⟩
    rw [view_headerFrom, RustyBacnet.Npdu.payload_of_decode h]
  | error fault => cases fault <;> rfl

/-- `encode_npdu` appends what the view's encoder writes into a buffer of just its size. -/
theorem encodeNpdu_agrees (buf : List UInt8) (npdu : Npdu) :
    match npdu.view.encodeInto (List.replicate npdu.view.encodedLen 0) with
    | (.ok _, written) => encodeNpdu buf npdu = (.ok (), buf ++ written)
    | (.error refused, _) => encodeNpdu buf npdu = (.error (encodeError npdu refused), buf) := by
  rw [encodeNpdu_eq, npdu.view.encodeInto_eq]
  cases npdu.view.checkFields with
  | error refused => rfl
  | ok _ =>
    rw [List.length_replicate, if_neg (Nat.lt_irrefl _)]
    rw [List.drop_eq_nil_of_le (by rw [List.length_replicate]), List.append_nil]

/-! ## The refusals' texts -/

/-- What the refusal of a destination says. -/
def DestinationRefused (d : NpduAddress) (error : RangeError) : Prop :=
  d.network = 0 ∧ error = ⟨"NPDU DNET must not be 0", [0, 0]⟩
    ∨ maxMacLen < d.macAddress.length
      ∧ error = ⟨"NPDU destination address of \x7b\x7d octets exceeds the \x7b\x7d-octet limit",
        [d.macAddress.length, maxMacLen]⟩

/-- What the refusal of a source says. -/
def SourceRefused (s : NpduAddress) (error : RangeError) : Prop :=
  (s.network = 0 ∨ s.network = globalNetwork)
      ∧ error = ⟨"NPDU SNET must be 1..65534, got \x7b\x7d", [s.network.toNat, 0]⟩
    ∨ s.macAddress = [] ∧ error = ⟨"NPDU SLEN must not be 0", [0, 0]⟩
    ∨ maxMacLen < s.macAddress.length
      ∧ error = ⟨"NPDU source address of \x7b\x7d octets exceeds the \x7b\x7d-octet limit",
        [s.macAddress.length, maxMacLen]⟩

variable {npdu : Npdu} {refused : EncodeError}

theorem destination_refused
    (h : RustyBacnet.Npdu.checkDestination npdu.view.destination = .error refused) :
    ∃ d, npdu.destination = some d ∧ DestinationRefused d (encodeError npdu refused) := by
  cases hd : npdu.destination with
  | none => simp [Npdu.view, hd, RustyBacnet.Npdu.checkDestination] at h
  | some d =>
    refine ⟨d, rfl, ?_⟩
    simp only [Npdu.view, hd, RustyBacnet.Npdu.checkDestination, Option.map_some,
      NpduAddress.view] at h
    split_ifs at h with hnet hlen
    · cases h
      left
      exact ⟨hnet, by simp [encodeError, hd, hnet]⟩
    · cases h
      right
      exact ⟨hlen, by simp [encodeError, hd, hlen, Option.filter_some]⟩

theorem source_refused (hd : ∀ a ∈ npdu.view.destination, RustyBacnet.Npdu.DestinationOk a)
    (h : RustyBacnet.Npdu.checkSource npdu.view.source = .error refused) :
    ∃ s, npdu.source = some s ∧ SourceRefused s (encodeError npdu refused) := by
  have hdest : ∀ d ∈ npdu.destination, d.network ≠ 0 ∧ d.macAddress.length ≤ maxMacLen := by
    intro d hmem
    exact hd d.view (Option.mem_map_of_mem NpduAddress.view hmem)
  have hdnet : (npdu.destination.any fun d => d.network == 0) = false := by
    cases hsome : npdu.destination with
    | none => rfl
    | some d => simpa using (hdest d hsome).1
  have hdmac : (npdu.destination.filter fun d => maxMacLen < d.macAddress.length) = none := by
    cases hsome : npdu.destination with
    | none => rfl
    | some d => simpa [Option.filter_some] using (hdest d hsome).2
  cases hs : npdu.source with
  | none => simp [Npdu.view, hs, RustyBacnet.Npdu.checkSource] at h
  | some s =>
    refine ⟨s, rfl, ?_⟩
    simp only [Npdu.view, hs, RustyBacnet.Npdu.checkSource, Option.map_some,
      NpduAddress.view] at h
    split_ifs at h with hnet hmac hlen
    · cases h
      left
      exact ⟨hnet, by simp [encodeError, hdnet, hs]⟩
    · cases h
      right; left
      exact ⟨hmac, rfl⟩
    · cases h
      right; right
      exact ⟨hlen, by simp only [encodeError, hdmac, hs]⟩

/-- Every refusal of `encode_npdu` names the field it is about and quotes its value. -/
theorem encodeNpdu_refused {buf : List UInt8} {error : RangeError}
    (h : (encodeNpdu buf npdu).1 = .error error) :
    (∃ d, npdu.destination = some d ∧ DestinationRefused d error)
      ∨ ∃ s, npdu.source = some s ∧ SourceRefused s error := by
  rw [encodeNpdu_eq] at h
  cases hcheck : npdu.view.checkFields with
  | ok _ => rw [hcheck] at h; cases h
  | error refused =>
    rw [hcheck] at h
    cases h
    unfold RustyBacnet.Npdu.checkFields at hcheck
    cases hfirst : RustyBacnet.Npdu.checkDestination npdu.view.destination with
    | error first =>
      rw [hfirst] at hcheck
      cases hcheck
      exact .inl (destination_refused hfirst)
    | ok _ =>
      rw [hfirst] at hcheck
      exact .inr (source_refused
        ((RustyBacnet.Npdu.checkDestination_eq_ok _).mp hfirst) hcheck)

/-! ## The codec -/

/-- Encoding and decoding are inverse up to the fields a frame does not carry and the bits the
decoder ignores, at both levels. -/
theorem npdu_codec :
    (∀ (npdu : RustyBacnet.Npdu) (out : List UInt8),
      ((∃ written, (npdu.encodeInto out).1 = .ok written)
          ↔ npdu.Encodable ∧ npdu.encodedLen ≤ out.length)
        ∧ (npdu.Encodable ↔ ∃ frame, RustyBacnet.Npdu.decode frame = .ok npdu.normalised)
        ∧ (∀ written, (npdu.encodeInto out).1 = .ok written →
          written = npdu.encodedLen
            ∧ ∃ octets : List UInt8, octets.length = written
              ∧ (npdu.encodeInto out).2 = octets ++ out.drop written
              ∧ RustyBacnet.Npdu.decode octets = .ok npdu.normalised
              ∧ octets.drop npdu.normalised.payloadOffset = npdu.payload)
        ∧ (∀ refused, (npdu.encodeInto out).1 = .error refused →
          (npdu.encodeInto out).2 = out))
    ∧ (∀ (frame : List UInt8) (npdu : RustyBacnet.Npdu),
      RustyBacnet.Npdu.decode frame = .ok npdu →
        ∀ out : List UInt8, frame.length ≤ out.length →
          npdu.encodeInto out
            = (.ok frame.length, RustyBacnet.Npdu.clearReserved frame ++ out.drop frame.length))
    ∧ (∀ (buf : List UInt8) (npdu : Npdu),
      ((encodeNpdu buf npdu).1 = .ok () ↔ npdu.view.Encodable)
        ∧ (match npdu.view.encodeInto (List.replicate npdu.view.encodedLen 0) with
          | (.ok _, octets) => encodeNpdu buf npdu = (.ok (), buf ++ octets)
          | (.error refused, _) =>
            encodeNpdu buf npdu = (.error (encodeError npdu refused), buf)))
    ∧ ∀ data : List UInt8,
      match RustyBacnet.Npdu.decode data with
      | .ok view =>
        ∃ owned, decodeNpdu data = .ok owned ∧ owned.view = { view with payloadOffset := 0 }
      | .error (.addressTooLong field length dnet source) =>
        decodeNpdu data
          = .error (.addressTooLong field length dnet (source.map NpduAddress.ofView))
      | .error (.malformed fault) => decodeNpdu data = .error (.malformed fault) := by
  refine ⟨?_, ?_, ?_, decodeNpdu_agrees⟩
  · intro npdu out
    refine ⟨npdu.encodeInto_ok_iff out, npdu.encodable_iff_decodes, ?_, ?_⟩
    · intro written h
      obtain ⟨hok, hroom⟩ := (npdu.encodeInto_ok_iff out).mp ⟨written, h⟩
      rw [RustyBacnet.Npdu.encodeInto_of_encodable hok hroom] at h ⊢
      cases h
      refine ⟨rfl, npdu.wire, npdu.length_wire, rfl, RustyBacnet.Npdu.decode_wire hok, ?_⟩
      rw [← RustyBacnet.Npdu.payload_of_decode (RustyBacnet.Npdu.decode_wire hok)]
      rfl
    · intro refused h
      exact RustyBacnet.Npdu.encodeInto_error h
  · intro frame npdu h out hroom
    have hwire := RustyBacnet.Npdu.wire_of_decode h
    have hlen : npdu.encodedLen = frame.length := by
      rw [← npdu.length_wire, hwire, RustyBacnet.Npdu.length_clearReserved]
    rw [← hlen] at hroom ⊢
    rw [RustyBacnet.Npdu.encodeInto_of_encodable (RustyBacnet.Npdu.decode_encodable h) hroom,
      hwire]
  · intro buf npdu
    refine ⟨?_, encodeNpdu_agrees buf npdu⟩
    rw [encodeNpdu_eq, ← npdu.view.checkFields_eq_ok]
    cases npdu.view.checkFields <;> simp

end RustyBacnet.Encoding
