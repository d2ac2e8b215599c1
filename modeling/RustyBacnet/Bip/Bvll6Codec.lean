import RustyBacnet.Bip.Bvll6
import RustyBacnet.Bip.BvllCodec

/-!
# The B/IPv6 BVLL codec

Both directions go through `wire`, the octets of a message, as for B/IP.

1. Each field reads off what it wrote (`vmac_append` and its like), and what was read is what stood
   at the front (`vmac_some` and its like).
2. `read_payload` and `payload_of_read` are the two directions for a payload, one case per layout.
3. The layout table gives each message the length its pieces have (`length_payload`), so the Length
   field is true.
-/

namespace RustyBacnet.Bip

open BigEndian

/-! ## Fields -/

variable {size : ℕ}

theorem OctetArray.ext_toList {a b : OctetArray size} (h : a.toList = b.toList) : a = b := by
  obtain ⟨octets, _⟩ := a
  obtain ⟨octets', _⟩ := b
  cases h
  rfl

namespace Fields

theorem take_append (octets : OctetArray size) (rest : List UInt8) :
    take ⟨octets.toList ++ rest⟩ size = some (octets, ⟨rest⟩) := by
  have hlong : size ≤ (octets.toList ++ rest).length := by
    rw [List.length_append, octets.length_eq]
    exact Nat.le_add_right _ _
  unfold take
  rw [dif_pos hlong]
  congr 2
  · exact OctetArray.ext_toList (List.take_left' octets.length_eq)
  · exact congrArg Fields.mk (List.drop_left' octets.length_eq)

variable {fields rest : Fields}

theorem take_some {octets : OctetArray size} (h : fields.take size = some (octets, rest)) :
    fields.rest = octets.toList ++ rest.rest := by
  unfold take at h
  split_ifs at h
  cases h
  exact (List.take_append_drop _ _).symm

theorem vmac_append (vmac : Bip6Vmac) (rest : List UInt8) :
    Fields.vmac ⟨vmac.octets.toList ++ rest⟩ = some (vmac, ⟨rest⟩) := by
  unfold Fields.vmac
  rw [take_append]
  rfl

theorem vmac_some {vmac : Bip6Vmac} (h : fields.vmac = some (vmac, rest)) :
    fields.rest = vmac.octets.toList ++ rest.rest := by
  obtain ⟨⟨octets, left⟩, htake, heq⟩ := Option.map_eq_some_iff.mp h
  cases heq
  exact take_some htake

theorem u16_append (value : UInt16) (rest : List UInt8) :
    u16 ⟨toBytes16 value ++ rest⟩ = some (value, ⟨rest⟩) := by
  unfold u16
  have htake : take ⟨toBytes16 value ++ rest⟩ 2 = some (⟨toBytes16 value, rfl⟩, ⟨rest⟩) :=
    take_append ⟨toBytes16 value, length_toBytes16 value⟩ rest
  rw [htake]
  exact congrArg (fun value => some (value, Fields.mk rest)) (ofBytes16_octets value)

theorem drop_two : ∀ (count : ℕ) (octets : List UInt8), octets.length = count + 2 →
    octets.drop count = [octets.getD count 0, octets.getD (count + 1) 0]
  | 0, [_, _], _ => rfl
  | count + 1, _ :: octets, h => drop_two count octets (Nat.succ.inj h)

theorem u16_some {value : UInt16} (h : fields.u16 = some (value, rest)) :
    fields.rest = toBytes16 value ++ rest.rest := by
  obtain ⟨⟨octets, left⟩, htake, heq⟩ := Option.map_eq_some_iff.mp h
  cases heq
  rw [take_some htake, toBytes16_ofBytes16, ← drop_two 0 octets.toList octets.length_eq]
  rfl

theorem toOctets_fromOctets (octets : OctetArray bip6AddressLength) :
    (Bip6Address.fromOctets octets).toOctets = octets.toList := by
  unfold Bip6Address.toOctets Bip6Address.fromOctets
  rw [toBytes16_ofBytes16, ← drop_two ipv6Length octets.toList octets.length_eq,
    List.take_append_drop]

variable (address : Bip6Address)

theorem length_toOctets : address.toOctets.length = bip6AddressLength := by
  unfold Bip6Address.toOctets
  rw [List.length_append, address.ip.length_eq]
  rfl

theorem fromOctets_toOctets :
    Bip6Address.fromOctets ⟨address.toOctets, length_toOctets address⟩ = address := by
  obtain ⟨ip, port⟩ := address
  have hlong : (ip.toList ++ toBytes16 port).length = ipv6Length + 2 := length_toOctets ⟨ip, port⟩
  have hlast : [(ip.toList ++ toBytes16 port).getD ipv6Length 0,
      (ip.toList ++ toBytes16 port).getD (ipv6Length + 1) 0] = toBytes16 port := by
    rw [← drop_two ipv6Length _ hlong, List.drop_left' ip.length_eq]
  have hport : ofBytes16 ((ip.toList ++ toBytes16 port).getD ipv6Length 0)
      ((ip.toList ++ toBytes16 port).getD (ipv6Length + 1) 0) = port := by
    rw [List.cons_eq_cons.mp hlast |>.1, (List.cons_eq_cons.mp (List.cons_eq_cons.mp hlast).2).1]
    exact ofBytes16_octets port
  have hip : (⟨(ip.toList ++ toBytes16 port).take ipv6Length, by
      rw [List.take_left' ip.length_eq, ip.length_eq]⟩ : OctetArray ipv6Length) = ip :=
    OctetArray.ext_toList (List.take_left' ip.length_eq)
  rw [Bip6Address.mk.injEq]
  exact ⟨hip, hport⟩

theorem address_append (rest : List UInt8) :
    Fields.address ⟨address.toOctets ++ rest⟩ = some (address, ⟨rest⟩) := by
  unfold Fields.address
  have htake : take ⟨address.toOctets ++ rest⟩ bip6AddressLength
      = some (⟨address.toOctets, length_toOctets address⟩, ⟨rest⟩) :=
    take_append ⟨address.toOctets, length_toOctets address⟩ rest
  rw [htake]
  exact congrArg (fun address => some (address, Fields.mk rest)) (fromOctets_toOctets address)

theorem address_some {address : Bip6Address} (h : fields.address = some (address, rest)) :
    fields.rest = address.toOctets ++ rest.rest := by
  obtain ⟨⟨octets, left⟩, htake, heq⟩ := Option.map_eq_some_iff.mp h
  cases heq
  rw [take_some htake, toOctets_fromOctets]

theorem end_some {T : Type} {message read : T} (h : fields.end_ message = some read) :
    fields.rest = [] ∧ message = read := by
  unfold end_ at h
  split_ifs at h with hempty
  exact ⟨List.isEmpty_iff.mp hempty, Option.some.inj h⟩

end Fields

namespace Bvll6

/-! ## Payloads -/

def payload (message : Bvll6) : List UInt8 :=
  message.sourceVmac.octets.toList ++ message.pieces.flatten

/-- The layout table gives the length of what is written. -/
theorem length_payload (message : Bvll6) : message.payload.length = message.payloadLength := by
  have hvmac : ∀ vmac : Bip6Vmac, vmac.octets.toList.length = 3 := fun vmac => vmac.octets.length_eq
  have haddress : ∀ address : Bip6Address, address.toOctets.length = 18 := Fields.length_toOctets
  unfold payload
  rw [List.length_append, hvmac]
  cases message with
  | bvlcResult source code => rfl
  | originalUnicastNpdu source destination npdu =>
    show 3 + ([destination.octets.toList, npdu].flatten).length = 2 * 3 + npdu.length
    simp only [List.flatten_cons, List.flatten_nil, List.length_append, List.length_nil, hvmac]
    omega
  | originalBroadcastNpdu source npdu =>
    show 3 + ([npdu].flatten).length = 3 + npdu.length
    rw [List.flatten_singleton]
  | addressResolution source target =>
    show 3 + ([target.octets.toList].flatten).length = 2 * 3
    rw [List.flatten_singleton, hvmac]
  | forwardedAddressResolution originalSource target originalAddress =>
    show 3 + ([target.octets.toList, originalAddress.toOctets].flatten).length = 2 * 3 + 18
    simp only [List.flatten_cons, List.flatten_nil, List.length_append, List.length_nil, hvmac,
      haddress]
  | addressResolutionAck source destination =>
    show 3 + ([destination.octets.toList].flatten).length = 2 * 3
    rw [List.flatten_singleton, hvmac]
  | virtualAddressResolution source => rfl
  | virtualAddressResolutionAck source destination =>
    show 3 + ([destination.octets.toList].flatten).length = 2 * 3
    rw [List.flatten_singleton, hvmac]
  | forwardedNpdu originalSource originalAddress npdu =>
    show 3 + ([originalAddress.toOctets, npdu].flatten).length = 3 + 18 + npdu.length
    simp only [List.flatten_cons, List.flatten_nil, List.length_append, List.length_nil, haddress]
    omega
  | registerForeignDevice source ttl => rfl
  | deleteForeignDeviceTableEntry source entry =>
    show 3 + ([entry.toOctets].flatten).length = 3 + 18
    rw [List.flatten_singleton, haddress]
  | distributeBroadcastToNetwork originalSource npdu =>
    show 3 + ([npdu].flatten).length = 3 + npdu.length
    rw [List.flatten_singleton]

/-- A message reads back from its payload. -/
theorem read_payload (message : Bvll6) : read message.function message.payload = some message := by
  unfold payload read
  rw [Fields.vmac_append]
  cases message with
  | bvlcResult source code =>
    show ((Fields.u16 ⟨toBytes16 code.raw ++ []⟩).bind fun x =>
      x.2.end_ (bvlcResult source ⟨x.1⟩)) = _
    rw [Fields.u16_append]
    rfl
  | originalUnicastNpdu source destination npdu =>
    show ((Fields.vmac ⟨destination.octets.toList ++ (npdu ++ [])⟩).bind fun x =>
      some (originalUnicastNpdu source x.1 x.2.rest)) = _
    rw [Fields.vmac_append, List.append_nil]
    rfl
  | originalBroadcastNpdu source npdu =>
    exact congrArg (fun npdu => some (originalBroadcastNpdu source npdu)) (List.append_nil npdu)
  | addressResolution source target =>
    show ((Fields.vmac ⟨target.octets.toList ++ []⟩).bind fun x =>
      x.2.end_ (addressResolution source x.1)) = _
    rw [Fields.vmac_append]
    rfl
  | forwardedAddressResolution originalSource target originalAddress =>
    show ((Fields.vmac ⟨target.octets.toList ++ (originalAddress.toOctets ++ [])⟩).bind fun x =>
      x.2.address.bind fun y =>
        y.2.end_ (forwardedAddressResolution originalSource x.1 y.1)) = _
    rw [Fields.vmac_append, Option.bind_some, Fields.address_append]
    rfl
  | addressResolutionAck source destination =>
    show ((Fields.vmac ⟨destination.octets.toList ++ []⟩).bind fun x =>
      x.2.end_ (addressResolutionAck source x.1)) = _
    rw [Fields.vmac_append]
    rfl
  | virtualAddressResolution source => rfl
  | virtualAddressResolutionAck source destination =>
    show ((Fields.vmac ⟨destination.octets.toList ++ []⟩).bind fun x =>
      x.2.end_ (virtualAddressResolutionAck source x.1)) = _
    rw [Fields.vmac_append]
    rfl
  | forwardedNpdu originalSource originalAddress npdu =>
    show ((Fields.address ⟨originalAddress.toOctets ++ (npdu ++ [])⟩).bind fun x =>
      some (forwardedNpdu originalSource x.1 x.2.rest)) = _
    rw [Fields.address_append, List.append_nil]
    rfl
  | registerForeignDevice source ttl =>
    show ((Fields.u16 ⟨toBytes16 ttl ++ []⟩).bind fun x =>
      x.2.end_ (registerForeignDevice source x.1)) = _
    rw [Fields.u16_append]
    rfl
  | deleteForeignDeviceTableEntry source entry =>
    show ((Fields.address ⟨entry.toOctets ++ []⟩).bind fun x =>
      x.2.end_ (deleteForeignDeviceTableEntry source x.1)) = _
    rw [Fields.address_append]
    rfl
  | distributeBroadcastToNetwork originalSource npdu =>
    exact congrArg (fun npdu => some (distributeBroadcastToNetwork originalSource npdu))
      (List.append_nil npdu)

variable {message : Bvll6}

/-- What a payload is read as has it for its own, under its function. -/
theorem payload_of_read {function : Bvlc6Function} {octets : List UInt8}
    (h : read function octets = some message) :
    message.function = function ∧ message.payload = octets := by
  obtain ⟨⟨source, fields⟩, hsource, h⟩ := Option.bind_eq_some_iff.mp h
  have hfirst := Fields.vmac_some hsource
  dsimp only at h hfirst
  rw [hfirst]
  -- a layout of one more field, and of nothing behind it
  have hone : ∀ {T : Type} (read : Fields → Option (T × Fields)) (octetsOf : T → List UInt8)
      (make : T → Bvll6),
      (∀ {fields value rest}, read fields = some (value, rest) →
        fields.rest = octetsOf value ++ rest.rest) →
      ((read fields).bind fun x => x.2.end_ (make x.1)) = some message →
      ∃ value, make value = message ∧ fields.rest = octetsOf value := by
    intro T read octetsOf make hread h
    obtain ⟨⟨value, rest⟩, hvalue, hend⟩ := Option.bind_eq_some_iff.mp h
    obtain ⟨hempty, hmake⟩ := Fields.end_some hend
    refine ⟨value, hmake, ?_⟩
    rw [hread hvalue, hempty, List.append_nil]
  by_cases hf : function = .bvlcResult
  · rw [if_pos hf] at h
    obtain ⟨code, rfl, hrest⟩ := hone Fields.u16 toBytes16 (fun code => bvlcResult source ⟨code⟩) Fields.u16_some h
    rw [hrest]
    exact ⟨hf.symm, congrArg (source.octets.toList ++ ·) List.flatten_singleton⟩
  rw [if_neg hf] at h
  clear hf
  by_cases hf : function = .originalUnicastNpdu
  · rw [if_pos hf] at h
    obtain ⟨⟨destination, rest⟩, hvalue, hmade⟩ := Option.bind_eq_some_iff.mp h
    cases hmade
    rw [Fields.vmac_some hvalue]
    refine ⟨hf.symm, congrArg (source.octets.toList ++ ·) ?_⟩
    show [destination.octets.toList, rest.rest].flatten = _
    rw [List.flatten_cons, List.flatten_singleton]
  rw [if_neg hf] at h
  clear hf
  by_cases hf : function = .originalBroadcastNpdu
  · rw [if_pos hf] at h
    cases h
    exact ⟨hf.symm, congrArg (source.octets.toList ++ ·) List.flatten_singleton⟩
  rw [if_neg hf] at h
  clear hf
  by_cases hf : function = .addressResolution
  · rw [if_pos hf] at h
    obtain ⟨target, rfl, hrest⟩ := hone Fields.vmac (fun vmac => vmac.octets.toList) (fun target => addressResolution source target) Fields.vmac_some h
    rw [hrest]
    exact ⟨hf.symm, congrArg (source.octets.toList ++ ·) List.flatten_singleton⟩
  rw [if_neg hf] at h
  clear hf
  by_cases hf : function = .forwardedAddressResolution
  · rw [if_pos hf] at h
    obtain ⟨⟨target, rest⟩, htarget, h⟩ := Option.bind_eq_some_iff.mp h
    obtain ⟨⟨address, last⟩, haddress, hend⟩ := Option.bind_eq_some_iff.mp h
    obtain ⟨hempty, rfl⟩ := Fields.end_some hend
    have hlast := Fields.address_some haddress
    rw [Fields.vmac_some htarget, hlast, hempty]
    refine ⟨hf.symm, congrArg (source.octets.toList ++ ·) ?_⟩
    show [target.octets.toList, address.toOctets].flatten = _
    rw [List.flatten_cons, List.flatten_singleton, List.append_nil]
  rw [if_neg hf] at h
  clear hf
  by_cases hf : function = .addressResolutionAck
  · rw [if_pos hf] at h
    obtain ⟨destination, rfl, hrest⟩ := hone Fields.vmac (fun vmac => vmac.octets.toList) (fun destination => addressResolutionAck source destination) Fields.vmac_some h
    rw [hrest]
    exact ⟨hf.symm, congrArg (source.octets.toList ++ ·) List.flatten_singleton⟩
  rw [if_neg hf] at h
  clear hf
  by_cases hf : function = .virtualAddressResolution
  · rw [if_pos hf] at h
    obtain ⟨hempty, rfl⟩ := Fields.end_some h
    rw [hempty]
    exact ⟨hf.symm, rfl⟩
  rw [if_neg hf] at h
  clear hf
  by_cases hf : function = .virtualAddressResolutionAck
  · rw [if_pos hf] at h
    obtain ⟨destination, rfl, hrest⟩ := hone Fields.vmac (fun vmac => vmac.octets.toList) (fun destination => virtualAddressResolutionAck source destination) Fields.vmac_some h
    rw [hrest]
    exact ⟨hf.symm, congrArg (source.octets.toList ++ ·) List.flatten_singleton⟩
  rw [if_neg hf] at h
  clear hf
  by_cases hf : function = .forwardedNpdu
  · rw [if_pos hf] at h
    obtain ⟨⟨originalAddress, rest⟩, hvalue, hmade⟩ := Option.bind_eq_some_iff.mp h
    cases hmade
    rw [Fields.address_some hvalue]
    refine ⟨hf.symm, congrArg (source.octets.toList ++ ·) ?_⟩
    show [originalAddress.toOctets, rest.rest].flatten = _
    rw [List.flatten_cons, List.flatten_singleton]
  rw [if_neg hf] at h
  clear hf
  by_cases hf : function = .registerForeignDevice
  · rw [if_pos hf] at h
    obtain ⟨ttl, rfl, hrest⟩ := hone Fields.u16 toBytes16 (fun ttl => registerForeignDevice source ttl) Fields.u16_some h
    rw [hrest]
    exact ⟨hf.symm, congrArg (source.octets.toList ++ ·) List.flatten_singleton⟩
  rw [if_neg hf] at h
  clear hf
  by_cases hf : function = .deleteForeignDeviceTableEntry
  · rw [if_pos hf] at h
    obtain ⟨entry, rfl, hrest⟩ := hone Fields.address Bip6Address.toOctets (fun entry => deleteForeignDeviceTableEntry source entry) Fields.address_some h
    rw [hrest]
    exact ⟨hf.symm, congrArg (source.octets.toList ++ ·) List.flatten_singleton⟩
  rw [if_neg hf] at h
  clear hf
  by_cases hf : function = .distributeBroadcastToNetwork
  · rw [if_pos hf] at h
    cases h
    exact ⟨hf.symm, congrArg (source.octets.toList ++ ·) List.flatten_singleton⟩
  rw [if_neg hf] at h
  clear hf
  cases h

/-! ## Datagrams -/

def length (message : Bvll6) : ℕ := headerLength + message.payloadLength

def wire (message : Bvll6) : List UInt8 :=
  (bvlcTypeBip6 :: message.function.raw :: toBytes16 (UInt16.ofNat message.length))
    ++ message.payload

/-- The message can be encoded: its length can be stated, and its result code is defined. -/
def Encodable (message : Bvll6) : Prop :=
  message.length ≤ maxBvllLength ∧ ∀ code ∈ message.resultCode, code.isDefined = true

theorem length_wire (message : Bvll6) : message.wire.length = message.length := by
  unfold wire length
  rw [List.length_append, length_payload]
  rfl

theorem encodedLen_eq (message : Bvll6) :
    (message.Encodable ∧ message.encodedLen = .ok message.length) ∨
      (¬message.Encodable ∧ ∃ refused, message.encodedLen = .error refused) := by
  unfold encodedLen
  exact Bvll.statedLength_cases (fun c h => by rw [h]; exact ⟨_, rfl⟩) (fun h => by rw [h]; rfl)

theorem encodeInto_eq (message : Bvll6) (output : List UInt8) :
    (message.Encodable ∧ message.length ≤ output.length ∧
        message.encodeInto output
          = (.ok message.length, message.wire ++ output.drop message.length)) ∨
      (¬(message.Encodable ∧ message.length ≤ output.length) ∧
        ∃ refused, message.encodeInto output = (.error refused, output)) := by
  unfold encodeInto encodeToSink
  rcases message.encodedLen_eq with ⟨hok, hlen⟩ | ⟨hnot, refused, hlen⟩
  · rw [hlen]
    dsimp only
    split_ifs with hroom
    · exact .inr ⟨fun h => Nat.not_le.mpr hroom h.2, _, rfl⟩
    · refine .inl ⟨hok, Nat.not_lt.mp hroom, ?_⟩
      have hwire : ((bvlcTypeBip6 :: message.function.raw ::
          toBytes16 (UInt16.ofNat message.length) ++ message.sourceVmac.octets.toList)
            :: message.pieces).flatten = message.wire := by
        rw [List.flatten_cons, List.append_assoc]
        rfl
      have hwrite := SliceSink.writeAll_fits
        ((bvlcTypeBip6 :: message.function.raw ::
          toBytes16 (UInt16.ofNat message.length) ++ message.sourceVmac.octets.toList)
            :: message.pieces) ⟨[], output⟩ (by
              rw [hwire, length_wire]
              exact Nat.not_lt.mp hroom)
      rw [hwrite, hwire, length_wire]
      rfl
  · rw [hlen]
    exact .inr ⟨fun h => hnot h.1, refused, rfl⟩

theorem ofBytes16_length {count : ℕ} (h : count ≤ maxBvllLength) :
    (ofBytes16 (UInt8.ofNat ((UInt16.ofNat count).toNat / 256))
      (UInt8.ofNat ((UInt16.ofNat count).toNat % 256))).toNat = count := by
  rw [ofBytes16_octets]
  exact UInt16.toNat_ofNat_of_lt' (Nat.lt_succ_of_le h)

theorem decode_wire (h : message.length ≤ maxBvllLength) : decode message.wire = .ok message := by
  have hlength := message.length_wire
  unfold wire toBytes16 at hlength ⊢
  unfold decode Bvll6Frame.decode
  simp only [List.cons_append, List.nil_append] at hlength ⊢
  rw [ofBytes16_length h, hlength, if_neg (not_not.mpr rfl), if_neg (not_not.mpr rfl)]
  unfold Bvll6Frame.message
  have hread : read ⟨message.function.raw⟩ message.payload = some message := read_payload message
  dsimp only
  rw [hread]

/-- A datagram is what its message encodes to. -/
theorem wire_of_decode {datagram : List UInt8} (h : decode datagram = .ok message) :
    datagram = message.wire ∧ datagram.length ≤ maxBvllLength := by
  unfold decode Bvll6Frame.decode at h
  rcases datagram with _ | ⟨bvlcType, _ | ⟨function, _ | ⟨high, _ | ⟨low, octets⟩⟩⟩⟩
  · cases h
  · cases h
  · cases h
  · cases h
  dsimp only at h
  by_cases htype : bvlcType = bvlcTypeBip6
  swap
  · rw [if_pos htype] at h
    cases h
  by_cases hdeclared : (ofBytes16 high low).toNat
      = (bvlcType :: function :: high :: low :: octets).length
  swap
  · rw [if_neg (not_not.mpr htype), if_pos hdeclared] at h
    cases h
  rw [if_neg (not_not.mpr htype), if_neg (not_not.mpr hdeclared)] at h
  unfold Bvll6Frame.message at h
  dsimp only at h
  cases hread : read ⟨function⟩ octets with
  | none =>
    rw [hread] at h
    dsimp only at h
    split_ifs at h
  | some read =>
    rw [hread] at h
    cases h
    obtain ⟨hfunction, hpayload⟩ := payload_of_read hread
    have hlength : message.length = (ofBytes16 high low).toNat := by
      rw [hdeclared]
      unfold length
      rw [← length_payload, hpayload]
      exact Nat.add_comm _ _
    refine ⟨?_, ?_⟩
    · unfold wire
      rw [hfunction, hpayload, hlength, UInt16.ofNat_toNat, toBytes16_ofBytes16, htype]
      rfl
    · rw [← hdeclared]
      exact Nat.le_of_lt_succ (ofBytes16 high low).toNat_lt

/-- The two directions of the B/IPv6 codec. A message is written iff its length can be stated, its
result code is defined and there is room; then `encodedLen` octets are written, and they decode to
it; otherwise nothing is. A datagram that decodes is what its message encodes to. -/
theorem bvll6_codec :
    (∀ (message : Bvll6) (output : List UInt8),
      ((∃ written, (message.encodeInto output).1 = .ok written) ↔
        message.length ≤ maxBvllLength ∧
          (∀ source code, message = .bvlcResult source code → code.isDefined = true) ∧
          message.length ≤ output.length) ∧
      (∀ refused, (message.encodeInto output).1 = .error refused →
        (message.encodeInto output).2 = output) ∧
      (∀ written, (message.encodeInto output).1 = .ok written →
        message.encodedLen = .ok written ∧ written = message.length ∧
        ∃ octets, octets.length = written ∧
          (message.encodeInto output).2 = octets ++ output.drop written ∧
          decode octets = .ok message)) ∧
    (∀ (datagram : List UInt8) (message : Bvll6), decode datagram = .ok message →
      (∀ source code, message = .bvlcResult source code → code.isDefined = true) →
      ∀ output : List UInt8, datagram.length ≤ output.length →
        message.encodeInto output
          = (.ok datagram.length, datagram ++ output.drop datagram.length)) := by
  have hcode : ∀ message : Bvll6, (∀ code ∈ message.resultCode, code.isDefined = true) ↔
      ∀ source code, message = .bvlcResult source code → code.isDefined = true := by
    intro message
    cases message with
    | bvlcResult source code =>
      constructor
      · rintro h _ _ ⟨⟩
        exact h code rfl
      · rintro h _ ⟨⟩
        exact h source code rfl
    | _ => exact ⟨fun _ _ _ => (nomatch ·), fun _ _ => (nomatch ·)⟩
  constructor
  · intro message output
    rcases message.encodeInto_eq output with ⟨hok, hroom, heq⟩ | ⟨hnot, refused, heq⟩
    · rw [heq]
      refine ⟨⟨fun _ => ⟨hok.1, (hcode message).mp hok.2, hroom⟩, fun _ => ⟨_, rfl⟩⟩, ?_, ?_⟩
      · rintro refused ⟨⟩
      · rintro written ⟨⟩
        rcases message.encodedLen_eq with ⟨-, hlen⟩ | ⟨hnot, -⟩
        · exact ⟨hlen, rfl, message.wire, message.length_wire, rfl, decode_wire hok.1⟩
        · exact absurd hok hnot
    · rw [heq]
      refine ⟨⟨?_, fun h => ?_⟩, fun _ _ => rfl, ?_⟩
      · rintro ⟨written, ⟨⟩⟩
      · exact absurd ⟨⟨h.1, (hcode message).mpr h.2.1⟩, h.2.2⟩ hnot
      · rintro written ⟨⟩
  · intro datagram message hdecode hdefined output hroom
    obtain ⟨rfl, hlong⟩ := wire_of_decode hdecode
    rw [length_wire] at hlong hroom ⊢
    rcases message.encodeInto_eq output with ⟨-, -, heq⟩ | ⟨hnot, -⟩
    · exact heq
    · exact absurd ⟨⟨hlong, (hcode message).mpr hdefined⟩, hroom⟩ hnot

/-- A Register-Foreign-Device from the VMAC 00 04 D2, back to its datagram. -/
theorem bvll6_codec_register :
    (registerForeignDevice ⟨⟨[0, 4, 0xD2], rfl⟩⟩ 60).encodeInto (List.replicate 10 7)
      = (.ok 9, [0x82, 9, 0, 9, 0, 4, 0xD2, 0, 60, 7]) :=
  bvll6_codec.2 [0x82, 9, 0, 9, 0, 4, 0xD2, 0, 60]
    (registerForeignDevice ⟨⟨[0, 4, 0xD2], rfl⟩⟩ 60) (by decide) (fun _ _ => (nomatch ·))
    (List.replicate 10 7) (by decide)

end Bvll6

end RustyBacnet.Bip
