import RustyBacnet.Npdu.Encode

/-!
# The NPDU codec

Both directions go through `wire`. Decoding is a chain of reads at a cursor, and each read is
described by what it takes off the front of the rest of the frame.

1. A read behind a prefix of known length finds the field that was written there
   (`decodeDestination_append` and its siblings), so decoding `wire` gives the fields back.
2. A read that succeeds takes exactly the octets of the field it returns (`Reads`), so a frame
   that decodes is the `wire` of its NPDU, up to the reserved control bits.
-/

namespace RustyBacnet.Npdu

open Slices BigEndian

/-- What the decoder returns for the octets of `npdu`. -/
def normalised (npdu : Npdu) : Npdu :=
  { npdu with
    hopCount := if npdu.destination.isSome then npdu.hopCount else 255
    vendorId :=
      if npdu.messageType.any NetworkMessageType.isProprietary then some (npdu.vendorId.getD 0)
      else none
    payloadOffset := 2 + npdu.npci.length }

/-- A frame with the two reserved bits of its control octet cleared. -/
def clearReserved : List UInt8 → List UInt8
  | first :: control :: rest => first :: (control &&& 0xAF) :: rest
  | frame => frame

theorem controlOctet_bits (npdu : Npdu) :
    (npdu.controlOctet &&& networkMessageBit = 0 ↔ npdu.messageType = none)
      ∧ (npdu.controlOctet &&& destinationBit = 0 ↔ npdu.destination = none)
      ∧ (npdu.controlOctet &&& sourceBit = 0 ↔ npdu.source = none)
      ∧ decide (npdu.controlOctet &&& expectingReplyBit ≠ 0) = npdu.expectingReply
      ∧ NetworkPriority.fromControl npdu.controlOctet = npdu.priority := by
  unfold controlOctet
  simp only [← Option.not_isSome_iff_eq_none]
  generalize npdu.messageType.isSome = m
  generalize npdu.destination.isSome = d
  generalize npdu.source.isSome = s
  generalize npdu.expectingReply = r
  cases npdu.priority <;> cases m <;> cases d <;> cases s <;> cases r <;> decide

theorem controlBits (control : UInt8) :
    (NetworkPriority.fromControl control).toRaw
        ||| (if control &&& networkMessageBit = 0 then 0 else networkMessageBit)
        ||| (if control &&& destinationBit = 0 then 0 else destinationBit)
        ||| (if control &&& sourceBit = 0 then 0 else sourceBit)
        ||| (if control &&& expectingReplyBit = 0 then 0 else expectingReplyBit)
      = control &&& 0xAF := by
  have key : ∀ n : Fin 256,
      (NetworkPriority.fromControl (UInt8.ofNat n)).toRaw
        ||| (if UInt8.ofNat n &&& networkMessageBit = 0 then 0 else networkMessageBit)
        ||| (if UInt8.ofNat n &&& destinationBit = 0 then 0 else destinationBit)
        ||| (if UInt8.ofNat n &&& sourceBit = 0 then 0 else sourceBit)
        ||| (if UInt8.ofNat n &&& expectingReplyBit = 0 then 0 else expectingReplyBit)
      = UInt8.ofNat n &&& 0xAF := by decide +kernel
  have h := key ⟨control.toNat, control.toNat_lt⟩
  rw [UInt8.ofNat_toNat] at h
  exact h

/-! ## Reading what was written -/

section Append

variable (pre rest : List UInt8)

theorem octets_append (field : List UInt8) :
    octets (pre ++ (field ++ rest)) pre.length field.length = .ok field := by
  unfold octets slice
  rw [if_pos (by simp only [List.length_append]; omega), List.drop_left, List.take_left]

theorem networkAndLength_append (network : UInt16) (length : UInt8) :
    networkAndLength (pre ++ (toBytes16 network ++ length :: rest)) pre.length
      = .ok (network, length) := by
  have h := octets_append pre rest (toBytes16 network ++ [length])
  rw [List.append_assoc, List.singleton_append] at h
  unfold networkAndLength
  rw [show (toBytes16 network ++ [length]).length = 3 from rfl] at h
  rw [h]
  simp [toBytes16]

theorem address_append {a : Address} (hlen : a.mac.length ≤ maxMacLen) :
    (UInt8.ofNat a.mac.length).toNat = a.mac.length ∧
      networkAndLength (pre ++ (addressOctets (some a) ++ rest)) pre.length
        = .ok (a.network, UInt8.ofNat a.mac.length) ∧
      octets (pre ++ (addressOctets (some a) ++ rest)) (pre.length + 3) a.mac.length = .ok a.mac := by
  refine ⟨?_, ?_, ?_⟩
  · rw [UInt8.toNat_ofNat']
    unfold maxMacLen at hlen
    omega
  · have hhead := networkAndLength_append pre (a.mac ++ rest) a.network (UInt8.ofNat a.mac.length)
    simpa [addressOctets] using hhead
  · have h := octets_append (pre ++ (toBytes16 a.network ++ [UInt8.ofNat a.mac.length])) rest a.mac
    have hpre : (pre ++ (toBytes16 a.network ++ [UInt8.ofNat a.mac.length])).length
        = pre.length + 3 := by simp
    rw [hpre] at h
    simpa [addressOctets] using h

theorem decodeDestination_append (control : UInt8) (destination : Option Address)
    (hbit : control &&& destinationBit = 0 ↔ destination = none)
    (hok : ∀ a ∈ destination, DestinationOk a) :
    decodeDestination (pre ++ (addressOctets destination ++ rest)) control pre.length
      = .ok (destination, pre.length + addressLen destination) := by
  unfold decodeDestination
  cases destination with
  | none => rw [if_pos (hbit.mpr rfl)]; rfl
  | some a =>
    obtain ⟨hnet, hlen⟩ := hok a rfl
    obtain ⟨hbyte, hhead, hmac⟩ := address_append pre rest hlen
    rw [if_neg (fun h => nomatch hbit.mp h), hhead]
    simp only [orMalformed, bind, Except.bind, if_neg hnet, hbyte,
      if_neg (Nat.not_lt.mpr hlen), hmac, addressLen, Option.elim, Nat.add_assoc]

theorem decodeSource_append (control : UInt8) (destination source : Option Address)
    (hbit : control &&& sourceBit = 0 ↔ source = none) (hok : ∀ a ∈ source, SourceOk a) :
    decodeSource (pre ++ (addressOctets source ++ rest)) control destination pre.length
      = .ok (source, pre.length + addressLen source) := by
  unfold decodeSource
  cases source with
  | none => rw [if_pos (hbit.mpr rfl)]; rfl
  | some a =>
    obtain ⟨hnet, hglobal, hmacNe, hlen⟩ := hok a rfl
    obtain ⟨hbyte, hhead, hmac⟩ := address_append pre rest hlen
    have hzero : UInt8.ofNat a.mac.length ≠ 0 := by
      intro h
      have := congrArg UInt8.toNat h
      rw [hbyte] at this
      exact hmacNe (List.length_eq_zero_iff.mp this)
    have hnets : ¬(a.network = 0 ∨ a.network = globalNetwork) := by
      rw [not_or]
      exact ⟨hnet, hglobal⟩
    rw [if_neg (fun h => nomatch hbit.mp h), hhead]
    simp only [orMalformed, bind, Except.bind, if_neg hnets, if_neg hzero, hbyte,
      if_neg (Nat.not_lt.mpr hlen), hmac, addressLen, Option.elim, Nat.add_assoc]

theorem decodeHopCount_append (npdu : Npdu) :
    decodeHopCount (pre ++ (npdu.hopOctets ++ rest)) npdu.destination pre.length
      = .ok (npdu.normalised.hopCount, pre.length + npdu.destination.isSome.toNat) := by
  unfold decodeHopCount hopOctets normalised
  cases npdu.destination with
  | none => rfl
  | some a => simp

theorem decodeMessage_append (control : UInt8) (npdu : Npdu)
    (hbit : control &&& networkMessageBit = 0 ↔ npdu.messageType = none) :
    decodeMessage (pre ++ (npdu.messageOctets ++ rest)) control pre.length
      = .ok (npdu.messageType, npdu.normalised.vendorId,
          pre.length + messageLen npdu.messageType) := by
  unfold decodeMessage messageOctets normalised messageLen
  cases hkind : npdu.messageType with
  | none =>
    rw [if_pos (hbit.mpr hkind)]
    simp
  | some kind =>
    rw [hkind] at hbit
    rw [if_neg (fun h => nomatch hbit.mp h)]
    have hget : (pre ++ (kind.raw :: (if kind.isProprietary then
        toBytes16 (npdu.vendorId.getD 0) else []) ++ rest))[pre.length]? = some kind.raw := by
      simp
    have hraw : NetworkMessageType.isProprietary ⟨kind.raw⟩ = kind.isProprietary := rfl
    rw [hget]
    dsimp only
    rw [hraw, Option.any_some]
    split_ifs with hp
    · have h := octets_append (pre ++ [kind.raw]) rest (toBytes16 (npdu.vendorId.getD 0))
      rw [List.length_append, length_toBytes16, List.append_assoc] at h
      rw [show (pre.length + 1 : ℕ) = pre.length + [kind.raw].length from rfl,
        List.cons_append]
      rw [List.singleton_append] at h
      rw [h]
      simp [toBytes16]
    · rfl

end Append

variable {npdu : Npdu}

/-- The octets of an NPDU decode to it. -/
theorem decode_wire (h : npdu.Encodable) : decode npdu.wire = .ok npdu.normalised := by
  obtain ⟨hmessage, hdestination, hsource, hreply, hpriority⟩ := npdu.controlOctet_bits
  have hwire : npdu.wire = npduVersion :: npdu.controlOctet :: (npdu.npci ++ npdu.payload) := rfl
  -- The frame, split behind each field the decoder stops at.
  have hd := decodeDestination_append [npduVersion, npdu.controlOctet]
    (addressOctets npdu.source ++ npdu.hopOctets ++ npdu.messageOctets ++ npdu.payload)
    npdu.controlOctet npdu.destination hdestination h.destination
  have hs := decodeSource_append
    ([npduVersion, npdu.controlOctet] ++ addressOctets npdu.destination)
    (npdu.hopOctets ++ npdu.messageOctets ++ npdu.payload)
    npdu.controlOctet npdu.destination npdu.source hsource h.source
  have hh := decodeHopCount_append
    ([npduVersion, npdu.controlOctet] ++ addressOctets npdu.destination
      ++ addressOctets npdu.source)
    (npdu.messageOctets ++ npdu.payload) npdu
  have hm := decodeMessage_append
    ([npduVersion, npdu.controlOctet] ++ addressOctets npdu.destination
      ++ addressOctets npdu.source ++ npdu.hopOctets)
    npdu.payload npdu.controlOctet npdu hmessage
  simp only [← List.append_assoc] at hd hs hh hm
  have hframe : [npduVersion, npdu.controlOctet] ++ addressOctets npdu.destination
      ++ addressOctets npdu.source ++ npdu.hopOctets ++ npdu.messageOctets ++ npdu.payload
      = npdu.wire := by
    simp [wire, npci]
  rw [hframe] at hd hs hh hm
  simp only [List.length_append, length_addressOctets, length_hopOctets] at hd hs hh hm
  unfold decode
  rw [hwire] at hd hs hh hm ⊢
  simp only [ne_eq, not_true_eq_false, if_false]
  rw [show ([npduVersion, npdu.controlOctet] : List UInt8).length = 2 from rfl] at hd hs hh hm
  simp only [bind, Except.bind, hd, hs, hh, hm]
  have hcursor : 2 + addressLen npdu.destination + addressLen npdu.source
      + npdu.destination.isSome.toNat + messageLen npdu.messageType = 2 + npdu.npci.length := by
    rw [length_npci]
    omega
  rw [hcursor]
  have hdrop : (npduVersion :: npdu.controlOctet :: (npdu.npci ++ npdu.payload)).drop
      (2 + npdu.npci.length) = npdu.payload := by
    rw [Nat.add_comm]
    exact List.drop_left
  rw [hdrop, hreply, hpriority]
  rfl

/-! ## What a successful read takes -/

/-- Between the cursors the frame holds `field`. -/
structure Reads (frame : List UInt8) (cursor : ℕ) (field : List UInt8) (behind : ℕ) : Prop where
  length : behind = cursor + field.length
  split : frame.drop cursor = field ++ frame.drop behind

theorem Reads.nil (frame : List UInt8) (cursor : ℕ) : Reads frame cursor [] cursor :=
  ⟨rfl, rfl⟩

variable {frame : List UInt8}

theorem Reads.append {xs ys : List UInt8} {a b c : ℕ} (h : Reads frame a xs b)
    (h' : Reads frame b ys c) : Reads frame a (xs ++ ys) c := by
  refine ⟨?_, ?_⟩
  · rw [h'.length, h.length, List.length_append, Nat.add_assoc]
  · rw [h.split, h'.split, List.append_assoc]

variable {cursor : ℕ}

theorem octets_reads {field : List UInt8} {length : ℕ} (h : octets frame cursor length = .ok field)
    : field.length = length ∧ Reads frame cursor field (cursor + length) := by
  unfold octets at h
  split_ifs at h with hle
  cases h
  refine ⟨length_slice hle, ?_, ?_⟩
  · rw [length_slice hle]
  · unfold slice
    rw [← List.drop_drop, List.take_append_drop]

variable {network : UInt16} {length : UInt8}

theorem networkAndLength_reads (h : networkAndLength frame cursor = .ok (network, length)) :
    Reads frame cursor (toBytes16 network ++ [length]) (cursor + 3) := by
  unfold networkAndLength at h
  split at h
  · rename_i high low l hoctets
    cases h
    rw [toBytes16_ofBytes16]
    exact (octets_reads hoctets).2
  · cases h

theorem getElem_reads {octet : UInt8} (h : frame[cursor]? = some octet) :
    Reads frame cursor [octet] (cursor + 1) := by
  obtain ⟨hlt, rfl⟩ := List.getElem?_eq_some_iff.mp h
  exact ⟨rfl, List.drop_eq_getElem_cons hlt⟩

theorem reads_address {mac : List UInt8} (h : networkAndLength frame cursor = .ok (network, length))
    (hmac : octets frame (cursor + 3) length.toNat = .ok mac) :
    Reads frame cursor (addressOctets (some ⟨network, mac⟩)) (cursor + 3 + mac.length) := by
  obtain ⟨hlen, hreads⟩ := octets_reads hmac
  have hboth := (networkAndLength_reads h).append hreads
  have hbyte : UInt8.ofNat mac.length = length := by
    rw [hlen, UInt8.ofNat_toNat]
  rw [← hlen] at hboth
  simpa [addressOctets, hbyte] using hboth

variable {destination : Option Address} {control : UInt8} {behind : ℕ}

theorem decodeDestination_reads
    (h : decodeDestination frame control cursor = .ok (destination, behind)) :
    Reads frame cursor (addressOctets destination) behind
      ∧ (control &&& destinationBit = 0 ↔ destination = none)
      ∧ ∀ a ∈ destination, DestinationOk a := by
  unfold decodeDestination at h
  by_cases hbit : control &&& destinationBit = 0
  · rw [if_pos hbit] at h
    cases h
    exact ⟨.nil _ _, by simp [hbit], by simp⟩
  · rw [if_neg hbit] at h
    cases hhead : networkAndLength frame cursor with
    | error fault => rw [hhead] at h; cases h
    | ok head =>
      obtain ⟨network, length⟩ := head
      rw [hhead] at h
      simp only [orMalformed, bind, Except.bind] at h
      split_ifs at h with hnet hlen
      cases hmac : octets frame (cursor + 3) length.toNat with
      | error fault => rw [hmac] at h; cases h
      | ok mac =>
        rw [hmac] at h
        cases h
        refine ⟨reads_address hhead hmac, by simp [hbit], ?_⟩
        rintro a ⟨⟩
        refine ⟨hnet, ?_⟩
        rw [(octets_reads hmac).1]
        exact Nat.not_lt.mp hlen

theorem decodeSource_reads {source : Option Address}
    (h : decodeSource frame control destination cursor = .ok (source, behind)) :
    Reads frame cursor (addressOctets source) behind
      ∧ (control &&& sourceBit = 0 ↔ source = none)
      ∧ ∀ a ∈ source, SourceOk a := by
  unfold decodeSource at h
  split_ifs at h with hbit
  · cases h
    exact ⟨.nil _ _, by simp [hbit], by simp⟩
  · cases hhead : networkAndLength frame cursor with
    | error fault => rw [hhead] at h; cases h
    | ok head =>
      obtain ⟨network, length⟩ := head
      rw [hhead] at h
      simp only [orMalformed, bind, Except.bind] at h
      split_ifs at h with hnet hzero hlen
      cases hmac : octets frame (cursor + 3) length.toNat with
      | error fault => rw [hmac] at h; cases h
      | ok mac =>
        rw [hmac] at h
        cases h
        have hmacLen := (octets_reads hmac).1
        refine ⟨reads_address hhead hmac, by simp [hbit], ?_⟩
        rintro a ⟨⟩
        rw [not_or] at hnet
        refine ⟨hnet.1, hnet.2, ?_, ?_⟩
        · rintro rfl
          apply hzero
          apply UInt8.toNat_inj.mp
          rw [← hmacLen]
          rfl
        · rw [hmacLen]
          exact Nat.not_lt.mp hlen

theorem decodeHopCount_reads {hopCount : UInt8}
    (h : decodeHopCount frame destination cursor = .ok (hopCount, behind)) :
    Reads frame cursor (if destination.isSome then [hopCount] else []) behind
      ∧ (destination = none → hopCount = 255) := by
  unfold decodeHopCount at h
  cases destination with
  | none =>
    cases h
    exact ⟨.nil _ _, fun _ => rfl⟩
  | some a =>
    simp only [Option.isSome_some, if_true] at h ⊢
    cases hget : frame[cursor]? with
    | none => rw [hget] at h; cases h
    | some octet =>
      rw [hget] at h
      cases h
      exact ⟨getElem_reads hget, nofun⟩

theorem decodeMessage_reads {kind : Option NetworkMessageType} {vendor : Option UInt16}
    (h : decodeMessage frame control cursor = .ok (kind, vendor, behind)) :
    Reads frame cursor (kind.elim [] fun k => k.raw :: (vendor.elim [] toBytes16)) behind
      ∧ (control &&& networkMessageBit = 0 ↔ kind = none)
      ∧ vendor.isSome = kind.any NetworkMessageType.isProprietary := by
  unfold decodeMessage at h
  split_ifs at h with hbit
  · cases h
    exact ⟨.nil _ _, by simp [hbit], rfl⟩
  · cases hget : frame[cursor]? with
    | none => rw [hget] at h; cases h
    | some raw =>
      rw [hget] at h
      dsimp only at h
      split_ifs at h with hp
      · split at h
        · rename_i high low hoctets
          cases h
          refine ⟨?_, by simp [hbit], by simp [hp]⟩
          have hreads := (getElem_reads hget).append (octets_reads hoctets).2
          simpa using hreads
        · cases h
      · cases h
        refine ⟨getElem_reads hget, by simp [hbit], by simp [hp]⟩

/-! ## Frames that decode -/

theorem controlOctet_of_bits
    (hmessage : control &&& networkMessageBit = 0 ↔ npdu.messageType = none)
    (hdestination : control &&& destinationBit = 0 ↔ npdu.destination = none)
    (hsource : control &&& sourceBit = 0 ↔ npdu.source = none)
    (hreply : npdu.expectingReply = decide (control &&& expectingReplyBit ≠ 0))
    (hpriority : npdu.priority = NetworkPriority.fromControl control) :
    npdu.controlOctet = control &&& 0xAF := by
  have hif : ∀ {α : Type} {o : Option α} {bit : UInt8}, (control &&& bit = 0 ↔ o = none) →
      (if o.isSome then bit else 0) = if control &&& bit = 0 then 0 else bit := by
    intro α o bit h
    cases o with
    | none => rw [if_pos (h.mpr rfl)]; rfl
    | some _ => rw [if_neg fun h0 => nomatch h.mp h0]; rfl
  rw [← controlBits control]
  unfold controlOctet
  rw [hif hmessage, hif hdestination, hif hsource, hreply, hpriority]
  simp only [decide_eq_true_eq, ne_eq, ite_not]

/-- A vendor id that stands exactly on proprietary types is what the encoder would write. -/
theorem messageOctets_of_vendor {npdu : Npdu}
    (h : npdu.vendorId.isSome = npdu.messageType.any NetworkMessageType.isProprietary) :
    npdu.messageType.elim [] (fun kind => kind.raw :: npdu.vendorId.elim [] toBytes16)
      = npdu.messageOctets := by
  unfold messageOctets
  cases hkind : npdu.messageType with
  | none => rfl
  | some kind =>
    rw [hkind, Option.any_some] at h
    cases hvendor : npdu.vendorId with
    | none =>
      rw [hvendor] at h
      simp [← h]
    | some vendor =>
      rw [hvendor] at h
      simp [← h]

theorem normalised_eq_self (hhop : npdu.destination = none → npdu.hopCount = 255)
    (hvendor : npdu.vendorId.isSome = npdu.messageType.any NetworkMessageType.isProprietary)
    (hoffset : npdu.payloadOffset = 2 + npdu.npci.length) : npdu.normalised = npdu := by
  have hhopCount : npdu.normalised.hopCount = npdu.hopCount := by
    unfold normalised
    cases hd : npdu.destination with
    | none => exact (hhop hd).symm
    | some _ => rfl
  have hvendorId : npdu.normalised.vendorId = npdu.vendorId := by
    unfold normalised
    rw [← hvendor]
    cases npdu.vendorId <;> rfl
  have hpayloadOffset : npdu.normalised.payloadOffset = npdu.payloadOffset := hoffset.symm
  show Npdu.mk _ _ _ _ npdu.normalised.hopCount _ npdu.normalised.vendorId _
    npdu.normalised.payloadOffset = npdu
  rw [hhopCount, hvendorId, hpayloadOffset]

/-- Everything `decode` has checked when it returns an NPDU. -/
theorem decode_cases (h : decode frame = .ok npdu) :
    ∃ control, frame = npduVersion :: control :: (npdu.npci ++ npdu.payload)
      ∧ npdu.controlOctet = control &&& 0xAF ∧ npdu.Encodable ∧ npdu.normalised = npdu := by
  unfold decode at h
  split at h
  · rename_i first control rest
    split_ifs at h with hversion
    rw [not_not] at hversion
    subst hversion
    simp only [bind, Except.bind] at h
    split at h
    · cases h
    rename_i _ d hd
    obtain ⟨destination, c1⟩ := d
    split at h
    · cases h
    rename_i _ s hs
    obtain ⟨source, c2⟩ := s
    split at h
    · cases h
    rename_i _ hop hh
    obtain ⟨hopCount, c3⟩ := hop
    split at h
    · cases h
    rename_i _ m hm
    obtain ⟨kind, vendor, c4⟩ := m
    obtain ⟨hdReads, hdBit, hdOk⟩ := decodeDestination_reads hd
    obtain ⟨hsReads, hsBit, hsOk⟩ := decodeSource_reads hs
    obtain ⟨hhReads, hhNone⟩ := decodeHopCount_reads hh
    obtain ⟨hmReads, hmBit, hmVendor⟩ := decodeMessage_reads hm
    have hall := ((hdReads.append hsReads).append hhReads).append hmReads
    generalize hnpdu : Npdu.mk (decide (control &&& expectingReplyBit ≠ 0))
      (NetworkPriority.fromControl control) destination source hopCount kind vendor
      ((npduVersion :: control :: rest).drop c4) c4 = decoded at h
    have hkinds := @messageOctets_of_vendor decoded (by rw [← hnpdu]; exact hmVendor)
    have hnpci : addressOctets destination ++ addressOctets source
        ++ (if destination.isSome then [hopCount] else [])
        ++ kind.elim [] (fun k => k.raw :: vendor.elim [] toBytes16) = decoded.npci := by
      unfold npci
      rw [← hkinds, ← hnpdu]
      rfl
    rw [hnpci] at hall
    cases h
    refine ⟨control, ?_, ?_, ?_, ?_⟩
    · rw [← show _ = npdu.payload from congrArg Npdu.payload hnpdu, ← hall.split]
      rfl
    · subst hnpdu
      exact controlOctet_of_bits hmBit hdBit hsBit rfl rfl
    · subst hnpdu
      exact ⟨hdOk, hsOk⟩
    · subst hnpdu
      exact normalised_eq_self hhNone hmVendor hall.length
  · cases h

theorem decode_encodable (h : decode frame = .ok npdu) : npdu.Encodable := by
  obtain ⟨_, _, _, hok, _⟩ := decode_cases h
  exact hok

theorem wire_of_decode (h : decode frame = .ok npdu) : npdu.wire = clearReserved frame := by
  obtain ⟨control, hframe, hcontrol, _, _⟩ := decode_cases h
  rw [hframe]
  show npduVersion :: npdu.controlOctet :: (npdu.npci ++ npdu.payload) = _
  rw [hcontrol]
  rfl

theorem payload_of_decode (h : decode frame = .ok npdu) :
    npdu.payload = frame.drop npdu.payloadOffset := by
  obtain ⟨control, hframe, _, _, hnormal⟩ := decode_cases h
  have hoffset : npdu.payloadOffset = npdu.npci.length + 2 := by
    rw [Nat.add_comm]
    exact (congrArg Npdu.payloadOffset hnormal).symm
  rw [hoffset, hframe]
  exact List.drop_left.symm

@[simp] theorem length_clearReserved (frame : List UInt8) :
    (clearReserved frame).length = frame.length := by
  unfold clearReserved
  split <;> rfl

/-! ## The encoder's verdict -/

theorem encodeInto_of_encodable {out : List UInt8} (h : npdu.Encodable)
    (hroom : npdu.encodedLen ≤ out.length) :
    npdu.encodeInto out = (.ok npdu.encodedLen, npdu.wire ++ out.drop npdu.encodedLen) := by
  rw [encodeInto_eq, npdu.checkFields_eq_ok.mpr h]
  rw [if_neg (Nat.not_lt.mpr hroom)]

theorem encodeInto_error {npdu : Npdu} {out : List UInt8} {refused : EncodeError}
    (h : (npdu.encodeInto out).1 = .error refused) : (npdu.encodeInto out).2 = out := by
  rw [encodeInto_eq] at h ⊢
  cases hcheck : npdu.checkFields with
  | error _ => rfl
  | ok _ =>
    rw [hcheck] at h
    split_ifs at h ⊢
    rfl

theorem encodeInto_ok_iff (npdu : Npdu) (out : List UInt8) :
    (∃ written, (npdu.encodeInto out).1 = .ok written)
      ↔ npdu.Encodable ∧ npdu.encodedLen ≤ out.length := by
  constructor
  · rintro ⟨written, h⟩
    rw [encodeInto_eq] at h
    cases hcheck : npdu.checkFields with
    | error _ => rw [hcheck] at h; cases h
    | ok _ =>
      rw [hcheck] at h
      split_ifs at h with hroom
      exact ⟨npdu.checkFields_eq_ok.mp hcheck, Nat.not_lt.mp hroom⟩
  · rintro ⟨hok, hroom⟩
    rw [encodeInto_of_encodable hok hroom]
    exact ⟨_, rfl⟩

/-- The encoder refuses an NPDU and leaves the buffer alone, or writes it to the front. -/
theorem encodeInto_cases (npdu : Npdu) (out : List UInt8) :
    (∃ refused, npdu.encodeInto out = (.error refused, out)) ∨
      npdu.Encodable ∧ npdu.encodedLen ≤ out.length ∧
        npdu.encodeInto out = (.ok npdu.encodedLen, npdu.wire ++ out.drop npdu.encodedLen) := by
  by_cases h : npdu.Encodable ∧ npdu.encodedLen ≤ out.length
  · exact .inr ⟨h.1, h.2, encodeInto_of_encodable h.1 h.2⟩
  · left
    rcases hwrite : npdu.encodeInto out with ⟨refused | len, rest⟩
    · have hsame := @encodeInto_error npdu out refused (by rw [hwrite])
      rw [hwrite] at hsame
      exact ⟨refused, by rw [← hsame]⟩
    · exact absurd ((encodeInto_ok_iff npdu out).mp ⟨len, by rw [hwrite]⟩) h

theorem encodable_iff_decodes (npdu : Npdu) :
    npdu.Encodable ↔ ∃ frame, decode frame = .ok npdu.normalised := by
  constructor
  · intro h
    exact ⟨npdu.wire, decode_wire h⟩
  · rintro ⟨frame, h⟩
    have hok := decode_encodable h
    exact ⟨hok.destination, hok.source⟩

end RustyBacnet.Npdu
