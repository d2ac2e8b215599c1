import RustyBacnet.Bip.Bvll

/-!
# The BVLL codec

Both directions go through `wire`, the octets of a message.

1. The encoder's writes fill exactly the octets it asked for (`encodeInto_eq`).
2. Whole entries come apart at every tenth octet (`asChunks_flatMap`, `asChunks_append`), so a table
   reads back in wire form whichever form it was written from.
3. `message_of_wire` and `wire_of_message` are the two directions for a payload, and the header
   adds its length to both.
-/

namespace RustyBacnet.Bip

open BigEndian TableEntry

/-! ## Tables -/

theorem asChunks_flatMap (entries : List EntryOctets) :
    asChunks (entries.flatMap EntryOctets.toList) = (entries, []) := by
  induction entries with
  | nil => rfl
  | cons entry entries ih =>
    rw [List.flatMap_cons]
    unfold EntryOctets.toList at ih ⊢
    simp only [List.cons_append, List.nil_append, asChunks, ih]

theorem asChunks_append (octets : List UInt8) :
    (asChunks octets).1.flatMap EntryOctets.toList ++ (asChunks octets).2 = octets := by
  induction octets using asChunks.induct with
  | case1 a b c d high low e f g h rest entries tail heq ih =>
    rw [heq] at ih
    simp only [asChunks, heq, List.flatMap_cons, List.append_assoc]
    rw [ih]
    rfl
  | case2 tail hshort =>
    rw [asChunks]
    · rfl
    · exact hshort

theorem asChunks_rest (octets : List UInt8) :
    (asChunks octets).2.length = octets.length % entryLength := by
  induction octets using asChunks.induct with
  | case1 a b c d high low e f g h rest entries tail heq ih =>
    rw [heq] at ih
    simp only [asChunks, heq, List.length_cons]
    rw [ih]
    unfold entryLength
    omega
  | case2 tail hshort =>
    rw [asChunks]
    · have hlt : tail.length < 10 := by
        by_contra hlong
        rcases tail with _ | ⟨a, _ | ⟨b, _ | ⟨c, _ | ⟨d, _ | ⟨e, _ | ⟨f, _ | ⟨g, _ | ⟨h, _ | ⟨i, _ |
          ⟨j, rest⟩⟩⟩⟩⟩⟩⟩⟩⟩⟩
        all_goals first
          | exact hshort a b c d e f g h i j rest rfl
          | exact hlong (by decide)
          | simp at hlong
      exact (Nat.mod_eq_of_lt hlt).symm
    · exact hshort

namespace Entries

variable {T : Type}

theorem fromWire_cases (octets : List UInt8) :
    (octets.length % entryLength = 0 ∧ ∃ table : Entries T, fromWire octets = .ok table) ∨
      (octets.length % entryLength ≠ 0 ∧
        ∃ refused, fromWire (T := T) octets = .error refused) := by
  have hrest := asChunks_rest octets
  unfold fromWire
  generalize asChunks octets = chunks at hrest ⊢
  obtain ⟨entries, _ | ⟨octet, rest⟩⟩ := chunks
  · exact .inl ⟨hrest.symm, _, rfl⟩
  · refine .inr ⟨?_, _, rfl⟩
    rw [← hrest]
    exact Nat.succ_ne_zero _

variable [TableEntry T] (table : Entries T)

theorem pieces_flatten :
    table.pieces.flatten = (table.iter.map toWire).flatMap EntryOctets.toList := by
  cases table with
  | wire entries =>
    have hmap : (entries.map TableEntry.fromWire).map (toWire (T := T)) = entries := by
      rw [List.map_map]
      exact List.map_id'' (toWire_fromWire (T := T)) entries
    unfold pieces iter
    rw [hmap, List.flatten_singleton]
  | typed entries =>
    unfold pieces iter
    rw [List.flatMap_map, List.flatMap_def]

theorem length_flatMap_toList (entries : List EntryOctets) :
    (entries.flatMap EntryOctets.toList).length = entries.length * entryLength := by
  induction entries with
  | nil => rfl
  | cons entry entries ih =>
    rw [List.flatMap_cons, List.length_append, ih, List.length_cons]
    show 10 + entries.length * 10 = (entries.length + 1) * 10
    omega

theorem fromWire_pieces :
    fromWire (T := T) table.pieces.flatten = .ok (.wire (table.iter.map toWire)) := by
  unfold fromWire
  rw [pieces_flatten, asChunks_flatMap]

theorem pieces_of_fromWire {octets : List UInt8} {table : Entries T}
    (h : fromWire octets = .ok table) : table.pieces.flatten = octets := by
  have happend := asChunks_append octets
  unfold fromWire at h
  split at h
  · rename_i entries heq
    cases h
    rw [heq, List.append_nil] at happend
    exact List.flatten_singleton.trans happend
  · cases h

theorem iter_wire : (Entries.wire (T := T) (table.iter.map toWire)).iter = table.iter := by
  unfold iter
  dsimp only
  rw [List.map_map]
  exact List.map_id'' fromWire_toWire _

theorem len_eq : table.len = table.iter.length := by
  cases table with
  | wire entries => exact (List.length_map _).symm
  | typed entries => rfl

theorem length_pieces : table.pieces.flatten.length = table.wireLength := by
  rw [pieces_flatten, length_flatMap_toList, List.length_map, ← len_eq]
  rfl

end Entries

/-! ## Messages -/

namespace Bvll

def typed : Bvll → Bvll
  | writeBroadcastDistributionTable table => writeBroadcastDistributionTable (.typed table.iter)
  | readBroadcastDistributionTableAck table =>
    readBroadcastDistributionTableAck (.typed table.iter)
  | readForeignDeviceTableAck table => readForeignDeviceTableAck (.typed table.iter)
  | message => message

/-- `==`: tables are equal when their entries are. -/
def Same (a b : Bvll) : Prop := a.typed = b.typed

instance (a b : Bvll) : Decidable (Same a b) := inferInstanceAs (Decidable (a.typed = b.typed))

def length (message : Bvll) : ℕ := headerLength + message.payloadLength

def wire (message : Bvll) : List UInt8 :=
  (bvlcTypeBip :: message.function.raw :: toBytes16 (UInt16.ofNat message.length))
    ++ message.pieces.flatten

/-- The message can be encoded: its length can be stated, and its result code is defined. -/
def Encodable (message : Bvll) : Prop :=
  message.length ≤ maxBvllLength ∧ ∀ code ∈ message.resultCode, code.isDefined = true

theorem length_pieces (message : Bvll) : message.pieces.flatten.length = message.payloadLength := by
  cases message with
  | writeBroadcastDistributionTable table => exact table.length_pieces
  | readBroadcastDistributionTableAck table => exact table.length_pieces
  | readForeignDeviceTableAck table => exact table.length_pieces
  | forwardedNpdu origin npdu =>
    show ([addressToOctets origin, npdu].flatten).length = 6 + npdu.length
    rw [List.flatten_cons, List.flatten_singleton, List.length_append]
    rfl
  | distributeBroadcastToNetwork npdu => exact congrArg List.length List.flatten_singleton
  | originalUnicastNpdu npdu => exact congrArg List.length List.flatten_singleton
  | originalBroadcastNpdu npdu => exact congrArg List.length List.flatten_singleton
  | _ => rfl

theorem length_wire (message : Bvll) : message.wire.length = message.length := by
  unfold wire length
  rw [List.length_append, length_pieces]
  rfl

/-! ## Encoding -/

/-- A length is stated, or refused as too long or for an undefined result code. -/
theorem statedLength_cases {C E : Type} {isDefined : C → Bool} {code : Option C} {length : ℕ}
    {tooLong : E} {stated : Except E ℕ}
    (hsome : ∀ c, code.filter (fun code => !isDefined code) = some c →
      ∃ refused, stated = .error refused)
    (hnone : code.filter (fun code => !isDefined code) = none →
      stated = if maxBvllLength < length then .error tooLong else .ok length) :
    ((length ≤ maxBvllLength ∧ ∀ c ∈ code, isDefined c = true) ∧ stated = .ok length) ∨
      (¬(length ≤ maxBvllLength ∧ ∀ c ∈ code, isDefined c = true) ∧
        ∃ refused, stated = .error refused) := by
  cases hcode : code.filter fun code => !isDefined code with
  | some found =>
    refine .inr ⟨fun h => ?_, hsome found hcode⟩
    obtain ⟨hmem, hundefined⟩ := Option.filter_eq_some_iff.mp hcode
    rw [h.2 found hmem] at hundefined
    cases hundefined
  | none =>
    have hdefined : ∀ c ∈ code, isDefined c = true := fun c hmem => by
      simpa using Option.filter_eq_none_iff.mp hcode c hmem
    rw [hnone hcode]
    split_ifs with hlong
    · exact .inr ⟨fun h => Nat.not_le.mpr hlong h.1, _, rfl⟩
    · exact .inl ⟨⟨Nat.not_lt.mp hlong, hdefined⟩, rfl⟩

theorem encodedLen_eq (message : Bvll) :
    (message.Encodable ∧ message.encodedLen = .ok message.length) ∨
      (¬message.Encodable ∧ ∃ refused, message.encodedLen = .error refused) := by
  unfold encodedLen
  exact statedLength_cases (fun c h => by rw [h]; exact ⟨_, rfl⟩) (fun h => by rw [h]; rfl)

end Bvll

namespace SliceSink

theorem writeAll_fits (pieces : List (List UInt8)) (sink : SliceSink)
    (h : pieces.flatten.length ≤ sink.rest.length) :
    sink.writeAll pieces
      = (.ok (), ⟨sink.written ++ pieces.flatten, sink.rest.drop pieces.flatten.length⟩) := by
  induction pieces generalizing sink with
  | nil =>
    rw [List.flatten_nil, List.append_nil]
    rfl
  | cons piece pieces ih =>
    rw [List.flatten_cons, List.length_append] at h
    unfold writeAll write
    rw [if_neg (by omega)]
    dsimp only
    rw [ih _ (by dsimp only; rw [List.length_drop]; omega)]
    rw [List.flatten_cons, List.append_assoc, List.length_append, List.drop_drop]

end SliceSink

namespace Bvll

/-- The encoder checks the message, then the room, and then writes the message's octets. -/
theorem encodeInto_spec (message : Bvll) (output : List UInt8) :
    message.encodeInto output = match message.encodedLen with
      | .error refused => (.error refused, output)
      | .ok length =>
        if output.length < length then (.error (.bufferExhausted length output.length), output)
        else (.ok length, message.wire ++ output.drop length) := by
  unfold encodeInto encodeToSink
  rcases message.encodedLen_eq with ⟨-, hlen⟩ | ⟨-, refused, hlen⟩
  · rw [hlen]
    dsimp only
    split_ifs with hroom
    · rfl
    · have hwire : (((bvlcTypeBip :: message.function.raw :: toBytes16 (UInt16.ofNat message.length))
          :: message.pieces).flatten) = message.wire := List.flatten_cons
      have hwrite := SliceSink.writeAll_fits
        ((bvlcTypeBip :: message.function.raw :: toBytes16 (UInt16.ofNat message.length))
          :: message.pieces) ⟨[], output⟩ (by
            rw [hwire, length_wire]
            exact Nat.not_lt.mp hroom)
      rw [hwrite, hwire, length_wire]
      rfl
  · rw [hlen]
    rfl

theorem encodeInto_eq (message : Bvll) (output : List UInt8) :
    (message.Encodable ∧ message.length ≤ output.length ∧
        message.encodeInto output
          = (.ok message.length, message.wire ++ output.drop message.length)) ∨
      (¬(message.Encodable ∧ message.length ≤ output.length) ∧
        ∃ refused, message.encodeInto output = (.error refused, output)) := by
  rw [encodeInto_spec]
  rcases message.encodedLen_eq with ⟨hok, hlen⟩ | ⟨hnot, refused, hlen⟩
  · rw [hlen]
    dsimp only
    split_ifs with hroom
    · exact .inr ⟨fun h => Nat.not_le.mpr hroom h.2, _, rfl⟩
    · exact .inl ⟨hok, Nat.not_lt.mp hroom, rfl⟩
  · rw [hlen]
    exact .inr ⟨fun h => hnot h.1, refused, rfl⟩

theorem typed_pieces (message : Bvll) : message.typed.pieces.flatten = message.pieces.flatten := by
  cases message with
  | writeBroadcastDistributionTable table =>
    exact (Entries.pieces_flatten (.typed table.iter)).trans table.pieces_flatten.symm
  | readBroadcastDistributionTableAck table =>
    exact (Entries.pieces_flatten (.typed table.iter)).trans table.pieces_flatten.symm
  | readForeignDeviceTableAck table =>
    exact (Entries.pieces_flatten (.typed table.iter)).trans table.pieces_flatten.symm
  | _ => rfl

theorem typed_encodeInto (message : Bvll) (output : List UInt8) :
    message.typed.encodeInto output = message.encodeInto output := by
  have hfunction : message.typed.function = message.function := by cases message <;> rfl
  have hcode : message.typed.resultCode = message.resultCode := by cases message <;> rfl
  have hlength : message.typed.payloadLength = message.payloadLength := by
    rw [← length_pieces, ← length_pieces, typed_pieces]
  rw [encodeInto_spec, encodeInto_spec]
  unfold encodedLen wire length
  rw [hcode, hlength, hfunction, typed_pieces]

theorem encodeInto_of_same {a b : Bvll} (h : a.Same b) (output : List UInt8) :
    a.encodeInto output = b.encodeInto output := by
  rw [← typed_encodeInto a, ← typed_encodeInto b, h]

/-! ## Decoding -/

theorem tablePayload_pieces {T : Type} [TableEntry T] (function : BvlcFunction)
    (table : Entries T) (message : Entries T → Bvll) :
    BvllFrame.tablePayload ⟨function, table.pieces.flatten⟩ message
      = .ok (message (.wire (table.iter.map toWire))) := by
  unfold BvllFrame.tablePayload
  rw [table.fromWire_pieces]

theorem addressFromOctets_octets (address : SocketAddr) :
    addressFromOctets (address.ip.bits >>> 24).toUInt8 (address.ip.bits >>> 16).toUInt8
      (address.ip.bits >>> 8).toUInt8 address.ip.bits.toUInt8
      (UInt8.ofNat (address.port.toNat / 256)) (UInt8.ofNat (address.port.toNat % 256))
        = address := by
  unfold addressFromOctets Ip.ofOctets
  rw [ofBytes32_octets, ofBytes16_octets]

theorem addressToOctets_fromOctets (a b c d high low : UInt8) :
    addressToOctets (addressFromOctets a b c d high low) = [a, b, c, d, high, low] := by
  unfold addressToOctets addressFromOctets Ip.ofOctets Ip.octets
  rw [toBytes32_ofBytes32, toBytes16_ofBytes16]
  rfl

/-- The payload of a message reads back as an equal one. -/
theorem message_of_wire (message : Bvll) :
    ∃ decoded, BvllFrame.message ⟨message.function, message.pieces.flatten⟩ = .ok decoded ∧
      decoded.Same message := by
  cases message with
  | bvlcResult code =>
    exact ⟨_, rfl, congrArg (fun raw => Bvll.bvlcResult ⟨raw⟩) (ofBytes16_octets code.raw)⟩
  | registerForeignDevice ttl =>
    exact ⟨_, rfl, congrArg Bvll.registerForeignDevice (ofBytes16_octets ttl)⟩
  | readBroadcastDistributionTable => exact ⟨_, rfl, rfl⟩
  | readForeignDeviceTable => exact ⟨_, rfl, rfl⟩
  | writeBroadcastDistributionTable table =>
    refine ⟨_, tablePayload_pieces .writeBroadcastDistributionTable table _, ?_⟩
    exact congrArg (fun entries => writeBroadcastDistributionTable (.typed entries))
      table.iter_wire
  | readBroadcastDistributionTableAck table =>
    refine ⟨_, tablePayload_pieces .readBroadcastDistributionTableAck table _, ?_⟩
    exact congrArg (fun entries => readBroadcastDistributionTableAck (.typed entries))
      table.iter_wire
  | readForeignDeviceTableAck table =>
    refine ⟨_, tablePayload_pieces .readForeignDeviceTableAck table _, ?_⟩
    exact congrArg (fun entries => readForeignDeviceTableAck (.typed entries)) table.iter_wire
  | deleteForeignDeviceTableEntry address =>
    exact ⟨_, rfl, congrArg deleteForeignDeviceTableEntry (addressFromOctets_octets address)⟩
  | forwardedNpdu origin npdu =>
    have hflat : (Bvll.forwardedNpdu origin npdu).pieces.flatten
        = addressToOctets origin ++ npdu := by
      show [addressToOctets origin, npdu].flatten = _
      rw [List.flatten_cons, List.flatten_singleton]
    rw [hflat]
    exact ⟨_, rfl, congrArg (fun address => forwardedNpdu address npdu)
      (addressFromOctets_octets origin)⟩
  | distributeBroadcastToNetwork npdu =>
    exact ⟨_, rfl, congrArg distributeBroadcastToNetwork List.flatten_singleton⟩
  | originalUnicastNpdu npdu =>
    exact ⟨_, rfl, congrArg originalUnicastNpdu List.flatten_singleton⟩
  | originalBroadcastNpdu npdu =>
    exact ⟨_, rfl, congrArg originalBroadcastNpdu List.flatten_singleton⟩

/-- What reading a payload can give: the message with these octets if the layout admits their
number, the error that fits otherwise. -/
inductive Reads (frame : BvllFrame) : Except BvllError Bvll → Prop
  | message {message : Bvll} {shape : PayloadShape}
      (hshape : frame.function.payloadShape = some shape)
      (hadmits : shape.admits frame.payload.length = true)
      (hfunction : message.function = frame.function)
      (hpieces : message.pieces.flatten = frame.payload) : Reads frame (.ok message)
  | payloadLength {shape : PayloadShape} (hshape : frame.function.payloadShape = some shape)
      (hadmits : shape.admits frame.payload.length = false) :
      Reads frame (.error (.payloadLength frame.function frame.payload.length))
  | unknownFunction (hshape : frame.function.payloadShape = none) :
      Reads frame (.error (.unknownFunction frame.function.raw))

variable (frame : BvllFrame)

theorem reads_tablePayload {T : Type} [TableEntry T] (message : Entries T → Bvll)
    (hshape : frame.function.payloadShape = some (.table entryLength))
    (hfunction : ∀ table, (message table).function = frame.function)
    (hpieces : ∀ table, (message table).pieces = table.pieces) :
    Reads frame (frame.tablePayload message) := by
  unfold BvllFrame.tablePayload
  rcases Entries.fromWire_cases (T := T) frame.payload with ⟨hwhole, table, hread⟩ |
    ⟨hpart, refused, hread⟩
  · rw [hread]
    refine .message hshape ?_ (hfunction table) ?_
    · exact beq_iff_eq.mpr hwhole
    · rw [hpieces]
      exact Entries.pieces_of_fromWire hread
  · rw [hread]
    exact .payloadLength hshape (beq_eq_false_iff_ne.mpr hpart)

theorem reads_pair (message : UInt16 → Bvll)
    (hshape : frame.function.payloadShape = some (.fixed 2))
    (hfunction : ∀ value, (message value).function = frame.function)
    (hpieces : ∀ value, (message value).pieces = [toBytes16 value]) :
    Reads frame (match frame.payload with
      | [high, low] => .ok (message (ofBytes16 high low))
      | _ => .error (.payloadLength frame.function frame.payload.length)) := by
  split
  · rename_i high low heq
    refine .message hshape (by rw [heq]; rfl) (hfunction _) ?_
    rw [hpieces, List.flatten_singleton, toBytes16_ofBytes16, heq]
  · rename_i hshort
    refine .payloadLength hshape (beq_eq_false_iff_ne.mpr ?_)
    intro htwo
    obtain ⟨high, low, heq⟩ := List.length_eq_two.mp htwo
    exact hshort high low heq

theorem reads_nothing (message : Bvll) (hshape : frame.function.payloadShape = some (.fixed 0))
    (hfunction : message.function = frame.function) (hpieces : message.pieces = []) :
    Reads frame (match frame.payload with
      | [] => .ok message
      | _ => .error (.payloadLength frame.function frame.payload.length)) := by
  split
  · rename_i heq
    exact .message hshape (by rw [heq]; rfl) hfunction (by rw [hpieces, heq]; rfl)
  · rename_i hsome
    refine .payloadLength hshape (beq_eq_false_iff_ne.mpr ?_)
    exact fun hzero => hsome (List.length_eq_zero_iff.mp hzero)

theorem reads_npdu (message : List UInt8 → Bvll)
    (hshape : frame.function.payloadShape = some (.npdu 0))
    (hfunction : ∀ npdu, (message npdu).function = frame.function)
    (hpieces : ∀ npdu, (message npdu).pieces = [npdu]) :
    Reads frame (.ok (message frame.payload)) := by
  have hadmits : (PayloadShape.npdu 0).admits frame.payload.length = true :=
    decide_eq_true (Nat.zero_le frame.payload.length)
  refine .message hshape hadmits (hfunction _) ?_
  rw [hpieces, List.flatten_singleton]

end Bvll

namespace BvllFrame

open Bvll

theorem reads_forwardedNpdu (payload : List UInt8) :
    Reads ⟨.forwardedNpdu, payload⟩ (BvllFrame.message ⟨.forwardedNpdu, payload⟩) := by
  rcases payload with _ | ⟨a, _ | ⟨b, _ | ⟨c, _ | ⟨d, _ | ⟨high, _ | ⟨low, npdu⟩⟩⟩⟩⟩⟩
  case cons.cons.cons.cons.cons.cons =>
    have hadmits : (PayloadShape.npdu 6).admits (npdu.length + 6) = true :=
      decide_eq_true (Nat.le_add_left 6 npdu.length)
    refine .message rfl hadmits rfl ?_
    show [addressToOctets (addressFromOctets a b c d high low), npdu].flatten = _
    rw [List.flatten_cons, List.flatten_singleton, addressToOctets_fromOctets]
    rfl
  all_goals exact .payloadLength rfl rfl

theorem reads_deleteForeignDeviceTableEntry (payload : List UInt8) :
    Reads ⟨.deleteForeignDeviceTableEntry, payload⟩
      (BvllFrame.message ⟨.deleteForeignDeviceTableEntry, payload⟩) := by
  rcases payload with
    _ | ⟨a, _ | ⟨b, _ | ⟨c, _ | ⟨d, _ | ⟨high, _ | ⟨low, _ | ⟨more, rest⟩⟩⟩⟩⟩⟩⟩
  case cons.cons.cons.cons.cons.cons.nil =>
    refine .message rfl rfl rfl ?_
    show [addressToOctets (addressFromOctets a b c d high low)].flatten = _
    rw [List.flatten_singleton, addressToOctets_fromOctets]
  case cons.cons.cons.cons.cons.cons.cons =>
    refine .payloadLength rfl (beq_eq_false_iff_ne.mpr fun hlong => ?_)
    have hsix : rest.length + 7 = 6 := hlong
    omega
  all_goals exact .payloadLength rfl rfl

/-- Every payload is read by its function's layout. -/
theorem reads (frame : BvllFrame) : Reads frame frame.message := by
  obtain ⟨function, payload⟩ := frame
  by_cases hresult : function = .bvlcResult
  · subst hresult
    exact reads_pair _ (fun raw => .bvlcResult ⟨raw⟩) rfl (fun _ => rfl) (fun _ => rfl)
  by_cases hwrite : function = .writeBroadcastDistributionTable
  · subst hwrite
    exact reads_tablePayload _ .writeBroadcastDistributionTable rfl (fun _ => rfl) (fun _ => rfl)
  by_cases hread : function = .readBroadcastDistributionTable
  · subst hread
    exact reads_nothing _ .readBroadcastDistributionTable rfl rfl rfl
  by_cases hack : function = .readBroadcastDistributionTableAck
  · subst hack
    exact reads_tablePayload _ .readBroadcastDistributionTableAck rfl (fun _ => rfl)
      (fun _ => rfl)
  by_cases hforwarded : function = .forwardedNpdu
  · subst hforwarded
    exact reads_forwardedNpdu payload
  by_cases hregister : function = .registerForeignDevice
  · subst hregister
    exact reads_pair _ .registerForeignDevice rfl (fun _ => rfl) (fun _ => rfl)
  by_cases hreadFdt : function = .readForeignDeviceTable
  · subst hreadFdt
    exact reads_nothing _ .readForeignDeviceTable rfl rfl rfl
  by_cases hfdtAck : function = .readForeignDeviceTableAck
  · subst hfdtAck
    exact reads_tablePayload _ .readForeignDeviceTableAck rfl (fun _ => rfl) (fun _ => rfl)
  by_cases hdelete : function = .deleteForeignDeviceTableEntry
  · subst hdelete
    exact reads_deleteForeignDeviceTableEntry payload
  by_cases hdistribute : function = .distributeBroadcastToNetwork
  · subst hdistribute
    exact reads_npdu _ .distributeBroadcastToNetwork rfl (fun _ => rfl) (fun _ => rfl)
  by_cases hunicast : function = .originalUnicastNpdu
  · subst hunicast
    exact reads_npdu _ .originalUnicastNpdu rfl (fun _ => rfl) (fun _ => rfl)
  by_cases hbroadcast : function = .originalBroadcastNpdu
  · subst hbroadcast
    exact reads_npdu _ .originalBroadcastNpdu rfl (fun _ => rfl) (fun _ => rfl)
  -- None of the twelve.
  have hunknown : function.isDefined = false := by
    simp [BvlcFunction.isDefined, BvlcFunction.allNamed, *]
  have hshape : function.payloadShape = none := by
    simp [BvlcFunction.payloadShape, *]
  have hmessage : BvllFrame.message ⟨function, payload⟩ = .error (.unknownFunction function.raw) := by
    simp [BvllFrame.message, *]
  rw [hmessage]
  exact .unknownFunction hshape

end BvllFrame

/-! ## The header -/

/-- The Length field of a datagram of at least four octets. -/
def declaredLength (datagram : List UInt8) : ℕ :=
  (ofBytes16 (datagram.getD 2 0) (datagram.getD 3 0)).toNat

/-- The header of a datagram checks out. -/
structure HeaderFits (datagram : List UInt8) : Prop where
  long : headerLength ≤ datagram.length
  bip : datagram.getD 0 0 = bvlcTypeBip
  whole : declaredLength datagram = datagram.length

/-- When each error is the one that applies. They are checked in this order, so each one says that
those before it do not apply; the errors behind are not decode errors. -/
def DecodeFails (datagram : List UInt8) : BvllError → Prop
  | .tooShort length => datagram.length < headerLength ∧ length = datagram.length
  | .notBip bvlcType =>
    headerLength ≤ datagram.length ∧ bvlcType = datagram.getD 0 0 ∧ bvlcType ≠ bvlcTypeBip
  | .lengthMismatch declared received =>
    headerLength ≤ datagram.length ∧ datagram.getD 0 0 = bvlcTypeBip ∧
      declared = declaredLength datagram ∧ received = datagram.length ∧ declared ≠ received
  | .unknownFunction function =>
    HeaderFits datagram ∧ function = datagram.getD 1 0 ∧
      BvlcFunction.payloadShape ⟨function⟩ = none
  | .payloadLength function length =>
    HeaderFits datagram ∧ function.raw = datagram.getD 1 0 ∧
      length = (datagram.drop headerLength).length ∧
      ∃ shape, function.payloadShape = some shape ∧ shape.admits length = false
  | _ => False

/-- What decoding a datagram can give. -/
inductive Decodes (datagram : List UInt8) : Except BvllError Bvll → Prop
  | message {message : Bvll} {shape : PayloadShape} (hfits : HeaderFits datagram)
      (hshape : BvlcFunction.payloadShape ⟨datagram.getD 1 0⟩ = some shape)
      (hadmits : shape.admits (datagram.drop headerLength).length = true)
      (hwire : message.wire = datagram) : Decodes datagram (.ok message)
  | error {refused : BvllError} (h : DecodeFails datagram refused) :
      Decodes datagram (.error refused)

variable {message : Bvll}

namespace Bvll

theorem wire_of_header {function high low : UInt8} {payload : List UInt8}
    (hwhole : (ofBytes16 high low).toNat = payload.length + 4)
    (hfunction : message.function = ⟨function⟩) (hpieces : message.pieces.flatten = payload) :
    message.wire = bvlcTypeBip :: function :: high :: low :: payload := by
  have hlength : message.length = payload.length + 4 := by
    rw [← hpieces, length_pieces]
    exact Nat.add_comm _ _
  have hfield : UInt16.ofNat message.length = ofBytes16 high low := by
    rw [hlength, ← hwhole, UInt16.ofNat_toNat]
  unfold wire
  rw [hfield, toBytes16_ofBytes16, hfunction, hpieces]
  rfl

theorem decodes (datagram : List UInt8) : Decodes datagram (decode datagram) := by
  unfold decode BvllFrame.decode
  split
  · rename_i frame heq
    split at heq
    · rename_i bvlcType function high low payload
      dsimp only at heq
      split_ifs at heq with hbip hwhole
      cases heq
      rw [not_not] at hbip hwhole
      subst hbip
      have hfits : HeaderFits (bvlcTypeBip :: function :: high :: low :: payload) :=
        ⟨Nat.le_add_left 4 payload.length, rfl, hwhole⟩
      have hreads := BvllFrame.reads ⟨⟨function⟩, payload⟩
      generalize BvllFrame.message ⟨⟨function⟩, payload⟩ = result at hreads ⊢
      cases hreads with
      | message hshape hadmits hfunction hpieces =>
        exact .message hfits hshape hadmits (wire_of_header hwhole hfunction hpieces)
      | payloadLength hshape hadmits => exact .error ⟨hfits, rfl, rfl, _, hshape, hadmits⟩
      | unknownFunction hshape => exact .error ⟨hfits, rfl, hshape⟩
    · cases heq
  · rename_i refused heq
    split at heq
    · rename_i bvlcType function high low payload
      dsimp only at heq
      split_ifs at heq with hbip hwhole
      · cases heq
        exact .error ⟨Nat.le_add_left 4 payload.length, rfl, hbip⟩
      · cases heq
        rw [not_not] at hbip
        exact .error ⟨Nat.le_add_left 4 payload.length, hbip, rfl, rfl, hwhole⟩
    · rename_i hshort
      cases heq
      refine .error ⟨?_, rfl⟩
      rcases datagram with _ | ⟨a, _ | ⟨b, _ | ⟨c, _ | ⟨d, rest⟩⟩⟩⟩
      all_goals first
        | exact absurd rfl (hshort a b c d rest)
        | exact Nat.lt_of_sub_pos (Nat.succ_pos _)

/-- The header of a message's octets checks out, so they decode to an equal message. -/
theorem decode_wire (h : message.length ≤ maxBvllLength) :
    ∃ decoded, decode message.wire = .ok decoded ∧ decoded.Same message := by
  obtain ⟨decoded, hmessage, hsame⟩ := message_of_wire message
  have hfield : (UInt16.ofNat message.length).toNat = message.length := by
    rw [UInt16.toNat_ofNat']
    exact Nat.mod_eq_of_lt (Nat.lt_succ_of_le h)
  have hlength : message.wire.length = message.length := message.length_wire
  have hframe : BvllFrame.decode message.wire = .ok ⟨message.function, message.pieces.flatten⟩ := by
    unfold wire toBytes16 at hlength ⊢
    unfold BvllFrame.decode
    dsimp only [List.cons_append, List.nil_append] at hlength ⊢
    rw [if_neg (not_not.mpr rfl), ofBytes16_octets,
      if_neg (not_not.mpr (hfield.trans hlength.symm))]
  refine ⟨decoded, ?_, hsame⟩
  unfold decode
  rw [hframe]
  exact hmessage

end Bvll

variable {datagram : List UInt8}

theorem HeaderFits.length_le (h : HeaderFits datagram) : datagram.length ≤ maxBvllLength := by
  rw [← h.whole]
  exact Nat.le_of_lt_succ (UInt16.toNat_lt _)

theorem DecodeFails.payload {refused : BvllError} (h : DecodeFails datagram refused)
    (hfits : HeaderFits datagram) :
    refused = .unknownFunction (datagram.getD 1 0) ∧
        BvlcFunction.payloadShape ⟨datagram.getD 1 0⟩ = none ∨
      refused = .payloadLength ⟨datagram.getD 1 0⟩ (datagram.drop headerLength).length ∧
        ∃ shape, BvlcFunction.payloadShape ⟨datagram.getD 1 0⟩ = some shape ∧
          shape.admits (datagram.drop headerLength).length = false := by
  cases refused with
  | tooShort length => exact absurd hfits.long (Nat.not_le.mpr h.1)
  | notBip bvlcType => exact absurd (h.2.1.trans hfits.bip) h.2.2
  | lengthMismatch declared received =>
    exact absurd (h.2.2.1.trans (hfits.whole.trans h.2.2.2.1.symm)) h.2.2.2.2
  | unknownFunction function =>
    obtain ⟨-, rfl, hshape⟩ := h
    exact .inl ⟨rfl, hshape⟩
  | payloadLength function length =>
    obtain ⟨function⟩ := function
    obtain ⟨-, hfunction, rfl, hshape⟩ := h
    obtain rfl : function = datagram.getD 1 0 := hfunction
    exact .inr ⟨rfl, hshape⟩
  | _ => exact h.elim

theorem DecodeFails.unique {first second : BvllError} (hfirst : DecodeFails datagram first)
    (hsecond : DecodeFails datagram second) : first = second := by
  by_cases hfits : HeaderFits datagram
  · rcases hfirst.payload hfits with ⟨rfl, hnone⟩ | ⟨rfl, shape, hsome, -⟩ <;>
      rcases hsecond.payload hfits with ⟨rfl, hnone'⟩ | ⟨rfl, shape', hsome', -⟩
    · rfl
    · rw [hnone] at hsome'
      cases hsome'
    · rw [hnone'] at hsome
      cases hsome
    · rfl
  · have hheader : ∀ refused, DecodeFails datagram refused →
        refused = if datagram.length < headerLength then .tooShort datagram.length
          else if datagram.getD 0 0 ≠ bvlcTypeBip then .notBip (datagram.getD 0 0)
          else .lengthMismatch (declaredLength datagram) datagram.length := by
      intro refused h
      cases refused with
      | tooShort length =>
        obtain ⟨hshort, rfl⟩ := h
        rw [if_pos hshort]
      | notBip bvlcType =>
        obtain ⟨hlong, rfl, hbip⟩ := h
        rw [if_neg (Nat.not_lt.mpr hlong), if_pos hbip]
      | lengthMismatch declared received =>
        obtain ⟨hlong, hbip, rfl, rfl, -⟩ := h
        rw [if_neg (Nat.not_lt.mpr hlong), if_neg (not_not.mpr hbip)]
      | unknownFunction function => exact absurd h.1 hfits
      | payloadLength function length => exact absurd h.1 hfits
      | _ => exact h.elim
    rw [hheader first hfirst, hheader second hsecond]

namespace Bvll

theorem decode_error_iff (datagram : List UInt8) (refused : BvllError) :
    decode datagram = .error refused ↔ DecodeFails datagram refused := by
  have hdecodes := decodes datagram
  generalize decode datagram = result at hdecodes ⊢
  cases hdecodes with
  | message hfits hshape hadmits hwire =>
    refine ⟨(nomatch ·), fun h => ?_⟩
    rcases h.payload hfits with ⟨-, hnone⟩ | ⟨-, shape, hsome, hnot⟩
    · rw [hshape] at hnone
      cases hnone
    · rw [hshape] at hsome
      cases hsome
      rw [hadmits] at hnot
      cases hnot
  | error h =>
    constructor
    · rintro ⟨⟩
      exact h
    · exact fun hother => congrArg Except.error (h.unique hother)

theorem wire_of_decode (h : decode datagram = .ok message) :
    message.wire = datagram ∧ datagram.length ≤ maxBvllLength := by
  have hdecodes := decodes datagram
  rw [h] at hdecodes
  cases hdecodes with
  | message hfits hshape hadmits hwire => exact ⟨hwire, hfits.length_le⟩

/-- The two directions of the codec, its refusals, and the two forms of a table. A message is
written iff it is encodable and there is room, and decodes to an equal one; a refusal writes
nothing; a datagram that decodes is what its message encodes to; a datagram is refused with the one
error that applies; equal messages encode alike. -/
theorem bvll_codec :
    (∀ (message : Bvll) (output : List UInt8),
      ((∃ written, (message.encodeInto output).1 = .ok written) ↔
        message.length ≤ maxBvllLength ∧
          (∀ code, message = .bvlcResult code → code.isDefined = true) ∧
          message.length ≤ output.length) ∧
      (∀ refused, (message.encodeInto output).1 = .error refused →
        (message.encodeInto output).2 = output) ∧
      (∀ written, (message.encodeInto output).1 = .ok written →
        (message.encodeInto output).2.drop written = output.drop written ∧
        ∃ decoded, decode ((message.encodeInto output).2.take written) = .ok decoded ∧
          decoded.Same message)) ∧
    (∀ (datagram : List UInt8) (message : Bvll), decode datagram = .ok message →
      (∀ code, message = .bvlcResult code → code.isDefined = true) →
      ∀ output : List UInt8, datagram.length ≤ output.length →
        message.encodeInto output
          = (.ok datagram.length, datagram ++ output.drop datagram.length)) ∧
    (∀ (datagram : List UInt8) (refused : BvllError),
      (decode datagram = .error refused ↔ DecodeFails datagram refused) ∧
      (DecodeFails datagram refused → ∀ other, DecodeFails datagram other → other = refused)) ∧
    (∀ a b : Bvll, a.Same b → ∀ output, a.encodeInto output = b.encodeInto output) := by
  have hcode : ∀ message : Bvll, (∀ code ∈ message.resultCode, code.isDefined = true) ↔
      ∀ code, message = .bvlcResult code → code.isDefined = true := by
    intro message
    cases message with
    | bvlcResult code =>
      constructor
      · rintro h _ ⟨⟩
        exact h code rfl
      · rintro h _ ⟨⟩
        exact h code rfl
    | _ => exact ⟨fun _ _ => (nomatch ·), fun _ _ => (nomatch ·)⟩
  refine ⟨?_, ?_, ?_, fun a b h output => encodeInto_of_same h output⟩
  · intro message output
    rcases message.encodeInto_eq output with ⟨hok, hroom, heq⟩ | ⟨hnot, refused, heq⟩
    · rw [heq]
      refine ⟨⟨fun _ => ⟨hok.1, (hcode message).mp hok.2, hroom⟩, fun _ => ⟨_, rfl⟩⟩, ?_, ?_⟩
      · rintro refused ⟨⟩
      · rintro written ⟨⟩
        dsimp only
        rw [List.drop_left' message.length_wire, List.take_left' message.length_wire]
        exact ⟨rfl, decode_wire hok.1⟩
    · rw [heq]
      refine ⟨⟨?_, fun h => ?_⟩, fun _ _ => rfl, ?_⟩
      · rintro ⟨written, ⟨⟩⟩
      · exact absurd ⟨⟨h.1, (hcode message).mpr h.2.1⟩, h.2.2⟩ hnot
      · rintro written ⟨⟩
  · intro datagram message hdecode hdefined output hroom
    obtain ⟨rfl, hlong⟩ := wire_of_decode hdecode
    rw [length_wire] at hlong hroom ⊢
    rcases message.encodeInto_eq output with ⟨-, -, heq⟩ | ⟨hnot, -⟩
    · exact heq
    · exact absurd ⟨⟨hlong, (hcode message).mpr hdefined⟩, hroom⟩ hnot
  · intro datagram refused
    exact ⟨decode_error_iff datagram refused, fun h other hother => hother.unique h⟩

/-- A Read-Foreign-Device-Table-Ack of one entry, through both directions. -/
theorem bvll_codec_ack :
    decode [0x81, 7, 0, 14, 10, 0, 0, 1, 0xBA, 0xC0, 0, 60, 0, 90]
        = .ok (.readForeignDeviceTableAck (.wire [⟨10, 0, 0, 1, 0xBA, 0xC0, 0, 60, 0, 90⟩])) ∧
      (readForeignDeviceTableAck (.wire [⟨10, 0, 0, 1, 0xBA, 0xC0, 0, 60, 0, 90⟩])).encodeInto
          (List.replicate 15 7)
        = (.ok 14, [0x81, 7, 0, 14, 10, 0, 0, 1, 0xBA, 0xC0, 0, 60, 0, 90, 7]) ∧
      (readForeignDeviceTableAck (.typed [⟨⟨⟨0x0A000001⟩, 0xBAC0⟩, 60, 90⟩])).encodeInto
          (List.replicate 15 7)
        = (readForeignDeviceTableAck (.wire [⟨10, 0, 0, 1, 0xBA, 0xC0, 0, 60, 0, 90⟩])).encodeInto
          (List.replicate 15 7) := by
  refine ⟨by decide, ?_, bvll_codec.2.2.2 _ _ (by decide) _⟩
  exact bvll_codec.2.1 [0x81, 7, 0, 14, 10, 0, 0, 1, 0xBA, 0xC0, 0, 60, 0, 90]
    (readForeignDeviceTableAck (.wire [⟨10, 0, 0, 1, 0xBA, 0xC0, 0, 60, 0, 90⟩])) (by decide)
    (fun _ => (nomatch ·)) (List.replicate 15 7) (by decide)

end Bvll

end RustyBacnet.Bip
