import RustyBacnet.Lib.Fields
import RustyBacnet.Sc.Frame

/-!
# The BACnet/SC frame codec

The octets of a frame tell more than the decoded message keeps: an option may have a Header Data
field that is empty. A `Layout` is a message with that difference kept.

1. One option, a chain of them and a whole frame are read exactly when their layout stands there
   (`decodeScOption_of_at`, `at_of_decodeScOption` and so on up to `octets_of_decodeScMessage`).
2. The encoder writes the layout that has no empty field (`encodeScMessage_eq`).
3. The second reader goes through the same chain, and stops at its first mandatory option
   (`firstMustUnderstandFrom_eq`).
-/

namespace RustyBacnet.Sc

open BigEndian Slices Fields

/-! ## Octets -/

@[simp] theorem ScFunction.toRaw_fromRaw (raw : UInt8) : (ScFunction.fromRaw raw).toRaw = raw := by
  unfold ScFunction.fromRaw
  split <;> rfl

theorem ScControl.fromByte_toByte (control : ScControl) :
    hasValidReservedBits control.toByte = true ∧ fromByte control.toByte = control := by
  obtain ⟨originating, destination, dest, data⟩ := control
  cases originating <;> cases destination <;> cases dest <;> cases data <;> decide

theorem ScControl.toByte_fromByte {byte : UInt8} (h : hasValidReservedBits byte = true) :
    (fromByte byte).toByte = byte := by
  revert h
  induction byte using octet_cases with
  | octet n =>
    revert n
    decide +kernel

/-- An option as it stands in a frame: with its Header Data field, if it has one. -/
structure RawOption where
  optionType : UInt8
  mustUnderstand : Bool
  field : Option (List UInt8)
  deriving DecidableEq

namespace RawOption

def marker (raw : RawOption) (moreFollows : Bool) : UInt8 :=
  raw.optionType &&& 0x1F ||| (if moreFollows then 0x80 else 0)
    ||| (if raw.mustUnderstand then 0x40 else 0) ||| (if raw.field.isSome then 0x20 else 0)

def octets (raw : RawOption) (moreFollows : Bool) : List UInt8 :=
  raw.marker moreFollows ::
    raw.field.elim [] fun data => toBytes16 (UInt16.ofNat data.length) ++ data

/-- The type can be a header option's, and the field's length can be stated. -/
def Valid (raw : RawOption) : Prop :=
  isValidScOptionType raw.optionType = true ∧ ∀ data ∈ raw.field, data.length ≤ 65535

def option (raw : RawOption) : ScOption :=
  ⟨raw.optionType, raw.mustUnderstand, raw.field.getD []⟩

def dropEmpty (raw : RawOption) : RawOption :=
  { raw with field := raw.field.filter (!·.isEmpty) }

/-- The options one behind the other; all but the last say that more follow. -/
def chain : List RawOption → List UInt8
  | [] => []
  | raw :: rest => raw.octets (!rest.isEmpty) ++ chain rest

def firstMarker : List RawOption → Option UInt8
  | [] => none
  | raw :: rest => if raw.mustUnderstand then some (raw.marker (!rest.isEmpty)) else firstMarker rest

end RawOption

theorem marker_bits {optionType : UInt8} (h : isValidScOptionType optionType = true)
    (more must has : Bool) :
    let marker := optionType &&& 0x1F ||| (if more then 0x80 else 0)
      ||| (if must then 0x40 else 0) ||| (if has then 0x20 else 0)
    marker &&& 0x1F = optionType ∧ (marker &&& 0x40 != 0) = must ∧ (marker &&& 0x20 != 0) = has
      ∧ (marker &&& 0x80 != 0) = more := by
  revert h more must has
  induction optionType using octet_cases with
  | octet n =>
    revert n
    decide +kernel

theorem marker_of_bits (marker : UInt8) :
    (marker &&& 0x1F) &&& 0x1F ||| (if marker &&& 0x80 != 0 then 0x80 else 0)
      ||| (if marker &&& 0x40 != 0 then 0x40 else 0) ||| (if marker &&& 0x20 != 0 then 0x20 else 0)
      = marker := by
  induction marker using octet_cases with
  | octet n =>
    revert n
    decide +kernel

/-! ## One option -/

variable {data : List UInt8}

theorem toNat_length_field (h : data.length ≤ 65535) :
    (UInt16.ofNat data.length).toNat = data.length := by
  rw [UInt16.toNat_ofNat']
  exact Nat.mod_eq_of_lt (Nat.lt_succ_of_le h)

variable {offset : ℕ}

theorem at_field {field : List UInt8} (hlong : field.length ≤ 65535)
    (h : At data offset (toBytes16 (UInt16.ofNat field.length) ++ field)) :
    ∃ high low, data[offset]? = some high ∧ data[offset + 1]? = some low ∧
      (ofBytes16 high low).toNat = field.length ∧ At data (offset + 2) field := by
  obtain ⟨hlength, hfield⟩ := at_append.mp h
  obtain ⟨hhigh, hlow⟩ := at_cons.mp hlength
  refine ⟨_, _, at_singleton.mp hhigh, at_singleton.mp hlow, ?_, hfield⟩
  rw [ofBytes16_octets, toNat_length_field hlong]

namespace RawOption

theorem length_octets (raw : RawOption) (more : Bool) :
    (raw.octets more).length = 1 + raw.field.elim 0 (fun data => 2 + data.length) := by
  unfold octets
  rw [List.length_cons, Nat.add_comm]
  cases raw.field with
  | none => rfl
  | some data => exact congrArg (1 + ·) List.length_append

end RawOption

variable {raw : RawOption} {more : Bool}

theorem decodeScOption_of_at (hvalid : raw.Valid) (h : At data offset (raw.octets more)) :
    decodeScOption data offset = .ok (raw.option, more, offset + (raw.octets more).length) := by
  obtain ⟨optionType, must, field⟩ := raw
  obtain ⟨hmarker, hfield⟩ := at_cons.mp h
  obtain ⟨htype, hmust, hhas, hmore⟩ := marker_bits hvalid.1 more must field.isSome
  unfold decodeScOption
  rw [at_singleton.mp hmarker]
  unfold RawOption.marker
  dsimp only at htype hmust hhas hmore ⊢
  rw [htype, hmust, hhas, hmore, if_neg (by rw [hvalid.1]; exact Bool.false_ne_true)]
  cases field with
  | none => rfl
  | some field =>
    have hlong : field.length ≤ 65535 := hvalid.2 field rfl
    obtain ⟨high, low, hhigh, hlow, hlength, hdata⟩ := at_field hlong hfield
    have hbound := hdata.bound
    rw [Option.isSome_some, if_pos rfl, hhigh, hlow]
    dsimp only
    rw [hlength, if_neg (by omega), hdata.slice_eq, RawOption.length_octets]
    show _ = Except.ok (_, more, offset + (1 + (2 + field.length)))
    rw [show offset + (1 + (2 + field.length)) = offset + 3 + field.length by omega]
    rfl

variable {behind : ℕ}

theorem at_of_decodeScOption {option : ScOption}
    (h : decodeScOption data offset = .ok (option, more, behind)) :
    ∃ raw : RawOption, raw.Valid ∧ raw.option = option ∧ At data offset (raw.octets more) ∧
      behind = offset + (raw.octets more).length := by
  unfold decodeScOption at h
  split at h
  · cases h
  · rename_i marker hmarker
    have hbits := marker_of_bits marker
    dsimp only at h
    split_ifs at h with htype hhas
    · rw [Bool.not_eq_true', Bool.not_eq_false] at htype
      split at h
      · rename_i high low hhigh hlow
        split_ifs at h with hlong
        cases h
        have hroom : offset + 3 + (ofBytes16 high low).toNat ≤ data.length := Nat.not_lt.mp hlong
        have hlength := length_slice hroom
        have hfield : UInt16.ofNat (slice data (offset + 3) (ofBytes16 high low).toNat).length
            = ofBytes16 high low := by
          rw [hlength, UInt16.ofNat_toNat]
        let raw : RawOption := ⟨marker &&& 0x1F, marker &&& 0x40 != 0,
          some (slice data (offset + 3) (ofBytes16 high low).toNat)⟩
        have hraw : raw.marker (marker &&& 0x80 != 0) = marker := by
          rw [if_pos hhas] at hbits
          exact hbits
        refine ⟨raw, ⟨htype, ?_⟩, rfl, ?_, ?_⟩
        · rintro _ ⟨⟩
          rw [hlength]
          exact Nat.le_of_lt_succ (UInt16.toNat_lt _)
        · refine at_cons.mpr ⟨at_singleton.mpr (hmarker.trans (congrArg some hraw.symm)), ?_⟩
          refine at_append.mpr ⟨?_, at_slice hroom⟩
          rw [hfield, toBytes16_ofBytes16]
          exact at_cons.mpr ⟨at_singleton.mpr hhigh, at_singleton.mpr hlow⟩
        · rw [raw.length_octets]
          show _ = offset + (1 + (2 + (slice data (offset + 3) _).length))
          rw [hlength]
          omega
      · cases h
    · rw [Bool.not_eq_true', Bool.not_eq_false] at htype
      cases h
      let raw : RawOption := ⟨marker &&& 0x1F, marker &&& 0x40 != 0, none⟩
      have hraw : raw.marker (marker &&& 0x80 != 0) = marker := by
        rw [if_neg hhas] at hbits
        exact hbits
      refine ⟨raw, ⟨htype, by rintro _ ⟨⟩⟩, rfl, ?_, rfl⟩
      exact at_singleton.mpr (hmarker.trans (congrArg some hraw.symm))

/-! ## A chain of options -/

variable {raws : List RawOption}

theorem decodeScOptionsFrom_of_at :
    ∀ {room offset : ℕ}, raws ≠ [] → raws.length ≤ room → (∀ raw ∈ raws, raw.Valid) →
      At data offset (RawOption.chain raws) →
      decodeScOptionsFrom data room offset
        = .ok (raws.map RawOption.option, offset + (RawOption.chain raws).length) := by
  induction raws with
  | nil => exact fun hne => absurd rfl hne
  | cons raw rest ih =>
    intro room offset _ hroom hvalid h
    obtain ⟨hraw, hrest⟩ := at_append.mp h
    obtain ⟨room, rfl⟩ : ∃ r, room = r + 1 := ⟨room - 1, by rw [List.length_cons] at hroom; omega⟩
    unfold decodeScOptionsFrom
    rw [decodeScOption_of_at (hvalid raw List.mem_cons_self) hraw]
    dsimp only
    cases rest with
    | nil =>
      rw [if_neg (by decide)]
      show _ = Except.ok (_, offset + (_ ++ RawOption.chain []).length)
      rw [show RawOption.chain [] = [] from rfl, List.append_nil]
      rfl
    | cons next rest =>
      rw [if_pos (by rfl), ih (List.cons_ne_nil _ _) (Nat.le_of_succ_le_succ hroom)
        (fun raw hmem => hvalid raw (List.mem_cons_of_mem _ hmem)) hrest]
      rw [Nat.add_assoc, ← List.length_append]
      rfl

theorem at_of_decodeScOptionsFrom :
    ∀ {room offset behind : ℕ} {options : List ScOption},
      decodeScOptionsFrom data room offset = .ok (options, behind) →
      ∃ raws : List RawOption, raws ≠ [] ∧ raws.length ≤ room ∧ (∀ raw ∈ raws, raw.Valid) ∧
        raws.map RawOption.option = options ∧ At data offset (RawOption.chain raws) ∧
        behind = offset + (RawOption.chain raws).length := by
  intro room
  induction room with
  | zero =>
    intro offset behind options h
    unfold decodeScOptionsFrom at h
    split at h <;> cases h
  | succ room ih =>
    intro offset behind options h
    unfold decodeScOptionsFrom at h
    split at h
    · cases h
    · rename_i option more next hone
      obtain ⟨raw, hvalid, hoption, hat, hnext⟩ := at_of_decodeScOption hone
      dsimp only at h
      split_ifs at h with hmore
      · split at h
        · cases h
        · rename_i rest behind hrest
          cases h
          obtain ⟨raws, hne, hlen, hvalids, hoptions, hats, hbehind⟩ := ih hrest
          have hmore' : (!raws.isEmpty) = more := by
            rw [hmore]
            cases raws with
            | nil => exact absurd rfl hne
            | cons _ _ => rfl
          have hchain : RawOption.chain (raw :: raws) = raw.octets more ++ RawOption.chain raws := by
            rw [← hmore']
            rfl
          refine ⟨raw :: raws, List.cons_ne_nil _ _, Nat.succ_le_succ hlen, ?_, ?_, ?_, ?_⟩
          · exact List.forall_mem_cons.mpr ⟨hvalid, hvalids⟩
          · rw [List.map_cons, hoption, hoptions]
          · rw [hchain]
            exact at_append.mpr ⟨hat, hnext ▸ hats⟩
          · rw [hchain, List.length_append, hbehind, hnext, Nat.add_assoc]
      · cases h
        have hlast : more = false := (Bool.not_eq_true more).mp hmore
        have hchain : RawOption.chain [raw] = raw.octets more := by
          rw [hlast]
          exact List.append_nil _
        refine ⟨[raw], List.cons_ne_nil _ _, Nat.succ_le_succ (Nat.zero_le _), ?_, ?_, ?_, ?_⟩
        · exact List.forall_mem_singleton.mpr hvalid
        · rw [List.map_singleton, hoption]
        · rw [hchain]
          exact hat
        · rw [hchain, hnext]

/-! ## Frames -/

/-- A frame with everything its octets tell. -/
structure Layout where
  function : UInt8
  messageId : UInt16
  originatingVmac : Option Vmac
  destinationVmac : Option Vmac
  destOptions : List RawOption
  dataOptions : List RawOption
  payload : List UInt8
  deriving DecidableEq

namespace Layout

def control (layout : Layout) : ScControl where
  hasOriginatingVmac := layout.originatingVmac.isSome
  hasDestinationVmac := layout.destinationVmac.isSome
  hasDestOptions := !layout.destOptions.isEmpty
  hasDataOptions := !layout.dataOptions.isEmpty

def octets (layout : Layout) : List UInt8 :=
  (layout.function :: layout.control.toByte :: toBytes16 layout.messageId)
    ++ (layout.originatingVmac.elim [] Vector.toList
    ++ (layout.destinationVmac.elim [] Vector.toList
    ++ (RawOption.chain layout.destOptions ++ (RawOption.chain layout.dataOptions
    ++ layout.payload))))

/-- Every option is valid, and there are not too many. -/
structure Valid (layout : Layout) : Prop where
  dest : ∀ raw ∈ layout.destOptions, raw.Valid
  data : ∀ raw ∈ layout.dataOptions, raw.Valid
  destLength : layout.destOptions.length ≤ maxScOptions
  dataLength : layout.dataOptions.length ≤ maxScOptions

def message (layout : Layout) : ScMessage where
  function := .fromRaw layout.function
  messageId := layout.messageId
  originatingVmac := layout.originatingVmac
  destinationVmac := layout.destinationVmac
  destOptions := layout.destOptions.map RawOption.option
  dataOptions := layout.dataOptions.map RawOption.option
  payload := layout.payload

/-- The frame whose options have no empty Header Data field. -/
def dropEmpty (layout : Layout) : Layout :=
  { layout with
    destOptions := layout.destOptions.map RawOption.dropEmpty
    dataOptions := layout.dataOptions.map RawOption.dropEmpty }

end Layout

variable {vmac : Option Vmac}

theorem decodeVmac_of_at (truncated : String) (h : At data offset (vmac.elim [] Vector.toList)) :
    decodeVmac data vmac.isSome truncated offset
      = .ok (vmac, offset + (vmac.elim [] Vector.toList).length) := by
  unfold decodeVmac
  cases vmac with
  | none => rfl
  | some vmac =>
    have hlength : vmac.toList.length = 6 := vmac.length_toList
    have hslice := h.slice_eq
    have hbound := h.bound
    dsimp only [Option.elim_some] at hslice hbound ⊢
    rw [hlength] at hslice hbound ⊢
    rw [if_pos (by rfl), dif_pos hbound]
    have hvmac : (⟨(slice data offset 6).toArray, length_slice hbound⟩ : Vmac) = vmac := by
      apply Vector.toList_inj.mp
      exact hslice
    rw [hvmac]

variable {present : Bool}

theorem at_of_decodeVmac {truncated : String} (hoffset : offset ≤ data.length)
    (h : decodeVmac data present truncated offset = .ok (vmac, behind)) :
    vmac.isSome = present ∧ At data offset (vmac.elim [] Vector.toList) ∧
      behind = offset + (vmac.elim [] Vector.toList).length := by
  unfold decodeVmac at h
  split_ifs at h with hpresent hroom
  · cases h
    exact ⟨hpresent.symm, at_slice hroom, congrArg (offset + ·) (length_slice hroom).symm⟩
  · cases h
    exact ⟨((Bool.not_eq_true present).mp hpresent).symm, at_nil hoffset, rfl⟩

theorem decodeScOptions_of_at (hlength : raws.length ≤ maxScOptions)
    (hvalid : ∀ raw ∈ raws, raw.Valid) (h : At data offset (RawOption.chain raws)) :
    decodeScOptions data (!raws.isEmpty) offset
      = .ok (raws.map RawOption.option, offset + (RawOption.chain raws).length) := by
  unfold decodeScOptions
  cases raws with
  | nil => rfl
  | cons raw rest =>
    rw [if_pos (by rfl)]
    exact decodeScOptionsFrom_of_at (List.cons_ne_nil _ _) hlength hvalid h

variable {options : List ScOption}

theorem at_of_decodeScOptions (hoffset : offset ≤ data.length)
    (h : decodeScOptions data present offset = .ok (options, behind)) :
    ∃ raws : List RawOption, (!raws.isEmpty) = present ∧ raws.length ≤ maxScOptions ∧
      (∀ raw ∈ raws, raw.Valid) ∧ raws.map RawOption.option = options ∧
      At data offset (RawOption.chain raws) ∧ behind = offset + (RawOption.chain raws).length := by
  unfold decodeScOptions at h
  split_ifs at h with hpresent
  · obtain ⟨raws, hne, hlength, hvalid, hoptions, hat, hbehind⟩ := at_of_decodeScOptionsFrom h
    refine ⟨raws, ?_, hlength, hvalid, hoptions, hat, hbehind⟩
    rw [hpresent]
    cases raws with
    | nil => exact absurd rfl hne
    | cons _ _ => rfl
  · cases h
    refine ⟨[], ((Bool.not_eq_true present).mp hpresent).symm, Nat.zero_le _, ?_, rfl,
      at_nil hoffset, rfl⟩
    exact fun raw hmem => absurd hmem List.not_mem_nil

/-- The parts of a frame behind its four octets of header. -/
structure Layout.Stands (data : List UInt8) (layout : Layout) (a b c d : ℕ) : Prop where
  originating : At data 4 (layout.originatingVmac.elim [] Vector.toList)
  behindOriginating : a = 4 + (layout.originatingVmac.elim [] Vector.toList).length
  destination : At data a (layout.destinationVmac.elim [] Vector.toList)
  behindDestination : b = a + (layout.destinationVmac.elim [] Vector.toList).length
  dest : At data b (RawOption.chain layout.destOptions)
  behindDest : c = b + (RawOption.chain layout.destOptions).length
  opts : At data c (RawOption.chain layout.dataOptions)
  behindOpts : d = c + (RawOption.chain layout.dataOptions).length
  payload : data.drop d = layout.payload
  bound : d ≤ data.length

theorem Layout.stands (layout : Layout) : ∃ a b c d, layout.Stands layout.octets a b c d := by
  have hall := at_zero layout.octets
  obtain ⟨-, hall⟩ := at_append.mp hall
  obtain ⟨horiginating, hall⟩ := at_append.mp hall
  obtain ⟨hdestination, hall⟩ := at_append.mp hall
  obtain ⟨hdest, hall⟩ := at_append.mp hall
  obtain ⟨hdata, hpayload⟩ := at_append.mp hall
  refine ⟨_, _, _, _, horiginating, rfl, hdestination, rfl, hdest, rfl, hdata, rfl, ?_, ?_⟩
  · have hend : ∀ {offset}, At layout.octets offset layout.payload →
        offset + layout.payload.length = layout.octets.length →
        layout.octets.drop offset = layout.payload := by
      intro offset h hlength
      rw [h.drop_eq, hlength, List.drop_length, List.append_nil]
    refine hend hpayload ?_
    unfold Layout.octets
    simp only [List.length_append, List.length_cons, length_toBytes16]
    omega
  · exact Nat.le_trans (Nat.le_add_right _ _) hpayload.bound

variable {layout : Layout}

theorem decodeScMessage_octets (hvalid : layout.Valid) :
    decodeScMessage layout.octets = .ok layout.message := by
  obtain ⟨hreserved, hcontrol⟩ := layout.control.fromByte_toByte
  obtain ⟨a, b, c, d, h⟩ := layout.stands
  obtain ⟨tail, htail⟩ : ∃ tail, layout.octets = layout.function :: layout.control.toByte ::
      UInt8.ofNat (layout.messageId.toNat / 256) :: UInt8.ofNat (layout.messageId.toNat % 256) ::
        tail := ⟨_, rfl⟩
  rw [htail] at h ⊢
  unfold decodeScMessage
  dsimp only
  rw [if_neg (by rw [hreserved]; exact Bool.false_ne_true), hcontrol]
  generalize layout.function :: layout.control.toByte ::
      UInt8.ofNat (layout.messageId.toNat / 256) :: UInt8.ofNat (layout.messageId.toNat % 256) ::
        tail = data at h ⊢
  unfold Layout.control scMinHeader
  have horiginating := decodeVmac_of_at "truncated originating VMAC" h.originating
  have hdestination := decodeVmac_of_at "truncated destination VMAC" h.destination
  have hdest := decodeScOptions_of_at hvalid.destLength hvalid.dest h.dest
  have hdata := decodeScOptions_of_at hvalid.dataLength hvalid.data h.opts
  rw [← h.behindOriginating] at horiginating
  rw [← h.behindDestination] at hdestination
  rw [← h.behindDest] at hdest
  rw [← h.behindOpts] at hdata
  rw [horiginating]
  dsimp only
  rw [hdestination]
  dsimp only
  rw [hdest]
  dsimp only
  rw [hdata]
  dsimp only
  rw [h.payload, ofBytes16_octets]
  rfl

theorem octets_of_decodeScMessage {message : ScMessage} (h : decodeScMessage data = .ok message) :
    ∃ layout : Layout, layout.Valid ∧ layout.octets = data ∧ layout.message = message := by
  unfold decodeScMessage at h
  split at h
  · rename_i function byte high low tail
    generalize hdata : function :: byte :: high :: low :: tail = data at h ⊢
    have hlength : 4 ≤ data.length := by
      rw [← hdata]
      exact Nat.le_add_left 4 tail.length
    split_ifs at h with hreserved
    rw [Bool.not_eq_true', Bool.not_eq_false] at hreserved
    dsimp only at h
    split at h
    · cases h
    rename_i originating a horiginating
    obtain ⟨hsome, hat, ha⟩ := at_of_decodeVmac hlength horiginating
    split at h
    · cases h
    rename_i destination b hdestination
    obtain ⟨hsome', hat', hb⟩ := at_of_decodeVmac (ha ▸ hat.bound) hdestination
    split at h
    · cases h
    rename_i destOptions c hdest
    obtain ⟨dest, hdestSome, hdestLen, hdestValid, rfl, hdestAt, hc⟩ :=
      at_of_decodeScOptions (hb ▸ hat'.bound) hdest
    split at h
    · cases h
    rename_i dataOptions d hopts
    obtain ⟨opts, hdataSome, hdataLen, hdataValid, rfl, hdataAt, hd⟩ :=
      at_of_decodeScOptions (hc ▸ hdestAt.bound) hopts
    cases h
    let layout : Layout := ⟨function, ofBytes16 high low, originating, destination, dest, opts,
      data.drop d⟩
    have hcontrol : layout.control.toByte = byte := by
      rw [← ScControl.toByte_fromByte hreserved]
      show ScControl.toByte ⟨originating.isSome, destination.isSome, !dest.isEmpty,
        !opts.isEmpty⟩ = _
      rw [hsome, hsome', hdestSome, hdataSome]
    refine ⟨layout, ⟨hdestValid, hdataValid, hdestLen, hdataLen⟩, ?_, rfl⟩
    have hbody : data.drop 4 = tail := by
      rw [← hdata]
      rfl
    unfold Layout.octets
    rw [hcontrol, toBytes16_ofBytes16]
    rw [hat.drop_eq, ← ha, hat'.drop_eq, ← hb, hdestAt.drop_eq, ← hc, hdataAt.drop_eq, ← hd]
      at hbody
    rw [hbody]
    exact hdata
  · cases h

/-! ## Encoding -/

def RawOption.ofOption (option : ScOption) : RawOption :=
  ⟨option.optionType, option.mustUnderstand,
    if option.data.isEmpty then none else some option.data⟩

@[simp] theorem RawOption.option_ofOption (option : ScOption) : (ofOption option).option = option := by
  obtain ⟨optionType, must, _ | ⟨octet, data⟩⟩ := option <;> rfl

@[simp] theorem RawOption.ofOption_option (raw : RawOption) : ofOption raw.option = raw.dropEmpty := by
  obtain ⟨optionType, must, _ | _ | ⟨octet, data⟩⟩ := raw <;> rfl

def Layout.ofMessage (message : ScMessage) : Layout where
  function := message.function.toRaw
  messageId := message.messageId
  originatingVmac := message.originatingVmac
  destinationVmac := message.destinationVmac
  destOptions := message.destOptions.map RawOption.ofOption
  dataOptions := message.dataOptions.map RawOption.ofOption
  payload := message.payload

theorem encodeScOption_eq {option : ScOption} (h : option.data.length ≤ 65535) (more : Bool) :
    encodeScOption option more = (RawOption.ofOption option).octets more := by
  obtain ⟨optionType, must, _ | ⟨octet, data⟩⟩ := option
  · rfl
  · unfold encodeScOption
    rw [Nat.min_eq_left h]
    rfl

theorem encodeScOptions_eq (h : ∀ option ∈ options, option.data.length ≤ 65535) :
    encodeScOptions options = RawOption.chain (options.map RawOption.ofOption) := by
  induction options with
  | nil => rfl
  | cons option rest ih =>
    obtain ⟨hoption, hrest⟩ := List.forall_mem_cons.mp h
    unfold encodeScOptions
    rw [encodeScOption_eq hoption, ih hrest, List.map_cons]
    show _ = (RawOption.ofOption option).octets (!(rest.map RawOption.ofOption).isEmpty) ++ _
    rw [List.isEmpty_map]

theorem encodeScMessage_eq (buf : List UInt8) {message : ScMessage}
    (hdest : ∀ option ∈ message.destOptions, option.data.length ≤ 65535)
    (hdata : ∀ option ∈ message.dataOptions, option.data.length ≤ 65535) :
    encodeScMessage buf message = buf ++ (Layout.ofMessage message).octets := by
  have hlist : ∀ options : List ScOption, (if !options.isEmpty then encodeScOptions options else [])
      = encodeScOptions options := by
    intro options
    cases options <;> rfl
  have hcontrol : (Layout.ofMessage message).control = message.control := by
    unfold Layout.control Layout.ofMessage ScMessage.control
    simp only [List.isEmpty_map]
  unfold encodeScMessage Layout.octets
  rw [hlist, hlist, encodeScOptions_eq hdest, encodeScOptions_eq hdata, hcontrol]
  simp only [List.append_assoc]
  rfl

/-- A message is encoded as the frame it was decoded from, less its empty fields. -/
theorem ofMessage_message (layout : Layout) :
    Layout.ofMessage layout.message = layout.dropEmpty := by
  unfold Layout.ofMessage Layout.message Layout.dropEmpty
  simp only [List.map_map, ScFunction.toRaw_fromRaw]
  congr 1 <;> exact List.map_congr_left fun raw _ => raw.ofOption_option

theorem message_ofMessage {message : ScMessage}
    (h : ScFunction.fromRaw message.function.toRaw = message.function) :
    (Layout.ofMessage message).message = message := by
  have hoptions : ∀ options : List ScOption,
      (options.map RawOption.ofOption).map RawOption.option = options := by
    intro options
    rw [List.map_map]
    exact List.map_id'' RawOption.option_ofOption options
  unfold Layout.ofMessage Layout.message
  rw [h, hoptions, hoptions]

theorem RawOption.valid_ofOption {option : ScOption}
    (h : 1 ≤ option.optionType ∧ option.optionType ≤ 31 ∧ option.data.length ≤ 65535) :
    (ofOption option).Valid := by
  refine ⟨?_, ?_⟩
  · exact (Bool.and_eq_true _ _).mpr ⟨decide_eq_true h.1, decide_eq_true h.2.1⟩
  · intro data hdata
    unfold ofOption at hdata
    split_ifs at hdata
    · cases hdata
    · cases hdata
      exact h.2.2

theorem RawOption.length_data (h : raw.Valid) : raw.option.data.length ≤ 65535 := by
  obtain ⟨optionType, must, _ | field⟩ := raw
  · exact Nat.zero_le _
  · exact h.2 field rfl

/-! ## The second reader -/

theorem firstMustUnderstandFrom_step {turns : ℕ} (hvalid : raw.Valid)
    (h : At data offset (raw.octets more)) :
    firstMustUnderstandFrom data (turns + 1) offset
      = if raw.mustUnderstand then some (raw.marker more)
        else if more then firstMustUnderstandFrom data turns (offset + (raw.octets more).length)
        else none := by
  obtain ⟨optionType, must, field⟩ := raw
  obtain ⟨hmarker, hfield⟩ := at_cons.mp h
  obtain ⟨htype, hmust, hhas, hmore⟩ := marker_bits hvalid.1 more must field.isSome
  have hlast : ((RawOption.mk optionType must field).marker more &&& 0x80 == 0) = !more := by
    exact (Bool.not_not _).symm.trans (congrArg (!·) hmore)
  rw [RawOption.length_octets, firstMustUnderstandFrom, at_singleton.mp hmarker]
  dsimp only
  rw [hlast]
  unfold RawOption.marker
  rw [htype, hmust, hhas, if_neg (by rw [hvalid.1]; exact Bool.false_ne_true)]
  cases field with
  | none => cases must <;> cases more <;> rfl
  | some field =>
    have hlong : field.length ≤ 65535 := hvalid.2 field rfl
    obtain ⟨high, low, hhigh, hlow, hlength, hdata⟩ := at_field hlong hfield
    have hbound := hdata.bound
    rw [Option.isSome_some, if_pos rfl, hhigh, hlow]
    dsimp only
    rw [hlength, if_neg (by omega),
      show offset + (1 + (some field).elim 0 (fun data => 2 + data.length))
        = offset + 3 + field.length by dsimp only [Option.elim_some]; omega]
    cases must <;> cases more <;> rfl

theorem firstMustUnderstandFrom_eq :
    ∀ {turns offset : ℕ}, raws ≠ [] → raws.length ≤ turns → (∀ raw ∈ raws, raw.Valid) →
      At data offset (RawOption.chain raws) →
      firstMustUnderstandFrom data turns offset = RawOption.firstMarker raws := by
  induction raws with
  | nil => exact fun hne => absurd rfl hne
  | cons raw rest ih =>
    intro turns offset _ hturns hvalid h
    obtain ⟨turns, rfl⟩ : ∃ t, turns = t + 1 :=
      ⟨turns - 1, by rw [List.length_cons] at hturns; omega⟩
    obtain ⟨hraw, hrest⟩ := at_append.mp h
    rw [firstMustUnderstandFrom_step (hvalid raw List.mem_cons_self) hraw]
    congr 1
    cases rest with
    | nil => rfl
    | cons next rest =>
      exact ih (List.cons_ne_nil _ _) (Nat.le_of_succ_le_succ hturns)
        (fun raw hmem => hvalid raw (List.mem_cons_of_mem _ hmem)) hrest

theorem RawOption.length_le_chain (raws : List RawOption) : raws.length ≤ (chain raws).length := by
  induction raws with
  | nil => exact Nat.le_refl 0
  | cons raw rest ih =>
    unfold chain
    rw [List.length_append, length_octets, List.length_cons]
    omega

/-- On a valid frame the second reader gives the marker of the first mandatory option. -/
theorem firstMustUnderstand_octets (hvalid : layout.Valid) :
    firstMustUnderstandDestinationOptionMarker layout.octets
      = RawOption.firstMarker layout.destOptions := by
  obtain ⟨hreserved, hcontrol⟩ := layout.control.fromByte_toByte
  obtain ⟨a, b, c, d, h⟩ := layout.stands
  obtain ⟨tail, htail⟩ : ∃ tail, layout.octets = layout.function :: layout.control.toByte ::
      UInt8.ofNat (layout.messageId.toNat / 256) :: UInt8.ofNat (layout.messageId.toNat % 256) ::
        tail := ⟨_, rfl⟩
  have hvmac : ∀ vmac : Option Vmac, (vmac.elim [] Vector.toList).length
      = if vmac.isSome then 6 else 0 := by
    intro vmac
    cases vmac with
    | none => rfl
    | some vmac => exact vmac.length_toList
  have hoffset : b = 4 + (if layout.originatingVmac.isSome then 6 else 0)
      + (if layout.destinationVmac.isSome then 6 else 0) := by
    rw [h.behindDestination, h.behindOriginating, hvmac, hvmac]
  rw [htail] at h ⊢
  unfold firstMustUnderstandDestinationOptionMarker
  dsimp only
  rw [if_neg (by rw [hreserved]; exact Bool.false_ne_true), hcontrol]
  generalize layout.function :: layout.control.toByte ::
      UInt8.ofNat (layout.messageId.toNat / 256) :: UInt8.ofNat (layout.messageId.toNat % 256) ::
        tail = data at h ⊢
  unfold Layout.control scMinHeader
  dsimp only
  rw [← hoffset]
  by_cases hempty : layout.destOptions = []
  · rw [hempty]
    rfl
  · have hsome : layout.destOptions.isEmpty = false := List.isEmpty_eq_false_iff.mpr hempty
    rw [hsome, if_neg (by decide)]
    have hlength := RawOption.length_le_chain layout.destOptions
    have hbound := h.dest.bound
    exact firstMustUnderstandFrom_eq hempty (by omega) hvalid.dest h.dest

/-- The first mandatory option, taken apart. -/
theorem firstMarker_eq_some_iff {marker : UInt8} :
    RawOption.firstMarker raws = some marker ↔
      ∃ before raw behind, raws = before ++ raw :: behind ∧
        (∀ other ∈ before, other.mustUnderstand = false) ∧ raw.mustUnderstand = true ∧
        raw.marker (!behind.isEmpty) = marker := by
  induction raws with
  | nil =>
    refine ⟨(nomatch ·), ?_⟩
    rintro ⟨before, raw, behind, h, -⟩
    exact absurd h.symm (List.append_ne_nil_of_right_ne_nil _ (List.cons_ne_nil _ _))
  | cons first rest ih =>
    unfold RawOption.firstMarker
    by_cases hmust : first.mustUnderstand = true
    · rw [if_pos hmust]
      constructor
      · intro h
        exact ⟨[], first, rest, rfl, fun _ hmem => absurd hmem List.not_mem_nil, hmust,
          Option.some.inj h⟩
      · rintro ⟨before, raw, behind, h, hbefore, -, hmarker⟩
        cases before with
        | nil =>
          cases h
          rw [hmarker]
        | cons other before =>
          cases h
          rw [hbefore _ List.mem_cons_self] at hmust
          cases hmust
    · rw [if_neg hmust, ih]
      have hnot : first.mustUnderstand = false := (Bool.not_eq_true _).mp hmust
      constructor
      · rintro ⟨before, raw, behind, rfl, hbefore, hraw⟩
        exact ⟨first :: before, raw, behind, rfl, List.forall_mem_cons.mpr ⟨hnot, hbefore⟩, hraw⟩
      · rintro ⟨before, raw, behind, h, hbefore, hraw, hmarker⟩
        cases before with
        | nil =>
          cases h
          exact absurd hraw hmust
        | cons other before =>
          cases h
          exact ⟨before, raw, behind, rfl, (List.forall_mem_cons.mp hbefore).2, hraw, hmarker⟩

theorem firstMarker_eq_none_iff :
    RawOption.firstMarker raws = none ↔ ∀ raw ∈ raws, raw.mustUnderstand = false := by
  induction raws with
  | nil => exact ⟨fun _ _ hmem => absurd hmem List.not_mem_nil, fun _ => rfl⟩
  | cons first rest ih =>
    unfold RawOption.firstMarker
    rw [List.forall_mem_cons, ← ih]
    by_cases hmust : first.mustUnderstand = true
    · rw [if_pos hmust, hmust]
      exact ⟨(nomatch ·), fun h => absurd h.1 Bool.true_eq_false.mp⟩
    · rw [if_neg hmust]
      exact ⟨fun h => ⟨(Bool.not_eq_true _).mp hmust, h⟩, fun h => h.2⟩

/-! ## The codec -/

/-- A message the encoder can be given: its function is not an unknown one with a known code, and
its options can be stated. -/
structure ScMessage.Canonical (message : ScMessage) : Prop where
  function : ScFunction.fromRaw message.function.toRaw = message.function
  destLength : message.destOptions.length ≤ 64
  dataLength : message.dataOptions.length ≤ 64
  options : ∀ option ∈ message.destOptions ++ message.dataOptions,
    1 ≤ option.optionType ∧ option.optionType ≤ 31 ∧ option.data.length ≤ 65535

/-- Decoding undoes encoding; a frame that decodes is encoded again less its empty Header Data
fields; and the second reader gives the marker of the first mandatory destination option. -/
theorem sc_frame_codec :
    (∀ message : ScMessage, message.Canonical →
      decodeScMessage (encodeScMessage [] message) = .ok message) ∧
    ∀ (data : List UInt8) (message : ScMessage), decodeScMessage data = .ok message →
      ∃ layout : Layout, layout.Valid ∧ layout.octets = data ∧ layout.message = message ∧
        encodeScMessage [] message = layout.dropEmpty.octets ∧
        (∀ marker, firstMustUnderstandDestinationOptionMarker data = some marker ↔
          ∃ before raw behind, layout.destOptions = before ++ raw :: behind ∧
            (∀ other ∈ before, other.option.mustUnderstand = false) ∧
            raw.option.mustUnderstand = true ∧ raw.marker (!behind.isEmpty) = marker) ∧
        (firstMustUnderstandDestinationOptionMarker data = none ↔
          ∀ option ∈ message.destOptions, option.mustUnderstand = false) := by
  constructor
  · intro message h
    have hlong : ∀ option ∈ message.destOptions ++ message.dataOptions,
        option.data.length ≤ 65535 := fun option hmem => (h.options option hmem).2.2
    have hvalid : ∀ option ∈ message.destOptions ++ message.dataOptions,
        (RawOption.ofOption option).Valid :=
      fun option hmem => RawOption.valid_ofOption (h.options option hmem)
    have hlayout : (Layout.ofMessage message).Valid := by
      refine ⟨?_, ?_, ?_, ?_⟩
      · exact List.forall_mem_map.mpr fun option hmem =>
          hvalid option (List.mem_append_left _ hmem)
      · exact List.forall_mem_map.mpr fun option hmem =>
          hvalid option (List.mem_append_right _ hmem)
      · exact Nat.le_trans (Nat.le_of_eq (List.length_map _)) h.destLength
      · exact Nat.le_trans (Nat.le_of_eq (List.length_map _)) h.dataLength
    rw [encodeScMessage_eq [] (fun option hmem => hlong option (List.mem_append_left _ hmem))
      (fun option hmem => hlong option (List.mem_append_right _ hmem)), List.nil_append,
      decodeScMessage_octets hlayout, message_ofMessage h.function]
  · intro data message h
    obtain ⟨layout, hvalid, rfl, rfl⟩ := octets_of_decodeScMessage h
    refine ⟨layout, hvalid, rfl, rfl, ?_, fun marker => ?_, ?_⟩
    · have hfield : ∀ raws : List RawOption, (∀ raw ∈ raws, raw.Valid) →
          ∀ option ∈ raws.map RawOption.option, option.data.length ≤ 65535 := by
        intro raws hraws
        exact List.forall_mem_map.mpr fun raw hmem => RawOption.length_data (hraws raw hmem)
      rw [encodeScMessage_eq [] (hfield _ hvalid.dest) (hfield _ hvalid.data), ofMessage_message,
        List.nil_append]
    · rw [firstMustUnderstand_octets hvalid]
      exact firstMarker_eq_some_iff
    · rw [firstMustUnderstand_octets hvalid, firstMarker_eq_none_iff]
      exact (List.forall_mem_map (f := RawOption.option)
        (P := fun option => option.mustUnderstand = false)).symm

/-- Two destination options, the second mandatory and with an empty Header Data field. -/
theorem sc_frame_codec_two_options :
    let message : ScMessage := ⟨.heartbeatRequest, 7, none, none, [⟨3, false, [9]⟩, ⟨4, true, []⟩],
      [], [1, 2]⟩
    decodeScMessage (encodeScMessage [] message) = .ok message ∧
      ∃ layout : Layout,
        layout.octets = [0x0A, 0x02, 0, 7, 0xA3, 0, 1, 9, 0x64, 0, 0, 1, 2] ∧
        encodeScMessage [] message = layout.dropEmpty.octets := by
  intro message
  have hcanonical : message.Canonical := ⟨by decide, by decide, by decide, by decide⟩
  refine ⟨sc_frame_codec.1 message hcanonical, ?_⟩
  obtain ⟨layout, -, hoctets, -, hencode, -⟩ := sc_frame_codec.2
    [0x0A, 0x02, 0, 7, 0xA3, 0, 1, 9, 0x64, 0, 0, 1, 2] message (by decide +kernel)
  exact ⟨layout, hoctets, hencode⟩

end RustyBacnet.Sc
