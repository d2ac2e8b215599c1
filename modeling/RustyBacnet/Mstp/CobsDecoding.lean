import RustyBacnet.Mstp.CobsRoundTrip

/-!
# Encoded fields, both ways

What `write_fields` puts out is free of the preamble octet and as long as `frame_length` says, and
is decoded to the data. Conversely any field `decoded_length` accepts is decoded over itself to what
its blocks stand for.

1. `decodedLength_eq`: the length count is the length of what the blocks stand for.
2. `decodeLoop_unstuff`: so is what decoding in place leaves, since nothing is overwritten before it
   was read.
3. `decodeWrites_behind`: the write position stays behind the read position, since each block's
   code is read before its first octet is written. The writes are the source's:
   `decodeLoop_eq_writes` has the buffer as what they make of the field.
4. `encoded_fields`: both directions.
-/

namespace RustyBacnet.Mstp

open ByteStuffing

/-! ## Decoding any field -/

theorem code_full {code : UInt8} {run : List UInt8} (hrun : run.length ≤ maxRun)
    (hcode : code = UInt8.ofNat (run.length + 1)) : code ≠ 255 ↔ run.length ≠ maxRun := by
  have hnat := toNat_code hrun
  rw [← hcode] at hnat
  unfold maxRun at hrun ⊢
  constructor
  · intro hne hlen
    apply hne
    apply UInt8.toNat_inj.mp
    rw [hnat, hlen]
    rfl
  · rintro hne rfl
    exact hne (by change 255 = _ at hnat; omega)

variable (count fuel : ℕ)

/-- The length count of a field of blocks, wherever it starts. -/
theorem decodedLengthLoop_unstuff (pre field : List UInt8) (count n : ℕ)
    (hfuel : field.length ≤ fuel) (hcount : field.length ≤ count) :
    decodedLengthLoop (pre ++ masked field) count pre.length n
      = (unstuffFrom fuel field).map fun data => n + data.length := by
  induction fuel generalizing pre field count n with
  | zero =>
    obtain rfl : field = [] := List.length_eq_zero_iff.mp (Nat.le_zero.mp hfuel)
    have hend := decodedLengthLoop_end pre count n
    rw [show pre ++ masked [] = pre from List.append_nil pre, hend]
    rfl
  | succ fuel ih =>
    cases field with
    | nil =>
      have hend := decodedLengthLoop_end pre count n
      rw [show pre ++ masked [] = pre from List.append_nil pre, hend]
      rfl
    | cons code rest =>
      rw [List.length_cons] at hfuel hcount
      obtain ⟨count, rfl⟩ : ∃ k, count = k + 1 := ⟨count - 1, by omega⟩
      unfold unstuffFrom
      split_ifs with hbad
      · have hget : (pre ++ masked (code :: rest))[pre.length]? = some (code ^^^ mask) := by
          rw [List.getElem?_append_right (Nat.le_refl _), Nat.sub_self]
          rfl
        unfold decodedLengthLoop
        rw [hget]
        dsimp only
        rw [mask_mask, if_pos]
        · rfl
        · rw [List.length_append, length_masked, List.length_cons, Nat.add_sub_cancel_left]
          rcases hbad with rfl | hlong
          · exact .inl rfl
          · right
            omega
      · rw [not_or, Nat.not_lt] at hbad
        obtain ⟨run, more, rfl, hrun, hcode, htake, hdrop⟩ := exists_block hbad.1 hbad.2
        rw [← htake, ← hdrop]
        have hfull := code_full hrun hcode
        rw [hcode, decodedLengthLoop_block count n hrun, masked_block, ← hcode]
        have hpre : (pre ++ masked (code :: run)).length = pre.length + (run.length + 1) := by
          rw [List.length_append, length_masked, List.length_cons]
        rw [List.length_append] at hfuel hcount
        rw [← hpre, ih _ _ _ _ (by omega) (by omega), Option.map_map]
        congr 1
        funext data
        dsimp only [Function.comp_apply]
        rw [List.length_append]
        by_cases hmore : code ≠ 255 ∧ more ≠ []
        · rw [if_pos hmore, if_pos ⟨hfull.mp hmore.1, hmore.2⟩, List.length_cons]
          omega
        · rw [if_neg hmore, if_neg fun h => hmore ⟨hfull.mpr h.1, h.2⟩]
          omega

theorem decodedLength_eq (field : List UInt8) :
    decodedLength field = (unstuff (masked field)).map List.length := by
  have hloop := decodedLengthLoop_unstuff (masked field).length [] (masked field)
    (field.length + 1) 0 (Nat.le_refl _) (by rw [length_masked]; omega)
  rw [masked_masked, List.nil_append, List.length_nil] at hloop
  unfold decodedLength
  rw [hloop]
  congr 1
  funext data
  exact Nat.zero_add _

variable {field : List UInt8} {write read : ℕ} {data : List UInt8}

/-- Decoding over itself leaves what the blocks stand for behind what it had written. -/
theorem decodeLoop_unstuff {rest : List UInt8} {count : ℕ}
    (hdata : unstuffFrom fuel rest = some data) (hcount : rest.length ≤ count)
    (hwrite : write ≤ read) (hfield : field.drop read = masked rest) :
    (decodeLoop count field read write).2 = write + data.length ∧
      (decodeLoop count field read write).1.take (write + data.length)
        = field.take write ++ data := by
  induction fuel generalizing field rest data count read write with
  | zero =>
    cases rest with
    | nil =>
      obtain rfl : data = [] := (Option.some.inj hdata).symm
      have hend : field.length ≤ read := List.drop_eq_nil_iff.mp hfield
      rw [decodeLoop_end _ _ hend]
      exact ⟨rfl, (List.append_nil _).symm⟩
    | cons code rest => cases hdata
  | succ fuel ih =>
    cases rest with
    | nil =>
      obtain rfl : data = [] := (Option.some.inj hdata).symm
      have hend : field.length ≤ read := List.drop_eq_nil_iff.mp hfield
      rw [decodeLoop_end _ _ hend]
      exact ⟨rfl, (List.append_nil _).symm⟩
    | cons code rest =>
      unfold unstuffFrom at hdata
      by_cases hbad : code = 0 ∨ rest.length < code.toNat - 1
      · rw [if_pos hbad] at hdata
        cases hdata
      rw [if_neg hbad] at hdata
      rw [not_or, Nat.not_lt] at hbad
      obtain ⟨run, more, rfl, hrun, hcode, htake, hdrop⟩ := exists_block hbad.1 hbad.2
      rw [← htake, ← hdrop] at hdata
      obtain ⟨after, hafter, rfl⟩ := Option.map_eq_some_iff.mp hdata
      have hfull := code_full hrun hcode
      rw [List.length_cons, List.length_append] at hcount
      obtain ⟨count, rfl⟩ : ∃ k, count = k + 1 := ⟨count - 1, by omega⟩
      obtain ⟨field', hlen, htake', hdrop', heq⟩ :=
        decodeLoop_block count hrun hwrite (by rw [hfield, hcode])
      by_cases hmore : code ≠ 255 ∧ more ≠ []
      · rw [if_pos ⟨hfull.mp hmore.1, hmore.2⟩] at heq
        have hbound : write + run.length < field'.length := by
          have hall := congrArg List.length hfield
          rw [List.length_drop, length_masked, List.length_cons, List.length_append] at hall
          omega
        have hrest : (field'.set (write + run.length) 0).drop (read + 1 + run.length)
            = masked more := by
          rw [Slices.drop_set_of_lt _ (by omega), hdrop']
        have hnext := ih hafter (by omega : more.length ≤ count)
          (by omega : write + run.length + 1 ≤ read + 1 + run.length) hrest
        rw [Slices.take_succ_set _ hbound, htake'] at hnext
        rw [heq, if_pos hmore, List.length_append, List.length_cons,
          show write + (run.length + (after.length + 1))
            = write + run.length + 1 + after.length by omega]
        refine ⟨hnext.1, ?_⟩
        rw [hnext.2]
        simp
      · rw [if_neg fun h => hmore ⟨hfull.mpr h.1, h.2⟩] at heq
        have hnext := ih hafter (by omega : more.length ≤ count)
          (by omega : write + run.length ≤ read + 1 + run.length) hdrop'
        rw [htake'] at hnext
        rw [heq, if_neg hmore, List.length_append, ← Nat.add_assoc]
        refine ⟨hnext.1, ?_⟩
        rw [hnext.2, List.append_assoc]

/-- A field that is accepted is decoded over itself to what its blocks stand for. -/
theorem decodeInPlace_unstuff (h : unstuff (masked field) = some data) :
    (decodeInPlace field).2 = data.length ∧
      (decodeInPlace field).1.take data.length = data := by
  have hloop := decodeLoop_unstuff (masked field).length h
    (by rw [length_masked]; omega : (masked field).length ≤ field.length + 1) (Nat.le_refl 0)
    (by rw [masked_masked]; rfl : field.drop 0 = _)
  rw [Nat.zero_add] at hloop
  exact hloop

/-! ## Where decoding writes -/

/-- An octet written while decoding, and how much of the field had been read by then. -/
structure FieldWrite where
  position : ℕ
  octet : UInt8
  read : ℕ

/-- The writes of `copyRun`, in order. -/
def copyWrites : ℕ → List UInt8 → ℕ → ℕ → List FieldWrite
  | 0, _, _, _ => []
  | count + 1, field, read, write =>
    let octet := field.getD read 0 ^^^ mask
    ⟨write, octet, read⟩ :: copyWrites count (field.set write octet) (read + 1) (write + 1)

/-- The writes of `decodeLoop`, in order. -/
def decodeWrites : ℕ → List UInt8 → ℕ → ℕ → List FieldWrite
  | 0, _, _, _ => []
  | fuel + 1, field, read, write =>
    if read < field.length then
      let code := (field.getD read 0 ^^^ mask).toNat
      let read := read + 1
      let count := min (read + (code - 1)) field.length - read
      let copied := copyWrites count field read write
      let field := copyRun count field read write
      let read := read + count
      let write := write + count
      copied ++
        if code ≠ 0xFF ∧ read < field.length then
          ⟨write, 0, read⟩ :: decodeWrites fuel (field.set write 0) read (write + 1)
        else decodeWrites fuel field read write
    else []

def FieldWrite.apply (field : List UInt8) (w : FieldWrite) : List UInt8 :=
  field.set w.position w.octet

theorem copyRun_eq_writes (field : List UInt8) (read write : ℕ) :
    copyRun count field read write
      = (copyWrites count field read write).foldl FieldWrite.apply field := by
  induction count generalizing field read write with
  | zero => rfl
  | succ count ih =>
    unfold copyRun copyWrites
    rw [ih]
    rfl

theorem decodeLoop_eq_writes (field : List UInt8) (read write : ℕ) :
    (decodeLoop fuel field read write).1
      = (decodeWrites fuel field read write).foldl FieldWrite.apply field := by
  induction fuel generalizing field read write with
  | zero => rfl
  | succ fuel ih =>
    unfold decodeLoop decodeWrites
    by_cases hread : read < field.length
    · rw [if_pos hread, if_pos hread]
      dsimp only
      rw [List.foldl_append, ← copyRun_eq_writes]
      split_ifs with hmore
      · rw [ih]
        rfl
      · exact ih _ _ _
    · rw [if_neg hread, if_neg hread]
      rfl

theorem copyWrites_behind (field : List UInt8) (h : write < read) :
    ∀ w ∈ copyWrites count field read write, w.position < w.read := by
  induction count generalizing field read write with
  | zero =>
    intro w hw
    cases hw
  | succ count ih =>
    intro w hw
    rcases List.mem_cons.mp hw with rfl | hw
    · exact h
    · exact ih _ (Nat.succ_lt_succ h) w hw

theorem decodeWrites_behind (field : List UInt8) (h : write ≤ read) :
    ∀ w ∈ decodeWrites fuel field read write, w.position < w.read := by
  induction fuel generalizing field read write with
  | zero =>
    intro w hw
    cases hw
  | succ fuel ih =>
    intro w hw
    unfold decodeWrites at hw
    by_cases hread : read < field.length
    · rw [if_pos hread] at hw
      rcases List.mem_append.mp hw with hw | hw
      · exact copyWrites_behind _ _ (by omega) w hw
      · split_ifs at hw with hmore
        · rcases List.mem_cons.mp hw with rfl | hw
          · change write + _ < read + 1 + _
            omega
          · exact ih _ (by omega) w hw
        · exact ih _ (by omega) w hw
    · rw [if_neg hread] at hw
      cases hw

/-! ## Both directions -/

theorem mask_notMem {octets : List UInt8} (h : 0 ∉ octets) : mask ∉ masked octets := by
  intro hmem
  obtain ⟨octet, hoctet, hmask⟩ := List.mem_map.mp hmem
  have hzero : octet = 0 := by
    rw [← mask_mask octet, hmask, UInt8.xor_self]
  rw [hzero] at hoctet
  exact h hoctet

/-- What holds of the octets written for `data`. -/
structure EncodedFields (data octets : List UInt8) : Prop where
  noPreamble : 0x55 ∉ octets
  length : octets.length = frameLength data + 2
  overhead : data ≠ [] →
    octets.length - encodedCrcLength ≤ data.length + (data.length + 253) / 254
  accepted : checkFields octets = some data.length
  decodedLength : (decodeDataInPlace octets).2 = data.length
  decoded : (decodeDataInPlace octets).1.take data.length = data

theorem encodedFields (data : List UInt8) : EncodedFields data (fields data) where
  noPreamble := by
    have hnone : mask ∉ fields data := by
      unfold fields
      rw [List.mem_append, not_or]
      exact ⟨mask_notMem (stuffed_stuffs _).zero_notMem, mask_notMem (stuffed_stuffs _).zero_notMem⟩
    exact hnone
  length := by
    rw [length_fields, frameLength_eq]
    unfold encodedCrcLength lengthAdjustment
    omega
  overhead := by
    intro hne
    have hle := (stuffed_stuffs data).length_le
    have hpos : 0 < data.length := List.length_pos_iff.mpr hne
    rw [length_fields]
    omega
  accepted := checkFields_fields data
  decodedLength := by
    unfold decodeDataInPlace
    simp only [take_fields]
    exact (decodeInPlace_stuffs (stuffed_stuffs data)).1
  decoded := decodeDataInPlace_fields data

/-- What holds of decoding an accepted field over itself. -/
structure DecodedField (field : List UInt8) (count : ℕ) : Prop where
  behind : ∀ w ∈ decodeWrites (field.length + 1) field 0 0, w.position < w.read
  writes : (decodeInPlace field).1
    = (decodeWrites (field.length + 1) field 0 0).foldl FieldWrite.apply field
  length : (decodeInPlace field).2 = count
  octets : unstuff (masked field) = some ((decodeInPlace field).1.take count)

theorem decodedField {length : ℕ} (h : decodedLength field = some length) :
    DecodedField field length := by
  rw [decodedLength_eq] at h
  obtain ⟨data, hdata, rfl⟩ := Option.map_eq_some_iff.mp h
  obtain ⟨hlength, htake⟩ := decodeInPlace_unstuff hdata
  exact ⟨decodeWrites_behind _ _ (Nat.le_refl _), decodeLoop_eq_writes _ _ _ _, hlength,
    by rw [htake]; exact hdata⟩

/-- The encoded fields of any data, and the decoding of any field that is accepted. -/
theorem encoded_fields :
    (∀ (data : List UInt8) (sink : SliceSink), frameLength data + 2 ≤ sink.tail.length →
      ∃ octets, writeFields data sink = (.ok (), sink.advance octets) ∧
        EncodedFields data octets) ∧
    ∀ (field : List UInt8) (length : ℕ), decodedLength field = some length →
      DecodedField field length := by
  constructor
  · intro data sink hroom
    have hlaws := encodedFields data
    refine ⟨fields data, writeFields_ok ?_, hlaws⟩
    rw [hlaws.length]
    exact hroom
  · intro field length h
    exact decodedField h

/-- A zero between two octets, into a sink with exactly the room, and back from a field whose last
block is empty. -/
theorem encoded_fields_zero :
    (∃ octets, writeFields [7, 0, 9] ⟨[], List.replicate 9 0⟩
        = (.ok (), (⟨[], List.replicate 9 0⟩ : SliceSink).advance octets) ∧
      EncodedFields [7, 0, 9] octets) ∧
    DecodedField [0x57, 0x52, 0x54] 2 :=
  ⟨encoded_fields.1 [7, 0, 9] _ (by decide), encoded_fields.2 _ _ (by decide)⟩

end RustyBacnet.Mstp
