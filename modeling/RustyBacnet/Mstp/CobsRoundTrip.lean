import Mathlib.Data.List.TakeWhile
import RustyBacnet.Mstp.Cobs

/-!
# The encoded fields give the data back

1. `codeBlocks_stuffs`: the code blocks of any data are its stuffed form.
2. `writeFields_ok`: a sink with room gets both masked fields, whatever the chunking.
3. `decodedLength_stuffs`, `decodeInPlace_stuffs`: the receiver's two loops over a masked stuffed
   field find the length of the data and leave the data at the field's start. Writing never passes
   reading, which is why the loop may decode over itself.
4. `checkFields_fields`: so the fields a sender writes are accepted, with the data's length.
-/

namespace RustyBacnet.Mstp

open ByteStuffing Slices

/-! ## Encoding -/

def blockOctets (bs : List (UInt8 × List UInt8)) : List UInt8 :=
  bs.flatMap fun b => b.1 :: b.2

def stuffed (data : List UInt8) : List UInt8 :=
  blockOctets (codeBlocks (data.length + 1) data)

variable (pre : List UInt8) (n : ℕ) (rest : List UInt8)

/-- The octets of a run: the longest prefix without a zero, at most a full run long. -/
theorem take_run :
    rest.take ((rest.take maxRun).takeWhile (· != 0)).length
      = (rest.take maxRun).takeWhile (· != 0) := by
  have hpre : (rest.take maxRun).takeWhile (· != 0) <+: rest :=
    (List.takeWhile_prefix _).trans (List.take_prefix _ _)
  exact (List.prefix_iff_eq_take.mp hpre).symm

theorem zero_notMem_run : 0 ∉ (rest.take maxRun).takeWhile (· != 0) := by
  intro h
  have := List.mem_takeWhile_imp h
  simp at this

theorem run_le : ((rest.take maxRun).takeWhile (· != 0)).length ≤ maxRun := by
  have h := (List.takeWhile_prefix (l := rest.take maxRun) (· != 0)).length_le
  rw [List.length_take] at h
  omega

theorem drop_run {rest tail : List UInt8} {octet : UInt8}
    (hrun : ((rest.take maxRun).takeWhile (· != 0)).length < maxRun)
    (htail : rest.drop ((rest.take maxRun).takeWhile (· != 0)).length = octet :: tail) :
    octet = 0 := by
  set run := ((rest.take maxRun).takeWhile (· != 0)).length with hdef
  have hlt : run < rest.length := by
    have := congrArg List.length htail
    rw [List.length_drop, List.length_cons] at this
    omega
  have hget : (rest.take maxRun)[run]? = some octet := by
    rw [List.getElem?_take_of_lt hrun]
    have : (rest.drop run)[0]? = some octet := by rw [htail]; rfl
    simpa using this
  have hsplit := List.takeWhile_append_dropWhile (p := (· != (0 : UInt8))) (l := rest.take maxRun)
  rw [← hsplit, List.getElem?_append_right (Nat.le_of_eq hdef.symm), ← hdef, Nat.sub_self] at hget
  have hne : (rest.take maxRun).dropWhile (· != 0) ≠ [] := by
    intro h
    rw [h] at hget
    exact absurd hget (by simp)
  have hhead := List.head_dropWhile_not (· != (0 : UInt8)) hne
  rw [← List.head?_eq_getElem?, List.head?_eq_some_head hne] at hget
  rw [Option.some.inj hget] at hhead
  simpa using hhead

theorem ofNat_succ : UInt8.ofNat n + 1 = UInt8.ofNat (n + 1) := by
  simp

/-- The code blocks of `rest` are its stuffed form. -/
theorem codeBlocks_stuffs (fuel : ℕ) (rest : List UInt8) (h : rest.length < fuel) :
    Stuffs rest (blockOctets (codeBlocks fuel rest)) := by
  induction fuel generalizing rest with
  | zero => exact absurd h (Nat.not_lt_zero _)
  | succ fuel ih =>
    unfold codeBlocks
    have htake := take_run rest
    have h0 := zero_notMem_run rest
    have hle := run_le rest
    have hdrop := @drop_run rest
    set octets := (rest.take maxRun).takeWhile (· != 0) with hoctets
    have hsplit : octets ++ rest.drop octets.length = rest := by
      conv_rhs => rw [← List.take_append_drop octets.length rest, htake]
    simp only [htake, ofNat_succ]
    split_ifs with hfull hempty
    · rw [List.isEmpty_iff.mp hempty, List.append_nil] at hsplit
      rw [← hsplit]
      simpa [blockOctets] using Stuffs.lastFull h0 hfull
    · have hne : rest.drop octets.length ≠ [] := fun hn => hempty (by rw [hn]; rfl)
      have hrec := ih (rest.drop octets.length) (by
        rw [List.length_drop]
        unfold maxRun at hfull
        have := congrArg List.length hsplit
        rw [List.length_append] at this
        omega)
      have hst := Stuffs.full h0 hfull hne hrec
      rw [hsplit] at hst
      simpa [blockOctets] using hst
    · cases htail : rest.drop octets.length with
      | nil =>
        rw [htail, List.append_nil] at hsplit
        rw [← hsplit]
        simpa [blockOctets] using Stuffs.last h0 (by omega)
      | cons octet afterZero =>
        have hzero : octet = 0 := hdrop (by omega) htail
        subst hzero
        rw [htail] at hsplit
        have hrec := ih afterZero (by
          have := congrArg List.length hsplit
          rw [List.length_append, List.length_cons] at this
          omega)
        have hst := Stuffs.zero h0 (by omega) hrec
        rw [hsplit] at hst
        simpa [blockOctets] using hst

theorem stuffed_stuffs (data : List UInt8) : Stuffs data (stuffed data) :=
  codeBlocks_stuffs _ data (Nat.lt_succ_self _)

theorem forEachBlock_octets {σ : Type} (data : List UInt8) (s : σ) (push : σ → UInt8 → σ) :
    forEachBlock data s (fun s code octets => octets.foldl push (push s code))
      = (stuffed data).foldl push s := by
  unfold forEachBlock stuffed blockOctets
  rw [List.foldl_flatMap]
  rfl

theorem frameLength_eq (data : List UInt8) :
    frameLength data = (stuffed data).length + encodedCrcLength - lengthAdjustment := by
  have hfold : ∀ (bs : List (UInt8 × List UInt8)) (n : ℕ),
      bs.foldl (fun n b => n + (1 + b.2.length)) n = n + (blockOctets bs).length := by
    intro bs
    induction bs with
    | nil => intro n; simp [blockOctets]
    | cons b bs ih =>
      intro n
      rw [List.foldl_cons, ih]
      simp only [blockOctets, List.flatMap_cons, List.length_append, List.length_cons]
      omega
  unfold frameLength forEachBlock
  rw [hfold, Nat.zero_add]
  rfl

/-! ## Writing -/

def masked (octets : List UInt8) : List UInt8 := octets.map (· ^^^ mask)

@[simp] theorem length_masked (octets : List UInt8) : (masked octets).length = octets.length :=
  List.length_map _

theorem masked_append (xs ys : List UInt8) : masked (xs ++ ys) = masked xs ++ masked ys :=
  List.map_append

theorem mask_mask (octet : UInt8) : octet ^^^ mask ^^^ mask = octet := by
  rw [UInt8.xor_assoc, UInt8.xor_self, UInt8.xor_zero]

/-- The CRC-32K field before stuffing: the complement of the register, low octet first. -/
def crcOctets (field : List UInt8) : List UInt8 := u32ToLe (~~~ crc32kUpdate 0xFFFFFFFF field)

/-- Both encoded fields of an extended frame, as they go on the wire. -/
def fields (data : List UInt8) : List UInt8 :=
  masked (stuffed data) ++ masked (stuffed (crcOctets (masked (stuffed data))))

/-- `o` has taken `octets` since `sink`: some were written, the last are in its chunk. -/
def Output.Gathered (sink : SliceSink) (octets : List UInt8) (o : Output SliceSink) : Prop :=
  ∃ done, octets = done ++ o.chunk ∧ o.sink = sink.advance done ∧
    o.crc = crc32kUpdate 0xFFFFFFFF done ∧ o.result = .ok ()

namespace Output

variable {sink : SliceSink} {octets : List UInt8} {o : Output SliceSink}

theorem Gathered.flush (h : Gathered sink octets o) (hroom : octets.length ≤ sink.tail.length) :
    Gathered sink octets o.flush ∧ o.flush.chunk = [] := by
  obtain ⟨done, hsplit, hsink, hcrc, hresult⟩ := h
  have hwrite : FrameSink.write o.sink o.chunk = .ok (o.sink.advance o.chunk) := by
    apply SliceSink.write_ok
    rw [hsplit, List.length_append] at hroom
    rw [hsink, SliceSink.advance, List.length_drop]
    omega
  have hflush : o.flush
      = ⟨o.sink.advance o.chunk, [], crc32kUpdate o.crc o.chunk, .ok ()⟩ := by
    unfold Output.flush
    rw [hresult, hwrite]
  rw [hflush]
  refine ⟨⟨done ++ o.chunk, by simp [hsplit], ?_, ?_, rfl⟩, rfl⟩
  · rw [SliceSink.advance_append, hsink]
  · rw [crc32kUpdate_append, hcrc]

theorem Gathered.push (h : Gathered sink octets o) (hroom : octets.length ≤ sink.tail.length)
    (octet : UInt8) : Gathered sink (octets ++ [octet ^^^ mask]) (o.push octet) := by
  have hadd : ∀ o' : Output SliceSink, Gathered sink octets o' →
      Gathered sink (octets ++ [octet ^^^ mask])
        { o' with chunk := o'.chunk ++ [octet ^^^ mask] } := by
    rintro o' ⟨done, hsplit, hsink, hcrc, hresult⟩
    exact ⟨done, by rw [hsplit, List.append_assoc], hsink, hcrc, hresult⟩
  unfold Output.push
  split_ifs with hfull
  · exact hadd _ (h.flush hroom).1
  · exact hadd _ h

theorem Gathered.foldl_push (more : List UInt8) (h : Gathered sink octets o)
    (hroom : octets.length + more.length ≤ sink.tail.length) :
    Gathered sink (octets ++ masked more) (more.foldl Output.push o) := by
  induction more generalizing octets o with
  | nil => simpa [masked] using h
  | cons octet more ih =>
    rw [List.length_cons] at hroom
    have hpush := h.push (by omega) octet
    have := ih hpush (by rw [List.length_append, List.length_singleton]; omega)
    simpa [masked] using this

theorem Gathered.blocks (data : List UInt8) (h : Gathered sink octets o)
    (hroom : octets.length + (stuffed data).length ≤ sink.tail.length) :
    Gathered sink (octets ++ masked (stuffed data)) (o.blocks data) := by
  unfold Output.blocks
  rw [forEachBlock_octets]
  exact h.foldl_push _ hroom

end Output

variable {data : List UInt8}

theorem writeFields_ok {sink : SliceSink} (hroom : (fields data).length ≤ sink.tail.length) :
    writeFields data sink = (.ok (), sink.advance (fields data)) := by
  have hlen : (fields data).length = (stuffed data).length
      + (stuffed (crcOctets (masked (stuffed data)))).length := by
    simp [fields]
  have hstart : Output.Gathered sink [] ⟨sink, [], 0xFFFFFFFF, .ok ()⟩ :=
    ⟨[], rfl, by simp, rfl, rfl⟩
  have hdata := hstart.blocks data (by rw [List.length_nil]; omega)
  rw [List.nil_append] at hdata
  obtain ⟨hflushed, hempty⟩ := hdata.flush (by rw [length_masked]; omega)
  obtain ⟨done, hsplit, hsink, hcrc, hresult⟩ := hflushed
  rw [hempty, List.append_nil] at hsplit
  subst hsplit
  -- The register of the data field, complemented, is the data of the second field.
  have hcrcField := Output.Gathered.blocks (o := _) (crcOctets (masked (stuffed data)))
    ⟨masked (stuffed data), by rw [hempty, List.append_nil], hsink, hcrc, hresult⟩
    (by rw [length_masked]; omega)
  obtain ⟨hlast, hlastEmpty⟩ := hcrcField.flush (by
    rw [List.length_append, length_masked, length_masked]
    omega)
  obtain ⟨done', hsplit', hsink', -, hresult'⟩ := hlast
  rw [hlastEmpty, List.append_nil] at hsplit'
  unfold writeFields
  simp only [hcrc]
  refine Prod.ext ?_ ?_
  · exact hresult'
  · refine hsink'.trans ?_
    rw [← hsplit']
    rfl

/-! ## Reading back -/

theorem masked_code {n : ℕ} (hn : n ≤ maxRun) :
    ((UInt8.ofNat (n + 1) ^^^ mask) ^^^ mask).toNat = n + 1 := by
  rw [mask_mask]
  exact toNat_code hn

theorem decodedLengthLoop_block {pre run more : List UInt8} (fuel n : ℕ)
    (hrun : run.length ≤ maxRun) :
    decodedLengthLoop (pre ++ masked (UInt8.ofNat (run.length + 1) :: (run ++ more))) (fuel + 1)
        pre.length n
      = decodedLengthLoop (pre ++ masked (UInt8.ofNat (run.length + 1) :: (run ++ more))) fuel
          (pre.length + (run.length + 1))
          (if run.length ≠ maxRun ∧ more ≠ [] then n + run.length + 1 else n + run.length) := by
  have hlen : (pre ++ masked (UInt8.ofNat (run.length + 1) :: (run ++ more))).length
      = pre.length + (run.length + 1) + more.length := by
    simp only [List.length_append, length_masked, List.length_cons]
    omega
  have hget : (pre ++ masked (UInt8.ofNat (run.length + 1) :: (run ++ more)))[pre.length]?
      = some (UInt8.ofNat (run.length + 1) ^^^ mask) := by
    rw [List.getElem?_append_right (Nat.le_refl _), Nat.sub_self]
    rfl
  have hmore : (pre.length + (run.length + 1) < pre.length + (run.length + 1) + more.length)
      ↔ more ≠ [] := by
    rw [← List.length_pos_iff]
    omega
  have hcode : run.length + 1 ≠ 0xFF ↔ run.length ≠ maxRun := by
    unfold maxRun
    omega
  conv_lhs => unfold decodedLengthLoop
  simp only [hget, masked_code hrun, hlen, hmore, hcode]
  rw [if_neg (by omega)]
  rfl

theorem decodedLengthLoop_end (field : List UInt8) (fuel n : ℕ) :
    decodedLengthLoop field fuel field.length n = some n := by
  cases fuel with
  | zero => rfl
  | succ fuel => simp [decodedLengthLoop]

theorem masked_block (run field : List UInt8) (code : UInt8) :
    pre ++ masked (code :: (run ++ field)) = (pre ++ masked (code :: run)) ++ masked field := by
  rw [← List.cons_append, masked_append, List.append_assoc]

variable {run : List UInt8} {fuel : ℕ}

theorem decodedLengthLoop_last (hrun : run.length ≤ maxRun) (hfuel : run.length < fuel) :
    decodedLengthLoop (pre ++ masked (UInt8.ofNat (run.length + 1) :: run)) fuel pre.length n
      = some (n + run.length) := by
  obtain ⟨fuel, rfl⟩ : ∃ k, fuel = k + 1 := ⟨fuel - 1, by omega⟩
  have hblock := @decodedLengthLoop_block pre run [] fuel n hrun
  rw [List.append_nil, if_neg (by simp)] at hblock
  rw [hblock, show pre.length + (run.length + 1)
    = (pre ++ masked (UInt8.ofNat (run.length + 1) :: run)).length by simp]
  exact decodedLengthLoop_end _ _ _

variable {field : List UInt8}

theorem decodedLengthLoop_stuffs (h : Stuffs data field) (pre : List UInt8) (fuel n : ℕ)
    (hfuel : field.length ≤ fuel) :
    decodedLengthLoop (pre ++ masked field) fuel pre.length n = some (n + data.length) := by
  induction h generalizing pre fuel n with
  | last _ hlen => exact decodedLengthLoop_last pre n hlen.le hfuel
  | lastFull _ hlen => exact decodedLengthLoop_last pre n hlen.le hfuel
  | @zero run rest field _ hlen hrest ih =>
    simp only [List.length_cons, List.length_append] at hfuel ⊢
    obtain ⟨fuel, rfl⟩ : ∃ k, fuel = k + 1 := ⟨fuel - 1, by omega⟩
    have hnext := ih (pre ++ masked (UInt8.ofNat (run.length + 1) :: run)) fuel
      (n + run.length + 1) (by omega)
    rw [← masked_block] at hnext
    rw [decodedLengthLoop_block fuel n hlen.le, if_pos ⟨hlen.ne, hrest.ne_nil⟩]
    simp only [List.length_append, length_masked, List.length_cons] at hnext
    rw [hnext]
    congr 1
    omega
  | @full run rest field _ hlen _ hrest ih =>
    simp only [List.length_cons, List.length_append] at hfuel ⊢
    obtain ⟨fuel, rfl⟩ : ∃ k, fuel = k + 1 := ⟨fuel - 1, by omega⟩
    have hnext := ih (pre ++ masked (UInt8.ofNat (run.length + 1) :: run)) fuel
      (n + run.length) (by omega)
    rw [← masked_block] at hnext
    rw [decodedLengthLoop_block fuel n hlen.le, if_neg (fun h => h.1 hlen)]
    simp only [List.length_append, length_masked, List.length_cons] at hnext
    rw [hnext]
    congr 1
    omega

theorem decodedLength_stuffs (h : Stuffs data field) :
    decodedLength (masked field) = some data.length := by
  have := decodedLengthLoop_stuffs h [] (field.length + 1) 0 (Nat.le_succ _)
  simpa [decodedLength] using this

/-! ## Decoding over itself -/

@[simp] theorem length_copyRun (count : ℕ) (field : List UInt8) (read write : ℕ) :
    (copyRun count field read write).length = field.length := by
  induction count generalizing field read write with
  | zero => rfl
  | succ count ih => simp [copyRun, ih]

/-- A run is unmasked to `write`, and everything behind it stays. -/
theorem copyRun_spec (count : ℕ) (field : List UInt8) (read write : ℕ) (hwrite : write ≤ read)
    (hread : read + count ≤ field.length) :
    (copyRun count field read write).take (write + count)
        = field.take write ++ masked (slice field read count) ∧
      (copyRun count field read write).drop (write + count) = field.drop (write + count) := by
  induction count generalizing field read write with
  | zero => simp [copyRun, masked]
  | succ count ih =>
    set octet := field.getD read 0 ^^^ mask with hoctet
    have hstep := ih (field.set write octet) (read + 1) (write + 1) (by omega)
      (by rw [List.length_set]; omega)
    have hslice : slice (field.set write octet) (read + 1) count = slice field (read + 1) count := by
      unfold slice
      rw [drop_set_of_lt _ (by omega)]
    have hfirst : slice field read (count + 1)
        = field.getD read 0 :: slice field (read + 1) count := by
      unfold slice
      rw [List.drop_eq_getElem_cons (by omega), List.take_succ_cons,
        List.getD_eq_getElem _ _ (by omega)]
    rw [show write + (count + 1) = write + 1 + count by omega]
    refine ⟨?_, ?_⟩
    · refine hstep.1.trans ?_
      rw [take_succ_set _ (by omega), hslice, hfirst, List.append_assoc]
      rfl
    · refine hstep.2.trans ?_
      rw [drop_set_of_lt _ (by omega)]

@[simp] theorem length_decodeLoop (fuel : ℕ) (field : List UInt8) (read write : ℕ) :
    (decodeLoop fuel field read write).1.length = field.length := by
  induction fuel generalizing field read write with
  | zero => rfl
  | succ fuel ih =>
    unfold decodeLoop
    dsimp only
    split_ifs <;> simp [ih]

variable {read : ℕ}

theorem decodeLoop_end (fuel write : ℕ) (h : field.length ≤ read) :
    decodeLoop fuel field read write = (field, write) := by
  cases fuel with
  | zero => rfl
  | succ fuel =>
    unfold decodeLoop
    rw [if_neg (by omega)]

theorem masked_masked (octets : List UInt8) : masked (masked octets) = octets := by
  unfold masked
  rw [List.map_map]
  conv_rhs => rw [← List.map_id octets]
  exact List.map_congr_left fun octet _ => mask_mask octet

/-- One block decoded over itself: what was decoded, and what is left to read. -/
theorem decodeLoop_block {field run more : List UInt8} {read write : ℕ} (fuel : ℕ)
    (hrun : run.length ≤ maxRun) (hwrite : write ≤ read)
    (hfield : field.drop read = masked (UInt8.ofNat (run.length + 1) :: (run ++ more))) :
    ∃ field', field'.length = field.length ∧
      field'.take (write + run.length) = field.take write ++ run ∧
      field'.drop (read + 1 + run.length) = masked more ∧
      decodeLoop (fuel + 1) field read write =
        if run.length ≠ maxRun ∧ more ≠ [] then
          decodeLoop fuel (field'.set (write + run.length) 0) (read + 1 + run.length)
            (write + run.length + 1)
        else decodeLoop fuel field' (read + 1 + run.length) (write + run.length) := by
  have hlen : field.length = read + 1 + run.length + more.length := by
    have := congrArg List.length hfield
    simp only [List.length_drop, length_masked, List.length_cons, List.length_append] at this
    omega
  have hget : field.getD read 0 = UInt8.ofNat (run.length + 1) ^^^ mask := by
    rw [List.getD_eq_getElem?_getD]
    have : (field.drop read)[0]? = some (UInt8.ofNat (run.length + 1) ^^^ mask) := by
      rw [hfield]
      rfl
    rw [List.getElem?_drop, Nat.add_zero] at this
    rw [this]
    rfl
  have hdrop : field.drop (read + 1) = masked run ++ masked more := by
    rw [← List.drop_drop, hfield, ← masked_append]
    rfl
  have hslice : slice field (read + 1) run.length = masked run := by
    unfold slice
    rw [hdrop, ← length_masked run, List.take_left]
  have hcopy := copyRun_spec run.length field (read + 1) write (by omega) (by omega)
  refine ⟨copyRun run.length field (read + 1) write, length_copyRun _ _ _ _, ?_, ?_, ?_⟩
  · rw [hcopy.1, hslice, masked_masked]
  · have hsplit : read + 1 + run.length = write + run.length + (read + 1 - write) := by omega
    rw [hsplit, ← List.drop_drop, hcopy.2, List.drop_drop, ← hsplit, ← List.drop_drop, hdrop,
      ← length_masked run, List.drop_left]
  · have hcount : min (read + 1 + (run.length + 1 - 1)) field.length - (read + 1)
        = run.length := by
      omega
    have hmore : read + 1 + run.length < field.length ↔ more ≠ [] := by
      rw [← List.length_pos_iff]
      omega
    have hcode : run.length + 1 ≠ 0xFF ↔ run.length ≠ maxRun := by
      unfold maxRun
      omega
    conv_lhs => unfold decodeLoop
    rw [if_pos (by omega)]
    simp only [hget, masked_code hrun, hcount, length_copyRun, hmore, hcode]

theorem decodeLoop_last {write : ℕ} (hrun : run.length ≤ maxRun) (hwrite : write ≤ read)
    (hfuel : run.length < fuel)
    (hfield : field.drop read = masked (UInt8.ofNat (run.length + 1) :: run)) :
    (decodeLoop fuel field read write).2 = write + run.length ∧
      (decodeLoop fuel field read write).1.take (write + run.length)
        = field.take write ++ run := by
  obtain ⟨fuel, rfl⟩ : ∃ k, fuel = k + 1 := ⟨fuel - 1, by omega⟩
  obtain ⟨field', hlen, htake, hdrop, heq⟩ := @decodeLoop_block field run [] read write fuel hrun hwrite
    (by rw [hfield, List.append_nil])
  rw [if_neg (by simp)] at heq
  have hend : field'.length ≤ read + 1 + run.length := by
    have := congrArg List.length hdrop
    rw [List.length_drop] at this
    simp [masked] at this
    omega
  rw [heq, decodeLoop_end _ _ hend]
  exact ⟨rfl, htake⟩

/-- The data is left at the start of the field. -/
theorem decodeLoop_stuffs {rest : List UInt8} (h : Stuffs data rest) (fuel : ℕ) (field : List UInt8)
    (read write : ℕ) (hfuel : rest.length ≤ fuel) (hwrite : write ≤ read)
    (hfield : field.drop read = masked rest) :
    (decodeLoop fuel field read write).2 = write + data.length ∧
      (decodeLoop fuel field read write).1.take (write + data.length)
        = field.take write ++ data := by
  induction h generalizing fuel field read write with
  | last _ hlen => exact decodeLoop_last hlen.le hwrite hfuel hfield
  | lastFull _ hlen => exact decodeLoop_last hlen.le hwrite hfuel hfield
  | @zero run rest more _ hlen hrest ih =>
    simp only [List.length_cons, List.length_append] at hfuel ⊢
    obtain ⟨fuel, rfl⟩ : ∃ k, fuel = k + 1 := ⟨fuel - 1, by omega⟩
    obtain ⟨field', hflen, htake, hdrop, heq⟩ := decodeLoop_block fuel hlen.le hwrite hfield
    rw [if_pos ⟨hlen.ne, hrest.ne_nil⟩] at heq
    have hbound : write + run.length < field'.length := by
      have := congrArg List.length hfield
      simp only [List.length_drop, length_masked, List.length_cons, List.length_append] at this
      omega
    have hnext := ih fuel (field'.set (write + run.length) 0) (read + 1 + run.length)
      (write + run.length + 1) (by omega) (by omega)
      (by rw [drop_set_of_lt _ (by omega), hdrop])
    rw [take_succ_set _ hbound, htake] at hnext
    rw [heq, show write + (run.length + (rest.length + 1))
      = write + run.length + 1 + rest.length by omega]
    refine ⟨hnext.1, ?_⟩
    rw [hnext.2]
    simp
  | @full run rest more _ hlen _ hrest ih =>
    simp only [List.length_cons, List.length_append] at hfuel ⊢
    obtain ⟨fuel, rfl⟩ : ∃ k, fuel = k + 1 := ⟨fuel - 1, by omega⟩
    obtain ⟨field', hflen, htake, hdrop, heq⟩ := decodeLoop_block fuel hlen.le hwrite hfield
    rw [if_neg (fun h => h.1 hlen)] at heq
    have hnext := ih fuel field' (read + 1 + run.length) (write + run.length) (by omega)
      (by omega) hdrop
    rw [htake] at hnext
    rw [heq, ← Nat.add_assoc]
    refine ⟨hnext.1, ?_⟩
    rw [hnext.2, List.append_assoc]

theorem decodeInPlace_stuffs (h : Stuffs data field) :
    (decodeInPlace (masked field)).2 = data.length ∧
      (decodeInPlace (masked field)).1.take data.length = data := by
  have := decodeLoop_stuffs h ((masked field).length + 1) (masked field) 0 0 (by simp)
    (Nat.le_refl _) rfl
  simpa [decodeInPlace] using this

/-! ## Both fields -/

theorem length_stuffed_crc (field : List UInt8) :
    (stuffed (crcOctets field)).length = encodedCrcLength :=
  (stuffed_stuffs _).length_eq (by simp [crcOctets, u32ToLe, maxRun])

theorem length_fields (data : List UInt8) :
    (fields data).length = (stuffed data).length + encodedCrcLength := by
  simp [fields, length_stuffed_crc]

theorem take_fields (data : List UInt8) :
    (fields data).take ((fields data).length - encodedCrcLength) = masked (stuffed data) := by
  rw [length_fields, Nat.add_sub_cancel]
  unfold fields
  rw [← length_masked (stuffed data), List.take_left]

theorem drop_fields (data : List UInt8) :
    (fields data).drop ((fields data).length - encodedCrcLength)
      = masked (stuffed (crcOctets (masked (stuffed data)))) := by
  rw [length_fields, Nat.add_sub_cancel]
  unfold fields
  rw [← length_masked (stuffed data), List.drop_left]

theorem checkFields_fields (data : List UInt8) : checkFields (fields data) = some data.length := by
  set crc := crcOctets (masked (stuffed data)) with hcrc
  have hcrcField := decodeInPlace_stuffs (stuffed_stuffs crc)
  have hcrcLen : crc.length = 4 := rfl
  have hget : ∀ i, i < 4 → (decodeInPlace (masked (stuffed crc))).1.getD i 0 = crc.getD i 0 := by
    intro i hi
    conv_rhs => rw [← hcrcField.2]
    rw [List.getD_eq_getElem?_getD, List.getD_eq_getElem?_getD,
      List.getElem?_take_of_lt (by omega)]
  unfold checkFields
  rw [if_neg (by rw [length_fields]; omega)]
  simp only [take_fields, drop_fields, decodedLength_stuffs (stuffed_stuffs _), ← hcrc]
  rw [hget 0 (by omega), hget 1 (by omega), hget 2 (by omega), hget 3 (by omega), if_pos]
  exact u32FromLe_toLe _

theorem decodeDataInPlace_fields (data : List UInt8) :
    (decodeDataInPlace (fields data)).1.take data.length = data := by
  have hdata := (decodeInPlace_stuffs (stuffed_stuffs data)).2
  have hlen : data.length ≤ (decodeInPlace (masked (stuffed data))).1.length := by
    have := (stuffed_stuffs data).length_gt
    simp only [decodeInPlace, length_decodeLoop, length_masked]
    omega
  unfold decodeDataInPlace
  simp only [take_fields]
  rw [List.take_append_of_le_length hlen, hdata]

theorem length_decodeDataInPlace (octets : List UInt8) :
    (decodeDataInPlace octets).1.length = octets.length := by
  simp only [decodeDataInPlace, decodeInPlace, List.length_append, length_decodeLoop,
    List.length_take, List.length_drop]
  omega

end RustyBacnet.Mstp
