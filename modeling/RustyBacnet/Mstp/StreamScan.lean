import RustyBacnet.Lib.Scanner
import RustyBacnet.Mstp.Stream

/-!
# The incremental decoder as a scanner

The decoder's storage, its compaction and the frame it keeps until the next push are details: what
it does to a stream is given by `verdict`, which looks at the octets not yet accounted for and
says what stands at their front.

1. `verdict_stable`: no later octet changes a verdict. A frame too long for the storage is refused
   on its header, before the rest of it can matter, and noise goes one octet at a time.
2. `headerVerdict_valid`, `headerVerdict_refused`: on a buffer the storage holds, the verdict is
   read off the checks on the whole frame.
3. `reports_noise`: octets that could not start a preamble go one by one.
-/

namespace RustyBacnet.Mstp

open Slices Scanner

/-! ## Verdicts -/

/-- What stands at the front of a stream. -/
inductive Item where
  | noise
  | frame (frame : Frame) (consumed : ℕ)
  | malformed (discard : ℕ) (error : FrameError) (destination : Option UInt8)
  deriving DecidableEq

def bodyData (frameType : FrameType) (body : List UInt8) (dataLength : ℕ) : List UInt8 :=
  (if frameType.isCobs then (decodeDataInPlace body).1 else body).take dataLength

def bodyVerdict (capacity : ℕ) (good : GoodHeader) (buf : List UInt8) : Option (Item × ℕ) :=
  let total := wireLength good.length
  if capacity < total then
    some (.malformed total (.frameTooLong total capacity) (some good.header.destination), total)
  else if buf.length < total then none
  else
    let body := (buf.take total).drop dataOffset
    match checkBody good.header.frameType good.length body with
    | .error e => some (.malformed total e (some good.header.destination), total)
    | .ok dataLength =>
      some (.frame ⟨good.header, bodyData good.header.frameType body dataLength⟩ total, total)

/-- The verdict on a buffer that might start a preamble. -/
def headerVerdict (capacity : ℕ) (reservedCobs : Bool) (buf : List UInt8) : Option (Item × ℕ) :=
  match checkHeader buf reservedCobs with
  | .ok good => bodyVerdict capacity good buf
  | .error (.tooShort _ _) => none
  | .error (.unsupportedCobsFrame rawType) =>
    let total := wireLength (u16FromBe (buf.getD lengthIndex 0) (buf.getD (lengthIndex + 1) 0))
    some (.malformed total (.unsupportedCobsFrame rawType) (some (buf.getD destinationIndex 0)),
      total)
  | .error e => some (.malformed 1 e (StreamDecoder.errorDestination e buf), 1)

/-- What a decoder with this much storage says of the front of a stream. -/
def verdict (capacity : ℕ) (reservedCobs : Bool) (buf : List UInt8) : Option (Item × ℕ) :=
  if buf = [] then none
  else if StreamDecoder.mayStartPreamble buf then headerVerdict capacity reservedCobs buf
  else some (.noise, 1)

variable (more : List UInt8)

theorem checkHeader_append {buf : List UInt8} (reservedCobs : Bool) (h : dataOffset ≤ buf.length) :
    checkHeader (buf ++ more) reservedCobs = checkHeader buf reservedCobs := by
  have hget : ∀ i, i < dataOffset → (buf ++ more).getD i 0 = buf.getD i 0 := by
    intro i hi
    rw [List.getD_eq_getElem?_getD, List.getD_eq_getElem?_getD,
      List.getElem?_append_left (by omega)]
  have htake : ∀ n, n ≤ dataOffset → (buf ++ more).take n = buf.take n := by
    intro n hn
    exact List.take_append_of_le_length (by omega)
  have hlen : ¬(buf ++ more).length < dataOffset := by
    rw [List.length_append]
    omega
  unfold checkHeader
  rw [if_neg hlen, if_neg (Nat.not_lt.mpr h)]
  simp only [htake preamble.length (by decide), htake dataOffset (Nat.le_refl _),
    hget 0 (by decide), hget 1 (by decide), hget 2 (by decide), hget 3 (by decide),
    hget 4 (by decide), hget 5 (by decide), hget 6 (by decide)]

theorem checkHeader_short {buf : List UInt8} (reservedCobs : Bool) (h : buf.length < dataOffset) :
    checkHeader buf reservedCobs = .error (.tooShort dataOffset buf.length) := by
  unfold checkHeader
  rw [if_pos h]

variable {good : GoodHeader} {v : Item × ℕ}

theorem bodyVerdict_append {capacity : ℕ} {buf : List UInt8}
    (h : bodyVerdict capacity good buf = some v) :
    bodyVerdict capacity good (buf ++ more) = some v := by
  unfold bodyVerdict at h ⊢
  by_cases hcap : capacity < wireLength good.length
  · rw [if_pos hcap] at h ⊢
    exact h
  · rw [if_neg hcap] at h ⊢
    by_cases hlen : buf.length < wireLength good.length
    · rw [if_pos hlen] at h
      exact absurd h (by simp)
    · rw [if_neg hlen] at h
      rw [if_neg (by rw [List.length_append]; omega),
        List.take_append_of_le_length (Nat.not_lt.mp hlen)]
      exact h

theorem headerVerdict_append {capacity : ℕ} {reservedCobs : Bool} {buf : List UInt8}
    (h : headerVerdict capacity reservedCobs buf = some v) :
    headerVerdict capacity reservedCobs (buf ++ more) = some v := by
  rcases Nat.lt_or_ge buf.length dataOffset with hlen | hlen
  · simp [headerVerdict, checkHeader_short _ hlen] at h
  · have hget : ∀ i, i < dataOffset → (buf ++ more).getD i 0 = buf.getD i 0 := by
      intro i hi
      rw [List.getD_eq_getElem?_getD, List.getD_eq_getElem?_getD,
        List.getElem?_append_left (by omega)]
    have hdest : ∀ e, StreamDecoder.errorDestination e (buf ++ more)
        = StreamDecoder.errorDestination e buf := by
      intro e
      cases e <;> simp only [StreamDecoder.errorDestination, hget destinationIndex (by decide)]
    unfold headerVerdict at h ⊢
    rw [checkHeader_append more reservedCobs hlen]
    simp only [hdest, hget lengthIndex (by decide), hget (lengthIndex + 1) (by decide),
      hget destinationIndex (by decide)]
    cases hcheck : checkHeader buf reservedCobs with
    | ok good =>
      rw [hcheck] at h
      exact bodyVerdict_append more h
    | error e =>
      rw [hcheck] at h
      cases e <;> exact h

theorem mayStartPreamble_append {buf : List UInt8} (h : buf ≠ [])
    (hno : StreamDecoder.mayStartPreamble buf = false) :
    StreamDecoder.mayStartPreamble (buf ++ more) = false := by
  match buf with
  | [first] =>
    simp only [StreamDecoder.mayStartPreamble, List.head?_nil, Option.all_none, Bool.and_true]
      at hno
    simp [StreamDecoder.mayStartPreamble, hno]
  | first :: second :: rest =>
    simpa [StreamDecoder.mayStartPreamble] using hno

theorem verdict_stable {capacity : ℕ} {reservedCobs : Bool} (buf more : List UInt8) (i : Item)
    (n : ℕ) (h : verdict capacity reservedCobs buf = some (i, n)) :
    verdict capacity reservedCobs (buf ++ more) = some (i, n) := by
  unfold verdict at h ⊢
  by_cases hnil : buf = []
  · rw [if_pos hnil] at h
    exact absurd h (by simp)
  · rw [if_neg hnil] at h
    rw [if_neg (by simp [hnil])]
    by_cases hmay : StreamDecoder.mayStartPreamble buf = true
    · rw [if_pos hmay] at h
      have hlen : dataOffset ≤ buf.length := by
        by_contra hlen
        simp [headerVerdict, checkHeader_short _ (Nat.not_le.mp hlen)] at h
      have hmay' : StreamDecoder.mayStartPreamble (buf ++ more) = true := by
        match buf, hlen with
        | first :: second :: rest, _ => simpa [StreamDecoder.mayStartPreamble] using hmay
      rw [if_pos hmay']
      exact headerVerdict_append more h
    · rw [if_neg hmay] at h
      rw [mayStartPreamble_append more hnil (by simpa using hmay), if_neg (by simp)]
      exact h

def verdicts (capacity : ℕ) (reservedCobs : Bool) : Verdicts UInt8 Item where
  next := verdict capacity reservedCobs
  next_nil := rfl
  stable := verdict_stable

/-! ## Verdicts from the checks on a whole buffer -/

variable {length n : ℕ}

theorem decodedLengthLoop_le {field : List UInt8} {fuel read : ℕ} (hread : read ≤ field.length)
    (hlen : length ≤ read) (h : decodedLengthLoop field fuel read length = some n) :
    n ≤ field.length := by
  induction fuel generalizing read length with
  | zero =>
    have := Option.some.inj h
    omega
  | succ fuel ih =>
    unfold decodedLengthLoop at h
    split at h
    · have := Option.some.inj h
      omega
    · dsimp only at h
      split_ifs at h with hbad hzero
      · exact ih (by omega) (by omega) h
      · exact ih (by omega) (by omega) h

theorem checkFields_le {fields : List UInt8} (h : checkFields fields = some n) :
    n ≤ fields.length := by
  unfold checkFields at h
  split_ifs at h with hshort
  dsimp only at h
  split at h
  · exact absurd h (by simp)
  · rename_i length hlength
    split at h
    · exact absurd h (by simp)
    · split_ifs at h
      rw [← Option.some.inj h]
      have := decodedLengthLoop_le (Nat.zero_le _) (Nat.le_refl _) hlength
      rw [List.length_take] at this
      omega

variable {frameType : FrameType} {body : List UInt8}

theorem checkBody_le (hbody : body.length + dataOffset = wireLength length)
    (h : checkBody frameType length body = .ok n) : n ≤ body.length := by
  unfold checkBody at h
  split_ifs at h with hcobs hcrc
  · split at h
    · exact absurd h (by simp)
    · rename_i m hm
      rw [← Except.ok.inj h]
      exact checkFields_le hm
  · rw [← Except.ok.inj h]
    unfold wireLength at hbody
    split_ifs at hbody <;> omega

variable {e : FrameError}

theorem checkBody_error (h : checkBody frameType length body = .error e) :
    e = .dataCrcMismatch length := by
  unfold checkBody at h
  split_ifs at h
  · split at h
    · exact (Except.error.inj h).symm
    · exact absurd h (by simp)
  · exact (Except.error.inj h).symm

theorem checkHeaderFields_error {source : UInt8}
    (h : checkHeaderFields frameType source length = .error e) :
    e = .broadcastSource ∨ (∃ n, e = .invalidCobsLength n) ∨ (∃ n m, e = .oversize n m) ∨
      ∃ raw, e = .unsupportedCobsFrame raw := by
  unfold checkHeaderFields at h
  split_ifs at h
  · exact .inl (Except.error.inj h).symm
  · exact .inr (.inr (.inr ⟨_, (Except.error.inj h).symm⟩))
  · exact .inr (.inl ⟨_, (Except.error.inj h).symm⟩)
  · exact .inr (.inr (.inl ⟨_, _, (Except.error.inj h).symm⟩))

theorem checkHeader_error {buf : List UInt8} {reservedCobs : Bool}
    (h : checkHeader buf reservedCobs = .error e) :
    (∃ n, e = .tooShort dataOffset n) ∨ (∃ a b, e = .invalidPreamble a b) ∨
      e = .headerCrcMismatch ∨ e = .broadcastSource ∨ (∃ n, e = .invalidCobsLength n) ∨
      (∃ n m, e = .oversize n m) ∨ ∃ raw, e = .unsupportedCobsFrame raw := by
  unfold checkHeader at h
  by_cases hshort : buf.length < dataOffset
  · rw [if_pos hshort] at h
    exact .inl ⟨_, (Except.error.inj h).symm⟩
  rw [if_neg hshort] at h
  by_cases hpre : buf.take preamble.length ≠ preamble
  · rw [if_pos hpre] at h
    exact .inr (.inl ⟨_, _, (Except.error.inj h).symm⟩)
  rw [if_neg hpre] at h
  by_cases hcrc : ¬crc8Valid ((buf.take dataOffset).drop preamble.length) = true
  · rw [if_pos hcrc] at h
    exact .inr (.inr (.inl (Except.error.inj h).symm))
  rw [if_neg hcrc] at h
  dsimp only at h
  split at h
  · split_ifs at h
    exact .inr (.inr (.inr (.inr (.inr (.inr ⟨_, (Except.error.inj h).symm⟩)))))
  · rename_i e' _ hfields
    rw [← Except.error.inj h]
    exact .inr (.inr (.inr (checkHeaderFields_error hfields)))
  · exact absurd h (by simp)

theorem checkHeader_destination {buf : List UInt8} {reservedCobs : Bool}
    (h : checkHeader buf reservedCobs = .ok good) :
    good.header.destination = buf.getD destinationIndex 0 := by
  unfold checkHeader at h
  by_cases hshort : buf.length < dataOffset
  · rw [if_pos hshort] at h
    exact absurd h (by simp)
  rw [if_neg hshort] at h
  by_cases hpre : buf.take preamble.length ≠ preamble
  · rw [if_pos hpre] at h
    exact absurd h (by simp)
  rw [if_neg hpre] at h
  by_cases hcrc : ¬crc8Valid ((buf.take dataOffset).drop preamble.length) = true
  · rw [if_pos hcrc] at h
    exact absurd h (by simp)
  rw [if_neg hcrc] at h
  dsimp only at h
  split at h
  · split_ifs at h
    rw [← Except.ok.inj h]
    rfl
  · exact absurd h (by simp)
  · rw [← Except.ok.inj h]
    rfl

theorem decodeExtendedInPlace_data {buf : List UInt8} {header : FrameHeader}
    (hlen : wireLength length ≤ buf.length)
    (hbody : checkBody header.frameType length ((buf.take (wireLength length)).drop dataOffset)
      = .ok n) :
    ((decodeExtendedInPlace buf ⟨header, n, wireLength length⟩).drop dataOffset).take n
      = bodyData header.frameType ((buf.take (wireLength length)).drop dataOffset) n := by
  have hoff := dataOffset_le_wireLength length
  have hn := checkBody_le (by rw [List.length_drop, List.length_take]; omega) hbody
  have hhead : (buf.take dataOffset).length = dataOffset := by
    rw [List.length_take]
    omega
  unfold decodeExtendedInPlace bodyData
  split_ifs with hcobs
  · rw [List.append_assoc, List.drop_left' hhead,
      List.take_append_of_le_length (by rw [length_decodeDataInPlace]; exact hn)]
  · rw [List.drop_take, List.take_take, Nat.min_eq_left]
    rw [List.length_drop, List.length_take] at hn
    omega

variable {valid : ValidFrame}

theorem length_decodeExtendedInPlace {buf : List UInt8} (hoff : dataOffset ≤ valid.consumed)
    (hlen : valid.consumed ≤ buf.length) :
    (decodeExtendedInPlace buf valid).length = buf.length := by
  unfold decodeExtendedInPlace
  split_ifs with hcobs
  · simp only [List.length_append, length_decodeDataInPlace, List.length_take, List.length_drop]
    omega
  · rfl

theorem drop_decodeExtendedInPlace {buf : List UInt8} (hoff : dataOffset ≤ valid.consumed)
    (hlen : valid.consumed ≤ buf.length) :
    (decodeExtendedInPlace buf valid).drop valid.consumed = buf.drop valid.consumed := by
  unfold decodeExtendedInPlace
  split_ifs with hcobs
  · refine List.drop_left' ?_
    simp only [List.length_append, length_decodeDataInPlace, List.length_take, List.length_drop]
    omega
  · rfl

section CheckFrame

variable {capacity : ℕ} {reservedCobs : Bool} {buf : List UInt8}

theorem headerVerdict_valid (hcap : buf.length ≤ capacity)
    (h : checkFrame buf reservedCobs = .ok valid) :
    headerVerdict capacity reservedCobs buf
        = some (.frame ⟨valid.header, ((decodeExtendedInPlace buf valid).drop dataOffset).take
            valid.dataLength⟩ valid.consumed, valid.consumed) ∧
      dataOffset ≤ valid.consumed ∧ valid.consumed ≤ buf.length := by
  unfold checkFrame at h
  split at h
  · exact absurd h (by simp)
  · rename_i good hgood
    dsimp only at h
    split_ifs at h with hlen
    split at h
    · exact absurd h (by simp)
    · rename_i n hn
      have hlen' := Nat.not_lt.mp hlen
      rw [← Except.ok.inj h]
      refine ⟨?_, dataOffset_le_wireLength _, hlen'⟩
      unfold headerVerdict bodyVerdict
      simp only [hgood]
      rw [if_neg (by omega), if_neg hlen]
      simp only [hn]
      rw [decodeExtendedInPlace_data hlen' hn]

/-- What is said of a frame that `checkFrame` refuses. -/
def refusal (capacity : ℕ) (e : FrameError) (buf : List UInt8) : Option (Item × ℕ) :=
  let destination := StreamDecoder.errorDestination e buf
  match e with
  | .tooShort _ _ => none
  | .truncated length _ =>
    let needed := wireLength length
    if needed ≤ capacity then none
    else some (.malformed needed (.frameTooLong needed capacity) destination, needed)
  | .unsupportedCobsFrame _ =>
    let total := wireLength (u16FromBe (buf.getD lengthIndex 0) (buf.getD (lengthIndex + 1) 0))
    some (.malformed total e destination, total)
  | .dataCrcMismatch length =>
    some (.malformed (wireLength length) e destination, wireLength length)
  | e => some (.malformed 1 e destination, 1)

/-- A refused or unfinished frame, as a verdict. -/
theorem headerVerdict_refused (hcap : buf.length ≤ capacity)
    (h : checkFrame buf reservedCobs = .error e) :
    headerVerdict capacity reservedCobs buf = refusal capacity e buf := by
  unfold checkFrame at h
  split at h
  · rename_i e' hheader
    rw [← Except.error.inj h]
    unfold headerVerdict
    rw [hheader]
    rcases checkHeader_error hheader with ⟨n, rfl⟩ | ⟨a, b, rfl⟩ | rfl | rfl | ⟨n, rfl⟩ |
      ⟨n, m, rfl⟩ | ⟨raw, rfl⟩ <;> rfl
  · rename_i good hgood
    have hdest := checkHeader_destination hgood
    dsimp only at h
    unfold headerVerdict bodyVerdict
    simp only [hgood]
    split_ifs at h with hlen
    · rw [← Except.error.inj h]
      unfold refusal
      dsimp only
      by_cases hfit : capacity < wireLength good.length
      · rw [if_pos hfit, if_neg (by omega), hdest]
        rfl
      · rw [if_neg hfit, if_pos hlen, if_pos (Nat.not_lt.mp hfit)]
    · cases hbody : checkBody good.header.frameType good.length
          (List.drop dataOffset (List.take (wireLength good.length) buf)) with
      | error e' =>
        obtain rfl := checkBody_error hbody
        rw [hbody] at h
        rw [← Except.error.inj h, if_neg (by omega), if_neg hlen, hdest]
        rfl
      | ok length =>
        rw [hbody] at h
        exact absurd h (by simp)

theorem checkFrame_tooShort {m : ℕ} (h : checkFrame buf reservedCobs = .error (.tooShort n m)) :
    n = dataOffset := by
  unfold checkFrame at h
  split at h
  · rename_i e hheader
    rw [Except.error.inj h] at hheader
    rcases checkHeader_error hheader with ⟨k, hk⟩ | ⟨a, b, hk⟩ | hk | hk | ⟨k, hk⟩ |
      ⟨k, l, hk⟩ | ⟨raw, hk⟩
    · exact (FrameError.tooShort.inj hk).1
    all_goals exact absurd hk (by simp)
  · dsimp only at h
    split_ifs at h
    · exact absurd h (by simp)
    · split at h
      · rename_i e hbody
        rw [checkBody_error hbody] at h
        exact absurd h (by simp)
      · exact absurd h (by simp)

end CheckFrame

theorem noise_of_first {capacity : ℕ} {reservedCobs : Bool} {first : UInt8} {rest : List UInt8}
    (h : first ≠ 0x55) : verdict capacity reservedCobs (first :: rest) = some (.noise, 1) := by
  have hmay : StreamDecoder.mayStartPreamble (first :: rest) = false := by
    simp [StreamDecoder.mayStartPreamble, h]
  unfold verdict
  rw [if_neg (by simp), hmay, if_neg (by simp)]

theorem reports_noise {capacity : ℕ} {reservedCobs : Bool} (k : ℕ) (c : Cursor UInt8)
    (hk : k ≤ c.buffered.length) (hnoise : 0x55 ∉ c.buffered.take k) :
    Reports (verdicts capacity reservedCobs) c (List.replicate k .noise) (c.advance k) := by
  induction k generalizing c with
  | zero =>
    rw [Cursor.advance_zero]
    exact Reports.refl
  | succ k ih =>
    obtain ⟨first, rest, hbuf⟩ : ∃ first rest, c.buffered = first :: rest :=
      List.exists_cons_of_length_pos (by omega)
    rw [hbuf, List.take_succ_cons, List.mem_cons, not_or] at hnoise
    rw [hbuf, List.length_cons] at hk
    have hrest : (c.advance 1).buffered = rest := by simp [Cursor.advance, hbuf]
    rw [Nat.add_comm k 1, Cursor.advance_add k (by rw [hbuf]; simp), List.replicate_add]
    refine Reports.item (n := 1) ?_ ?_
    · rw [hbuf]
      exact noise_of_first (Ne.symm hnoise.1)
    · exact ih _ (by rw [hrest]; omega) (by rw [hrest]; exact hnoise.2)

end RustyBacnet.Mstp
