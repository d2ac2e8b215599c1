import RustyBacnet.Apdu.Pdu
import RustyBacnet.Lib.Pairs

/-!
# Splitting and reassembling payloads

`segmentation.rs` of `bacnet-encoding`: a payload is cut into at most 256 segments, and
`SegmentReceiver` keeps the segments that arrived by their one-octet sequence number. A receiver that
took segments in order holds each under its index (`Collects`), and reassembles their concatenation.
-/

namespace RustyBacnet.Segmentation

inductive SegmentationError where
  | zeroSegmentSize
  | tooManySegments (segments : ℕ)
  | segmentTooLarge (size max : ℕ)
  | totalTooLarge (total : ℕ)
  | missingSegment (index total : ℕ)
  | payloadCapacityExceeded
  | payloadAccountingOverflow
  | negativeAckRetriesExhausted
  deriving DecidableEq

inductive SegmentedPduType where
  | confirmedRequest
  | complexAck
  deriving DecidableEq

def SegmentedPduType.overhead : SegmentedPduType → ℕ
  | .confirmedRequest => 6
  | .complexAck => 5

def maxSegmentPayload (maxApduLength : UInt16) (pduType : SegmentedPduType) : ℕ :=
  maxApduLength.toNat - pduType.overhead

/-- Whether a sequence number repeats a segment of the window under way. -/
def duplicateInWindow (sequenceNumber initialSequenceNumber lastSequenceNumber : UInt8) : Bool :=
  let receivedCount := lastSequenceNumber - initialSequenceNumber
  receivedCount ≠ 0 && sequenceNumber - initialSequenceNumber ≤ receivedCount

/-! ## Splitting -/

/-- The chunks of `size` octets of a payload, the last one shorter. -/
def chunks (payload : List UInt8) (size : ℕ) : List (List UInt8) :=
  (List.range ((payload.length + size - 1) / size)).map fun i => (payload.drop (i * size)).take size

def splitPayload (payload : List UInt8) (maxSegmentSize : ℕ) :
    Except SegmentationError (List (List UInt8)) :=
  if maxSegmentSize = 0 then .error .zeroSegmentSize
  else if payload.isEmpty then .ok [[]]
  else
    let segments := chunks payload maxSegmentSize
    if segments.length > 256 then .error (.tooManySegments segments.length) else .ok segments

theorem flatten_chunks_from (payload : List UInt8) (size count : ℕ) :
    ((List.range count).map fun i => (payload.drop (i * size)).take size).flatten
      = payload.take (count * size) := by
  induction count with
  | zero => simp
  | succ count ih =>
    rw [List.range_succ, List.map_append, List.flatten_append, ih]
    simp only [List.map_cons, List.map_nil, List.flatten_cons, List.flatten_nil, List.append_nil]
    rw [Nat.succ_mul, List.take_add]

variable {size : ℕ}

theorem flatten_chunks (payload : List UInt8) (hsize : size ≠ 0) :
    (chunks payload size).flatten = payload := by
  unfold chunks
  rw [flatten_chunks_from]
  refine List.take_of_length_le ?_
  have hdiv := Nat.div_add_mod (payload.length + size - 1) size
  have hmod := Nat.mod_lt (payload.length + size - 1) (Nat.pos_of_ne_zero hsize)
  rw [Nat.mul_comm] at hdiv
  omega

/-- A split payload is the concatenation of its segments: at least one, at most 256. -/
theorem splitPayload_ok {payload : List UInt8} {segments : List (List UInt8)}
    (h : splitPayload payload size = .ok segments) :
    segments.flatten = payload ∧ 0 < segments.length ∧ segments.length ≤ 256 := by
  unfold splitPayload at h
  split_ifs at h with hsize hempty
  · cases h
    rw [List.isEmpty_iff] at hempty
    rw [hempty]
    exact ⟨rfl, by decide, by decide⟩
  · dsimp only at h
    split_ifs at h with hmany
    cases h
    refine ⟨flatten_chunks payload hsize, ?_, by omega⟩
    rw [List.length_pos_iff]
    intro hnone
    have hflat := flatten_chunks payload hsize
    rw [hnone, List.flatten_nil] at hflat
    rw [← hflat] at hempty
    exact hempty rfl

theorem toNat_index {i : ℕ} (h : i < 256) : (UInt8.ofNat i).toNat = i :=
  UInt8.toNat_ofNat_of_lt h

/-! ## Reassembling -/

structure SegmentReceiver where
  segments : List (UInt8 × List UInt8)
  deriving DecidableEq

namespace SegmentReceiver

def new : SegmentReceiver := ⟨[]⟩

def MAX_SEGMENT_SIZE : ℕ := 1476

def receive (receiver : SegmentReceiver) (sequenceNumber : UInt8) (data : List UInt8) :
    Except SegmentationError SegmentReceiver :=
  if data.length > MAX_SEGMENT_SIZE then .error (.segmentTooLarge data.length MAX_SEGMENT_SIZE)
  else .ok ⟨Pairs.insert receiver.segments sequenceNumber data⟩

def receivedCount (receiver : SegmentReceiver) : ℕ := receiver.segments.length

/-- The segments at `indices`, one after another. -/
def gather (receiver : SegmentReceiver) (total : ℕ) :
    List ℕ → Except SegmentationError (List UInt8)
  | [] => .ok []
  | i :: indices =>
    match Pairs.get receiver.segments (UInt8.ofNat i) with
    | some data => (receiver.gather total indices).map (data ++ ·)
    | none => .error (.missingSegment i total)

def reassemble (receiver : SegmentReceiver) (totalSegments : ℕ) :
    Except SegmentationError (List UInt8) :=
  if totalSegments > 256 then .error (.totalTooLarge totalSegments)
  else receiver.gather totalSegments (List.range totalSegments)

/-- The receiver holds `parts`, each under its index. -/
structure Collects (receiver : SegmentReceiver) (parts : List (List UInt8)) : Prop where
  get : ∀ seq, Pairs.get receiver.segments seq = parts[seq.toNat]?
  count : receiver.receivedCount = parts.length
  fits : parts.length ≤ 256

theorem collects_new : Collects new [] :=
  ⟨fun _ => rfl, rfl, by decide⟩

variable {receiver : SegmentReceiver} {parts : List (List UInt8)}

theorem Collects.receive {receiver' : SegmentReceiver} {data : List UInt8}
    (h : Collects receiver parts) (hroom : parts.length < 256)
    (hreceive : receiver.receive (UInt8.ofNat parts.length) data = .ok receiver') :
    Collects receiver' (parts ++ [data]) := by
  unfold SegmentReceiver.receive at hreceive
  split_ifs at hreceive
  cases hreceive
  have hindex : (UInt8.ofNat parts.length).toNat = parts.length :=
    toNat_index hroom
  have hnew : UInt8.ofNat parts.length ∉ receiver.segments.map Prod.fst := by
    intro hmem
    obtain ⟨⟨seq, found⟩, hpair, hseq⟩ := List.mem_map.mp hmem
    have hfree := h.get (UInt8.ofNat parts.length)
    rw [hindex, List.getElem?_eq_none le_rfl] at hfree
    unfold Pairs.get at hfree
    rw [Option.map_eq_none_iff, List.find?_eq_none] at hfree
    exact hfree _ hpair (decide_eq_true hseq)
  refine ⟨?_, ?_, ?_⟩
  · intro seq
    rw [Pairs.get_insert, h.get]
    by_cases hseq : seq = UInt8.ofNat parts.length
    · rw [if_pos hseq, hseq, hindex, List.getElem?_concat_length]
    · rw [if_neg hseq]
      have hother : seq.toNat ≠ parts.length := by
        intro hsame
        apply hseq
        rw [← hsame, UInt8.ofNat_toNat]
      rcases Nat.lt_or_gt_of_ne hother with hlt | hgt
      · rw [List.getElem?_append_left hlt]
      · rw [List.getElem?_eq_none hgt.le, List.getElem?_eq_none]
        rw [List.length_append, List.length_singleton]
        exact hgt
  · show (Pairs.insert receiver.segments _ data).length = _
    unfold Pairs.insert
    rw [Pairs.remove_of_notMem hnew, List.length_cons, List.length_append, List.length_singleton]
    exact congrArg (· + 1) h.count
  · rw [List.length_append, List.length_singleton]
    omega

theorem Collects.gather (h : Collects receiver parts) (total : ℕ) :
    ∀ (taken left : List (List UInt8)),
      parts = taken ++ left →
      receiver.gather total (List.range' taken.length left.length) = .ok left.flatten := by
  intro taken left
  induction left generalizing taken with
  | nil => exact fun _ => rfl
  | cons part left ih =>
    intro hparts
    have hfits := h.fits
    rw [hparts, List.length_append, List.length_cons] at hfits
    have hget := h.get (UInt8.ofNat taken.length)
    have hpart : (taken ++ part :: left)[taken.length]? = some part := by
      rw [List.getElem?_append_right le_rfl, Nat.sub_self]
      rfl
    rw [toNat_index (by omega), hparts, hpart] at hget
    have hrest := ih (taken ++ [part]) (by rw [hparts, List.append_assoc]; rfl)
    rw [List.length_append, List.length_singleton] at hrest
    rw [List.length_cons, List.range'_succ]
    unfold SegmentReceiver.gather
    rw [hget]
    rw [hrest]
    rfl

theorem Collects.reassemble (h : Collects receiver parts) :
    receiver.reassemble parts.length = .ok parts.flatten := by
  unfold SegmentReceiver.reassemble
  have hfits := h.fits
  rw [if_neg (by omega), List.range_eq_range']
  exact h.gather parts.length [] parts rfl

end SegmentReceiver

end RustyBacnet.Segmentation
