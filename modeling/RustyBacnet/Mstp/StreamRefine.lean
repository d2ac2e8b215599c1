import RustyBacnet.Mstp.StreamScan

/-!
# The decoder follows its verdicts

`Holds` relates a decoder to a position of the scanner with `verdicts`: the octets it buffers
behind a delivered frame, and what it has still to skip.

1. `discard_holds`, `skipFrame_holds`, `commitPending_holds`, `takeIn_holds`: the decoder's moves
   over its storage, compaction included, as moves of the position.
2. `tryDecode_reported`, `pushSlice_reported`: one push reports the first verdict; the noise of an
   `Invalid` event is as many verdicts as it drops octets.
3. `feedSlices_feeds`: pushes with their draining are runs of the scanner.
-/

namespace RustyBacnet.Mstp

open Slices Scanner

namespace StreamDecoder

/-- The decoder stands at this position of its stream. -/
structure Holds (d : StreamDecoder) (c : Cursor UInt8) : Prop where
  inBounds : d.start + d.length ≤ d.storage.length
  pending_le : d.pending ≤ d.length
  buffered : d.buffered.drop d.pending = c.buffered
  skip : d.skip = c.skip

/-- Neither the storage's size nor the mode changes. -/
structure SameShape (d d' : StreamDecoder) : Prop where
  capacity : d'.capacity = d.capacity
  reservedCobs : d'.reservedCobs = d.reservedCobs

variable {d d' : StreamDecoder} {c c' : Cursor UInt8}

theorem SameShape.refl (d : StreamDecoder) : SameShape d d := ⟨rfl, rfl⟩

theorem SameShape.trans {d'' : StreamDecoder} (h : SameShape d d') (h' : SameShape d' d'') :
    SameShape d d'' :=
  ⟨h'.capacity.trans h.capacity, h'.reservedCobs.trans h.reservedCobs⟩

theorem Holds.length_buffered (h : d.Holds c) : d.buffered.length = d.length :=
  length_slice h.inBounds

theorem Holds.buffered_eq (h : d.Holds c) (hp : d.pending = 0) : d.buffered = c.buffered := by
  have := h.buffered
  rwa [hp, List.drop_zero] at this

theorem Holds.length_eq (h : d.Holds c) (hp : d.pending = 0) : c.buffered.length = d.length := by
  rw [← h.buffered_eq hp, h.length_buffered]

variable {count : ℕ}

theorem buffered_discard (hcount : count ≤ d.length) :
    (d.discard count).buffered = d.buffered.drop count := by
  unfold buffered discard
  dsimp only
  rw [Nat.min_eq_left hcount, drop_slice]
  split_ifs with hzero
  · rw [hzero, slice_zero, slice_zero]
  · rfl

theorem discard_inBounds (h : d.start + d.length ≤ d.storage.length) (count : ℕ) :
    (d.discard count).start + (d.discard count).length ≤ (d.discard count).storage.length := by
  unfold discard
  dsimp only
  split_ifs <;> omega

theorem discard_holds (h : d.Holds c) (hp : d.pending = 0) (hcount : count ≤ d.length) :
    (d.discard count).Holds (c.advance count) where
  inBounds := discard_inBounds h.inBounds count
  pending_le := by
    show d.pending ≤ _
    omega
  buffered := by
    show (d.discard count).buffered.drop d.pending = _
    rw [hp, List.drop_zero, buffered_discard hcount, h.buffered_eq hp]
    rfl
  skip := by
    have hlen := h.length_eq hp
    show d.skip = c.skip + (count - c.buffered.length)
    rw [h.skip]
    omega

theorem skipFrame_holds {total : ℕ} (h : d.Holds c) (hp : d.pending = 0) (hs : d.skip = 0)
    (e : FrameError) (destination : Option UInt8) :
    (d.skipFrame total e destination).1.Holds (c.advance total) := by
  have hlen := h.length_eq hp
  unfold skipFrame
  split_ifs with hfit
  · exact discard_holds h hp hfit
  · refine ⟨Nat.zero_le _, ?_, ?_, ?_⟩
    · show d.pending ≤ 0
      omega
    · show List.drop d.pending (slice d.storage 0 0) = c.buffered.drop total
      rw [slice_zero, List.drop_nil, List.drop_eq_nil_of_le (by omega)]
    · show total - d.length = c.skip + (total - c.buffered.length)
      rw [← h.skip]
      omega

theorem commitPending_holds (h : d.Holds c) :
    d.commitPending.Holds c ∧ d.commitPending.pending = 0 := by
  unfold commitPending
  split_ifs with hp
  · exact ⟨h, hp⟩
  · refine ⟨⟨discard_inBounds h.inBounds d.pending, Nat.zero_le _, ?_, h.skip⟩, rfl⟩
    show (d.discard d.pending).buffered.drop 0 = _
    rw [List.drop_zero, buffered_discard h.pending_le, h.buffered]

theorem commitPending_sameShape (d : StreamDecoder) : SameShape d d.commitPending := by
  unfold commitPending
  split_ifs
  · exact SameShape.refl d
  · exact ⟨rfl, rfl⟩

/-! ## Compaction -/

theorem take_splice_end {α : Type*} {xs ys : List α} {offset : ℕ} (h : offset ≤ xs.length) :
    (splice xs offset ys).take (offset + ys.length) = xs.take offset ++ ys := by
  have hsplit : ∀ zs : List α, zs.take (offset + ys.length)
      = zs.take offset ++ slice zs offset ys.length := by
    intro zs
    rw [List.take_add]
    rfl
  rw [hsplit, take_splice (Nat.le_refl _) h, slice_splice h]

/-- The pieces that moved so far stand at the front, the rest is as it was. -/
theorem compactLoop_spec {gap stop : ℕ} (hgap : 0 < gap) (fuel : ℕ) (storage : List UInt8) (f : ℕ)
    (hf : gap ≤ f) (hstop : f ≤ stop) (hlen : stop ≤ storage.length) (hfuel : stop - f ≤ fuel) :
    (compactLoop gap stop fuel storage f).length = storage.length ∧
      (compactLoop gap stop fuel storage f).take (stop - gap)
        = storage.take (f - gap) ++ slice storage f (stop - f) := by
  induction fuel generalizing storage f with
  | zero =>
    have : stop = f := by omega
    subst this
    simp [compactLoop]
  | succ fuel ih =>
    unfold compactLoop
    split_ifs with hmore
    · set count := min gap (stop - f) with hcount
      have hpiece : (slice storage f count).length = count := length_slice (by omega)
      set storage' := splice storage (f - gap) (slice storage f count) with hstorage'
      have hlen' : storage'.length = storage.length := length_splice (by omega)
      have hnext := ih storage' (f + count) (by omega) (by omega) (by omega) (by omega)
      refine ⟨hnext.1.trans hlen', ?_⟩
      have htake : storage'.take (f + count - gap) = storage.take (f - gap) ++ slice storage f count := by
        have := @take_splice_end _ storage (slice storage f count) (f - gap) (by omega)
        rwa [hpiece, show f - gap + count = f + count - gap by omega] at this
      have hrest : slice storage' (f + count) (stop - (f + count))
          = slice storage (f + count) (stop - (f + count)) :=
        slice_splice_after (by omega) (by omega)
      rw [hnext.2, htake, hrest, List.append_assoc, ← slice_add]
      congr 2
      omega
    · have : stop = f := by omega
      subst this
      simp

theorem compact_holds (h : d.Holds c) :
    d.compact.Holds c ∧ d.compact.pending = d.pending ∧ d.compact.length = d.length ∧
      d.compact.start = 0 ∧ SameShape d d.compact := by
  unfold compact
  split_ifs with hstart
  · exact ⟨h, rfl, rfl, hstart, SameShape.refl d⟩
  · obtain ⟨hlen, htake⟩ := compactLoop_spec (Nat.pos_of_ne_zero hstart) d.length d.storage d.start
      (Nat.le_refl _) (Nat.le_add_right _ _) h.inBounds (by omega)
    rw [Nat.sub_self, List.take_zero, List.nil_append, Nat.add_sub_cancel_left] at htake
    have hin := h.inBounds
    refine ⟨⟨?_, h.pending_le, ?_, h.skip⟩, rfl, rfl, rfl, ⟨hlen, rfl⟩⟩
    · show 0 + d.length ≤ List.length (compactLoop _ _ _ _ _)
      omega
    · show List.drop d.pending (slice (compactLoop _ _ _ _ _) 0 d.length) = _
      rw [← h.buffered]
      congr 1

theorem takeIn_holds {rest : List UInt8} (h : d.Holds c) (hp : d.pending = 0)
    (hfree : rest.length ≤ d.capacity - d.length) (hc' : c'.buffered = c.buffered ++ rest)
    (hs' : c'.skip = c.skip) :
    (d.takeIn rest).Holds c' ∧ (d.takeIn rest).pending = 0 ∧ SameShape d (d.takeIn rest) := by
  have hin := h.inBounds
  -- Once there is room behind the buffered octets, the copy appends to them.
  have happend : ∀ e : StreamDecoder, e.Holds c → e.pending = 0 →
      e.start + e.length + rest.length ≤ e.storage.length → SameShape d e →
      StreamDecoder.Holds { e with
        storage := splice e.storage (e.start + e.length) rest
        length := e.length + rest.length } c' ∧ e.pending = 0 ∧
      SameShape d { e with
        storage := splice e.storage (e.start + e.length) rest
        length := e.length + rest.length } := by
    intro e he hep hroom hshape
    have hlen : (splice e.storage (e.start + e.length) rest).length = e.storage.length :=
      length_splice hroom
    refine ⟨⟨?_, ?_, ?_, ?_⟩, hep, ⟨hlen.trans hshape.capacity, hshape.reservedCobs⟩⟩
    · show e.start + (e.length + rest.length) ≤ List.length (splice _ _ _)
      omega
    · show e.pending ≤ e.length + rest.length
      omega
    · show List.drop e.pending (slice (splice _ _ _) e.start (e.length + rest.length)) = _
      rw [hep, List.drop_zero, slice_add, slice_splice (by omega),
        slice_splice_before (Nat.le_refl _) (by omega), hc', ← he.buffered_eq hep]
      rfl
    · exact he.skip.trans hs'.symm
  have hcap : d.capacity = d.storage.length := rfl
  unfold takeIn
  split_ifs with hfull
  · obtain ⟨hcompact, hcp, hclen, hcstart, hcshape⟩ := compact_holds h
    have hccap : d.compact.storage.length = d.storage.length := hcshape.capacity
    exact happend d.compact hcompact (hcp.trans hp) (by omega) hcshape
  · exact happend d h hp (by omega) (SameShape.refl d)

/-! ## One push -/

def eventItems : DecodeEvent → List Item
  | .needMore => []
  | .frame frame consumed => [.frame frame consumed]
  | .invalid count => List.replicate count .noise
  | .malformed count error destination => [.malformed count error destination]
  | .error _ => []

/-- From the first position the decoder reported the event, and stands at the second. -/
structure Reported (d : StreamDecoder) (c : Cursor UInt8) (d' : StreamDecoder)
    (event : DecodeEvent) (c' : Cursor UInt8) : Prop where
  holds : d'.Holds c'
  sameShape : SameShape d d'
  reports : Reports (verdicts d.capacity d.reservedCobs) c (eventItems event) c'
  waits : event = .needMore →
    d'.pending = 0 ∧ verdict d.capacity d.reservedCobs c'.buffered = none
  shrinks : event ≠ .needMore → c'.buffered.length < c.buffered.length

theorem Reported.of_wait (h : d.Holds c) (hp : d.pending = 0)
    (hv : verdict d.capacity d.reservedCobs c.buffered = none) : Reported d c d .needMore c :=
  ⟨h, SameShape.refl d, Reports.refl, fun _ => ⟨hp, hv⟩, fun hne => absurd rfl hne⟩

variable {event : DecodeEvent}

theorem Reported.of_verdict {item : Item} {n : ℕ} (h : d'.Holds (c.advance n))
    (hshape : SameShape d d') (hv : verdict d.capacity d.reservedCobs c.buffered = some (item, n))
    (hitems : eventItems event = [item]) (hn : 0 < n) (hne : c.buffered ≠ []) :
    Reported d c d' event (c.advance n) := by
  refine ⟨h, hshape, ?_, ?_, ?_⟩
  · rw [hitems]
    exact Reports.single hv
  · rintro rfl
    exact absurd hitems (by simp [eventItems])
  · intro _
    have := List.length_pos_iff.mpr hne
    simp only [Cursor.advance, List.length_drop]
    omega

/-- The octets of an `Invalid` event could not start a preamble. -/
theorem noiseLength_spec {first : UInt8} {rest : List UInt8} :
    0 < noiseLength (first :: rest) ∧ noiseLength (first :: rest) ≤ (first :: rest).length ∧
      0x55 ∉ rest.take (noiseLength (first :: rest) - 1) := by
  unfold noiseLength
  rw [List.drop_succ_cons, List.drop_zero]
  cases hidx : rest.findIdx? (· == 0x55) with
  | none =>
    rw [List.findIdx?_eq_none_iff] at hidx
    refine ⟨by simp, Nat.le_refl _, ?_⟩
    intro hmem
    have := hidx _ (List.mem_of_mem_take hmem)
    simp at this
  | some index =>
    obtain ⟨hlt, _, hbefore⟩ := List.findIdx?_eq_some_iff_getElem.mp hidx
    refine ⟨Nat.succ_pos _, by simpa using hlt.le, ?_⟩
    intro hmem
    rw [Nat.add_sub_cancel] at hmem
    obtain ⟨j, hj, heq⟩ := List.mem_iff_getElem.mp hmem
    rw [List.length_take] at hj
    have hno := hbefore j (by omega)
    rw [List.getElem_take] at heq
    rw [heq] at hno
    simp at hno

theorem tryDecode_reported (h : d.Holds c) (hp : d.pending = 0)
    (hroom : dataOffset ≤ d.capacity ∨ 0x55 ∉ c.buffered) :
    ∃ c', Reported d c d.tryDecode.1 (d.tryDecode.1.toEvent d.tryDecode.2) c' := by
  have hbuf := h.buffered_eq hp
  have hlen := h.length_eq hp
  have hcap : c.buffered.length ≤ d.capacity := by
    have := h.inBounds
    rw [hlen]
    show d.length ≤ d.storage.length
    omega
  unfold tryDecode
  simp only [hbuf]
  by_cases hnil : c.buffered = []
  · simp only [if_pos hnil]
    exact ⟨c, Reported.of_wait h hp (by rw [hnil]; rfl)⟩
  have hs : d.skip = 0 := by
    by_contra hs
    exact hnil (c.skip_empty (by rwa [← h.skip]))
  simp only [if_neg hnil]
  by_cases hmay : mayStartPreamble c.buffered = true
  swap
  · -- Noise: the first octet by itself, the others because none of them is `0x55`.
    simp only [hmay, Bool.false_eq_true, not_false_eq_true, if_true]
    obtain ⟨first, rest, hcons⟩ := List.exists_cons_of_ne_nil hnil
    obtain ⟨hpos, hle, hnoise⟩ := @noiseLength_spec first rest
    rw [← hcons] at hpos hle hnoise
    set n := noiseLength c.buffered with hn
    have hfirst : verdict d.capacity d.reservedCobs c.buffered = some (.noise, 1) := by
      unfold verdict
      rw [if_neg hnil, if_neg hmay]
    have hrest : (c.advance 1).buffered = rest := by simp [Cursor.advance, hcons]
    refine ⟨c.advance n, discard_holds h hp (by omega), ⟨rfl, rfl⟩, ?_, ?_, ?_⟩
    · obtain ⟨k, hk⟩ : ∃ k, n = 1 + k := ⟨n - 1, by omega⟩
      show Reports _ c (List.replicate n Item.noise) _
      rw [hk, Cursor.advance_add k (by omega), List.replicate_add]
      refine Reports.item hfirst (reports_noise k _ ?_ ?_)
      · rw [hrest]
        rw [hcons, List.length_cons] at hle
        omega
      · rw [hrest]
        rwa [hk, Nat.add_sub_cancel_left] at hnoise
    · intro hev
      exact absurd hev (by simp [toEvent])
    · intro _
      simp only [Cursor.advance, List.length_drop]
      omega
  have hv : verdict d.capacity d.reservedCobs c.buffered
      = headerVerdict d.capacity d.reservedCobs c.buffered := by
    unfold verdict
    rw [if_neg hnil, if_pos hmay]
  have hwait : dataOffset ≤ d.capacity := by
    refine hroom.resolve_right (fun hno => hno ?_)
    obtain ⟨first, rest, hcons⟩ := List.exists_cons_of_ne_nil hnil
    rw [hcons] at hmay ⊢
    simp only [mayStartPreamble, Bool.and_eq_true, beq_iff_eq] at hmay
    rw [hmay.1]
    exact List.mem_cons_self
  have hoff : ∀ n, 0 < wireLength n := fun n =>
    Nat.lt_of_lt_of_le (by decide) (dataOffset_le_wireLength n)
  simp only [hmay, not_true_eq_false, if_false]
  cases hcheck : checkFrame c.buffered d.reservedCobs with
  | ok valid =>
    obtain ⟨hvalid, hoffset, hconsumed⟩ := headerVerdict_valid hcap hcheck
    have hdlen := length_decodeExtendedInPlace hoffset hconsumed
    have hin := h.inBounds
    have hfit : d.start + (decodeExtendedInPlace c.buffered valid).length ≤ d.storage.length := by
      omega
    have hread : slice (splice d.storage d.start (decodeExtendedInPlace c.buffered valid)) d.start
        d.length = decodeExtendedInPlace c.buffered valid := by
      rw [← hlen, ← hdlen]
      exact slice_splice (by omega)
    refine ⟨c.advance valid.consumed,
      Reported.of_verdict ⟨?_, ?_, ?_, ?_⟩ ⟨length_splice hfit, rfl⟩ (hv.trans hvalid) ?_
        (by unfold dataOffset at hoffset; omega) hnil⟩
    · show d.start + d.length ≤ List.length (splice _ _ _)
      rw [length_splice hfit]
      exact hin
    · show valid.consumed ≤ d.length
      omega
    · show List.drop valid.consumed (slice _ d.start d.length) = _
      rw [hread, drop_decodeExtendedInPlace hoffset hconsumed]
      rfl
    · show d.skip = c.skip + (valid.consumed - c.buffered.length)
      rw [← h.skip]
      omega
    · show [Item.frame ⟨valid.header, ((slice _ d.start d.length).drop dataOffset).take
        valid.dataLength⟩ valid.consumed] = _
      rw [hread]
  | error e =>
    have hrefused := hv.trans (headerVerdict_refused hcap hcheck)
    have hdiscard : refusal d.capacity e c.buffered
        = some (.malformed 1 e (errorDestination e c.buffered), 1) →
        ∃ c', Reported d c (d.discard 1) (.malformed 1 e (errorDestination e c.buffered)) c' := by
      intro hone
      have hpos := List.length_pos_iff.mpr hnil
      exact ⟨c.advance 1, Reported.of_verdict (discard_holds h hp (by omega)) ⟨rfl, rfl⟩
        (hrefused.trans hone) rfl Nat.one_pos hnil⟩
    have hskip : ∀ (n : ℕ) (e' : FrameError) (destination : Option UInt8),
        refusal d.capacity e c.buffered
          = some (.malformed (wireLength n) e' destination, wireLength n) →
        ∃ c', Reported d c (d.skipFrame (wireLength n) e' destination).1
          (.malformed (wireLength n) e' destination) c' := by
      intro n e' destination hverdict
      refine ⟨c.advance (wireLength n), Reported.of_verdict (skipFrame_holds h hp hs e' destination)
        ?_ (hrefused.trans hverdict) rfl (hoff n) hnil⟩
      unfold skipFrame
      split_ifs <;> exact ⟨rfl, rfl⟩
    cases e with
    | tooShort n m =>
      have hn := checkFrame_tooShort hcheck
      simp only [waitForHeader, if_pos (hn ▸ hwait)]
      exact ⟨c, Reported.of_wait h hp hrefused⟩
    | truncated length m =>
      by_cases hfit : wireLength length ≤ d.capacity
      · simp only [if_pos hfit]
        refine ⟨c, Reported.of_wait h hp (hrefused.trans ?_)⟩
        simp [refusal, hfit]
      · simp only [if_neg hfit]
        exact hskip length _ _ (by simp [refusal, hfit])
    | unsupportedCobsFrame raw =>
      have hdeclared : d.declaredLength = u16FromBe (c.buffered.getD lengthIndex 0)
          (c.buffered.getD (lengthIndex + 1) 0) := by
        unfold declaredLength
        rw [hbuf]
      simp only [hdeclared]
      exact hskip _ _ _ rfl
    | dataCrcMismatch length => exact hskip length _ _ rfl
    | _ => exact hdiscard rfl

variable {input : List UInt8}

/-- A push that fits takes its input, then reports the first verdict. -/
theorem pushSlice_reported (h : d.Holds c)
    (hroom : dataOffset ≤ d.capacity ∨ 0x55 ∉ (c.push input).buffered)
    (hfits : (d.pushSlice input).2.isError = false) :
    ∃ c', Reported d (c.push input) (d.pushSlice input).1 (d.pushSlice input).2 c' := by
  obtain ⟨hcommit, hp⟩ := commitPending_holds h
  have hshape := commitPending_sameShape d
  set d₀ := d.commitPending with hd₀
  have hdrop : input.drop (min d₀.skip input.length) = input.drop c.skip := by
    rw [hcommit.skip]
    rcases Nat.le_total c.skip input.length with hle | hle
    · rw [Nat.min_eq_left hle]
    · rw [Nat.min_eq_right hle, List.drop_length, List.drop_eq_nil_of_le hle]
  by_cases hfull : d₀.capacity - d₀.length < (input.drop (min d₀.skip input.length)).length
  · unfold pushSlice at hfits
    simp only [← hd₀, if_pos hfull] at hfits
    exact absurd hfits (by simp [DecodeEvent.isError])
  have hpush : d.pushSlice input =
      ((({ d₀ with skip := d₀.skip - min d₀.skip input.length } : StreamDecoder).takeIn
          (input.drop (min d₀.skip input.length))).tryDecode.1,
        (({ d₀ with skip := d₀.skip - min d₀.skip input.length } : StreamDecoder).takeIn
          (input.drop (min d₀.skip input.length))).tryDecode.1.toEvent
          (({ d₀ with skip := d₀.skip - min d₀.skip input.length } : StreamDecoder).takeIn
            (input.drop (min d₀.skip input.length))).tryDecode.2) := by
    unfold pushSlice
    simp only [← hd₀, if_neg hfull]
  set d₁ : StreamDecoder := { d₀ with skip := d₀.skip - min d₀.skip input.length } with hd₁
  -- The same position, less the part of the skip that arrived.
  have hskip₁ : c.skip - input.length ≠ 0 → c.buffered = [] := fun hne =>
    c.skip_empty (by omega)
  have h₁ : d₁.Holds ⟨c.buffered, c.skip - input.length, hskip₁⟩ := by
    refine ⟨hcommit.inBounds, hcommit.pending_le, hcommit.buffered, ?_⟩
    show d₀.skip - min d₀.skip input.length = c.skip - input.length
    rw [hcommit.skip]
    omega
  have hbuf : (c.push input).buffered = c.buffered ++ input.drop (min d₀.skip input.length) := by
    rw [hdrop]
    rfl
  obtain ⟨hin, hpin, hinShape⟩ := takeIn_holds h₁ hp (Nat.not_lt.mp hfull) hbuf rfl
  set d₂ := d₁.takeIn (input.drop (min d₀.skip input.length)) with hd₂
  have hshape₂ : SameShape d d₂ :=
    SameShape.trans (show SameShape d d₁ from ⟨hshape.capacity, hshape.reservedCobs⟩) hinShape
  obtain ⟨c', hrep⟩ := tryDecode_reported hin hpin (by rw [hshape₂.capacity]; exact hroom)
  rw [hpush]
  refine ⟨c', hrep.holds, hshape₂.trans hrep.sameShape, ?_, ?_, hrep.shrinks⟩
  · rw [← hshape₂.capacity, ← hshape₂.reservedCobs]
    exact hrep.reports
  · rw [← hshape₂.capacity, ← hshape₂.reservedCobs]
    exact hrep.waits

theorem isError_toEvent (event : InternalEvent) : (d.toEvent event).isError = false := by
  cases event <;> rfl

theorem pushSlice_nil_fits (d : StreamDecoder) : (d.pushSlice []).2.isError = false := by
  unfold pushSlice
  simp only [List.drop_nil, List.length_nil, Nat.not_lt_zero, if_false]
  exact isError_toEvent _

/-! ## Draining -/

theorem notMem_of_reports {capacity : ℕ} {reservedCobs : Bool} {items : List Item}
    (h : Reports (verdicts capacity reservedCobs) c items c') (hno : (0x55 : UInt8) ∉ c.buffered) :
    (0x55 : UInt8) ∉ c'.buffered :=
  fun hmem => hno (h.suffix.subset hmem)

/-- Draining reports every verdict until the decoder waits: the steps allowed for are enough. -/
theorem drain_scans {d₀ : StreamDecoder} {c₀ : Cursor UInt8} (fuel : ℕ) (d : StreamDecoder)
    (event : DecodeEvent) (c : Cursor UInt8) (h : Reported d₀ c₀ d event c)
    (hroom : dataOffset ≤ d₀.capacity ∨ 0x55 ∉ c₀.buffered)
    (hfuel : event = .needMore ∨ c.buffered.length < fuel) :
    ∃ c', (drain fuel d event).1.Holds c' ∧ (drain fuel d event).1.pending = 0 ∧
      SameShape d₀ (drain fuel d event).1 ∧
      Scans (verdicts d₀.capacity d₀.reservedCobs) c₀
        ((drain fuel d event).2.flatMap eventItems) c' ∧
      (drain fuel d event).2.getLast? = some .needMore := by
  induction fuel generalizing d₀ c₀ d event c with
  | zero =>
    obtain rfl := hfuel.resolve_right (Nat.not_lt_zero _)
    obtain ⟨hp, hwait⟩ := h.waits rfl
    have hscan := h.reports.scans (Scans.wait hwait)
    refine ⟨c, h.holds, hp, h.sameShape, ?_, rfl⟩
    simpa [drain, eventItems] using hscan
  | succ fuel ih =>
    by_cases hev : event = .needMore
    · subst hev
      obtain ⟨hp, hwait⟩ := h.waits rfl
      have hscan := h.reports.scans (Scans.wait hwait)
      refine ⟨c, by simpa [drain] using h.holds, by simpa [drain] using hp,
        by simpa [drain] using h.sameShape, ?_, by simp [drain]⟩
      simpa [drain, eventItems] using hscan
    · have hlen := hfuel.resolve_left hev
      have hroom' : dataOffset ≤ d.capacity ∨ 0x55 ∉ (c.push []).buffered := by
        rw [Cursor.push_nil, h.sameShape.capacity]
        exact hroom.imp_right (notMem_of_reports h.reports)
      obtain ⟨c₁, hrep⟩ := pushSlice_reported h.holds hroom' (pushSlice_nil_fits d)
      rw [Cursor.push_nil] at hrep hroom'
      obtain ⟨c', hholds, hp, hshape, hscan, hlast⟩ := ih _ _ c₁ hrep hroom' (by
        by_cases hnext : (d.pushSlice []).2 = .needMore
        · exact .inl hnext
        · have := hrep.shrinks hnext
          exact .inr (by omega))
      rw [h.sameShape.capacity, h.sameShape.reservedCobs] at hscan
      simp only [drain, if_neg hev]
      refine ⟨c', hholds, hp, h.sameShape.trans hshape, ?_, ?_⟩
      · rw [List.flatMap_cons]
        exact h.reports.scans hscan
      · rw [List.getLast?_cons, hlast]
        rfl

theorem Reported.length_le (h : Reported d c d' event c') : c'.buffered.length ≤ d.capacity := by
  have hin := h.holds.inBounds
  have hlen := congrArg List.length h.holds.buffered
  rw [List.length_drop, h.holds.length_buffered] at hlen
  have hcap : d'.storage.length = d.capacity := h.sameShape.capacity
  omega

/-- A push that fits and its draining are one scan, which ends at `NeedMore`. -/
theorem feedSlice_scans (h : d.Holds c)
    (hroom : dataOffset ≤ d.capacity ∨ 0x55 ∉ (c.push input).buffered)
    (hfits : (d.pushSlice input).2.isError = false) :
    ∃ c', (d.feedSlice input).1.Holds c' ∧ (d.feedSlice input).1.pending = 0 ∧
      SameShape d (d.feedSlice input).1 ∧
      Scans (verdicts d.capacity d.reservedCobs) (c.push input)
        ((d.feedSlice input).2.flatMap eventItems) c' ∧
      (d.feedSlice input).2.getLast? = some .needMore := by
  obtain ⟨c₁, hrep⟩ := pushSlice_reported h hroom hfits
  exact drain_scans (d.capacity + 2) _ _ c₁ hrep hroom (.inr (by
    have := hrep.length_le
    omega))

theorem head_mem_drain (fuel : ℕ) (d : StreamDecoder) (event : DecodeEvent) :
    event ∈ (drain fuel d event).2 := by
  cases fuel with
  | zero => exact List.mem_singleton_self _
  | succ fuel =>
    unfold drain
    split_ifs
    · exact List.mem_singleton_self _
    · exact List.mem_cons_self

/-- Slices that all fit, each drained, are a run of the scanner over the pieces. -/
theorem feedSlices_feeds {slices : List (List UInt8)} (h : d.Holds c) (hp : d.pending = 0)
    (hroom : dataOffset ≤ d.capacity ∨
      (0x55 ∉ c.buffered ∧ ∀ slice ∈ slices, (0x55 : UInt8) ∉ slice))
    (hfits : ∀ event ∈ (d.feedSlices slices).2, event.isError = false) :
    ∃ c', (d.feedSlices slices).1.Holds c' ∧ (d.feedSlices slices).1.pending = 0 ∧
      Feeds (verdicts d.capacity d.reservedCobs) c slices
        ((d.feedSlices slices).2.flatMap eventItems) c' := by
  induction slices generalizing d c with
  | nil => exact ⟨c, h, hp, Feeds.nil⟩
  | cons slice slices ih =>
    simp only [feedSlices, List.mem_append] at hfits ⊢
    have hpush : (d.pushSlice slice).2.isError = false := hfits _ (.inl (head_mem_drain _ _ _))
    have hroom₁ : dataOffset ≤ d.capacity ∨ 0x55 ∉ (c.push slice).buffered := by
      refine hroom.imp_right (fun hno hmem => ?_)
      rcases List.mem_append.mp hmem with hmem | hmem
      · exact hno.1 hmem
      · exact hno.2 slice List.mem_cons_self (List.mem_of_mem_drop hmem)
    obtain ⟨c₁, hholds, hp₁, hshape, hscan, -⟩ := feedSlice_scans h hroom₁ hpush
    obtain ⟨c', hholds', hp', hfeeds⟩ := ih hholds hp₁ (by
      rw [hshape.capacity]
      by_cases hcap : dataOffset ≤ d.capacity
      · exact .inl hcap
      · have hno := hroom.resolve_left hcap
        exact .inr ⟨fun hmem => hroom₁.resolve_left hcap (hscan.suffix.subset hmem),
          fun s hs => hno.2 s (List.mem_cons_of_mem _ hs)⟩) (fun event hev => hfits event (.inr hev))
    rw [hshape.capacity, hshape.reservedCobs] at hfeeds
    refine ⟨c', hholds', hp', ?_⟩
    rw [List.flatMap_append]
    exact Feeds.cons hscan hfeeds

end StreamDecoder

end RustyBacnet.Mstp
