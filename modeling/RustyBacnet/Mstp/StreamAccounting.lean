import RustyBacnet.Mstp.StreamLaws

/-!
# No octet is lost, and the decoder never wedges

Every octet a decoder accepts is reported once: as part of a frame, or as discarded. A dropped frame
is reported whole when it is dropped, and what is still to come of it is what the decoder skips, so
that at every point the octets accepted and those to skip are those reported and those held.

1. `tryDecode_spec`: what one look at the buffered octets does to the account, and that it either
   waits with room left or takes octets away.
2. `pushSlice_spec`: the same of one push; a refused one only commits the frame delivered before.
3. `pushes_account`, `pushes_drain`: of any run of pushes.
-/

namespace RustyBacnet.Mstp

open Slices

def DecodeEvent.count : DecodeEvent → ℕ
  | .frame _ consumed => consumed
  | .invalid discard => discard
  | .malformed discard _ _ => discard
  | .needMore | .error _ => 0

namespace StreamDecoder

variable {d d' : StreamDecoder}

def held (d : StreamDecoder) : ℕ := d.length - d.pending

/-- What every decoder keeps. -/
structure Stocked (d : StreamDecoder) : Prop where
  inBounds : d.start + d.length ≤ d.capacity
  pending_le : d.pending ≤ d.length
  /-- Octets to be skipped are never buffered. -/
  skipping : d.skip ≠ 0 → d.length = 0

theorem Stocked.length_buffered (h : d.Stocked) : d.buffered.length = d.length :=
  length_slice h.inBounds

/-! ## One look at the buffered octets -/

/-- What a look at the buffered octets does. -/
structure Looks (d d' : StreamDecoder) (event : DecodeEvent) : Prop where
  stocked : d'.Stocked
  capacity : d'.capacity = d.capacity
  fits : event.isError = false
  account : d'.skip + d.length = event.count + d'.held + d.skip
  waits : event = .needMore → 0 < d.capacity → d'.length < d.capacity
  takes : event ≠ .needMore → d'.held < d.length

theorem Looks.of_wait (h : d.Stocked) (hp : d.pending = 0) (hroom : 0 < d.capacity → d.length < d.capacity) :
    d.Looks d .needMore where
  stocked := h
  capacity := rfl
  fits := rfl
  account := by
    show d.skip + d.length = 0 + (d.length - d.pending) + d.skip
    omega
  waits := fun _ => hroom
  takes := fun hne => absurd rfl hne

theorem Looks.of_discard (h : d.Stocked) (hp : d.pending = 0) {event : DecodeEvent}
    (hpos : 0 < event.count) (hle : event.count ≤ d.length) (hfits : event.isError = false) :
    d.Looks (d.discard event.count) event := by
  have hin := h.inBounds
  have hmin : min event.count d.length = event.count := Nat.min_eq_left hle
  have hheld : (d.discard event.count).held = d.length - event.count := by
    unfold held discard
    rw [hmin, hp, Nat.sub_zero]
  refine ⟨⟨discard_inBounds hin _, ?_, ?_⟩, rfl, hfits, ?_, ?_, ?_⟩
  · show d.pending ≤ _
    rw [hp]
    exact Nat.zero_le _
  · intro hskip
    show d.length - _ = 0
    rw [h.skipping hskip, Nat.zero_sub]
  · rw [hheld]
    show d.skip + _ = _
    omega
  · rintro rfl
    exact absurd hpos (Nat.lt_irrefl 0)
  · intro _
    rw [hheld]
    omega

theorem Looks.of_skip (h : d.Stocked) (hp : d.pending = 0) (hs : d.skip = 0) (hpos : 0 < d.length)
    {total : ℕ} (htotal : 0 < total) (error : FrameError) (destination : Option UInt8) :
    d.Looks (d.skipFrame total error destination).1 (.malformed total error destination) := by
  unfold skipFrame
  by_cases hfit : total ≤ d.length
  · rw [if_pos hfit]
    exact @Looks.of_discard d h hp (.malformed total error destination) htotal hfit rfl
  · rw [if_neg hfit]
    refine ⟨⟨Nat.zero_le _, ?_, fun _ => rfl⟩, rfl, rfl, ?_, ?_, ?_⟩
    · show d.pending ≤ 0
      exact Nat.le_of_eq hp
    · show total - d.length + d.length = total + (0 - d.pending) + d.skip
      omega
    · intro hneed
      cases hneed
    · intro _
      show 0 - d.pending < d.length
      omega

theorem declared_pos (length : ℕ) : 0 < wireLength length :=
  Nat.lt_of_lt_of_le (by decide) (dataOffset_le_wireLength length)

variable {reservedCobs : Bool} {buf : List UInt8}

theorem checkFrame_truncated {n m : ℕ} (h : checkFrame buf reservedCobs = .error (.truncated n m)) :
    buf.length < wireLength n := by
  unfold checkFrame at h
  split at h
  · rename_i e hheader
    rw [Except.error.inj h] at hheader
    rcases checkHeader_error hheader with ⟨k, hk⟩ | ⟨a, b, hk⟩ | hk | hk | ⟨k, hk⟩ |
      ⟨k, l, hk⟩ | ⟨raw, hk⟩
    all_goals cases hk
  · dsimp only at h
    split_ifs at h with hshort
    · rw [← (FrameError.truncated.inj (Except.error.inj h)).1]
      exact hshort
    · split at h
      · rename_i e hbody
        rw [checkBody_error hbody] at h
        cases h
      · cases h

theorem checkFrame_tooShort_length {n m : ℕ}
    (h : checkFrame buf reservedCobs = .error (.tooShort n m)) : buf.length < n := by
  have hn := checkFrame_tooShort h
  rw [hn]
  by_contra hlong
  unfold checkFrame at h
  split at h
  · rename_i e hheader
    unfold checkHeader at hheader
    rw [if_neg hlong] at hheader
    rw [Except.error.inj h] at hheader
    by_cases hpre : buf.take preamble.length ≠ preamble
    · rw [if_pos hpre] at hheader
      cases hheader
    rw [if_neg hpre] at hheader
    by_cases hcrc : ¬crc8Valid ((buf.take dataOffset).drop preamble.length) = true
    · rw [if_pos hcrc] at hheader
      cases hheader
    rw [if_neg hcrc] at hheader
    dsimp only at hheader
    split at hheader
    · split_ifs at hheader
      cases hheader
    · rename_i e' _ hfields
      rw [Except.error.inj hheader] at hfields
      rcases checkHeaderFields_error hfields with he | ⟨k, he⟩ | ⟨k, l, he⟩ | ⟨raw, he⟩
      all_goals cases he
    · cases hheader
  · dsimp only at h
    split_ifs at h
    · cases h
    · split at h
      · rename_i e hbody
        rw [checkBody_error hbody] at h
        cases h
      · cases h

/-- A look at the buffered octets waits with room left, or takes octets away and says how many. -/
theorem tryDecode_spec (h : d.Stocked) (hp : d.pending = 0) :
    d.Looks d.tryDecode.1 (d.tryDecode.1.toEvent d.tryDecode.2) := by
  have hlen := h.length_buffered
  have hin := h.inBounds
  unfold tryDecode
  by_cases hnil : d.buffered = []
  · rw [if_pos hnil]
    have hzero : d.length = 0 := by rw [← hlen, hnil, List.length_nil]
    exact Looks.of_wait h hp fun hcap => by rw [hzero]; exact hcap
  rw [if_neg hnil]
  have hpos : 0 < d.length := by
    rw [← hlen]
    exact List.length_pos_iff.mpr hnil
  have hs : d.skip = 0 := by
    by_contra hs
    exact absurd (h.skipping hs) (Nat.ne_of_gt hpos)
  have hone : ∀ (error : FrameError) (destination : Option UInt8),
      d.Looks (d.discard 1) (.malformed 1 error destination) := fun error destination =>
    @Looks.of_discard d h hp (.malformed 1 error destination) Nat.one_pos hpos rfl
  by_cases hmay : mayStartPreamble d.buffered = true
  swap
  · rw [if_pos hmay]
    obtain ⟨first, rest, hcons⟩ := List.exists_cons_of_ne_nil hnil
    obtain ⟨hnoise, hle, -⟩ := @noiseLength_spec first rest
    rw [← hcons, hlen] at hle
    rw [← hcons] at hnoise
    exact @Looks.of_discard d h hp (.invalid (noiseLength d.buffered)) hnoise hle rfl
  rw [if_neg (not_not_intro hmay)]
  cases hcheck : checkFrame d.buffered d.reservedCobs with
  | ok valid =>
    obtain ⟨-, hoffset, hconsumed⟩ := headerVerdict_valid (Nat.le_refl _) hcheck
    have hoctets := length_decodeExtendedInPlace hoffset hconsumed
    rw [hlen] at hconsumed hoctets
    have hsize : (splice d.storage d.start (decodeExtendedInPlace d.buffered valid)).length
        = d.capacity := length_splice (by rw [hoctets]; exact hin)
    have hconsumes : 0 < valid.consumed := Nat.lt_of_lt_of_le (by decide) hoffset
    refine ⟨⟨?_, hconsumed, h.skipping⟩, hsize, rfl, ?_, ?_, ?_⟩
    · show d.start + d.length ≤ (splice _ _ _).length
      rw [hsize]
      exact hin
    · show d.skip + d.length = valid.consumed + (d.length - valid.consumed) + d.skip
      omega
    · intro hneed
      cases hneed
    · intro _
      show d.length - valid.consumed < d.length
      omega
  | error error =>
    have hskip : ∀ (length : ℕ) (error : FrameError) (destination : Option UInt8),
        d.Looks (d.skipFrame (wireLength length) error destination).1
          (.malformed (wireLength length) error destination) := fun length error destination =>
      Looks.of_skip h hp hs hpos (declared_pos length) error destination
    cases error with
    | tooShort needed available =>
      have hshort := checkFrame_tooShort_length hcheck
      rw [hlen] at hshort
      unfold waitForHeader
      dsimp only
      split_ifs with hfit
      · exact Looks.of_wait h hp fun _ => Nat.lt_of_lt_of_le hshort hfit
      · exact hone _ _
    | truncated length available =>
      have hshort := checkFrame_truncated hcheck
      rw [hlen] at hshort
      dsimp only
      split_ifs with hfit
      · exact Looks.of_wait h hp fun _ => Nat.lt_of_lt_of_le hshort hfit
      · exact hskip length _ _
    | unsupportedCobsFrame raw => exact hskip d.declaredLength _ _
    | dataCrcMismatch length => exact hskip length _ _
    | _ => exact hone _ _

/-! ## One push -/

theorem Stocked.commit (h : d.Stocked) :
    d.commitPending.Stocked ∧ d.commitPending.pending = 0 ∧
      d.commitPending.length = d.held ∧ d.commitPending.skip = d.skip ∧
      d.commitPending.capacity = d.capacity ∧
      d.commitPending.buffered = d.buffered.drop d.pending := by
  unfold commitPending
  split_ifs with hp
  · refine ⟨h, hp, ?_, rfl, rfl, ?_⟩
    · unfold held
      rw [hp, Nat.sub_zero]
    · rw [hp, List.drop_zero]
  · have hmin : min d.pending d.length = d.pending := Nat.min_eq_left h.pending_le
    refine ⟨⟨discard_inBounds h.inBounds _, Nat.zero_le _, fun hs => ?_⟩, rfl, ?_, rfl, rfl,
      buffered_discard h.pending_le⟩
    · show d.length - _ = 0
      rw [h.skipping hs, Nat.zero_sub]
    · show d.length - _ = d.length - d.pending
      rw [hmin]

/-- Octets copied in are buffered behind the others, wherever those were. -/
theorem Stocked.takeIn (h : d.Stocked) (hp : d.pending = 0) {rest : List UInt8}
    (hroom : d.length + rest.length ≤ d.capacity) (hskip : d.skip ≠ 0 → rest = []) :
    (d.takeIn rest).Stocked ∧ (d.takeIn rest).pending = 0 ∧
      (d.takeIn rest).length = d.length + rest.length ∧ (d.takeIn rest).skip = d.skip ∧
      (d.takeIn rest).capacity = d.capacity := by
  have hin := h.inBounds
  have happend : ∀ e : StreamDecoder, e.pending = 0 → e.length = d.length → e.skip = d.skip →
      e.capacity = d.capacity → e.start + e.length + rest.length ≤ e.capacity →
      Stocked { e with
        storage := splice e.storage (e.start + e.length) rest
        length := e.length + rest.length } ∧
      capacity { e with
        storage := splice e.storage (e.start + e.length) rest
        length := e.length + rest.length } = d.capacity := by
    intro e hep hlen hes hcap hfits
    have hsize : (splice e.storage (e.start + e.length) rest).length = e.capacity :=
      length_splice hfits
    refine ⟨⟨?_, ?_, ?_⟩, hsize.trans hcap⟩
    · show e.start + (e.length + rest.length) ≤ (splice _ _ _).length
      rw [hsize]
      omega
    · show e.pending ≤ _
      rw [hep]
      exact Nat.zero_le _
    · intro hs
      rw [hes] at hs
      show e.length + rest.length = 0
      rw [hlen, h.skipping hs, hskip hs]
      rfl
  unfold StreamDecoder.takeIn
  by_cases hfull : d.capacity < d.start + d.length + rest.length
  · rw [if_pos hfull]
    have hmoved : d.compact.length = d.length ∧ d.compact.start = 0 ∧ d.compact.pending = d.pending ∧
        d.compact.skip = d.skip ∧ d.compact.capacity = d.capacity := by
      unfold compact
      split_ifs with hstart
      · exact ⟨rfl, hstart, rfl, rfl, rfl⟩
      · exact ⟨rfl, rfl, rfl, rfl, (compactLoop_spec (Nat.pos_of_ne_zero hstart) d.length d.storage
          d.start (Nat.le_refl _) (Nat.le_add_right _ _) hin (by omega)).1⟩
    obtain ⟨hlen, hstart, hpending, hs, hcap⟩ := hmoved
    obtain ⟨hstocked, hsize⟩ := happend d.compact (hpending.trans hp) hlen hs hcap
      (by rw [hstart, hlen, hcap]; omega)
    exact ⟨hstocked, hpending.trans hp, congrArg (· + rest.length) hlen, hs, hsize⟩
  · rw [if_neg hfull]
    obtain ⟨hstocked, hsize⟩ := happend d hp rfl rfl rfl (Nat.not_lt.mp hfull)
    exact ⟨hstocked, hp, rfl, rfl, hsize⟩

/-- What a push of `input` does. -/
structure Takes (d : StreamDecoder) (input : List UInt8) (d' : StreamDecoder) (event : DecodeEvent) :
    Prop where
  stocked : d'.Stocked
  capacity : d'.capacity = d.capacity
  refused : event.isError = true → d' = d.commitPending
  account : event.isError = false →
    input.length + d.held + d'.skip = event.count + d'.held + d.skip
  waits : event = .needMore → 0 < d.capacity → d'.length < d.capacity
  drains : input = [] → event ≠ .needMore → d'.held < d.held

theorem pushSlice_spec (h : d.Stocked) (input : List UInt8) :
    d.Takes input (d.pushSlice input).1 (d.pushSlice input).2 := by
  obtain ⟨hcommit, hp, hlen, hskip, hcap, -⟩ := h.commit
  unfold pushSlice
  dsimp only
  have hrest := List.length_drop (i := min d.commitPending.skip input.length) (l := input)
  split_ifs with hfull
  · refine ⟨hcommit, hcap, fun _ => rfl, fun hno => ?_, fun hneed => ?_, fun hempty _ => ?_⟩
    · cases hno
    · cases hneed
    · subst hempty
      rw [List.drop_nil, List.length_nil] at hfull
      exact absurd hfull (Nat.not_lt_zero _)
  · generalize hskipped : min d.commitPending.skip input.length = skipped at *
    generalize input.drop skipped = rest at *
    have hin := hcommit.inBounds
    -- Nothing is buffered while octets are still to be skipped.
    have hstocked : Stocked { d.commitPending with skip := d.commitPending.skip - skipped } :=
      ⟨hin, hcommit.pending_le, fun hs => hcommit.skipping (by
        intro hzero
        rw [hzero, Nat.zero_sub] at hs
        exact hs rfl)⟩
    have hlater : d.commitPending.skip - skipped ≠ 0 → rest = [] := by
      intro hs
      apply List.length_eq_zero_iff.mp
      omega
    obtain ⟨htaken, hpending, hlength, hleft, hsize⟩ :=
      hstocked.takeIn hp (by show d.commitPending.length + _ ≤ d.commitPending.capacity; omega) hlater
    generalize StreamDecoder.takeIn _ rest = taken at *
    have hlooks := tryDecode_spec htaken hpending
    generalize taken.tryDecode.1 = d' at *
    generalize d'.toEvent taken.tryDecode.2 = event at *
    have hleft' : taken.skip = d.commitPending.skip - skipped := hleft
    have hlength' : taken.length = d.commitPending.length + rest.length := hlength
    have hsize' : taken.capacity = d.commitPending.capacity := hsize
    have haccount := hlooks.account
    refine ⟨hlooks.stocked, hlooks.capacity.trans (hsize'.trans hcap), fun herror => ?_, fun _ => ?_,
      fun hneed hpos => ?_, fun hempty hne => ?_⟩
    · rw [hlooks.fits] at herror
      cases herror
    · show input.length + d.held + d'.skip = event.count + d'.held + d.skip
      omega
    · rw [← hcap, ← hsize'] at hpos ⊢
      exact hlooks.waits hneed hpos
    · subst hempty
      have htakes := hlooks.takes hne
      rw [List.length_nil] at hrest
      show d'.held < d.held
      omega

/-! ## Runs of pushes -/

def pushes (d : StreamDecoder) : List (List UInt8) → StreamDecoder × List DecodeEvent
  | [] => (d, [])
  | input :: inputs =>
    let (d, event) := d.pushSlice input
    let (d, events) := d.pushes inputs
    (d, event :: events)

def accepted : List (List UInt8) → List DecodeEvent → ℕ
  | input :: inputs, event :: events =>
    (if event.isError then 0 else input.length) + accepted inputs events
  | _, _ => 0

def counted (events : List DecodeEvent) : ℕ := (events.map DecodeEvent.count).sum

theorem count_isError {event : DecodeEvent} (h : event.isError = true) : event.count = 0 := by
  cases event <;> first | rfl | cases h

/-- The account after a run, from any decoder. -/
theorem pushes_account (inputs : List (List UInt8)) (h : d.Stocked) :
    (d.pushes inputs).1.Stocked ∧ (d.pushes inputs).1.capacity = d.capacity ∧
      accepted inputs (d.pushes inputs).2 + d.held + (d.pushes inputs).1.skip
        = counted (d.pushes inputs).2 + (d.pushes inputs).1.held + d.skip := by
  induction inputs generalizing d with
  | nil =>
    refine ⟨h, rfl, ?_⟩
    show 0 + d.held + d.skip = 0 + d.held + d.skip
    rfl
  | cons input inputs ih =>
    have hpush := pushSlice_spec h input
    unfold pushes
    dsimp only
    generalize (d.pushSlice input).1 = d' at *
    generalize (d.pushSlice input).2 = event at *
    obtain ⟨hstocked, hcap, haccount⟩ := ih hpush.stocked
    refine ⟨hstocked, hcap.trans hpush.capacity, ?_⟩
    have hcounted : counted (event :: (d'.pushes inputs).2)
        = event.count + counted (d'.pushes inputs).2 := List.sum_cons
    unfold accepted
    rw [hcounted]
    by_cases herror : event.isError = true
    · obtain ⟨-, hp, hheld, hskip, -, -⟩ := h.commit
      have hsame := hpush.refused herror
      have hheld' : d'.held = d.held := by
        rw [← hheld, hsame]
        unfold held
        rw [hp, Nat.sub_zero]
      have hskip' : d'.skip = d.skip := by rw [hsame, hskip]
      rw [if_pos herror, count_isError herror]
      omega
    · rw [if_neg herror]
      have hone := hpush.account (Bool.eq_false_iff.mpr herror)
      omega

theorem pushes_waits (inputs : List (List UInt8)) (h : d.Stocked) (hpos : 0 < d.capacity)
    (hlast : (d.pushes inputs).2.getLast? = some .needMore) :
    (d.pushes inputs).1.length < (d.pushes inputs).1.capacity := by
  induction inputs generalizing d with
  | nil => cases hlast
  | cons input inputs ih =>
    have hpush := pushSlice_spec h input
    unfold pushes at hlast ⊢
    dsimp only at hlast ⊢
    generalize (d.pushSlice input).1 = d' at *
    generalize (d.pushSlice input).2 = event at *
    cases inputs with
    | nil =>
      have hneed : event = .needMore := Option.some.inj hlast
      show d'.length < d'.capacity
      rw [hpush.capacity]
      exact hpush.waits hneed hpos
    | cons next inputs =>
      rw [hpush.capacity.symm] at hpos
      refine ih hpush.stocked hpos ?_
      rw [← hlast]
      exact (List.getLast?_cons_cons).symm

theorem pushes_drain (count : ℕ) (h : d.Stocked) (hcount : d.held ≤ count) :
    ∃ n ≤ count, (d.pushes (List.replicate (n + 1) [])).2.getLast? = some .needMore := by
  induction count generalizing d with
  | zero =>
    refine ⟨0, Nat.le_refl _, ?_⟩
    have hdrains := (pushSlice_spec h []).drains rfl
    by_cases hneed : (d.pushSlice []).2 = .needMore
    · exact congrArg some hneed
    · exact absurd (hdrains hneed) (by omega)
  | succ count ih =>
    have hpush := pushSlice_spec h []
    by_cases hneed : (d.pushSlice []).2 = .needMore
    · exact ⟨0, Nat.zero_le _, congrArg some hneed⟩
    · have hless := hpush.drains rfl hneed
      obtain ⟨n, hn, hlast⟩ := ih hpush.stocked (by omega)
      refine ⟨n + 1, Nat.succ_le_succ hn, ?_⟩
      rw [List.replicate_succ]
      unfold pushes
      rw [← hlast, List.replicate_succ]
      unfold pushes
      exact List.getLast?_cons_cons

theorem fresh_stocked (storage : List UInt8) (reservedCobs : Bool) :
    (fresh storage reservedCobs).Stocked := by
  cases reservedCobs
  · exact ⟨Nat.zero_le _, Nat.le_refl _, fun h => absurd rfl h⟩
  · exact ⟨Nat.zero_le _, Nat.le_refl _, fun h => absurd rfl h⟩

/-- What holds after some pushes into a fresh decoder. -/
structure Accounted (storage : List UInt8) (inputs : List (List UInt8)) (d : StreamDecoder)
    (events : List DecodeEvent) : Prop where
  /-- The octets accepted and those to skip are those reported and those held. -/
  account : accepted inputs events + d.skip = counted events + (d.length - d.pending)
  /-- Once it waits there is room, and one octet more is accepted. -/
  room : events.getLast? = some .needMore →
    d.length < storage.length ∧ ∀ octet, (d.push octet).2.isError = false
  /-- Empty pushes come to wait. -/
  drains : ∃ n, (d.pushes (List.replicate (n + 1) [])).2.getLast? = some .needMore
  /-- A refused push only lets go of the frame delivered before it. -/
  refused : ∀ input, (d.pushSlice input).2.isError = true →
    (d.pushSlice input).1.buffered = d.buffered.drop d.pending ∧
      (d.pushSlice input).1.pending = 0 ∧ (d.pushSlice input).1.skip = d.skip

/-- A decoder with a storage of an octet at least loses no octet and never wedges. -/
theorem pushes_accounted (storage : List UInt8) (reservedCobs : Bool) (inputs : List (List UInt8))
    (hstorage : storage ≠ []) :
    Accounted storage inputs ((fresh storage reservedCobs).pushes inputs).1
      ((fresh storage reservedCobs).pushes inputs).2 := by
  obtain ⟨hholds, -, hcapacity, -⟩ := fresh_holds storage reservedCobs
  have hfresh := fresh_stocked storage reservedCobs
  have hempty : (fresh storage reservedCobs).held = 0 ∧ (fresh storage reservedCobs).skip = 0 := by
    unfold fresh
    cases reservedCobs
    · exact ⟨rfl, rfl⟩
    · exact ⟨rfl, rfl⟩
  have hpos : 0 < (fresh storage reservedCobs).capacity := by
    rw [hcapacity]
    exact List.length_pos_iff.mpr hstorage
  have hwaits := pushes_waits inputs hfresh hpos
  obtain ⟨hstocked, hcap, haccount⟩ := pushes_account inputs hfresh
  rw [hempty.1, hempty.2] at haccount
  rw [hcapacity] at hcap
  generalize (fresh storage reservedCobs).pushes inputs = after at *
  refine ⟨?_, fun hlast => ?_, ?_, fun input herror => ?_⟩
  · unfold held at haccount
    omega
  · have hroom := hwaits hlast
    rw [hcap] at hroom
    refine ⟨hroom, fun octet => ?_⟩
    obtain ⟨-, -, hlength, -, hsize, -⟩ := hstocked.commit
    unfold push pushSlice
    dsimp only
    have hone : (List.drop (min after.1.commitPending.skip [octet].length) [octet]).length ≤ 1 := by
      rw [List.length_drop]
      exact Nat.sub_le _ _
    unfold held at hlength
    rw [if_neg (by omega)]
    exact isError_toEvent _
  · obtain ⟨n, -, hlast⟩ := pushes_drain _ hstocked (Nat.le_refl _)
    exact ⟨n, hlast⟩
  · obtain ⟨-, hp, -, hskip, -, hbuffered⟩ := hstocked.commit
    rw [(pushSlice_spec hstocked input).refused herror]
    exact ⟨hbuffered, hp, hskip⟩

/-- A frame too long for a storage of ten octets is skipped by count, over two pushes. -/
theorem pushes_accounted_skip :
    Accounted (List.replicate 10 0) [exampleFrame.encoding.take 10, exampleFrame.encoding.drop 10]
      ((fresh (List.replicate 10 0) false).pushes
        [exampleFrame.encoding.take 10, exampleFrame.encoding.drop 10]).1
      ((fresh (List.replicate 10 0) false).pushes
        [exampleFrame.encoding.take 10, exampleFrame.encoding.drop 10]).2 :=
  pushes_accounted (List.replicate 10 0) false
    [exampleFrame.encoding.take 10, exampleFrame.encoding.drop 10] (by decide)

end StreamDecoder

end RustyBacnet.Mstp
