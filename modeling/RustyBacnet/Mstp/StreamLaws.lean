import Mathlib.Algebra.GroupWithZero.Nat
import RustyBacnet.Mstp.StreamRefine

/-!
# What a stream of octets yields

Two laws of the incremental decoder, both read off its runs as a scanner: how a stream is cut into
slices does not matter, and frames sent one after another, with noise between them that cannot
start a preamble, come out as they went in.
-/

namespace RustyBacnet.Mstp

open Slices Scanner StreamDecoder

def StreamDecoder.fresh (storage : List UInt8) (reservedCobs : Bool) : StreamDecoder :=
  if reservedCobs then (StreamDecoder.new storage).withReservedCobs else StreamDecoder.new storage

theorem fresh_holds (storage : List UInt8) (reservedCobs : Bool) :
    (fresh storage reservedCobs).Holds Cursor.start ∧ (fresh storage reservedCobs).pending = 0 ∧
      (fresh storage reservedCobs).capacity = storage.length ∧
      (fresh storage reservedCobs).reservedCobs = reservedCobs := by
  cases reservedCobs
  · exact ⟨⟨Nat.zero_le _, Nat.le_refl _, rfl, rfl⟩, rfl, rfl, rfl⟩
  · exact ⟨⟨Nat.zero_le _, Nat.le_refl _, rfl, rfl⟩, rfl, rfl, rfl⟩

/-- No slice was refused. -/
def AllFit (events : List DecodeEvent) : Prop := ∀ event ∈ events, event.isError = false

instance (events : List DecodeEvent) : Decidable (AllFit events) :=
  inferInstanceAs (Decidable (∀ event ∈ events, event.isError = false))

/-- The `Frame` and `Malformed` events, in order. -/
def candidates (events : List DecodeEvent) : List DecodeEvent :=
  events.filter fun
    | .frame _ _ => true
    | .malformed _ _ _ => true
    | _ => false

/-- Octets the `Invalid` events discarded. -/
def discarded (events : List DecodeEvent) : ℕ :=
  (events.map fun
    | .invalid count => count
    | _ => 0).sum

/-- A verdict other than noise, as the event it gives. -/
def Item.event : Item → Option DecodeEvent
  | .noise => none
  | .frame f consumed => some (.frame f consumed)
  | .malformed count e destination => some (.malformed count e destination)

theorem candidates_eq (events : List DecodeEvent) :
    candidates events = (events.flatMap eventItems).filterMap Item.event := by
  induction events with
  | nil => rfl
  | cons event events ih =>
    rw [List.flatMap_cons, List.filterMap_append, ← ih]
    cases event with
    | invalid count =>
      have hnone : (List.replicate count Item.noise).filterMap Item.event = [] :=
        List.filterMap_eq_nil_iff.mpr fun i hi => by rw [List.eq_of_mem_replicate hi]; rfl
      simp [candidates, eventItems, hnone]
    | _ => simp [candidates, eventItems, Item.event]

theorem discarded_eq (events : List DecodeEvent) :
    discarded events = (events.flatMap eventItems).count .noise := by
  induction events with
  | nil => rfl
  | cons event events ih =>
    rw [List.flatMap_cons, List.count_append, ← ih]
    cases event <;> simp [discarded, eventItems]

/-- A run of a fresh decoder over slices that fit, as a scan of the whole stream. -/
theorem fresh_scans {storage : List UInt8} {reservedCobs : Bool} {slices : List (List UInt8)}
    (hroom : dataOffset ≤ storage.length ∨ ∀ slice ∈ slices, (0x55 : UInt8) ∉ slice)
    (hfits : AllFit ((fresh storage reservedCobs).feedSlices slices).2) :
    ∃ c, ((fresh storage reservedCobs).feedSlices slices).1.buffered = c.buffered ∧
      ((fresh storage reservedCobs).feedSlices slices).1.skip = c.skip ∧
      Scans (verdicts storage.length reservedCobs) (Cursor.start.push slices.flatten)
        (((fresh storage reservedCobs).feedSlices slices).2.flatMap eventItems) c := by
  obtain ⟨hholds, hp, hcap, hmode⟩ := fresh_holds storage reservedCobs
  obtain ⟨c, hend, hpend, hfeeds⟩ := feedSlices_feeds hholds hp
    (by rw [hcap]; exact hroom.imp_right fun hno => ⟨List.not_mem_nil, hno⟩) hfits
  rw [hcap, hmode] at hfeeds
  exact ⟨c, hend.buffered_eq hpend, hend.skip, hfeeds.scans rfl⟩

/-- **How a stream is cut up does not matter.** Two runs over one stream give the same frames and
refusals in the same order, discard equally many octets as noise, and end alike. -/
theorem feedSlices_of_flatten_eq (storage : List UInt8) (reservedCobs : Bool)
    (hstorage : 8 ≤ storage.length) (slices slices' : List (List UInt8))
    (hsame : slices.flatten = slices'.flatten)
    (hfits : AllFit ((fresh storage reservedCobs).feedSlices slices).2)
    (hfits' : AllFit ((fresh storage reservedCobs).feedSlices slices').2) :
    let run := (fresh storage reservedCobs).feedSlices slices
    let run' := (fresh storage reservedCobs).feedSlices slices'
    candidates run.2 = candidates run'.2 ∧ discarded run.2 = discarded run'.2 ∧
      run.1.buffered = run'.1.buffered ∧ run.1.skip = run'.1.skip := by
  obtain ⟨c, hbuf, hskip, hscan⟩ := fresh_scans (.inl hstorage) hfits
  obtain ⟨c', hbuf', hskip', hscan'⟩ := fresh_scans (.inl hstorage) hfits'
  rw [← hsame] at hscan'
  obtain ⟨hitems, rfl⟩ := hscan.unique hscan'
  dsimp only
  rw [candidates_eq, candidates_eq, discarded_eq, discarded_eq, hitems, hbuf, hbuf', hskip, hskip']
  exact ⟨rfl, rfl, rfl, rfl⟩

/-- A Token for station 16 behind one octet of noise, whole and octet by octet. -/
theorem feedSlices_of_flatten_eq_token :
    let whole : List (List UInt8) := [[7, 0x55, 0xFF, 0, 16, 5, 0, 0, 0x8C]]
    let pieces : List (List UInt8) := [[7, 0x55], [0xFF, 0, 16, 5], [], [0, 0, 0x8C]]
    let decoder := fresh (List.replicate 16 0) false
    candidates (decoder.feedSlices whole).2
        = [.frame ⟨⟨.token, 16, 5⟩, []⟩ 8] ∧
      candidates (decoder.feedSlices whole).2 = candidates (decoder.feedSlices pieces).2 ∧
      discarded (decoder.feedSlices whole).2 = discarded (decoder.feedSlices pieces).2 := by
  have h := feedSlices_of_flatten_eq (List.replicate 16 0) false (by decide)
    [[7, 0x55, 0xFF, 0, 16, 5, 0, 0, 0x8C]] [[7, 0x55], [0xFF, 0, 16, 5], [], [0, 0, 0x8C]]
    (by decide) (by decide +kernel) (by decide +kernel)
  exact ⟨by decide +kernel, h.1, h.2.1⟩

/-! ## Frames in a stream -/

/-- `octets` is what `encode_into` writes for `frame`, into some output. -/
def Frame.EncodesTo (frame : Frame) (octets : List UInt8) : Prop :=
  ∃ output n, (frame.encodeInto output).1 = .ok n ∧
    octets = (frame.encodeInto output).2.take n

variable {frame : Frame}

theorem Frame.EncodesTo.eq {octets : List UInt8} (h : frame.EncodesTo octets) :
    octets = frame.encoding ∧
      checkHeaderFields frame.header.frameType frame.header.source frame.lengthField = .ok () := by
  obtain ⟨output, n, hok, rfl⟩ := h
  obtain ⟨hcheck, hfit, rfl⟩ := Frame.encodeInto_accepts hok
  refine ⟨?_, (Frame.checkedLength_eq hcheck).2⟩
  rw [Frame.encodeInto_ok hcheck hfit, ← frame.length_encoding, List.take_left]

theorem verdict_encoding {capacity : ℕ} (reservedCobs : Bool) (rest : List UInt8)
    (h : checkHeaderFields frame.header.frameType frame.header.source frame.lengthField = .ok ())
    (hfit : frame.encoding.length ≤ capacity) :
    verdict capacity reservedCobs (frame.encoding ++ rest)
      = some (.frame frame frame.encoding.length, frame.encoding.length) := by
  refine verdict_stable _ _ _ _ ?_
  have hcheck := checkFrame_encoding h reservedCobs []
  have hdata := decodeExtendedInPlace_encoding frame []
  rw [List.append_nil] at hcheck hdata
  obtain ⟨hverdict, -, -⟩ := headerVerdict_valid hfit hcheck
  rw [hdata] at hverdict
  rw [frame.length_encoding]
  exact hverdict

/-- What a sender puts on the line: noise, then a frame's octets. -/
structure Sent where
  noise : List UInt8
  frame : Frame
  octets : List UInt8

/-- The stream of what was sent, with noise after the last frame. -/
def stream (sent : List Sent) (noise : List UInt8) : List UInt8 :=
  sent.flatMap (fun s => s.noise ++ s.octets) ++ noise

theorem reports_noise_front {capacity : ℕ} {reservedCobs : Bool} {c : Cursor UInt8}
    {noise rest : List UInt8} (hnoise : (0x55 : UInt8) ∉ noise)
    (hbuf : c.buffered = noise ++ rest) :
    Reports (verdicts capacity reservedCobs) c (List.replicate noise.length .noise)
      (c.advance noise.length) :=
  reports_noise _ c (by simp [hbuf]) (by rw [hbuf, List.take_left]; exact hnoise)

theorem scans_stream {capacity : ℕ} {reservedCobs : Bool} (sent : List Sent) (noise : List UInt8)
    (c : Cursor UInt8) (hbuf : c.buffered = stream sent noise)
    (hnoise : (0x55 : UInt8) ∉ noise)
    (hsent : ∀ s ∈ sent, (0x55 : UInt8) ∉ s.noise ∧ s.frame.EncodesTo s.octets ∧
      s.octets.length ≤ capacity) :
    ∃ items c', Scans (verdicts capacity reservedCobs) c items c' ∧
      items.filterMap Item.event = sent.map fun s => .frame s.frame s.octets.length := by
  have hquiet : ∀ n : ℕ, (List.replicate n Item.noise).filterMap Item.event = [] := fun n =>
    List.filterMap_eq_nil_iff.mpr fun i hi => by rw [List.eq_of_mem_replicate hi]; rfl
  induction sent generalizing c with
  | nil =>
    have hrep := @reports_noise_front capacity reservedCobs c noise [] hnoise
      (by simpa [stream] using hbuf)
    refine ⟨_, _, hrep.scans (Scans.wait ?_), ?_⟩
    · have : (c.advance noise.length).buffered = [] := by
        simp [Cursor.advance, hbuf, stream]
      rw [this]
      rfl
    · rw [List.append_nil, hquiet]
      rfl
  | cons s sent ih =>
    obtain ⟨hsnoise, hencodes, hfit⟩ := hsent s List.mem_cons_self
    obtain ⟨hoctets, hfields⟩ := hencodes.eq
    have hstream : stream (s :: sent) noise = s.noise ++ (s.octets ++ stream sent noise) := by
      simp [stream]
    have hrep := @reports_noise_front capacity reservedCobs c s.noise
      (s.octets ++ stream sent noise) hsnoise (hbuf.trans hstream)
    have hfront : (c.advance s.noise.length).buffered = s.octets ++ stream sent noise := by
      simp [Cursor.advance, hbuf, hstream]
    have hframe : verdict capacity reservedCobs (c.advance s.noise.length).buffered
        = some (.frame s.frame s.octets.length, s.octets.length) := by
      rw [hfront, hoctets]
      exact verdict_encoding reservedCobs _ hfields (by rwa [← hoctets])
    obtain ⟨items, c', hscan, hitems⟩ := ih ((c.advance s.noise.length).advance s.octets.length)
      (by
        show List.drop _ (c.advance s.noise.length).buffered = _
        rw [hfront, List.drop_left])
      (fun t ht => hsent t (List.mem_cons_of_mem _ ht))
    refine ⟨_, c', hrep.scans (Scans.item hframe hscan), ?_⟩
    have hevent : (Item.frame s.frame s.octets.length).event
        = some (.frame s.frame s.octets.length) := rfl
    rw [List.filterMap_append, hquiet, List.nil_append, List.filterMap_cons_some hevent, hitems]
    rfl

/-- **Frames come out as they went in.** One frame decoded from its encoding, whatever follows;
and any number of them in a stream, cut up in any way, with noise that cannot start a preamble. -/
theorem encoded_frames_decode :
    (∀ (frame : Frame) (octets : List UInt8), frame.EncodesTo octets → ∀ rest,
      (decodeFrameInPlace (octets ++ rest)).1 = .ok (frame, octets.length)) ∧
    ∀ (storage : List UInt8) (reservedCobs : Bool) (sent : List Sent) (noise : List UInt8)
      (slices : List (List UInt8)),
      (∀ s ∈ sent, (0x55 : UInt8) ∉ s.noise ∧ s.frame.EncodesTo s.octets ∧
        s.octets.length ≤ storage.length) →
      (0x55 : UInt8) ∉ noise → slices.flatten = stream sent noise →
      AllFit ((fresh storage reservedCobs).feedSlices slices).2 →
      candidates ((fresh storage reservedCobs).feedSlices slices).2
        = sent.map fun s => .frame s.frame s.octets.length := by
  refine ⟨?_, ?_⟩
  · intro frame octets hencodes rest
    obtain ⟨rfl, hfields⟩ := hencodes.eq
    rw [frame.length_encoding]
    exact decodeFrameInPlace_encoding hfields rest
  · intro storage reservedCobs sent noise slices hsent hnoise hslices hfits
    have hroom : dataOffset ≤ storage.length ∨ ∀ slice ∈ slices, (0x55 : UInt8) ∉ slice := by
      cases sent with
      | nil =>
        refine .inr fun slice hslice hmem => hnoise ?_
        have : (0x55 : UInt8) ∈ slices.flatten := List.mem_flatten.mpr ⟨slice, hslice, hmem⟩
        rw [hslices] at this
        simpa [stream] using this
      | cons s sent =>
        obtain ⟨-, hencodes, hfit⟩ := hsent s List.mem_cons_self
        have hlen := s.frame.length_encoding
        have hwire := dataOffset_le_wireLength s.frame.lengthField
        rw [hencodes.eq.1] at hfit
        exact .inl (by omega)
    obtain ⟨c, -, -, hscan⟩ := fresh_scans hroom hfits
    obtain ⟨items, c', hscan', hitems⟩ := @scans_stream storage.length reservedCobs
      sent noise (Cursor.start.push slices.flatten)
      (by simp [Cursor.push, Cursor.start, hslices]) hnoise hsent
    rw [candidates_eq, (hscan.unique hscan').1, hitems]

def exampleFrame : Frame := Frame.new .bacnetExtendedDataNotExpectingReply 0xFF 2 [1, 0, 0x10, 8]

/-- The example frame behind noise, decoded alone and from a stream in two slices. -/
theorem encoded_frames_decode_extended :
    (decodeFrameInPlace (exampleFrame.encoding ++ [7])).1 = .ok (exampleFrame, 18) ∧
      candidates ((fresh (List.replicate 40 0) false).feedSlices
        [9 :: exampleFrame.encoding.take 11, exampleFrame.encoding.drop 11 ++ [3]]).2
        = [.frame exampleFrame 18] := by
  have hencodes : exampleFrame.EncodesTo exampleFrame.encoding :=
    ⟨List.replicate 32 0, 18, by decide +kernel, by decide +kernel⟩
  refine ⟨encoded_frames_decode.1 _ _ hencodes [7], ?_⟩
  refine encoded_frames_decode.2 (List.replicate 40 0) false
    [⟨[9], exampleFrame, exampleFrame.encoding⟩] [3]
    [9 :: exampleFrame.encoding.take 11, exampleFrame.encoding.drop 11 ++ [3]] ?_ (by decide)
    (by decide +kernel) (by decide +kernel)
  intro s hs
  obtain rfl := List.mem_singleton.mp hs
  exact ⟨by decide, hencodes, by decide +kernel⟩

end RustyBacnet.Mstp
