import Mathlib.Data.Nat.ModEq
import RustyBacnet.Router.Control

/-!
# Copies that pass the duplicate check

The router asks `Recent` about each global broadcast and each message it would relay. Over a stretch
of questions shorter than the time to live that records no more entries than the ring has, none of
the stretch's own entries is written over or too old (`Has`), and only a Router-Busy or
Router-Available takes its opposites out.

1. A broadcast or another relay that passed is found when it is asked about again.
2. Each time a Router-Busy takes out its opposites it leaves more resets behind than they had, and
   so does a Router-Available (`Waved`): the highest count grows until neither is taken out.
-/

namespace RustyBacnet.Router

open Storage

/-! ## The questions of the router -/

def flowKind (busy : Bool) : NetworkMessageType :=
  if busy then .routerBusyToNetwork else .routerAvailableToNetwork

/-- What the router asks the record about: an APDU sent to every network, or a message it would pass
on, which for a Router-Busy or Router-Available says which of the two it is. -/
inductive Asked where
  | apdu (network : UInt16) (source payload : List UInt8)
  | relay (network : UInt16) (source : List UInt8) (kind : NetworkMessageType)
      (other : oppositeOf kind = none) (payload : List UInt8)
  | flow (network : UInt16) (source : List UInt8) (busy : Bool) (payload : List UInt8)
  deriving DecidableEq

namespace Asked

def limit : Asked → ℕ
  | flow _ _ _ _ => Duplicates.resetLimit + 1
  | _ => 1

def tag : Asked → UInt8
  | apdu _ _ _ => apduTag
  | relay _ _ kind _ _ => kind.raw
  | flow _ _ busy _ => (flowKind busy).raw

def entry (now : Instant) (resets : ℕ) : Asked → Seen
  | apdu network source payload => ⟨now, fnv1a payload, fnv1a source, network, apduTag, resets⟩
  | relay network source kind _ payload =>
    ⟨now, fnv1a payload, fnv1a source, network, kind.raw, resets⟩
  | flow network source busy payload =>
    ⟨now, fnv1a payload, fnv1a source, network, (flowKind busy).raw, resets⟩

/-- Whether an entry is the question's own, whatever its time and resets. -/
def Recorded (asked : Asked) (seen : Seen) : Prop :=
  seen = asked.entry seen.at_ seen.resets

end Asked

/-- An entry of one sender, for a Router-Busy or for a Router-Available. -/
def FlowOf (network : UInt16) (source : UInt32) (busy : Bool) (seen : Seen) : Prop :=
  seen.network = network ∧ seen.source = source ∧ seen.tag = (flowKind busy).raw

/-- An entry that a Router-Busy or Router-Available may take out. -/
def Asked.Opposes : Asked → Seen → Prop
  | .flow network source busy _ => FlowOf network (fnv1a source) !busy
  | _ => fun _ => False

namespace Recent

variable {B : ℕ}

/-- One question: the record afterwards, and whether it repeats a recent one. -/
def ask (recent : Recent B) (now : Instant) (ttl : Duration) : Asked → Recent B × Bool
  | .apdu network source payload => recent.repeatApdu network source payload now ttl
  | .relay network source kind _ payload =>
    recent.repeatTagged network source kind.raw payload now ttl
  | .flow network source busy payload =>
    recent.repeatFlow network source (flowKind busy).raw (flowKind !busy).raw payload now ttl

def after (ttl : Duration) (recent : Recent B) (questions : List (Asked × Instant)) : Recent B :=
  questions.foldl (fun recent question => (recent.ask question.2 ttl question.1).1) recent

/-- The questions of a run that repeat none, each of which is recorded. -/
def passed (ttl : Duration) : Recent B → List (Asked × Instant) → List Asked
  | _, [] => []
  | recent, (asked, now) :: rest =>
    match recent.ask now ttl asked with
    | (recent, true) => passed ttl recent rest
    | (recent, false) => asked :: passed ttl recent rest

theorem repeatsRelay_asks (recent : Recent B) (at_ : Arrival) (npdu : Npdu)
    (kind : NetworkMessageType) (ttl : Duration) :
    ∃ asked, repeatsRelay recent at_ npdu kind ttl = recent.ask at_.now ttl asked := by
  unfold repeatsRelay
  cases hopposite : oppositeOf kind with
  | none => exact ⟨.relay _ _ kind hopposite _, rfl⟩
  | some opposite =>
    unfold oppositeOf at hopposite
    split_ifs at hopposite with hbusy havailable
    · cases hopposite
      rw [hbusy]
      exact ⟨.flow _ _ true _, rfl⟩
    · cases hopposite
      rw [havailable]
      exact ⟨.flow _ _ false _, rfl⟩

/-! ## The ring -/

/-- The ring has `B` slots, and the next one is among them. -/
structure Sound (recent : Recent B) : Prop where
  length : recent.seen.length = B
  next : 0 < B → recent.next < B

theorem sound_new : (new : Recent B).Sound := ⟨List.length_replicate, id⟩

theorem Sound.record {recent : Recent B} (h : recent.Sound) (entry : Seen) :
    (recent.record entry).Sound := by
  unfold Recent.record
  split_ifs with hroom hlast
  · exact ⟨(List.length_set).trans h.length, id⟩
  · exact ⟨(List.length_set).trans h.length, fun hB => by
      have := h.next hB
      show recent.next + 1 < B
      omega⟩
  · exact h

/-- The slots of the last `count` records, of which the first took slot `first`. -/
def Written (B first count index : ℕ) : Prop := ∃ j < count, index = (first + j) % B

theorem written_succ {first count index : ℕ} :
    Written B first (count + 1) index ↔
      Written B first count index ∨ index = (first + count) % B := by
  constructor
  · rintro ⟨j, hj, rfl⟩
    rcases Nat.lt_succ_iff_lt_or_eq.mp hj with hj | rfl
    · exact .inl ⟨j, hj, rfl⟩
    · exact .inr rfl
  · rintro (⟨j, hj, rfl⟩ | rfl)
    · exact ⟨j, Nat.lt_succ_of_lt hj, rfl⟩
    · exact ⟨count, Nat.lt_succ_self count, rfl⟩

/-- Up to `B` records write slots of their own. -/
theorem not_written_next {first count : ℕ} (h : count < B) :
    ¬Written B first count ((first + count) % B) := by
  rintro ⟨j, hj, heq⟩
  have hmod : count % B = j % B := Nat.ModEq.add_left_cancel' first heq
  rw [Nat.mod_eq_of_lt h, Nat.mod_eq_of_lt (Nat.lt_trans hj h)] at hmod
  omega

/-- How far a stretch has come: its records took the slots from `first` on. -/
structure Since (recent : Recent B) (first count : ℕ) : Prop where
  length : recent.seen.length = B
  next : recent.next = (first + count) % B

/-- An entry of the stretch, recorded at `start` or later. -/
def Has (recent : Recent B) (first count : ℕ) (start : Instant) (P : Seen → Prop) : Prop :=
  ∃ index, Written B first count index ∧ ∃ entry, recent.seen[index]? = some entry ∧
    start ≤ entry.at_ ∧ P entry

section Ring

variable {recent : Recent B} {first count : ℕ} {start now : Instant} {ttl : Duration}
  {P Q : Seen → Prop}

theorem Has.mono (h : recent.Has first count start P) (hPQ : ∀ entry, P entry → Q entry) :
    recent.Has first count start Q := by
  obtain ⟨index, hwritten, entry, hentry, hat, hP⟩ := h
  exact ⟨index, hwritten, entry, hentry, hat, hPQ entry hP⟩

theorem Has.live (h : recent.Has first count start P) (hnow : now < satAdd start ttl) :
    ∃ entry ∈ recent.seen, now < satAdd entry.at_ ttl ∧ P entry := by
  obtain ⟨index, -, entry, hentry, hat, hP⟩ := h
  exact ⟨entry, List.mem_of_getElem? hentry, Nat.lt_of_lt_of_le hnow (satAdd_mono ttl hat), hP⟩

theorem Since.record (h : recent.Since first count) (hcount : count < B) (entry : Seen) :
    (recent.record entry).Since first (count + 1) ∧
      (recent.record entry).seen = recent.seen.set ((first + count) % B) entry := by
  have hlt : recent.next < B := h.next ▸ Nat.mod_lt _ (Nat.zero_lt_of_lt hcount)
  have hnext : (first + (count + 1)) % B = if recent.next + 1 = B then 0 else recent.next + 1 := by
    rw [← Nat.add_assoc, ← Nat.mod_add_mod, ← h.next]
    split_ifs with hlast
    · rw [hlast, Nat.mod_self]
    · exact Nat.mod_eq_of_lt (by omega)
  unfold Recent.record
  rw [if_pos (h.length.symm ▸ hlt)]
  exact ⟨⟨(List.length_set).trans h.length, hnext.symm⟩, by rw [h.next]⟩

theorem Has.record (h : recent.Has first count start P) (hsince : recent.Since first count)
    (hcount : count < B) (entry : Seen) : (recent.record entry).Has first (count + 1) start P := by
  obtain ⟨index, hwritten, old, hold, hat, hP⟩ := h
  refine ⟨index, written_succ.mpr (.inl hwritten), old, ?_, hat, hP⟩
  rw [(hsince.record hcount entry).2, List.getElem?_set_ne, hold]
  rintro rfl
  exact not_written_next hcount hwritten

theorem Since.has_record (h : recent.Since first count) (hcount : count < B) {entry : Seen}
    (hat : start ≤ entry.at_) (hP : P entry) :
    (recent.record entry).Has first (count + 1) start P := by
  refine ⟨_, written_succ.mpr (.inr rfl), entry, ?_, hat, hP⟩
  rw [(h.record hcount entry).2, List.getElem?_set_self]
  rw [h.length]
  exact Nat.mod_lt _ (Nat.zero_lt_of_lt hcount)

/-- Take out the entries that `undone` names. -/
def erase (recent : Recent B) (undone : Seen → Bool) : Recent B :=
  { recent with seen := recent.seen.map fun seen => if undone seen then .empty else seen }

theorem Since.erase (h : recent.Since first count) (undone : Seen → Bool) :
    (recent.erase undone).Since first count :=
  ⟨(List.length_map _).trans h.length, h.next⟩

theorem Has.erase (h : recent.Has first count start P) {undone : Seen → Bool}
    (hkept : ∀ entry, P entry → undone entry = false) :
    (recent.erase undone).Has first count start P := by
  obtain ⟨index, hwritten, entry, hentry, hat, hP⟩ := h
  refine ⟨index, hwritten, entry, ?_, hat, hP⟩
  unfold Recent.erase
  rw [List.getElem?_map, hentry, Option.map_some, hkept entry hP]
  rfl

end Ring

/-! ## One question -/

section Question

variable {recent next : Recent B} {now start : Instant} {ttl : Duration} {asked : Asked}
  {first count resets : ℕ} {undone : Seen → Bool}

theorem repeats_of_recorded
    (h : ∃ seen ∈ recent.seen, now < satAdd seen.at_ ttl ∧ asked.Recorded seen) :
    (recent.ask now ttl asked).2 = true := by
  obtain ⟨seen, hmem, hlive, hseen⟩ := h
  have htagged : ∀ network source tag payload,
      seen = ⟨seen.at_, fnv1a payload, fnv1a source, network, tag, seen.resets⟩ →
      (recent.repeatTagged network source tag payload now ttl).2 = true := by
    intro network source tag payload heq
    unfold repeatTagged
    rw [if_pos]
    refine List.any_eq_true.mpr ⟨seen, hmem, ?_⟩
    rw [heq]
    simpa using hlive
  cases asked with
  | apdu network source payload => exact htagged _ _ _ _ hseen
  | relay network source kind other payload => exact htagged _ _ _ _ hseen
  | flow network source busy payload =>
    show (recent.repeatFlow _ _ _ _ _ _ _).2 = true
    unfold repeatFlow
    rw [if_pos]
    refine List.any_eq_true.mpr ⟨seen, hmem, ?_⟩
    rw [show seen = _ from hseen]
    simp [Asked.entry, hlive]

/-- What a question that passes does: its opposites are taken out, or left because they have been
reset too often, and it is recorded with more resets than they had. -/
structure Passes (recent : Recent B) (now : Instant) (ttl : Duration) (asked : Asked)
    (undone : Seen → Bool) (resets : ℕ) (next : Recent B) : Prop where
  next : next = (recent.erase undone).record (asked.entry now resets)
  opposed : ∀ seen, undone seen = true → asked.Opposes seen
  grows : ∀ seen ∈ recent.seen, now < satAdd seen.at_ ttl → asked.Opposes seen →
    (∀ other, undone other = false) ∧ Duplicates.resetLimit ≤ resets ∨
      seen.resets < Duplicates.resetLimit ∧ seen.resets < resets

theorem erase_none (recent : Recent B) : recent.erase (fun _ => false) = recent := by
  unfold erase
  simp

theorem ask_passes (h : (recent.ask now ttl asked).2 = false) :
    ∃ undone resets, Passes recent now ttl asked undone resets (recent.ask now ttl asked).1 := by
  have htagged : ∀ network source tag payload,
      (recent.repeatTagged network source tag payload now ttl).2 = false →
      (recent.repeatTagged network source tag payload now ttl).1
        = recent.record ⟨now, fnv1a payload, fnv1a source, network, tag, 0⟩ := by
    intro network source tag payload hpass
    unfold repeatTagged at hpass ⊢
    dsimp only at hpass ⊢
    split_ifs at hpass ⊢
    rfl
  cases asked with
  | apdu network source payload =>
    refine ⟨fun _ => false, 0, ?_, fun _ hfalse => absurd hfalse Bool.false_ne_true,
      fun _ _ _ hnone => hnone.elim⟩
    rw [erase_none]
    exact htagged _ _ _ _ h
  | relay network source kind other payload =>
    refine ⟨fun _ => false, 0, ?_, fun _ hfalse => absurd hfalse Bool.false_ne_true,
      fun _ _ _ hnone => hnone.elim⟩
    rw [erase_none]
    exact htagged _ _ _ _ h
  | flow network source busy payload =>
    have hflow : recent.ask now ttl (.flow network source busy payload)
        = recent.repeatFlow network source (flowKind busy).raw (flowKind !busy).raw payload now
          ttl := rfl
    rw [hflow] at h ⊢
    unfold repeatFlow at h ⊢
    dsimp only at h ⊢
    by_cases hrepeat : (recent.seen.any fun seen => (seen.network == network &&
        seen.source == fnv1a source && decide (now < satAdd seen.at_ ttl)) &&
          seen.tag == (flowKind busy).raw && seen.payload == fnv1a payload) = true
    · rw [if_pos hrepeat] at h
      cases h
    rw [if_neg hrepeat]
    set undone := fun seen : Seen => (seen.network == network && seen.source == fnv1a source &&
      decide (now < satAdd seen.at_ ttl)) && seen.tag == (flowKind !busy).raw with hundone
    have hopposes : ∀ seen, undone seen = true →
        (Asked.flow network source busy payload).Opposes seen := by
      intro seen hseen
      simp only [hundone, Bool.and_eq_true, beq_iff_eq] at hseen
      exact ⟨hseen.1.1.1, hseen.1.1.2, hseen.2⟩
    have hmax : ∀ seen ∈ recent.seen, now < satAdd seen.at_ ttl →
        (Asked.flow network source busy payload).Opposes seen →
        seen.resets ∈ (recent.seen.filter undone).map Seen.resets := by
      intro seen hmem hlive hopposed
      refine List.mem_map_of_mem (List.mem_filter.mpr ⟨hmem, ?_⟩)
      obtain ⟨hnetwork, hsource, htag⟩ := hopposed
      simp [hundone, hnetwork, hsource, htag, hlive]
    cases hbefore : ((recent.seen.filter undone).map Seen.resets).max? with
    | none =>
      refine ⟨fun _ => false, 0, ?_, fun _ hfalse => absurd hfalse Bool.false_ne_true, ?_⟩
      · rw [erase_none]
        rfl
      · intro seen hmem hlive hopposed
        have hin := hmax seen hmem hlive hopposed
        rw [List.max?_eq_none_iff.mp hbefore] at hin
        exact absurd hin List.not_mem_nil
    | some before =>
      have hle : ∀ seen ∈ recent.seen, now < satAdd seen.at_ ttl →
          (Asked.flow network source busy payload).Opposes seen → seen.resets ≤ before :=
        fun seen hmem hlive hopposed =>
          (List.max?_eq_some_iff.mp hbefore).2 _ (hmax seen hmem hlive hopposed)
      dsimp only
      by_cases hlimit : before < Duplicates.resetLimit
      · rw [if_pos hlimit]
        refine ⟨undone, before + 1, rfl, hopposes, fun seen hmem hlive hopposed => .inr ?_⟩
        have := hle seen hmem hlive hopposed
        omega
      · rw [if_neg hlimit]
        refine ⟨fun _ => false, before, ?_, fun _ hfalse => absurd hfalse Bool.false_ne_true,
          fun _ _ _ _ => .inl ⟨fun _ => rfl, Nat.le_of_not_lt hlimit⟩⟩
        rw [erase_none]
        rfl

theorem ask_repeats (h : (recent.ask now ttl asked).2 = true) :
    (recent.ask now ttl asked).1 = recent := by
  have htagged : ∀ network source tag payload,
      (recent.repeatTagged network source tag payload now ttl).2 = true →
      (recent.repeatTagged network source tag payload now ttl).1 = recent := by
    intro network source tag payload hrepeat
    unfold repeatTagged at hrepeat ⊢
    dsimp only at hrepeat ⊢
    split_ifs at hrepeat ⊢
    rfl
  cases asked with
  | apdu network source payload => exact htagged _ _ _ _ h
  | relay network source kind other payload => exact htagged _ _ _ _ h
  | flow network source busy payload =>
    have hflow : recent.ask now ttl (.flow network source busy payload)
        = recent.repeatFlow network source (flowKind busy).raw (flowKind !busy).raw payload now
          ttl := rfl
    rw [hflow] at h ⊢
    unfold repeatFlow at h ⊢
    dsimp only at h ⊢
    split_ifs at h ⊢
    · rfl
    · split at h
      · split_ifs at h
      · cases h

section Stretch

variable (h : Passes recent now ttl asked undone resets next) (hsince : recent.Since first count)
  (hcount : count < B)

include h hsince hcount

theorem Passes.since : next.Since first (count + 1) :=
  h.next ▸ ((hsince.erase undone).record hcount _).1

theorem Passes.has {P : Seen → Prop} (hhas : recent.Has first count start P)
    (hkept : ∀ entry, P entry → ¬asked.Opposes entry) : next.Has first (count + 1) start P := by
  rw [h.next]
  refine (hhas.erase fun entry hP => ?_).record (hsince.erase undone) hcount _
  rw [← Bool.not_eq_true]
  exact fun hundone => hkept entry hP (h.opposed entry hundone)

theorem Passes.has_own {P : Seen → Prop} (hat : start ≤ now) (hP : P (asked.entry now resets)) :
    next.Has first (count + 1) start P := by
  rw [h.next]
  refine (hsince.erase undone).has_record hcount ?_ hP
  cases asked with
  | apdu network source payload => exact hat
  | relay network source kind other payload => exact hat
  | flow network source busy payload => exact hat

theorem Passes.stay {P : Seen → Prop} (hhas : recent.Has first count start P)
    (hnone : ∀ other, undone other = false) : next.Has first (count + 1) start P := by
  rw [h.next]
  exact (hhas.erase fun other _ => hnone other).record (hsince.erase undone) hcount _

end Stretch

/-- Where entries are opposites of the question, they all stay and its own has as many resets as are
allowed, or its own has more than each of them. -/
theorem Passes.outgrows (h : Passes recent now ttl asked undone resets next) {P : Seen → Prop}
    {level : ℕ} (hnow : now < satAdd start ttl) (hhas : recent.Has first count start P)
    (hP : ∀ entry, P entry → asked.Opposes entry ∧ level ≤ entry.resets) :
    (∀ other, undone other = false) ∧ Duplicates.resetLimit ≤ resets ∨
      level < Duplicates.resetLimit ∧ level < resets := by
  obtain ⟨entry, hmem, hlive, hentry⟩ := hhas.live hnow
  obtain ⟨hopposes, hlevel⟩ := hP entry hentry
  exact (h.grows entry hmem hlive hopposes).imp_right fun hmore =>
    ⟨Nat.lt_of_le_of_lt hlevel hmore.1, Nat.lt_of_le_of_lt hlevel hmore.2⟩

end Question

/-! ## How often one question passes -/

section Counting

variable {recent next : Recent B} {now start : Instant} {ttl : Duration} {asked : Asked}
  {first count resets passes : ℕ} {undone : Seen → Bool} {network : UInt16} {source : UInt32}
  {busy : Bool} {payload : UInt32}

theorem flowKind_raw_inj {a b : Bool} (h : (flowKind a).raw = (flowKind b).raw) : a = b := by
  revert a b
  decide

/-- The resets of one sender after so many passes of one message: its entry is there and its kind
has twice as many resets as the passes before the last, or the opposite, or its kind again, has
more. -/
def Waved (recent : Recent B) (first count : ℕ) (start : Instant) (network : UInt16)
    (source : UInt32) (busy : Bool) (payload : UInt32) : ℕ → Prop
  | 0 => True
  | passes + 1 => 2 * passes ≤ Duplicates.resetLimit ∧
    (recent.Has first count start (fun seen =>
          FlowOf network source busy seen ∧ seen.payload = payload) ∧
        recent.Has first count start (fun seen =>
          FlowOf network source busy seen ∧ 2 * passes ≤ seen.resets) ∨
      2 * passes < Duplicates.resetLimit ∧
        (recent.Has first count start (fun seen =>
            FlowOf network source (!busy) seen ∧ 2 * passes + 1 ≤ seen.resets) ∨
          recent.Has first count start fun seen =>
            FlowOf network source busy seen ∧ 2 * passes + 2 ≤ seen.resets))

theorem Waved.passes_le (h : recent.Waved first count start network source busy payload passes) :
    passes ≤ Duplicates.resetLimit + 1 := by
  cases passes with
  | zero => exact Nat.zero_le _
  | succ passes =>
    have := h.1
    omega

section Step

variable (hpasses : Passes recent now ttl asked undone resets next)
  (hsince : recent.Since first count) (hcount : count < B)

include hpasses hsince hcount

theorem Waved.elsewhere (h : recent.Waved first count start network source busy payload passes)
    (hother : ∀ kind seen, FlowOf network source kind seen → ¬asked.Opposes seen) :
    next.Waved first (count + 1) start network source busy payload passes := by
  cases passes with
  | zero => trivial
  | succ passes =>
    obtain ⟨hbound, ⟨hthere, hlevel⟩ | ⟨hlow, hlevel | hlevel⟩⟩ := h
    · exact ⟨hbound, .inl ⟨hpasses.has hsince hcount hthere fun seen hseen => hother _ seen hseen.1,
        hpasses.has hsince hcount hlevel fun seen hseen => hother _ seen hseen.1⟩⟩
    · exact ⟨hbound, .inr ⟨hlow, .inl
        (hpasses.has hsince hcount hlevel fun seen hseen => hother _ seen hseen.1)⟩⟩
    · exact ⟨hbound, .inr ⟨hlow, .inr
        (hpasses.has hsince hcount hlevel fun seen hseen => hother _ seen hseen.1)⟩⟩

variable (hat : start ≤ now) (hnow : now < satAdd start ttl)

include hat hnow

/-- The opposite of the message, from the same sender. -/
theorem Waved.opposite (h : recent.Waved first count start network source busy payload passes)
    (hopposes : ∀ seen, asked.Opposes seen ↔ FlowOf network source busy seen)
    (hown : FlowOf network source (!busy) (asked.entry now resets))
    (hresets : (asked.entry now resets).resets = resets) :
    next.Waved first (count + 1) start network source busy payload passes := by
  cases passes with
  | zero => trivial
  | succ passes =>
    have hkept : ∀ seen, FlowOf network source (!busy) seen → ¬asked.Opposes seen := by
      intro seen hseen hopposed
      have heq := flowKind_raw_inj (hseen.2.2.symm.trans ((hopposes seen).mp hopposed).2.2)
      revert heq
      cases busy <;> decide
    have hgrown : ∀ level, level < resets →
        next.Has first (count + 1) start fun seen =>
          FlowOf network source (!busy) seen ∧ level + 1 ≤ seen.resets := by
      intro level hlevel
      exact hpasses.has_own hsince hcount hat ⟨hown, by rw [hresets]; exact hlevel⟩
    obtain ⟨hbound, ⟨hthere, hlevel⟩ | ⟨hlow, hlevel | hlevel⟩⟩ := h
    · rcases hpasses.outgrows hnow hlevel
          (fun seen hseen => ⟨(hopposes seen).mpr hseen.1, hseen.2⟩) with
        ⟨hnone, -⟩ | ⟨hless, hmore⟩
      · exact ⟨hbound, .inl ⟨hpasses.stay hsince hcount hthere hnone,
          hpasses.stay hsince hcount hlevel hnone⟩⟩
      · exact ⟨hbound, .inr ⟨hless, .inl (hgrown _ hmore)⟩⟩
    · exact ⟨hbound, .inr ⟨hlow, .inl
        (hpasses.has hsince hcount hlevel fun seen hseen => hkept seen hseen.1)⟩⟩
    · rcases hpasses.outgrows hnow hlevel
          (fun seen hseen => ⟨(hopposes seen).mpr hseen.1, hseen.2⟩) with
        ⟨hnone, -⟩ | ⟨-, hmore⟩
      · exact ⟨hbound, .inr ⟨hlow, .inr (hpasses.stay hsince hcount hlevel hnone)⟩⟩
      · exact ⟨hbound, .inr ⟨hlow, .inl ((hgrown _ hmore).mono fun seen hseen =>
          ⟨hseen.1, Nat.le_trans (by omega) hseen.2⟩)⟩⟩

/-- A message of the same kind, from the same sender: the resets of its kind catch up. -/
theorem Waved.same (h : recent.Waved first count start network source busy payload passes)
    (hopposes : ∀ seen, asked.Opposes seen ↔ FlowOf network source (!busy) seen)
    (hown : FlowOf network source busy (asked.entry now resets))
    (hresets : (asked.entry now resets).resets = resets) :
    next.Waved first (count + 1) start network source busy payload passes ∧
      ((asked.entry now resets).payload = payload →
        ¬recent.Has first count start (fun seen =>
          FlowOf network source busy seen ∧ seen.payload = payload) →
        next.Waved first (count + 1) start network source busy payload (passes + 1)) := by
  have hkept : ∀ seen, FlowOf network source busy seen → ¬asked.Opposes seen := by
    intro seen hseen hopposed
    have heq := flowKind_raw_inj (hseen.2.2.symm.trans ((hopposes seen).mp hopposed).2.2)
    revert heq
    cases busy <;> decide
  have hnew : ∀ level, level ≤ resets →
      next.Has first (count + 1) start fun seen =>
        FlowOf network source busy seen ∧ level ≤ seen.resets := by
    intro level hlevel
    exact hpasses.has_own hsince hcount hat ⟨hown, by rw [hresets]; exact hlevel⟩
  cases passes with
  | zero =>
    refine ⟨trivial, fun hpayload _ => ⟨Nat.zero_le _, .inl ⟨?_, hnew 0 (Nat.zero_le _)⟩⟩⟩
    exact hpasses.has_own hsince hcount hat ⟨hown, hpayload⟩
  | succ passes =>
    obtain ⟨hbound, ⟨hthere, hlevel⟩ | ⟨hlow, hmore⟩⟩ := h
    · refine ⟨⟨hbound, .inl ⟨hpasses.has hsince hcount hthere fun seen hseen => hkept seen hseen.1,
        hpasses.has hsince hcount hlevel fun seen hseen => hkept seen hseen.1⟩⟩, ?_⟩
      exact fun _ hnot => absurd hthere hnot
    · have hcaught : next.Has first (count + 1) start fun seen =>
          FlowOf network source busy seen ∧ 2 * passes + 2 ≤ seen.resets := by
        rcases hmore with hlevel | hlevel
        · rcases hpasses.outgrows hnow hlevel
              (fun seen hseen => ⟨(hopposes seen).mpr hseen.1, hseen.2⟩) with
            ⟨-, hlimit⟩ | ⟨-, hless⟩
          · refine hnew _ (Nat.le_trans ?_ hlimit)
            unfold Duplicates.resetLimit at hlow ⊢
            omega
          · exact hnew _ hless
        · exact hpasses.has hsince hcount hlevel fun seen hseen => hkept seen hseen.1
      refine ⟨⟨hbound, .inr ⟨hlow, .inr hcaught⟩⟩, fun hpayload _ => ⟨?_, .inl ⟨?_, hcaught⟩⟩⟩
      · unfold Duplicates.resetLimit at hlow ⊢
        omega
      · exact hpasses.has_own hsince hcount hat ⟨hown, hpayload⟩

end Step

/-- What the ring has after a question has passed so often. -/
def Counted (recent : Recent B) (first count : ℕ) (start : Instant) (passes : ℕ) : Asked → Prop
  | .flow network source busy payload =>
    recent.Waved first count start network (fnv1a source) busy (fnv1a payload) passes
  | key => passes = 0 ∨ passes = 1 ∧ recent.Has first count start key.Recorded

variable {key : Asked}

theorem Counted.passes_le (h : recent.Counted first count start passes key) :
    passes ≤ key.limit := by
  cases key with
  | flow network source busy payload => exact Waved.passes_le h
  | apdu network source payload =>
    rcases h with rfl | ⟨rfl, -⟩
    · exact Nat.zero_le _
    · exact Nat.le_refl _
  | relay network source kind other payload =>
    rcases h with rfl | ⟨rfl, -⟩
    · exact Nat.zero_le _
    · exact Nat.le_refl _

theorem not_opposes_of_tag {seen : Seen} (h : ∀ kind, seen.tag ≠ (flowKind kind).raw) :
    ¬asked.Opposes seen := by
  intro hopposed
  cases asked with
  | apdu network source payload => exact hopposed
  | relay network source kind other payload => exact hopposed
  | flow network source busy payload => exact h _ hopposed.2.2

theorem Counted.single (hpasses : Passes recent now ttl asked undone resets next)
    (hsince : recent.Since first count) (hcount : count < B) (hat : start ≤ now)
    (hfresh : asked = key → ¬recent.Has first count start key.Recorded)
    (htag : ∀ seen, key.Recorded seen → ∀ kind, seen.tag ≠ (flowKind kind).raw)
    (h : passes = 0 ∨ passes = 1 ∧ recent.Has first count start key.Recorded) :
    passes + (if asked = key then 1 else 0) = 0 ∨
      passes + (if asked = key then 1 else 0) = 1 ∧
        next.Has first (count + 1) start key.Recorded := by
  split_ifs with hkey
  · rcases h with rfl | ⟨-, hthere⟩
    · refine .inr ⟨rfl, hpasses.has_own hsince hcount hat ?_⟩
      subst hkey
      cases asked <;> rfl
    · exact absurd hthere (hfresh hkey)
  · rcases h with rfl | ⟨rfl, hthere⟩
    · exact .inl rfl
    · exact .inr ⟨rfl, hpasses.has hsince hcount hthere fun seen hseen =>
        not_opposes_of_tag (htag seen hseen)⟩

/-- One question that passes. -/
theorem Counted.step {key : Asked} (hpasses : Passes recent now ttl asked undone resets next)
    (hsince : recent.Since first count) (hcount : count < B) (hat : start ≤ now)
    (hnow : now < satAdd start ttl)
    (hfresh : asked = key → ¬recent.Has first count start key.Recorded)
    (h : recent.Counted first count start passes key) :
    next.Counted first (count + 1) start (passes + if asked = key then 1 else 0) key := by
  cases key with
  | apdu network source payload =>
    refine Counted.single hpasses hsince hcount hat hfresh (fun seen hseen kind => ?_) h
    rw [show seen = _ from hseen]
    show apduTag ≠ (flowKind kind).raw
    cases kind <;> decide
  | relay network source kind other payload =>
    refine Counted.single hpasses hsince hcount hat hfresh (fun seen hseen busy htag => ?_) h
    rw [show seen = _ from hseen] at htag
    have hkind : kind = flowKind busy := by
      cases kind
      exact congrArg NetworkMessageType.mk htag
    rw [hkind] at other
    revert other
    cases busy <;> decide
  | flow network source busy payload =>
    have hflow : ∀ {seen : Seen}, FlowOf network (fnv1a source) busy seen ∧
        seen.payload = fnv1a payload → (Asked.flow network source busy payload).Recorded seen := by
      rintro ⟨at_, _, _, _, _, resets⟩ ⟨⟨rfl, rfl, rfl⟩, rfl⟩
      rfl
    have helsewhere : asked ≠ .flow network source busy payload →
        (∀ kind seen, FlowOf network (fnv1a source) kind seen → ¬asked.Opposes seen) →
        next.Counted first (count + 1) start
          (passes + if asked = .flow network source busy payload then 1 else 0)
          (.flow network source busy payload) := by
      intro hne hother
      rw [if_neg hne, Nat.add_zero]
      exact Waved.elsewhere hpasses hsince hcount h hother
    cases asked with
    | apdu network' source' payload' => exact helsewhere nofun fun _ _ _ hnone => hnone
    | relay network' source' kind' other' payload' =>
      exact helsewhere nofun fun _ _ _ hnone => hnone
    | flow network' source' busy' payload' =>
      by_cases hsender : network' = network ∧ fnv1a source' = fnv1a source
      · obtain ⟨rfl, hsource⟩ := hsender
        by_cases hbusy : busy' = busy
        · subst hbusy
          obtain ⟨hsame, hagain⟩ := Waved.same hpasses hsince hcount hat hnow h
            (fun seen => hsource ▸ Iff.rfl) ⟨rfl, hsource, rfl⟩ rfl
          split_ifs with hkey
          · obtain ⟨-, -, -, rfl⟩ := Asked.flow.inj hkey
            exact hagain rfl fun hthere => hfresh hkey (hthere.mono fun seen => hflow)
          · exact hsame
        · have hflip : busy' = !busy := by
            revert hbusy
            cases busy' <;> cases busy <;> decide
          subst hflip
          rw [if_neg (fun hkey => hbusy (Asked.flow.inj hkey).2.2.1), Nat.add_zero]
          refine Waved.opposite hpasses hsince hcount hat hnow h (fun seen => ?_)
            ⟨rfl, hsource, rfl⟩ rfl
          show FlowOf network' (fnv1a source') (!!busy) seen ↔ _
          rw [hsource, Bool.not_not]
      · refine helsewhere (fun hkey => hsender ?_) fun kind seen hseen hopposed => hsender ?_
        · obtain ⟨rfl, rfl, -, -⟩ := Asked.flow.inj hkey
          exact ⟨rfl, rfl⟩
        · exact ⟨hopposed.1.symm.trans hseen.1, hopposed.2.1.symm.trans hseen.2.1⟩

/-- A stretch of questions, from any point of it. -/
theorem Counted.run (key : Asked) (questions : List (Asked × Instant)) :
    ∀ {recent : Recent B} {count passes : ℕ}, recent.Since first count →
      recent.Counted first count start passes key →
      (∀ question ∈ questions, start ≤ question.2 ∧ question.2 < satAdd start ttl) →
      count + (passed ttl recent questions).length ≤ B →
      passes + (passed ttl recent questions).count key ≤ key.limit := by
  induction questions with
  | nil => exact fun _ hcounted _ _ => hcounted.passes_le
  | cons question rest ih =>
    intro recent count passes hsince hcounted hwithin hroom
    obtain ⟨asked, now⟩ := question
    obtain ⟨hat, hnow⟩ := hwithin (asked, now) List.mem_cons_self
    have hrest : ∀ question ∈ rest, start ≤ question.2 ∧ question.2 < satAdd start ttl :=
      fun question hmem => hwithin question (List.mem_cons_of_mem _ hmem)
    unfold passed at hroom ⊢
    rcases hask : recent.ask now ttl asked with ⟨next, _ | _⟩
    · rw [hask] at hroom
      rw [List.length_cons] at hroom
      obtain ⟨undone, resets, hpasses⟩ := ask_passes (congrArg Prod.snd hask)
      rw [hask] at hpasses
      change Passes recent now ttl asked undone resets next at hpasses
      have hcount : count < B := by omega
      have hfresh : asked = key → ¬recent.Has first count start key.Recorded := by
        rintro rfl hthere
        have hrepeat := repeats_of_recorded (hthere.live hnow)
        rw [hask] at hrepeat
        cases hrepeat
      have hstep := hcounted.step hpasses hsince hcount hat hnow hfresh
      have hle := ih (hpasses.since hsince hcount) hstep hrest (by omega)
      rw [List.count_cons]
      simp only [beq_iff_eq]
      omega
    · rw [hask] at hroom
      have hsame := ask_repeats (congrArg Prod.snd hask)
      rw [hask] at hsame
      subst hsame
      exact ih hsince hcounted hrest hroom

end Counting

theorem Sound.ask {recent : Recent B} (h : recent.Sound) (now : Instant) (ttl : Duration)
    (asked : Asked) : (recent.ask now ttl asked).1.Sound := by
  cases hrepeat : (recent.ask now ttl asked).2 with
  | true =>
    rw [ask_repeats hrepeat]
    exact h
  | false =>
    obtain ⟨undone, resets, hpasses⟩ := ask_passes hrepeat
    rw [hpasses.next]
    have herased : (recent.erase undone).Sound := ⟨(List.length_map _).trans h.length, h.next⟩
    exact herased.record _

theorem Sound.after {recent : Recent B} (h : recent.Sound) (ttl : Duration)
    (questions : List (Asked × Instant)) : (recent.after ttl questions).Sound := by
  induction questions generalizing recent with
  | nil => exact h
  | cons question rest ih => exact ih (h.ask question.2 ttl question.1)

/-- Over a stretch of questions before the time to live of its start is over, which records no more
entries than the ring has, an APDU sent to every network and a relayed message each pass once, and a
Router-Busy or Router-Available no more often than the resets allow. -/
theorem duplicates_bounded (B : ℕ) (ttl : Duration) (earlier questions : List (Asked × Instant))
    (start : Instant)
    (hwithin : ∀ question ∈ questions, start ≤ question.2 ∧ question.2 < satAdd start ttl)
    (hroom : (passed ttl ((new : Recent B).after ttl earlier) questions).length ≤ B) (asked : Asked)
    : (passed ttl ((new : Recent B).after ttl earlier) questions).count asked ≤ asked.limit := by
  have hsound := sound_new.after (B := B) ttl earlier
  generalize (new : Recent B).after ttl earlier = recent at hroom hsound ⊢
  rcases Nat.eq_zero_or_pos B with rfl | hB
  · rw [Nat.le_zero, List.length_eq_zero_iff] at hroom
    rw [hroom]
    exact Nat.zero_le _
  · have hsince : recent.Since recent.next 0 :=
      ⟨hsound.length, (Nat.mod_eq_of_lt (hsound.next hB)).symm⟩
    have hcounted : recent.Counted recent.next 0 start 0 asked := by
      cases asked with
      | flow network source busy payload => trivial
      | apdu network source payload => exact .inl rfl
      | relay network source kind other payload => exact .inl rfl
    have hrun := Counted.run asked questions hsince hcounted hwithin (by rwa [Nat.zero_add])
    rwa [Nat.zero_add] at hrun

/-- Two looped pairs of a Router-Busy and a Router-Available, in turn. -/
theorem duplicates_bounded_flow :
    (passed (fromSecs 1) ((new : Recent 8).after (fromSecs 1) [])
        [(.flow 1 [7] true [0, 5], 0), (.flow 1 [7] false [0, 5], 1), (.flow 1 [7] true [0, 5], 2),
          (.flow 1 [7] false [0, 5], 3)]).count (.flow 1 [7] true [0, 5]) ≤ 5 :=
  duplicates_bounded 8 (fromSecs 1) [] _ 0 (by decide) (by decide) (.flow 1 [7] true [0, 5])

/-- At the end of time nothing is recent. -/
theorem repeat_passes_at_max :
    passed (fromSecs 1) (new : Recent 4)
        [(.apdu 1 [7] [0x10, 8], maxInstant), (.apdu 1 [7] [0x10, 8], maxInstant)]
      = [.apdu 1 [7] [0x10, 8], .apdu 1 [7] [0x10, 8]] := by
  decide

end Recent

end RustyBacnet.Router
