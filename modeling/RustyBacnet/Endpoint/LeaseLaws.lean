import Mathlib.Data.List.TakeWhile
import RustyBacnet.Endpoint.Leases

/-!
# The laws of invoke-ID leases

The search for a free ID starts after the last one leased and goes round. Until it comes back to an
ID it has tried every other one: each was leased or passed over because it was active.
-/

namespace RustyBacnet.Endpoint

open Encoding

/-! ## The search -/

namespace CoordinatorState

variable {state : CoordinatorState} {index : Fin 256}

/-- The search passes the IDs before the one it finds. -/
theorem availableSlot_eq_some (h : state.availableSlot = some index) :
    ∃ offset < 256, index = Fin.ofNat 256 (state.nextInvokeId + offset) ∧
      ∀ earlier < offset, Fin.ofNat 256 (state.nextInvokeId + earlier) ∈ state.passed := by
  unfold availableSlot at h
  obtain ⟨hfree, before, rest, hsplit, hbefore⟩ := List.find?_eq_some_iff_append.mp h
  have hlength : state.searchOrder.length = 256 := by
    unfold searchOrder
    rw [List.length_map, List.length_range]
  have hat : ∀ offset < 256, state.searchOrder[offset]?
      = some (Fin.ofNat 256 (state.nextInvokeId + offset)) := by
    intro offset hoffset
    unfold searchOrder
    rw [List.getElem?_map, List.getElem?_range hoffset]
    rfl
  have hshort : before.length < 256 := by
    rw [hsplit, List.length_append, List.length_cons] at hlength
    omega
  refine ⟨before.length, hshort, ?_, ?_⟩
  · have hhere := hat before.length hshort
    rw [hsplit, List.getElem?_append_right (le_refl _), Nat.sub_self,
      List.getElem?_cons_zero, Option.some.injEq] at hhere
    exact hhere
  · intro earlier hearlier
    have hthere := hat earlier (lt_trans hearlier hshort)
    rw [hsplit, List.getElem?_append_left hearlier] at hthere
    have hpassed : state.passed = before := by
      unfold passed
      rw [hsplit, List.takeWhile_append_of_pos]
      · rw [List.takeWhile_cons_of_neg, List.append_nil]
        rw [Option.isNone_iff_eq_none] at hfree
        rw [hfree]
        decide
      · intro other hother
        have hsome := hbefore other hother
        rw [Bool.not_eq_true', Option.isNone_eq_false_iff] at hsome
        exact hsome
    rw [hpassed]
    exact List.mem_of_getElem? hthere

theorem passed_active (h : index ∈ state.passed) : (state.slots index).isSome = true := by
  unfold passed at h
  have hsome := List.mem_takeWhile_imp h
  exact hsome

end CoordinatorState

/-! ## Round and round -/

/-- A reservation after `before` leased the ID or passed it while it was active. -/
def Tried (earlier later : List Call) (index : Fin 256) : Prop :=
  ∃ before metadata rest token, later = before ++ Call.reserve metadata :: rest ∧
    ((after (earlier ++ before)).reserve metadata).1 = .ok token ∧
    (token.invokeId = index ∨ index ∈ (after (earlier ++ before)).passed ∧
      ((after (earlier ++ before)).slots index).isSome = true)

theorem Tried.more {earlier later : List Call} {index : Fin 256} (h : Tried earlier later index)
    (call : Call) : Tried earlier (later ++ [call]) index := by
  obtain ⟨before, metadata, rest, token, rfl, hok, htried⟩ := h
  exact ⟨before, metadata, rest ++ [call], token, by simp, hok, htried⟩

theorem nextInvokeId_perform (state : CoordinatorState) (call : Call) :
    (state.perform call).2.nextInvokeId = state.nextInvokeId ∨
      ∃ metadata token, call = .reserve metadata ∧ (state.reserve metadata).1 = .ok token := by
  have hdoes := state.does_perform call
  generalize state.perform call = result at hdoes ⊢
  cases hdoes with
  | reserve metadata =>
    rcases state.reserve_cases metadata with ⟨refused, hresult⟩ | ⟨index, _, _, hresult⟩
    · rw [hresult]
      exact .inl rfl
    · exact .inr ⟨metadata, _, rfl, congrArg Prod.fst hresult⟩
  | admit_ peer apdu =>
    left
    rcases state.admit_cases peer apdu with ⟨_, _, hresult⟩ | ⟨_, _, kind, _, _, _, _, _, hresult⟩
    · rw [hresult]
    · rw [hresult]
      split_ifs
      · rfl
      · rfl
  | release token =>
    left
    rcases state.releaseToken_cases token with ⟨_, _, hresult, _⟩ | ⟨_, _, _, hresult⟩
    · rw [hresult]
    · rw [hresult]

variable {earlier : List Call} {token : LeaseToken} {later : List Call} {start : ℕ}

/-- A reservation moves the cursor past the IDs it tried. -/
theorem cursor_reserve {turned : ℕ} {metadata : LeaseMetadata}
    (hcursor : (after (earlier ++ later)).nextInvokeId = (start + turned) % 256)
    (htried : ∀ offset < turned, Tried earlier later (Fin.ofNat 256 (start + offset)))
    (hok : ((after (earlier ++ later)).reserve metadata).1 = .ok token) :
    ∃ turned' > turned,
      ((after (earlier ++ later)).reserve metadata).2.nextInvokeId = (start + turned') % 256 ∧
      ∀ offset < turned', Tried earlier (later ++ [.reserve metadata])
        (Fin.ofNat 256 (start + offset)) := by
  rcases (after (earlier ++ later)).reserve_cases metadata with
    ⟨refused, hresult⟩ | ⟨index, hfound, _, hresult⟩
  · rw [hresult] at hok
    cases hok
  obtain ⟨found, hfound256, hindex, hpassed⟩ := CoordinatorState.availableSlot_eq_some hfound
  refine ⟨turned + found + 1, by omega, ?_, ?_⟩
  · rw [hresult]
    show ((index : ℕ) + 1) % 256 = _
    rw [hindex, Fin.val_ofNat, hcursor]
    omega
  · intro offset hoffset
    by_cases hbefore : offset < turned
    · exact (htried offset hbefore).more _
    have hplace : Fin.ofNat 256 (start + offset)
        = Fin.ofNat 256 ((after (earlier ++ later)).nextInvokeId + (offset - turned)) := by
      apply Fin.ext
      rw [Fin.val_ofNat, Fin.val_ofNat, hcursor]
      omega
    refine ⟨later, metadata, [], token, rfl, hok, ?_⟩
    rw [hplace]
    by_cases hlast : offset - turned = found
    · left
      rw [hresult] at hok
      cases hok
      rw [hlast]
      exact hindex
    · right
      have hmem := hpassed (offset - turned) (by omega)
      exact ⟨hmem, CoordinatorState.passed_active hmem⟩

/-- The cursor is `turned` places on from `start`, and all of them were tried. -/
theorem cursor_turned (hstart : (after earlier).nextInvokeId = start % 256) (later : List Call) :
    ∃ turned, (after (earlier ++ later)).nextInvokeId = (start + turned) % 256 ∧
      ∀ offset < turned, Tried earlier later (Fin.ofNat 256 (start + offset)) := by
  induction later using List.reverseRecOn with
  | nil =>
    refine ⟨0, ?_, fun _ h => absurd h (Nat.not_lt_zero _)⟩
    rw [List.append_nil]
    exact hstart
  | append_singleton later call ih =>
    obtain ⟨turned, hcursor, htried⟩ := ih
    rw [← List.append_assoc, after_concat]
    rcases nextInvokeId_perform (after (earlier ++ later)) call with
      hsame | ⟨metadata, token, rfl, hok⟩
    · refine ⟨turned, hsame.trans hcursor, ?_⟩
      intro offset hoffset
      exact (htried offset hoffset).more call
    · obtain ⟨turned', _, hcursor', htried'⟩ := cursor_reserve hcursor htried hok
      exact ⟨turned', hcursor', htried'⟩

/-! ## The laws -/

/-- The token of an active lease. -/
def CoordinatorState.Active (state : CoordinatorState) (token : LeaseToken) : Prop :=
  ∃ lease, state.slots token.invokeId = some lease ∧ lease.generation = token.generation

def issuedTokens (calls : List Call) : List (LeaseToken × LeaseMetadata) :=
  (trace calls).filterMap Reply.issued

def freedTokens (calls : List Call) : List LeaseToken := (trace calls).filterMap Reply.freed

def claimedTokens (calls : List Call) : List LeaseToken := (trace calls).filterMap Reply.claimed

/-- An answer is admitted for an active lease of its invoke ID, from the lease's own peer. -/
structure Admits (calls : List Call) (peer : CanonicalPeer) (apdu : Apdu) (admission : Admission) :
    Prop where
  peer : admission.metadata.peer = peer
  allowed : Allows admission.metadata apdu admission.kind
  invokeId : (responseInvokeId apdu).map UInt8.toFin = some admission.token.invokeId
  issued : (admission.token, admission.metadata) ∈ issuedTokens calls
  active : (after calls).Active admission.token
  unclaimed : admission.kind = .terminal → admission.token ∉ claimedTokens calls

/-- What holds after every run of calls, and of whatever call comes next. -/
structure LeaseLaws (calls : List Call) : Prop where
  /-- The count is the number of IDs leased. -/
  count : (after calls).activeCount = (after calls).occupied.card
  /-- It is not zero where a release takes one off. -/
  covered : ∀ token, ((after calls).releaseToken token).1 = .released →
    0 < (after calls).activeCount
  /-- One ID has one active lease. -/
  ids : ∀ token other, (after calls).Active token → (after calls).Active other →
    token.invokeId = other.invokeId → token = other
  /-- No two reservations get one generation. -/
  generations : ((issuedTokens calls).map (·.1.generation)).Nodup
  /-- A token is released once, and only then: the first time after it was issued. -/
  release_iff : ∀ token, ((after calls).releaseToken token).1 = .released ↔
    token ∈ (issuedTokens calls).map Prod.fst ∧ token ∉ freedTokens calls
  released_once : (freedTokens calls).Nodup
  /-- Every other release changes nothing. -/
  release_unchanged : ∀ token, ((after calls).releaseToken token).1 ≠ .released →
    ((after calls).releaseToken token).2 = after calls
  /-- A lease gets at most one terminal answer. -/
  terminal_once : (claimedTokens calls).Nodup
  admits : ∀ peer apdu admission, ((after calls).admit_ peer apdu).1 = .admitted admission →
    Admits calls peer apdu admission
  admits_source : ∀ immediateMac routedSource localNetwork apdu admission,
    ((after calls).admitFromSource immediateMac routedSource localNetwork apdu).1
      = .admitted admission →
    ∃ peer, (peer = .fromSource immediateMac routedSource localNetwork ∨
      CanonicalPeer.otherName immediateMac routedSource localNetwork = some peer) ∧
      Admits calls peer apdu admission
  /-- What is refused changes nothing. -/
  reserve_unchanged : ∀ metadata refused,
    ((after calls).reserve metadata).1 = .error refused →
    ((after calls).reserve metadata).2 = after calls
  admit_unchanged : ∀ peer apdu,
    (∀ admission, ((after calls).admit_ peer apdu).1 ≠ .admitted admission) →
    ((after calls).admit_ peer apdu).2 = after calls
  admit_source_unchanged : ∀ immediateMac routedSource localNetwork apdu,
    (∀ admission,
      ((after calls).admitFromSource immediateMac routedSource localNetwork apdu).1
        ≠ .admitted admission) →
    ((after calls).admitFromSource immediateMac routedSource localNetwork apdu).2 = after calls
  /-- An ID is leased again only once every other one was leased or found active since. -/
  reuse : ∀ earlier first later second token again,
    calls = earlier ++ Call.reserve first :: later →
    ((after earlier).reserve first).1 = .ok token →
    ((after calls).reserve second).1 = .ok again → again.invokeId = token.invokeId →
    ∀ other ≠ token.invokeId,
      Tried (earlier ++ [Call.reserve first]) (later ++ [Call.reserve second]) other

variable {calls : List Call} {peer : CanonicalPeer} {apdu : Apdu}

theorem admits_of_admit {admission : Admission}
    (h : ((after calls).admit_ peer apdu).1 = .admitted admission) :
    Admits calls peer apdu admission := by
  rcases (after calls).admit_cases peer apdu with ⟨outcome, hno, hresult⟩ |
    ⟨invokeId, active, kind, hinvoke, hactive, hpeer, hallows, hunclaimed, hresult⟩
  · rw [hresult] at h
    exact absurd h (hno admission)
  · rw [hresult] at h
    cases h
    obtain ⟨hissued, _, hnew⟩ := (booked_after calls).active _ active hactive
    refine ⟨hpeer, hallows, ?_, hissued, ⟨active, hactive, rfl⟩, ?_⟩
    · rw [hinvoke]
      rfl
    · intro hterminal
      exact hnew (hunclaimed hterminal)

theorem admit_refused {state : CoordinatorState}
    (h : ∀ admission, (state.admit_ peer apdu).1 ≠ .admitted admission) :
    (state.admit_ peer apdu).2 = state := by
  rcases state.admit_cases peer apdu with
    ⟨outcome, hno, hresult⟩ | ⟨_, _, _, _, _, _, _, _, hresult⟩
  · rw [hresult]
  · rw [hresult] at h
    exact absurd rfl (h _)

theorem release_iff (token : LeaseToken) :
    ((after calls).releaseToken token).1 = .released ↔
      token ∈ (issuedTokens calls).map Prod.fst ∧ token ∉ freedTokens calls := by
  have hbooked := booked_after calls
  constructor
  · intro hreleased
    rcases (after calls).releaseToken_cases token with
      ⟨outcome, hno, hresult, _⟩ | ⟨active, hactive, hgeneration, _⟩
    · rw [hresult] at hreleased
      exact absurd hreleased hno
    · obtain ⟨hissued, hkept, _⟩ := hbooked.active _ active hactive
      rw [hgeneration] at hissued hkept
      exact ⟨List.mem_map.mpr ⟨_, hissued, rfl⟩, hkept⟩
  · rintro ⟨hissued, hkept⟩
    obtain ⟨⟨issued, metadata⟩, hmem, rfl⟩ := List.mem_map.mp hissued
    obtain ⟨lease, hlease, hgeneration⟩ := hbooked.held issued metadata hmem hkept
    rcases (after calls).releaseToken_cases issued with
      ⟨outcome, _, _, hother⟩ | ⟨_, _, _, hresult⟩
    · exact absurd hgeneration (hother lease hlease)
    · rw [hresult]

/-- Between two leases of one ID the search goes all the way round. -/
theorem reuse_tried {first second : LeaseMetadata} {again : LeaseToken}
    (hfirst : ((after earlier).reserve first).1 = .ok token)
    (hsecond : ((after (earlier ++ Call.reserve first :: later)).reserve second).1 = .ok again)
    (hsame : again.invokeId = token.invokeId) {other : Fin 256} (hother : other ≠ token.invokeId) :
    Tried (earlier ++ [Call.reserve first]) (later ++ [Call.reserve second]) other := by
  have hstart : (after (earlier ++ [Call.reserve first])).nextInvokeId
      = ((token.invokeId : ℕ) + 1) % 256 := by
    rw [after_concat]
    show ((after earlier).reserve first).2.nextInvokeId = _
    rcases (after earlier).reserve_cases first with ⟨_, hresult⟩ | ⟨index, _, _, hresult⟩
    · rw [hresult] at hfirst
      cases hfirst
    · rw [hresult] at hfirst ⊢
      cases hfirst
      rfl
  have hsplit : earlier ++ Call.reserve first :: later
      = earlier ++ [Call.reserve first] ++ later := by simp
  rw [hsplit] at hsecond
  obtain ⟨turned, hcursor, htried⟩ := cursor_turned hstart later
  obtain ⟨turned', hmoved, hcursor', htried'⟩ := cursor_reserve hcursor htried hsecond
  -- The cursor is back where it was and has moved, so it went round.
  have hback : ((again.invokeId : ℕ) + 1) % 256 = ((token.invokeId : ℕ) + 1 + turned') % 256 := by
    rcases (after (earlier ++ [Call.reserve first] ++ later)).reserve_cases second with
      ⟨_, hresult⟩ | ⟨index, _, _, hresult⟩
    · rw [hresult] at hsecond
      cases hsecond
    · rw [hresult] at hsecond hcursor'
      cases hsecond
      exact hcursor'
  rw [hsame] at hback
  have hround : 256 ≤ turned' := by omega
  have hlt := other.isLt
  have htoken := token.invokeId.isLt
  have hplace : Fin.ofNat 256 ((token.invokeId : ℕ) + 1
      + ((other : ℕ) + 255 - token.invokeId) % 256) = other := by
    apply Fin.ext
    rw [Fin.val_ofNat]
    omega
  rw [← hplace]
  exact htried' _ (by omega)

/-- **Invoke-ID leases.** The laws hold after every run of calls. -/
theorem invoke_id_leases (calls : List Call) : LeaseLaws calls where
  count := (booked_after calls).count
  covered := by
    intro token hreleased
    rcases (after calls).releaseToken_cases token with
      ⟨outcome, hno, hresult, _⟩ | ⟨active, hactive, _, _⟩
    · rw [hresult] at hreleased
      exact absurd hreleased hno
    · rw [(booked_after calls).count, Finset.card_pos]
      refine ⟨token.invokeId, ?_⟩
      unfold CoordinatorState.occupied
      rw [Finset.mem_filter, hactive]
      exact ⟨Finset.mem_univ _, rfl⟩
  ids := by
    rintro ⟨index, generation⟩ ⟨index', generation'⟩ ⟨lease, hlease, rfl⟩ ⟨lease', hlease', rfl⟩ hsame
    dsimp only at hsame hlease hlease'
    subst hsame
    rw [hlease] at hlease'
    cases hlease'
    rfl
  generations := by
    unfold issuedTokens
    rw [(booked_after calls).generations]
    exact List.nodup_range'
  release_iff := release_iff
  released_once := (booked_after calls).freed_once
  release_unchanged := by
    intro token hother
    rcases (after calls).releaseToken_cases token with ⟨_, _, hresult, _⟩ | ⟨_, _, _, hresult⟩
    · rw [hresult]
    · rw [hresult] at hother
      exact absurd rfl hother
  terminal_once := (booked_after calls).claimed_once
  admits := fun peer apdu admission h => admits_of_admit h
  admits_source := by
    intro immediateMac routedSource localNetwork apdu admission h
    obtain ⟨peer, hpeer, hsame⟩ :=
      (after calls).admitFromSource_eq immediateMac routedSource localNetwork apdu
    rw [hsame] at h
    exact ⟨peer, hpeer, admits_of_admit h⟩
  reserve_unchanged := by
    intro metadata refused h
    rcases (after calls).reserve_cases metadata with ⟨_, hresult⟩ | ⟨_, _, _, hresult⟩
    · rw [hresult]
    · rw [hresult] at h
      cases h
  admit_unchanged := fun peer apdu h => admit_refused h
  admit_source_unchanged := by
    intro immediateMac routedSource localNetwork apdu h
    obtain ⟨peer, _, hsame⟩ :=
      (after calls).admitFromSource_eq immediateMac routedSource localNetwork apdu
    rw [hsame] at h ⊢
    exact admit_refused h
  reuse := by
    rintro earlier first later second token again rfl hfirst hsecond hsame other hother
    exact reuse_tried hfirst hsecond hsame hother

end RustyBacnet.Endpoint
