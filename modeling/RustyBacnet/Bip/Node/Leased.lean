import RustyBacnet.Bip.Bbmd.FdtLaws
import RustyBacnet.Bip.Node.RegistrationLaws

/-!
# A leased device is registered

A foreign device and its BBMD, with the messages between them: what the BBMD took from the device
covers one time-to-live from the request's start (`Pair.Sound`), and the device's lease begins no
later than that.
-/

namespace RustyBacnet.Bip.Node

/-! ## What a call leaves -/

namespace Lifecycle.Log

/-- What a call of a device that does not move leaves as it is, but for the lease. -/
structure Stays (a b : Log) : Prop where
  now : b.now = a.now
  ttl : b.lifecycle.ttl = a.lifecycle.ttl

theorem stays_ended (log : Log) (lifecycle : Lifecycle) (unanswered : List Instant) (release : Bool)
    (httl : lifecycle.ttl = log.lifecycle.ttl) {after : Log}
    (hafter : after = { log with
      lifecycle := (lifecycle.resolveFirst release).2
      unanswered := unanswered }.settle (lifecycle.resolveFirst release).1) :
    log.Stays after ∧ after.lifecycle.lease = lifecycle.lease := by
  subst hafter
  have hresolve : (lifecycle.resolveFirst release).2.ttl = lifecycle.ttl ∧
      (lifecycle.resolveFirst release).2.lease = lifecycle.lease := by
    unfold resolveFirst
    split_ifs <;> exact ⟨rfl, rfl⟩
  generalize lifecycle.resolveFirst release = resolved at hresolve ⊢
  unfold settle
  split <;> exact ⟨⟨rfl, hresolve.1.trans httl⟩, hresolve.2⟩

theorem stays_accepted (log : Log) : log.Stays (log.perform .accepted) ∧
    (log.perform .accepted).lifecycle.lease = some (log.lifecycle.proven log.now) :=
  log.stays_ended (log.lifecycle.accept log.now) [] true rfl rfl

theorem stays_of_unmoved {log : Log} {lifecycle : Lifecycle} (h : Unmoved lifecycle log.lifecycle) :
    log.Stays { log with lifecycle := lifecycle } ∧ lifecycle.lease = log.lifecycle.lease :=
  ⟨⟨rfl, h.ttl⟩, h.lease⟩

theorem stays_perform (log : Log) {call : Call} (haccepted : call ≠ .accepted)
    (hmove : ∀ foreign sameBbmd, call ≠ .retarget foreign sameBbmd) :
    log.Stays (log.perform call) ∧
      (log.perform call).lifecycle.lease = log.lifecycle.lease := by
  cases call with
  | admitted => exact ⟨⟨rfl, rfl⟩, rfl⟩
  | sent =>
    dsimp only [perform, Lifecycle.sent]
    cases log.lifecycle.attempt <;> exact ⟨⟨rfl, rfl⟩, rfl⟩
  | accepted => exact absurd rfl haccepted
  | refused => exact log.stays_ended (log.lifecycle.refuse log.now) [] false rfl rfl
  | failed outcome =>
    exact log.stays_ended (log.lifecycle.fail log.now outcome) log.unanswered true rfl rfl
  | lapse => exact ⟨⟨rfl, rfl⟩, rfl⟩
  | dueNow => exact stays_of_unmoved (unmoved_dueNow log.lifecycle log.now)
  | notBefore at_ => exact stays_of_unmoved (unmoved_notBefore log.lifecycle at_)
  | hint => exact stays_of_unmoved (unmoved_hint log.lifecycle log.now)
  | admitBroadcast =>
    dsimp only [perform, Lifecycle.admitBroadcast]
    split_ifs <;> exact ⟨⟨rfl, rfl⟩, rfl⟩
  | retarget foreign sameBbmd => exact absurd rfl (hmove foreign sameBbmd)

end Lifecycle.Log

/-! ## The device and its BBMD -/

/-- The address a call of the foreign device table is about. -/
def subject : FdtOp → Option SocketAddr
  | .register source .. => some source
  | .delete address => some address
  | .purge => none
  | .restore registration => some registration.address

/-- What happens to the device, its BBMD or the messages between them. A request can come any number
of times, or never, from its attempt's admission on, and so can the success of one that the BBMD
took. -/
inductive Event where
  | device (call : Lifecycle.Call)
  | request (start : Instant) (reservation : Reservation) (admit_ : Bool)
  | answer (start : Instant)
  | table (op : FdtOp)

/-- A device that stays with one BBMD, the BBMD's table, and the starts of the requests taken. -/
structure Pair (N : ℕ) where
  log : Lifecycle.Log
  fdt : Fdt N
  taken : List Instant

namespace Pair

variable {N : ℕ}

/-- One event. A success is taken when the send was reported, less than the answer window after its
request's start; and nobody else asks for the device's entry. -/
def perform (device : SocketAddr) (ttl : UInt16) (limits : RegistrationLimits) (pair : Pair N) :
    Event → Pair N
  | .device .accepted | .device (.retarget ..) => pair
  | .device call => { pair with log := pair.log.perform call }
  | .request start reservation admit_ =>
    if start ∈ pair.log.sent ∨ start ∈ pair.log.lifecycle.attempt then
      let ((result, _), fdt) :=
        pair.fdt.register device ttl pair.log.now limits reservation admit_
      { pair with
        fdt := fdt
        taken := if result.toBool then start :: pair.taken else pair.taken }
    else pair
  | .answer start =>
    if start ∈ pair.taken ∧ start ∈ pair.log.sent ∧
        pair.log.now < start + pair.log.lifecycle.answerWindow then
      { pair with log := pair.log.perform .accepted }
    else pair
  | .table op =>
    if subject op = some device then pair
    else { pair with fdt := pair.fdt.apply limits pair.log.now op }

def step (device : SocketAddr) (ttl : UInt16) (limits : RegistrationLimits) (pair : Pair N)
    (event : Instant × Event) : Pair N :=
  { pair with log := { pair.log with now := max event.1 pair.log.now } }.perform device ttl limits
    event.2

def run (foreign : Foreign) (device : SocketAddr) (ttl : UInt16) (limits : RegistrationLimits)
    (fdt : Fdt N) (start : Instant) (events : List (Instant × Event)) : Pair N :=
  events.foldl (step device ttl limits) ⟨Lifecycle.Log.run foreign start [], fdt, []⟩

/-- At `later` the table has a registration of the device in its time-to-live, without the grace
period. -/
def Holds (fdt : Fdt N) (device : SocketAddr) (later : Instant) : Prop :=
  ∃ entry ∈ fdt.holds device later, later < satAdd entry.registeredAt (fromSecs entry.ttl.toNat)

def Covers (pair : Pair N) (device : SocketAddr) (end_ : Instant) : Prop :=
  ∀ later, pair.log.now ≤ later → later < end_ → Holds pair.fdt device later

/-- What every run of the pair keeps. -/
structure Sound (device : SocketAddr) (ttl : UInt16) (pair : Pair N) : Prop where
  log : pair.log.Sound
  ttl_eq : pair.log.lifecycle.ttl = fromSecs ttl.toNat
  past : ∀ start ∈ pair.taken, start ≤ pair.log.now
  taken : ∀ start ∈ pair.taken, pair.Covers device (satAdd start (fromSecs ttl.toNat))
  ends : ∀ lease ∈ pair.log.lifecycle.lease,
    lease.until_ ≤ satAdd pair.log.now (fromSecs ttl.toNat)
  lease : ∀ lease ∈ pair.log.lifecycle.lease, pair.Covers device lease.until_

variable {device : SocketAddr} {ttl : UInt16} {limits : RegistrationLimits} {pair : Pair N}

theorem Sound.later (h : Sound device ttl pair) (at_ : Instant) :
    Sound device ttl { pair with log := { pair.log with now := max at_ pair.log.now } } :=
  ⟨h.log.later at_, h.ttl_eq, fun start hstart => (h.past start hstart).trans (le_max_right _ _),
    fun start hstart later hle => h.taken start hstart later ((le_max_right _ _).trans hle),
    fun lease hlease => (h.ends lease hlease).trans (satAdd_mono _ (le_max_right _ _)),
    fun lease hlease later hle => h.lease lease hlease later ((le_max_right _ _).trans hle)⟩

theorem Sound.table (h : Sound device ttl pair) {fdt : Fdt N}
    (hholds : ∀ later, pair.log.now ≤ later → fdt.holds device later = pair.fdt.holds device later)
    : Sound device ttl { pair with fdt := fdt } := by
  refine ⟨h.log, h.ttl_eq, h.past, fun start hstart later hle hlt => ?_, h.ends,
    fun lease hlease later hle hlt => ?_⟩
  · unfold Holds
    rw [hholds later hle]
    exact h.taken start hstart later hle hlt
  · unfold Holds
    rw [hholds later hle]
    exact h.lease lease hlease later hle hlt

theorem Sound.called (h : Sound device ttl pair) {log : Lifecycle.Log} (hlog : log.Sound)
    (hstays : pair.log.Stays log)
    (hends : ∀ lease ∈ log.lifecycle.lease, lease.until_ ≤ satAdd pair.log.now (fromSecs ttl.toNat))
    (hlease : ∀ lease ∈ log.lifecycle.lease, pair.Covers device lease.until_) :
    Sound device ttl { pair with log := log } := by
  refine ⟨hlog, hstays.ttl.trans h.ttl_eq, fun start hstart => ?_, fun start hstart later hle => ?_,
    fun lease hin => ?_, fun lease hin later hle => ?_⟩
  · rw [hstays.now]
    exact h.past start hstart
  · exact h.taken start hstart later (hstays.now ▸ hle)
  · rw [hstays.now]
    exact hends lease hin
  · exact hlease lease hin later (hstays.now ▸ hle)

theorem Sound.answer (h : Sound device ttl pair) {start : Instant} (htaken : start ∈ pair.taken)
    (hsent : start ∈ pair.log.sent)
    (hwindow : pair.log.now < start + pair.log.lifecycle.answerWindow) :
    Sound device ttl { pair with log := pair.log.perform .accepted } := by
  obtain ⟨hstays, hlease⟩ := pair.log.stays_accepted
  refine h.called (h.log.perform .accepted) hstays (fun lease hin => ?_)
    fun lease hin later hle hlt => ?_
  · obtain rfl := Option.some.inj (hlease.symm.trans hin)
    rw [← h.ttl_eq]
    exact satAdd_mono _ h.log.proven.1
  obtain rfl := Option.some.inj (hlease.symm.trans hin)
  have hsince := h.log.proven.2.2 start hsent hwindow
  refine h.taken start htaken later hle (hlt.trans_le ?_)
  rw [← h.ttl_eq]
  exact satAdd_mono _ hsince

theorem holds_place (fdt : Fdt N) {now later start : Instant} (hstart : start ≤ now)
    (hlater : later < satAdd start (fromSecs ttl.toNat)) :
    Holds (fdt.place ⟨device, ttl, now⟩) device later := by
  have hlive : (⟨device, ttl, now⟩ : Registration).isExpiredAt later = false := by
    have hlifetime : fromSecs ttl.toNat ≤ fromSecs (ttl.toNat + graceSeconds) :=
      min_le_min_right _ (Nat.mul_le_mul_right _ (Nat.le_add_right _ _))
    have hsum : later < start + fromSecs ttl.toNat := hlater.trans_le (min_le_left _ _)
    refine Registration.isExpiredAt_iff.mpr (le_trans ?_ hlifetime)
    exact Nat.sub_le_iff_le_add'.mpr (hsum.le.trans (Nat.add_le_add_right hstart _))
  refine ⟨⟨device, ttl, now⟩, ?_, hlater.trans_le (satAdd_mono _ hstart)⟩
  refine Option.mem_def.mpr ((Fdt.find_place_self fdt _ ⟨device, ttl, now⟩).trans ?_)
  rw [hlive]
  rfl

theorem Sound.request (h : Sound device ttl pair) {start : Instant}
    (hsent : start ∈ pair.log.sent ∨ start ∈ pair.log.lifecycle.attempt)
    (reservation : Reservation) (admit_ : Bool) :
    Sound device ttl (pair.perform device ttl limits (.request start reservation admit_)) := by
  dsimp only [Pair.perform]
  rw [if_pos hsent]
  have hplaced : ∀ fdt : Fdt N, fdt = (pair.fdt.purge pair.log.now).2.place
      ⟨device, ttl, pair.log.now⟩ → Sound device ttl ⟨pair.log, fdt, start :: pair.taken⟩ := by
    rintro fdt rfl
    have hpast : ∀ begun ∈ start :: pair.taken, begun ≤ pair.log.now := by
      refine List.forall_mem_cons.mpr ⟨?_, h.past⟩
      rcases hsent with hsent | hattempt
      · exact h.log.past start hsent
      · exact (h.log.attempt start hattempt).1
    refine ⟨h.log, h.ttl_eq, hpast, ?_, h.ends, ?_⟩
    · exact fun begun hbegun later hle hlt => holds_place _ (hpast begun hbegun) hlt
    · refine fun lease hlease later hle hlt => holds_place _ (le_refl _) ?_
      exact hlt.trans_le (h.ends lease hlease)
  rcases pair.fdt.register_cases device ttl pair.log.now limits reservation admit_ with
    ⟨refused, hresult, hfdt⟩ | ⟨hresult, hfdt, -⟩ | ⟨hresult, hfdt, -⟩
  · rw [hresult, hfdt]
    exact h.table fun later hle => Fdt.holds_purge hle device
  · rw [hresult]
    exact hplaced _ hfdt
  · rw [hresult]
    exact hplaced _ hfdt

/-- What one event keeps. -/
theorem Sound.perform (h : Sound device ttl pair) (event : Event) :
    Sound device ttl (pair.perform device ttl limits event) := by
  cases event with
  | device call =>
    have hcall (haccepted : call ≠ .accepted)
        (hmove : ∀ foreign sameBbmd, call ≠ .retarget foreign sameBbmd) :
        Sound device ttl { pair with log := pair.log.perform call } := by
      obtain ⟨hstays, hlease⟩ := pair.log.stays_perform haccepted hmove
      exact h.called (h.log.perform call) hstays (hlease ▸ h.ends) (hlease ▸ h.lease)
    cases call with
    | accepted => exact h
    | retarget foreign sameBbmd => exact h
    | _ => exact hcall nofun nofun
  | request start reservation admit_ =>
    by_cases hsent : start ∈ pair.log.sent ∨ start ∈ pair.log.lifecycle.attempt
    · exact h.request hsent reservation admit_
    · dsimp only [Pair.perform]
      rw [if_neg hsent]
      exact h
  | answer start =>
    dsimp only [Pair.perform]
    split_ifs with hanswer
    · exact h.answer hanswer.1 hanswer.2.1 hanswer.2.2
    · exact h
  | table op =>
    dsimp only [Pair.perform]
    split_ifs with hsubject
    · exact h
    · refine h.table fun later hle => Fdt.holds_apply (fun hresets => hsubject ?_) hle
      cases op with
      | register source ttl reservation admit_ => exact congrArg some hresets.1
      | delete address => exact congrArg some hresets
      | purge => exact hresets.elim
      | restore registration => exact congrArg some hresets.1

/-- In every run of a device and its BBMD, whatever messages are lost, repeated or late: while the
device sees its lease live, the BBMD's table has a registration of it in its time-to-live, the grace
period not counted. -/
theorem registered_while_leased {foreign : Foreign} (httl : foreign.ttl = fromSecs ttl.toNat)
    (fdt : Fdt N) (start : Instant) (events : List (Instant × Event)) :
    let pair := run foreign device ttl limits fdt start events
    pair.log.lifecycle.isLiveAt pair.log.now = true →
      ∃ entry ∈ pair.fdt.liveAt pair.log.now, entry.address = device ∧
        pair.log.now < satAdd entry.registeredAt (fromSecs entry.ttl.toNat) := by
  intro pair hlive
  have hsound : Sound device ttl pair := by
    refine List.foldlRecOn events (step device ttl limits) ?_ fun pair h event _ =>
      (h.later event.1).perform event.2
    exact ⟨.run foreign start [], httl, nofun, nofun, nofun, nofun⟩
  unfold Lifecycle.isLiveAt at hlive
  cases hlease : pair.log.lifecycle.lease with
  | none =>
    rw [hlease] at hlive
    cases hlive
  | some lease =>
    rw [hlease] at hlive
    obtain ⟨entry, hentry, hin⟩ :=
      hsound.lease lease hlease pair.log.now (le_refl _) (of_decide_eq_true hlive)
    rw [Fdt.holds_eq, Option.mem_def] at hentry
    exact ⟨entry, List.mem_of_find?_eq_some hentry, Fdt.address_of_find? hentry, hin⟩

theorem registered_while_leased_once :
    ∃ entry ∈ (run ⟨true, fromSecs 60, fromSecs 30, fromSecs 3, .backoff, 0⟩ ⟨.unspecified, 7⟩ 60
      .default (.new : Fdt 1) 0 [(1, .device .admitted), (1, .device .sent),
        (2, .request 1 .ordinary true), (3, .answer 1)]).fdt.liveAt 3,
      entry.address = ⟨.unspecified, 7⟩ ∧
        3 < satAdd entry.registeredAt (fromSecs entry.ttl.toNat) :=
  registered_while_leased (by decide) .new 0 [(1, .device .admitted), (1, .device .sent),
    (2, .request 1 .ordinary true), (3, .answer 1)] (by decide)

end Pair

end RustyBacnet.Bip.Node
