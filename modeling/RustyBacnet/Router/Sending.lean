import RustyBacnet.Router.Polling

/-!
# What a router sends over a run

A law that every output of a frame meets, beside those of the router's own, holds of every send of
every run. `Quiet` collects the calls that leave the current output alone; what is left is a
received frame, a request of the router's own and a poll.
-/

namespace RustyBacnet.Router

namespace Storage

variable {R H D B : ℕ} {G : Type} {s t u : Storage R H D B G}
  {P : Npdu → Kind → RejectOrigin → Prop}

/-! ## Calls that leave the current output alone -/

theorem Queued.quiet {tasks : List Task} (h : Queued s t tasks) : Quiet s t :=
  ⟨by rw [h.ports], h.scratch, by rw [h.out]⟩

theorem quiet_push (s : Storage R H D B G) (task : Task) : Quiet s (s.push task) := by
  unfold push debugAssert
  dsimp only
  split_ifs
  all_goals exact ⟨rfl, rfl, rfl⟩

theorem quiet_queueReject (s : Storage R H D B G) (origin : RejectOrigin)
    (reason : RejectMessageReason) : Quiet s (s.queueReject origin reason) :=
  (queued_bump s _).quiet.trans (quiet_push _ _)

theorem loaded_dropUndrained (s : Storage R H D B G) : Loaded s.dropUndrained P :=
  .of_drained (drained_dropUndrained s)

theorem quiet_refusedLater (s : Storage R H D B G) (why : SendRefusal)
    (origin : Option RejectOrigin) : Quiet s (s.refusedLater why origin) := by
  refine Quiet.trans ?_ (queued_bump _ _).quiet
  split_ifs
  · cases origin with
    | none => exact (queued_bump s _).quiet
    | some origin => exact (queued_bump s _).quiet.trans (quiet_queueReject _ _ _)
  · exact Quiet.refl s

theorem quiet_endRefusedAnswer (s : Storage R H D B G) : Quiet s s.endRefusedAnswer := by
  unfold endRefusedAnswer
  dsimp only
  split_ifs
  all_goals exact ⟨rfl, rfl, rfl⟩

/-- Nothing waits that did not wait before. -/
def QueuesNone (s t : Storage R H D B G) : Prop := t.out.tasks.Sublist s.out.tasks

theorem queuesNone_refusedLater (s : Storage R H D B G) (why : SendRefusal) :
    QueuesNone s (s.refusedLater why none) := by
  unfold refusedLater QueuesNone
  split_ifs <;> exact List.Sublist.refl _

theorem queuesNone_endRefusedAnswer (s : Storage R H D B G) : QueuesNone s s.endRefusedAnswer := by
  unfold endRefusedAnswer QueuesNone
  dsimp only
  split_ifs with hends
  · cases htasks : s.out.tasks with
    | nil =>
      rw [htasks] at hends
      simp at hends
    | cons task rest =>
      show (Outputs.pop ⟨s.out.current, task :: rest, false, s.out.lastPort⟩).tasks.Sublist _
      rw [pop_cons ⟨s.out.current, task :: rest, false, s.out.lastPort⟩ rfl]
      exact List.sublist_cons_self task rest
  · exact List.Sublist.refl _

theorem quiet_refusedWhileClogged (s : Storage R H D B G) : Quiet s s.refusedWhileClogged := by
  unfold refusedWhileClogged
  dsimp only
  split
  · split_ifs
    · exact quiet_queueReject s _ _
    · exact Quiet.refl s
  · exact Quiet.refl s

theorem quiet_egressBacklog (s : Storage R H D B G) (port : PortId) (backlog : Backlog)
    (now : Instant) (policy : Congestion) : Quiet s (s.egressBacklog port backlog now policy) := by
  unfold egressBacklog
  split
  · exact Quiet.refl s
  · dsimp only
    split
    all_goals exact ⟨rfl, rfl, rfl⟩

theorem queued_observeAll (event : UInt16 → Event) (networks : List UInt16)
    (s : Storage R H D B G) : Queued s (s.observeAll event networks) [] :=
  queued_foldl (fun s _ => queued_observe s _) networks s

theorem queued_noteAll {note : UInt16 → Note} (h : ∀ network a, note network ≠ .failed a)
    (networks : List UInt16) (s : Storage R H D B G) : Queued s (s.noteAll note networks) [] :=
  queued_foldl (fun s network => queued_note s (h network)) networks s

theorem queued_sweep (s : Storage R H D B G) (now : Instant) (options : Options) :
    Queued s (s.sweep now options) [] := by
  unfold sweep
  dsimp only
  have h0 := (queued_setTable s (s.table.purgeStale now options.learnedAge).1).trans
    ((@queued_noteAll R H D B G .purged (fun _ _ => Note.noConfusion)
      (s.table.purgeStale now options.learnedAge).2 _).trans
    (queued_observeAll .purged (s.table.purgeStale now options.learnedAge).2 _))
  refine h0.trans ?_
  generalize (((s.setTable (s.table.purgeStale now options.learnedAge).1).noteAll .purged
    (s.table.purgeStale now options.learnedAge).2).observeAll .purged
    (s.table.purgeStale now options.learnedAge).2) = t
  have h1 := (queued_setTable t (t.table.clearExpiredBusy now).1).trans
    ((queued_setTable _ ((t.setTable (t.table.clearExpiredBusy now).1).table.expirePending now
      options.timing).1).trans (queued_observeAll .pendingExpired
      ((t.setTable (t.table.clearExpiredBusy now).1).table.expirePending now options.timing).2 _))
  refine h1.trans ?_
  generalize (((t.setTable (t.table.clearExpiredBusy now).1).setTable
    ((t.setTable (t.table.clearExpiredBusy now).1).table.expirePending now options.timing).1
    ).observeAll .pendingExpired
    ((t.setTable (t.table.clearExpiredBusy now).1).table.expirePending now options.timing).2) = u
  have h2 := (queued_setDiscovery u (u.discovery.expire now options.discoveryAge).1).trans
    (queued_observeAll .discoveryExpired (u.discovery.expire now options.discoveryAge).2 _)
  refine h2.trans ?_
  exact ⟨rfl, rfl, rfl, by rw [List.append_nil], rfl⟩

theorem queued_noteTable (s : Storage R H D B G) (op : TableOp) (outcome : TableOutcome) :
    Queued s (s.noteTable op outcome) [] := by
  unfold noteTable
  split
  all_goals first
    | exact queued_note s fun _ => Note.noConfusion
    | exact queued_noteAll (fun _ _ => Note.noConfusion) _ s
    | exact Queued.refl s
    | skip
  split_ifs
  · exact queued_note s fun _ => Note.noConfusion
  · exact Queued.refl s

variable {npdu : Npdu}

theorem Wrote.loaded {kind : Kind} {target : Target} {origin : RejectOrigin}
    (h : Wrote s t npdu kind target origin) (hP : P npdu kind origin) : Loaded t P := by
  intro _
  have hcurrent : t.out.current = currentOf npdu kind target origin := by rw [h.out]
  have hlen : npdu.wire.length = npdu.encodedLen := npdu.length_wire
  refine ⟨npdu, ⟨h.encodable, ?_, ?_, ?_, ?_⟩, ?_, ?_⟩
  · rw [hcurrent]
    exact new_len _ _ _ _ _
  · rw [h.scratch, List.length_append, hlen]
    omega
  · rw [h.scratch, ← hlen]
    exact List.take_left
  · rw [hcurrent]
    exact new_start _ _ _ _ _
  · rw [hcurrent, show (currentOf npdu kind target origin).kind = kind from new_kind _ _ _ _ _]
    exact hP
  · intro hne
    rw [hcurrent] at hne
    exact absurd (new_tail _ _ _ _ _) hne

variable {W : Npdu → Kind → Target → RejectOrigin → Prop} {most : ℕ}

theorem Leaves.loaded (h : Leaves s t most W) (hs : Loaded s P)
    (hW : ∀ npdu kind target origin, W npdu kind target origin → P npdu kind origin) :
    Loaded t P := by
  cases h with
  | queued tasks hq _ => exact hq.quiet.loaded hs
  | wrote npdu kind target origin hwrote hw => exact hwrote.loaded (hW _ _ _ _ hw)

theorem Leaves.ports (h : Leaves s t most W) : t.ports = s.ports := by
  cases h with
  | queued tasks hq _ => exact hq.ports
  | wrote npdu kind target origin hwrote hw => exact hwrote.ports

/-! ## Requests of the router's own -/

/-- What a request does to the outputs: a search may be queued, or the request is written. -/
inductive Requested (s t : Storage R H D B G) : Prop
  | queued (tasks : List Task) (h : Queued s t tasks) (hmost : tasks.length ≤ 1)
  | wrote (ports : t.ports = s.ports) (flows : t.flows = s.flows)
      (room : t.scratch.length = s.scratch.length) (tasks : t.out.tasks = s.out.tasks)
      (faults : t.faults = s.faults) (origin : t.out.current.rejectOrigin = .none)
      (loaded : ∀ P, OutputLaw P → Loaded t P)

theorem Requested.after (h : Queued s t []) (h' : Requested t u) : Requested s u := by
  cases h' with
  | queued tasks hq hmost => exact .queued tasks (h.trans hq) hmost
  | wrote ports flows room tasks faults origin loaded =>
    exact .wrote (ports.trans h.ports) (flows.trans h.flows)
      (room.trans (by rw [h.scratch])) (tasks.trans (by rw [h.out_eq]))
      (faults.trans h.faults) origin loaded

theorem Requested.still (h : Queued s t []) : Requested s t := .queued [] h (Nat.zero_le _)

theorem requested_written {current : Current} (henc : npdu.Encodable)
    (hroom : npdu.encodedLen ≤ s.scratch.length) (hlen : current.len = npdu.encodedLen)
    (hstart : current.start = 0) (hown : OwnOutput npdu current.kind)
    (horigin : current.rejectOrigin = .none) (htail : current.tail ≠ 0 → TailOk current npdu) :
    Requested s (((s.setScratch (npdu.wire ++ s.scratch.drop npdu.encodedLen)).setCurrent
      current).bump .originated) := by
  have hwire := npdu.length_wire
  refine .wrote rfl rfl ?_ rfl rfl horigin fun P law _ => ⟨npdu, ⟨henc, hlen, ?_, ?_, hstart⟩, ?_, htail⟩
  · show (npdu.wire ++ s.scratch.drop npdu.encodedLen).length = _
    rw [List.length_append, List.length_drop, hwire]
    omega
  · show _ ≤ (npdu.wire ++ s.scratch.drop npdu.encodedLen).length
    rw [List.length_append, hwire]
    omega
  · show (npdu.wire ++ s.scratch.drop npdu.encodedLen).take npdu.encodedLen = _
    rw [← hwire]
    exact List.take_left
  · show P npdu current.kind current.rejectOrigin
    rw [horigin]
    exact law.own npdu _ hown

theorem bareHeader (hdestination : npdu.destination = some ⟨globalNetwork, []⟩)
    (htype : npdu.messageType = none) :
    ({ npdu with source := none, payload := [] } : Npdu).encodeInto (List.replicate 6 0)
      = (.ok 6, [npduVersion, (bare npdu).controlOctet, 0xFF, 0xFF, 0, npdu.hopCount]) := by
  generalize hhead : ({ npdu with source := none, payload := [] } : Npdu) = head
  have henc : head.Encodable := by
    rw [← hhead]
    refine ⟨?_, nofun⟩
    rintro address haddress
    rw [hdestination] at haddress
    cases haddress
    exact ⟨by decide, by decide⟩
  have hwire : head.wire
      = [npduVersion, (bare npdu).controlOctet, 0xFF, 0xFF, 0, npdu.hopCount] := by
    have hcontrol : head.controlOctet = (bare npdu).controlOctet := by
      rw [← hhead]
      rfl
    unfold Npdu.wire
    rw [hcontrol, ← hhead]
    rw [hdestination, htype]
    rfl
  have hlen : head.encodedLen = 6 := by
    rw [← head.length_wire, hwire]
    rfl
  rw [Npdu.encodeInto_of_encodable henc (by rw [hlen]; decide), hlen, hwire]
  rfl

theorem originateGlobal_requested (s : Storage R H D B G) (request : Request)
    (selected : Option PortId) (hselected : ∀ port, selected = some port → (s.portOf port).isSome) :
    Requested s (s.originateGlobal request selected).1 := by
  unfold originateGlobal
  dsimp only
  generalize hnamed : (if 1 < s.ports.length then selected else none) = named
  have hknown : ∀ port, named = some port → ∃ address, s.addressOf port = some address := by
    intro port h
    rw [← hnamed] at h
    split_ifs at h
    obtain ⟨config, hconfig⟩ := Option.isSome_iff_exists.mp (hselected port h)
    exact ⟨_, by unfold addressOf; rw [hconfig]; rfl⟩
  generalize hplain : requestNpdu request ⟨globalNetwork, []⟩ = plain
  have hdestination : plain.destination = some ⟨globalNetwork, []⟩ := by rw [← hplain]; rfl
  have htype : plain.messageType = none := by rw [← hplain]; rfl
  cases s.globalTooLong named plain.encodedLen
    ({ plain with source := named.bind s.addressOf } : Npdu).encodedLen with
  | some refused => exact .still (queued_bump s _)
  | none =>
    dsimp only
    rcases ({ plain with source := named.bind s.addressOf } : Npdu).encodeInto_cases s.scratch with
      ⟨refused, h⟩ | ⟨henc, hroom, h⟩
    · rw [h]
      exact .still (queued_bump s _)
    · rw [h]
      dsimp only
      cases hport : named with
      | none =>
        subst hport
        exact requested_written henc hroom (new_len _ _ _ _ _) (new_start _ _ _ _ _)
          (by rw [new_kind]; exact ⟨rfl, nofun⟩) (new_rejectOrigin _ _ _ _ _)
          fun hne => absurd (new_tail _ _ _ _ _) hne
      | some port =>
        subst hport
        obtain ⟨address, haddress⟩ := hknown port rfl
        rw [bareHeader hdestination htype]
        rw [if_pos (show (some port).isSome = true from rfl)]
        rw [debugAssert_of _ _ (by rfl)]
        refine requested_written henc hroom (new_len _ _ _ _ _) (new_start _ _ _ _ _)
          (by unfold Current.withTail; dsimp only; rw [new_kind]; exact ⟨rfl, nofun⟩)
          (new_rejectOrigin _ _ _ _ _) fun _ => ⟨hdestination, ⟨address, ?_, ?_⟩, rfl⟩
        · exact haddress
        · show ({ plain with source := (some port).bind s.addressOf } : Npdu).encodedLen
            - plain.encodedLen = 3 + address.mac.length
          rw [show (some port).bind s.addressOf = some address from haddress]
          unfold Npdu.encodedLen
          have hsource : plain.source = none := by rw [← hplain]; rfl
          rw [hsource]
          simp only [Npdu.addressLen, Option.elim_some, Option.elim_none]
          omega

theorem writeRequest_requested (s : Storage R H D B G) (npdu : Npdu) (limits : NpduLimits)
    (port : PortId) (dest : List UInt8) : Requested s (s.writeRequest npdu limits port dest).1 := by
  unfold writeRequest
  dsimp only
  split
  · exact .still (queued_bump s _)
  rcases npdu.encodeInto_cases s.scratch with ⟨refused, h⟩ | ⟨henc, hroom, h⟩
  · rw [h]
    exact .still (queued_bump s _)
  · rw [h]
    exact requested_written henc hroom (new_len _ _ _ _ _) (new_start _ _ _ _ _)
      (by rw [new_kind]; exact ⟨rfl, nofun⟩) (new_rejectOrigin _ _ _ _ _)
      fun hne => absurd (new_tail _ _ _ _ _) hne

theorem originateAlong_requested [GroupClassifier G] (s : Storage R H D B G) (request : Request)
    (selected : Option PortId) (route : Route) :
    Requested s (s.originateAlong request selected route).1 := by
  unfold originateAlong
  cases s.portOf route.port with
  | none => exact .still (Queued.refl s)
  | some egress =>
    dsimp only
    split
    · exact .still (Queued.refl s)
    · exact writeRequest_requested s _ _ _ _

theorem originateTo_requested [GroupClassifier G] (hs : s.Drained) (request : Request)
    (now : Instant) (options : Options) (selected : Option PortId) :
    Requested s (s.originateTo request now options selected).1 := by
  unfold originateTo
  dsimp only
  cases s.table.lookup request.destination.network with
  | none =>
    obtain ⟨tasks, h, hlen⟩ := queued_solicit noPort request.destination.network now
      options.discoveryCooldown (s := s) (by rw [hs.tasks]; decide)
    exact .queued tasks h hlen
  | some route =>
    dsimp only
    have h := queued_setTable s (s.table.touch request.destination.network now)
    split
    · exact .still h
    · exact .still h
    · exact .after h (originateAlong_requested _ request selected route)

theorem originate_requested [GroupClassifier G] (s : Storage R H D B G) (request : Request)
    (now : Instant) (options : Options) :
    Requested s.dropUndrained (s.originate request now options).1 := by
  have hstill : Requested s.dropUndrained s.dropUndrained := .still (Queued.refl _)
  unfold originate
  dsimp only
  split
  · exact hstill
  split
  · exact hstill
  split
  · exact hstill
  split
  · exact hstill
  cases hselect : s.dropUndrained.selectSource request.source with
  | error refused => exact hstill
  | ok selected =>
    dsimp only
    split
    · refine originateGlobal_requested _ request selected fun port hport => ?_
      subst hport
      unfold selectSource at hselect
      split at hselect
      · cases hselect
      · split_ifs at hselect with hknown
        cases hselect
        exact hknown
    · exact originateTo_requested (drained_dropUndrained s) request now options selected

theorem Requested.loaded (h : Requested s t) (law : OutputLaw P) (hs : Loaded s P) :
    Loaded t P := by
  cases h with
  | queued tasks hq _ => exact hq.quiet.loaded hs
  | wrote _ _ _ _ _ _ loaded => exact loaded P law

theorem Requested.ports (h : Requested s t) : t.ports = s.ports := by
  cases h with
  | queued tasks hq _ => exact hq.ports
  | wrote ports _ _ _ _ _ _ => exact ports

end Storage

/-! ## Runs -/

def Call.quiet : Call → Bool
  | .start => false
  | .announcePort _ => false
  | .receive _ _ _ => false
  | .originate _ _ => false
  | .poll => false
  | _ => true

namespace Engine

open Storage

variable {R H D B : ℕ} {G : Type} {P : Npdu → Kind → RejectOrigin → Prop}
  {router : Engine R H D B G}

theorem new_outputs {capacity : ℕ} {scratch : List UInt8} {ports : List (PortConfig G)}
    {options : Options} {now : Instant}
    (h : Engine.new R H D B capacity scratch ports options now = .ok router) :
    router.storage.out = .new ∧ router.storage.notes = [] := by
  obtain ⟨_, table, _, rfl⟩ := new_cases h
  exact ⟨rfl, rfl⟩

theorem quiet_clocked (router : Engine R H D B G) (now : Instant) :
    Quiet router.storage (router.clocked now) := ⟨rfl, rfl, rfl⟩

theorem quiet_refused (router : Engine R H D B G) (why : SendRefusal) :
    Quiet router.storage (router.refused why) := by
  have h := (quiet_refusedLater router.storage why none).trans (quiet_endRefusedAnswer _)
  unfold Engine.refused
  split_ifs
  · exact h.trans (quiet_refusedWhileClogged _)
  · exact h

theorem quiet_setPortMaxNpdu (s : Storage R H D B G) (port : PortId) (limits : NpduLimits) :
    Quiet s (setPortMaxNpdu s port limits).1 := by
  unfold setPortMaxNpdu
  split
  · exact Quiet.refl s
  · split_ifs
    · exact Quiet.refl s
    · exact ⟨List.length_set, rfl, rfl⟩

variable {call : Call}

theorem step_quiet [GroupClassifier G] (router : Engine R H D B G) (h : call.quiet = true) :
    Quiet router.storage (router.step call).1.storage := by
  cases call with
  | start => cases h
  | announcePort port => cases h
  | receive frame now host => cases h
  | originate request now => cases h
  | poll => cases h
  | refused why => exact quiet_refused router why
  | refusedLater why origin => exact quiet_refusedLater _ why origin
  | egressBacklog port backlog now =>
    unfold step
    dsimp only
    split
    · exact (quiet_clocked router now).trans (quiet_egressBacklog _ _ _ _ _)
    · exact quiet_clocked router now
  | setPortMaxNpdu port limits => exact quiet_setPortMaxNpdu _ port limits
  | onDeadline now =>
    have hclock := quiet_clocked router now
    unfold step
    dsimp only
    split_ifs
    · exact hclock
    · exact hclock.trans (queued_sweep _ _ _).quiet
  | cancelDiscovery => exact (queued_setDiscovery _ _).quiet
  | takeCounters => exact ⟨rfl, rfl, rfl⟩
  | table op => exact ((queued_setTable _ _).trans (queued_noteTable _ _ _)).quiet

theorem receive_loaded [GroupClassifier G] (router : Engine R H D B G) (frame : Frame)
    (now : Instant) (host : Claim → Bool)
    (hframe : ∀ sent kind target origin, OutputFor frame sent kind target origin →
      P sent kind origin) :
    Loaded (router.step (.receive frame now host)).1.storage P :=
  (receive_leaves _ frame _ router.options host).loaded (loaded_dropUndrained _) hframe

/-- One call keeps the current output under a law that the frame's own output meets. -/
theorem step_loaded [GroupClassifier G] (law : OutputLaw P) (router : Engine R H D B G) (call : Call)
    (hframe : ∀ frame now host, call = .receive frame now host →
      ∀ sent kind target origin, OutputFor frame sent kind target origin → P sent kind origin)
    (h : Loaded router.storage P) : Loaded (router.step call).1.storage P := by
  by_cases hquiet : call.quiet = true
  · exact (router.step_quiet hquiet).loaded h
  cases call with
  | start => exact (quiet_push _ _).loaded (loaded_dropUndrained _)
  | announcePort port =>
    unfold step
    dsimp only
    split_ifs
    · exact (quiet_push _ _).loaded (loaded_dropUndrained _)
    · exact h
  | receive frame now host =>
    exact router.receive_loaded frame now host (hframe frame now host rfl)
  | originate request now =>
    exact (originate_requested _ request _ router.options).loaded law (loaded_dropUndrained _)
  | poll => exact (poll_ok law h).2.1
  | _ => exact absurd rfl hquiet

/-- The states a router can be in. -/
inductive Reachable [GroupClassifier G] : Engine R H D B G → Prop
  | new {capacity : ℕ} {scratch : List UInt8} {ports : List (PortConfig G)} {options : Options}
      {now : Instant} {router : Engine R H D B G}
      (h : Engine.new R H D B capacity scratch ports options now = .ok router) : Reachable router
  | step {router : Engine R H D B G} (h : Reachable router) (call : Call) :
      Reachable (router.step call).1

theorem Reachable.run [GroupClassifier G] {router : Engine R H D B G} (h : router.Reachable)
    (calls : List Call) : (router.run calls).Reachable := by
  induction calls generalizing router with
  | nil => exact h
  | cons call rest ih => exact ih (h.step call)

theorem Reachable.loaded [GroupClassifier G] (h : Reachable router) :
    Loaded router.storage fun _ _ _ => True := by
  induction h with
  | new h =>
    refine .of_inactive ?_
    rw [(new_outputs h).1]
    rfl
  | step _ call ih => exact step_loaded anyLaw _ call (fun _ _ _ _ _ _ _ _ _ => trivial) ih

theorem step_ports [GroupClassifier G] (law : OutputLaw P) (router : Engine R H D B G) (call : Call)
    (h : Loaded router.storage P) :
    (router.step call).1.storage.ports.length = router.storage.ports.length := by
  by_cases hquiet : call.quiet = true
  · exact (router.step_quiet hquiet).ports
  cases call with
  | start =>
    exact (quiet_push _ _).ports.trans (by rw [dropUndrained_ports])
  | announcePort port =>
    unfold step
    dsimp only
    split_ifs
    · exact (quiet_push _ _).ports.trans (by rw [dropUndrained_ports])
    · rfl
  | receive frame now host =>
    rw [show (router.step (.receive frame now host)).1.storage.ports = router.storage.ports from
      (receive_leaves (router.clocked now) frame _ router.options host).ports.trans
        (dropUndrained_ports _)]
  | originate request now =>
    rw [show (router.step (.originate request now)).1.storage.ports = router.storage.ports from
      (originate_requested (router.clocked now) request _ router.options).ports.trans
        (dropUndrained_ports _)]
  | poll =>
    rw [show (router.step .poll).1.storage.ports = router.storage.ports from (poll_ok law h).1.ports]
  | _ => exact absurd rfl hquiet

theorem step_send [GroupClassifier G] {send : Send}
    (h : (router.step call).2 = .action (.send send)) :
    call = .poll ∧ ∀ P, OutputLaw P → Loaded router.storage P →
      ∃ npdu, SendOf (router.step call).1.storage P send npdu := by
  cases call with
  | poll =>
    refine ⟨rfl, fun P law hloaded => ?_⟩
    obtain ⟨_, _, hok⟩ := poll_ok law hloaded
    unfold step at h ⊢
    generalize router.storage.poll = polled at h hok ⊢
    obtain ⟨t, action⟩ := polled
    cases h
    exact hok.1
  | announcePort port =>
    unfold step at h
    dsimp only at h
    split_ifs at h
  | egressBacklog port backlog now =>
    unfold step at h
    dsimp only at h
    split at h <;> cases h
  | _ => cases h

end Engine

end RustyBacnet.Router
