import RustyBacnet.Router.Sending

/-!
# What the configuration of a router promises

`Router::new` and `set_port_max_npdu` check every port: its network is a network's number, and its
limits are within the scratch. No other call changes a port or the length of the scratch.
-/

namespace RustyBacnet.Router

open Storage

variable {R H D B : ℕ} {G : Type}

/-- Ports as the checks leave them. -/
structure Housed (s : Storage R H D B G) : Prop where
  network : ∀ config ∈ s.ports, config.network ≠ 0 ∧ config.network ≠ globalNetwork
  limits : ∀ config ∈ s.ports, limitsFit config.maxNpdu s.scratch.length = true

variable {s t : Storage R H D B G}

theorem Housed.congr (h : Housed s) (hports : t.ports = s.ports)
    (hscratch : t.scratch.length = s.scratch.length) : Housed t := by
  constructor
  · rw [hports]
    exact h.network
  · rw [hports, hscratch]
    exact h.limits

variable {limits : NpduLimits} {scratch : ℕ}

theorem limitsFit_get (h : limitsFit limits scratch = true) (broadcast : Bool) :
    limits.get broadcast ≤ scratch := by
  unfold limitsFit at h
  simp only [List.all_cons, List.all_nil, Bool.and_true, Bool.and_eq_true, decide_eq_true_eq] at h
  cases broadcast
  · exact h.1.2
  · exact h.2.2

theorem limitsFit_least (h : limitsFit limits scratch = true) (broadcast : Bool) :
    minPortLimit ≤ limits.get broadcast := by
  unfold limitsFit at h
  simp only [List.all_cons, List.all_nil, Bool.and_true, Bool.and_eq_true, decide_eq_true_eq] at h
  cases broadcast
  · exact h.1.1
  · exact h.2.1

variable {router : Engine R H D B G}

theorem housed_new {capacity : ℕ} {scratch : List UInt8} {ports : List (PortConfig G)}
    {options : Options} {now : Instant}
    (h : Engine.new R H D B capacity scratch ports options now = .ok router) :
    Housed router.storage := by
  obtain ⟨hcheck, table, _, rfl⟩ := Engine.new_cases h
  have hports : ∀ config ∈ ports, ¬(config.network = 0 ∨ config.network = globalNetwork) ∧
      limitsFit config.maxNpdu scratch.length = true := by
    intro config hmem
    obtain ⟨index, hindex⟩ := List.mem_iff_getElem?.mp hmem
    have hnone : checkPort ports scratch.length index config = none := by
      unfold checkConfig at hcheck
      split at hcheck
      · cases hcheck
      split at hcheck
      · cases hcheck
      split at hcheck
      · cases hcheck
      rename_i hfind
      exact List.findSome?_eq_none_iff.mp hfind (config, index)
        (List.mem_zipIdx_iff_getElem?.mpr hindex)
    unfold checkPort at hnone
    split_ifs at hnone with hreserved hduplicate hlimits
    exact ⟨hreserved, by simpa using hlimits⟩
  exact ⟨fun config hmem => not_or.mp (hports config hmem).1,
    fun config hmem => (hports config hmem).2⟩

/-! ## Refusals and reports -/

theorem push_ports (s : Storage R H D B G) (task : Task) : (s.push task).ports = s.ports := by
  unfold push debugAssert
  dsimp only
  split_ifs <;> rfl

theorem queueReject_ports (s : Storage R H D B G) (origin : RejectOrigin)
    (reason : RejectMessageReason) : (s.queueReject origin reason).ports = s.ports :=
  push_ports _ _

theorem refusedLater_ports (s : Storage R H D B G) (why : SendRefusal)
    (origin : Option RejectOrigin) : (s.refusedLater why origin).ports = s.ports := by
  unfold Storage.refusedLater
  split_ifs
  · cases origin with
    | none => rfl
    | some origin => exact queueReject_ports _ _ _
  · rfl

theorem refusedWhileClogged_ports (s : Storage R H D B G) :
    s.refusedWhileClogged.ports = s.ports := by
  unfold refusedWhileClogged
  dsimp only
  split
  · split_ifs
    · exact queueReject_ports _ _ _
    · rfl
  · rfl

theorem refused_ports (router : Engine R H D B G) (why : SendRefusal) :
    (router.refused why).ports = router.storage.ports := by
  have hplain : (router.storage.refusedLater why none).endRefusedAnswer.ports
      = router.storage.ports := by
    rw [← refusedLater_ports router.storage why none]
    unfold endRefusedAnswer
    dsimp only
    split_ifs <;> rfl
  unfold Engine.refused
  split_ifs
  · exact (refusedWhileClogged_ports _).trans hplain
  · exact hplain

theorem egressBacklog_ports (s : Storage R H D B G) (port : PortId) (backlog : Backlog)
    (now : Instant) (policy : Congestion) :
    (s.egressBacklog port backlog now policy).ports = s.ports := by
  unfold Storage.egressBacklog
  split
  · rfl
  · dsimp only
    split <;> rfl

/-! ## Calls -/

theorem Storage.Leaves.room {most : ℕ} {W : Npdu → Kind → Target → RejectOrigin → Prop}
    (h : Leaves s t most W) : t.scratch.length = s.scratch.length := by
  cases h with
  | queued tasks hq _ => rw [hq.scratch]
  | wrote npdu kind target origin hw _ =>
    have := hw.room
    rw [hw.scratch, List.length_append, npdu.length_wire, List.length_drop]
    omega

theorem Storage.Requested.room (h : Requested s t) : t.scratch.length = s.scratch.length := by
  cases h with
  | queued tasks hq _ => rw [hq.scratch]
  | wrote _ _ room _ _ _ _ => exact room

theorem housed_setPortMaxNpdu (h : Housed s) (port : PortId) (limits : NpduLimits) :
    Housed (Engine.setPortMaxNpdu s port limits).1 := by
  unfold Engine.setPortMaxNpdu
  split
  · exact h
  · rename_i config hconfig
    split_ifs with hfit
    · exact h
    · constructor
      · intro other hother
        rcases List.mem_or_eq_of_mem_set hother with hmem | rfl
        · exact h.network other hmem
        · exact h.network config (List.mem_of_getElem? hconfig)
      · intro other hother
        rcases List.mem_or_eq_of_mem_set hother with hmem | rfl
        · exact h.limits other hmem
        · simpa using hfit

theorem housed_step [GroupClassifier G] (h : Housed router.storage)
    (hloaded : Loaded router.storage fun _ _ _ => True) (call : Call) :
    Housed (router.step call).1.storage := by
  cases call with
  | start =>
    exact h.congr ((push_ports _ _).trans (dropUndrained_ports _))
      (by rw [show (router.step .start).1.storage.scratch = router.storage.scratch from
        (quiet_push _ _).scratch.trans (dropUndrained_scratch _)])
  | announcePort port =>
    unfold Engine.step
    dsimp only
    split_ifs
    · exact h.congr ((push_ports _ _).trans (dropUndrained_ports _))
        (congrArg List.length ((quiet_push _ _).scratch.trans (dropUndrained_scratch _)))
    · exact h
  | receive frame now host =>
    have hleaves := receive_leaves (router.clocked now) frame (router.clocked now).latest
      router.options host
    exact h.congr (hleaves.ports.trans (dropUndrained_ports _))
      (hleaves.room.trans (congrArg List.length (dropUndrained_scratch _)))
  | originate request now =>
    have hrequest := originate_requested (router.clocked now) request (router.clocked now).latest
      router.options
    exact h.congr (hrequest.ports.trans (dropUndrained_ports _))
      (hrequest.room.trans (congrArg List.length (dropUndrained_scratch _)))
  | poll =>
    obtain ⟨hpolled, _⟩ := poll_ok anyLaw hloaded
    exact h.congr hpolled.ports hpolled.room
  | refused why =>
    exact h.congr (refused_ports router why) (congrArg List.length (router.quiet_refused why).scratch)
  | refusedLater why origin =>
    exact h.congr (refusedLater_ports _ why origin)
      (congrArg List.length (quiet_refusedLater _ why origin).scratch)
  | egressBacklog port backlog now =>
    unfold Engine.step
    dsimp only
    split
    · exact h.congr (egressBacklog_ports _ _ _ _ _)
        (congrArg List.length (quiet_egressBacklog _ _ _ _ _).scratch)
    · exact h.congr rfl rfl
  | setPortMaxNpdu port limits => exact housed_setPortMaxNpdu h port limits
  | onDeadline now =>
    unfold Engine.step
    dsimp only
    split_ifs
    · exact h.congr rfl rfl
    · have hq := queued_sweep (router.clocked now) (router.clocked now).latest router.options
      exact h.congr hq.ports (congrArg List.length hq.scratch)
  | cancelDiscovery => exact h.congr rfl rfl
  | takeCounters => exact h.congr rfl rfl
  | table op =>
    have hq := (queued_setTable router.storage (router.storage.table.apply op).1).trans
      (queued_noteTable _ op (router.storage.table.apply op).2)
    exact h.congr hq.ports (congrArg List.length hq.scratch)

theorem Engine.Reachable.housed [GroupClassifier G] (h : router.Reachable) :
    Housed router.storage := by
  induction h with
  | new h => exact housed_new h
  | step h call ih => exact housed_step ih h.loaded call

end RustyBacnet.Router
