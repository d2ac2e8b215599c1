import RustyBacnet.Router.Housed
import RustyBacnet.Router.Table.Contract

/-!
# What a router does to its table

Every change a call makes to the table is one of the table's operations, noted as `noteTable` notes
it, or a count. `Trail A s t` says that `t` comes from `s` by such changes, with the operations
among those `A` allows, and by notes that are about neither frames nor routes.

1. One lemma for each function of the model that a call goes through.
2. `step_trail` collects them, and with it the table of every reachable router is `Valid`.
-/

namespace RustyBacnet.Router

def Note.plain : Note → Bool
  | observed _ => true
  | failed _ => true
  | _ => false

def notesOf : TableOp → TableOutcome → List Note
  | .addDirect network _, .flag true => [.wrote network]
  | .addLearned network _ _ _, .flag true => [.wrote network]
  | .applyManagementUpdate network _ _ _, .flag true => [.wrote network]
  | .learn network _ _ _, .learned learned => if learned.isApplied then [.wrote network] else []
  | .applyClaim network port _ now _, .learned learned => [.claimed network port now learned]
  | .remove network, .removed (some _) => [.removed network]
  | .applyManagementRemoval network, .flag true => [.removed network]
  | .purgeStale _ _, .networks purged => purged.map .purged
  | _, _ => []

/-- Neither puts a claim to the table nor sets its rule. -/
def TableOp.claimless : TableOp → Bool
  | applyClaim _ _ _ _ _ => false
  | setConvergence _ => false
  | _ => true

/-- Changes of a table and its notes. -/
inductive TableRun {R H : ℕ} (A : TableOp → Prop) (table : Table R H) (notes : List Note) :
    Table R H → List Note → Prop
  | refl : TableRun A table notes table notes
  | plain {later : Table R H} {more : List Note} (h : TableRun A table notes later more)
      {note : Note} (hplain : note.plain = true) : TableRun A table notes later (more ++ [note])
  | count {later : Table R H} {more : List Note} (h : TableRun A table notes later more)
      (change : ClaimCounters → ClaimCounters) : TableRun A table notes (later.count change) more
  | op {later : Table R H} {more : List Note} (h : TableRun A table notes later more)
      {op : TableOp} (ha : A op) :
      TableRun A table notes (later.apply op).1 (more ++ notesOf op (later.apply op).2)

theorem TableRun.trans {R H : ℕ} {A : TableOp → Prop} {a b c : Table R H} {xs ys zs : List Note}
    (h : TableRun A a xs b ys) (h' : TableRun A b ys c zs) : TableRun A a xs c zs := by
  induction h' with
  | refl => exact h
  | plain _ hplain ih => exact ih.plain hplain
  | count _ change ih => exact ih.count change
  | op _ ha ih => exact ih.op ha

variable {A' : TableOp → Prop} {xs ys : List Note}

theorem TableRun.mono {R H : ℕ} {A : TableOp → Prop} {a b : Table R H} (h : TableRun A a xs b ys)
    (hA : ∀ op, A op → A' op) : TableRun A' a xs b ys := by
  induction h with
  | refl => exact .refl
  | plain _ hplain ih => exact ih.plain hplain
  | count _ change ih => exact ih.count change
  | op _ ha ih => exact ih.op (hA _ ha)

theorem TableRun.valid {R H : ℕ} {A : TableOp → Prop} {a b : Table R H} (h : TableRun A a xs b ys)
    (hv : a.Valid) : b.Valid := by
  induction h with
  | refl => exact hv
  | plain _ _ ih => exact ih
  | count _ change ih => exact (Table.Unchanged.count _ change).valid ih
  | op _ _ ih => exact (Table.step ih _).valid

namespace Storage

variable {R H D B : ℕ} {G : Type} {s t u : Storage R H D B G} {A : TableOp → Prop}

/-- `t` comes from `s` by operations `A` allows. -/
def Trail (A : TableOp → Prop) (s t : Storage R H D B G) : Prop :=
  TableRun A s.table s.notes t.table t.notes

namespace Trail

theorem refl (s : Storage R H D B G) : Trail A s s := TableRun.refl

theorem trans (h : Trail A s t) (h' : Trail A t u) : Trail A s u := TableRun.trans h h'

theorem mono (h : Trail A s t) (hA : ∀ op, A op → A' op) : Trail A' s t :=
  TableRun.mono h hA

theorem ite {c : Prop} [Decidable c] {a b : Storage R H D B G × Received}
    (ha : c → Trail A s a.1) (hb : Trail A s b.1) : Trail A s (if c then a else b).1 := by
  split_ifs with h
  · exact ha h
  · exact hb

end Trail

/-! ## Small steps -/

theorem trail_same (htable : t.table = s.table) (hnotes : t.notes = s.notes) : Trail A s t := by
  unfold Trail
  rw [htable, hnotes]
  exact .refl

theorem trail_bump (s : Storage R H D B G) (counter : Counter) : Trail A s (s.bump counter) :=
  .refl s

theorem trail_observe (s : Storage R H D B G) (event : Event) : Trail A s (s.observe event) :=
  TableRun.refl.plain rfl

theorem trail_debugAssert (s : Storage R H D B G) (assertion : Assertion) (holds : Bool) :
    Trail A s (s.debugAssert assertion holds) := by
  unfold debugAssert
  split_ifs
  · exact .refl s
  · exact TableRun.refl.plain rfl

theorem trail_push (s : Storage R H D B G) (task : Task) : Trail A s (s.push task) := by
  unfold push
  have h := trail_debugAssert (A := A) s .queueRoom (s.out.tasks.length < queueLen)
  generalize s.debugAssert .queueRoom (s.out.tasks.length < queueLen) = t at h ⊢
  dsimp only
  split_ifs
  · exact h.trans (trail_same rfl rfl)
  · exact h

theorem trail_count (s : Storage R H D B G) (change : ClaimCounters → ClaimCounters) :
    Trail A s (s.setTable (s.table.count change)) :=
  TableRun.refl.count change

theorem noteAll_notes (note : UInt16 → Note) (networks : List UInt16) (s : Storage R H D B G) :
    (s.noteAll note networks).table = s.table ∧
      (s.noteAll note networks).notes = s.notes ++ networks.map note := by
  induction networks generalizing s with
  | nil => exact ⟨rfl, (List.append_nil _).symm⟩
  | cons network rest ih =>
    obtain ⟨htable, hnotes⟩ := ih (s.note (note network))
    refine ⟨htable, hnotes.trans ?_⟩
    show (s.notes ++ [note network]) ++ rest.map note = _
    rw [List.append_assoc, List.map_cons]
    rfl

theorem noteTable_notes (s : Storage R H D B G) (op : TableOp) (outcome : TableOutcome) :
    (s.noteTable op outcome).table = s.table ∧
      (s.noteTable op outcome).notes = s.notes ++ notesOf op outcome := by
  cases op <;> cases outcome <;> try exact ⟨rfl, (List.append_nil _).symm⟩
  case addDirect.flag value =>
    cases value
    · exact ⟨rfl, (List.append_nil _).symm⟩
    · exact ⟨rfl, rfl⟩
  case addLearned.flag value =>
    cases value
    · exact ⟨rfl, (List.append_nil _).symm⟩
    · exact ⟨rfl, rfl⟩
  case applyManagementUpdate.flag value =>
    cases value
    · exact ⟨rfl, (List.append_nil _).symm⟩
    · exact ⟨rfl, rfl⟩
  case applyManagementRemoval.flag value =>
    cases value
    · exact ⟨rfl, (List.append_nil _).symm⟩
    · exact ⟨rfl, rfl⟩
  case remove.removed route =>
    cases route
    · exact ⟨rfl, (List.append_nil _).symm⟩
    · exact ⟨rfl, rfl⟩
  case learn.learned learned =>
    cases learned
    · exact ⟨rfl, (List.append_nil _).symm⟩
    · exact ⟨rfl, (List.append_nil _).symm⟩
    · exact ⟨rfl, rfl⟩
    · exact ⟨rfl, rfl⟩
  case applyClaim.learned learned => exact ⟨rfl, rfl⟩
  case purgeStale.networks purged => exact noteAll_notes _ _ s

/-- A table operation, noted as `noteTable` notes it. -/
theorem trail_noteTable (s : Storage R H D B G) (op : TableOp) (ha : A op) :
    Trail A s ((s.setTable (s.table.apply op).1).noteTable op (s.table.apply op).2) := by
  obtain ⟨htable, hnotes⟩ :=
    noteTable_notes (s.setTable (s.table.apply op).1) op (s.table.apply op).2
  unfold Trail
  rw [htable, hnotes]
  exact TableRun.refl.op ha

theorem trail_setTable (s : Storage R H D B G) (op : TableOp) (ha : A op)
    (hnotes : ∀ outcome, notesOf op outcome = []) : Trail A s (s.setTable (s.table.apply op).1) := by
  have h : TableRun A s.table s.notes (s.table.apply op).1
      (s.notes ++ notesOf op (s.table.apply op).2) := TableRun.refl.op ha
  rw [hnotes, List.append_nil] at h
  exact h

theorem trail_foldl {α : Type} {step : Storage R H D B G → α → Storage R H D B G}
    (hstep : ∀ s x, Trail A s (step s x)) (xs : List α) (s : Storage R H D B G) :
    Trail A s (xs.foldl step s) := by
  induction xs generalizing s with
  | nil => exact .refl s
  | cons x xs ih => exact (hstep s x).trans (ih (step s x))

theorem trail_observeAll (event : UInt16 → Event) (networks : List UInt16)
    (s : Storage R H D B G) : Trail A s (s.observeAll event networks) :=
  trail_foldl (fun s network => trail_observe s (event network)) networks s

theorem trail_dropUndrained (s : Storage R H D B G) : Trail A s s.dropUndrained := by
  unfold dropUndrained
  dsimp only
  split_ifs
  · exact trail_same rfl rfl
  · exact trail_same rfl rfl

/-! ## Outputs -/

theorem trail_writeNow (s : Storage R H D B G) (npdu : Npdu) (kind : Kind) (target : Target) :
    Trail A s (s.writeNow npdu kind target).1 := by
  unfold writeNow
  have h := trail_debugAssert (A := A) s .outputFirst (s.out.pending s.ports.length == 0)
  generalize s.debugAssert .outputFirst (s.out.pending s.ports.length == 0) = t at h ⊢
  dsimp only
  split
  · exact h.trans (trail_same rfl rfl)
  · exact h.trans (trail_same rfl rfl)

theorem trail_observeTooLong (s : Storage R H D B G) (octets : ℕ) (allBut : PortId) :
    Trail A s (s.observeTooLong octets allBut) := by
  apply trail_foldl
  intro s x
  dsimp only
  split_ifs
  · exact trail_observe s _
  · exact .refl s

theorem trail_writeFanOut (s : Storage R H D B G) (npdu : Npdu) (kind : Kind) (allBut : PortId) :
    Trail A s (s.writeFanOut npdu kind allBut).1 := by
  unfold writeFanOut
  have h := trail_writeNow (A := A) s npdu kind (.allBut allBut)
  generalize s.writeNow npdu kind (.allBut allBut) = written at h ⊢
  obtain ⟨t, written⟩ := written
  dsimp only
  split_ifs
  · exact h.trans (trail_observeTooLong t _ _)
  · exact h

theorem trail_queueReject (s : Storage R H D B G) (origin : RejectOrigin)
    (reason : RejectMessageReason) : Trail A s (s.queueReject origin reason) :=
  (trail_bump s _).trans (trail_push _ _)

theorem trail_reject (s : Storage R H D B G) (at_ : Arrival) (origin : Option Address)
    (network : UInt16) (reason : RejectMessageReason) :
    Trail A s (s.reject at_ origin network reason) := by
  unfold reject
  split
  · exact trail_queueReject s _ _
  · exact trail_observe s _

theorem trail_solicit (s : Storage R H D B G) (allBut : PortId) (dnet : UInt16) (now : Instant)
    (cooldown : Duration) : Trail A s (s.solicit allBut dnet now cooldown) := by
  unfold solicit
  dsimp only
  split_ifs
  · refine Trail.trans ?_ (trail_push _ _)
    exact trail_same rfl rfl
  · exact trail_same rfl rfl

/-! ## Frames -/

/-- The operations of a frame that claims nothing. -/
abbrev Settles (s t : Storage R H D B G) : Prop := Trail (fun op => op.claimless = true) s t

/-- The operations of a frame, which claims networks for its arrival port at most. -/
def FrameOp (at_ : Arrival) (timing : Timing) (op : TableOp) : Prop :=
  op.claimless = true ∨
    ∃ network, op = .applyClaim network at_.port at_.sourceMac at_.now timing

theorem Trail.framed {at_ : Arrival} {timing : Timing} (h : Settles s t) :
    Trail (FrameOp at_ timing) s t :=
  h.mono fun _ => .inl

section Frame

variable {at_ : Arrival} {npdu : Npdu}

theorem settles_findRoute (s : Storage R H D B G) (at_ : Arrival) (npdu : Npdu) (dnet : UInt16)
    (options : Options) : Settles s (s.findRoute at_ npdu dnet options).1 := by
  have htouch : Settles s (s.setTable (s.table.touch dnet at_.now)) :=
    trail_setTable s (.touch dnet at_.now) rfl fun _ => rfl
  unfold findRoute
  split
  · exact (trail_observe s _).trans ((trail_solicit _ _ _ _ _).trans (trail_reject _ _ _ _ _))
  · dsimp only
    split
    · exact htouch.trans (trail_reject _ _ _ _ _)
    · exact htouch.trans ((trail_observe _ _).trans (trail_reject _ _ _ _ _))
    · exact htouch

theorem trail_forward (s : Storage R H D B G) (at_ : Arrival) (npdu : Npdu) (route : Route) :
    Trail A s (s.forward at_ npdu route).1 := by
  unfold forward
  split
  · exact (trail_bump s _).trans (trail_observe _ _)
  · split
    · exact (trail_bump s _).trans (trail_observe _ _)
    · dsimp only
      split
      · split
        · exact (trail_bump s _).trans ((trail_observe _ _).trans (trail_reject _ _ _ _ _))
        · exact (trail_bump s _).trans (trail_observe _ _)
      · have h := trail_writeNow (A := A) s (rewrite at_ npdu route).1 .forward
          (.toward route.port (rewrite at_ npdu route).2)
        generalize s.writeNow (rewrite at_ npdu route).1 .forward
          (.toward route.port (rewrite at_ npdu route).2) = written at h ⊢
        obtain ⟨t, ok⟩ := written
        split_ifs
        · exact h
        · exact h
        · exact h

theorem trail_forwardGlobal (s : Storage R H D B G) (at_ : Arrival) (npdu : Npdu) :
    Trail A s (s.forwardGlobal at_ npdu) := by
  unfold forwardGlobal
  split_ifs
  · exact (trail_bump s _).trans (trail_observe _ _)
  · exact trail_writeFanOut s _ _ _

theorem trail_passOnReject [GroupClassifier G] (s : Storage R H D B G) (at_ : Arrival)
    (npdu : Npdu) : Trail A s (s.passOnReject at_ npdu).1 := by
  unfold passOnReject
  split
  · exact .refl s
  · dsimp only
    split
    · exact .ite (fun _ => trail_bump s _) (trail_forward s _ _ _)
    · exact trail_bump s _

theorem trail_droppedAsOwn (s : Storage R H D B G) (npdu : Npdu) :
    Trail A s (s.droppedAsOwn npdu).1 := by
  unfold droppedAsOwn
  split_ifs
  · exact trail_bump s _
  · exact .refl s

theorem trail_repeatedRelay (s : Storage R H D B G) (at_ : Arrival) (npdu : Npdu)
    (kind : NetworkMessageType) (options : Options) :
    Trail A s (s.repeatedRelay at_ npdu kind options).1 := by
  unfold repeatedRelay
  split
  · exact .refl s
  · dsimp only
    split_ifs
    · exact trail_same rfl rfl
    · exact trail_same rfl rfl

theorem trail_relayed (s : Storage R H D B G) (at_ : Arrival) (relay : Npdu)
    (kind : NetworkMessageType) : Trail A s (s.relayed at_ relay kind).1 := by
  unfold relayed
  have h := trail_writeFanOut (A := A) s relay (.relay kind) at_.port
  generalize s.writeFanOut relay (.relay kind) at_.port = written at h ⊢
  obtain ⟨t, ok⟩ := written
  cases ok with
  | true => exact h
  | false => exact h

theorem trail_authorized {host : Claim → Bool} {claim : Claim}
    {allowed : Storage R H D B G × Received} (h : Trail A s allowed.1) :
    Trail A s (s.authorized host claim allowed).1 := by
  unfold authorized
  split_ifs
  · exact h
  · exact trail_bump s _

theorem trail_whoIsRouter (s : Storage R H D B G) (at_ : Arrival) (npdu : Npdu)
    (options : Options) : Trail A s (s.whoIsRouter at_ npdu options).1 := by
  unfold whoIsRouter
  have hown := trail_droppedAsOwn (A := A) s npdu
  generalize s.droppedAsOwn npdu = own at hown ⊢
  obtain ⟨t, dropped⟩ := own
  cases dropped with
  | true => exact hown
  | false =>
    refine hown.trans ?_
    dsimp only
    split
    · exact trail_bump t _
    · exact trail_push t _
    · split_ifs
      · exact trail_bump t _
      split
      · split_ifs
        · exact trail_push t _
        · exact .refl t
      · have hrelay := trail_repeatedRelay (A := A) t at_ npdu .whoIsRouterToNetwork options
        generalize t.repeatedRelay at_ npdu .whoIsRouterToNetwork options = relay at hrelay ⊢
        obtain ⟨u, repeats⟩ := relay
        cases repeats with
        | true => exact hrelay
        | false => exact hrelay.trans (trail_relayed u _ _ _)

theorem trail_reportLearned (s : Storage R H D B G) (network : UInt16) (port : PortId)
    (controlClass : ControlClass) (learned : Learned) :
    Trail A s (s.reportLearned network port controlClass learned) := by
  have hflap : ∀ t : Storage R H D B G, Trail A s t →
      Trail A s (if learned.isApplied then
        (t.setTable t.table.recordLearned).observe (.learned network port controlClass)
      else t) := by
    intro t ht
    split_ifs
    · exact ht.trans ((trail_count t _).trans (trail_observe _ _))
    · exact ht
  apply hflap
  split
  · split_ifs
    · exact trail_observe s _
    · exact .refl s
  · exact .refl s

theorem trail_applyClaim (s : Storage R H D B G) (at_ : Arrival) (network : UInt16)
    (controlClass : ControlClass) (options : Options) :
    Trail (FrameOp at_ options.timing) s (s.applyClaim at_ network controlClass options) := by
  have h := trail_noteTable (A := FrameOp at_ options.timing) s
    (.applyClaim network at_.port at_.sourceMac at_.now options.timing)
    (.inr ⟨network, rfl⟩)
  exact h.trans (trail_reportLearned _ _ _ _ _)

theorem trail_recordLearningCap (s : Storage R H D B G) (controlClass : ControlClass) :
    Trail A s ((s.setTable s.table.recordLearningCap).observe (.routeCap controlClass)) :=
  (trail_count s _).trans (trail_observe _ _)

theorem trail_claim (s : Storage R H D B G) (at_ : Arrival) (network : UInt16)
    (claimed : List UInt16) (controlClass : ControlClass) (options : Options) :
    Trail (FrameOp at_ options.timing) s
      (s.claim at_ network claimed controlClass options).1 := by
  unfold claim
  dsimp only
  split_ifs
  · exact trail_recordLearningCap s _
  · split
    · exact .refl s
    · exact trail_applyClaim s at_ network controlClass options
  · exact trail_applyClaim s at_ network controlClass options

theorem trail_claimAll (at_ : Arrival) (controlClass : ControlClass) (options : Options)
    (networks claimed : List UInt16) (s : Storage R H D B G) :
    Trail (FrameOp at_ options.timing) s
      (s.claimAll at_ controlClass options networks claimed) := by
  induction networks generalizing s claimed with
  | nil => exact .refl s
  | cons network rest ih =>
    unfold claimAll
    have h := trail_claim s at_ network claimed controlClass options
    generalize s.claim at_ network claimed controlClass options = result at h ⊢
    obtain ⟨t, claimed, goes⟩ := result
    cases goes with
    | true => exact h.trans (ih claimed t)
    | false => exact h

theorem trail_iAmRouter (s : Storage R H D B G) (at_ : Arrival) (npdu : Npdu) (options : Options)
    (host : Claim → Bool) :
    Trail (FrameOp at_ options.timing) s (s.iAmRouter at_ npdu options host).1 := by
  unfold iAmRouter
  split
  · exact trail_bump s _
  · refine trail_authorized ?_
    have hrelay := trail_repeatedRelay (A := FrameOp at_ options.timing) s at_ npdu
      .iAmRouterToNetwork options
    generalize s.repeatedRelay at_ npdu .iAmRouterToNetwork options = relay at hrelay ⊢
    obtain ⟨t, repeats⟩ := relay
    cases repeats with
    | true => exact hrelay
    | false => exact hrelay.trans ((trail_claimAll _ _ _ _ _ t).trans (trail_relayed _ _ _ _))

theorem settles_iCouldBeRouter (s : Storage R H D B G) (at_ : Arrival) (npdu : Npdu)
    (options : Options) (host : Claim → Bool) :
    Settles s (s.iCouldBeRouter at_ npdu options host).1 := by
  unfold iCouldBeRouter
  split
  · exact trail_bump s _
  · rename_i offer _
    refine trail_authorized ?_
    dsimp only
    have hcap : ∀ c : Bool, Settles s
        (if c then (s.setTable s.table.recordLearningCap).observe (.routeCap .iCouldBe) else s) := by
      intro c
      split_ifs
      · exact trail_recordLearningCap s _
      · exact .refl s
    refine (hcap (offer.network != 0 && offer.network != globalNetwork &&
      (s.table.lookup offer.network).isNone && decide (options.cap R ≤ s.table.len))).trans ?_
    generalize (if (offer.network != 0 && offer.network != globalNetwork &&
      (s.table.lookup offer.network).isNone && decide (options.cap R ≤ s.table.len)) = true then
      (s.setTable s.table.recordLearningCap).observe (.routeCap .iCouldBe) else s) = t
    refine .ite (fun _ => ?_) (trail_observe t _)
    have hop := trail_noteTable (A := fun op => op.claimless = true) t
      (.addLearned offer.network at_.port at_.sourceMac at_.now) rfl
    refine Trail.trans ?_ (trail_observe _ _)
    convert hop using 1
    cases hstored : (t.table.addLearned offer.network at_.port at_.sourceMac at_.now).2 with
    | true =>
      show _ = (t.setTable _).noteTable _ (.flag _)
      rw [hstored]
      rfl
    | false =>
      show _ = (t.setTable _).noteTable _ (.flag _)
      rw [hstored]
      rfl

theorem settles_takeReject (s : Storage R H D B G) (at_ : Arrival) (reject : RejectMessageToNetwork)
    (options : Options) : Settles s (s.takeReject at_ reject options).1 := by
  unfold takeReject
  dsimp only
  split_ifs
  · exact trail_bump s _
  · exact trail_setTable s
      (.applyReject reject.network at_.port reject.reason at_.now options.timing) rfl
      fun _ => rfl

theorem settles_receivedReject [GroupClassifier G] (s : Storage R H D B G) (at_ : Arrival)
    (npdu : Npdu) (options : Options) (host : Claim → Bool) :
    Settles s (s.receivedReject at_ npdu options host).1 := by
  unfold receivedReject
  split
  · exact trail_bump s _
  · exact trail_authorized ((settles_takeReject s _ _ _).trans
      ((trail_observe _ _).trans (trail_passOnReject _ _ _)))

theorem settles_mark (s : Storage R H D B G) (busy : Bool) (deadline : Instant)
    (network : UInt16) : Settles s (s.mark busy deadline network) := by
  refine Trail.trans ?_ (trail_observe _ _)
  cases busy with
  | true => exact trail_setTable s (.markBusy network deadline) rfl fun _ => rfl
  | false => exact trail_setTable s (.markAvailable network) rfl fun _ => rfl

theorem settles_markServed (at_ : Arrival) (busy : Bool) (deadline : Instant) (passes : ℕ)
    (start : ℕ) (s : Storage R H D B G) :
    Settles s (s.markServed at_ busy deadline passes start) := by
  induction passes generalizing s start with
  | zero => exact .refl s
  | succ passes ih =>
    unfold markServed
    dsimp only
    split
    · exact .refl s
    · exact (settles_mark s _ _ _).trans (ih _ _)

theorem settles_markListed (s : Storage R H D B G) (at_ : Arrival) (busy : Bool)
    (deadline : Instant) (network : UInt16) :
    Settles s (s.markListed at_ busy deadline network) := by
  unfold markListed
  split_ifs
  · exact settles_mark s _ _ _
  · exact trail_bump s _
  · exact .refl s

theorem settles_flowControl (s : Storage R H D B G) (at_ : Arrival) (npdu : Npdu) (busy : Bool)
    (options : Options) (host : Claim → Bool) :
    Settles s (s.flowControl at_ npdu busy options host).1 := by
  unfold flowControl
  split
  · exact trail_bump s _
  · refine trail_authorized ?_
    dsimp only
    generalize (if busy = true then NetworkMessageType.routerBusyToNetwork
      else .routerAvailableToNetwork) = kind
    have hrelay := trail_repeatedRelay (A := fun op => op.claimless = true) s at_ npdu kind options
    generalize s.repeatedRelay at_ npdu kind options = relay at hrelay ⊢
    obtain ⟨t, repeats⟩ := relay
    cases repeats with
    | true => exact hrelay
    | false =>
      refine hrelay.trans (Trail.trans ?_ (trail_relayed _ _ _ _))
      split_ifs
      · exact settles_markServed at_ busy _ _ _ t
      · exact trail_foldl (fun s network => settles_markListed s at_ busy _ network) _ t

theorem settles_updateAll (at_ : Arrival) (options : Options) (entries : List RoutingEntry)
    (s : Storage R H D B G) : Settles s (s.updateAll at_ options entries) := by
  induction entries generalizing s with
  | nil => exact .refl s
  | cons entry rest ih =>
    unfold updateAll
    dsimp only
    split
    · exact ih s
    split
    · refine Trail.trans ?_ (ih _)
      have hop := trail_noteTable (A := fun op => op.claimless = true) s
        (.applyManagementRemoval entry.network) rfl
      split_ifs with hremoved
      · refine Trail.trans ?_ (trail_observe _ _)
        convert hop using 1
        show _ = (s.setTable _).noteTable _ (.flag _)
        rw [hremoved]
        rfl
      · convert hop using 1
        show _ = (s.setTable _).noteTable _ (.flag _)
        rw [Bool.eq_false_of_not_eq_true hremoved]
        rfl
    split
    · exact (trail_observe s _).trans (ih _)
    · split
      · exact trail_recordLearningCap s _
      · refine Trail.trans ?_ (ih _)
        rename_i port _ _
        have hop := trail_noteTable (A := fun op => op.claimless = true) s
          (.applyManagementUpdate entry.network port at_.sourceMac at_.now) rfl
        split_ifs with happlied
        · refine Trail.trans ?_ (trail_observe _ _)
          convert hop using 1
          show _ = (s.setTable _).noteTable _ (.flag _)
          rw [happlied]
          rfl
        · convert hop using 1
          show _ = (s.setTable _).noteTable _ (.flag _)
          rw [Bool.eq_false_of_not_eq_true happlied]
          rfl

theorem settles_initializeRoutingTable (s : Storage R H D B G) (at_ : Arrival) (npdu : Npdu)
    (options : Options) (host : Claim → Bool) :
    Settles s (s.initializeRoutingTable at_ npdu options host).1 := by
  unfold initializeRoutingTable
  split
  · exact trail_bump s _
  · refine .ite (fun _ => trail_push s _) (trail_authorized ?_)
    exact (settles_updateAll _ _ _ s).trans (trail_push _ _)

theorem trail_routingTableAck (s : Storage R H D B G) (at_ : Arrival) (npdu : Npdu)
    (options : Options) (host : Claim → Bool) :
    Trail (FrameOp at_ options.timing) s (s.routingTableAck at_ npdu options host).1 := by
  refine .ite (fun _ => .refl s) ?_
  split
  · exact trail_bump s _
  · exact trail_authorized (trail_claimAll _ _ _ _ _ s)

theorem trail_handleMessage [GroupClassifier G] (s : Storage R H D B G) (at_ : Arrival)
    (npdu : Npdu) (kind : NetworkMessageType) (options : Options) (host : Claim → Bool) :
    Trail (FrameOp at_ options.timing) s (s.handleMessage at_ npdu kind options host).1 := by
  refine .ite (fun _ => ?_) (.ite (fun _ => ?_) (.ite (fun _ => ?_) (.ite (fun _ => ?_)
    (.ite (fun _ => ?_) (.ite (fun _ => ?_) (.ite (fun _ => ?_) (.ite (fun _ => ?_)
    (.ite (fun _ => ?_) (.ite (fun _ => ?_) (.ite (fun _ => ?_) (.ite (fun _ => ?_) ?_)))))))))))
  · exact trail_whoIsRouter s at_ npdu options
  · exact trail_iAmRouter s at_ npdu options host
  · exact (settles_iCouldBeRouter s at_ npdu options host).framed
  · exact (settles_receivedReject s at_ npdu options host).framed
  · exact (settles_flowControl s at_ npdu true options host).framed
  · exact (settles_flowControl s at_ npdu false options host).framed
  · exact (settles_initializeRoutingTable s at_ npdu options host).framed
  · exact trail_routingTableAck s at_ npdu options host
  · unfold establishConnection
    split
    · exact trail_bump s _
    · exact trail_observe s _
  · unfold disconnectConnection
    split
    · exact trail_bump s _
    · exact (trail_observe s _).trans (trail_count _ _)
  · exact .ite (fun _ => trail_bump s _) (trail_push s _)
  · refine .ite (fun _ => trail_bump s _) ?_
    split
    · exact trail_bump s _
    · exact .ite (fun _ => trail_observe s _) (.refl s)
  · exact .ite (fun _ => trail_observe s _) ((trail_observe s _).trans (trail_reject _ _ _ _ _))

theorem trail_networkMessage [GroupClassifier G] (s : Storage R H D B G) (at_ : Arrival)
    (npdu : Npdu) (kind : NetworkMessageType) (options : Options) (host : Claim → Bool) :
    Trail (FrameOp at_ options.timing) s (s.networkMessage at_ npdu kind options host).1 := by
  unfold networkMessage
  split
  · rename_i destination _
    have h := settles_findRoute s at_ npdu destination.network options
    generalize s.findRoute at_ npdu destination.network options = found at h ⊢
    obtain ⟨t, found⟩ := found
    cases found with
    | none => exact h.framed
    | some route =>
      exact h.framed.trans (.ite (fun _ => trail_bump t _) (trail_forward t _ _ _))
  · exact trail_handleMessage s at_ npdu kind options host

theorem settles_routeApdu [GroupClassifier G] (s : Storage R H D B G) (at_ : Arrival)
    (npdu : Npdu) (options : Options) : Settles s (s.routeApdu at_ npdu options).1 := by
  unfold routeApdu
  split
  · exact .refl s
  · rename_i destination _
    refine .ite (fun _ => ?_) (.ite (fun _ => .refl s) ?_)
    · unfold routeGlobal
      have hown := trail_droppedAsOwn (A := fun op => op.claimless = true) s npdu
      generalize s.droppedAsOwn npdu = own at hown ⊢
      obtain ⟨t, dropped⟩ := own
      cases dropped with
      | true => exact hown
      | false =>
        refine hown.trans ?_
        have hrepeat : Settles t (t.repeatedGlobal at_ npdu options).1 := by
          unfold repeatedGlobal
          split
          · exact .refl t
          · dsimp only
            split_ifs
            · exact trail_same rfl rfl
            · exact trail_same rfl rfl
        dsimp only
        generalize t.repeatedGlobal at_ npdu options = repeated at hrepeat ⊢
        obtain ⟨u, repeats⟩ := repeated
        cases repeats with
        | true => exact hrepeat
        | false => exact hrepeat.trans (trail_forwardGlobal u _ _)
    · have h := settles_findRoute s at_ npdu destination.network options
      generalize s.findRoute at_ npdu destination.network options = found at h ⊢
      obtain ⟨t, found⟩ := found
      cases found with
      | none => exact h
      | some route =>
        refine h.trans ?_
        dsimp only
        refine .ite (fun _ => .refl t) ?_
        split
        · rw [forwarded_fst]
          exact trail_forward t _ _ _
        · refine .ite (fun _ => ?_) (trail_bump t _)
          rw [forwarded_fst]
          exact trail_forward t _ _ _
        · exact trail_bump t _

theorem trail_dispatch [GroupClassifier G] (s : Storage R H D B G) (at_ : Arrival) (npdu : Npdu)
    (options : Options) (host : Claim → Bool) :
    Trail (FrameOp at_ options.timing) s (s.dispatch at_ npdu options host).1 := by
  unfold dispatch
  split
  · exact trail_networkMessage s at_ npdu _ options host
  · exact (settles_routeApdu s at_ npdu options).framed

theorem trail_refuse (s : Storage R H D B G) (at_ : Arrival) (refused : Refused) :
    Trail A s (s.refuse at_ refused).1 := by
  refine Trail.trans ?_ (trail_bump _ _)
  split
  · split_ifs
    · exact trail_reject _ _ _ _ _
    · exact .refl s
  · exact .refl s

theorem receive_trail [GroupClassifier G] (s : Storage R H D B G) (frame : Frame) (now : Instant)
    (options : Options) (host : Claim → Bool) :
    ∃ at_ : Arrival, at_.port = frame.port ∧ at_.now = now ∧
      Trail (FrameOp at_ options.timing) (s.note (.received frame now))
        (s.receive frame now options host).1 := by
  have hdrop : ∀ A : TableOp → Prop,
      Trail A (s.note (.received frame now)) (s.dropUndrained.note (.received frame now)) := by
    intro A
    unfold dropUndrained
    dsimp only
    split_ifs
    · exact trail_same rfl rfl
    · exact trail_same rfl rfl
  unfold receive
  dsimp only
  generalize s.dropUndrained.note (.received frame now) = t at hdrop ⊢
  split
  · exact ⟨⟨frame.port, 0, [], .empty, false, now⟩, rfl, rfl, (hdrop _).trans (trail_bump t _)⟩
  · split
    · exact ⟨⟨frame.port, 0, [], .empty, false, now⟩, rfl, rfl, (hdrop _).trans (trail_bump t _)⟩
    · rename_i config _ _ mac _
      refine ⟨⟨frame.port, config.network, frame.source, mac, frame.linkGroup, now⟩, rfl, rfl,
        (hdrop _).trans ?_⟩
      split
      · exact trail_dispatch t _ _ _ _
      · exact trail_refuse t _ _

end Frame

/-! ## The other calls -/

theorem trail_writeRequest (s : Storage R H D B G) (npdu : Npdu) (limits : NpduLimits)
    (port : PortId) (dest : List UInt8) : Trail A s (s.writeRequest npdu limits port dest).1 := by
  unfold writeRequest
  dsimp only
  split
  · exact trail_bump s _
  · split
    · exact trail_same rfl rfl
    · exact trail_same rfl rfl

theorem trail_originateGlobal (s : Storage R H D B G) (request : Request)
    (selected : Option PortId) : Trail A s (s.originateGlobal request selected).1 := by
  unfold originateGlobal
  dsimp only
  generalize (if 1 < s.ports.length then selected else none) = named
  split
  · exact trail_bump s _
  · split
    · exact trail_same rfl rfl
    · split
      · generalize ((_ : Option ℕ) == some 6) = holds
        have h := trail_debugAssert (A := A) s .bareHeader holds
        unfold debugAssert at h ⊢
        split_ifs at h ⊢
        · exact h
        · exact h
      · exact trail_same rfl rfl

theorem settles_originate [GroupClassifier G] (s : Storage R H D B G) (request : Request)
    (now : Instant) (options : Options) : Settles s (s.originate request now options).1 := by
  unfold originate
  dsimp only
  have hdrop := trail_dropUndrained (A := fun op => op.claimless = true) s
  generalize s.dropUndrained = t at hdrop ⊢
  split
  · exact hdrop
  split
  · exact hdrop
  split
  · exact hdrop
  split
  · exact hdrop
  split
  · exact hdrop
  · split
    · exact hdrop.trans (trail_originateGlobal t _ _)
    · refine hdrop.trans ?_
      unfold originateTo
      dsimp only
      split
      · exact trail_solicit t _ _ _ _
      · have htouch : Settles t (t.setTable (t.table.touch request.destination.network now)) :=
          trail_setTable t (.touch request.destination.network now) rfl fun _ => rfl
        split
        · exact htouch
        · exact htouch
        · refine htouch.trans ?_
          unfold originateAlong
          split
          · exact .refl _
          · dsimp only
            split
            · exact .refl _
            · exact trail_writeRequest _ _ _ _ _

theorem trail_nextFanOut (left : ℕ) (s : Storage R H D B G) : Trail A s (s.nextFanOut left).1 := by
  induction left generalizing s with
  | zero => exact .refl s
  | succ left ih =>
    unfold nextFanOut
    dsimp only
    split
    · refine Trail.trans ?_ (ih _)
      exact trail_same rfl rfl
    split
    · exact trail_same rfl rfl
    · refine Trail.trans ?_ (ih _)
      exact trail_same rfl rfl

theorem trail_nextTail (s : Storage R H D B G) : Trail A s s.nextTail.1 := by
  unfold nextTail
  dsimp only
  split
  · have h := trail_debugAssert (A := A) (s.setCurrent { s.out.current with tail := 0 }) .tailInside
      (s.out.current.tail + (tailHeader s.out.current).length
        < (s.setCurrent { s.out.current with tail := 0 }).out.current.len)
    generalize (s.setCurrent { s.out.current with tail := 0 }).debugAssert .tailInside
      (s.out.current.tail + (tailHeader s.out.current).length
        < (s.setCurrent { s.out.current with tail := 0 }).out.current.len) = t at h ⊢
    split
    · split
      · exact h
      · exact h
    · exact h
  · exact trail_same rfl rfl

theorem trail_nextTarget (s : Storage R H D B G) : Trail A s s.nextTarget.1 := by
  unfold nextTarget
  dsimp only
  split
  · exact .refl s
  split
  · split
    · exact trail_same rfl rfl
    · exact trail_same rfl rfl
  · have h := trail_nextFanOut (A := A) (s.ports.length - s.out.current.next) s
    generalize s.nextFanOut (s.ports.length - s.out.current.next) = found at h ⊢
    obtain ⟨t, port⟩ := found
    cases port with
    | some port => exact h
    | none => exact h.trans (trail_nextTail t)

theorem trail_writeAnnouncement (s : Storage R H D B G) : Trail A s s.writeAnnouncement.1 := by
  unfold writeAnnouncement
  split
  · exact .refl s
  · dsimp only
    split
    · exact trail_same rfl rfl
    · split
      · exact trail_same rfl rfl
      · split
        · exact trail_same rfl rfl
        · exact trail_same rfl rfl

theorem trail_writeTask (s : Storage R H D B G) : Trail A s s.writeTask.1 := by
  unfold writeTask
  split
  · exact trail_writeAnnouncement s
  · rename_i task _
    have htake : ∀ (t : Storage R H D B G) (written : Option Written),
        Trail A t (t.takeOutput task written) := by
      intro t written
      unfold takeOutput
      split
      · exact .refl t
      · split
        · exact trail_same rfl rfl
        · exact trail_bump t _
    have h := htake (s.setScratch (s.taskOutput task).scratch) (s.taskOutput task).output
    dsimp only
    split
    · exact h
    · exact h

theorem trail_pollLoop (rounds : ℕ) (s : Storage R H D B G) :
    ∀ t action, pollLoop rounds s = some (t, action) → Trail A s t := by
  induction rounds generalizing s with
  | zero => intro t action h; cases h
  | succ rounds ih =>
    intro t action h
    unfold pollLoop at h
    have hnext := trail_nextTarget (A := A) s
    generalize s.nextTarget = found at h hnext
    obtain ⟨u, _ | ⟨port, broadcast⟩⟩ := found
    · dsimp only at h
      have hwrite := trail_writeTask (A := A) u
      generalize u.writeTask = written at h hwrite
      obtain ⟨v, _ | _⟩ := written
      · cases h
        exact hnext.trans hwrite
      · exact hnext.trans (hwrite.trans (ih v t action h))
    · cases h
      exact hnext

theorem trail_poll (s : Storage R H D B G) : Trail A s s.poll.1 := by
  unfold poll
  cases h : pollLoop s.pollRounds s with
  | none => exact .refl s
  | some result => exact trail_pollLoop _ s result.1 result.2 h

theorem trail_refusedLater (s : Storage R H D B G) (why : SendRefusal)
    (origin : Option RejectOrigin) : Trail A s (s.refusedLater why origin) := by
  refine Trail.trans ?_ (trail_bump _ _)
  split_ifs
  · cases origin with
    | none => exact trail_bump s _
    | some origin => exact (trail_bump s _).trans (trail_queueReject _ _ _)
  · exact .refl s

theorem trail_endRefusedAnswer (s : Storage R H D B G) : Trail A s s.endRefusedAnswer := by
  unfold endRefusedAnswer
  dsimp only
  split_ifs
  all_goals exact trail_same rfl rfl

theorem trail_refusedWhileClogged (s : Storage R H D B G) : Trail A s s.refusedWhileClogged := by
  unfold refusedWhileClogged
  dsimp only
  split
  · split_ifs
    · exact trail_queueReject s _ _
    · exact .refl s
  · exact .refl s

theorem trail_egressBacklog (s : Storage R H D B G) (port : PortId) (backlog : Backlog)
    (now : Instant) (policy : Congestion) : Trail A s (s.egressBacklog port backlog now policy) := by
  unfold egressBacklog
  split
  · exact .refl s
  · dsimp only
    split
    all_goals exact trail_same rfl rfl

theorem settles_sweep (s : Storage R H D B G) (now : Instant) (options : Options) :
    Settles s (s.sweep now options) := by
  unfold sweep
  dsimp only
  have hpurge : Settles s (((s.setTable (s.table.purgeStale now options.learnedAge).1).noteAll
      .purged (s.table.purgeStale now options.learnedAge).2).observeAll .purged
      (s.table.purgeStale now options.learnedAge).2) := by
    have h := trail_noteTable (A := fun op => op.claimless = true) s
      (.purgeStale now options.learnedAge) rfl
    exact h.trans (trail_observeAll .purged (s.table.purgeStale now options.learnedAge).2 _)
  refine hpurge.trans ?_
  generalize (((s.setTable (s.table.purgeStale now options.learnedAge).1).noteAll .purged
    (s.table.purgeStale now options.learnedAge).2).observeAll .purged
    (s.table.purgeStale now options.learnedAge).2) = t
  have hclear : Settles t (t.setTable (t.table.clearExpiredBusy now).1) :=
    trail_setTable t (.clearExpiredBusy now) rfl fun _ => rfl
  refine hclear.trans ?_
  generalize t.setTable (t.table.clearExpiredBusy now).1 = u
  have hexpire : Settles u ((u.setTable (u.table.expirePending now options.timing).1).observeAll
      .pendingExpired (u.table.expirePending now options.timing).2) := by
    have h : Settles u (u.setTable (u.table.expirePending now options.timing).1) :=
      trail_setTable u (.expirePending now options.timing) rfl fun _ => rfl
    exact h.trans (trail_observeAll _ _ _)
  refine hexpire.trans ?_
  generalize ((u.setTable (u.table.expirePending now options.timing).1).observeAll
    .pendingExpired (u.table.expirePending now options.timing).2) = v
  exact trail_observeAll .discoveryExpired (v.discovery.expire now options.discoveryAge).2
    { v with discovery := (v.discovery.expire now options.discoveryAge).1 }

end Storage

/-! ## Runs -/

theorem valid_addPorts {R H : ℕ} {G : Type} {table next : Table R H}
    {ports : List (PortConfig G × ℕ)} (hv : table.Valid) (h : addPorts table ports = some next) : next.Valid := by
  induction ports generalizing table with
  | nil =>
    cases h
    exact hv
  | cons port rest ih =>
    unfold addPorts at h
    split at h
    · rename_i heq
      apply ih _ h
      have := Table.valid_addDirect hv port.1.network ⟨UInt8.ofNat port.2⟩
      rw [heq] at this
      exact this
    · cases h

namespace Engine

variable {R H D B : ℕ} {G : Type} [GroupClassifier G]

open Storage

/-- What a call other than a received frame does to the table. -/
theorem step_trail (router : Engine R H D B G) {call : Call}
    (hcall : ∀ frame now host, call ≠ .receive frame now host) :
    Trail (fun op => op.claimless = true ∨ call = .table op) router.storage
      (router.step call).1.storage := by
  have hclock : ∀ {A : TableOp → Prop} (now : Instant),
      Trail A router.storage (router.clocked now) := fun _ => trail_same rfl rfl
  have hsettles : ∀ {t : Storage R H D B G}, Settles router.storage t →
      Trail (fun op => op.claimless = true ∨ call = .table op) router.storage t :=
    fun h => h.mono fun _ => .inl
  cases call with
  | receive frame now host => exact absurd rfl (hcall frame now host)
  | start => exact (trail_dropUndrained _).trans (trail_push _ _)
  | announcePort port =>
    show Trail _ _ (if _ then _ else _ : Engine R H D B G × Reply).1.storage
    split_ifs
    · exact (trail_dropUndrained _).trans (trail_push _ _)
    · exact .refl _
  | originate request now =>
    exact hsettles ((hclock now).trans (settles_originate _ _ _ _))
  | poll => exact trail_poll _
  | refused why =>
    have h := (trail_refusedLater (A := fun op => op.claimless = true) router.storage why none).trans
      (trail_endRefusedAnswer _)
    apply hsettles
    show Settles _ (router.refused why)
    unfold refused
    dsimp only
    split_ifs
    · exact h.trans (trail_refusedWhileClogged _)
    · exact h
  | refusedLater why origin => exact trail_refusedLater _ _ _
  | egressBacklog port backlog now =>
    unfold step
    dsimp only
    split
    · exact (hclock now).trans (trail_egressBacklog _ _ _ _ _)
    · exact hclock now
  | setPortMaxNpdu port limits =>
    show Trail _ _ (setPortMaxNpdu router.storage port limits).1
    unfold setPortMaxNpdu
    split
    · exact .refl _
    · split_ifs
      · exact .refl _
      · exact trail_same rfl rfl
  | onDeadline now =>
    apply hsettles
    refine (hclock now).trans ?_
    show Settles _ (if _ then _ else _)
    split_ifs
    · exact .refl _
    · exact settles_sweep _ _ _
  | cancelDiscovery => exact trail_same rfl rfl
  | takeCounters => exact trail_same rfl rfl
  | table op => exact trail_noteTable router.storage op (.inr rfl)

theorem Reachable.valid {router : Engine R H D B G} (h : Reachable router) :
    router.storage.table.Valid := by
  induction h with
  | new hnew =>
    obtain ⟨_, table, hports, rfl⟩ := new_cases hnew
    refine valid_addPorts ?_ hports
    exact (Table.step Table.valid_new (.setConvergence _)).valid
  | @step router _ call ih =>
    by_cases hcall : ∃ frame now host, call = .receive frame now host
    · obtain ⟨frame, now, host, rfl⟩ := hcall
      obtain ⟨at_, _, _, htrail⟩ := receive_trail (router.clocked now) frame
        (router.clocked now).latest router.options host
      exact TableRun.valid htrail ih
    · exact (step_trail _ fun frame now host heq => hcall ⟨frame, now, host, heq⟩).valid ih

/-- In every run of a router its table keeps its order, room and hold-downs, its ports their numbers
and limits, and an output that is still to be sent is a whole NPDU in the buffer. -/
theorem router_invariants {router : Engine R H D B G} (h : Reachable router) :
    router.storage.table.Valid ∧ Housed router.storage ∧
      Loaded router.storage fun _ _ _ => True :=
  ⟨h.valid, h.housed, h.loaded⟩

/-- Network 3 is learned from a router that then rejects it, and a broadcast has been sent on one
port of two. -/
def benchCalls : List Call :=
  [.receive ⟨⟨1⟩, [9], true, [1, 0x80, 1, 0, 3]⟩ 5 fun _ => true,
    .receive ⟨⟨1⟩, [9], false, [1, 0x80, 3, 2, 0, 3]⟩ 6 fun _ => true,
    .originate ⟨⟨globalNetwork, []⟩, [0x10, 8], false, .normal, .port ⟨0⟩⟩ 7, .poll]

theorem router_invariants_bench :
    let s := ((bench .standard bench_standard).run benchCalls).storage
    (s.table.slots.map (fun slot => (slot.network, slot.route.direct))
        = [(1, true), (2, true), (3, false)] ∧
      s.table.holds = [⟨3, ⟨1⟩, 6⟩] ∧ s.out.current.hasMore s.ports.length = true) ∧
      s.table.Valid ∧ Housed s ∧ Loaded s fun _ _ _ => True :=
  ⟨by decide +kernel, router_invariants ((Reachable.new (new_bench _ _)).run benchCalls)⟩

end Engine

end RustyBacnet.Router
