import RustyBacnet.Router.Chain

/-!
# What a router sends until it is idle

`Drains s sends`: polled until it is idle, the router sends exactly `sends`.

1. Behind a current output with nothing else waiting, a poll is one look for the next target.
2. A fan-out that fits every port sends its copies in port order, then its tail.
3. A queued task is written when nothing of the current output is left. `Ready` is a router with
   tasks to write and nothing else to send, and `ready_output` is one of its polls.
-/

namespace RustyBacnet.Router.Storage

open Slices

variable {R H D B : ℕ} {G : Type} {s t u : Storage R H D B G}

/-- Polled until it is idle, the router sends these. -/
inductive Drains : Storage R H D B G → List Send → Prop
  | idle {s : Storage R H D B G} (h : s.poll.2 = .idle) : Drains s []
  | send {s t : Storage R H D B G} {send : Send} {rest : List Send}
      (h : s.poll = (t, .send send)) (hrest : Drains t rest) : Drains s (send :: rest)

theorem Drains.unique {xs ys : List Send} (hx : Drains s xs) (hy : Drains s ys) : xs = ys := by
  induction hx generalizing ys with
  | idle h =>
    cases hy with
    | idle _ => rfl
    | send h' _ =>
      rw [h'] at h
      cases h
  | send h _ ih =>
    cases hy with
    | idle h' =>
      rw [h] at h'
      cases h'
    | send h' hrest =>
      rw [h] at h'
      cases h'
      rw [ih hrest]

theorem Drains.of_poll {sends : List Send} (heq : s.poll = t.poll) (h : Drains t sends) :
    Drains s sends := by
  cases h with
  | idle h => exact .idle (by rw [heq]; exact h)
  | send h hrest => exact .send (by rw [heq]; exact h) hrest

/-! ## One poll -/

theorem Sole.poll_idle (ht : Sole t) (hnext : s.nextTarget = (t, none)) : s.poll = (t, .idle) := by
  unfold poll
  rw [pollRounds_succ]
  unfold pollLoop
  rw [hnext]
  dsimp only
  rw [ht.writeTask]
  rfl

theorem sole_nextTail (h : Sole s) : Sole s.nextTail.1 := by
  unfold nextTail debugAssert
  dsimp only
  split_ifs
  all_goals exact ⟨h.tasks, h.flows⟩

theorem sole_nextTarget (h : Sole s) : Sole s.nextTarget.1 := by
  obtain ⟨hadv, _⟩ := nextFanOut_cases (s.ports.length - s.out.current.next) s
  unfold nextTarget
  dsimp only
  split_ifs
  · exact h
  · exact ⟨h.tasks, h.flows⟩
  · exact ⟨h.tasks, h.flows⟩
  · generalize s.nextFanOut (s.ports.length - s.out.current.next) = found at hadv ⊢
    obtain ⟨t, found⟩ := found
    obtain ⟨next, _, hout⟩ := hadv.out
    have ht : Sole t := ⟨by rw [hout]; exact h.tasks, by rw [hadv.flows]; exact h.flows⟩
    cases found with
    | some port => exact ht
    | none => exact sole_nextTail ht

/-- With nothing else waiting, what a poll does is up to its look for the next target. -/
theorem Sole.poll_congr (h : Sole s) (hnext : s.nextTarget = t.nextTarget) : s.poll = t.poll := by
  have hsole := sole_nextTarget h
  generalize hfound : s.nextTarget = found at hnext hsole
  obtain ⟨u, found⟩ := found
  cases found with
  | some target => rw [poll_of_target hfound, poll_of_target hnext.symm]
  | none => rw [hsole.poll_idle hfound, hsole.poll_idle hnext.symm]

theorem pollLoop_mono {polled : Storage R H D B G × Action} {rounds more : ℕ}
    (h : pollLoop rounds s = some polled) (hle : rounds ≤ more) : pollLoop more s = some polled := by
  induction rounds generalizing s more with
  | zero => cases h
  | succ rounds ih =>
    obtain ⟨more, rfl⟩ : ∃ m, more = m + 1 := ⟨more - 1, by omega⟩
    unfold pollLoop at h ⊢
    generalize s.nextTarget = found at h ⊢
    obtain ⟨t, found⟩ := found
    cases found with
    | some target => exact h
    | none =>
      dsimp only at h ⊢
      generalize t.writeTask = written at h ⊢
      obtain ⟨u, more'⟩ := written
      cases more' with
      | false => exact h
      | true => exact ih h (by omega)

theorem poll_of_writeTask (hload : Loaded s fun _ _ _ => True) (hnext : s.nextTarget = (t, none))
    (hwrite : t.writeTask = (u, true)) : s.poll = u.poll := by
  obtain ⟨hlook, _, hended⟩ := nextTarget_looks (fun _ _ _ h => h) hload
  rw [hnext] at hlook hended
  have hsame : t.pollRounds = s.pollRounds := by
    unfold pollRounds
    rw [hlook.ports, hlook.flows, hlook.tasks]
  have hstep : TaskStep t u := by
    rcases writeTask_cases hended with ⟨h, _⟩ | ⟨_, h⟩
    · rw [hwrite] at h
      cases h
    · rw [hwrite] at h
      exact h
  obtain ⟨polled, hpolled, _⟩ := pollLoop_ok anyLaw u.pollRounds le_rfl (hstep.loaded _ anyLaw)
  have hmore : pollLoop (s.pollRounds - 1) u = some polled :=
    pollLoop_mono hpolled (by have := hstep.rounds; omega)
  unfold poll
  rw [hpolled, pollRounds_succ]
  unfold pollLoop
  rw [hnext]
  dsimp only
  rw [hwrite]
  dsimp only
  rw [hmore]
  rfl

/-! ## Fan-outs -/

def movedTo (s : Storage R H D B G) (next : ℕ) : Storage R H D B G :=
  s.setCurrent { s.out.current with next := next }

theorem nextFanOut_skip (left : ℕ)
    (hown : (⟨UInt8.ofNat s.out.current.next⟩ : PortId) = s.out.current.port) :
    s.nextFanOut (left + 1) = (s.movedTo (s.out.current.next + 1)).nextFanOut left := by
  rw [nextFanOut]
  exact if_pos hown

theorem nextFanOut_fits (left : ℕ)
    (hown : (⟨UInt8.ofNat s.out.current.next⟩ : PortId) ≠ s.out.current.port)
    (hfits : s.fitsFrom 0 ⟨UInt8.ofNat s.out.current.next⟩ true = true) :
    s.nextFanOut (left + 1)
      = (s.movedTo (s.out.current.next + 1), some ⟨UInt8.ofNat s.out.current.next⟩) := by
  rw [nextFanOut]
  exact (if_neg hown).trans (if_pos hfits)

theorem nextTarget_fanOut (hactive : s.out.current.active = true)
    (hfan : s.out.current.fanOut = true) {port : PortId}
    (h : s.nextFanOut (s.ports.length - s.out.current.next) = (t, some port)) :
    s.nextTarget = (t, some (port, true)) := by
  unfold nextTarget
  rw [if_neg (by rw [hactive]; decide), if_neg (by rw [hfan]; decide), h]

theorem nextTarget_tail (hactive : s.out.current.active = true) (hfan : s.out.current.fanOut = true)
    (h : s.nextFanOut (s.ports.length - s.out.current.next) = (t, none)) :
    s.nextTarget = t.nextTail := by
  unfold nextTarget
  rw [if_neg (by rw [hactive]; decide), if_neg (by rw [hfan]; decide), h]

/-- `t` is `s` with its current output moved on. -/
structure FannedOn (s t : Storage R H D B G) : Prop where
  ports : t.ports = s.ports
  flows : t.flows = s.flows
  tasks : t.out.tasks = s.out.tasks
  scratch : t.scratch = s.scratch
  current : ∃ next, t.out.current = { s.out.current with next := next }

theorem FannedOn.refl (s : Storage R H D B G) : FannedOn s s := ⟨rfl, rfl, rfl, rfl, _, rfl⟩

theorem FannedOn.trans (h : FannedOn s t) (h' : FannedOn t u) : FannedOn s u := by
  obtain ⟨next, hnext⟩ := h.current
  obtain ⟨next', hnext'⟩ := h'.current
  exact ⟨h'.ports.trans h.ports, h'.flows.trans h.flows, h'.tasks.trans h.tasks,
    h'.scratch.trans h.scratch, next', by rw [hnext', hnext]⟩

theorem FannedOn.sole (h : FannedOn s t) (hs : Sole s) : Sole t :=
  ⟨h.tasks.trans hs.tasks, by rw [h.flows]; exact hs.flows⟩

theorem FannedOn.sendOf (h : FannedOn s t) (port : PortId) (broadcast : Bool) :
    t.sendOf port broadcast = s.sendOf port broadcast := by
  obtain ⟨next, hnext⟩ := h.current
  unfold Storage.sendOf
  rw [hnext, h.scratch]

theorem FannedOn.fitsFrom (h : FannedOn s t) (start : ℕ) (port : PortId) (broadcast : Bool) :
    t.fitsFrom start port broadcast = s.fitsFrom start port broadcast := by
  obtain ⟨next, hnext⟩ := h.current
  unfold Storage.fitsFrom portOf
  rw [hnext, h.ports]

theorem fannedOn_movedTo (s : Storage R H D B G) (next : ℕ) : FannedOn s (s.movedTo next) :=
  ⟨rfl, rfl, rfl, rfl, next, rfl⟩

/-- `t` as it is once its current output has gone to a port. -/
def sentTo (t : Storage R H D B G) (port : PortId) : Storage R H D B G :=
  { t with out := { t.out with lastTableAck := t.out.current.tableAck, lastPort := port } }

theorem fannedOn_sentTo (s : Storage R H D B G) (port : PortId) : FannedOn s (s.sentTo port) :=
  ⟨rfl, rfl, rfl, rfl, _, rfl⟩

/-- The copies of a fan-out for the ports from `first` on. -/
def copiesFrom (s : Storage R H D B G) (first left : ℕ) : List Send :=
  ((List.range' first left).filter fun port => port != s.out.current.port.index.toNat).map
    fun port => s.sendOf ⟨UInt8.ofNat port⟩ true

theorem FannedOn.copiesFrom (h : FannedOn s t) (first left : ℕ) :
    t.copiesFrom first left = s.copiesFrom first left := by
  obtain ⟨next, hnext⟩ := h.current
  unfold Storage.copiesFrom
  rw [hnext]
  simp only [h.sendOf]

theorem portId_eq_iff {port : ℕ} (h : port < 256) (own : PortId) :
    (⟨UInt8.ofNat port⟩ : PortId) = own ↔ port = own.index.toNat := by
  constructor
  · rintro rfl
    exact (UInt8.toNat_ofNat_of_lt' h).symm
  · rintro rfl
    rw [UInt8.ofNat_toNat]

/-- A fan-out that fits every other port goes to each of them in order, then ends as `rest`. -/
theorem drains_fanOut (rest : List Send) (left : ℕ) (hsole : Sole s)
    (hactive : s.out.current.active = true) (hfan : s.out.current.fanOut = true)
    (hleft : s.out.current.next + left = s.ports.length) (hports : s.ports.length < 256)
    (hfits : ∀ port < s.ports.length, port ≠ s.out.current.port.index.toNat →
      s.fitsFrom 0 ⟨UInt8.ofNat port⟩ true = true)
    (hend : ∀ t, FannedOn s t → t.out.current.next = t.ports.length → Drains t rest) :
    Drains s (s.copiesFrom s.out.current.next left ++ rest) := by
  induction left generalizing s with
  | zero => exact hend s (.refl s) hleft
  | succ left ih =>
    have hahead : s.ports.length - s.out.current.next = left + 1 := by omega
    have hon := fannedOn_movedTo s (s.out.current.next + 1)
    have hlater : ∀ t, FannedOn s t → t.out.current.next = s.out.current.next + 1 →
        Drains t (t.copiesFrom (s.out.current.next + 1) left ++ rest) := by
      intro t ht hnext
      obtain ⟨next, hcurrent⟩ := ht.current
      rw [← hnext]
      refine ih (ht.sole hsole) (by rw [hcurrent]; exact hactive) (by rw [hcurrent]; exact hfan)
        (by rw [ht.ports, hnext]; omega) (by rw [ht.ports]; exact hports) ?_
        fun u hu => hend u (ht.trans hu)
      intro port hport hne
      rw [ht.fitsFrom]
      refine hfits port (by rw [← ht.ports]; exact hport) ?_
      rw [hcurrent] at hne
      exact hne
    unfold copiesFrom
    rw [List.range'_succ, List.filter_cons]
    by_cases hown : s.out.current.next = s.out.current.port.index.toNat
    · -- Its own port is passed over, and the poll goes on from the next one.
      have hskip := nextFanOut_skip (s := s) left ((portId_eq_iff (by omega) _).mpr hown)
      have hmoved := hlater _ hon rfl
      rw [hon.copiesFrom] at hmoved
      rw [if_neg (by simpa using hown)]
      refine Drains.of_poll (hsole.poll_congr ?_) hmoved
      have hahead' : (s.movedTo (s.out.current.next + 1)).ports.length
          - (s.movedTo (s.out.current.next + 1)).out.current.next = left := by
        show s.ports.length - (s.out.current.next + 1) = left
        omega
      rw [← hahead] at hskip
      generalize hfound : (s.movedTo (s.out.current.next + 1)).nextFanOut left = found at hskip
      obtain ⟨t, found⟩ := found
      rw [← hahead'] at hfound
      cases found with
      | some port =>
        rw [nextTarget_fanOut hactive hfan hskip]
        exact (nextTarget_fanOut (s := s.movedTo (s.out.current.next + 1)) hactive hfan hfound).symm
      | none =>
        rw [nextTarget_tail hactive hfan hskip]
        exact (nextTarget_tail (s := s.movedTo (s.out.current.next + 1)) hactive hfan hfound).symm
    · have hfound := nextFanOut_fits (s := s) left
        (fun h => hown ((portId_eq_iff (by omega) _).mp h)) (hfits _ (by omega) hown)
      rw [← hahead] at hfound
      have hpoll := poll_of_target (nextTarget_fanOut hactive hfan hfound)
      rw [if_pos (by simpa using hown), List.map_cons, List.cons_append]
      rw [hon.sendOf] at hpoll
      refine .send hpoll ?_
      have hall := hlater ((s.movedTo (s.out.current.next + 1)).sentTo
        ⟨UInt8.ofNat s.out.current.next⟩) (hon.trans (fannedOn_sentTo _ _)) rfl
      rw [(hon.trans (fannedOn_sentTo _ _)).copiesFrom] at hall
      exact hall

theorem drains_nothing (hsole : Sole s)
    (hmore : s.out.current.hasMore s.ports.length = false) : Drains s [] := by
  have hsole' := sole_nextTarget hsole
  obtain ⟨_, _, hfound⟩ := nextTarget_looks (P := fun _ _ _ => True) (fun _ _ _ h => h)
    (.of_spent hmore)
  generalize hnext : s.nextTarget = found at hsole' hfound
  obtain ⟨t, found⟩ := found
  cases found with
  | none => exact .idle (by rw [hsole'.poll_idle hnext])
  | some target =>
    rw [hfound.2.more] at hmore
    cases hmore

theorem drains_past (hsole : Sole s) (hactive : s.out.current.active = true)
    (hfan : s.out.current.fanOut = true) (htail : s.out.current.tail = 0)
    (hnext : s.out.current.next = s.ports.length) : Drains s [] := by
  have hfound : s.nextFanOut (s.ports.length - s.out.current.next) = (s, none) := by
    rw [hnext, Nat.sub_self]
    rfl
  have htarget := nextTarget_tail hactive hfan hfound
  rw [nextTail_of_zero htail] at htarget
  have hsole' : Sole s.ended := ⟨hsole.tasks, hsole.flows⟩
  exact .idle (by rw [hsole'.poll_idle htarget])

def tailSend (s : Storage R H D B G) (npdu : Npdu) : Send :=
  { s.sendOf s.out.current.port true with npdu := (bare npdu).wire }

variable {npdu : Npdu}

/-- A fan-out past its last port goes to its own port without its source fields. -/
theorem drains_tail (hsole : Sole s) (hactive : s.out.current.active = true)
    (hfan : s.out.current.fanOut = true) (hnext : s.out.current.next = s.ports.length)
    (hc : Carries s npdu) (hok : TailOk s.out.current npdu)
    (hfits : s.fitsFrom s.out.current.tail s.out.current.port true = true) :
    Drains s [s.tailSend npdu] := by
  have hne : s.out.current.tail ≠ 0 := by
    obtain ⟨address, _, htail⟩ := hok.source
    omega
  have hfound : s.nextFanOut (s.ports.length - s.out.current.next) = (s, none) := by
    rw [hnext, Nat.sub_self]
    rfl
  have htarget := nextTarget_tail hactive hfan hfound
  rw [nextTail_of_tail hc hok hne,
    if_pos (show s.tailed.fitsFrom s.out.current.tail s.out.current.port true = true from hfits)]
    at htarget
  have hsend : s.tailed.sendOf s.out.current.port true = s.tailSend npdu := by
    unfold tailSend
    rw [← sentOctets_tailed hc hok]
    rfl
  have hpoll := poll_of_target htarget
  rw [hsend] at hpoll
  exact .send hpoll (drains_past ⟨hsole.tasks, hsole.flows⟩ hactive hfan rfl hnext)

variable {scratch : List UInt8}

theorem writeNpdu_ok (henc : npdu.Encodable) (hroom : npdu.encodedLen ≤ scratch.length) :
    writeNpdu scratch npdu
      = (some npdu.encodedLen, npdu.wire ++ scratch.drop npdu.encodedLen) := by
  unfold writeNpdu
  rw [Npdu.encodeInto_of_encodable henc hroom]

/-- The storage with a task's output as the current one and the task gone. -/
def tookOnly (s : Storage R H D B G) (task : Task) (rest : List Task) (len : ℕ)
    (scratch : List UInt8) (kind : Kind) (cause : Cause) (target : Target) : Storage R H D B G :=
  { s with
    scratch := scratch
    out := { s.out with
      current := { Current.new len kind cause .normal target with
        tableAck := task.kind == .tableAck }
      tasks := rest } }

variable {rest : List Task} {task : Task} {kind : Kind} {target : Target} {cause : Cause}

theorem writeTask_once {len : ℕ} (htasks : s.out.tasks = task :: rest)
    (houtput : s.taskOutput task = .once (some len, scratch) kind cause target) :
    s.writeTask = (s.tookOnly task rest len scratch kind cause target, true) := by
  unfold writeTask
  rw [htasks, List.head?_cons]
  dsimp only
  rw [houtput]
  exact congrArg (fun out => (({ s with scratch := scratch, out := out } : Storage R H D B G), true))
    (pop_cons { s.out with
      current := { Current.new len kind cause .normal target with
        tableAck := task.kind == .tableAck } } htasks)

/-! ## One output of a task -/

theorem writeMessage_eq (scratch : List UInt8) (kind : NetworkMessageType)
    {data : List UInt8 → Except DataError ℕ × List UInt8} (payload : List UInt8)
    (hdata : ∀ out, data out = writeFront payload out) :
    writeMessage scratch kind data =
      if (Npdu.message kind payload).encodedLen ≤ scratch.length then
        (some (Npdu.message kind payload).encodedLen,
          (Npdu.message kind payload).wire
            ++ scratch.drop (Npdu.message kind payload).encodedLen)
      else (none, scratch) := by
  have hall := encodedLen_message kind payload
  unfold writeMessage
  by_cases hshort : scratch.length < (Npdu.message kind []).encodedLen
  · rw [if_pos hshort, if_neg (by omega)]
  rw [if_neg hshort, hdata, writeFront_eq, List.length_drop]
  by_cases hroom : payload.length ≤ scratch.length - (Npdu.message kind []).encodedLen
  · have hlen : (scratch.take (Npdu.message kind []).encodedLen).length
        = (Npdu.message kind []).encodedLen := by
      rw [List.length_take]
      omega
    rw [if_pos hroom, if_pos (by omega)]
    rw [Npdu.encodeInto_of_encodable (message_encodable kind []) hlen.ge]
    dsimp only
    rw [List.drop_eq_nil_of_le hlen.le, List.append_nil, ← List.append_assoc, ← wire_message,
      List.drop_drop, ← hall]
  · rw [if_neg hroom, if_neg (by omega)]
    dsimp only
    rw [List.take_append_drop]

/-- A router with tasks to write, whose current output has ended. -/
structure Ready (s : Storage R H D B G) (tasks : List Task) : Prop where
  ended : s.out.current.active = false
  tasks : s.out.tasks = tasks
  flows : ∀ flow ∈ s.flows, flow.waits = false

/-- Two states of one router, as far as its answers go. -/
structure SameTable (s t : Storage R H D B G) : Prop where
  ports : t.ports = s.ports
  table : t.table = s.table
  room : t.scratch.length = s.scratch.length

theorem SameTable.trans (h : SameTable s t) (h' : SameTable t u) : SameTable s u :=
  ⟨h'.ports.trans h.ports, h'.table.trans h.table, h'.room.trans h.room⟩

variable {tasks : List Task}

theorem Ready.loaded (h : Ready s tasks) : Loaded s fun _ _ _ => True :=
  .of_inactive h.ended

theorem Ready.nextTarget (h : Ready s tasks) : s.nextTarget = (s, none) := by
  exact if_pos (by rw [h.ended]; rfl)

theorem Ready.drains_nil (h : Ready s []) : Drains s [] :=
  drains_nothing ⟨h.tasks, h.flows⟩ (hasMore_inactive h.ended _)

theorem poll_skip (hload : Loaded s fun _ _ _ => True) (hnext : s.nextTarget = (t, none))
    (ht : Ready t tasks) : s.poll = t.poll := by
  rcases writeTask_cases ht.ended with ⟨hdone, htasks⟩ | ⟨hmore, _⟩
  · have hidle : ∀ v : Storage R H D B G, v.nextTarget = (t, none) → v.poll = (t, .idle) := by
      intro v hv
      unfold poll
      rw [pollRounds_succ]
      unfold pollLoop
      rw [hv]
      dsimp only
      rw [hdone]
      rfl
    rw [hidle s hnext, hidle t ht.nextTarget]
  · generalize hwrite : t.writeTask = written at hmore
    obtain ⟨u, more⟩ := written
    subst hmore
    rw [poll_of_writeTask hload hnext hwrite, poll_of_writeTask ht.loaded ht.nextTarget hwrite]

theorem ready_of_spent (htasks : s.out.tasks = tasks)
    (hmore : s.out.current.hasMore s.ports.length = false)
    (hflows : ∀ flow ∈ s.flows, flow.waits = false) :
    ∃ t, Ready t tasks ∧ SameTable s t ∧ s.poll = t.poll := by
  have hload : Loaded s fun _ _ _ => True := .of_spent hmore
  obtain ⟨hlook, _, hfound⟩ := nextTarget_looks (fun _ _ _ h => h) hload
  generalize hnext : s.nextTarget = found at hlook hfound
  obtain ⟨t, found⟩ := found
  cases found with
  | some target =>
    rw [hfound.2.more] at hmore
    cases hmore
  | none =>
    have hready : Ready t tasks :=
      ⟨hfound, hlook.tasks.trans htasks, by rw [hlook.flows]; exact hflows⟩
    exact ⟨t, hready, ⟨hlook.ports, hlook.table, hlook.room⟩, poll_skip hload hnext hready⟩

def tasksBehind (task : Task) (rest : List Task) : Option ℕ → List Task
  | some cursor => { task with cursor := cursor } :: rest
  | none => rest

theorem ready_nothing (hready : Ready s (task :: rest))
    (houtput : s.taskOutput task = ⟨s.scratch, none, none⟩) :
    ∃ t, Ready t rest ∧ SameTable s t ∧ s.poll = t.poll := by
  have hpop := pop_cons s.out hready.tasks
  have hwrite : s.writeTask = ({ s with out := { s.out with tasks := rest } }, true) := by
    unfold writeTask
    rw [hready.tasks, List.head?_cons]
    dsimp only
    rw [houtput]
    exact congrArg (fun out => (({ s with out := out } : Storage R H D B G), true)) hpop
  refine ⟨_, ?_, ?_, poll_of_writeTask hready.loaded hready.nextTarget hwrite⟩
  · exact ⟨hready.ended, rfl, hready.flows⟩
  · exact ⟨rfl, rfl, rfl⟩

theorem ready_unwritten (hready : Ready s (task :: rest))
    (houtput : s.taskOutput task = ⟨s.scratch, some ⟨none, kind, cause, target⟩, none⟩) :
    ∃ t, Ready t rest ∧ SameTable s t ∧ s.poll = t.poll := by
  have hpop := pop_cons (s.bump .writeFailures).out hready.tasks
  have hwrite : s.writeTask
      = ({ s.bump .writeFailures with out := { s.out with tasks := rest } }, true) := by
    unfold writeTask
    rw [hready.tasks, List.head?_cons]
    dsimp only
    rw [houtput]
    exact congrArg (fun out => (({ s.bump .writeFailures with out := out } : Storage R H D B G),
      true)) hpop
  refine ⟨_, ?_, ?_, poll_of_writeTask hready.loaded hready.nextTarget hwrite⟩
  · exact ⟨hready.ended, rfl, hready.flows⟩
  · exact ⟨rfl, rfl, rfl⟩

/-- Where an answer goes: to one station, or with none named to the port's broadcast. -/
def answerTarget (port : PortId) (dest : Option Mac) : Target :=
  dest.elim (.broadcast port) fun mac => .unicast port mac.octets

def answerSend (port : PortId) (dest : Option Mac) (kind : Kind) (npdu : Npdu) : Send where
  port := port
  dest := dest.elim .broadcast fun mac => .unicast mac.octets
  npdu := npdu.wire
  priority := .normal
  kind := kind
  cause := .ingress
  rejectOrigin := none

/-- Whether a port takes this many octets. -/
def takes (s : Storage R H D B G) (port : PortId) (broadcast : Bool) (octets : ℕ) : Prop :=
  ∃ config, s.portOf port = some config ∧ octets ≤ config.maxNpdu.get broadcast

theorem macOrEmpty_mac (mac : Mac) : macOrEmpty mac.octets = mac := by
  obtain ⟨octets, h⟩ := mac
  unfold macOrEmpty Mac.fromSlice
  rw [dif_pos h]
  rfl

theorem current_answer (len : ℕ) (kind : Kind) (port : PortId) (dest : Option Mac) :
    Current.new len kind .ingress .normal (answerTarget port dest) =
      { Current.none with
        active := true, len := len, kind := kind, cause := .ingress, priority := .normal,
        port := port, broadcast := dest.isNone, dest := dest.getD Mac.empty } := by
  cases dest with
  | none => rfl
  | some mac =>
    unfold answerTarget Current.new
    dsimp only [Option.elim_some]
    rw [macOrEmpty_mac]
    rfl

/-- A task's output goes out, or is left out by the port's limit. -/
theorem ready_output (port : PortId) (dest : Option Mac) {next : Option ℕ}
    (hready : Ready s (task :: rest)) (henc : npdu.Encodable)
    (hroom : npdu.encodedLen ≤ s.scratch.length)
    (houtput : s.taskOutput task = ⟨npdu.wire ++ s.scratch.drop npdu.encodedLen,
      some ⟨some npdu.encodedLen, kind, .ingress, answerTarget port dest⟩, next⟩) :
    ∃ t, Ready t (tasksBehind task rest next) ∧ SameTable s t ∧
      (s.takes port dest.isNone npdu.encodedLen →
        s.poll = (t, .send (answerSend port dest kind npdu))) ∧
      (¬s.takes port dest.isNone npdu.encodedLen → s.poll = t.poll) := by
  generalize hcurrent : ({ Current.new npdu.encodedLen kind .ingress .normal
    (answerTarget port dest) with tableAck := task.kind == .tableAck } : Current) = current
  have hwrite : s.writeTask = ({ s with
      scratch := npdu.wire ++ s.scratch.drop npdu.encodedLen
      out := { s.out with current := current, tasks := tasksBehind task rest next } }, true) := by
    unfold writeTask
    rw [hready.tasks, List.head?_cons]
    dsimp only
    rw [houtput]
    unfold takeOutput
    dsimp only
    rw [hcurrent]
    have hpop := pop_cons ({ s.out with current := current }) hready.tasks
    have hput : ∀ out : Outputs, out = { s.out with
          current := current, tasks := tasksBehind task rest next } →
        (({ s with scratch := npdu.wire ++ s.scratch.drop npdu.encodedLen, out := out } :
            Storage R H D B G), true)
          = ({ s with
              scratch := npdu.wire ++ s.scratch.drop npdu.encodedLen
              out := { s.out with current := current, tasks := tasksBehind task rest next } },
            true) := by
      rintro out rfl
      rfl
    cases next with
    | none => exact hput _ hpop
    | some cursor =>
      have hadvance : ({ s.out with current := current } : Outputs).advance cursor
          = { s.out with current := current, tasks := tasksBehind task rest (some cursor) } := by
        unfold Outputs.advance
        rw [hready.tasks]
        rfl
      exact hput _ hadvance
  rw [current_answer] at hcurrent
  generalize hu : ({ s with
    scratch := npdu.wire ++ s.scratch.drop npdu.encodedLen
    out := { s.out with current := current, tasks := tasksBehind task rest next } } :
      Storage R H D B G) = u at hwrite
  have hpoll := poll_of_writeTask hready.loaded hready.nextTarget hwrite
  have hout : u.out = { s.out with current := current, tasks := tasksBehind task rest next } := by
    rw [← hu]
  have hports : u.ports = s.ports := by rw [← hu]
  have hactive : u.out.current.active = true := by rw [hout, ← hcurrent]
  have hsingle : u.out.current.fanOut = false := by rw [hout, ← hcurrent]; rfl
  have hwire := npdu.length_wire
  have hscratch : u.scratch.length = s.scratch.length := by
    rw [← hu]
    show (npdu.wire ++ s.scratch.drop npdu.encodedLen).length = _
    rw [List.length_append, List.length_drop]
    omega
  have hoctets : (u.scratch.take u.out.current.len).drop u.out.current.start = npdu.wire := by
    rw [hout, ← hcurrent, ← hu, ← hwire]
    exact List.take_left
  have hfits : u.fitsFrom 0 u.out.current.port u.out.current.broadcast = true
      ↔ s.takes port dest.isNone npdu.encodedLen := by
    unfold fitsFrom takes portOf
    rw [hports, hout, ← hcurrent, Option.any_eq_true]
    simp
  by_cases htakes : s.takes port dest.isNone npdu.encodedLen
  · have hnext := nextTarget_single hactive hsingle (hfits.mpr htakes)
    refine ⟨u.ended.sentTo u.out.current.port, ⟨rfl, ?_, ?_⟩, ⟨hports, ?_, hscratch⟩,
      fun _ => hpoll.trans ((poll_of_target hnext).trans ?_), absurd htakes⟩
    · show u.out.tasks = _
      rw [hout]
    · show ∀ flow ∈ u.flows, flow.waits = false
      rw [← hu]
      exact hready.flows
    · show u.table = _
      rw [← hu]
    · refine congrArg (fun send => (_, Action.send send)) ?_
      show Send.mk u.out.current.port (if u.out.current.broadcast then .broadcast
        else .unicast u.out.current.dest.octets) ((u.scratch.take u.out.current.len).drop
          u.out.current.start) u.out.current.priority u.out.current.kind u.out.current.cause
          u.out.current.rejectOrigin.asOption = _
      rw [hoctets, hout, ← hcurrent]
      cases dest with
      | none => rfl
      | some mac => rfl
  · have hnext : u.nextTarget = (u.ended.bump .egressTooLong, none) := by
      unfold Storage.nextTarget
      rw [if_neg (by rw [hactive]; decide), if_pos (by rw [hsingle]; rfl)]
      exact if_neg (fun h => htakes (hfits.mp h))
    have hload : Loaded u fun _ _ _ => True := by
      intro _
      refine ⟨npdu, ⟨henc, by rw [hout, ← hcurrent], by rw [hscratch]; exact hroom, ?_,
        by rw [hout, ← hcurrent]; rfl⟩, trivial, fun h => ?_⟩
      · rw [← hu, ← hwire]
        exact List.take_left
      · rw [hout, ← hcurrent] at h
        exact absurd rfl h
    have hready' : Ready (u.ended.bump .egressTooLong) (tasksBehind task rest next) := by
      refine ⟨rfl, ?_, ?_⟩
      · show u.out.tasks = _
        rw [hout]
      · show ∀ flow ∈ u.flows, flow.waits = false
        rw [← hu]
        exact hready.flows
    refine ⟨_, hready', ⟨hports, ?_, hscratch⟩, fun h => absurd h htakes,
      fun _ => hpoll.trans (poll_skip hload hnext hready')⟩
    show u.table = _
    rw [← hu]

end RustyBacnet.Router.Storage
