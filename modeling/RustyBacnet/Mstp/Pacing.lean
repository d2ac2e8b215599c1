import RustyBacnet.Mstp.CoreLaws
import RustyBacnet.Mstp.Preserve
import RustyBacnet.Mstp.Starvation

/-!
# Broadcasts do not starve unicasts

`next_queue_kind` prefers broadcasts while fewer than `broadcast_unicast_ratio` of them went since the
last unicast. `Logged` is a queue backend that writes down what a core asks of it: each selection,
whether both classes held an unexpired item then, and how long the item was that it gave. A core over
it counts no fewer broadcasts than the log shows since the last unicast (`Counts`), so it selects no
more than the ratio while unicasts wait (`paced_window`).
-/

namespace RustyBacnet.Mstp

/-- One selection of a class. -/
structure Selection where
  kind : QueueKind
  /-- Both classes held an unexpired item. -/
  both : Bool
  /-- The length of the item handed over. -/
  length : Option ℕ
  deriving DecidableEq

/-- Queues with the selections made from them, newest first. -/
structure Logged (Q : Type) where
  queues : Q
  log : List Selection

namespace Logged

variable {Q : Type} [QueueStorage Q]

def handedLength : Except QueueRefusal (Option DequeuedNpdu) → Option ℕ
  | .ok (some item) => some item.npdu.length
  | _ => none

/-- What a selection of `kind` at `now` writes down. -/
def selection (q : Logged Q) (kind : QueueKind) (now : Instant) (maxLen : ℕ) : Selection where
  kind := kind
  both := (QueueStorage.peekKind q.queues .unicast now).isSome &&
    (QueueStorage.peekKind q.queues .broadcast now).isSome
  length := handedLength (QueueStorage.dequeueKind q.queues kind now maxLen).1

instance : QueueStorage (Logged Q) where
  setStarvationLimit q limit := { q with queues := QueueStorage.setStarvationLimit q.queues limit }
  maxNpdu q := QueueStorage.maxNpdu q.queues
  enqueueNpdu q destination npdu priority now expiresAt :=
    let (result, queues) :=
      QueueStorage.enqueueNpdu q.queues destination npdu priority now expiresAt
    (result, { q with queues := queues })
  expire q now :=
    let (removed, queues) := QueueStorage.expire q.queues now
    (removed, { q with queues := queues })
  peek q now := QueueStorage.peek q.queues now
  peekKind q kind now := QueueStorage.peekKind q.queues kind now
  dequeueKind q kind now maxLen :=
    let (result, queues) := QueueStorage.dequeueKind q.queues kind now maxLen
    (result, ⟨queues, q.selection kind now maxLen :: q.log⟩)
  depth q kind := QueueStorage.depth q.queues kind
  counters q kind := QueueStorage.counters q.queues kind
  takeCounters q kind :=
    let (counters, queues) := QueueStorage.takeCounters q.queues kind
    (counters, { q with queues := queues })

end Logged

/-- An item of `kind` was handed over that fits. -/
def Selection.takes (room : ℕ) (kind : QueueKind) (s : Selection) : Bool :=
  decide (s.kind = kind) && s.length.any fun length => decide (length ≤ room)

def broadcastsSince (room : ℕ) : List Selection → ℕ
  | [] => 0
  | s :: log =>
    if s.takes room .unicast then 0
    else broadcastsSince room log + if s.takes room .broadcast then 1 else 0

/-- No broadcast was taken past the ratio while both classes held an item. -/
def Paced (room ratio : ℕ) (log : List Selection) : Prop :=
  ∀ newer s older, log = newer ++ s :: older → s.both = true → s.takes room .broadcast = true →
    broadcastsSince room (s :: older) ≤ ratio

theorem Paced.cons {room ratio : ℕ} {log : List Selection} (h : Paced room ratio log)
    {s : Selection} (hs : s.both = true → s.takes room .broadcast = true →
      broadcastsSince room (s :: log) ≤ ratio) : Paced room ratio (s :: log) := by
  rintro (_ | ⟨head, newer⟩) t older heq hboth htakes
  · obtain ⟨rfl, rfl⟩ := List.cons.inj heq
    exact hs hboth htakes
  · exact h newer t older (List.cons.inj heq).2 hboth htakes

variable {window : List Selection} {room : ℕ}

theorem count_le_broadcastsSince (hnone : ∀ s ∈ window, s.takes room .unicast = false)
    (older : List Selection) :
    window.countP (·.takes room .broadcast) ≤ broadcastsSince room (window ++ older) := by
  induction window with
  | nil => exact Nat.zero_le _
  | cons s window ih =>
    have hrest := ih fun t ht => hnone t (List.mem_cons_of_mem _ ht)
    rw [List.cons_append, List.countP_cons]
    unfold broadcastsSince
    rw [hnone s List.mem_cons_self, if_neg Bool.false_ne_true]
    omega

/-- So a window in which both classes held items throughout, and no unicast was taken, took no more
broadcasts than the ratio. -/
theorem paced_window {ratio : ℕ} {newer older : List Selection}
    (h : Paced room ratio (newer ++ window ++ older)) (hboth : ∀ s ∈ window, s.both = true)
    (hnone : ∀ s ∈ window, s.takes room .unicast = false) :
    window.countP (·.takes room .broadcast) ≤ ratio := by
  induction window generalizing newer with
  | nil => exact Nat.zero_le _
  | cons s window ih =>
    by_cases htakes : s.takes room .broadcast = true
    · have hcount := count_le_broadcastsSince hnone older
      refine hcount.trans (h newer s (window ++ older) ?_ (hboth s List.mem_cons_self) htakes)
      rw [List.append_assoc, List.cons_append]
    · rw [List.countP_cons, if_neg htakes]
      refine @ih (newer ++ [s]) ?_ (fun t ht => hboth t (List.mem_cons_of_mem _ ht))
        (fun t ht => hnone t (List.mem_cons_of_mem _ ht))
      rw [List.append_assoc newer]
      exact h

namespace MasterCore

variable {Q : Type} [QueueStorage Q] {npdu : ℕ}

def sendRoom (core : MasterCore Q npdu) : ℕ := min npdu core.config.maxNpdu

/-- A core counts the broadcasts its log shows, and keeps to its ratio. -/
structure Counts (core : MasterCore (Logged Q) npdu) : Prop where
  counted : min (broadcastsSince core.sendRoom core.queues.log) 255 ≤ core.consecutiveBroadcast
  paced : Paced core.sendRoom core.config.broadcastUnicastRatio.toNat core.queues.log

variable {core : MasterCore (Logged Q) npdu}

omit [QueueStorage Q] in
theorem Counts.of_log {core' : MasterCore (Logged Q) npdu} (h : core.Counts)
    (hconfig : core'.config = core.config) (hlog : core'.queues.log = core.queues.log)
    (hcount : core'.consecutiveBroadcast = core.consecutiveBroadcast) : core'.Counts := by
  have hroom : core'.sendRoom = core.sendRoom := by
    unfold sendRoom
    rw [hconfig]
  refine ⟨?_, ?_⟩
  · rw [hroom, hlog, hcount]
    exact h.counted
  · rw [hroom, hlog, hconfig]
    exact h.paced

variable {now : Instant}

theorem takes_iff {kind : QueueKind} {result : Except QueueRefusal (Option DequeuedNpdu)}
    {queues : Logged Q}
    (hcall : QueueStorage.dequeueKind core.queues kind now npdu = (result, queues))
    (kind' : QueueKind) :
    queues.log = core.queues.selection kind now npdu :: core.queues.log ∧
      ((core.queues.selection kind now npdu).takes core.sendRoom kind' = true ↔
        kind = kind' ∧ ∃ item, result = .ok (some item) ∧
          ¬ (npdu < item.npdu.length ∨ core.config.maxNpdu < item.npdu.length)) := by
  obtain ⟨rfl, rfl⟩ := Prod.ext_iff.mp hcall
  refine ⟨rfl, ?_⟩
  unfold Selection.takes
  rw [Bool.and_eq_true, decide_eq_true_eq]
  refine and_congr Iff.rfl ?_
  show (Logged.handedLength (QueueStorage.dequeueKind core.queues.queues kind now npdu).1).any _ = true
    ↔ ∃ item, (QueueStorage.dequeueKind core.queues.queues kind now npdu).1 = .ok (some item) ∧ _
  rcases (QueueStorage.dequeueKind core.queues.queues kind now npdu).1 with refusal | _ | item
  · simp [Logged.handedLength]
  · simp [Logged.handedLength]
  · simp [Logged.handedLength, sendRoom]

/-- While both classes hold an item, a broadcast is selected only below the ratio. -/
theorem lt_ratio_of_broadcast (hkind : core.nextQueueKind now = some .broadcast)
    (hboth : (core.queues.selection .broadcast now npdu).both = true) :
    core.consecutiveBroadcast < core.config.broadcastUnicastRatio.toNat := by
  unfold Logged.selection at hboth
  rw [Bool.and_eq_true] at hboth
  have hunicast : (QueueStorage.peekKind core.queues .unicast now).isSome = true := hboth.1
  have hbroadcast : (QueueStorage.peekKind core.queues .broadcast now).isSome = true := hboth.2
  unfold nextQueueKind at hkind
  rw [hunicast, hbroadcast] at hkind
  split_ifs at hkind with hlt
  · exact hlt
  · cases hkind

theorem counts_preserved : Preserved (Counts : MasterCore (Logged Q) npdu → Prop) where
  congr h hshown :=
    h.of_log (congrArg Shown.config hshown) (congrArg (fun s => s.queues.log) hshown)
      (congrArg Shown.consecutiveBroadcast hshown)
  record h _ := h.of_log rfl rfl rfl
  forget h := h.of_log rfl rfl rfl
  make h _ := h.of_log rfl rfl rfl
  retime _ h _ := h.of_log rfl rfl rfl
  confirm _ _ h _ := h.of_log rfl rfl rfl
  expire _ h := h.of_log rfl rfl rfl
  enqueue _ _ _ _ _ h := h.of_log rfl rfl rfl
  takeCounters _ h := h.of_log rfl rfl rfl
  taken := by
    intro core now kind result queues h _ hcall hlong
    have hnone : ∀ kind', (core.queues.selection kind now npdu).takes core.sendRoom kind' = false := by
      intro kind'
      rw [Bool.eq_false_iff]
      intro htakes
      obtain ⟨-, item, hitem, hfits⟩ := (takes_iff hcall kind').2.mp htakes
      exact hfits (hlong item hitem)
    refine ⟨?_, ?_⟩
    · show min (broadcastsSince core.sendRoom queues.log) 255 ≤ core.consecutiveBroadcast
      rw [(takes_iff hcall kind).1]
      unfold broadcastsSince
      rw [hnone, hnone, if_neg Bool.false_ne_true, if_neg Bool.false_ne_true]
      exact h.counted
    · show Paced core.sendRoom _ queues.log
      rw [(takes_iff hcall kind).1]
      refine h.paced.cons fun _ htakes => ?_
      rw [hnone] at htakes
      cases htakes
  served := by
    intro core now kind item queues h hkind hcall hfits
    have hlog := (takes_iff hcall kind).1
    have htakes : ∀ kind', (core.queues.selection kind now npdu).takes core.sendRoom kind'
        = decide (kind = kind') := by
      intro kind'
      rw [Bool.eq_iff_iff, decide_eq_true_eq]
      exact (takes_iff hcall kind').2.trans ⟨And.left, fun hsame => ⟨hsame, item, rfl, hfits⟩⟩
    have hcount := h.counted
    cases kind with
    | unicast =>
      refine ⟨?_, ?_⟩
      · show min (broadcastsSince core.sendRoom queues.log) 255 ≤ 0
        rw [hlog]
        unfold broadcastsSince
        rw [htakes, if_pos (by decide)]
        exact Nat.le_refl _
      · show Paced core.sendRoom _ queues.log
        rw [hlog]
        refine h.paced.cons fun _ hbroadcast => ?_
        rw [htakes] at hbroadcast
        cases hbroadcast
    | broadcast =>
      have hsince : broadcastsSince core.sendRoom queues.log
          = broadcastsSince core.sendRoom core.queues.log + 1 := by
        rw [hlog, broadcastsSince, htakes, htakes, if_neg (by decide), if_pos (by decide)]
      refine ⟨?_, ?_⟩
      · show min (broadcastsSince core.sendRoom queues.log) 255
          ≤ increment8 core.consecutiveBroadcast
        rw [hsince]
        unfold increment8
        omega
      · show Paced core.sendRoom _ queues.log
        have hpaced : Paced core.sendRoom core.config.broadcastUnicastRatio.toNat
            (core.queues.selection .broadcast now npdu :: core.queues.log) := by
          refine h.paced.cons fun hboth _ => ?_
          have hlt := lt_ratio_of_broadcast hkind hboth
          have hratio := core.config.broadcastUnicastRatio.toNat_lt
          rw [← hlog, hsince]
          omega
        rw [hlog]
        exact hpaced

theorem counts_run {config : MstpCoreConfig} {queues : Q} {rxStorage : List UInt8}
    {buffers : ActionBuffers npdu} {first : MasterCore (Logged Q) npdu}
    (hparts : fromParts config ⟨queues, []⟩ rxStorage buffers now = .ok first) (calls : List Call) :
    (first.run calls).Counts ∧ (first.run calls).config = config := by
  obtain ⟨hbuilt, rfl⟩ := fromParts_ok hparts
  refine ⟨counts_preserved.run ⟨Nat.zero_le _, ?_⟩ calls, ((start_sound hbuilt).run_keeps calls).2⟩
  intro newer s older heq
  cases newer <;> cases heq

end MasterCore

/-- An item is handed over before its lane was served as often as the limit and the capacity add up
to, with either backend; and a core in its run takes no more broadcasts than the ratio in a stretch of
selections at which both classes held an item and no unicast was taken. -/
theorem queues_serve_all (U B N : ℕ) :
    ServesInTime (fun kind q => Fresh q kind) (FixedQueues.new : FixedQueues U B N)
        (fun | .unicast => U | .broadcast => B) ∧
      ServesInTime (fun kind q => Fresh q kind) (AllocQueues.new U B : AllocQueues N)
        (fun | .unicast => U | .broadcast => B) ∧
      ∀ (Q : Type) [QueueStorage Q] (npdu : ℕ) (config : MstpCoreConfig) (queues : Q)
        (rxStorage : List UInt8) (buffers : ActionBuffers npdu) (now : Instant)
        (first : MasterCore (Logged Q) npdu) (calls : List Call),
        MasterCore.fromParts config ⟨queues, []⟩ rxStorage buffers now = .ok first →
        ∀ newer window older, (first.run calls).queues.log = newer ++ window ++ older →
          (∀ s ∈ window, s.both = true) →
          (∀ s ∈ window, s.takes (min npdu config.maxNpdu) .unicast = false) →
          window.countP (·.takes (min npdu config.maxNpdu) .broadcast)
            ≤ config.broadcastUnicastRatio.toNat := by
  refine ⟨FixedQueues.servesInTime U B N, AllocQueues.servesInTime U B N, ?_⟩
  intro Q _ npdu config queues rxStorage buffers now first calls hparts newer window older hlog
    hboth hnone
  obtain ⟨hcounts, hconfig⟩ := MasterCore.counts_run hparts calls
  have hpaced := hcounts.paced
  unfold MasterCore.sendRoom at hpaced
  rw [hlog, hconfig] at hpaced
  exact paced_window hpaced hboth hnone

/-- An item with five urgent ones, two of which go before it. -/
def passedTwice : List QueueOp :=
  let urgent : QueueOp := .enqueueNpdu 5 [1] .urgent 0 none
  [urgent, urgent, serve, urgent, serve, urgent, serve, serve, serve]

/-- Two broadcasts before a unicast. -/
def pacedConfig : MstpCoreConfig :=
  { MstpCoreConfig.standard with maxInfoFrames := 3, broadcastUnicastRatio := 2 }

def pacedCore : MasterCore (Logged (FixedQueues 2 3 501)) 501 :=
  .start pacedConfig ⟨.new, []⟩ (List.replicate 511 0) MasterCore.benchBuffers 0

/-- Three broadcasts and two unicasts wait when a Token comes, and three frames go out. -/
def pacedCalls : List Call :=
  [255, 255, 255, 7, 7].map (fun destination => .enqueueNpdu destination [1, 0] .normal 0)
    ++ .onValidatedFrame (Frame.new .token 0 3 []) 1000000
    :: (List.range 3).flatMap fun i =>
      [.onDeadline (10000000 * (i + 1)), .pollAction, .pollAction,
        .onTransmitStarted ⟨i⟩ (10000000 * (i + 1)),
        .onTransmitComplete ⟨i⟩ (10000000 * (i + 1) + 1000000), .pollAction]

theorem queues_serve_all_passed : (let q : FixedQueues 3 1 1 :=
        ((QueueOp.enqueueNpdu 5 [0] .normal 0 none).apply
          (afterRun FixedQueues.new [.setStarvationLimit 2])).2
      let handed := handedOver q passedTwice
      handed.map DequeuedNpdu.sequence = [1, 2, 0, 3, 4] ∧
        ∃ others npdu rest, handed = others ++ npdu :: rest ∧ npdu.kind = .unicast ∧
          npdu.sequence = 0 ∧ servedOf .unicast others ≤ 4) ∧
    let log := (pacedCore.run pacedCalls).queues.log
    log.map (fun s => (s.kind, s.both))
        = [(.unicast, true), (.broadcast, true), (.broadcast, true)] ∧
      (log.drop 1).countP (·.takes 501 .broadcast) ≤ 2 := by
  refine ⟨⟨by decide +kernel, ?_⟩, by decide +kernel, ?_⟩
  · exact (queues_serve_all 3 1 1).1 [.setStarvationLimit 2] 5 [0] .normal 0 none _ rfl
      passedTwice (by decide +kernel) (by decide +kernel)
  · exact (queues_serve_all 1 1 1).2.2 _ 501 pacedConfig .new _ MasterCore.benchBuffers 0 pacedCore
      pacedCalls (MasterCore.fromParts_eq (by decide +kernel) (by decide +kernel) rfl 0) _ _ []
      (by rw [List.append_nil, List.take_append_drop 1]) (by decide +kernel) (by decide +kernel)

end RustyBacnet.Mstp
