import RustyBacnet.Mstp.TokenRefine

/-!
# The rounds of a token use

`done_with_token` is a loop without a bound in the source. `Ends` says that it ends from a core, and
with what: each round but the last counts one token use more (`doneWithTokenRound_again`), so the
maintenance poll comes after `nPoll` rounds, and the bounded loop of the model is the loop itself
(`ends_doneWithTokenWith`).
-/

namespace RustyBacnet.Mstp.MasterCore

variable {Q : Type} [QueueStorage Q] {npdu : ℕ}
  (idle : MasterCore Q npdu → Instant → MasterCore Q npdu)

/-- What one round comes to: the loop is over, or goes round again. -/
inductive Round (Q : Type) (npdu : ℕ) where
  | finished (core : MasterCore Q npdu)
  | again (core : MasterCore Q npdu)

/-- The body of `done_with_token`'s loop. -/
def doneWithTokenRound (now : Instant) (core : MasterCore Q npdu) : Round Q npdu :=
  let nextTs := nextAddr core.config.station core.config.maxMaster
  let nextPs := nextAddr core.pollStation core.config.maxMaster
  if !core.soleMaster ∧ core.nextStation = core.config.station then
    .finished (queuePollWith idle { core with pollStation := nextTs } .holder now)
  else if core.tokenCount < nPoll then
    let core := { core with tokenCount := increment8 core.tokenCount }
    if core.soleMaster then
      match dequeueAndSendWith idle ({ core with frameCount := 0 }.setState .useToken) now with
      | (true, core) => .finished core
      | (false, core) => .again core
    else
      .finished (queueTokenWith idle { core with retryTokenCount := 0 } core.nextStation .holder now)
  else if nextPs = core.nextStation ∨ nextPs = core.config.station then
    let core := { core with pollStation := core.config.station, tokenCount := 1 }
    if core.soleMaster then
      .finished (queuePollWith idle
        { core with nextStation := core.config.station, pollStation := nextTs } .holder now)
    else
      .finished (queueTokenWith idle { core with retryTokenCount := 0 } core.nextStation .holder now)
  else .finished (queuePollWith idle { core with pollStation := nextPs } .holder now)

/-- The loop from a core is over after some rounds, with this core. -/
inductive Ends (now : Instant) : MasterCore Q npdu → MasterCore Q npdu → Prop
  | finished {core result : MasterCore Q npdu} (hround : doneWithTokenRound idle now core = .finished result) :
    Ends now core result
  | again {core next result : MasterCore Q npdu}
    (hround : doneWithTokenRound idle now core = .again next) (hrest : Ends now next result) :
    Ends now core result

variable {idle} {now : Instant} {core next : MasterCore Q npdu}

theorem doneWithTokenLoopWith_succ (rounds : ℕ) :
    doneWithTokenLoopWith idle now (rounds + 1) core = match doneWithTokenRound idle now core with
      | .finished result => result
      | .again next => doneWithTokenLoopWith idle now rounds next := by
  unfold doneWithTokenRound
  rw [doneWithTokenLoopWith]
  by_cases hnone : !core.soleMaster ∧ core.nextStation = core.config.station
  · rw [if_pos hnone, if_pos hnone]
  rw [if_neg hnone, if_neg hnone]
  by_cases hcount : core.tokenCount < nPoll
  · rw [if_pos hcount, if_pos hcount]
    by_cases hsole : core.soleMaster = true
    · rw [if_pos hsole, if_pos hsole]
      generalize dequeueAndSendWith idle _ now = sent
      rcases sent with ⟨_ | _, after⟩
      · rfl
      · rfl
    · rw [if_neg hsole, if_neg hsole]
  rw [if_neg hcount, if_neg hcount]
  by_cases hround : nextAddr core.pollStation core.config.maxMaster = core.nextStation ∨
      nextAddr core.pollStation core.config.maxMaster = core.config.station
  · rw [if_pos hround, if_pos hround]
    by_cases hsole : core.soleMaster = true
    · rw [if_pos hsole, if_pos hsole]
    · rw [if_neg hsole, if_neg hsole]
  · rw [if_neg hround, if_neg hround]

/-- Without an NPDU to send, the token uses counted stay. -/
theorem dequeueLoopWith_tokenCount (attempts : ℕ)
    (hnone : (dequeueLoopWith idle now attempts core).1 = false) :
    (dequeueLoopWith idle now attempts core).2.tokenCount = core.tokenCount := by
  induction attempts generalizing core with
  | zero => rfl
  | succ attempts ih =>
    unfold dequeueLoopWith at hnone ⊢
    cases hkind : core.nextQueueKind now with
    | none => rfl
    | some kind =>
      rw [hkind] at hnone
      dsimp only at hnone ⊢
      generalize QueueStorage.dequeueKind core.queues kind now npdu = taken at hnone ⊢
      rcases taken with ⟨_ | _ | item, queues⟩
      · exact ih hnone
      · rfl
      · dsimp only at hnone ⊢
        by_cases hlong : npdu < item.npdu.length ∨ core.config.maxNpdu < item.npdu.length
        · rw [if_pos hlong] at hnone ⊢
          have hkept : (recordOversizeNpdu { core with queues := queues } kind).tokenCount
              = core.tokenCount := rfl
          rw [← hkept]
          exact ih hnone
        · rw [if_neg hlong] at hnone ⊢
          have hkept : (counted { core with queues := queues } kind).tokenCount
              = core.tokenCount := rfl
          generalize counted { core with queues := queues } kind = taken at hnone hkept ⊢
          generalize dataFrameType _ _ = kindOfFrame at hnone ⊢
          have hencode : ∀ frame, (taken.encode frame).2.tokenCount = taken.tokenCount := by
            intro frame
            unfold encode
            split <;> rfl
          have := hencode
            (Frame.new kindOfFrame.1 item.destination taken.config.station item.npdu)
          generalize taken.encode
            (Frame.new kindOfFrame.1 item.destination taken.config.station item.npdu) = result
            at this hnone ⊢
          rcases result with ⟨_ | _, encoded⟩
          · rw [← hkept, ← this]
            exact ih hnone
          · exact absurd hnone (by simp)

/-- A round that is not the last was one of fewer than `nPoll` uses, and counts one more. -/
theorem doneWithTokenRound_again (h : doneWithTokenRound idle now core = .again next) :
    core.tokenCount < nPoll ∧ next.tokenCount = core.tokenCount + 1 := by
  unfold doneWithTokenRound at h
  dsimp only at h
  split_ifs at h with hnone hcount hsole
  · refine ⟨hcount, ?_⟩
    set turned : MasterCore Q npdu :=
      { core with tokenCount := increment8 core.tokenCount, frameCount := 0 }
    have hturned : (turned.setState .useToken).tokenCount = core.tokenCount + 1 := by
      have hkept : (turned.setState .useToken).tokenCount = increment8 core.tokenCount := by
        unfold setState
        split_ifs <;> rfl
      rw [hkept]
      unfold increment8
      have : nPoll = 50 := rfl
      omega
    have hsent := @dequeueLoopWith_tokenCount Q _ npdu idle now
      { turned.setState .useToken with
        queues := (QueueStorage.expire (turned.setState .useToken).queues now).2 }
      (QueueStorage.totalDepth
        (QueueStorage.expire (turned.setState .useToken).queues now).2 + 1)
    change (dequeueAndSendWith idle (turned.setState .useToken) now).1 = false →
      (dequeueAndSendWith idle (turned.setState .useToken) now).2.tokenCount
        = (turned.setState .useToken).tokenCount at hsent
    rw [hturned] at hsent
    generalize dequeueAndSendWith idle (turned.setState .useToken) now = sent at h hsent
    rcases sent with ⟨_ | _, after⟩
    · obtain rfl := Round.again.inj h
      exact hsent rfl
    · cases h

theorem ends_doneWithTokenLoopWith (rounds : ℕ) (hrounds : nPoll - core.tokenCount < rounds) :
    Ends idle now core (doneWithTokenLoopWith idle now rounds core) := by
  induction rounds generalizing core with
  | zero => exact absurd hrounds (Nat.not_lt_zero _)
  | succ rounds ih =>
    rw [doneWithTokenLoopWith_succ]
    cases hround : doneWithTokenRound idle now core with
    | finished result => exact .finished hround
    | again next =>
      obtain ⟨hlt, hnext⟩ := doneWithTokenRound_again hround
      exact .again hround (ih (by omega))

theorem ends_doneWithTokenWith (core : MasterCore Q npdu) (now : Instant) :
    Ends idle now core (doneWithTokenWith idle core now) :=
  ends_doneWithTokenLoopWith _ (by omega)

end RustyBacnet.Mstp.MasterCore
