import NanoMatch.ReceiverDelivery
import NanoMatch.FairProgress

/-!
# Every call of the receiver returns

A call of `UringReceiver::poll` returns after a bounded number of steps of the receiver
thread, whatever the decoder and the kernel do in between, and also if they do nothing.
While the thread reclaims buffers, only those which the decoder holds can still come
back; while it drains the completion queue, nothing is submitted, so only the receives
which are in flight can still complete.  The wait for room in the `RawByteQueue` never
begins.
-/

namespace NanoMatch

namespace UringReceiver

/-- The receives which the kernel has, or has completed. -/
def inFlight (rx : UringReceiver) : ℕ :=
  rx.ring.completed.length + (rx.ring.running.length + rx.ring.submitted.length)

/-- The steps which the receiver thread needs at most until `poll` returns. -/
def pollWork (rx : UringReceiver) : ℕ :=
  match rx.stage with
  | .idle => 0
  | .reclaiming => rx.spans.length + rx.retQueue.length + kNumBufs + 2
  | .draining => rx.inFlight + 1
  | .pushing _ => 0

def Move.byReceiver : Move → Bool
  | .receiver => true
  | _ => false

variable {rx : UringReceiver}

theorem inFlight_le (hrx : Owned [] rx) :
    rx.inFlight + rx.ring.prepared.length + (rx.spans.length + rx.retQueue.length) = kNumBufs := by
  have hlength := hrx.length_eq
  unfold SubmissionRing.outstanding at hlength
  simp only [List.length_append, List.length_map, List.length_nil] at hlength
  unfold inFlight
  omega

theorem pollWork_le (hrx : Owned [] rx) : rx.pollWork ≤ 2 * kNumBufs + 2 := by
  have htotal := inFlight_le hrx
  unfold pollWork
  cases rx.stage with
  | idle => exact Nat.zero_le _
  | reclaiming =>
      simp only
      omega
  | draining =>
      simp only
      omega
  | pushing span => exact Nat.zero_le _

/-! ## The others -/

/-- The decoder and the kernel change neither the stage nor what is counted. -/
structure KeepsWork (rx rx' : UringReceiver) : Prop where
  stage : rx'.stage = rx.stage
  processed : rx'.processed = rx.processed
  ids : rx'.spans.length + rx'.retQueue.length = rx.spans.length + rx.retQueue.length
  inFlight : rx'.inFlight = rx.inFlight

/-- As many receives are in flight, since none was added and none prepared. -/
theorem KeepsWork.of_ring {ring : SubmissionRing ℕ ℤ}
    (hperm : ring.outstanding.Perm rx.ring.outstanding)
    (hprepared : ring.prepared = rx.ring.prepared) : KeepsWork rx { rx with ring := ring } := by
  refine ⟨rfl, rfl, rfl, ?_⟩
  have hlength := hperm.length_eq
  unfold SubmissionRing.outstanding at hlength
  simp only [List.length_append, List.length_map, hprepared] at hlength
  unfold UringReceiver.inFlight
  simp only
  omega

theorem KeepsWork.step (hrx : Owned [] rx) {move : Move} (hmove : move.byReceiver = false) :
    KeepsWork rx (rx.step move) := by
  cases move with
  | receiver => exact absurd hmove (by decide)
  | callDecoder maxBatch =>
      change KeepsWork rx (rx.callDecoder maxBatch)
      unfold UringReceiver.callDecoder
      split_ifs with hstage
      · refine ⟨rfl, rfl, ?_, rfl⟩
        simp [spans, hstage, DecoderStage.inHand]
      · exact ⟨rfl, rfl, rfl, rfl⟩
  | decoder =>
      -- an id never leaves the hands of the decoder but for the queue behind it
      have hring : rx.decoderStep.ring = rx.ring ∧ rx.decoderStep.stage = rx.stage ∧
          rx.decoderStep.processed = rx.processed := by
        unfold decoderStep returnBuf popSpan
        split
        · exact ⟨rfl, rfl, rfl⟩
        · exact ⟨rfl, rfl, rfl⟩
        · split <;> exact ⟨rfl, rfl, rfl⟩
        · split_ifs <;> exact ⟨rfl, rfl, rfl⟩
        · split_ifs <;> exact ⟨rfl, rfl, rfl⟩
      have hbefore := hrx.length_eq
      have hafter := hrx.decoderStep.length_eq
      rw [hring.1] at hafter
      refine ⟨hring.2.1, hring.2.2, ?_, ?_⟩
      · change rx.decoderStep.spans.length + rx.decoderStep.retQueue.length = _
        omega
      · change rx.decoderStep.inFlight = rx.inFlight
        unfold UringReceiver.inFlight
        rw [hring.1]
  | consume =>
      apply KeepsWork.of_ring
      · rw [SubmissionRing.outstanding_consume]
      · exact rx.ring.prepared_consume
  | write id bytes =>
      change KeepsWork rx (rx.writeBuf id bytes)
      unfold UringReceiver.writeBuf
      split_ifs <;> exact ⟨rfl, rfl, rfl, rfl⟩
  | complete position res =>
      exact KeepsWork.of_ring (rx.ring.outstanding_complete_perm position _)
        (rx.ring.prepared_complete position _)

theorem KeepsWork.pollWork_eq {rx' : UringReceiver} (hkeeps : KeepsWork rx rx') :
    rx'.pollWork = rx.pollWork := by
  unfold pollWork
  rw [hkeeps.stage, hkeeps.inFlight, hkeeps.ids]

/-! ## The receiver thread -/

/-- Arming prepares a receive, and the kernel does not have it yet. -/
structure ArmsOnly (rx rx' : UringReceiver) : Prop where
  stage : rx'.stage = rx.stage
  processed : rx'.processed = rx.processed
  spans : rx'.spans = rx.spans
  retQueue : rx'.retQueue = rx.retQueue
  inFlight : rx'.inFlight = rx.inFlight

theorem ArmsOnly.armBuf (rx : UringReceiver) (id : ℕ) : ArmsOnly rx (rx.armBuf id) := by
  unfold UringReceiver.armBuf
  split_ifs <;> exact ⟨rfl, rfl, rfl, rfl, rfl⟩

theorem ArmsOnly.reclaim (rx : UringReceiver) (id : ℕ) : ArmsOnly rx (rx.reclaim id) := by
  unfold UringReceiver.reclaim
  split_ifs
  · exact ArmsOnly.armBuf rx id
  · exact ⟨rfl, rfl, rfl, rfl, rfl⟩

theorem reclaimStep_nil (hqueue : rx.retQueue = []) :
    rx.reclaimStep =
      { (if rx.pendingSqes > 0 then rx.submit else rx) with
        processed := 0
        stage := .draining } := by
  unfold reclaimStep
  rw [hqueue]

theorem reclaimStep_cons {bufId : ℕ} {rest : List ℕ} (hqueue : rx.retQueue = bufId :: rest) :
    rx.reclaimStep = UringReceiver.reclaim { rx with retQueue := rest } bufId := by
  unfold reclaimStep
  rw [hqueue]

/-- The submission, with which the thread goes on to the completion queue. -/
theorem reclaimStep_submits (hrx : Owned [] rx) (hqueue : rx.retQueue = []) :
    rx.reclaimStep.stage = .draining ∧ rx.reclaimStep.processed = 0 ∧
      rx.reclaimStep.inFlight ≤ kNumBufs := by
  have htotal := inFlight_le hrx
  rw [reclaimStep_nil hqueue]
  refine ⟨rfl, rfl, ?_⟩
  unfold inFlight at htotal ⊢
  split_ifs
  · simp only [UringReceiver.submit, SubmissionRing.submit, List.length_append]
    omega
  · simp only
    omega

/-- One completion is taken, and the receive which it may lead to is only prepared. -/
theorem drainStep_takes (hrx : Owned [] rx) (hstage : rx.stage = .draining) {id : ℕ} {bytes : ℤ}
    {rest : List (ℕ × ℤ)} (hcompleted : rx.ring.completed = (id, bytes) :: rest) :
    rx.drainStep.stage = .draining ∧ rx.drainStep.processed = rx.processed + 1 ∧
      rx.drainStep.inFlight + 1 = rx.inFlight := by
  have hfinish := hrx.processCqe hcompleted
  have hseen := finish_seen hfinish
  have hfewer : rx.seen.inFlight + 1 = rx.inFlight := by
    unfold inFlight
    simp only [UringReceiver.seen, SubmissionRing.seen, hcompleted, List.tail_cons,
      List.length_cons]
    omega
  unfold drainStep
  rw [hcompleted]
  simp only
  rw [hseen] at hfinish ⊢
  unfold UringReceiver.processCqe at hfinish ⊢
  split_ifs at hfinish ⊢ with hdata heof
  · rw [pushSpan_of_owned _ hfinish]
    exact ⟨rfl, rfl, hfewer⟩
  · have harms := ArmsOnly.armBuf (rx.unarm id).seen id
    rw [armBuf_seen, harms.stage, harms.processed, harms.inFlight]
    exact ⟨hstage, rfl, hfewer⟩
  · have harms := ArmsOnly.armBuf
      { rx.unarm id with errorsSeen := rx.errorsSeen + 1 }.seen id
    rw [armBuf_seen, harms.stage, harms.processed, harms.inFlight]
    exact ⟨hstage, rfl, hfewer⟩

theorem drainStep_returns (hcompleted : rx.ring.completed = []) :
    rx.drainStep = { rx with stage := .idle } := by
  unfold drainStep
  rw [hcompleted]

theorem pollWork_receiverStep (hrx : Owned [] rx) (hstage : rx.stage ≠ .idle) :
    rx.receiverStep.pollWork < rx.pollWork := by
  unfold receiverStep
  cases hcase : rx.stage with
  | idle => exact absurd hcase hstage
  | pushing span => exact absurd hcase (hrx.stage span)
  | reclaiming =>
      simp only
      cases hqueue : rx.retQueue with
      | nil =>
          obtain ⟨hdraining, -, hle⟩ := reclaimStep_submits hrx hqueue
          unfold pollWork
          rw [hdraining, hcase]
          simp only
          omega
      | cons bufId rest =>
          have harms := ArmsOnly.reclaim { rx with retQueue := rest } bufId
          unfold pollWork
          rw [reclaimStep_cons hqueue, harms.stage, harms.spans, harms.retQueue, harms.inFlight,
            hcase, hqueue, List.length_cons]
          simp only [spans]
          omega
  | draining =>
      simp only
      cases hcompleted : rx.ring.completed with
      | nil =>
          rw [drainStep_returns hcompleted]
          unfold pollWork
          rw [hcase]
          exact Nat.succ_pos _
      | cons first rest =>
          obtain ⟨hdraining, -, hfewer⟩ := drainStep_takes hrx hcase hcompleted
          unfold pollWork
          rw [hdraining, hcase]
          simp only
          omega

/-! ## The completions of a call -/

/-- A call processes what is in flight when it begins to drain, and nothing else. -/
structure Counts (rx : UringReceiver) : Prop where
  processed : rx.processed ≤ kNumBufs
  draining : rx.stage = .draining → rx.processed + rx.inFlight ≤ kNumBufs

theorem Counts.receiverStep (hcounts : Counts rx) (hrx : Owned [] rx) :
    Counts rx.receiverStep := by
  unfold UringReceiver.receiverStep
  cases hcase : rx.stage with
  | idle => exact ⟨hcounts.processed, nofun⟩
  | pushing span => exact absurd hcase (hrx.stage span)
  | reclaiming =>
      simp only
      cases hqueue : rx.retQueue with
      | nil =>
          obtain ⟨-, hzero, hle⟩ := reclaimStep_submits hrx hqueue
          refine ⟨by omega, fun _ => by omega⟩
      | cons bufId rest =>
          have harms := ArmsOnly.reclaim { rx with retQueue := rest } bufId
          rw [reclaimStep_cons hqueue]
          refine ⟨by rw [harms.processed]; exact hcounts.processed, ?_⟩
          rw [harms.stage]
          intro hdraining
          exact absurd (hcase.symm.trans hdraining) (by decide)
  | draining =>
      have hsum := hcounts.draining hcase
      simp only
      cases hcompleted : rx.ring.completed with
      | nil =>
          rw [drainStep_returns hcompleted]
          exact ⟨hcounts.processed, nofun⟩
      | cons first rest =>
          obtain ⟨-, hone, hfewer⟩ := drainStep_takes hrx hcase hcompleted
          exact ⟨by omega, fun _ => by omega⟩

theorem Counts.step (hcounts : Counts rx) (hrx : Owned [] rx) (move : Move) :
    Counts (rx.step move) := by
  cases hmove : move.byReceiver with
  | true =>
      cases move with
      | receiver => exact hcounts.receiverStep hrx
      | _ => exact absurd hmove (by simp [Move.byReceiver])
  | false =>
      have hkeeps := KeepsWork.step hrx hmove
      refine ⟨by rw [hkeeps.processed]; exact hcounts.processed, ?_⟩
      rw [hkeeps.stage, hkeeps.processed, hkeeps.inFlight]
      exact hcounts.draining

/-! ## Runs -/

theorem counts_new : Counts new := by
  have hstage : new.stage = .idle := by decide +kernel
  have hprocessed : new.processed = 0 := by decide +kernel
  refine ⟨by omega, ?_⟩
  rw [hstage]
  exact nofun

theorem counts_run (moves : List Move) : Counts (new.run moves) := by
  induction moves using List.reverseRecOn with
  | nil => exact counts_new
  | append_singleton moves move ih =>
      unfold run
      rw [List.foldl_append]
      exact ih.step (owned_run moves) move

/-- A call of `poll` returns after at most 130 steps of its thread, with at most 64
completions processed. -/
theorem poll_returns (moves more : List Move)
    (henough : 2 * kNumBufs + 2 ≤ more.countP Move.byReceiver) :
    ∃ before after, more = before ++ after ∧ (new.run (moves ++ before)).stage = .idle ∧
      (new.run (moves ++ before)).processed ≤ kNumBufs ∧
      before.countP Move.byReceiver ≤ 2 * kNumBufs + 2 := by
  have hown : ∀ rx : UringReceiver, ∀ move, Owned [] rx → move.byReceiver = true →
      ¬ rx.stage = .idle → (rx.step move).pollWork < rx.pollWork := by
    intro rx move hrx hmove hstage
    cases move with
    | receiver => exact pollWork_receiverStep hrx hstage
    | _ => exact absurd hmove (by simp [Move.byReceiver])
  have hdone : ∀ rx : UringReceiver, Owned [] rx → rx.pollWork = 0 → rx.stage = .idle := by
    intro rx hrx hwork
    unfold pollWork at hwork
    cases hcase : rx.stage with
    | idle => rfl
    | pushing span => exact absurd hcase (hrx.stage span)
    | reclaiming => simp [hcase] at hwork
    | draining => simp [hcase] at hwork
  have hbound := pollWork_le (owned_run moves)
  obtain ⟨before, after, hmore, hidle, hcount⟩ := FairRun.reaches_within Move.byReceiver pollWork
    (fun rx move hrx => hrx.step move)
    (fun rx move hrx hmove => (KeepsWork.step hrx hmove).pollWork_eq.le) hown hdone
    (owned_run moves) more (by omega)
  have hrun : new.run (moves ++ before) = before.foldl step (new.run moves) := List.foldl_append
  refine ⟨before, after, hmore, ?_, (counts_run _).processed, by omega⟩
  rw [hrun]
  exact hidle

theorem poll_returns_alone :
    2 * kNumBufs + 2 ≤ (List.replicate 130 Move.receiver).countP Move.byReceiver ∧
      (new.run [.receiver]).stage = .reclaiming ∧
      ∃ before after, List.replicate 130 Move.receiver = before ++ after ∧
        (new.run ([.receiver] ++ before)).stage = .idle ∧
        (new.run ([.receiver] ++ before)).processed ≤ kNumBufs ∧
        before.countP Move.byReceiver ≤ 2 * kNumBufs + 2 := by
  have henough : 2 * kNumBufs + 2 ≤ (List.replicate 130 Move.receiver).countP Move.byReceiver := by
    decide +kernel
  exact ⟨henough, by decide +kernel, poll_returns [.receiver] _ henough⟩

end UringReceiver

end NanoMatch
