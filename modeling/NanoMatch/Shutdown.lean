import NanoMatch.PipelineProgress

/-!
# Shutdown

The loops of the four worker threads around their polls, and the flag `g_running`
which ends them.  A thread leaves its loop at the test between two polls, so the poll
it is in has to come to its end first.  The matching thread waits inside its poll while
the `OutboundQueue` is full, and once the sender thread has left nobody takes a report
from it any more.  So it is joined if and only if the reports of its last batch still
fit.
-/

namespace NanoMatch

open FairRun

/-- The worker threads of the daemon. -/
inductive Worker where
  | receiver
  | sender
  | decoder
  | matching
  deriving DecidableEq

/-- The thread which makes a move. -/
def Pipeline.Move.worker : Pipeline.Move → Worker
  | .receive _ => .receiver
  | .decoderPoll _ => .decoder
  | .decoder _ => .decoder
  | .reclaim _ _ => .receiver
  | .enginePoll _ _ => .matching
  | .engine _ => .matching
  | .consume _ _ => .sender

structure Daemon where
  pipeline : Pipeline
  running : Bool
  left : Worker → Bool

namespace Daemon

def new (capacities : Pipeline.Capacities) (engine : Engine) (spans : List FilledSpan) :
    Daemon where
  pipeline := Pipeline.new capacities engine spans
  running := true
  left := fun _ => false

inductive Move where
  /-- `signal_handler` -/
  | signal
  /-- the test of the loop finds `g_running` false -/
  | leave (worker : Worker)
  | work (move : Pipeline.Move)

/-- The thread is between two polls.  The polls of the receiver and of the sender are not
divided into moves here. -/
def betweenPolls (daemon : Daemon) : Worker → Bool
  | .receiver => true
  | .sender => true
  | .decoder => decide (daemon.pipeline.decodePoint = .idle)
  | .matching => daemon.pipeline.polled.isNone

def step (daemon : Daemon) : Move → Daemon
  | .signal => { daemon with running := false }
  | .leave worker =>
      if !daemon.running && daemon.betweenPolls worker then
        { daemon with left := Function.update daemon.left worker true }
      else daemon
  | .work move =>
      if daemon.left move.worker then daemon
      else { daemon with pipeline := daemon.pipeline.step move }

def run (daemon : Daemon) (moves : List Move) : Daemon := moves.foldl step daemon

end Daemon

/-! ## Reports on their way to the queue -/

theorem Snapshot.dispatch_appends (s : Snapshot) (msg : InboundOrderMsg) :
    ∃ s' : Snapshot, s'.engine = s.engine.dispatch msg ∧
      s.engine.outbound.length ≤ s'.engine.outbound.length := by
  rcases s.submit_step msg with ⟨s₁, hengine, hstep⟩
  rcases s₁.exists_posted
    { s₁.engine with ordersProcessed := (s.engine.dispatch msg).ordersProcessed } [] 0
    rfl rfl rfl (by simp) rfl rfl with ⟨s', hengine', _⟩
  have hdispatch : s'.engine = s.engine.dispatch msg := by
    rw [hengine', hengine]
    rfl
  refine ⟨s', hdispatch, ?_⟩
  have hlength := hstep.outbound_prefix.length_le
  rw [hengine] at hlength
  rw [hdispatch]
  exact hlength

theorem Snapshot.dispatches_append (s : Snapshot) (msgs : List InboundOrderMsg) :
    s.engine.outbound.length ≤ (msgs.foldl Engine.dispatch s.engine).outbound.length := by
  induction msgs generalizing s with
  | nil => exact le_rfl
  | cons msg msgs ih =>
      rcases s.dispatch_appends msg with ⟨s', hengine, hlength⟩
      have hrest := ih s'
      rw [List.foldl_cons, ← hengine]
      exact hlength.trans hrest

namespace Pipeline

/-- The length of the `OutboundQueue` at the end of the poll, if no report is taken from it. -/
def backlog (pipeline : Pipeline) : ℕ :=
  pipeline.outbound.items.length + pipeline.posting.length +
    ((pipeline.batch.foldl Engine.dispatch pipeline.engine).outbound.length -
      pipeline.engine.outbound.length)

/-- The engine and its queue of reports are as they were. -/
structure EngineRests (pipeline pipeline' : Pipeline) : Prop where
  engine : pipeline'.engine = pipeline.engine
  polled : pipeline'.polled = pipeline.polled
  batch : pipeline'.batch = pipeline.batch
  posting : pipeline'.posting = pipeline.posting
  outbound : pipeline'.outbound = pipeline.outbound

namespace EngineRests

variable {pipeline pipeline' : Pipeline}

theorem backlog_eq (hrests : EngineRests pipeline pipeline') :
    pipeline'.backlog = pipeline.backlog := by
  unfold backlog
  rw [hrests.engine, hrests.batch, hrests.posting, hrests.outbound]

theorem refl (pipeline : Pipeline) : EngineRests pipeline pipeline := ⟨rfl, rfl, rfl, rfl, rfl⟩

theorem decoderStep (pipeline : Pipeline) (unseen : ℕ) :
    EngineRests pipeline (pipeline.decoderStep unseen) := by
  unfold Pipeline.decoderStep
  split
  · exact refl pipeline
  · exact ⟨rfl, rfl, rfl, rfl, rfl⟩
  · unfold popSpan
    split <;> exact ⟨rfl, rfl, rfl, rfl, rfl⟩
  · unfold decodeFrame
    simp only
    split_ifs <;> exact ⟨rfl, rfl, rfl, rfl, rfl⟩
  · unfold pushMessage
    split <;> exact ⟨rfl, rfl, rfl, rfl, rfl⟩
  · unfold returnBuffer
    split <;> exact ⟨rfl, rfl, rfl, rfl, rfl⟩

/-- The receiver and the decoder thread leave the engine alone. -/
theorem step {move : Move} (hreceiver : move.worker = .receiver ∨ move.worker = .decoder) :
    EngineRests pipeline (pipeline.step move) := by
  cases move with
  | receive unseen =>
      change EngineRests pipeline (pipeline.receive unseen)
      unfold receive
      split
      · exact refl pipeline
      · split <;> exact ⟨rfl, rfl, rfl, rfl, rfl⟩
  | decoderPoll maxBatch =>
      change EngineRests pipeline (pipeline.decoderPoll maxBatch)
      unfold decoderPoll
      split <;> exact ⟨rfl, rfl, rfl, rfl, rfl⟩
  | decoder unseen => exact decoderStep pipeline unseen
  | reclaim unseen maxCount => exact ⟨rfl, rfl, rfl, rfl, rfl⟩
  | enginePoll unseen maxBatch => simp [Move.worker] at hreceiver
  | engine unseen => simp [Move.worker] at hreceiver
  | consume unseen maxCount => simp [Move.worker] at hreceiver

end EngineRests

/-- What the engine thread does inside a poll only moves reports towards the queue. -/
theorem backlog_engineStep {sequential : Engine} {pipeline : Pipeline}
    (hmatching : Matching sequential pipeline) (unseen : ℕ) :
    (pipeline.engineStep unseen).backlog = pipeline.backlog := by
  unfold engineStep
  split
  · rename_i report rest hposting
    unfold postReport
    cases hpush : pipeline.outbound.tryPush unseen report with
    | none => rfl
    | some outbound =>
        have hitems := (BoundedFifo.items_tryPush hpush).1
        simp only [backlog, hitems, hposting, List.length_append, List.length_cons,
          List.length_nil]
        omega
  · rename_i hposting
    split
    · rename_i msg rest hbatch
      rcases hmatching.dispatched with ⟨done, _, s, t, hs, _, _⟩
      rcases s.dispatch_appends msg with ⟨s', hengine, hfirst⟩
      have hrest := s'.dispatches_append rest
      rw [hs] at hengine hfirst
      rw [hengine] at hfirst hrest
      simp only [backlog, dispatchNext, hbatch, hposting, List.foldl_cons, List.length_drop,
        List.length_nil]
      omega
    · rename_i hbatch
      unfold finishPoll
      split
      · rfl
      · simp only [backlog, hbatch, List.foldl_nil]

end Pipeline

/-! ## The last poll -/

namespace Daemon

variable {daemon : Daemon} {spans : List FilledSpan} {sequential : Engine}

theorem polled_step {pipeline : Pipeline} {move : Pipeline.Move}
    (hworker : move.worker ≠ .matching) : (pipeline.step move).polled = pipeline.polled := by
  cases move with
  | receive unseen => exact (Pipeline.EngineRests.step (Or.inl rfl)).polled
  | decoderPoll maxBatch => exact (Pipeline.EngineRests.step (Or.inr rfl)).polled
  | decoder unseen => exact (Pipeline.EngineRests.step (Or.inr rfl)).polled
  | reclaim unseen maxCount => rfl
  | enginePoll unseen maxBatch => exact absurd rfl hworker
  | engine unseen => exact absurd rfl hworker
  | consume unseen maxCount => rfl

/-- The pipeline is on its way, and the matching thread has left between two polls only. -/
structure Sound (spans : List FilledSpan) (sequential : Engine) (daemon : Daemon) : Prop where
  decoding : Decoding spans daemon.pipeline
  matching : Matching sequential daemon.pipeline
  left : daemon.left .matching = true → daemon.pipeline.polled = none

theorem Sound.step (hsound : Sound spans sequential daemon) (move : Move) :
    Sound spans sequential (daemon.step move) := by
  cases move with
  | signal => exact ⟨hsound.decoding, hsound.matching, hsound.left⟩
  | leave worker =>
      unfold Daemon.step
      simp only
      split_ifs with hleaves
      · refine ⟨hsound.decoding, hsound.matching, ?_⟩
        intro hleft
        by_cases hworker : worker = .matching
        · rw [hworker, Bool.and_eq_true] at hleaves
          exact Option.isNone_iff_eq_none.mp hleaves.2
        · simp only at hleft
          rw [Function.update_of_ne (Ne.symm hworker)] at hleft
          exact hsound.left hleft
      · exact hsound
  | work move =>
      unfold Daemon.step
      simp only
      split_ifs with hleft
      · exact hsound
      · obtain ⟨hdecoding, hmatching⟩ :=
          Pipeline.step_invariant hsound.decoding hsound.matching move
        refine ⟨hdecoding, hmatching, ?_⟩
        intro hmatched
        have hworker : move.worker ≠ .matching := by
          rintro hworker
          rw [hworker] at hleft
          exact hleft hmatched
        exact (polled_step hworker).trans (hsound.left hmatched)

theorem sound_run {capacity : ℕ} {clock : ℕ → UInt64} {listings : List (InstrumentId × PriceGrid)}
    (capacities : Pipeline.Capacities) (spans : List FilledSpan) (moves : List Move) :
    Sound spans (Engine.listed capacity clock listings)
      ((new capacities (Engine.listed capacity clock listings) spans).run moves) := by
  unfold run
  induction moves using List.reverseRecOn with
  | nil => exact ⟨Decoding.new capacities _ spans, Matching.new capacities spans, nofun⟩
  | append_singleton moves move ih =>
      rw [List.foldl_append]
      exact ih.step move

/-! ## Without the sender -/

/-- The matching thread has seen the flag, and does not call `poll` again. -/
def Move.NoPoll : Move → Prop
  | .work (.enginePoll _ _) => False
  | _ => True

/-- The signal was caught and the sender thread has left. -/
structure Closing (backlog capacity : ℕ) (daemon : Daemon) : Prop where
  running : daemon.running = false
  sender : daemon.left .sender = true
  backlog : daemon.pipeline.backlog = backlog
  capacity : daemon.pipeline.outbound.capacity = capacity

variable {backlog capacity : ℕ}

theorem Closing.step (hclosing : Closing backlog capacity daemon)
    (hsound : Sound spans sequential daemon) {move : Move} (hnoPoll : move.NoPoll) :
    Closing backlog capacity (daemon.step move) := by
  cases move with
  | signal => exact ⟨rfl, hclosing.sender, hclosing.backlog, hclosing.capacity⟩
  | leave worker =>
      unfold Daemon.step
      simp only
      split_ifs with hleaves
      · refine ⟨hclosing.running, ?_, hclosing.backlog, hclosing.capacity⟩
        simp only [Function.update_apply]
        split_ifs
        · rfl
        · exact hclosing.sender
      · exact hclosing
  | work move =>
      unfold Daemon.step
      simp only
      split_ifs with hleft
      · exact hclosing
      · have hcapacities := congrArg Pipeline.Capacities.outbound
          (daemon.pipeline.capacities_step move)
        refine ⟨hclosing.running, hclosing.sender, ?_, hcapacities.trans hclosing.capacity⟩
        simp only
        rw [← hclosing.backlog]
        cases move with
        | receive unseen => exact (Pipeline.EngineRests.step (Or.inl rfl)).backlog_eq
        | decoderPoll maxBatch => exact (Pipeline.EngineRests.step (Or.inr rfl)).backlog_eq
        | decoder unseen => exact (Pipeline.EngineRests.step (Or.inr rfl)).backlog_eq
        | reclaim unseen maxCount => exact (Pipeline.EngineRests.step (Or.inl rfl)).backlog_eq
        | enginePoll unseen maxBatch => exact absurd hnoPoll id
        | engine unseen => exact Pipeline.backlog_engineStep hsound.matching unseen
        | consume unseen maxCount => exact absurd hclosing.sender hleft

/-- What the matching thread has still to do: messages, reports, the end of its poll and of
its loop. -/
def remaining (daemon : Daemon) : ℕ ×ₗ ℕ ×ₗ ℕ ×ₗ ℕ :=
  toLex (daemon.pipeline.batch.length, toLex (daemon.pipeline.posting.length,
    toLex (daemon.pipeline.polled.toList.length, (!daemon.left .matching).toNat)))

inductive Turn where
  | engine
  | leave
  deriving DecidableEq

/-- The moves with which the matching thread gets on. -/
def Move.turn : Move → Turn → Prop
  | .work (.engine _), .engine => True
  | .leave .matching, .leave => True
  | _, _ => False

/-- Inside a poll it is the turn of the engine, and after it that of the test. -/
def next (remaining : ℕ ×ₗ ℕ ×ₗ ℕ ×ₗ ℕ) : Turn :=
  if (ofLex (ofLex (ofLex remaining).2).2).1 = 0 then .leave else .engine

/-- There is room for every report of the poll. -/
theorem Closing.room (hclosing : Closing backlog capacity daemon) (hfits : backlog ≤ capacity)
    (hposting : daemon.pipeline.posting ≠ []) :
    ¬ daemon.pipeline.outbound.capacity ≤ daemon.pipeline.outbound.items.length := by
  have hlength := List.length_pos_iff.mpr hposting
  have hbacklog := hclosing.backlog
  unfold Pipeline.backlog at hbacklog
  rw [hclosing.capacity]
  omega

end Daemon

end NanoMatch
