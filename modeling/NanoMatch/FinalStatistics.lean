import NanoMatch.EngineWrites
import NanoMatch.ExecutionTape
import NanoMatch.Shutdown

/-!
# The final statistics

After the joins `main` prints the counters of the decoder and of the engine, and on Linux
those of the I/O threads, which are left out here.  The threads may have left anywhere in
the stream, with spans and messages still in the queues.  The numbers are nevertheless
those of one thread which decodes the spans taken from the queue and dispatches the
messages taken from the queue, and nothing else was lost.
-/

namespace NanoMatch

open OrderBook

/-! ## The counters of the engine -/

namespace Engine

theorem Writes.ordersProcessed {engine engine' : Engine} (hwrites : Writes engine engine') :
    engine'.ordersProcessed = engine.ordersProcessed := by
  induction hwrites with
  | refl => rfl
  | tail _ hwrite ih => cases hwrite <;> exact ih

/-- Only `poll` and `submit` count the messages. -/
theorem ordersProcessed_dispatch (engine : Engine) (msg : InboundOrderMsg) :
    (engine.dispatch msg).ordersProcessed = engine.ordersProcessed := by
  rcases Writes.dispatch engine msg with hwrites | ⟨slot, pool, _, hwrites⟩
  · exact hwrites.ordersProcessed
  · exact hwrites.ordersProcessed

end Engine

def Execution.isTrade (execution : Execution) : Bool :=
  execution.kind = .fill || execution.kind = .partialFill

def Execution.isReject (execution : Execution) : Bool := execution.kind = .reject

/-- The fills and rejections, counted in the reports. -/
structure Tallied (engine : Engine) : Prop where
  fills : 2 * engine.fillsExecuted =
    (engine.outbound.map ExecutionReport.view).countP Execution.isTrade
  rejects : engine.ordersRejected =
    (engine.outbound.map ExecutionReport.view).countP Execution.isReject

section Tally

variable {msg : InboundOrderMsg} {block : Block}

theorem trade_counts (taker : OrderId) (trades : List Trade) :
    ((trades.flatMap (Trade.reports taker)).map ExecutionReport.view).countP Execution.isTrade =
        2 * trades.length ∧
      ((trades.flatMap (Trade.reports taker)).map ExecutionReport.view).countP
        Execution.isReject = 0 := by
  induction trades with
  | nil => exact ⟨rfl, rfl⟩
  | cons trade trades ih =>
      have htrade : ((trade.reports taker).map ExecutionReport.view).countP Execution.isTrade = 2 ∧
          ((trade.reports taker).map ExecutionReport.view).countP Execution.isReject = 0 := by
        unfold Trade.reports
        by_cases hmaker : trade.makerLeaves = 0 <;> by_cases htaker : trade.takerLeaves = 0 <;>
          simp [hmaker, htaker, ExecutionReport.view, Execution.isTrade, Execution.isReject]
      rw [List.flatMap_cons, List.map_append, List.countP_append, List.countP_append, htrade.1,
        htrade.2, ih.1, ih.2, List.length_cons]
      constructor
      · ring
      · rfl

theorem Tape.counts (htape : Tape msg block) :
    (block.reports.map ExecutionReport.view).countP Execution.isTrade = 2 * block.fills ∧
      (block.reports.map ExecutionReport.view).countP Execution.isReject = block.rejects := by
  cases htape with
  | unknown byte _ => exact ⟨rfl, rfl⟩
  | notFound _ => exact ⟨rfl, rfl⟩
  | cancelled leaves timestampNs _ _ => exact ⟨rfl, rfl⟩
  | rejected timestampNs _ => exact ⟨rfl, rfl⟩
  | traded _ _ _ => exact trade_counts msg.orderId _
  | @acked trades leaves timestampNs _ _ _ _ =>
      have hcounts := trade_counts msg.orderId trades
      have hack : (ExecutionReport.view
          (cancelAckReport msg.orderId leaves timestampNs)).isTrade = false ∧
          (ExecutionReport.view
            (cancelAckReport msg.orderId leaves timestampNs)).isReject = false := ⟨rfl, rfl⟩
      rw [List.map_append, List.countP_append, List.countP_append, hcounts.1, hcounts.2]
      simp [hack.1, hack.2]

theorem Tallied.appends {s s' : Snapshot} (htallied : Tallied s.engine) (htape : Tape msg block)
    (happends : Appends block s s') : Tallied s'.engine := by
  have hcounts := htape.counts
  constructor
  · rw [happends.outbound, happends.fills, List.map_append, List.countP_append, hcounts.1,
      ← htallied.fills]
    ring
  · rw [happends.outbound, happends.rejects, List.map_append, List.countP_append, hcounts.2,
      ← htallied.rejects]

/-- Dispatching differs from submitting in the count of messages only. -/
theorem Tallied.dispatch {s : Snapshot} (htallied : Tallied s.engine) (msg : InboundOrderMsg) :
    Tallied (s.engine.dispatch msg) := by
  rcases s.submit_step msg with ⟨s', hengine, hstep⟩
  rcases hstep.tape with ⟨block, htape, happends⟩
  have hsubmitted := htallied.appends htape happends
  rw [hengine] at hsubmitted
  exact ⟨hsubmitted.fills, hsubmitted.rejects⟩

theorem tallied_listed (capacity : ℕ) (clock : ℕ → UInt64)
    (listings : List (InstrumentId × PriceGrid)) :
    Tallied (Engine.listed capacity clock listings) := by
  rcases Snapshot.exists_initial capacity clock listings with ⟨s, hs⟩
  rcases hs.reports with ⟨houtbound, hfills, hrejects, _⟩
  rw [← hs.engine_eq]
  exact ⟨by rw [houtbound, hfills]; rfl, by rw [houtbound, hrejects]; rfl⟩

end Tally

/-! ## The pipeline -/

/-- The counters of the engine agree with its reports, and the messages it has popped are
counted up to the poll it is in. -/
structure Counting (pipeline : Pipeline) : Prop where
  tallied : Tallied pipeline.engine
  processed : pipeline.engine.ordersProcessed + pipeline.polled.getD 0 =
    pipeline.inbound.popped.length

namespace Counting

variable {sequential : Engine} {pipeline pipeline' : Pipeline} {unseen : ℕ}

theorem waits (hcounting : Counting pipeline) (hwaits : EngineWaits pipeline pipeline') :
    Counting pipeline' where
  tallied := by
    rw [hwaits.engine]
    exact hcounting.tallied
  processed := by
    rw [hwaits.engine, hwaits.polled, hwaits.popped]
    exact hcounting.processed

theorem enginePoll (hcounting : Counting pipeline) (maxBatch : UInt64) :
    Counting (pipeline.enginePoll unseen maxBatch) := by
  have hprocessed := hcounting.processed
  unfold Pipeline.enginePoll
  split
  · exact hcounting
  · rename_i hpolled
    rw [hpolled] at hprocessed
    refine ⟨hcounting.tallied, ?_⟩
    simp only [Option.getD_none, Nat.add_zero] at hprocessed
    simp only [Option.getD_some]
    rw [(pipeline.inbound.tryPopBatch_spec unseen (min maxBatch.toNat 64)).1,
      List.length_append, hprocessed]

theorem engineStep (hcounting : Counting pipeline) (hmatching : Matching sequential pipeline) :
    Counting (pipeline.engineStep unseen) := by
  have hprocessed := hcounting.processed
  unfold Pipeline.engineStep
  split
  · unfold Pipeline.postReport
    split
    · exact hcounting
    · exact ⟨hcounting.tallied, hprocessed⟩
  · split
    · rename_i msg rest hbatch
      rcases hmatching.dispatched with ⟨done, _, s, t, hs, _⟩
      have htallied := hcounting.tallied
      rw [← hs] at htallied
      have hdispatch := htallied.dispatch msg
      rw [hs] at hdispatch
      refine ⟨hdispatch, ?_⟩
      unfold Pipeline.dispatchNext
      simp only
      rw [Engine.ordersProcessed_dispatch]
      exact hprocessed
    · unfold Pipeline.finishPoll
      split
      · exact hcounting
      · rename_i n hpolled
        rw [hpolled, Option.getD_some] at hprocessed
        exact ⟨⟨hcounting.tallied.fills, hcounting.tallied.rejects⟩, hprocessed⟩

theorem step (hcounting : Counting pipeline) (hmatching : Matching sequential pipeline)
    (move : Pipeline.Move) : Counting (pipeline.step move) := by
  cases move with
  | receive unseen => exact hcounting.waits (.receive pipeline unseen)
  | decoderPoll maxBatch => exact hcounting.waits (.decoderPoll pipeline maxBatch)
  | decoder unseen => exact hcounting.waits (.decoderStep pipeline unseen)
  | reclaim unseen maxCount => exact ⟨hcounting.tallied, hcounting.processed⟩
  | enginePoll unseen maxBatch => exact hcounting.enginePoll maxBatch
  | engine unseen => exact hcounting.engineStep hmatching
  | consume unseen maxCount => exact ⟨hcounting.tallied, hcounting.processed⟩

end Counting

/-! ## One thread -/

theorem Engine.ordersProcessed_listed (capacity : ℕ) (clock : ℕ → UInt64)
    (listings : List (InstrumentId × PriceGrid)) :
    (Engine.listed capacity clock listings).ordersProcessed = 0 := by
  unfold Engine.listed
  have hnew : (Engine.new capacity clock).ordersProcessed = 0 := rfl
  generalize Engine.new capacity clock = engine at hnew
  induction listings generalizing engine with
  | nil => exact hnew
  | cons listing listings ih =>
      apply ih
      unfold Engine.addInstrument
      split
      · exact hnew
      · exact hnew

theorem Engine.ordersProcessed_runMessages (engine : Engine) (msgs : List InboundOrderMsg) :
    (engine.runMessages msgs).ordersProcessed = engine.ordersProcessed + msgs.length := by
  induction msgs using List.reverseRecOn with
  | nil => rfl
  | append_singleton msgs msg ih =>
      have hsubmit : engine.runMessages (msgs ++ [msg]) = (engine.runMessages msgs).submit msg := by
        simp [Engine.runMessages]
      rw [hsubmit, List.length_append]
      change ((engine.runMessages msgs).dispatch msg).ordersProcessed + 1 = _
      rw [Engine.ordersProcessed_dispatch, ih]
      rfl

theorem tallied_runMessages (capacity : ℕ) (clock : ℕ → UInt64)
    (listings : List (InstrumentId × PriceGrid)) (msgs : List InboundOrderMsg) :
    Tallied ((Engine.listed capacity clock listings).runMessages msgs) := by
  rcases runMessages_induction capacity clock listings (fun _ s => Tallied s.engine)
    (fun s hs => by
      rw [hs.engine_eq]
      exact tallied_listed capacity clock listings)
    (fun _ msg s s' _ htallied hstep => by
      rcases hstep.tape with ⟨block, htape, happends⟩
      exact htallied.appends htape happends) msgs with ⟨s, hengine, htallied⟩
  rw [← hengine]
  exact htallied

/-! ## The daemon -/

/-- The statistics of the decoder and of the engine, as printed after the joins. -/
structure Statistics where
  spansSeen : ℕ
  decodedCount : ℕ
  errorCount : ℕ
  ordersProcessed : ℕ
  fillsExecuted : ℕ
  ordersRejected : ℕ
  deriving DecidableEq, Repr

def Statistics.of (decoder : Decoder) (engine : Engine) : Statistics where
  spansSeen := decoder.spansSeen
  decodedCount := decoder.decodedCount
  errorCount := decoder.errorCount
  ordersProcessed := engine.ordersProcessed
  fillsExecuted := engine.fillsExecuted
  ordersRejected := engine.ordersRejected

def Daemon.statistics (daemon : Daemon) : Statistics :=
  .of daemon.pipeline.decoder daemon.pipeline.engine

section Daemon

variable {spans : List FilledSpan} {sequential : Engine} {daemon : Daemon}

theorem Pipeline.decodePoint_step {pipeline : Pipeline} {move : Pipeline.Move}
    (hworker : move.worker ≠ .decoder) :
    (pipeline.step move).decodePoint = pipeline.decodePoint := by
  cases move with
  | receive unseen =>
      change (pipeline.receive unseen).decodePoint = _
      unfold Pipeline.receive
      split
      · rfl
      · split <;> rfl
  | decoderPoll maxBatch => exact absurd rfl hworker
  | decoder unseen => exact absurd rfl hworker
  | reclaim unseen maxCount => rfl
  | enginePoll unseen maxBatch =>
      exact (DecoderWaits.enginePoll pipeline unseen maxBatch).decodePoint
  | engine unseen => exact (DecoderWaits.engineStep pipeline unseen).decodePoint
  | consume unseen maxCount => rfl

/-- The invariant of the daemon with the counters. -/
structure Audited (spans : List FilledSpan) (sequential : Engine) (daemon : Daemon) : Prop where
  sound : daemon.Sound spans sequential
  counting : Counting daemon.pipeline
  left : daemon.left .decoder = true → daemon.pipeline.decodePoint = .idle

theorem Audited.step (haudited : Audited spans sequential daemon) (move : Daemon.Move) :
    Audited spans sequential (daemon.step move) := by
  have hsound := haudited.sound.step move
  cases move with
  | signal => exact ⟨hsound, haudited.counting, haudited.left⟩
  | leave worker =>
      unfold Daemon.step at hsound ⊢
      simp only at hsound ⊢
      split_ifs at hsound ⊢ with hleaves
      · refine ⟨hsound, haudited.counting, ?_⟩
        intro hleft
        by_cases hworker : worker = .decoder
        · rw [hworker, Bool.and_eq_true] at hleaves
          exact of_decide_eq_true hleaves.2
        · simp only at hleft
          rw [Function.update_of_ne (Ne.symm hworker)] at hleft
          exact haudited.left hleft
      · exact haudited
  | work move =>
      unfold Daemon.step at hsound ⊢
      simp only at hsound ⊢
      split_ifs at hsound ⊢ with hleft
      · exact haudited
      · refine ⟨hsound, haudited.counting.step haudited.sound.matching move, ?_⟩
        intro hdecoder
        have hworker : move.worker ≠ .decoder := by
          rintro hworker
          rw [hworker] at hleft
          exact hleft hdecoder
        exact (Pipeline.decodePoint_step hworker).trans (haudited.left hdecoder)

theorem audited_run {capacity : ℕ} {clock : ℕ → UInt64}
    {listings : List (InstrumentId × PriceGrid)} (capacities : Pipeline.Capacities)
    (spans : List FilledSpan) (moves : List Daemon.Move) :
    Audited spans (Engine.listed capacity clock listings)
      ((Daemon.new capacities (Engine.listed capacity clock listings) spans).run moves) := by
  induction moves using List.reverseRecOn with
  | nil =>
      refine ⟨Daemon.sound_run capacities spans [], ⟨?_, ?_⟩, nofun⟩
      · exact tallied_listed capacity clock listings
      · exact Engine.ordersProcessed_listed capacity clock listings
  | append_singleton moves move ih =>
      unfold Daemon.run at ih ⊢
      rw [List.foldl_append]
      exact ih.step move

end Daemon

/-- What the joined threads leave: the spans and messages taken from the queues, and the
statistics and reports of one thread which handles just these. -/
structure Joined (spans seen : List FilledSpan) (handled : List InboundOrderMsg)
    (sequential : Engine) (daemon : Daemon) : Prop where
  spans_eq : spans = seen ++ daemon.pipeline.raw.items ++ daemon.pipeline.incoming
  messages_eq : messagesOf seen = handled ++ daemon.pipeline.inbound.items
  returned : daemon.pipeline.returns.pushed = seen.map FilledSpan.bufId
  reports : daemon.pipeline.outbound.pushed.map ExecutionReport.view =
    (sequential.runMessages handled).outbound.map ExecutionReport.view
  statistics : daemon.statistics =
    .of (Decoder.new.decodeSpans (seen.map FilledSpan.bytes)) (sequential.runMessages handled)

/-- Whenever the decoder and the matching thread have left, in the middle of the stream or
after its end, their statistics are those of a sequential run and everything which was not
handled is still in a queue. -/
theorem joined_statistics (capacities : Pipeline.Capacities) (capacity : ℕ)
    (clock : ℕ → UInt64) (listings : List (InstrumentId × PriceGrid)) (spans : List FilledSpan)
    (moves : List Daemon.Move) (daemon : Daemon)
    (hdaemon : daemon =
      (Daemon.new capacities (Engine.listed capacity clock listings) spans).run moves)
    (hdecoder : daemon.left .decoder = true) (hmatching : daemon.left .matching = true) :
    ∃ seen handled, Joined spans seen handled (Engine.listed capacity clock listings) daemon := by
  have haudited : Audited spans (Engine.listed capacity clock listings) daemon := by
    rw [hdaemon]
    exact audited_run capacities spans moves
  have hidle := haudited.left hdecoder
  have hpolled := haudited.sound.left hmatching
  have hdecoding := haudited.sound.decoding
  obtain ⟨hbatch, hposting⟩ := haudited.sound.matching.waiting hpolled
  rcases haudited.sound.matching.dispatched with ⟨done, hdone, s, t, hs, ht, htwins⟩
  rw [hbatch, List.append_nil] at hdone
  have hdecoded := hdecoding.finish
  rw [hidle] at hdecoded
  change daemon.pipeline.decoder = _ at hdecoded
  have hposted := haudited.sound.matching.posted
  rw [hposting, List.append_nil] at hposted
  have hviews := htwins.reports
  rw [hs, ht] at hviews
  have hcounting := haudited.counting
  have hprocessed := hcounting.processed
  rw [hpolled, Option.getD_none, Nat.add_zero, hdone] at hprocessed
  have hsequential := tallied_runMessages capacity clock listings done
  refine ⟨daemon.pipeline.raw.popped, done, ?_, ?_, ?_, ?_, ?_⟩
  · rw [daemon.pipeline.raw.lossless, hdecoding.arrived]
  · unfold messagesOf
    rw [← hdecoded, ← hdecoding.pushed, ← hdone, daemon.pipeline.inbound.lossless]
  · rcases hdecoding.returned with ⟨returned, hreturned, hids, _⟩
    rw [hidle, DecodePoint.inHand, List.append_nil] at hreturned
    rw [hids, hreturned]
  · rw [← hposted, hviews]
  · have hfills : daemon.pipeline.engine.fillsExecuted =
        ((Engine.listed capacity clock listings).runMessages done).fillsExecuted := by
      have hpipeline := hcounting.tallied.fills
      rw [hviews, ← hsequential.fills] at hpipeline
      omega
    have hrejects : daemon.pipeline.engine.ordersRejected =
        ((Engine.listed capacity clock listings).runMessages done).ordersRejected := by
      rw [hcounting.tallied.rejects, hviews, ← hsequential.rejects]
    have hcount : daemon.pipeline.engine.ordersProcessed =
        ((Engine.listed capacity clock listings).runMessages done).ordersProcessed := by
      rw [hprocessed, Engine.ordersProcessed_runMessages, Engine.ordersProcessed_listed,
        Nat.zero_add]
    unfold Daemon.statistics Statistics.of
    rw [← hdecoded, hfills, hrejects, hcount]

/-- The decoder stops after the first span and the engine after its message, with the second
span still in the queue. -/
def caughtHalfway : List Daemon.Move :=
  [.work (.receive 0), .work (.decoderPoll 1), .work (.decoder 0), .work (.decoder 0),
    .work (.decoder 0), .work (.decoder 0), .work (.decoder 0), .work (.decoder 0),
    .work (.receive 0), .work (.enginePoll 0 64), .work (.engine 0), .work (.engine 0),
    .signal, .leave .decoder, .leave .matching]

theorem joined_statistics_halfway :
    ∃ seen handled, Joined sampleSpans seen handled
      (Engine.listed 4 (fun _ => 0) [(0, sampleGrid)])
      ((Daemon.new ⟨2, 3, 2, 4⟩ (Engine.listed 4 (fun _ => 0) [(0, sampleGrid)])
        sampleSpans).run caughtHalfway) :=
  joined_statistics ⟨2, 3, 2, 4⟩ 4 (fun _ => 0) [(0, sampleGrid)] sampleSpans caughtHalfway _ rfl
    (by decide +kernel) (by decide +kernel)

end NanoMatch
