import NanoMatch.JoinedQueues
import NanoMatch.SendStream

/-!
# From the bytes received to the bytes sent

Since the ends of the queues agree, what is known of the receiver, of the pipeline and
of the sender holds of the daemon.  The reports which are sent are those of one engine
to which everything received is submitted, one message after another, and the bytes on
the wire are their encodings.
-/

namespace NanoMatch

open Decoder Encoder

/-- Whole sends which complete in order keep the stream framed. -/
theorem UringSender.framing_run {sender : UringSender} {moves : List UringSender.Move}
    (haccounted : Accounted sender) (hinOrder : InOrder sender) (hwhole : Whole sender)
    (hmoves : ∀ move ∈ moves, move.inOrder = true ∧ move.whole = true) :
    InOrder (sender.run moves) ∧ Whole (sender.run moves) := by
  induction moves generalizing sender with
  | nil => exact ⟨hinOrder, hwhole⟩
  | cons move moves ih =>
      have hmove := hmoves move List.mem_cons_self
      exact ih (haccounted.step move) (hinOrder.step haccounted hmove.1)
        (hwhole.step haccounted hmove.2)
        fun other hother => hmoves other (List.mem_cons_of_mem _ hother)

namespace Assembly

open UringReceiver (Owned ReceiverMoves)

/-! ## Everything received -/

section Delivered

open UringReceiver (Delivering SameDelivery)

variable {assembly : Assembly} {processed pending : List Completion}
  {decoded : List (List UInt8)} {rx : UringReceiver}

/-- What the receiver has processed has been pushed, with its bytes. -/
structure Delivered (processed pending : List Completion) (decoded : List (List UInt8))
    (assembly : Assembly) : Prop where
  delivering : Delivering processed pending decoded assembly.receiver
  pushed : assembly.pipeline.raw.pushed.map FilledSpan.bytes =
    processed.filterMap Completion.received

/-- The decoder completes no receive and processes none. -/
theorem delivering_handOver (hrx : Delivering processed pending decoded rx) (howned : Owned [] rx)
    (before after : Pipeline) :
    rx.completions (handOver before after) = [] ∧
      ∃ decoded', Delivering processed pending decoded' (rx.run (handOver before after)) := by
  unfold handOver
  split_ifs
  · refine ⟨rfl, ?_⟩
    exact (hrx.same (.callDecoder rx 1)).decoderStep (howned.callDecoder 1)
  · refine ⟨rfl, ?_⟩
    obtain ⟨decoded', hstep⟩ := hrx.decoderStep howned
    exact hstep.decoderStep howned.decoderStep
  · exact ⟨rfl, decoded, hrx⟩

theorem pushed_decoderStep (pipeline : Pipeline) (unseen : ℕ) :
    (pipeline.decoderStep unseen).raw.pushed = pipeline.raw.pushed := by
  cases pipeline.decoderStep_hands unseen with
  | nothing hinternal => rw [hinternal.raw]
  | took span raw point decoder view hempty hpop hpoint hafter =>
      rw [hafter]
      exact (BoundedFifo.tryPop_spec hpop).2
  | returned span returns left view hspan hpush hafter => rw [hafter]

theorem Delivered.receiverThread (hdelivered : Delivered processed pending decoded assembly)
    (hjoined : Joined assembly) :
    ∃ processed' pending', processed' ++ pending' = processed ++ pending ∧
      Delivered processed' pending' decoded
        { assembly with
          receiver := assembly.receiver.receiverStep
          pipeline := followReceiver assembly.pipeline assembly.receiver
            assembly.receiver.receiverStep } := by
  obtain ⟨processed', pending', hlog, hstep⟩ :=
    hdelivered.delivering.receiverStep hjoined.owned
  refine ⟨processed', pending', hlog, hstep, ?_⟩
  obtain ⟨spans, -, hqueue, hpushed⟩ := Joined.pushedSpans_receiverStep assembly.receiver
  obtain ⟨raw, hfollow, -, hall, -⟩ := hjoined.followReceiver_eq
  have hbytes : assembly.receiver.receiverStep.spanBytes = assembly.receiver.spanBytes := by
    funext span
    unfold UringReceiver.spanBytes
    rw [UringReceiver.recvBufs_receiverStep]
  have hspans : assembly.receiver.receiverStep.spans = assembly.receiver.spans ++ spans := by
    unfold UringReceiver.spans
    rw [hqueue, (ReceiverMoves.receiverStep assembly.receiver).decoderStage, List.append_assoc]
  have hfilled : (spans.map assembly.receiver.filled).map FilledSpan.bytes =
      spans.map assembly.receiver.spanBytes := by
    rw [List.map_map]
    rfl
  simp only
  rw [hfollow]
  simp only
  rw [hall, hpushed, List.map_append, hfilled, hdelivered.pushed, hstep.received, hspans, hbytes,
    hdelivered.delivering.received, List.map_append, List.append_assoc]

theorem Delivered.step (hdelivered : Delivered processed pending decoded assembly)
    (hjoined : Joined assembly) (move : Move) :
    ∃ processed' pending' decoded',
      processed' ++ pending' = processed ++ pending ++
        assembly.receiver.completions (assembly.receiverMoves move) ∧
      Delivered processed' pending' decoded' (assembly.step move) := by
  have hrx := hdelivered.delivering
  cases move with
  | receiver =>
      obtain ⟨processed', pending', hlog, hstep⟩ := hdelivered.receiverThread hjoined
      exact ⟨processed', pending', decoded, hlog.trans (List.append_nil _).symm, hstep⟩
  | recvConsume =>
      refine ⟨processed, pending, decoded, (List.append_nil _).symm, ?_, hdelivered.pushed⟩
      exact hrx.same ⟨assembly.receiver.ring.completed_consume, rfl, rfl, rfl, rfl, rfl, rfl⟩
  | recvWrite id bytes =>
      refine ⟨processed, pending, decoded, (List.append_nil _).symm, ?_, hdelivered.pushed⟩
      exact hrx.writeBuf hjoined.owned id bytes
  | recvComplete position res =>
      refine ⟨processed, _, decoded, ?_, hrx.complete position res, hdelivered.pushed⟩
      rw [List.append_assoc]
      simp [receiverMoves, UringReceiver.completions]
  | decoder unseen =>
      obtain ⟨hnone, decoded', hstep⟩ := delivering_handOver hrx hjoined.owned assembly.pipeline
        (assembly.pipeline.decoderStep unseen)
      refine ⟨processed, pending, decoded', ?_, hstep, ?_⟩
      · simp only [receiverMoves]
        rw [hnone, List.append_nil]
      · change (assembly.pipeline.decoderStep unseen).raw.pushed.map FilledSpan.bytes = _
        rw [pushed_decoderStep]
        exact hdelivered.pushed
  | decoderPoll maxBatch =>
      refine ⟨processed, pending, decoded, (List.append_nil _).symm, hrx, ?_⟩
      change (assembly.pipeline.decoderPoll maxBatch).raw.pushed.map FilledSpan.bytes = _
      rw [(Pipeline.Internal.decoderPoll _ maxBatch).raw]
      exact hdelivered.pushed
  | enginePoll unseen maxBatch =>
      refine ⟨processed, pending, decoded, (List.append_nil _).symm, hrx, ?_⟩
      change (assembly.pipeline.enginePoll unseen maxBatch).raw.pushed.map FilledSpan.bytes = _
      rw [(Pipeline.Internal.enginePoll _ unseen maxBatch).raw]
      exact hdelivered.pushed
  | engine unseen =>
      refine ⟨processed, pending, decoded, (List.append_nil _).symm, hrx, ?_⟩
      change (assembly.pipeline.engineStep unseen).raw.pushed.map FilledSpan.bytes = _
      rw [(Pipeline.Internal.engineStep _ unseen).raw]
      exact hdelivered.pushed
  | _ => exact ⟨processed, pending, decoded, (List.append_nil _).symm, hrx, hdelivered.pushed⟩

end Delivered

/-! ## Everything decoded and matched -/

/-- The pipeline is on its way through the spans it has been given. -/
def Pipelined (sequential : Engine) (pipeline : Pipeline) : Prop :=
  ∃ spans, Decoding spans pipeline ∧ Matching sequential pipeline

section Pipelined

variable {sequential : Engine} {pipeline : Pipeline} {assembly : Assembly}

theorem Pipelined.move (hpipelined : Pipelined sequential pipeline) (move : Pipeline.Move) :
    Pipelined sequential (pipeline.step move) := by
  obtain ⟨spans, hdecoding, hmatching⟩ := hpipelined
  exact ⟨spans, Pipeline.step_invariant hdecoding hmatching move⟩

theorem Pipelined.incoming (hpipelined : Pipelined sequential pipeline) (more : List FilledSpan) :
    Pipelined sequential { pipeline with incoming := pipeline.incoming ++ more } := by
  obtain ⟨spans, hdecoding, hmatching⟩ := hpipelined
  refine ⟨spans ++ more, ⟨?_, hdecoding.returned, hdecoding.finish, hdecoding.pushed⟩,
    hmatching.waits ⟨rfl, rfl, rfl, rfl, rfl, rfl⟩⟩
  simp only
  rw [← List.append_assoc, hdecoding.arrived]

theorem Pipelined.step (hpipelined : Pipelined sequential assembly.pipeline) (move : Move) :
    Pipelined sequential (assembly.step move).pipeline := by
  cases move with
  | receiver => exact ((hpipelined.incoming _).move (.receive 0)).move (.reclaim 0 _)
  | decoderPoll maxBatch => exact hpipelined.move (.decoderPoll maxBatch)
  | decoder unseen => exact hpipelined.move (.decoder unseen)
  | enginePoll unseen maxBatch => exact hpipelined.move (.enginePoll unseen maxBatch)
  | engine unseen => exact hpipelined.move (.engine unseen)
  | sender => exact hpipelined.move (.consume 0 _)
  | _ => exact hpipelined

end Pipelined

/-! ## The answer -/

/-- Sends complete in order, and each has failed or has transmitted its report. -/
def Move.wholeSends : Move → Bool
  | .sendComplete position res => position == 0 && decide (res < 0 ∨ res = 48)
  | _ => true

/-- The messages of everything received, decoded one span after another. -/
def messagesIn (received : List (List UInt8)) : List InboundOrderMsg :=
  (Decoder.new.decodeSpans received).inbound

/-- The reports of the sends which have completed. -/
def answered (assembly : Assembly) : List ExecutionReport :=
  assembly.sender.completions.map fun c => c.1.report

/-- Nothing is under way in any of the threads, and no completion waits in a ring. -/
structure AtRest (assembly : Assembly) : Prop where
  receiver : assembly.receiver.ring.completed = []
  pipeline : assembly.pipeline.Quiescent
  sender : assembly.sender.stage.inHand = []
  sends : assembly.sender.ring.outstanding = []

/-- Spans lie in place until they are decoded.  The sends answer what was received, as
`sequential` does, and the bytes on the wire are those of the reports which went out. -/
structure Answers (received : List (List UInt8)) (sequential : Engine) (assembly : Assembly) :
    Prop where
  in_place : assembly.pipeline.decodePoint.inHand ++ assembly.pipeline.raw.items =
    assembly.receiver.spans.map assembly.receiver.filled
  reports : assembly.answered.map ExecutionReport.view <+:
    (sequential.runMessages (messagesIn received)).outbound.map ExecutionReport.view
  wire : assembly.sender.wire = assembly.sender.completedReports.flatMap encodeExecReport
  complete : assembly.AtRest → assembly.sender.errors = 0 →
    assembly.sender.wire = assembly.answered.flatMap encodeExecReport ∧
      assembly.answered.map ExecutionReport.view =
        (sequential.runMessages (messagesIn received)).outbound.map ExecutionReport.view

/-- The daemon after the receives in `log` have completed. -/
structure Serving (log : List Completion) (sequential : Engine) (assembly : Assembly) :
    Prop where
  joined : Joined assembly
  delivered : ∃ processed pending decoded, processed ++ pending = log ∧
    Delivered processed pending decoded assembly
  pipelined : Pipelined sequential assembly.pipeline
  inOrder : UringSender.InOrder assembly.sender
  whole : UringSender.Whole assembly.sender

section Serving

variable {log : List Completion} {sequential : Engine} {assembly : Assembly}

theorem inOrder_senderMoves (assembly : Assembly) {move : Move} (hmove : move.wholeSends = true)
    {sent : UringSender.Move} (hsent : sent ∈ assembly.senderMoves move) :
    sent.inOrder = true ∧ sent.whole = true := by
  cases move with
  | sendComplete position res =>
      rw [List.mem_singleton.mp hsent]
      simp only [Move.wholeSends, Bool.and_eq_true, decide_eq_true_eq] at hmove
      simp only [UringSender.Move.inOrder, UringSender.Move.whole, Bool.and_eq_true,
        decide_eq_true_eq]
      exact ⟨⟨hmove.1, by omega⟩, hmove.2⟩
  | reveal =>
      obtain ⟨report, -, rfl⟩ := List.mem_map.mp hsent
      exact ⟨rfl, rfl⟩
  | sender =>
      rw [List.mem_singleton.mp hsent]
      exact ⟨rfl, rfl⟩
  | sendConsume =>
      rw [List.mem_singleton.mp hsent]
      exact ⟨rfl, rfl⟩
  | _ => exact absurd hsent (by simp [senderMoves])

theorem Serving.step (hserving : Serving log sequential assembly) {move : Move}
    (hmove : move.wholeSends = true) :
    Serving (log ++ assembly.receiver.completions (assembly.receiverMoves move)) sequential
      (assembly.step move) := by
  obtain ⟨processed, pending, decoded, hlog, hdelivered⟩ := hserving.delivered
  obtain ⟨processed', pending', decoded', hlog', hdelivered'⟩ :=
    hdelivered.step hserving.joined move
  have hsender := UringSender.framing_run hserving.joined.accounted hserving.inOrder
    hserving.whole fun sent hsent => inOrder_senderMoves assembly hmove hsent
  rw [hlog] at hlog'
  exact ⟨hserving.joined.step move, ⟨processed', pending', decoded', hlog', hdelivered'⟩,
    hserving.pipelined.step move, hsender.1, hsender.2⟩

theorem Serving.run (hserving : Serving log sequential assembly) {moves : List Move}
    (hmoves : ∀ move ∈ moves, move.wholeSends = true) :
    Serving (log ++ assembly.completions moves) sequential (assembly.run moves) := by
  induction moves generalizing log assembly with
  | nil =>
      rw [completions, List.append_nil]
      exact hserving
  | cons move moves ih =>
      have hstep := hserving.step (hmoves move List.mem_cons_self)
      have hrest := ih hstep fun other hother => hmoves other (List.mem_cons_of_mem _ hother)
      rw [List.append_assoc] at hrest
      exact hrest

/-- The reports which have left the engine are those of the messages it was given. -/
theorem matching_popped {pipeline : Pipeline} (hmatching : Matching sequential pipeline)
    {msgs : List InboundOrderMsg} (hmsgs : pipeline.inbound.pushed <+: msgs) :
    pipeline.outbound.popped.map ExecutionReport.view <+:
      (sequential.runMessages msgs).outbound.map ExecutionReport.view := by
  obtain ⟨done, hdone, hviews, hmore⟩ := hmatching.posted_eq
  have hprefix : done <+: msgs := by
    have hpopped := pipeline.inbound.popped_prefix
    rw [hdone] at hpopped
    exact ((List.prefix_append _ _).trans hpopped).trans hmsgs
  obtain ⟨more, hall⟩ := hprefix
  have hposted : pipeline.outbound.popped <+: pipeline.outbound.pushed ++ pipeline.posting :=
    pipeline.outbound.popped_prefix.trans (List.prefix_append _ _)
  have hsequential := (hmore more).map ExecutionReport.view
  rw [hall, ← hviews] at hsequential
  exact (hposted.map ExecutionReport.view).trans hsequential

theorem messagesIn_append (received more : List (List UInt8)) :
    messagesIn received <+: messagesIn (received ++ more) := by
  unfold messagesIn decodeSpans
  rw [List.foldl_append]
  exact inbound_prefix_decodeSpans _ more

/-- The spans which the pipeline was given are what the receiver has processed. -/
theorem Serving.spans_eq {processed pending : List Completion} {decoded : List (List UInt8)}
    {spans : List FilledSpan} (hserving : Serving log sequential assembly)
    (hdelivered : Delivered processed pending decoded assembly)
    (hdecoding : Decoding spans assembly.pipeline) :
    spans.map FilledSpan.bytes = processed.filterMap Completion.received := by
  have harrived := hdecoding.arrived
  rw [hserving.joined.incoming, List.append_nil] at harrived
  rw [← harrived]
  exact hdelivered.pushed

theorem Serving.popped_prefix (hserving : Serving log sequential assembly) :
    assembly.sender.popped.map ExecutionReport.view <+:
      (sequential.runMessages (messagesIn (log.filterMap Completion.received))).outbound.map
        ExecutionReport.view := by
  obtain ⟨processed, pending, decoded, hlog, hdelivered⟩ := hserving.delivered
  obtain ⟨spans, hdecoding, hmatching⟩ := hserving.pipelined
  have hspans := hserving.spans_eq hdelivered hdecoding
  rw [← hserving.joined.popped]
  apply matching_popped hmatching
  apply hdecoding.pushed_prefix.trans
  unfold messagesOf
  rw [hspans, ← hlog, List.filterMap_append]
  exact messagesIn_append _ _

theorem Serving.answered_prefix (hserving : Serving log sequential assembly) :
    assembly.answered <+: assembly.sender.popped :=
  (hserving.inOrder.framed hserving.joined.accounted hserving.whole).pop_order

/-- At rest every report which was popped has been sent. -/
theorem Serving.answered_eq (hserving : Serving log sequential assembly)
    (hrest : assembly.AtRest) : assembly.answered = assembly.sender.popped := by
  have horder := hserving.inOrder.order
  have hsends := hrest.sends
  unfold SubmissionRing.outstanding at hsends
  simp only [List.append_eq_nil_iff] at hsends
  rw [hserving.joined.accounted.popped, hrest.sender, List.append_nil, ← horder]
  simp [answered, hsends.2]

/-- At rest everything received has been decoded, matched and popped. -/
theorem Serving.popped_eq (hserving : Serving log sequential assembly)
    (hrest : assembly.AtRest) :
    assembly.sender.popped.map ExecutionReport.view =
      (sequential.runMessages (messagesIn (log.filterMap Completion.received))).outbound.map
        ExecutionReport.view := by
  obtain ⟨processed, pending, decoded, hlog, hdelivered⟩ := hserving.delivered
  obtain ⟨spans, hdecoding, hmatching⟩ := hserving.pipelined
  have hspans := hserving.spans_eq hdelivered hdecoding
  have hpending : pending = [] := by
    have hcompleted := hdelivered.delivering.completed
    rw [hrest.receiver] at hcompleted
    exact List.map_eq_nil_iff.mp hcompleted.symm
  have hreplays := (Pipeline.replays hdecoding hmatching).complete hrest.pipeline
  rw [hserving.joined.popped] at hreplays
  rw [hreplays, ← hlog, hpending, List.append_nil]
  unfold messagesOf
  rw [hspans]
  rfl

/-- Without an error every completed send has transmitted its report. -/
theorem Serving.completedReports_eq (hserving : Serving log sequential assembly)
    (hrest : assembly.AtRest) (herrors : assembly.sender.errors = 0) :
    assembly.sender.completedReports = assembly.answered := by
  have hreaped : assembly.sender.ring.completed = [] := by
    have hsends := hrest.sends
    unfold SubmissionRing.outstanding at hsends
    simp only [List.append_eq_nil_iff, List.map_eq_nil_iff] at hsends
    exact hsends.1
  rw [hserving.inOrder.completedReports_eq herrors]
  unfold UringSender.recycledReports UringSender.unreapedReports answered
    UringSender.completions
  rw [hreaped]
  simp

theorem Serving.answers (hserving : Serving log sequential assembly) :
    Answers (log.filterMap Completion.received) sequential assembly where
  in_place := by
    rw [hserving.joined.hand, hserving.joined.raw, ← List.map_append]
    rfl
  reports := (hserving.answered_prefix.map ExecutionReport.view).trans hserving.popped_prefix
  wire := by
    rw [hserving.inOrder.wire]
    exact UringSender.flatMap_sent hserving.inOrder.sent hserving.whole
  complete hrest herrors := by
    constructor
    · rw [hserving.inOrder.wire, ← hserving.completedReports_eq hrest herrors]
      exact UringSender.flatMap_sent hserving.inOrder.sent hserving.whole
    · rw [hserving.answered_eq hrest]
      exact hserving.popped_eq hrest

end Serving

theorem serving_new (capacity : ℕ) (clock clock' : ℕ → UInt64)
    (listings : List (InstrumentId × PriceGrid)) :
    Serving [] (Engine.listed capacity clock' listings)
      (Assembly.new (Engine.listed capacity clock listings)) where
  joined := Joined.new _
  delivered := ⟨[], [], [], rfl, UringReceiver.delivering_new, rfl⟩
  pipelined := ⟨[], Decoding.new capacities _ [], Matching.new capacities []⟩
  inOrder := UringSender.inOrder_new
  whole := by
    intro c hc
    exact absurd hc (by simp [Assembly.new, UringSender.completions, UringSender.new,
      SubmissionRing.empty])

end Assembly

/-- The daemon answers what it receives as one engine does which is given the messages one
after another, however the threads and the kernel take their turns. -/
theorem run_answers (capacity : ℕ) (clock clock' : ℕ → UInt64)
    (listings : List (InstrumentId × PriceGrid)) (moves : List Assembly.Move)
    (hkernel : ∀ move ∈ moves, move.wholeSends = true) :
    Assembly.Answers
      ((Assembly.new (Engine.listed capacity clock listings)).received moves)
      (Engine.listed capacity clock' listings)
      ((Assembly.new (Engine.listed capacity clock listings)).run moves) := by
  have hserving := (Assembly.serving_new capacity clock clock' listings).run hkernel
  rw [List.nil_append] at hserving
  exact hserving.answers

/-- A bid and an ask which trades with it, in one receive. -/
def sampleReceive : List UInt8 :=
  streamBytes [.newOrder ⟨0, 1, 7, 104, 5, 0, 0, 0⟩, .newOrder ⟨0, 2, 7, 104, 3, 1, 0, 0⟩]

/-- The bytes pass through the daemon, one thread after another. -/
def sampleTurns : List Assembly.Move :=
  List.flatten
    [[.recvConsume, .recvWrite 0 sampleReceive, .recvComplete 0 80],
      List.replicate 4 .receiver, [.decoderPoll 64], List.replicate 10 (.decoder 0),
      [.enginePoll 0 64], List.replicate 6 (.engine 0), [.reveal, .reveal],
      List.replicate 9 .sender,
      [.sendConsume, .sendConsume, .sendComplete 0 48, .sendComplete 0 48],
      List.replicate 5 .sender]

def sampleAssembly : Assembly :=
  Assembly.new (Engine.listed 4 (fun _ => 0) [(0, sampleGrid)])

theorem run_answers_sampleTurns :
    (∀ move ∈ sampleTurns, move.wholeSends = true) ∧
      (sampleAssembly.run sampleTurns).sender.wire.length = 96 ∧
      (sampleAssembly.run sampleTurns).answered.map ExecutionReport.view =
        ((Engine.listed 4 (fun _ => 0) [(0, sampleGrid)]).runMessages
          (Assembly.messagesIn (sampleAssembly.received sampleTurns))).outbound.map
            ExecutionReport.view := by
  have hkernel : ∀ move ∈ sampleTurns, move.wholeSends = true := by decide +kernel
  have hrest : (sampleAssembly.run sampleTurns).AtRest :=
    ⟨by decide +kernel, by decide +kernel, by decide +kernel, by decide +kernel⟩
  have herrors : (sampleAssembly.run sampleTurns).sender.errors = 0 := by decide +kernel
  refine ⟨hkernel, by decide +kernel, ?_⟩
  unfold sampleAssembly at hrest herrors ⊢
  have hanswers := run_answers 4 (fun _ => 0) (fun _ => 0) [(0, sampleGrid)] sampleTurns hkernel
  exact (hanswers.complete hrest herrors).2

end NanoMatch
