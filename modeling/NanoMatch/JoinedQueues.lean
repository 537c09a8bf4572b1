import NanoMatch.Assembly
import NanoMatch.ScheduleIndependence
import NanoMatch.SendSlots

/-!
# The two ends of a queue

The receiver, the pipeline and the sender each hold their end of the queues between
them, and the two ends agree, whatever the order in which the threads and the kernel
move.  A span which is queued or being decoded still lies in its buffer with the bytes
it was received with, and the sender takes the reports in the order in which the engine
pushes them.
-/

namespace NanoMatch

/-! ## The receiver -/

namespace UringReceiver

variable {rx : UringReceiver} {span : RawByteSpan}

/-- The receiver thread appends at most one span, takes ids from the front, and leaves the
decoder where it is. -/
structure ReceiverMoves (rx rx' : UringReceiver) : Prop where
  pushed : ∃ spans, spans.length ≤ 1 ∧ rx'.rawQueue = rx.rawQueue ++ spans
  taken : ∃ ids, rx.retQueue = ids ++ rx'.retQueue
  decoderStage : rx'.decoderStage = rx.decoderStage

namespace ReceiverMoves

theorem of_same {rx' : UringReceiver} (hraw : rx'.rawQueue = rx.rawQueue)
    (hret : rx'.retQueue = rx.retQueue) (hstage : rx'.decoderStage = rx.decoderStage) :
    ReceiverMoves rx rx' :=
  ⟨⟨[], by simp, by rw [hraw, List.append_nil]⟩, ⟨[], by rw [hret, List.nil_append]⟩, hstage⟩

theorem armBuf (rx : UringReceiver) (id : ℕ) : ReceiverMoves rx (rx.armBuf id) := by
  unfold UringReceiver.armBuf
  split_ifs
  · exact of_same rfl rfl rfl
  · exact of_same rfl rfl rfl

theorem pushSpan (rx : UringReceiver) (span : RawByteSpan) :
    ReceiverMoves rx (rx.pushSpan span) := by
  unfold UringReceiver.pushSpan
  split_ifs
  · exact ⟨⟨[span], by simp, rfl⟩, ⟨[], rfl⟩, rfl⟩
  · exact of_same rfl rfl rfl

theorem finish {rx' : UringReceiver} (hmoves : ReceiverMoves rx rx') :
    ReceiverMoves rx rx'.finish := by
  unfold UringReceiver.finish
  split
  · exact hmoves
  · exact ⟨hmoves.pushed, hmoves.taken, hmoves.decoderStage⟩

theorem processCqe (rx : UringReceiver) (id : ℕ) (bytes : ℤ) :
    ReceiverMoves rx (rx.processCqe id bytes) := by
  unfold UringReceiver.processCqe
  split_ifs
  · have hpush := pushSpan { rx.unarm id with bytesReceived := rx.bytesReceived + bytes.toNat }
      ⟨id, bytes.toNat, id⟩
    exact ⟨hpush.pushed, hpush.taken, hpush.decoderStage⟩
  · have harm := armBuf (rx.unarm id) id
    exact ⟨harm.pushed, harm.taken, harm.decoderStage⟩
  · have harm := armBuf { rx.unarm id with errorsSeen := rx.errorsSeen + 1 } id
    exact ⟨harm.pushed, harm.taken, harm.decoderStage⟩

theorem reclaimStep (rx : UringReceiver) : ReceiverMoves rx rx.reclaimStep := by
  unfold UringReceiver.reclaimStep
  split
  · split_ifs
    · exact of_same rfl rfl rfl
    · exact of_same rfl rfl rfl
  · rename_i bufId rest hqueue
    have hreclaim : ReceiverMoves { rx with retQueue := rest }
        (UringReceiver.reclaim { rx with retQueue := rest } bufId) := by
      unfold UringReceiver.reclaim
      split_ifs
      · exact armBuf _ bufId
      · exact of_same rfl rfl rfl
    obtain ⟨ids, hids⟩ := hreclaim.taken
    refine ⟨hreclaim.pushed, ⟨bufId :: ids, ?_⟩, hreclaim.decoderStage⟩
    rw [hqueue, List.cons_append, ← hids]

theorem receiverStep (rx : UringReceiver) : ReceiverMoves rx rx.receiverStep := by
  unfold UringReceiver.receiverStep
  split
  · exact of_same rfl rfl rfl
  · exact reclaimStep rx
  · unfold UringReceiver.drainStep
    split
    · exact of_same rfl rfl rfl
    · exact (processCqe rx _ _).finish
  · exact (pushSpan rx _).finish

end ReceiverMoves

theorem filled_receiverStep (rx : UringReceiver) : rx.receiverStep.filled = rx.filled := by
  funext span
  unfold filled spanBytes
  rw [recvBufs_receiverStep]

/-- The decoder takes the first span. -/
theorem run_takeSpan {rest : List RawByteSpan} (hstage : rx.decoderStage = .idle)
    (hqueue : rx.rawQueue = span :: rest) :
    rx.run [.callDecoder 1, .decoder] =
      { rx with rawQueue := rest, decoderStage := .decoding span 0 } := by
  have hcall : rx.callDecoder 1 = { rx with decoderStage := .popping 1 } := by
    unfold callDecoder
    rw [if_pos hstage]
  change (rx.callDecoder 1).decoderStep = _
  rw [hcall]
  change popSpan { rx with decoderStage := .popping 1 } 0 = _
  unfold popSpan
  rw [show ({ rx with decoderStage := .popping 1 } : UringReceiver).rawQueue = span :: rest
    from hqueue]

/-- The decoder is done with its span and returns the buffer. -/
theorem run_returnSpan (howned : Owned [] rx) (hstage : rx.decoderStage = .decoding span 0) :
    rx.run [.decoder, .decoder] =
      { rx with
        decoder := (rx.decoder.decodeSpan (rx.spanBytes span)).1
        retQueue := rx.retQueue ++ [span.bufId]
        decoderStage := .idle } := by
  have hstep := howned.decoderStep
  have hreturn : rx.decoderStep =
      returnBuf { rx with decoder := (rx.decoder.decodeSpan (rx.spanBytes span)).1 } span 0 := by
    unfold decoderStep
    rw [hstage]
  rw [hreturn] at hstep
  change rx.decoderStep.decoderStep = _
  rw [hreturn, returnBuf_of_owned hstep]
  rfl

theorem Owned.run (howned : Owned [] rx) (moves : List Move) : Owned [] (rx.run moves) := by
  unfold UringReceiver.run
  induction moves generalizing rx with
  | nil => exact howned
  | cons move moves ih => exact ih (howned.step move)

end UringReceiver

/-! ## The pipeline -/

namespace Pipeline

/-- Nothing changes hands with the receiver, and reports are only added. -/
structure Internal (pipeline pipeline' : Pipeline) : Prop where
  incoming : pipeline'.incoming = pipeline.incoming
  raw : pipeline'.raw = pipeline.raw
  hand : pipeline'.decodePoint.inHand = pipeline.decodePoint.inHand
  returns : pipeline'.returns = pipeline.returns
  popped : pipeline'.outbound.popped = pipeline.outbound.popped
  posted : pipeline.outbound.items <+: pipeline'.outbound.items

namespace Internal

theorem refl (pipeline : Pipeline) : Internal pipeline pipeline :=
  ⟨rfl, rfl, rfl, rfl, rfl, List.prefix_rfl⟩

theorem decoderPoll (pipeline : Pipeline) (maxBatch : UInt64) :
    Internal pipeline (pipeline.decoderPoll maxBatch) := by
  unfold Pipeline.decoderPoll
  split
  · rename_i hpoint
    refine ⟨rfl, rfl, ?_, rfl, rfl, List.prefix_rfl⟩
    rw [hpoint]
    rfl
  · exact refl pipeline

theorem enginePoll (pipeline : Pipeline) (unseen : ℕ) (maxBatch : UInt64) :
    Internal pipeline (pipeline.enginePoll unseen maxBatch) := by
  unfold Pipeline.enginePoll
  split
  · exact refl pipeline
  · exact ⟨rfl, rfl, rfl, rfl, rfl, List.prefix_rfl⟩

theorem engineStep (pipeline : Pipeline) (unseen : ℕ) :
    Internal pipeline (pipeline.engineStep unseen) := by
  unfold Pipeline.engineStep
  split
  · rename_i report rest hposting
    unfold Pipeline.postReport
    cases hpush : pipeline.outbound.tryPush unseen report with
    | none => exact refl pipeline
    | some outbound =>
        refine ⟨rfl, rfl, rfl, rfl, (BoundedFifo.tryPush_spec hpush).2, ?_⟩
        simp only
        rw [(BoundedFifo.items_tryPush hpush).1]
        exact List.prefix_append _ _
  · split
    · exact ⟨rfl, rfl, rfl, rfl, rfl, List.prefix_rfl⟩
    · unfold Pipeline.finishPoll
      split
      · exact refl pipeline
      · exact ⟨rfl, rfl, rfl, rfl, rfl, List.prefix_rfl⟩

end Internal

/-- What a step of the decoder thread hands over. -/
inductive DecoderHands (pipeline pipeline' : Pipeline) : Prop where
  | nothing (hinternal : Internal pipeline pipeline')
  | took (span : FilledSpan) (raw : BoundedFifo FilledSpan) (point : DecodePoint)
      (decoder : Decoder) (unseen : ℕ) (hhand : pipeline.decodePoint.inHand = [])
      (hpop : pipeline.raw.tryPop unseen = some (span, raw)) (hpoint : point.inHand = [span])
      (hafter : pipeline' =
        { pipeline with raw := raw, decoder := decoder, decodePoint := point })
  | returned (span : FilledSpan) (returns : BoundedFifo UInt32) (left unseen : ℕ)
      (hhand : pipeline.decodePoint.inHand = [span])
      (hpush : pipeline.returns.tryPush unseen span.bufId = some returns)
      (hafter : pipeline' =
        { pipeline with returns := returns, decodePoint := .popping left })

theorem decoderStep_hands (pipeline : Pipeline) (unseen : ℕ) :
    DecoderHands pipeline (pipeline.decoderStep unseen) := by
  unfold decoderStep
  split
  · exact .nothing (.refl pipeline)
  · rename_i hpoint
    refine .nothing ⟨rfl, rfl, ?_, rfl, rfl, List.prefix_rfl⟩
    rw [hpoint]
    rfl
  · rename_i left hpoint
    have hhand : pipeline.decodePoint.inHand = [] := by
      rw [hpoint]
      rfl
    unfold popSpan
    cases hpop : pipeline.raw.tryPop unseen with
    | none => exact .nothing ⟨rfl, rfl, hhand.symm, rfl, rfl, List.prefix_rfl⟩
    | some popped =>
        rcases popped with ⟨span, raw⟩
        refine .took span raw _ _ unseen hhand hpop ?_ rfl
        split_ifs
        · rfl
        · rfl
  · rename_i span ptr left hpoint
    apply DecoderHands.nothing
    unfold decodeFrame
    simp only
    split_ifs
    · refine ⟨rfl, rfl, ?_, rfl, rfl, List.prefix_rfl⟩
      rw [hpoint]
      rfl
    · refine ⟨rfl, rfl, ?_, rfl, rfl, List.prefix_rfl⟩
      rw [hpoint]
      rfl
    · refine ⟨rfl, rfl, ?_, rfl, rfl, List.prefix_rfl⟩
      simp only
      rw [hpoint]
      cases (pipeline.decoder.parseFrame (WireHeader.read ptr) ptr).2 with
      | none => rfl
      | some msg => rfl
  · rename_i span msg ptr left hpoint
    apply DecoderHands.nothing
    unfold pushMessage
    split
    · exact .refl pipeline
    · refine ⟨rfl, rfl, ?_, rfl, rfl, List.prefix_rfl⟩
      rw [hpoint]
      rfl
  · rename_i span left hpoint
    have hhand : pipeline.decodePoint.inHand = [span] := by
      rw [hpoint]
      rfl
    unfold returnBuffer
    cases hpush : pipeline.returns.tryPush unseen span.bufId with
    | none => exact .nothing (.refl pipeline)
    | some returns => exact .returned span returns left unseen hhand hpush rfl

end Pipeline

/-! ## The sender -/

/-- What leaves the queue has been popped. -/
theorem UringSender.ThreadStep.pops {sender sender' : UringSender}
    (hstep : ThreadStep sender sender') :
    ∃ taken, sender.outQueue = taken ++ sender'.outQueue ∧
      sender'.popped = sender.popped ++ taken := by
  cases hstep with
  | flush hstage hcompleted =>
      refine ⟨[], ?_⟩
      unfold UringSender.flushSqes
      split_ifs
      · exact ⟨rfl, (List.append_nil _).symm⟩
      · exact ⟨rfl, (List.append_nil _).symm⟩
  | @pop report rest hstage hqueue => exact ⟨[report], hqueue, rfl⟩
  | _ => exact ⟨[], rfl, (List.append_nil _).symm⟩

namespace Assembly

open UringReceiver (Owned ReceiverMoves)

/-! ## The ends of the queues -/

/-- Both ends of every queue hold the same, and the decoder holds the same span.  The
reports which the sender sees are the oldest of the queue. -/
structure Joined (assembly : Assembly) : Prop where
  owned : Owned [] assembly.receiver
  accounted : UringSender.Accounted assembly.sender
  incoming : assembly.pipeline.incoming = []
  capacity : assembly.pipeline.raw.capacity = UringReceiver.rawCapacity
  raw : assembly.pipeline.raw.items = assembly.receiver.rawQueue.map assembly.receiver.filled
  hand : assembly.pipeline.decodePoint.inHand =
    assembly.receiver.decoderStage.inHand.map assembly.receiver.filled
  stage : assembly.receiver.decoderStage = .idle ∨
    ∃ span, assembly.receiver.decoderStage = .decoding span 0
  returns : assembly.pipeline.returns.items.map UInt32.toNat = assembly.receiver.retQueue
  visible : assembly.sender.outQueue <+: assembly.pipeline.outbound.items
  popped : assembly.pipeline.outbound.popped = assembly.sender.popped

namespace Joined

variable {assembly : Assembly}

theorem new (engine : Engine) : Joined (Assembly.new engine) := by
  have hraw : UringReceiver.new.rawQueue = [] := by decide +kernel
  have hret : UringReceiver.new.retQueue = [] := by decide +kernel
  have hstage : UringReceiver.new.decoderStage = .idle := by decide +kernel
  refine ⟨UringReceiver.owned_new, UringSender.accounted_new, rfl, rfl, ?_, ?_, Or.inl hstage,
    hret.symm, List.prefix_rfl, rfl⟩
  · change [] = UringReceiver.new.rawQueue.map _
    rw [hraw]
    rfl
  · change [] = UringReceiver.new.decoderStage.inHand.map _
    rw [hstage]
    rfl

/-- The kernel moves the receives, and no byte of a span changes. -/
theorem recvKernel (hjoined : Joined assembly) (move : UringReceiver.Move)
    (hraw : (assembly.receiver.step move).rawQueue = assembly.receiver.rawQueue)
    (hret : (assembly.receiver.step move).retQueue = assembly.receiver.retQueue)
    (hstage : (assembly.receiver.step move).decoderStage = assembly.receiver.decoderStage) :
    Joined { assembly with receiver := assembly.receiver.step move } := by
  have hfilled : ∀ spans : List RawByteSpan, (∀ span ∈ spans, span ∈ assembly.receiver.spans) →
      spans.map (assembly.receiver.step move).filled = spans.map assembly.receiver.filled := by
    intro spans hspans
    apply List.map_congr_left
    intro span hspan
    unfold UringReceiver.filled
    rw [hjoined.owned.spanBytes_step move (hspans span hspan)]
  refine ⟨hjoined.owned.step move, hjoined.accounted, hjoined.incoming, hjoined.capacity, ?_, ?_,
    ?_, ?_, hjoined.visible, hjoined.popped⟩
  · simp only
    rw [hraw, hfilled _ fun span hspan => List.mem_append_right _ hspan]
    exact hjoined.raw
  · simp only
    rw [hstage, hfilled _ fun span hspan => List.mem_append_left _ hspan]
    exact hjoined.hand
  · simp only
    rw [hstage]
    exact hjoined.stage
  · simp only
    rw [hret]
    exact hjoined.returns

theorem internal (hjoined : Joined assembly) {pipeline : Pipeline}
    (hinternal : Pipeline.Internal assembly.pipeline pipeline) :
    Joined { assembly with pipeline := pipeline } where
  owned := hjoined.owned
  accounted := hjoined.accounted
  incoming := hinternal.incoming.trans hjoined.incoming
  capacity := by
    simp only
    rw [hinternal.raw]
    exact hjoined.capacity
  raw := by
    simp only
    rw [hinternal.raw]
    exact hjoined.raw
  hand := hinternal.hand.trans hjoined.hand
  stage := hjoined.stage
  returns := by
    simp only
    rw [hinternal.returns]
    exact hjoined.returns
  visible := hjoined.visible.trans hinternal.posted
  popped := hinternal.popped.trans hjoined.popped

/-! ## The receiver thread -/

/-- There is always room for the span of the receiver. -/
theorem receive_pushed (hjoined : Joined assembly) {spans : List FilledSpan}
    (hspans : spans.length ≤ 1) :
    ∃ raw, { assembly.pipeline with incoming := assembly.pipeline.incoming ++ spans }.receive 0 =
        { assembly.pipeline with raw := raw } ∧
      raw.items = assembly.pipeline.raw.items ++ spans ∧
      raw.pushed = assembly.pipeline.raw.pushed ++ spans ∧
      raw.capacity = assembly.pipeline.raw.capacity := by
  have hincoming := hjoined.incoming
  cases spans with
  | nil =>
      refine ⟨assembly.pipeline.raw, ?_, (List.append_nil _).symm, (List.append_nil _).symm, rfl⟩
      unfold Pipeline.receive
      simp only [hincoming, List.append_nil]
  | cons span rest =>
      have hrest : rest = [] := by
        rw [List.length_cons] at hspans
        exact List.length_eq_zero_iff.mp (by omega)
      have hlength := hjoined.owned.length_eq
      have hroom : assembly.pipeline.raw.items.length < assembly.pipeline.raw.capacity := by
        unfold UringReceiver.kNumBufs UringReceiver.spans at hlength
        rw [List.length_append] at hlength
        rw [hjoined.raw, hjoined.capacity, List.length_map]
        unfold UringReceiver.rawCapacity
        omega
      cases hpush : assembly.pipeline.raw.tryPush 0 span with
      | none => exact absurd (BoundedFifo.full_of_tryPush hpush) (by omega)
      | some raw =>
          have hitems := BoundedFifo.items_tryPush hpush
          refine ⟨raw, ?_, ?_, ?_, hitems.2⟩
          · unfold Pipeline.receive
            simp only [hincoming, List.nil_append, hrest, hpush]
          · rw [hitems.1, hrest]
          · rw [(BoundedFifo.tryPush_spec hpush).1, hrest]

theorem pushedSpans_receiverStep (rx : UringReceiver) :
    ∃ spans, spans.length ≤ 1 ∧ rx.receiverStep.rawQueue = rx.rawQueue ++ spans ∧
      pushedSpans rx rx.receiverStep = spans.map rx.filled := by
  obtain ⟨spans, hspans, hqueue⟩ := (ReceiverMoves.receiverStep rx).pushed
  refine ⟨spans, hspans, hqueue, ?_⟩
  unfold pushedSpans
  rw [hqueue, List.drop_left, UringReceiver.filled_receiverStep]

theorem followReceiver_eq (hjoined : Joined assembly) :
    ∃ raw, followReceiver assembly.pipeline assembly.receiver assembly.receiver.receiverStep =
        { assembly.pipeline with
          raw := raw
          returns := (assembly.pipeline.returns.tryPopBatch 0
            (assembly.receiver.retQueue.length -
              assembly.receiver.receiverStep.retQueue.length)).2 } ∧
      raw.items = assembly.pipeline.raw.items ++
        pushedSpans assembly.receiver assembly.receiver.receiverStep ∧
      raw.pushed = assembly.pipeline.raw.pushed ++
        pushedSpans assembly.receiver assembly.receiver.receiverStep ∧
      raw.capacity = assembly.pipeline.raw.capacity := by
  obtain ⟨spans, hspans, -, hpushed⟩ := pushedSpans_receiverStep assembly.receiver
  have hlength : (pushedSpans assembly.receiver assembly.receiver.receiverStep).length ≤ 1 := by
    rw [hpushed, List.length_map]
    exact hspans
  obtain ⟨raw, hreceive, hitems, hall, hcapacity⟩ := hjoined.receive_pushed hlength
  refine ⟨raw, ?_, hitems, hall, hcapacity⟩
  unfold followReceiver
  simp only [Pipeline.step]
  rw [hreceive]

theorem receiverThread (hjoined : Joined assembly) :
    Joined
      { assembly with
        receiver := assembly.receiver.receiverStep
        pipeline :=
          followReceiver assembly.pipeline assembly.receiver assembly.receiver.receiverStep } := by
  obtain ⟨spans, -, hqueue, hpushed⟩ := pushedSpans_receiverStep assembly.receiver
  obtain ⟨raw, hfollow, hitems, -, hcapacity⟩ := hjoined.followReceiver_eq
  obtain ⟨ids, hids⟩ := (ReceiverMoves.receiverStep assembly.receiver).taken
  have hstage := (ReceiverMoves.receiverStep assembly.receiver).decoderStage
  rw [hfollow]
  refine ⟨hjoined.owned.receiverStep, hjoined.accounted, hjoined.incoming,
    hcapacity.trans hjoined.capacity, ?_, ?_, ?_, ?_, hjoined.visible, hjoined.popped⟩
  · simp only
    rw [hitems, hpushed, hqueue, hjoined.raw, UringReceiver.filled_receiverStep, List.map_append]
  · simp only
    rw [hstage, UringReceiver.filled_receiverStep]
    exact hjoined.hand
  · simp only
    rw [hstage]
    exact hjoined.stage
  · have hreturns := hjoined.returns
    have hcount : assembly.receiver.retQueue.length -
        assembly.receiver.receiverStep.retQueue.length = ids.length := by
      have hlength := congrArg List.length hids
      rw [List.length_append] at hlength
      omega
    have hall : ids.length ≤ assembly.pipeline.returns.items.length := by
      have hlength := congrArg List.length hreturns
      rw [hids, List.length_map, List.length_append] at hlength
      omega
    have hpop : assembly.pipeline.returns.popCount 0 ids.length = ids.length := by
      unfold BoundedFifo.popCount
      omega
    change (assembly.pipeline.returns.items.drop (assembly.pipeline.returns.popCount 0
      (assembly.receiver.retQueue.length -
        assembly.receiver.receiverStep.retQueue.length))).map UInt32.toNat = _
    rw [hcount, hpop, List.map_drop, hreturns, hids, List.drop_left]

/-! ## The decoder thread -/

theorem toNat_bufId (hjoined : Joined assembly) {span : RawByteSpan}
    (hspan : span ∈ assembly.receiver.spans) :
    (assembly.receiver.filled span).bufId.toNat = span.bufId := by
  have hplace : span.bufId ∈ [] ++ assembly.receiver.places := by
    unfold UringReceiver.places
    simp only [List.nil_append, List.mem_append]
    exact Or.inr (Or.inl (List.mem_map_of_mem hspan))
  have hlt := hjoined.owned.lt hplace
  exact UInt32.toNat_ofNat_of_lt (hlt.trans (by decide))

/-- The decoder takes a span at both ends. -/
theorem takeSpan (hjoined : Joined assembly) {span : FilledSpan} {raw : BoundedFifo FilledSpan}
    {point : DecodePoint} {unseen : ℕ} (hempty : assembly.pipeline.decodePoint.inHand = [])
    (hpop : assembly.pipeline.raw.tryPop unseen = some (span, raw))
    (hpoint : point.inHand = [span]) (decoder : Decoder) :
    Joined
      { assembly with
        receiver := assembly.receiver.run [.callDecoder 1, .decoder]
        pipeline :=
          { assembly.pipeline with raw := raw, decoder := decoder, decodePoint := point } } := by
  have hitems := BoundedFifo.items_tryPop hpop
  have hidle : assembly.receiver.decoderStage = .idle := by
    rcases hjoined.stage with hidle | ⟨other, hdecoding⟩
    · exact hidle
    · have hhand := hjoined.hand
      rw [hempty, hdecoding] at hhand
      exact absurd hhand (by simp [DecoderStage.inHand])
  have hraw := hjoined.raw
  rw [hitems.1] at hraw
  obtain ⟨first, rest, hqueue, hfirst, hrest⟩ := List.map_eq_cons_iff.mp hraw.symm
  have howned := hjoined.owned.run [.callDecoder 1, .decoder]
  rw [UringReceiver.run_takeSpan hidle hqueue] at howned ⊢
  refine ⟨howned, hjoined.accounted, hjoined.incoming, hitems.2.trans hjoined.capacity,
    hrest.symm, ?_, Or.inr ⟨first, rfl⟩, hjoined.returns, hjoined.visible, hjoined.popped⟩
  change point.inHand = [assembly.receiver.filled first]
  rw [hpoint, hfirst]

/-- The decoder returns a buffer at both ends. -/
theorem returnSpan (hjoined : Joined assembly) {span : FilledSpan} {returns : BoundedFifo UInt32}
    {left unseen : ℕ} (hspan : assembly.pipeline.decodePoint.inHand = [span])
    (hpush : assembly.pipeline.returns.tryPush unseen span.bufId = some returns) :
    Joined
      { assembly with
        receiver := assembly.receiver.run [.decoder, .decoder]
        pipeline :=
          { assembly.pipeline with returns := returns, decodePoint := .popping left } } := by
  have hhand := hjoined.hand
  rw [hspan] at hhand
  obtain ⟨held, hdecoding⟩ : ∃ held, assembly.receiver.decoderStage = .decoding held 0 := by
    rcases hjoined.stage with hidle | hdecoding
    · rw [hidle] at hhand
      exact absurd hhand (by simp [DecoderStage.inHand])
    · exact hdecoding
  rw [hdecoding] at hhand
  have hheld : span = assembly.receiver.filled held := List.singleton_inj.mp hhand
  have hid : span.bufId.toNat = held.bufId := by
    rw [hheld]
    apply hjoined.toNat_bufId
    unfold UringReceiver.spans
    rw [hdecoding]
    exact List.mem_cons_self
  have howned := hjoined.owned.run [.decoder, .decoder]
  rw [UringReceiver.run_returnSpan hjoined.owned hdecoding] at howned ⊢
  refine ⟨howned, hjoined.accounted, hjoined.incoming, hjoined.capacity, hjoined.raw, rfl,
    Or.inl rfl, ?_, hjoined.visible, hjoined.popped⟩
  simp only
  rw [(BoundedFifo.items_tryPush hpush).1, List.map_append, hjoined.returns, List.map_singleton,
    hid]

theorem decoderThread (hjoined : Joined assembly) (unseen : ℕ) :
    Joined
      { assembly with
        receiver := assembly.receiver.run
          (handOver assembly.pipeline (assembly.pipeline.decoderStep unseen))
        pipeline := assembly.pipeline.decoderStep unseen } := by
  cases assembly.pipeline.decoderStep_hands unseen with
  | nothing hinternal =>
      have hnone : handOver assembly.pipeline (assembly.pipeline.decoderStep unseen) = [] := by
        unfold handOver
        rw [hinternal.raw, hinternal.returns, if_neg (by omega), if_neg (by omega)]
      rw [hnone]
      exact hjoined.internal hinternal
  | took span raw point decoder view hempty hpop hpoint hafter =>
      rw [hafter]
      have htakes : handOver assembly.pipeline
          { assembly.pipeline with raw := raw, decoder := decoder, decodePoint := point } =
          [.callDecoder 1, .decoder] := by
        unfold handOver
        rw [if_pos]
        rw [(BoundedFifo.tryPop_spec hpop).1, List.length_append, List.length_singleton]
        omega
      rw [htakes]
      exact hjoined.takeSpan hempty hpop hpoint decoder
  | returned span returns left view hspan hpush hafter =>
      rw [hafter]
      have hreturns : handOver assembly.pipeline
          { assembly.pipeline with returns := returns, decodePoint := .popping left } =
          [.decoder, .decoder] := by
        unfold handOver
        rw [if_neg (by simp), if_pos]
        rw [(BoundedFifo.tryPush_spec hpush).1, List.length_append, List.length_singleton]
        omega
      rw [hreturns]
      exact hjoined.returnSpan hspan hpush

/-! ## The sender thread -/

theorem senderThread (hjoined : Joined assembly) :
    Joined
      { assembly with
        pipeline := followSender assembly.pipeline assembly.sender assembly.sender.threadStep
        sender := assembly.sender.threadStep } := by
  obtain ⟨taken, hqueue, hpopped⟩ := hjoined.accounted.threadStep.pops
  obtain ⟨unseen, hitems⟩ := hjoined.visible
  have hcount : assembly.sender.threadStep.popped.length - assembly.sender.popped.length =
      taken.length := by
    rw [hpopped, List.length_append]
    omega
  rw [hqueue, List.append_assoc] at hitems
  have hpop : assembly.pipeline.outbound.popCount 0 taken.length = taken.length := by
    unfold BoundedFifo.popCount
    rw [← hitems, List.length_append]
    omega
  refine ⟨hjoined.owned, hjoined.accounted.thread hjoined.accounted.threadStep, hjoined.incoming,
    hjoined.capacity, hjoined.raw, hjoined.hand, hjoined.stage, hjoined.returns, ?_, ?_⟩
  · change assembly.sender.threadStep.outQueue <+: assembly.pipeline.outbound.items.drop
      (assembly.pipeline.outbound.popCount 0
        (assembly.sender.threadStep.popped.length - assembly.sender.popped.length))
    rw [hcount, hpop, ← hitems, List.drop_left]
    exact List.prefix_append _ _
  · change assembly.pipeline.outbound.popped ++ assembly.pipeline.outbound.items.take
      (assembly.pipeline.outbound.popCount 0
        (assembly.sender.threadStep.popped.length - assembly.sender.popped.length)) = _
    rw [hcount, hpop, ← hitems, List.take_left, hpopped, hjoined.popped]

theorem reveal (hjoined : Joined assembly) :
    Joined
      { assembly with
        sender := assembly.sender.run (assembly.hidden.toList.map .arrive) } := by
  obtain ⟨unseen, hitems⟩ := hjoined.visible
  have hhidden : assembly.hidden = unseen.head? := by
    unfold hidden
    rw [← hitems, List.getElem?_append_right le_rfl, Nat.sub_self, List.head?_eq_getElem?]
  cases hunseen : unseen with
  | nil =>
      rw [hhidden, hunseen]
      exact hjoined
  | cons report rest =>
      rw [hhidden, hunseen]
      refine ⟨hjoined.owned, hjoined.accounted.step (.arrive report), hjoined.incoming,
        hjoined.capacity, hjoined.raw, hjoined.hand, hjoined.stage, hjoined.returns, ?_,
        hjoined.popped⟩
      change assembly.sender.outQueue ++ [report] <+: assembly.pipeline.outbound.items
      rw [← hitems, hunseen]
      exact ⟨rest, by simp⟩

theorem sendKernel (hjoined : Joined assembly) {tx : UringSender}
    (haccounted : UringSender.Accounted tx) (hqueue : tx.outQueue = assembly.sender.outQueue)
    (hpopped : tx.popped = assembly.sender.popped) : Joined { assembly with sender := tx } where
  owned := hjoined.owned
  accounted := haccounted
  incoming := hjoined.incoming
  capacity := hjoined.capacity
  raw := hjoined.raw
  hand := hjoined.hand
  stage := hjoined.stage
  returns := hjoined.returns
  visible := by
    simp only
    rw [hqueue]
    exact hjoined.visible
  popped := hjoined.popped.trans hpopped.symm

theorem step (hjoined : Joined assembly) (move : Move) : Joined (assembly.step move) := by
  cases move with
  | receiver => exact hjoined.receiverThread
  | recvConsume => exact hjoined.recvKernel .consume rfl rfl rfl
  | recvWrite id bytes =>
      apply hjoined.recvKernel (.write id bytes)
      · change (assembly.receiver.writeBuf id bytes).rawQueue = _
        unfold UringReceiver.writeBuf
        split_ifs <;> rfl
      · change (assembly.receiver.writeBuf id bytes).retQueue = _
        unfold UringReceiver.writeBuf
        split_ifs <;> rfl
      · change (assembly.receiver.writeBuf id bytes).decoderStage = _
        unfold UringReceiver.writeBuf
        split_ifs <;> rfl
  | recvComplete position res => exact hjoined.recvKernel (.complete position res) rfl rfl rfl
  | decoderPoll maxBatch => exact hjoined.internal (.decoderPoll _ maxBatch)
  | decoder unseen => exact hjoined.decoderThread unseen
  | enginePoll unseen maxBatch => exact hjoined.internal (.enginePoll _ unseen maxBatch)
  | engine unseen => exact hjoined.internal (.engineStep _ unseen)
  | reveal => exact hjoined.reveal
  | sender => exact hjoined.senderThread
  | sendConsume => exact hjoined.sendKernel hjoined.accounted.consume rfl rfl
  | sendComplete position res =>
      exact hjoined.sendKernel (hjoined.accounted.completeSend position res) rfl rfl

theorem run (hjoined : Joined assembly) (moves : List Move) : Joined (assembly.run moves) := by
  unfold Assembly.run
  induction moves generalizing assembly with
  | nil => exact hjoined
  | cons move moves ih => exact ih (hjoined.step move)

end Joined

end Assembly

end NanoMatch
