import NanoMatch.Pipeline
import NanoMatch.InstrumentIsolation

/-!
# Schedule independence

The reports which leave the pipeline are those of one engine to which the messages
of all spans are submitted one after another.  At every moment each thread is some
way into this sequential run: what the decoder has pushed and what it has still to
push of the span in its hands are the messages of the spans it has popped, and what
the engine has pushed and what it has still to push are the reports of the messages
it has dispatched.
-/

namespace NanoMatch

open Decoder OrderBook

/-! ## Decoding in pieces -/

namespace Decoder

/-- Neither the bound nor the count changes what is decoded. -/
theorem decodeLoop_bound {bound bound' : ℕ} (decoder : Decoder) (count count' : ℕ)
    {ptr : List UInt8} (hbound : ptr.length ≤ bound) (hbound' : ptr.length ≤ bound') :
    (decodeLoop bound (decoder, count) ptr).1 = (decodeLoop bound' (decoder, count') ptr).1 := by
  have hshort : ∀ bound decoder count, (decodeLoop bound (decoder, count) []).1 = decoder := by
    intro bound decoder count
    cases bound with
    | zero => rfl
    | succ bound => rfl
  induction bound generalizing bound' decoder count count' ptr with
  | zero =>
      rw [List.length_eq_zero_iff.mp (Nat.le_zero.mp hbound), hshort, hshort]
  | succ bound ih =>
      cases bound' with
      | zero => rw [List.length_eq_zero_iff.mp (Nat.le_zero.mp hbound'), hshort, hshort]
      | succ bound' =>
          rw [decodeLoop, decodeLoop]
          simp only
          split_ifs with hheader hcorrupt
          · rfl
          · rfl
          · have hlength : (ptr.drop (WireHeader.read ptr).msgLen.toNat).length + 4 ≤
                ptr.length := by
              unfold WireHeader.size at hheader hcorrupt
              rw [List.length_drop]
              omega
            cases hparsed : (decoder.parseFrame (WireHeader.read ptr) ptr).2 with
            | none => exact ih _ _ _ (by omega) (by omega)
            | some msg => exact ih _ _ _ (by omega) (by omega)

/-- The decoder after the rest of a span. -/
def decodeRest (decoder : Decoder) (ptr : List UInt8) : Decoder :=
  (decodeLoop ptr.length (decoder, 0) ptr).1

theorem decodeRest_short (decoder : Decoder) {ptr : List UInt8}
    (hshort : ptr.length < WireHeader.size) : decoder.decodeRest ptr = decoder := by
  unfold decodeRest
  cases hlength : ptr.length with
  | zero => rfl
  | succ bound => rw [decodeLoop, if_pos hshort]

variable {decoder : Decoder} {ptr : List UInt8}

theorem decodeRest_corrupt (hshort : ¬ ptr.length < WireHeader.size)
    (hcorrupt : (WireHeader.read ptr).msgLen.toNat < WireHeader.size ∨
      ptr.length < (WireHeader.read ptr).msgLen.toNat) :
    decoder.decodeRest ptr = decoder.countError := by
  unfold decodeRest
  cases hlength : ptr.length with
  | zero => simp [hlength, WireHeader.size] at hshort
  | succ bound => rw [decodeLoop, if_neg hshort, if_pos hcorrupt]

theorem decodeRest_frame (hshort : ¬ ptr.length < WireHeader.size)
    (hfits : ¬ ((WireHeader.read ptr).msgLen.toNat < WireHeader.size ∨
      ptr.length < (WireHeader.read ptr).msgLen.toNat)) :
    decoder.decodeRest ptr =
      ((decoder.parseFrame (WireHeader.read ptr) ptr).1.accept 0
        (decoder.parseFrame (WireHeader.read ptr) ptr).2).1.decodeRest
          (ptr.drop (WireHeader.read ptr).msgLen.toNat) := by
  have hdrop : (ptr.drop (WireHeader.read ptr).msgLen.toNat).length + 4 ≤ ptr.length := by
    unfold WireHeader.size at hshort hfits
    rw [List.length_drop]
    omega
  unfold decodeRest
  cases hlength : ptr.length with
  | zero => omega
  | succ bound =>
      rw [decodeLoop, if_neg hshort]
      simp only
      rw [if_neg hfits]
      exact decodeLoop_bound _ _ _ (by omega) le_rfl

theorem decodeSpan_decodeRest (decoder : Decoder) (span : List UInt8) :
    (decoder.decodeSpan span).1 =
      { decoder with spansSeen := decoder.spansSeen + 1 }.decodeRest span := by
  rw [decodeSpan_eq]
  rfl

theorem decodeSpans_append (decoder : Decoder) (spans : List (List UInt8)) (span : List UInt8) :
    decoder.decodeSpans (spans ++ [span]) = ((decoder.decodeSpans spans).decodeSpan span).1 := by
  simp [decodeSpans]

theorem inbound_prefix_decodeSpans (decoder : Decoder) (spans : List (List UInt8)) :
    decoder.inbound <+: (decoder.decodeSpans spans).inbound := by
  rcases decoder.decodeSpans_wireSizes spans with ⟨msgs, hmsgs, _⟩
  exact ⟨msgs, hmsgs.symm⟩

theorem inbound_prefix_decodeRest (decoder : Decoder) (ptr : List UInt8) :
    decoder.inbound <+: (decoder.decodeRest ptr).inbound := by
  rcases decodeLoop_wireSizes ptr.length (decoder, 0) ptr with ⟨msgs, hmsgs, _⟩
  exact ⟨msgs, hmsgs.symm⟩

end Decoder

theorem messagesOf_append (spans more : List FilledSpan) :
    messagesOf spans <+: messagesOf (spans ++ more) := by
  unfold messagesOf
  have hsplit : Decoder.new.decodeSpans ((spans ++ more).map FilledSpan.bytes) =
      (Decoder.new.decodeSpans (spans.map FilledSpan.bytes)).decodeSpans
        (more.map FilledSpan.bytes) := by
    simp [decodeSpans]
  rw [hsplit]
  exact inbound_prefix_decodeSpans _ _

/-! ## Reports are only appended -/

section Appended

variable {msg : InboundOrderMsg} {s s' : Snapshot}

theorem Posted.outbound_prefix {reports : List ExecutionReport} {rejections : ℕ}
    (hposted : Posted reports rejections s s') : s.engine.outbound <+: s'.engine.outbound :=
  ⟨reports, hposted.outbound_eq.symm⟩

theorem Swept.outbound_prefix {instrumentId : InstrumentId} {agg : Slot} {priceOk : Price → Bool}
    (hswept : Swept instrumentId agg priceOk s s') :
    s.engine.outbound <+: s'.engine.outbound := by
  apply hswept.induction (fun t => s.engine.outbound <+: t.engine.outbound)
  · exact List.prefix_rfl
  · intro t t' maker level behind htraded _ ih
    rw [htraded.outbound]
    exact ih.trans (List.prefix_append _ _)

theorem Ends.outbound_prefix {grid : PriceGrid} {slot : Slot} {fate : Fate}
    (hends : Ends msg grid slot s s' fate) : s.engine.outbound <+: s'.engine.outbound := by
  cases fate with
  | released =>
      have hreleased : Released slot s s' := hends
      rw [hreleased.outbound_eq]
  | acked =>
      rcases hends with ⟨s₁, _, hposted, hreleased⟩
      rw [hreleased.outbound_eq]
      exact hposted.outbound_prefix
  | rested =>
      have hrested : Rested _ _ _ s s' := hends
      rw [hrested.outbound_eq]
  | lost => rw [show s' = s from hends]

theorem NewOrderStep.outbound_prefix (hstep : NewOrderStep msg s s') :
    s.engine.outbound <+: s'.engine.outbound := by
  rcases hstep.phases with ⟨_, _, hposted⟩ | ⟨slot, book, s₁, _, hadmitted, hphases⟩
  · exact hposted.outbound_prefix
  · rw [← hadmitted.outbound_eq]
    rcases hphases with ⟨_, s₂, _, hposted, hreleased⟩ | ⟨_, s₂, hswept, hends⟩
    · rw [hreleased.outbound_eq]
      exact hposted.outbound_prefix
    · exact hswept.outbound_prefix.trans hends.outbound_prefix

theorem MessageStep.outbound_prefix (hstep : MessageStep msg s s') :
    s.engine.outbound <+: s'.engine.outbound := by
  cases hstep with
  | newOrder s₁ _ hstep hcounted => exact hstep.outbound_prefix.trans hcounted.outbound_prefix
  | cancel s₁ _ hstep hcounted =>
      apply List.IsPrefix.trans _ hcounted.outbound_prefix
      cases hstep with
      | ignored hsame => rw [hsame]
      | cancelled slot book side level before after s₂ s₃ _ _ _ _ hremoved hposted hreleased =>
          rw [hreleased.outbound_eq, ← hremoved.outbound_eq]
          exact hposted.outbound_prefix
  | ignored _ _ hcounted => exact hcounted.outbound_prefix

end Appended

/-! ## Two engines -/

/-- Two engines which have posted the same reports and will post the same reports. -/
structure Twins (s t : Snapshot) : Prop where
  mirrors : ∀ instrumentId, Mirrors instrumentId s t
  free : s.free.length = t.free.length
  reports : s.engine.outbound.map ExecutionReport.view =
    t.engine.outbound.map ExecutionReport.view

namespace Twins

variable {s t s' t' : Snapshot} {msg : InboundOrderMsg}

theorem message (htwins : Twins s t) (hs : MessageStep msg s s') (ht : MessageStep msg t t') :
    Twins s' t' := by
  have hfree := htwins.free
  have hempty : t.free = [] ↔ s.free = [] := by
    rw [← List.length_eq_zero_iff, ← List.length_eq_zero_iff, hfree]
  have hstep := hs.inStep ht (htwins.mirrors msg.instrumentId) fun _ _ => hempty
  constructor
  · intro instrumentId
    by_cases heq : instrumentId = msg.instrumentId
    · rw [heq]
      exact hstep.mirrors
    · exact ((hs.mirrors_other heq).symm.trans (htwins.mirrors instrumentId)).trans
        (ht.mirrors_other heq)
  · have hboth := hstep.free
    omega
  · rcases hstep.reports with ⟨posted, hposted, hposted'⟩
    rw [hposted, hposted', htwins.reports]

/-- The counters of an engine do not matter. -/
theorem counted (htwins : Twins s t) {rejections : ℕ} (hcounted : Posted [] rejections s s') :
    Twins s' t where
  mirrors instrumentId := (hcounted.mirrors instrumentId).symm.trans (htwins.mirrors instrumentId)
  free := by rw [hcounted.free_eq, htwins.free]
  reports := by rw [hcounted.outbound_eq, List.append_nil, htwins.reports]

theorem recount (htwins : Twins s t) (count : ℕ) :
    ∃ s', s'.engine = { s.engine with ordersProcessed := count } ∧ Twins s' t := by
  rcases s.exists_posted { s.engine with ordersProcessed := count } [] 0 rfl rfl rfl (by simp)
    rfl rfl with ⟨s', hengine, hcounted⟩
  exact ⟨s', hengine, htwins.counted hcounted⟩

/-- One engine dispatches the message, and it is submitted to the other. -/
theorem dispatch (htwins : Twins s t) (msg : InboundOrderMsg) :
    ∃ s' t', s'.engine = s.engine.dispatch msg ∧ t'.engine = t.engine.submit msg ∧
      Twins s' t' ∧ s.engine.outbound <+: s'.engine.outbound := by
  rcases s.submit_step msg with ⟨s₁, hengine, hs⟩
  rcases t.submit_step msg with ⟨t', hengine', ht⟩
  rcases (htwins.message hs ht).recount (s.engine.dispatch msg).ordersProcessed with
    ⟨s', hrecounted, htwins'⟩
  have hdispatch : s'.engine = s.engine.dispatch msg := by
    rw [hrecounted, hengine]
    rfl
  refine ⟨s', t', hdispatch, hengine', htwins', ?_⟩
  have hprefix := hs.outbound_prefix
  rw [hengine] at hprefix
  rw [hdispatch]
  exact hprefix

end Twins

theorem Initial.twins {capacity : ℕ} {clock clock' : ℕ → UInt64}
    {listings : List (InstrumentId × PriceGrid)} {s t : Snapshot}
    (hs : Initial listings capacity clock s) (ht : Initial listings capacity clock' t) :
    Twins s t where
  mirrors := hs.mirrors ht
  free := by rw [hs.free_eq, ht.free_eq]
  reports := by rw [hs.reports.1, ht.reports.1]

theorem Snapshot.outbound_prefix_runMessages (s : Snapshot) (msgs : List InboundOrderMsg) :
    s.engine.outbound <+: (s.engine.runMessages msgs).outbound := by
  induction msgs generalizing s with
  | nil => exact List.prefix_rfl
  | cons msg msgs ih =>
      rcases s.submit_step msg with ⟨s', hengine, hstep⟩
      have hrest := ih s'
      rw [hengine] at hrest
      have hfirst := hstep.outbound_prefix
      rw [hengine] at hfirst
      exact hfirst.trans hrest

/-! ## The decoder thread -/

namespace DecodePoint

/-- The span which was popped and whose id was not yet pushed. -/
def inHand : DecodePoint → List FilledSpan
  | .idle => []
  | .popping _ => []
  | .decoding span _ _ => [span]
  | .pushing span _ _ _ => [span]
  | .returning span _ => [span]

/-- The decoder when it is through with the span in hand. -/
def finish (decoder : Decoder) : DecodePoint → Decoder
  | .idle => decoder
  | .popping _ => decoder
  | .decoding _ ptr _ => decoder.decodeRest ptr
  | .pushing _ msg ptr _ => (decoder.accept 0 (some msg)).1.decodeRest ptr
  | .returning _ _ => decoder

end DecodePoint

/-- How far the decoder thread is into the spans. -/
structure Decoding (spans : List FilledSpan) (pipeline : Pipeline) : Prop where
  arrived : pipeline.raw.pushed ++ pipeline.incoming = spans
  returned : ∃ done, pipeline.raw.popped = done ++ pipeline.decodePoint.inHand ∧
    pipeline.returns.pushed = done.map FilledSpan.bufId ∧
      messagesOf done <+: pipeline.inbound.pushed
  finish : pipeline.decodePoint.finish pipeline.decoder =
    Decoder.new.decodeSpans (pipeline.raw.popped.map FilledSpan.bytes)
  pushed : pipeline.inbound.pushed = pipeline.decoder.inbound

namespace Decoding

variable {spans : List FilledSpan} {pipeline : Pipeline} {unseen left : ℕ}

theorem new (capacities : Pipeline.Capacities) (engine : Engine) (spans : List FilledSpan) :
    Decoding spans (Pipeline.new capacities engine spans) where
  arrived := rfl
  returned := ⟨[], rfl, rfl, List.prefix_rfl⟩
  finish := rfl
  pushed := rfl

theorem receive (hdecoding : Decoding spans pipeline) :
    Decoding spans (pipeline.receive unseen) := by
  unfold Pipeline.receive
  split
  · exact hdecoding
  · rename_i span incoming hincoming
    cases hpush : pipeline.raw.tryPush unseen span with
    | none => exact hdecoding
    | some raw =>
        rcases BoundedFifo.tryPush_spec hpush with ⟨hpushed, hpopped⟩
        have harrived := hdecoding.arrived
        have hreturned := hdecoding.returned
        have hfinish := hdecoding.finish
        rw [hincoming] at harrived
        rw [← hpopped] at hreturned hfinish
        refine ⟨?_, hreturned, hfinish, hdecoding.pushed⟩
        rw [hpushed, List.append_assoc]
        exact harrived

/-- The thread goes on to another point with the same work before it. -/
theorem goto (hdecoding : Decoding spans pipeline) {point : DecodePoint}
    (hhand : point.inHand = pipeline.decodePoint.inHand)
    (hfinish : point.finish pipeline.decoder =
      pipeline.decodePoint.finish pipeline.decoder) :
    Decoding spans { pipeline with decodePoint := point } where
  arrived := hdecoding.arrived
  returned := by
    simp only
    rw [hhand]
    exact hdecoding.returned
  finish := hfinish.trans hdecoding.finish
  pushed := hdecoding.pushed

theorem popSpan (hdecoding : Decoding spans pipeline)
    (hpoint : pipeline.decodePoint = .popping (left + 1)) :
    Decoding spans (pipeline.popSpan unseen left) := by
  have hreturned := hdecoding.returned
  have hfinish := hdecoding.finish
  rw [hpoint] at hreturned hfinish
  simp only [DecodePoint.inHand, List.append_nil, DecodePoint.finish] at hreturned hfinish
  unfold Pipeline.popSpan
  cases hpop : pipeline.raw.tryPop unseen with
  | none =>
      apply hdecoding.goto
      · rw [hpoint]
        rfl
      · rw [hpoint]
        rfl
  | some popped =>
      rcases popped with ⟨span, raw⟩
      rcases BoundedFifo.tryPop_spec hpop with ⟨hpopped, hpushed⟩
      rcases hreturned with ⟨done, hdone, hids, hmsgs⟩
      constructor
      · simp only
        rw [hpushed]
        exact hdecoding.arrived
      · refine ⟨done, ?_, hids, hmsgs⟩
        simp only
        rw [hpopped, hdone]
        split_ifs <;> rfl
      · simp only
        rw [hpopped, List.map_append, List.map_singleton, decodeSpans_append,
          decodeSpan_decodeRest, ← hfinish]
        split_ifs with hempty
        · rw [hempty]
          rfl
        · rfl
      · exact hdecoding.pushed

theorem decodeFrame (hdecoding : Decoding spans pipeline) {span : FilledSpan} {ptr : List UInt8}
    (hpoint : pipeline.decodePoint = .decoding span ptr left) :
    Decoding spans (pipeline.decodeFrame span ptr left) := by
  have hreturned := hdecoding.returned
  have hfinish := hdecoding.finish
  rw [hpoint] at hreturned hfinish
  simp only [DecodePoint.finish] at hfinish
  unfold Pipeline.decodeFrame
  simp only
  split_ifs with hshort hcorrupt
  · rw [decodeRest_short _ hshort] at hfinish
    exact ⟨hdecoding.arrived, hreturned, hfinish, hdecoding.pushed⟩
  · rw [decodeRest_corrupt hshort hcorrupt] at hfinish
    exact ⟨hdecoding.arrived, hreturned, hfinish, hdecoding.pushed⟩
  · have hinbound := pipeline.decoder.parseFrame_inbound (WireHeader.read ptr) ptr
    rw [decodeRest_frame hshort hcorrupt] at hfinish
    cases hparsed : pipeline.decoder.parseFrame (WireHeader.read ptr) ptr with
    | mk decoder msg =>
        rw [hparsed] at hfinish hinbound
        have hpushed := hdecoding.pushed.trans hinbound.symm
        cases msg with
        | none => exact ⟨hdecoding.arrived, hreturned, hfinish, hpushed⟩
        | some msg => exact ⟨hdecoding.arrived, hreturned, hfinish, hpushed⟩

theorem pushMessage (hdecoding : Decoding spans pipeline) {span : FilledSpan}
    {msg : InboundOrderMsg} {ptr : List UInt8}
    (hpoint : pipeline.decodePoint = .pushing span msg ptr left) :
    Decoding spans (pipeline.pushMessage unseen span msg ptr left) := by
  have hfinish := hdecoding.finish
  unfold Pipeline.pushMessage
  cases hpush : pipeline.inbound.tryPush unseen msg with
  | none => exact hdecoding
  | some inbound =>
      rcases hdecoding.returned with ⟨done, hdone, hids, hmsgs⟩
      have hpushed := (BoundedFifo.tryPush_spec hpush).1
      rw [hpoint] at hdone hfinish
      refine ⟨hdecoding.arrived, ⟨done, hdone, hids, ?_⟩, hfinish, ?_⟩
      · simp only
        rw [hpushed]
        exact hmsgs.trans (List.prefix_append _ _)
      · simp only
        rw [hpushed, hdecoding.pushed]
        rfl

theorem returnBuffer (hdecoding : Decoding spans pipeline) {span : FilledSpan}
    (hpoint : pipeline.decodePoint = .returning span left) :
    Decoding spans (pipeline.returnBuffer unseen span left) := by
  have hfinish := hdecoding.finish
  unfold Pipeline.returnBuffer
  cases hpush : pipeline.returns.tryPush unseen span.bufId with
  | none => exact hdecoding
  | some returns =>
      rcases hdecoding.returned with ⟨done, hdone, hids, hmsgs⟩
      have hpushed := (BoundedFifo.tryPush_spec hpush).1
      rw [hpoint] at hdone hfinish
      refine ⟨hdecoding.arrived, ⟨done ++ [span], ?_, ?_, ?_⟩, hfinish, hdecoding.pushed⟩
      · rw [hdone]
        simp [DecodePoint.inHand]
      · simp only
        rw [hpushed, hids, List.map_append, List.map_singleton]
      · -- The span in hand is decoded, and its messages are all pushed.
        have hall : pipeline.decoder.inbound = messagesOf (done ++ [span]) := by
          unfold messagesOf
          rw [show done ++ [span] = pipeline.raw.popped from hdone.symm, ← hfinish]
          rfl
        rw [← hall, hdecoding.pushed]

theorem decoderPoll (hdecoding : Decoding spans pipeline) (maxBatch : UInt64) :
    Decoding spans (pipeline.decoderPoll maxBatch) := by
  unfold Pipeline.decoderPoll
  split
  · rename_i hpoint
    apply hdecoding.goto
    · rw [hpoint]
      rfl
    · rw [hpoint]
      rfl
  · exact hdecoding

theorem decoderStep (hdecoding : Decoding spans pipeline) (unseen : ℕ) :
    Decoding spans (pipeline.decoderStep unseen) := by
  unfold Pipeline.decoderStep
  split
  · exact hdecoding
  · rename_i hpoint
    apply hdecoding.goto
    · rw [hpoint]
      rfl
    · rw [hpoint]
      rfl
  · rename_i hpoint
    exact hdecoding.popSpan hpoint
  · rename_i hpoint
    exact hdecoding.decodeFrame hpoint
  · rename_i hpoint
    exact hdecoding.pushMessage hpoint
  · rename_i hpoint
    exact hdecoding.returnBuffer hpoint

end Decoding

/-! ## The engine thread -/

/-- How far the engine thread is into the messages. -/
structure Matching (sequential : Engine) (pipeline : Pipeline) : Prop where
  waiting : pipeline.polled = none → pipeline.batch = [] ∧ pipeline.posting = []
  posted : pipeline.engine.outbound = pipeline.outbound.pushed ++ pipeline.posting
  dispatched : ∃ done, pipeline.inbound.popped = done ++ pipeline.batch ∧
    ∃ s t, s.engine = pipeline.engine ∧ t.engine = sequential.runMessages done ∧ Twins s t

/-- The engine thread has not moved, and nothing was taken from its queue. -/
structure EngineWaits (pipeline pipeline' : Pipeline) : Prop where
  engine : pipeline'.engine = pipeline.engine
  polled : pipeline'.polled = pipeline.polled
  batch : pipeline'.batch = pipeline.batch
  posting : pipeline'.posting = pipeline.posting
  popped : pipeline'.inbound.popped = pipeline.inbound.popped
  pushed : pipeline'.outbound.pushed = pipeline.outbound.pushed

namespace EngineWaits

variable (pipeline : Pipeline) (unseen : ℕ)

theorem refl : EngineWaits pipeline pipeline := ⟨rfl, rfl, rfl, rfl, rfl, rfl⟩

theorem receive : EngineWaits pipeline (pipeline.receive unseen) := by
  unfold Pipeline.receive
  split
  · exact refl pipeline
  · split
    · exact refl pipeline
    · exact ⟨rfl, rfl, rfl, rfl, rfl, rfl⟩

theorem decoderPoll (maxBatch : UInt64) :
    EngineWaits pipeline (pipeline.decoderPoll maxBatch) := by
  unfold Pipeline.decoderPoll
  split
  · exact ⟨rfl, rfl, rfl, rfl, rfl, rfl⟩
  · exact refl pipeline

theorem decoderStep : EngineWaits pipeline (pipeline.decoderStep unseen) := by
  unfold Pipeline.decoderStep
  split
  · exact refl pipeline
  · exact ⟨rfl, rfl, rfl, rfl, rfl, rfl⟩
  · unfold Pipeline.popSpan
    split <;> exact ⟨rfl, rfl, rfl, rfl, rfl, rfl⟩
  · unfold Pipeline.decodeFrame
    simp only
    split_ifs <;> exact ⟨rfl, rfl, rfl, rfl, rfl, rfl⟩
  · unfold Pipeline.pushMessage
    split
    · exact refl pipeline
    · rename_i inbound hpush
      exact ⟨rfl, rfl, rfl, rfl, (BoundedFifo.tryPush_spec hpush).2, rfl⟩
  · unfold Pipeline.returnBuffer
    split
    · exact refl pipeline
    · exact ⟨rfl, rfl, rfl, rfl, rfl, rfl⟩

end EngineWaits

namespace Matching

variable {sequential : Engine} {pipeline pipeline' : Pipeline} {unseen : ℕ}

theorem new {listings : List (InstrumentId × PriceGrid)} {capacity : ℕ}
    {clock clock' : ℕ → UInt64} (capacities : Pipeline.Capacities) (spans : List FilledSpan) :
    Matching (Engine.listed capacity clock' listings)
      (Pipeline.new capacities (Engine.listed capacity clock listings) spans) := by
  rcases Snapshot.exists_initial capacity clock listings with ⟨s, hs⟩
  rcases Snapshot.exists_initial capacity clock' listings with ⟨t, ht⟩
  refine ⟨fun _ => ⟨rfl, rfl⟩, ?_, [], rfl, s, t, hs.engine_eq, ht.engine_eq, hs.twins ht⟩
  have houtbound := hs.reports.1
  rw [hs.engine_eq] at houtbound
  exact houtbound

theorem waits (hmatching : Matching sequential pipeline)
    (hwaits : EngineWaits pipeline pipeline') : Matching sequential pipeline' where
  waiting := by
    rw [hwaits.polled, hwaits.batch, hwaits.posting]
    exact hmatching.waiting
  posted := by
    rw [hwaits.engine, hwaits.pushed, hwaits.posting]
    exact hmatching.posted
  dispatched := by
    rw [hwaits.popped, hwaits.batch, hwaits.engine]
    exact hmatching.dispatched

theorem enginePoll (hmatching : Matching sequential pipeline) (maxBatch : UInt64) :
    Matching sequential (pipeline.enginePoll unseen maxBatch) := by
  unfold Pipeline.enginePoll
  split
  · exact hmatching
  · rename_i hpolled
    rcases hmatching.dispatched with ⟨done, hdone, htwins⟩
    rw [(hmatching.waiting hpolled).1, List.append_nil] at hdone
    refine ⟨fun hnone => absurd hnone (by simp), hmatching.posted, done, ?_, htwins⟩
    rw [← hdone]
    rfl

theorem postReport (hmatching : Matching sequential pipeline) {report : ExecutionReport}
    {rest : List ExecutionReport} (hposting : pipeline.posting = report :: rest) :
    Matching sequential (pipeline.postReport unseen report rest) := by
  unfold Pipeline.postReport
  cases hpush : pipeline.outbound.tryPush unseen report with
  | none => exact hmatching
  | some outbound =>
      refine ⟨?_, ?_, hmatching.dispatched⟩
      · intro hpolled
        have hnone := (hmatching.waiting hpolled).2
        rw [hposting] at hnone
        exact absurd hnone (by simp)
      · have hposted := hmatching.posted
        rw [hposting] at hposted
        simp only
        rw [hposted, (BoundedFifo.tryPush_spec hpush).1, List.append_assoc]
        rfl

theorem dispatchNext (hmatching : Matching sequential pipeline) {msg : InboundOrderMsg}
    {rest : List InboundOrderMsg} (hposting : pipeline.posting = [])
    (hbatch : pipeline.batch = msg :: rest) :
    Matching sequential (pipeline.dispatchNext msg rest) := by
  rcases hmatching.dispatched with ⟨done, hdone, s, t, hs, ht, htwins⟩
  rcases htwins.dispatch msg with ⟨s', t', hs', ht', htwins', hprefix⟩
  rw [hs', hs] at hprefix
  rw [hbatch] at hdone
  refine ⟨?_, ?_, done ++ [msg], ?_, s', t', ?_, ?_, htwins'⟩
  · intro hpolled
    have hnone := (hmatching.waiting hpolled).1
    rw [hbatch] at hnone
    exact absurd hnone (by simp)
  · have hposted := hmatching.posted
    rw [hposting, List.append_nil] at hposted
    rw [List.prefix_iff_eq_append] at hprefix
    unfold Pipeline.dispatchNext
    simp only
    rw [← hposted]
    exact hprefix.symm
  · rw [List.append_assoc]
    exact hdone
  · rw [hs', hs]
    rfl
  · rw [ht', ht]
    simp [Engine.runMessages]

theorem finishPoll (hmatching : Matching sequential pipeline) (hposting : pipeline.posting = [])
    (hbatch : pipeline.batch = []) : Matching sequential pipeline.finishPoll := by
  unfold Pipeline.finishPoll
  split
  · exact hmatching
  · rename_i n hpolled
    rcases hmatching.dispatched with ⟨done, hdone, s, t, hs, ht, htwins⟩
    rcases htwins.recount (s.engine.ordersProcessed + n) with ⟨s', hs', htwins'⟩
    rw [hs] at hs'
    exact ⟨fun _ => ⟨hbatch, hposting⟩, hmatching.posted, done, hdone, s', t, hs', ht, htwins'⟩

theorem engineStep (hmatching : Matching sequential pipeline) (unseen : ℕ) :
    Matching sequential (pipeline.engineStep unseen) := by
  unfold Pipeline.engineStep
  split
  · rename_i report rest hposting
    exact hmatching.postReport hposting
  · rename_i hposting
    split
    · rename_i msg rest hbatch
      exact hmatching.dispatchNext hposting hbatch
    · rename_i hbatch
      exact hmatching.finishPoll hposting hbatch

end Matching

/-- The decoder thread has not moved, and nothing was added to its queue. -/
structure DecoderWaits (pipeline pipeline' : Pipeline) : Prop where
  incoming : pipeline'.incoming = pipeline.incoming
  raw : pipeline'.raw = pipeline.raw
  decoder : pipeline'.decoder = pipeline.decoder
  decodePoint : pipeline'.decodePoint = pipeline.decodePoint
  pushed : pipeline'.inbound.pushed = pipeline.inbound.pushed
  returned : pipeline'.returns.pushed = pipeline.returns.pushed

namespace DecoderWaits

variable (pipeline : Pipeline) (unseen : ℕ)

theorem refl : DecoderWaits pipeline pipeline := ⟨rfl, rfl, rfl, rfl, rfl, rfl⟩

theorem enginePoll (maxBatch : UInt64) :
    DecoderWaits pipeline (pipeline.enginePoll unseen maxBatch) := by
  unfold Pipeline.enginePoll
  split
  · exact refl pipeline
  · exact ⟨rfl, rfl, rfl, rfl, rfl, rfl⟩

theorem engineStep : DecoderWaits pipeline (pipeline.engineStep unseen) := by
  unfold Pipeline.engineStep
  split
  · unfold Pipeline.postReport
    split
    · exact refl pipeline
    · exact ⟨rfl, rfl, rfl, rfl, rfl, rfl⟩
  · split
    · exact ⟨rfl, rfl, rfl, rfl, rfl, rfl⟩
    · unfold Pipeline.finishPoll
      split
      · exact refl pipeline
      · exact ⟨rfl, rfl, rfl, rfl, rfl, rfl⟩

end DecoderWaits

theorem Decoding.waits {spans : List FilledSpan} {pipeline pipeline' : Pipeline}
    (hdecoding : Decoding spans pipeline) (hwaits : DecoderWaits pipeline pipeline') :
    Decoding spans pipeline' where
  arrived := by
    rw [hwaits.raw, hwaits.incoming]
    exact hdecoding.arrived
  returned := by
    rw [hwaits.raw, hwaits.decodePoint, hwaits.returned, hwaits.pushed]
    exact hdecoding.returned
  finish := by
    rw [hwaits.decodePoint, hwaits.decoder, hwaits.raw]
    exact hdecoding.finish
  pushed := by
    rw [hwaits.pushed, hwaits.decoder]
    exact hdecoding.pushed

/-! ## Runs -/

theorem Pipeline.step_invariant {spans : List FilledSpan} {sequential : Engine}
    {pipeline : Pipeline} (hdecoding : Decoding spans pipeline)
    (hmatching : Matching sequential pipeline) (move : Pipeline.Move) :
    Decoding spans (pipeline.step move) ∧ Matching sequential (pipeline.step move) := by
  cases move with
  | receive unseen =>
      exact ⟨hdecoding.receive, hmatching.waits (.receive pipeline unseen)⟩
  | decoderPoll maxBatch =>
      exact ⟨hdecoding.decoderPoll maxBatch, hmatching.waits (.decoderPoll pipeline maxBatch)⟩
  | decoder unseen =>
      exact ⟨hdecoding.decoderStep unseen, hmatching.waits (.decoderStep pipeline unseen)⟩
  | reclaim unseen maxCount =>
      exact ⟨hdecoding.waits ⟨rfl, rfl, rfl, rfl, rfl, rfl⟩,
        hmatching.waits ⟨rfl, rfl, rfl, rfl, rfl, rfl⟩⟩
  | enginePoll unseen maxBatch =>
      exact ⟨hdecoding.waits (.enginePoll pipeline unseen maxBatch),
        hmatching.enginePoll maxBatch⟩
  | engine unseen =>
      exact ⟨hdecoding.waits (.engineStep pipeline unseen), hmatching.engineStep unseen⟩
  | consume unseen maxCount =>
      exact ⟨hdecoding.waits ⟨rfl, rfl, rfl, rfl, rfl, rfl⟩,
        hmatching.waits ⟨rfl, rfl, rfl, rfl, rfl, rfl⟩⟩

theorem Pipeline.run_invariant {spans : List FilledSpan} {sequential : Engine}
    {pipeline : Pipeline} (hdecoding : Decoding spans pipeline)
    (hmatching : Matching sequential pipeline) (moves : List Pipeline.Move) :
    Decoding spans (pipeline.run moves) ∧ Matching sequential (pipeline.run moves) := by
  unfold Pipeline.run
  induction moves generalizing pipeline with
  | nil => exact ⟨hdecoding, hmatching⟩
  | cons move moves ih =>
      rcases Pipeline.step_invariant hdecoding hmatching move with ⟨hdecoding', hmatching'⟩
      exact ih hdecoding' hmatching'

/-! ## Against the sequential run -/

/-- The pipeline is on its way through the sequential run of the spans. -/
structure Replays (spans : List FilledSpan) (sequential : Engine) (pipeline : Pipeline) :
    Prop where
  reports : pipeline.outbound.popped.map ExecutionReport.view <+:
    (sequential.runMessages (messagesOf spans)).outbound.map ExecutionReport.view
  complete : pipeline.Quiescent → pipeline.outbound.popped.map ExecutionReport.view =
    (sequential.runMessages (messagesOf spans)).outbound.map ExecutionReport.view
  returned : pipeline.returns.pushed <+: spans.map FilledSpan.bufId
  decoded : messagesOf (spans.take pipeline.returns.pushed.length) <+: pipeline.inbound.pushed

section Replay

variable {spans : List FilledSpan} {sequential : Engine} {pipeline : Pipeline}

theorem Decoding.popped_prefix (hdecoding : Decoding spans pipeline) :
    pipeline.raw.popped <+: spans := by
  rw [← hdecoding.arrived]
  exact pipeline.raw.popped_prefix.trans (List.prefix_append _ _)

theorem Decoding.pushed_prefix (hdecoding : Decoding spans pipeline) :
    pipeline.inbound.pushed <+: messagesOf spans := by
  have hfinish : pipeline.decoder.inbound <+:
      (pipeline.decodePoint.finish pipeline.decoder).inbound := by
    cases pipeline.decodePoint with
    | idle => exact List.prefix_rfl
    | popping left => exact List.prefix_rfl
    | decoding span ptr left => exact inbound_prefix_decodeRest _ ptr
    | pushing span msg ptr left =>
        have hrest := inbound_prefix_decodeRest (pipeline.decoder.accept 0 (some msg)).1 ptr
        exact (List.prefix_append _ [msg]).trans hrest
    | returning span left => exact List.prefix_rfl
  rw [hdecoding.finish, ← hdecoding.pushed] at hfinish
  rcases hdecoding.popped_prefix with ⟨more, hmore⟩
  rw [← hmore]
  exact hfinish.trans (messagesOf_append _ _)

theorem Decoding.pushed_eq (hdecoding : Decoding spans pipeline)
    (hquiescent : pipeline.Quiescent) : pipeline.inbound.pushed = messagesOf spans := by
  have hfinish := hdecoding.finish
  have harrived := hdecoding.arrived
  rw [hquiescent.decoder, BoundedFifo.popped_eq hquiescent.raw] at hfinish
  rw [hquiescent.incoming, List.append_nil] at harrived
  rw [hdecoding.pushed, ← harrived]
  exact congrArg Decoder.inbound hfinish

theorem Decoding.returned_prefix (hdecoding : Decoding spans pipeline) :
    pipeline.returns.pushed <+: spans.map FilledSpan.bufId ∧
      messagesOf (spans.take pipeline.returns.pushed.length) <+: pipeline.inbound.pushed := by
  rcases hdecoding.returned with ⟨done, hdone, hids, hmsgs⟩
  have hprefix : done <+: spans := by
    apply List.IsPrefix.trans _ hdecoding.popped_prefix
    rw [hdone]
    exact List.prefix_append _ _
  constructor
  · rw [hids]
    exact hprefix.map FilledSpan.bufId
  · rw [hids, List.length_map, ← List.prefix_iff_eq_take.mp hprefix]
    exact hmsgs

/-- The reports of the messages dispatched so far. -/
theorem Matching.posted_eq (hmatching : Matching sequential pipeline) :
    ∃ done, pipeline.inbound.popped = done ++ pipeline.batch ∧
      (pipeline.outbound.pushed ++ pipeline.posting).map ExecutionReport.view =
        (sequential.runMessages done).outbound.map ExecutionReport.view ∧
      ∀ more, (sequential.runMessages done).outbound <+:
        (sequential.runMessages (done ++ more)).outbound := by
  rcases hmatching.dispatched with ⟨done, hdone, s, t, hs, ht, htwins⟩
  refine ⟨done, hdone, ?_, ?_⟩
  · rw [← hmatching.posted, ← hs, ← ht]
    exact htwins.reports
  · intro more
    have hprefix := t.outbound_prefix_runMessages more
    rw [ht] at hprefix
    simpa [Engine.runMessages] using hprefix

theorem Pipeline.replays (hdecoding : Decoding spans pipeline)
    (hmatching : Matching sequential pipeline) : Replays spans sequential pipeline := by
  have hreturned := hdecoding.returned_prefix
  rcases hmatching.posted_eq with ⟨done, hdone, hviews, hmore⟩
  refine ⟨?_, ?_, hreturned.1, hreturned.2⟩
  · have hmsgs : done <+: messagesOf spans := by
      have hpopped := pipeline.inbound.popped_prefix
      rw [hdone] at hpopped
      exact ((List.prefix_append _ _).trans hpopped).trans hdecoding.pushed_prefix
    rcases hmsgs with ⟨more, hall⟩
    have hsequential := (hmore more).map ExecutionReport.view
    rw [hall, ← hviews] at hsequential
    have hpopped := pipeline.outbound.popped_prefix.trans
      (List.prefix_append _ pipeline.posting)
    exact (hpopped.map ExecutionReport.view).trans hsequential
  · intro hquiescent
    rcases hmatching.waiting hquiescent.engine with ⟨hbatch, hposting⟩
    rw [hbatch, List.append_nil, BoundedFifo.popped_eq hquiescent.inbound,
      hdecoding.pushed_eq hquiescent] at hdone
    rw [hposting, List.append_nil, ← hdone] at hviews
    rw [BoundedFifo.popped_eq hquiescent.outbound, hviews]

end Replay

/-- Under any interleaving, with queues of any size and any batches. -/
theorem run_replays (capacities : Pipeline.Capacities) (capacity : ℕ) (clock clock' : ℕ → UInt64)
    (listings : List (InstrumentId × PriceGrid)) (spans : List FilledSpan)
    (moves : List Pipeline.Move) :
    Replays spans (Engine.listed capacity clock' listings)
      ((Pipeline.new capacities (Engine.listed capacity clock listings) spans).run moves) := by
  rcases Pipeline.run_invariant (Decoding.new capacities _ spans)
    (Matching.new capacities spans) moves with ⟨hdecoding, hmatching⟩
  exact Pipeline.replays hdecoding hmatching

/-- A bid, then an ask which trades with it and a cancellation in one span. -/
def sampleSpans : List FilledSpan :=
  [⟨streamBytes [.newOrder ⟨0, 1, 7, 104, 5, 0, 0, 0⟩], 4⟩,
    ⟨streamBytes [.newOrder ⟨0, 2, 7, 104, 3, 1, 0, 0⟩, .cancelOrder ⟨0, 1⟩], 9⟩]

/-- Each thread moves in turn. -/
def roundRobin (rounds : ℕ) : List Pipeline.Move :=
  (List.replicate rounds
    [.receive 0, .decoderPoll 64, .decoder 0, .enginePoll 0 64, .engine 0, .consume 0 1,
      .reclaim 0 1]).flatten

/-- Queues with a single place each. -/
def samplePipeline : Pipeline :=
  Pipeline.new ⟨1, 1, 1, 1⟩ (Engine.listed 4 (fun _ => 0) [(0, sampleGrid)]) sampleSpans

theorem run_replays_roundRobin :
    (samplePipeline.run (roundRobin 15)).Quiescent ∧
      (samplePipeline.run (roundRobin 15)).outbound.popped.map ExecutionReport.view =
        ((Engine.listed 4 (fun _ => 0) [(0, sampleGrid)]).runMessages
          (messagesOf sampleSpans)).outbound.map ExecutionReport.view := by
  have hquiescent : (samplePipeline.run (roundRobin 15)).Quiescent := by decide +kernel
  refine ⟨hquiescent, ?_⟩
  unfold samplePipeline at hquiescent ⊢
  have hreplays := run_replays ⟨1, 1, 1, 1⟩ 4 (fun _ => 0) (fun _ => 0) [(0, sampleGrid)]
    sampleSpans (roundRobin 15)
  exact hreplays.complete hquiescent

end NanoMatch
