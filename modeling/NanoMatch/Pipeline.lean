import NanoMatch.BoundedFifo
import NanoMatch.Decoder

/-!
# The pipeline

The decoder thread, the engine thread and the four queues around them.  A move is
one call of a `poll`, one push or pop, or one stretch of work between two of them.
A push on a full queue leaves everything as it is and is tried again.

The threads share nothing but the queues.  A dispatch which has to wait for room in
the middle of a sweep is therefore a dispatch whose reports wait, and the bytes of a
span, which stay as they are until its id is returned, travel with it.
-/

namespace NanoMatch

open Decoder

/-- A span with the bytes it points to; there are none for a null pointer. -/
structure FilledSpan where
  bytes : List UInt8
  bufId : UInt32
  deriving DecidableEq

/-- Where the decoder thread stands in `poll`, with the iterations which are left. -/
inductive DecodePoint where
  | idle
  /-- at the test of the loop -/
  | popping (left : ℕ)
  /-- in `decode_span`, before the frame at `ptr` -/
  | decoding (span : FilledSpan) (ptr : List UInt8) (left : ℕ)
  /-- at the push of a message -/
  | pushing (span : FilledSpan) (msg : InboundOrderMsg) (ptr : List UInt8) (left : ℕ)
  /-- at the push of the buffer id -/
  | returning (span : FilledSpan) (left : ℕ)
  deriving DecidableEq

/-- `incoming` are the spans the receiver has still to push.  The engine thread is in
a `poll` of `polled` messages: `batch` are those not yet dispatched and `posting` the
reports not yet pushed. -/
structure Pipeline where
  incoming : List FilledSpan
  raw : BoundedFifo FilledSpan
  decoder : Decoder
  decodePoint : DecodePoint
  inbound : BoundedFifo InboundOrderMsg
  returns : BoundedFifo UInt32
  engine : Engine
  polled : Option ℕ
  batch : List InboundOrderMsg
  posting : List ExecutionReport
  outbound : BoundedFifo ExecutionReport

namespace Pipeline

/-- The capacities of the queues. -/
structure Capacities where
  raw : ℕ
  inbound : ℕ
  returns : ℕ
  outbound : ℕ

def new (capacities : Capacities) (engine : Engine) (spans : List FilledSpan) : Pipeline where
  incoming := spans
  raw := .empty capacities.raw
  decoder := Decoder.new
  decodePoint := .idle
  inbound := .empty capacities.inbound
  returns := .empty capacities.returns
  engine := engine
  polled := none
  batch := []
  posting := []
  outbound := .empty capacities.outbound

inductive Move where
  /-- the receiver pushes its next span -/
  | receive (unseen : ℕ)
  | decoderPoll (maxBatch : UInt64)
  | decoder (unseen : ℕ)
  /-- the receiver pops buffer ids -/
  | reclaim (unseen maxCount : ℕ)
  | enginePoll (unseen : ℕ) (maxBatch : UInt64)
  | engine (unseen : ℕ)
  /-- the consumer pops reports -/
  | consume (unseen maxCount : ℕ)

/-! ## The decoder thread -/

/-- `static_cast<int>(max_batch)`, as a number of iterations. -/
def iterations (maxBatch : UInt64) : ℕ := maxBatch.toUInt32.toBitVec.toInt.toNat

def decoderPoll (pipeline : Pipeline) (maxBatch : UInt64) : Pipeline :=
  match pipeline.decodePoint with
  | .idle => { pipeline with decodePoint := .popping (iterations maxBatch) }
  | _ => pipeline

/-- `raw.try_pop(span)`, and the start of `decode_span`. -/
def popSpan (pipeline : Pipeline) (unseen left : ℕ) : Pipeline :=
  match pipeline.raw.tryPop unseen with
  | none => { pipeline with decodePoint := .idle }
  | some (span, raw) =>
      { pipeline with
        raw := raw
        decoder := { pipeline.decoder with spansSeen := pipeline.decoder.spansSeen + 1 }
        decodePoint :=
          if span.bytes = [] then .returning span left else .decoding span span.bytes left }

/-- One iteration of the loop in `decode_span`, up to the push. -/
def decodeFrame (pipeline : Pipeline) (span : FilledSpan) (ptr : List UInt8) (left : ℕ) :
    Pipeline :=
  if ptr.length < WireHeader.size then { pipeline with decodePoint := .returning span left }
  else
    let hdr := WireHeader.read ptr
    if hdr.msgLen.toNat < WireHeader.size ∨ ptr.length < hdr.msgLen.toNat then
      { pipeline with
        decoder := pipeline.decoder.countError
        decodePoint := .returning span left }
    else
      let (decoder, msg) := pipeline.decoder.parseFrame hdr ptr
      { pipeline with
        decoder := decoder
        decodePoint :=
          match msg with
          | none => .decoding span (ptr.drop hdr.msgLen.toNat) left
          | some msg => .pushing span msg (ptr.drop hdr.msgLen.toNat) left }

def pushMessage (pipeline : Pipeline) (unseen : ℕ) (span : FilledSpan) (msg : InboundOrderMsg)
    (ptr : List UInt8) (left : ℕ) : Pipeline :=
  match pipeline.inbound.tryPush unseen msg with
  | none => pipeline
  | some inbound =>
      { pipeline with
        inbound := inbound
        decoder := (pipeline.decoder.accept 0 (some msg)).1
        decodePoint := .decoding span ptr left }

def returnBuffer (pipeline : Pipeline) (unseen : ℕ) (span : FilledSpan) (left : ℕ) : Pipeline :=
  match pipeline.returns.tryPush unseen span.bufId with
  | none => pipeline
  | some returns => { pipeline with returns := returns, decodePoint := .popping left }

def decoderStep (pipeline : Pipeline) (unseen : ℕ) : Pipeline :=
  match pipeline.decodePoint with
  | .idle => pipeline
  | .popping 0 => { pipeline with decodePoint := .idle }
  | .popping (left + 1) => pipeline.popSpan unseen left
  | .decoding span ptr left => pipeline.decodeFrame span ptr left
  | .pushing span msg ptr left => pipeline.pushMessage unseen span msg ptr left
  | .returning span left => pipeline.returnBuffer unseen span left

/-! ## The engine thread -/

/-- `inbound_.try_pop_batch(batch, std::min(max_batch, 64))`. -/
def enginePoll (pipeline : Pipeline) (unseen : ℕ) (maxBatch : UInt64) : Pipeline :=
  match pipeline.polled with
  | some _ => pipeline
  | none =>
      let (batch, inbound) := pipeline.inbound.tryPopBatch unseen (min maxBatch.toNat 64)
      { pipeline with
        inbound := inbound
        polled := some batch.length
        batch := batch }

def postReport (pipeline : Pipeline) (unseen : ℕ) (report : ExecutionReport)
    (rest : List ExecutionReport) : Pipeline :=
  match pipeline.outbound.tryPush unseen report with
  | none => pipeline
  | some outbound => { pipeline with outbound := outbound, posting := rest }

/-- `dispatch(batch[i])`, with the reports it has to push. -/
def dispatchNext (pipeline : Pipeline) (msg : InboundOrderMsg) (rest : List InboundOrderMsg) :
    Pipeline :=
  let engine := pipeline.engine.dispatch msg
  { pipeline with
    engine := engine
    batch := rest
    posting := engine.outbound.drop pipeline.engine.outbound.length }

/-- `orders_processed_ += n`, after the last message of the batch. -/
def finishPoll (pipeline : Pipeline) : Pipeline :=
  match pipeline.polled with
  | none => pipeline
  | some n =>
      { pipeline with
        engine := { pipeline.engine with
          ordersProcessed := pipeline.engine.ordersProcessed + n }
        polled := none }

def engineStep (pipeline : Pipeline) (unseen : ℕ) : Pipeline :=
  match pipeline.posting with
  | report :: rest => pipeline.postReport unseen report rest
  | [] =>
      match pipeline.batch with
      | msg :: rest => pipeline.dispatchNext msg rest
      | [] => pipeline.finishPoll

/-! ## Runs -/

def receive (pipeline : Pipeline) (unseen : ℕ) : Pipeline :=
  match pipeline.incoming with
  | [] => pipeline
  | span :: incoming =>
      match pipeline.raw.tryPush unseen span with
      | none => pipeline
      | some raw => { pipeline with raw := raw, incoming := incoming }

def step (pipeline : Pipeline) : Move → Pipeline
  | .receive unseen => pipeline.receive unseen
  | .decoderPoll maxBatch => pipeline.decoderPoll maxBatch
  | .decoder unseen => pipeline.decoderStep unseen
  | .reclaim unseen maxCount =>
      { pipeline with returns := (pipeline.returns.tryPopBatch unseen maxCount).2 }
  | .enginePoll unseen maxBatch => pipeline.enginePoll unseen maxBatch
  | .engine unseen => pipeline.engineStep unseen
  | .consume unseen maxCount =>
      { pipeline with outbound := (pipeline.outbound.tryPopBatch unseen maxCount).2 }

def run (pipeline : Pipeline) (moves : List Move) : Pipeline := moves.foldl step pipeline

/-- Every span is pushed, the queues are empty and no thread is inside a batch. -/
structure Quiescent (pipeline : Pipeline) : Prop where
  incoming : pipeline.incoming = []
  raw : pipeline.raw.items = []
  inbound : pipeline.inbound.items = []
  outbound : pipeline.outbound.items = []
  decoder : pipeline.decodePoint = .idle
  engine : pipeline.polled = none

theorem quiescent_iff (pipeline : Pipeline) :
    (pipeline.incoming = [] ∧ pipeline.raw.items = [] ∧ pipeline.inbound.items = [] ∧
      pipeline.outbound.items = [] ∧ pipeline.decodePoint = .idle ∧ pipeline.polled = none) ↔
      pipeline.Quiescent := by
  constructor
  · rintro ⟨hincoming, hraw, hinbound, houtbound, hdecoder, hengine⟩
    exact ⟨hincoming, hraw, hinbound, houtbound, hdecoder, hengine⟩
  · rintro ⟨hincoming, hraw, hinbound, houtbound, hdecoder, hengine⟩
    exact ⟨hincoming, hraw, hinbound, houtbound, hdecoder, hengine⟩

instance (pipeline : Pipeline) : Decidable pipeline.Quiescent :=
  decidable_of_iff _ pipeline.quiescent_iff

end Pipeline

/-! ## One after another -/

/-- The messages of the spans, decoded one after another. -/
def messagesOf (spans : List FilledSpan) : List InboundOrderMsg :=
  (Decoder.new.decodeSpans (spans.map FilledSpan.bytes)).inbound

end NanoMatch
