import NanoMatch.Pipeline
import NanoMatch.ReceiverDelivery
import NanoMatch.UringSender

/-!
# The assembled daemon

The four threads which `main` starts, with the two rings and the kernel behind them.
The receiver, the pipeline and the sender are models of their own, and each holds its
end of the queues between them.  A move of the daemon moves one thread, or the kernel,
and whatever that thread puts into a queue or takes from it is put or taken at the
other end as well.

The decoder pops a span when the pipeline says so, and the receiver's model follows
with a `poll` of a single span.  A report which the engine has pushed is first hidden
from the sender, until the sender's load of `write_idx_` catches up with it.
-/

namespace NanoMatch

/-- The span with the bytes which its buffer holds. -/
def UringReceiver.filled (rx : UringReceiver) (span : RawByteSpan) : FilledSpan :=
  ⟨rx.spanBytes span, UInt32.ofNat span.bufId⟩

structure Assembly where
  receiver : UringReceiver
  pipeline : Pipeline
  sender : UringSender

namespace Assembly

/-- `RawByteQueue`, `InboundQueue`, `BufReturnQueue` and `OutboundQueue`. -/
def capacities : Pipeline.Capacities :=
  ⟨UringReceiver.rawCapacity, 65536, UringReceiver.retCapacity, 65536⟩

def new (engine : Engine) : Assembly where
  receiver := UringReceiver.new
  pipeline := Pipeline.new capacities engine []
  sender := UringSender.new

inductive Move where
  | receiver
  | recvConsume
  | recvWrite (id : ℕ) (bytes : List UInt8)
  | recvComplete (position : ℕ) (res : ℤ)
  | decoderPoll (maxBatch : UInt64)
  | decoder (unseen : ℕ)
  | enginePoll (unseen : ℕ) (maxBatch : UInt64)
  | engine (unseen : ℕ)
  /-- the sender sees one more report -/
  | reveal
  | sender
  | sendConsume
  | sendComplete (position : ℕ) (res : ℤ)

/-! ## The two ends of a queue -/

/-- What a step of the decoder thread does to the queues of the receiver. -/
def handOver (before after : Pipeline) : List UringReceiver.Move :=
  if before.raw.popped.length < after.raw.popped.length then [.callDecoder 1, .decoder]
  else if before.returns.pushed.length < after.returns.pushed.length then [.decoder, .decoder]
  else []

/-- The spans which the receiver has pushed since it was `rx`. -/
def pushedSpans (rx rx' : UringReceiver) : List FilledSpan :=
  (rx'.rawQueue.drop rx.rawQueue.length).map rx'.filled

/-- The pipeline after a step of the receiver thread. -/
def followReceiver (pipeline : Pipeline) (rx rx' : UringReceiver) : Pipeline :=
  Pipeline.step
    ({ pipeline with incoming := pipeline.incoming ++ pushedSpans rx rx' }.step (.receive 0))
    (.reclaim 0 (rx.retQueue.length - rx'.retQueue.length))

/-- The pipeline after a step of the sender thread. -/
def followSender (pipeline : Pipeline) (tx tx' : UringSender) : Pipeline :=
  pipeline.step (.consume 0 (tx'.popped.length - tx.popped.length))

/-- The oldest report which the sender does not see. -/
def hidden (assembly : Assembly) : Option ExecutionReport :=
  assembly.pipeline.outbound.items[assembly.sender.outQueue.length]?

/-! ## Moves -/

def receiverMoves (assembly : Assembly) : Move → List UringReceiver.Move
  | .receiver => [.receiver]
  | .recvConsume => [.consume]
  | .recvWrite id bytes => [.write id bytes]
  | .recvComplete position res => [.complete position res]
  | .decoder unseen => handOver assembly.pipeline (assembly.pipeline.decoderStep unseen)
  | _ => []

def senderMoves (assembly : Assembly) : Move → List UringSender.Move
  | .reveal => assembly.hidden.toList.map .arrive
  | .sender => [.thread]
  | .sendConsume => [.consume]
  | .sendComplete position res => [.complete position res]
  | _ => []

def pipelineAfter (assembly : Assembly) : Move → Pipeline
  | .receiver =>
      followReceiver assembly.pipeline assembly.receiver assembly.receiver.receiverStep
  | .decoderPoll maxBatch => assembly.pipeline.step (.decoderPoll maxBatch)
  | .decoder unseen => assembly.pipeline.step (.decoder unseen)
  | .enginePoll unseen maxBatch => assembly.pipeline.step (.enginePoll unseen maxBatch)
  | .engine unseen => assembly.pipeline.step (.engine unseen)
  | .sender => followSender assembly.pipeline assembly.sender assembly.sender.threadStep
  | _ => assembly.pipeline

def step (assembly : Assembly) (move : Move) : Assembly where
  receiver := assembly.receiver.run (assembly.receiverMoves move)
  pipeline := assembly.pipelineAfter move
  sender := assembly.sender.run (assembly.senderMoves move)

def run (assembly : Assembly) (moves : List Move) : Assembly := moves.foldl step assembly

/-! ## What comes in -/

/-- The receives which the kernel completes during a run. -/
def completions (assembly : Assembly) : List Move → List Completion
  | [] => []
  | move :: moves =>
      assembly.receiver.completions (assembly.receiverMoves move) ++
        (assembly.step move).completions moves

/-- The bytes received during a run, one list for each receive. -/
def received (assembly : Assembly) (moves : List Move) : List (List UInt8) :=
  (assembly.completions moves).filterMap Completion.received

end Assembly

end NanoMatch
