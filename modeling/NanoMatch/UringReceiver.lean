import NanoMatch.Decoder
import NanoMatch.SubmissionRing

/-!
# The receiver

`UringReceiver` with its ring, the kernel, and the decoder to which it hands its
buffers.  A buffer travels as its id: in the user data of a receive, in a span of
the `RawByteQueue`, in the hands of the decoder and in the `BufReturnQueue`.  A
step of the receiver reclaims one id or processes one completion; a step of the
decoder takes one span, or decodes it and returns its buffer.  The kernel writes
into a buffer between the submission of its receive and the completion.

An `assert` which fails is recorded in `failed`, and `dropped` counts the receives
given up because the submission queue is full.
-/

namespace NanoMatch

/-- `data` is the buffer the span points into. -/
structure RawByteSpan where
  data : ℕ
  len : ℕ
  bufId : ℕ
  deriving DecidableEq

/-- Where the receiver thread stands in `poll`. -/
inductive ReceiverStage where
  /-- between two calls -/
  | idle
  /-- in `reclaim_buffers` -/
  | reclaiming
  /-- in the loop over the completion queue -/
  | draining
  /-- the `RawByteQueue` was full -/
  | pushing (span : RawByteSpan)
  deriving DecidableEq

/-- Where the decoder thread stands in `poll`, with the iterations which are left. -/
inductive DecoderStage where
  | idle
  /-- at the test of the loop -/
  | popping (left : ℕ)
  /-- in `decode_span` -/
  | decoding (span : RawByteSpan) (left : ℕ)
  /-- the `BufReturnQueue` was full -/
  | returning (span : RawByteSpan) (left : ℕ)
  deriving DecidableEq

structure UringReceiver where
  ring : SubmissionRing ℕ ℤ
  pendingSqes : ℕ
  recvBufs : ℕ → List UInt8
  bufArmed : ℕ → Bool
  rawQueue : List RawByteSpan
  retQueue : List ℕ
  bytesReceived : ℕ
  cqesProcessed : ℕ
  errorsSeen : ℕ
  processed : ℕ
  stage : ReceiverStage
  decoder : Decoder
  decoderStage : DecoderStage
  failed : Bool
  dropped : ℕ

namespace UringReceiver

def kRingDepth : ℕ := 256

def kNumBufs : ℕ := 64

def kBufSize : ℕ := 4096

/-- Capacity of the `RawByteQueue`. -/
def rawCapacity : ℕ := 65536

/-- Capacity of the `BufReturnQueue`. -/
def retCapacity : ℕ := 1024

/-! ## Buffers -/

/-- The assertions of `arm_buf`. -/
def canArm (rx : UringReceiver) (id : ℕ) : Bool := decide (id < kNumBufs) && !rx.bufArmed id

def armBuf (rx : UringReceiver) (id : ℕ) : UringReceiver :=
  if rx.ring.unconsumed < kRingDepth then
    { rx with
      failed := rx.failed || !rx.canArm id
      ring := rx.ring.prepare id
      bufArmed := Function.update rx.bufArmed id true
      pendingSqes := rx.pendingSqes + 1 }
  else
    { rx with
      failed := rx.failed || !rx.canArm id
      errorsSeen := rx.errorsSeen + 1
      dropped := rx.dropped + 1 }

/-- `io_uring_submit`. -/
def submit (rx : UringReceiver) : UringReceiver :=
  { rx with ring := rx.ring.submit, pendingSqes := 0 }

/-- The receiver before `arm_all_buffers`. -/
def unarmed : UringReceiver where
  ring := SubmissionRing.empty
  pendingSqes := 0
  recvBufs := fun _ => List.replicate kBufSize 0
  bufArmed := fun _ => false
  rawQueue := []
  retQueue := []
  bytesReceived := 0
  cqesProcessed := 0
  errorsSeen := 0
  processed := 0
  stage := .idle
  decoder := Decoder.new
  decoderStage := .idle
  failed := false
  dropped := 0

def armAllBuffers (rx : UringReceiver) : UringReceiver :=
  ((List.range kNumBufs).foldl armBuf rx).submit

def new : UringReceiver := unarmed.armAllBuffers

/-! ## The receiver thread -/

/-- `try_push` to the `RawByteQueue`, and the wait if it is full. -/
def pushSpan (rx : UringReceiver) (span : RawByteSpan) : UringReceiver :=
  if rx.rawQueue.length < rawCapacity then
    { rx with rawQueue := rx.rawQueue ++ [span], stage := .draining }
  else { rx with stage := .pushing span }

/-- The beginning of `process_cqe`: the buffer is no longer in flight. -/
def unarm (rx : UringReceiver) (id : ℕ) : UringReceiver :=
  { rx with
    cqesProcessed := rx.cqesProcessed + 1
    failed := rx.failed || !decide (id < kNumBufs)
    bufArmed := Function.update rx.bufArmed id false }

def processCqe (rx : UringReceiver) (id : ℕ) (bytes : ℤ) : UringReceiver :=
  if bytes > 0 then
    pushSpan { rx.unarm id with bytesReceived := rx.bytesReceived + bytes.toNat }
      ⟨id, bytes.toNat, id⟩
  else if bytes = 0 then (rx.unarm id).armBuf id
  else armBuf { rx.unarm id with errorsSeen := rx.errorsSeen + 1 } id

/-- One iteration of `reclaim_buffers`. -/
def reclaim (rx : UringReceiver) (bufId : ℕ) : UringReceiver :=
  if bufId < kNumBufs && !rx.bufArmed bufId then rx.armBuf bufId else rx

/-- `io_uring_cqe_seen`. -/
def seen (rx : UringReceiver) : UringReceiver :=
  { rx with ring := rx.ring.seen, processed := rx.processed + 1 }

/-- What follows `process_cqe`, once it has returned. -/
def finish (rx : UringReceiver) : UringReceiver :=
  match rx.stage with
  | .pushing _ => rx
  | _ => rx.seen

/-- One test of the loop in `reclaim_buffers`, and the submission after it. -/
def reclaimStep (rx : UringReceiver) : UringReceiver :=
  match rx.retQueue with
  | [] =>
      { (if rx.pendingSqes > 0 then rx.submit else rx) with
        processed := 0
        stage := .draining }
  | bufId :: rest => reclaim { rx with retQueue := rest } bufId

/-- One test of the loop over the completion queue. -/
def drainStep (rx : UringReceiver) : UringReceiver :=
  match rx.ring.completed with
  | [] => { rx with stage := .idle }
  | (id, bytes) :: _ => (rx.processCqe id bytes).finish

def receiverStep (rx : UringReceiver) : UringReceiver :=
  match rx.stage with
  | .idle => { rx with stage := .reclaiming }
  | .reclaiming => rx.reclaimStep
  | .draining => rx.drainStep
  | .pushing span => (rx.pushSpan span).finish

/-! ## The decoder thread -/

/-- `try_push` to the `BufReturnQueue`, and the wait if it is full. -/
def returnBuf (rx : UringReceiver) (span : RawByteSpan) (left : ℕ) : UringReceiver :=
  if rx.retQueue.length < retCapacity then
    { rx with retQueue := rx.retQueue ++ [span.bufId], decoderStage := .popping left }
  else { rx with decoderStage := .returning span left }

/-- The bytes a span points to. -/
def spanBytes (rx : UringReceiver) (span : RawByteSpan) : List UInt8 :=
  (rx.recvBufs span.data).take span.len

/-- `try_pop` from the `RawByteQueue`, with an iteration left. -/
def popSpan (rx : UringReceiver) (left : ℕ) : UringReceiver :=
  match rx.rawQueue with
  | [] => { rx with decoderStage := .idle }
  | span :: rest => { rx with rawQueue := rest, decoderStage := .decoding span left }

def decoderStep (rx : UringReceiver) : UringReceiver :=
  match rx.decoderStage with
  | .idle => rx
  | .popping 0 => { rx with decoderStage := .idle }
  | .popping (left + 1) => rx.popSpan left
  | .decoding span left =>
      returnBuf { rx with decoder := (rx.decoder.decodeSpan (rx.spanBytes span)).1 } span left
  | .returning span left => rx.returnBuf span left

/-! ## Moves -/

/-- A move of one of the threads or of the kernel. -/
inductive Move where
  | receiver
  | callDecoder (maxBatch : ℕ)
  | decoder
  | consume
  | write (id : ℕ) (bytes : List UInt8)
  | complete (position : ℕ) (res : ℤ)
  deriving DecidableEq

/-- A call of `Decoder::poll`. -/
def callDecoder (rx : UringReceiver) (maxBatch : ℕ) : UringReceiver :=
  if rx.decoderStage = .idle then { rx with decoderStage := .popping maxBatch } else rx

/-- The kernel writes into the buffer of a receive which has been submitted. -/
def writeBuf (rx : UringReceiver) (id : ℕ) (bytes : List UInt8) : UringReceiver :=
  if id ∈ rx.ring.submitted ++ rx.ring.running then
    { rx with recvBufs := Function.update rx.recvBufs id bytes }
  else rx

def step (rx : UringReceiver) : Move → UringReceiver
  | .receiver => rx.receiverStep
  | .callDecoder maxBatch => rx.callDecoder maxBatch
  | .decoder => rx.decoderStep
  | .consume => { rx with ring := rx.ring.consume }
  | .write id bytes => rx.writeBuf id bytes
  | .complete position res => { rx with ring := rx.ring.complete position fun _ => res }

def run (rx : UringReceiver) (moves : List Move) : UringReceiver := moves.foldl step rx

end UringReceiver

end NanoMatch
