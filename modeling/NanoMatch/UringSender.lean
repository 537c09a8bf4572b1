import NanoMatch.Encoder
import NanoMatch.SubmissionRing

/-!
# The sender

`UringSender` with its ring, the outbound queue and the kernel.  A step of the
sender thread is one test of `poll` together with what hangs on it: the reaping of
one completion, the removal of one report from the queue, or the handling of a
report from a free slot up to its prepared entry.  Between two such steps reports
may arrive and the kernel may consume or complete sends.

The kernel transmits the first bytes of the slot when it completes a send, as many
as its result says.  The report in a `Send` and the last four fields of the state
are a record of what happened; no step depends on them.
-/

namespace NanoMatch

open Encoder

/-- A prepared entry: `slot` is its user data and names its buffer, `report` is
what it was prepared for. -/
structure Send where
  slot : ℕ
  report : ExecutionReport
  deriving DecidableEq

/-- `cqe->res`, with the bytes which went out. -/
structure SendResult where
  res : ℤ
  sent : List UInt8
  deriving DecidableEq

/-- A reaped completion; `counted` says whether it raised `errors_`. -/
structure Recycled where
  send : Send
  result : SendResult
  counted : Bool
  deriving DecidableEq

/-- Where the thread stands in `poll`. -/
inductive SenderStage where
  /-- between two calls -/
  | idle
  /-- in the first `drain_completions` -/
  | draining
  /-- at `try_pop` -/
  | popping
  /-- at the test `free_count_ == 0` -/
  | holding (report : ExecutionReport)
  /-- in the `drain_completions` of the back-pressure loop -/
  | reaping (report : ExecutionReport)
  /-- the submission queue was full: in the `drain_completions` before the second try -/
  | retrying (report : ExecutionReport) (slot : ℕ)
  /-- the end of `alloc_send_buf` -/
  | unreachable
  deriving DecidableEq

structure UringSender where
  ring : SubmissionRing Send SendResult
  pendingSqes : ℕ
  sendBufs : ℕ → List UInt8
  bufInFlight : ℕ → Bool
  freeCount : ℕ
  outQueue : List ExecutionReport
  reportsSent : ℕ
  errors : ℕ
  submitted : ℕ
  stage : SenderStage
  popped : List ExecutionReport
  sends : List Send
  recycled : List Recycled
  wire : List UInt8

namespace UringSender

def kRingDepth : ℕ := 256

def kNumSendBufs : ℕ := 256

def new : UringSender where
  ring := SubmissionRing.empty
  pendingSqes := 0
  sendBufs := fun _ => List.replicate WireExecReport.size 0
  bufInFlight := fun _ => false
  freeCount := kNumSendBufs
  outQueue := []
  reportsSent := 0
  errors := 0
  submitted := 0
  stage := .idle
  popped := []
  sends := []
  recycled := []
  wire := []

/-! ## Slots -/

/-- The first slot which is not in flight; `none` is the end which is never reached. -/
def allocSendBuf (sender : UringSender) : Option (ℕ × UringSender) :=
  ((List.range kNumSendBufs).find? fun i => !sender.bufInFlight i).map fun slot =>
    (slot,
      { sender with
        bufInFlight := Function.update sender.bufInFlight slot true
        freeCount := sender.freeCount - 1 })

def freeSendBuf (sender : UringSender) (slot : ℕ) : UringSender :=
  { sender with
    bufInFlight := Function.update sender.bufInFlight slot false
    freeCount := sender.freeCount + 1 }

/-! ## The ring -/

/-- One iteration of `drain_completions`. -/
def reap (sender : UringSender) (send : Send) (result : SendResult) : UringSender :=
  freeSendBuf
    { sender with
      ring := sender.ring.seen
      errors := if result.res < 0 then sender.errors + 1 else sender.errors
      recycled := sender.recycled ++ [⟨send, result, decide (result.res < 0)⟩] }
    send.slot

/-- The next step of `drain_completions`, which is followed by `next`. -/
def drainCompletions (sender : UringSender) (next : UringSender → UringSender) : UringSender :=
  match sender.ring.completed with
  | [] => next sender
  | (send, result) :: _ => sender.reap send result

def flushSqes (sender : UringSender) : UringSender :=
  if sender.pendingSqes > 0 then { sender with ring := sender.ring.submit, pendingSqes := 0 }
  else sender

/-- `io_uring_get_sqe` finds an entry. -/
def hasSqe (sender : UringSender) : Bool := sender.ring.unconsumed < kRingDepth

def prepSend (sender : UringSender) (report : ExecutionReport) (slot : ℕ) : UringSender :=
  { sender with
    ring := sender.ring.prepare ⟨slot, report⟩
    pendingSqes := sender.pendingSqes + 1
    submitted := sender.submitted + 1
    reportsSent := sender.reportsSent + 1
    sends := sender.sends ++ [⟨slot, report⟩]
    stage := .popping }

/-! ## The thread -/

/-- From a free slot to the prepared entry. -/
def serialise (sender : UringSender) (report : ExecutionReport) : UringSender :=
  match sender.allocSendBuf with
  | none => { sender with stage := .unreachable }
  | some (slot, sender) =>
      let sender :=
        { sender with
          sendBufs := Function.update sender.sendBufs slot (encodeExecReport report) }
      if sender.hasSqe then sender.prepSend report slot
      else { sender.flushSqes with stage := .retrying report slot }

/-- The second `io_uring_get_sqe`. -/
def retry (sender : UringSender) (report : ExecutionReport) (slot : ℕ) : UringSender :=
  if sender.hasSqe then sender.prepSend report slot
  else { sender.freeSendBuf slot with errors := sender.errors + 1, stage := .popping }

/-- `try_pop` and the exit of `poll`. -/
def popReport (sender : UringSender) : UringSender :=
  match sender.outQueue with
  | [] => { sender with stage := .idle }
  | report :: rest =>
      { sender with
        outQueue := rest
        popped := sender.popped ++ [report]
        stage := .holding report }

def threadStep (sender : UringSender) : UringSender :=
  match sender.stage with
  | .idle => { sender with submitted := 0, stage := .draining }
  | .draining =>
      sender.drainCompletions fun sender => { sender.flushSqes with stage := .popping }
  | .popping => sender.popReport
  | .holding report =>
      if sender.freeCount = 0 then { sender with stage := .reaping report }
      else sender.serialise report
  | .reaping report =>
      sender.drainCompletions fun sender => { sender with stage := .holding report }
  | .retrying report slot => sender.drainCompletions fun sender => sender.retry report slot
  | .unreachable => sender

/-! ## Moves -/

/-- A move of the thread, of the producer of the reports or of the kernel. -/
inductive Move where
  | thread
  | arrive (report : ExecutionReport)
  | consume
  | complete (position : ℕ) (res : ℤ)
  deriving DecidableEq

/-- The bytes of its slot a send with result `res` has put on the wire. -/
def transmitted (sender : UringSender) (res : ℤ) (send : Send) : List UInt8 :=
  (sender.sendBufs send.slot).take res.toNat

/-- The kernel posts the completion of the send at `position`. -/
def completeSend (sender : UringSender) (position : ℕ) (res : ℤ) : UringSender :=
  { sender with
    ring := sender.ring.complete position fun send => ⟨res, sender.transmitted res send⟩
    wire := sender.wire ++ sender.ring.running[position]?.elim [] (sender.transmitted res) }

def step (sender : UringSender) : Move → UringSender
  | .thread => sender.threadStep
  | .arrive report => { sender with outQueue := sender.outQueue ++ [report] }
  | .consume => { sender with ring := sender.ring.consume }
  | .complete position res => sender.completeSend position res

def run (sender : UringSender) (moves : List Move) : UringSender := moves.foldl step sender

theorem run_cons (sender : UringSender) (move : Move) (moves : List Move) :
    sender.run (move :: moves) = (sender.step move).run moves := rfl

theorem run_append (sender : UringSender) (moves moves' : List Move) :
    sender.run (moves ++ moves') = (sender.run moves).run moves' :=
  List.foldl_append

def sampleReport : ExecutionReport where
  kind := .cancelAck
  orderId := 1
  counterpartOrderId := 0
  execPrice := 100
  execQuantity := 0
  leavesQuantity := 0
  timestampNs := 0

end UringSender

end NanoMatch
