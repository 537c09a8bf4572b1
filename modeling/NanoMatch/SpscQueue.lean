import NanoMatch.CounterLog
import NanoMatch.LockStep

/-!
# The single-producer single-consumer ring

`SPSCQueue` with one producer and one consumer at work on it.  A move is one
access to shared memory: a load of an index, an access to a buffer slot or a
store of an index.  The load of the own index starts an operation.  A load of
the other side's index may be stale, so it names the position in the log of that
side's stores from which it takes its value.

The indices are never masked and wrap around at `2 ^ 64`; only the access to
the buffer masks them.
-/

namespace NanoMatch

open CounterLog

/-- The template argument `N`, a power of two which fits into `std::size_t`. -/
structure RingSize where
  bits : ℕ
  bits_lt : bits < 64

namespace RingSize

/-- `N`, also `kCapacity`. -/
def capacity (size : RingSize) : UInt64 := UInt64.ofNat (2 ^ size.bits)

/-- `kMask`. -/
def mask (size : RingSize) : UInt64 := size.capacity - 1

/-- The slot `buffer_[index & kMask]`. -/
def slot (size : RingSize) (index : UInt64) : ℕ := (index &&& size.mask).toNat

end RingSize

/-- What the producer does next.  `idle` carries the result of the last
operation, with 1 and 0 for `true` and `false`. -/
inductive Producer (T : Type) where
  | idle (returned : ℕ)
  | pushLoaded (item : T) (w : UInt64)
  | pushWriting (item : T) (w : UInt64)
  | pushStoring (item : T) (w : UInt64)
  | batchLoaded (items : List T) (w : UInt64)
  | batchWriting (items : List T) (w : UInt64) (n i : ℕ)

/-- What the consumer does next; `out` holds the items copied so far. -/
inductive Consumer (T : Type) where
  | idle (returned : ℕ)
  | popLoaded (r : UInt64)
  | popReading (r : UInt64)
  | popStoring (r : UInt64) (out : T)
  | batchLoaded (maxCount r : UInt64)
  | batchReading (r : UInt64) (n : ℕ) (out : List T)

/-- The ring with both threads.  A log lists every value an index has held, and
`producerSeen` and `consumerSeen` are the positions last observed in the log of
the other side.  `pushed` and `popped` record the items at the store which
publishes them. -/
structure SPSCQueue (T : Type) where
  buffer : ℕ → T
  writeIdx : UInt64
  readIdx : UInt64
  writeLog : List UInt64
  readLog : List UInt64
  producer : Producer T
  producerSeen : ℕ
  consumer : Consumer T
  consumerSeen : ℕ
  pushed : List T
  popped : List T

inductive Move (T : Type) where
  | tryPush (item : T)
  | tryPushBatch (items : List T)
  | producer (position : ℕ)
  | tryPop
  | tryPopBatch (maxCount : UInt64)
  | consumer (position : ℕ)

/-- Whether the producer makes the move. -/
def Move.byProducer {T : Type} : Move T → Bool
  | .tryPush _ | .tryPushBatch _ | .producer _ => true
  | .tryPop | .tryPopBatch _ | .consumer _ => false

namespace SPSCQueue

variable {T : Type}

/-- An empty queue whose indices start anywhere. -/
def empty (base : UInt64) (buffer : ℕ → T) : SPSCQueue T where
  buffer := buffer
  writeIdx := base
  readIdx := base
  writeLog := [base]
  readLog := [base]
  producer := .idle 0
  producerSeen := 0
  consumer := .idle 0
  consumerSeen := 0
  pushed := []
  popped := []

/-! ## The producer -/

/-- `write_idx_.store(w + n)` after writing `items`. -/
def storeWriteIdx (queue : SPSCQueue T) (index : UInt64) (items : List T) : SPSCQueue T :=
  { queue with
    writeIdx := index
    writeLog := queue.writeLog ++ [index]
    pushed := queue.pushed ++ items
    producer := .idle items.length }

def writeSlot (queue : SPSCQueue T) (slot : ℕ) (item : T) (producer : Producer T) :
    SPSCQueue T :=
  { queue with
    buffer := Function.update queue.buffer slot item
    producer := producer }

/-- How many of `count` items fit, in `try_push_batch`. -/
def pushCount (size : RingSize) (count w r : UInt64) : UInt64 :=
  let available := size.capacity - (w - r)
  if count < available then count else available

/-- The next access of the producer. -/
def producerStep (size : RingSize) (queue : SPSCQueue T) (position : ℕ) :
    Option (SPSCQueue T) :=
  match queue.producer with
  | .idle _ => none
  | .pushLoaded item w =>
      match observe queue.readLog queue.producerSeen position with
      | none => none
      | some r => some
          { queue with
            producerSeen := position
            producer := if w - r = size.capacity then .idle 0 else .pushWriting item w }
  | .pushWriting item w => some (queue.writeSlot (size.slot w) item (.pushStoring item w))
  | .pushStoring item w => some (queue.storeWriteIdx (w + 1) [item])
  | .batchLoaded items w =>
      match observe queue.readLog queue.producerSeen position with
      | none => none
      | some r =>
          let n := pushCount size (UInt64.ofNat items.length) w r
          some
            { queue with
              producerSeen := position
              producer := .batchWriting items w n.toNat 0 }
  | .batchWriting items w n i =>
      if i < n then
        match items[i]? with
        | none => none
        | some item => some (queue.writeSlot (size.slot (w + UInt64.ofNat i)) item
            (.batchWriting items w n (i + 1)))
      else if 0 < n then some (queue.storeWriteIdx (w + UInt64.ofNat n) (items.take n))
      else some { queue with producer := .idle 0 }

/-! ## The consumer -/

/-- `read_idx_.store(r + n)` after copying `out`. -/
def storeReadIdx (queue : SPSCQueue T) (index : UInt64) (out : List T) : SPSCQueue T :=
  { queue with
    readIdx := index
    readLog := queue.readLog ++ [index]
    popped := queue.popped ++ out
    consumer := .idle out.length }

/-- How many items are taken, in `try_pop_batch`. -/
def popCount (maxCount w r : UInt64) : UInt64 :=
  let available := w - r
  if maxCount < available then maxCount else available

/-- The next access of the consumer. -/
def consumerStep (size : RingSize) (queue : SPSCQueue T) (position : ℕ) :
    Option (SPSCQueue T) :=
  match queue.consumer with
  | .idle _ => none
  | .popLoaded r =>
      match observe queue.writeLog queue.consumerSeen position with
      | none => none
      | some w => some
          { queue with
            consumerSeen := position
            consumer := if r = w then .idle 0 else .popReading r }
  | .popReading r => some { queue with consumer := .popStoring r (queue.buffer (size.slot r)) }
  | .popStoring r out => some (queue.storeReadIdx (r + 1) [out])
  | .batchLoaded maxCount r =>
      match observe queue.writeLog queue.consumerSeen position with
      | none => none
      | some w => some
          { queue with
            consumerSeen := position
            consumer := .batchReading r (popCount maxCount w r).toNat [] }
  | .batchReading r n out =>
      if out.length < n then some
        { queue with
          consumer := .batchReading r n
            (out ++ [queue.buffer (size.slot (r + UInt64.ofNat out.length))]) }
      else if 0 < n then some (queue.storeReadIdx (r + UInt64.ofNat n) out)
      else some { queue with consumer := .idle 0 }

/-! ## Runs -/

/-- One move.  An operation starts with the load of its own index, which only
its own thread stores. -/
def step (size : RingSize) (queue : SPSCQueue T) : Move T → Option (SPSCQueue T)
  | .tryPush item =>
      match queue.producer with
      | .idle _ => some { queue with producer := .pushLoaded item queue.writeIdx }
      | _ => none
  | .tryPushBatch items =>
      match queue.producer with
      | .idle _ => some { queue with producer := .batchLoaded items queue.writeIdx }
      | _ => none
  | .producer position => queue.producerStep size position
  | .tryPop =>
      match queue.consumer with
      | .idle _ => some { queue with consumer := .popLoaded queue.readIdx }
      | _ => none
  | .tryPopBatch maxCount =>
      match queue.consumer with
      | .idle _ => some { queue with consumer := .batchLoaded maxCount queue.readIdx }
      | _ => none
  | .consumer position => queue.consumerStep size position

/-- A run, unless one of its moves is impossible where it stands. -/
def run (size : RingSize) (queue : SPSCQueue T) (moves : List (Move T)) :
    Option (SPSCQueue T) :=
  moves.foldlM (step size) queue

/-! ## What a move can change -/

/-- A move of the producer leaves the consumer's side alone and stores its index
at most once. -/
structure ProducerAccess (queue queue' : SPSCQueue T) : Prop where
  readLog : queue'.readLog = queue.readLog
  popped : queue'.popped = queue.popped
  consumerSeen : queue'.consumerSeen = queue.consumerSeen
  producerSeen : queue.producerSeen ≤ queue'.producerSeen
  stored : (queue'.writeLog = queue.writeLog ∧ queue'.pushed = queue.pushed) ∨
    (queue'.writeLog = queue.writeLog ++ [queue'.writeIdx] ∧
      ∃ items, queue'.pushed = queue.pushed ++ items)

/-- A move of the consumer leaves the producer's side alone and stores its index
at most once. -/
structure ConsumerAccess (queue queue' : SPSCQueue T) : Prop where
  writeLog : queue'.writeLog = queue.writeLog
  pushed : queue'.pushed = queue.pushed
  producerSeen : queue'.producerSeen = queue.producerSeen
  consumerSeen : queue.consumerSeen ≤ queue'.consumerSeen
  stored : (queue'.readLog = queue.readLog ∧ queue'.popped = queue.popped) ∨
    (queue'.readLog = queue.readLog ++ [queue'.readIdx] ∧
      ∃ items, queue'.popped = queue.popped ++ items)

variable {size : RingSize} {queue queue' : SPSCQueue T}

theorem ProducerAccess.silent (queue : SPSCQueue T) (buffer : ℕ → T) {seen : ℕ}
    (hseen : queue.producerSeen ≤ seen) (producer : Producer T) :
    queue.ProducerAccess
      { queue with buffer := buffer, producerSeen := seen, producer := producer } :=
  ⟨rfl, rfl, rfl, hseen, .inl ⟨rfl, rfl⟩⟩

theorem ConsumerAccess.silent (queue : SPSCQueue T) {seen : ℕ}
    (hseen : queue.consumerSeen ≤ seen) (consumer : Consumer T) :
    queue.ConsumerAccess { queue with consumerSeen := seen, consumer := consumer } :=
  ⟨rfl, rfl, rfl, hseen, .inl ⟨rfl, rfl⟩⟩

theorem producerStep_access {position : ℕ}
    (hstep : queue.producerStep size position = some queue') : queue.ProducerAccess queue' := by
  unfold producerStep at hstep
  cases hcase : queue.producer with
  | idle returned => simp [hcase] at hstep
  | pushLoaded item w =>
      cases hload : observe queue.readLog queue.producerSeen position with
      | none => simp [hcase, hload] at hstep
      | some r =>
          simp only [hcase, hload, Option.some.injEq] at hstep
          subst hstep
          exact .silent queue _ (le_of_observe hload) _
  | pushWriting item w =>
      simp only [hcase, Option.some.injEq] at hstep
      subst hstep
      exact .silent queue _ le_rfl _
  | pushStoring item w =>
      simp only [hcase, Option.some.injEq] at hstep
      subst hstep
      exact ⟨rfl, rfl, rfl, le_rfl, .inr ⟨rfl, _, rfl⟩⟩
  | batchLoaded items w =>
      cases hload : observe queue.readLog queue.producerSeen position with
      | none => simp [hcase, hload] at hstep
      | some r =>
          simp only [hcase, hload, Option.some.injEq] at hstep
          subst hstep
          exact .silent queue _ (le_of_observe hload) _
  | batchWriting items w n i =>
      simp only [hcase] at hstep
      split_ifs at hstep
      · split at hstep <;> cases hstep
        exact .silent queue _ le_rfl _
      · cases hstep
        exact ⟨rfl, rfl, rfl, le_rfl, .inr ⟨rfl, _, rfl⟩⟩
      · cases hstep
        exact .silent queue _ le_rfl _

theorem consumerStep_access {position : ℕ}
    (hstep : queue.consumerStep size position = some queue') : queue.ConsumerAccess queue' := by
  unfold consumerStep at hstep
  cases hcase : queue.consumer with
  | idle returned => simp [hcase] at hstep
  | popLoaded r =>
      cases hload : observe queue.writeLog queue.consumerSeen position with
      | none => simp [hcase, hload] at hstep
      | some w =>
          simp only [hcase, hload, Option.some.injEq] at hstep
          subst hstep
          exact .silent queue (le_of_observe hload) _
  | popReading r =>
      simp only [hcase, Option.some.injEq] at hstep
      subst hstep
      exact .silent queue le_rfl _
  | popStoring r out =>
      simp only [hcase, Option.some.injEq] at hstep
      subst hstep
      exact ⟨rfl, rfl, rfl, le_rfl, .inr ⟨rfl, _, rfl⟩⟩
  | batchLoaded maxCount r =>
      cases hload : observe queue.writeLog queue.consumerSeen position with
      | none => simp [hcase, hload] at hstep
      | some w =>
          simp only [hcase, hload, Option.some.injEq] at hstep
          subst hstep
          exact .silent queue (le_of_observe hload) _
  | batchReading r n out =>
      simp only [hcase] at hstep
      split_ifs at hstep
      · cases hstep
        exact .silent queue le_rfl _
      · cases hstep
        exact ⟨rfl, rfl, rfl, le_rfl, .inr ⟨rfl, _, rfl⟩⟩
      · cases hstep
        exact .silent queue le_rfl _

theorem step_access {move : Move T} (hstep : queue.step size move = some queue') :
    (move.byProducer ∧ queue.ProducerAccess queue') ∨
      (¬move.byProducer ∧ queue.ConsumerAccess queue') := by
  cases move with
  | tryPush item =>
      unfold step at hstep
      cases hcase : queue.producer <;> simp only [hcase, Option.some.injEq, reduceCtorEq] at hstep
      subst hstep
      exact .inl ⟨rfl, .silent queue _ le_rfl _⟩
  | tryPushBatch items =>
      unfold step at hstep
      cases hcase : queue.producer <;> simp only [hcase, Option.some.injEq, reduceCtorEq] at hstep
      subst hstep
      exact .inl ⟨rfl, .silent queue _ le_rfl _⟩
  | producer position => exact .inl ⟨rfl, producerStep_access hstep⟩
  | tryPop =>
      unfold step at hstep
      cases hcase : queue.consumer <;> simp only [hcase, Option.some.injEq, reduceCtorEq] at hstep
      subst hstep
      exact .inr ⟨Bool.false_ne_true, .silent queue le_rfl _⟩
  | tryPopBatch maxCount =>
      unfold step at hstep
      cases hcase : queue.consumer <;> simp only [hcase, Option.some.injEq, reduceCtorEq] at hstep
      subst hstep
      exact .inr ⟨Bool.false_ne_true, .silent queue le_rfl _⟩
  | consumer position => exact .inr ⟨Bool.false_ne_true, consumerStep_access hstep⟩

/-! ## Neither side moves the other -/

theorem producer_consumerStep {position : ℕ}
    (hstep : queue.consumerStep size position = some queue') :
    queue'.producer = queue.producer := by
  unfold consumerStep at hstep
  split at hstep
  · cases hstep
  · split at hstep <;> cases hstep
    rfl
  · cases hstep
    rfl
  · cases hstep
    rfl
  · split at hstep <;> cases hstep
    rfl
  · split_ifs at hstep <;> cases hstep <;> rfl

theorem consumer_producerStep {position : ℕ}
    (hstep : queue.producerStep size position = some queue') :
    queue'.consumer = queue.consumer := by
  unfold producerStep at hstep
  split at hstep
  · cases hstep
  · split at hstep <;> cases hstep
    rfl
  · cases hstep
    rfl
  · cases hstep
    rfl
  · split at hstep <;> cases hstep
    rfl
  · split_ifs at hstep
    · split at hstep <;> cases hstep
      rfl
    · cases hstep
      rfl
    · cases hstep
      rfl

theorem producer_step {move : Move T} (hstep : queue.step size move = some queue')
    (hby : ¬move.byProducer) : queue'.pushed = queue.pushed ∧ queue'.producer = queue.producer := by
  cases move with
  | tryPop =>
      unfold step at hstep
      cases hcase : queue.consumer <;> simp only [hcase, Option.some.injEq, reduceCtorEq] at hstep
      subst hstep
      exact ⟨rfl, rfl⟩
  | tryPopBatch maxCount =>
      unfold step at hstep
      cases hcase : queue.consumer <;> simp only [hcase, Option.some.injEq, reduceCtorEq] at hstep
      subst hstep
      exact ⟨rfl, rfl⟩
  | consumer position => exact ⟨(consumerStep_access hstep).pushed, producer_consumerStep hstep⟩
  | _ => exact absurd rfl hby

theorem consumer_step {move : Move T} (hstep : queue.step size move = some queue')
    (hby : move.byProducer) : queue'.popped = queue.popped ∧ queue'.consumer = queue.consumer := by
  cases move with
  | tryPush item =>
      unfold step at hstep
      cases hcase : queue.producer <;> simp only [hcase, Option.some.injEq, reduceCtorEq] at hstep
      subst hstep
      exact ⟨rfl, rfl⟩
  | tryPushBatch items =>
      unfold step at hstep
      cases hcase : queue.producer <;> simp only [hcase, Option.some.injEq, reduceCtorEq] at hstep
      subst hstep
      exact ⟨rfl, rfl⟩
  | producer position => exact ⟨(producerStep_access hstep).popped, consumer_producerStep hstep⟩
  | _ => exact absurd hby Bool.false_ne_true

end SPSCQueue

end NanoMatch
