import NanoMatch.SpscFifo

/-!
# The operations are wait-free

An operation of the ring is done after a fixed number of accesses of its own thread,
whatever the other side does in between and however stale its loads are.  It never has
to wait for an access either: the load of the other side's index always finds a store
which is not older than the one last seen, and the batch it has claimed is there.
-/

namespace NanoMatch

open CounterLog

variable {T : Type}

/-! ## What is left of an operation -/

/-- The accesses which the operation of the producer still makes, at most. -/
def Producer.accesses (size : RingSize) : Producer T → ℕ
  | .idle _ => 0
  | .pushLoaded _ _ => 3
  | .pushWriting _ _ => 2
  | .pushStoring _ _ => 1
  | .batchLoaded items _ => min items.length (2 ^ size.bits) + 2
  | .batchWriting _ _ n i => n - i + 1

/-- The accesses which the operation of the consumer still makes, at most. -/
def Consumer.accesses (size : RingSize) : Consumer T → ℕ
  | .idle _ => 0
  | .popLoaded _ => 3
  | .popReading _ => 2
  | .popStoring _ _ => 1
  | .batchLoaded maxCount _ => min maxCount.toNat (2 ^ size.bits) + 2
  | .batchReading _ n out => n - out.length + 1

namespace Move

/-- Whether the move begins an operation. -/
def begins : Move T → Bool
  | .tryPush _ | .tryPushBatch _ | .tryPop | .tryPopBatch _ => true
  | .producer _ | .consumer _ => false

/-- The accesses of an operation after the load of its own index, at most. -/
def accesses (size : RingSize) : Move T → ℕ
  | .tryPush _ | .tryPop => 3
  | .tryPushBatch items => min items.length (2 ^ size.bits) + 2
  | .tryPopBatch maxCount => min maxCount.toNat (2 ^ size.bits) + 2
  | .producer _ | .consumer _ => 0

/-- The next access of the thread which makes the move. -/
def next (move : Move T) (position : ℕ) : Move T :=
  if move.byProducer then .producer position else .consumer position

end Move

namespace SPSCQueue

/-- The accesses left to the operation of the producer or of the consumer. -/
def accesses (size : RingSize) (queue : SPSCQueue T) : Bool → ℕ
  | true => queue.producer.accesses size
  | false => queue.consumer.accesses size

/-- Whether the operation of the producer or of the consumer has returned. -/
def returned (queue : SPSCQueue T) : Bool → Bool
  | true => match queue.producer with
      | .idle _ => true
      | _ => false
  | false => match queue.consumer with
      | .idle _ => true
      | _ => false

variable {size : RingSize} {queue queue' : SPSCQueue T}

theorem returned_iff (size : RingSize) (queue : SPSCQueue T) (byProducer : Bool) :
    queue.returned byProducer = true ↔ queue.accesses size byProducer = 0 := by
  cases byProducer with
  | true =>
      unfold returned accesses
      cases queue.producer <;> simp [Producer.accesses]
  | false =>
      unfold returned accesses
      cases queue.consumer <;> simp [Consumer.accesses]

theorem accesses_begins {move : Move T} (hstep : queue.step size move = some queue')
    (hbegins : move.begins) : queue'.accesses size move.byProducer = move.accesses size := by
  cases move with
  | tryPush item =>
      unfold step at hstep
      cases hcase : queue.producer <;> simp only [hcase, Option.some.injEq, reduceCtorEq] at hstep
      subst hstep
      rfl
  | tryPushBatch items =>
      unfold step at hstep
      cases hcase : queue.producer <;> simp only [hcase, Option.some.injEq, reduceCtorEq] at hstep
      subst hstep
      rfl
  | tryPop =>
      unfold step at hstep
      cases hcase : queue.consumer <;> simp only [hcase, Option.some.injEq, reduceCtorEq] at hstep
      subst hstep
      rfl
  | tryPopBatch maxCount =>
      unfold step at hstep
      cases hcase : queue.consumer <;> simp only [hcase, Option.some.injEq, reduceCtorEq] at hstep
      subst hstep
      rfl
  | _ => exact absurd hbegins Bool.false_ne_true

theorem accesses_other {move : Move T} (hstep : queue.step size move = some queue')
    {byProducer : Bool} (hother : move.byProducer ≠ byProducer) :
    queue'.accesses size byProducer = queue.accesses size byProducer := by
  cases byProducer with
  | true => simp only [accesses, (producer_step hstep hother).2]
  | false =>
      have hby : move.byProducer = true := by simpa using hother
      simp only [accesses, (consumer_step hstep hby).2]

end SPSCQueue

namespace QueueInv

variable {size : RingSize} {base : UInt64} {seenReads seenWrites : ℕ}
  {queue queue' : SPSCQueue T} {position : ℕ}

/-! ## The producer -/

theorem accesses_producerStep (hinv : QueueInv size base seenReads seenWrites queue)
    (hstep : queue.producerStep size position = some queue') :
    queue'.producer.accesses size < queue.producer.accesses size := by
  have hsound := hinv.producer
  have hcounts := hinv.counts_le
  unfold SPSCQueue.producerStep at hstep
  cases hcase : queue.producer with
  | idle returned => simp [hcase] at hstep
  | pushLoaded item w =>
      cases hload : observe queue.readLog queue.producerSeen position with
      | none => simp [hcase, hload] at hstep
      | some r =>
          simp only [hcase, hload, Option.some.injEq] at hstep
          subst hstep
          simp only
          split_ifs <;> simp [Producer.accesses]
  | pushWriting item w =>
      simp only [hcase, Option.some.injEq] at hstep
      subst hstep
      simp [SPSCQueue.writeSlot, Producer.accesses]
  | pushStoring item w =>
      simp only [hcase, Option.some.injEq] at hstep
      subst hstep
      simp [SPSCQueue.storeWriteIdx, Producer.accesses]
  | batchLoaded items w =>
      rw [hcase] at hsound
      simp only [Producer.Sound] at hsound
      subst hsound
      cases hload : observe queue.readLog queue.producerSeen position with
      | none => simp [hcase, hload] at hstep
      | some r =>
          simp only [hcase, hload, Option.some.injEq] at hstep
          subst hstep
          obtain ⟨seen, hr, hseen, hle, _⟩ := hinv.readLog.load hload
          subst hr
          -- neither more than it was given nor more than the ring can hold
          obtain ⟨hlength, hroom⟩ := hinv.pushCount_le hseen hle items
          simp only [Producer.accesses]
          omega
  | batchWriting items w n i =>
      simp only [hcase] at hstep
      split_ifs at hstep with hmore hsome
      · cases hitem : items[i]? with
        | none => simp [hitem] at hstep
        | some item =>
            simp only [hitem, Option.some.injEq] at hstep
            subst hstep
            simp only [SPSCQueue.writeSlot, Producer.accesses]
            omega
      · rw [Option.some.injEq] at hstep
        subst hstep
        simp [SPSCQueue.storeWriteIdx, Producer.accesses]
      · rw [Option.some.injEq] at hstep
        subst hstep
        simp [Producer.accesses]

theorem producerStep_isSome (hinv : QueueInv size base seenReads seenWrites queue)
    (hbusy : queue.producer.accesses size ≠ 0) :
    (queue.producerStep size queue.producerSeen).isSome := by
  have hsound := hinv.producer
  have hload := hinv.readLog.observe_seen
  unfold SPSCQueue.producerStep
  cases hcase : queue.producer with
  | idle returned => simp [hcase, Producer.accesses] at hbusy
  | pushLoaded item w => simp [hload]
  | pushWriting item w => rfl
  | pushStoring item w => rfl
  | batchLoaded items w => simp [hload]
  | batchWriting items w n i =>
      rw [hcase] at hsound
      obtain ⟨_, hlength, _⟩ := hsound
      simp only
      split_ifs with hmore hsome
      · rw [List.getElem?_eq_getElem (by omega)]
        rfl
      · rfl
      · rfl

/-! ## The consumer -/

theorem accesses_consumerStep (hinv : QueueInv size base seenReads seenWrites queue)
    (hstep : queue.consumerStep size position = some queue') :
    queue'.consumer.accesses size < queue.consumer.accesses size := by
  have hsound := hinv.consumer
  have hcounts := hinv.counts_le
  unfold SPSCQueue.consumerStep at hstep
  cases hcase : queue.consumer with
  | idle returned => simp [hcase] at hstep
  | popLoaded r =>
      cases hload : observe queue.writeLog queue.consumerSeen position with
      | none => simp [hcase, hload] at hstep
      | some w =>
          simp only [hcase, hload, Option.some.injEq] at hstep
          subst hstep
          simp only
          split_ifs <;> simp [Consumer.accesses]
  | popReading r =>
      simp only [hcase, Option.some.injEq] at hstep
      subst hstep
      simp [Consumer.accesses]
  | popStoring r out =>
      simp only [hcase, Option.some.injEq] at hstep
      subst hstep
      simp [SPSCQueue.storeReadIdx, Consumer.accesses]
  | batchLoaded maxCount r =>
      rw [hcase] at hsound
      simp only [Consumer.Sound] at hsound
      subst hsound
      cases hload : observe queue.writeLog queue.consumerSeen position with
      | none => simp [hcase, hload] at hstep
      | some w =>
          simp only [hcase, hload, Option.some.injEq] at hstep
          subst hstep
          obtain ⟨seen, hw, hseen, hle, _⟩ := hinv.writeLog.load hload
          subst hw
          have hsupply := hinv.popCount_le hseen hle maxCount
          have hasked : (SPSCQueue.popCount maxCount (indexAt base seen)
              (indexAt base queue.popped.length)).toNat ≤ maxCount.toNat := by
            unfold SPSCQueue.popCount
            simp only
            split_ifs with hfewer
            · exact le_rfl
            · exact UInt64.le_iff_toNat_le.mp (UInt64.not_lt.mp hfewer)
          simp only [Consumer.accesses, List.length_nil]
          omega
  | batchReading r n out =>
      simp only [hcase] at hstep
      split_ifs at hstep with hmore hsome
      · rw [Option.some.injEq] at hstep
        subst hstep
        simp only [Consumer.accesses, List.length_append, List.length_singleton]
        omega
      · rw [Option.some.injEq] at hstep
        subst hstep
        simp [SPSCQueue.storeReadIdx, Consumer.accesses]
      · rw [Option.some.injEq] at hstep
        subst hstep
        simp [Consumer.accesses]

theorem consumerStep_isSome (hinv : QueueInv size base seenReads seenWrites queue)
    (hbusy : queue.consumer.accesses size ≠ 0) :
    (queue.consumerStep size queue.consumerSeen).isSome := by
  have hload := hinv.writeLog.observe_seen
  unfold SPSCQueue.consumerStep
  cases hcase : queue.consumer with
  | idle returned => simp [hcase, Consumer.accesses] at hbusy
  | popLoaded r => simp [hload]
  | popReading r => rfl
  | popStoring r out => rfl
  | batchLoaded maxCount r => simp [hload]
  | batchReading r n out =>
      simp only
      split_ifs <;> rfl

/-! ## Runs -/

theorem accesses_step (hinv : QueueInv size base seenReads seenWrites queue) {move : Move T}
    (hstep : queue.step size move = some queue') (hgoes : move.begins = false) :
    queue'.accesses size move.byProducer < queue.accesses size move.byProducer := by
  cases move with
  | producer position => exact hinv.accesses_producerStep hstep
  | consumer position => exact hinv.accesses_consumerStep hstep
  | _ => exact absurd hgoes (by simp [Move.begins])

/-- Every access of a thread which begins no operation brings it nearer to the end. -/
theorem accesses_run (hinv : QueueInv size base seenReads seenWrites queue) {byProducer : Bool}
    {moves : List (Move T)}
    (hown : ∀ move ∈ moves, move.byProducer = byProducer → move.begins = false)
    (hrun : queue.run size moves = some queue') :
    moves.countP (fun move => move.byProducer == byProducer) +
      queue'.accesses size byProducer ≤ queue.accesses size byProducer := by
  induction moves generalizing queue seenReads seenWrites with
  | nil =>
      have hsame : queue = queue' := Option.some.inj hrun
      rw [hsame, List.countP_nil, Nat.zero_add]
  | cons move moves ih =>
      unfold SPSCQueue.run at hrun
      rw [List.foldlM_cons] at hrun
      obtain ⟨after, hstep, hrest⟩ := Option.bind_eq_some_iff.mp hrun
      obtain ⟨_, _, hnext⟩ := hinv.step hstep
      have hlater := ih hnext (fun other hother => hown other (List.mem_cons_of_mem _ hother))
        hrest
      rw [List.countP_cons]
      by_cases hby : move.byProducer = byProducer
      · have hlower := hinv.accesses_step hstep (hown move List.mem_cons_self hby)
        rw [hby] at hlower
        simp only [hby, beq_self_eq_true, if_true]
        omega
      · have hsame := SPSCQueue.accesses_other hstep hby
        simp only [beq_iff_eq, hby, if_false]
        omega

/-- A thread in the middle of an operation is never stopped. -/
theorem next_isSome (hinv : QueueInv size base seenReads seenWrites queue) (move : Move T)
    (hbusy : queue.accesses size move.byProducer ≠ 0) :
    ∃ position, (queue.step size (move.next position)).isSome := by
  unfold Move.next
  cases hby : move.byProducer with
  | true =>
      rw [hby] at hbusy
      exact ⟨queue.producerSeen, hinv.producerStep_isSome hbusy⟩
  | false =>
      rw [hby] at hbusy
      exact ⟨queue.consumerSeen, hinv.consumerStep_isSome hbusy⟩

end QueueInv

/-! ## Wait-freedom -/

/-- An operation which its thread has carried on by `own` accesses. -/
structure WaitFree (size : RingSize) (operation : Move T) (own : ℕ) (queue : SPSCQueue T) :
    Prop where
  bounded : own ≤ operation.accesses size
  returns : own = operation.accesses size → queue.returned operation.byProducer
  goes_on : queue.returned operation.byProducer = false →
    ∃ position, (queue.step size (operation.next position)).isSome

/-- Under any interleaving, with stale loads, from any start of the indices. -/
theorem spsc_waitFree (size : RingSize) (base : UInt64) (buffer : ℕ → T)
    (before after : List (Move T)) (operation : Move T) (queue started later : SPSCQueue T)
    (hbefore : (SPSCQueue.empty base buffer).run size before = some queue)
    (hbegins : operation.begins) (hstarted : queue.step size operation = some started)
    (hown : ∀ move ∈ after, move.byProducer = operation.byProducer → move.begins = false)
    (hafter : started.run size after = some later) :
    WaitFree size operation
      (after.countP fun move => move.byProducer == operation.byProducer) later := by
  obtain ⟨_, _, hinv⟩ := (QueueInv.empty base buffer).run hbefore
  obtain ⟨_, _, hbegun⟩ := hinv.step hstarted
  obtain ⟨_, _, hlater⟩ := hbegun.run hafter
  have hcount := hbegun.accesses_run hown hafter
  rw [SPSCQueue.accesses_begins hstarted hbegins] at hcount
  have hdone := later.returned_iff size operation.byProducer
  constructor
  · omega
  · intro hall
    rw [hdone]
    omega
  · intro hbusy
    apply hlater.next_isSome operation
    rw [← Bool.not_eq_true, hdone] at hbusy
    exact hbusy

def oneSlot : RingSize := ⟨0, by decide⟩

/-- A batch of two is offered to the only slot while the consumer finds the ring empty. -/
def cutBatch : List (Move ℕ) := [.producer 0, .tryPop, .producer 0, .consumer 0, .producer 0]

theorem spsc_waitFree_cutBatch :
    ∃ started later : SPSCQueue ℕ,
      (SPSCQueue.empty 18446744073709551615 (fun _ => 0)).step oneSlot
        (.tryPushBatch [7, 8]) = some started ∧
      started.run oneSlot cutBatch = some later ∧ later.pushed = [7] ∧
      WaitFree oneSlot (.tryPushBatch [7, 8])
        (cutBatch.countP fun move => move.byProducer == true) later := by
  have hresult : (((SPSCQueue.empty 18446744073709551615 (fun _ => 0)).step oneSlot
      (.tryPushBatch [7, 8])).bind fun started =>
        (started.run oneSlot cutBatch).map fun later => later.pushed) = some [7] := by
    decide
  obtain ⟨started, hstarted, hmore⟩ := Option.bind_eq_some_iff.mp hresult
  obtain ⟨later, hafter, hpushed⟩ := Option.map_eq_some_iff.mp hmore
  refine ⟨started, later, hstarted, hafter, hpushed, ?_⟩
  apply spsc_waitFree _ _ _ [] cutBatch (.tryPushBatch [7, 8]) _ started later rfl rfl hstarted
  · simp only [cutBatch, List.forall_mem_cons]
    exact ⟨fun _ => rfl, nofun, fun _ => rfl, fun _ => rfl, fun _ => rfl, nofun⟩
  · exact hafter

end NanoMatch
