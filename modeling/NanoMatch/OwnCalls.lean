import NanoMatch.SizeApprox

/-!
# What an owner learns of its queue

A monitoring thread cannot rely on what `size_approx()`, `empty()` and `full()`
return, but the two threads which store the indices can.  The producer alone fills
the ring, so the room it has found stays until it has used it up; the consumer
alone drains it, so the items it has found stay until it has taken them.  Neither
depends on what the other side does in between, nor on how stale the later loads
are: they are not older than the loads of the call.
-/

namespace NanoMatch

open CounterLog

/-- What `full()` computes from its two loads. -/
def SPSCQueue.full (size : RingSize) (w r : UInt64) : Bool := w - r == size.capacity

/-- What `empty()` computes from its two loads. -/
def SPSCQueue.isEmpty (w r : UInt64) : Bool := w == r

/-! ## What an operation offers or asks for -/

section Requests

variable {T : Type}

/-- The `count` of a batch is a `std::size_t`. -/
def Move.offered : Move T → List T
  | .tryPush item => [item]
  | .tryPushBatch items => items.take (UInt64.ofNat items.length).toNat
  | _ => []

def Move.requested : Move T → ℕ
  | .tryPop => 1
  | .tryPopBatch maxCount => maxCount.toNat
  | _ => 0

def ObservedMove.offered : ObservedMove T → List T
  | .ring move => move.offered
  | _ => []

def ObservedMove.requested : ObservedMove T → ℕ
  | .ring move => move.requested
  | _ => 0

/-- The items offered in a run, in order. -/
def offeredIn (moves : List (ObservedMove T)) : List T := moves.flatMap ObservedMove.offered

/-- The number of items asked for in a run. -/
def requestedIn (moves : List (ObservedMove T)) : ℕ := (moves.map ObservedMove.requested).sum

/-- What the operation in progress will have pushed at its end.  Before the load of
`read_idx_` this is all it was given. -/
def Producer.inHand : Producer T → List T
  | .idle _ => []
  | .pushLoaded item _ | .pushWriting item _ | .pushStoring item _ => [item]
  | .batchLoaded items _ => items.take (UInt64.ofNat items.length).toNat
  | .batchWriting items _ n _ => items.take n

/-- How many items the operation in progress will have popped at its end. -/
def Consumer.inHand : Consumer T → ℕ
  | .idle _ => 0
  | .popLoaded _ | .popReading _ | .popStoring _ _ => 1
  | .batchLoaded maxCount _ => maxCount.toNat
  | .batchReading _ n _ => n

/-- Since it had pushed `pushed` the producer was offered `offered`, and the first
`room` of it went into the ring, or will. -/
def FillsRoom (pushed : List T) (room : ℕ) (offered : List T) (ring : SPSCQueue T) : Prop :=
  ∃ since, ring.pushed = pushed ++ since ∧
    (since ++ ring.producer.inHand).take room = offered.take room

/-- Since it had popped `popped` the consumer asked for `requested` items, and the
first `supply` of them have come, or will. -/
def TakesSupply (popped : List T) (supply requested : ℕ) (ring : SPSCQueue T) : Prop :=
  ∃ taken, ring.popped = popped ++ taken ∧
    min requested supply ≤ taken.length + ring.consumer.inHand

end Requests

section Requests

variable {T : Type} {ring ring' : SPSCQueue T} {pushed popped offered : List T}
  {room supply requested : ℕ}

theorem FillsRoom.of_eq (hfills : FillsRoom pushed room offered ring)
    (hpushed : ring'.pushed = ring.pushed) (hproducer : ring'.producer = ring.producer) :
    FillsRoom pushed room offered ring' := by
  unfold FillsRoom
  rwa [hpushed, hproducer]

theorem TakesSupply.of_eq (htakes : TakesSupply popped supply requested ring)
    (hpopped : ring'.popped = ring.popped) (hconsumer : ring'.consumer = ring.consumer) :
    TakesSupply popped supply requested ring' := by
  unfold TakesSupply
  rwa [hpopped, hconsumer]

end Requests

/-! ## The producer -/

section Lists

variable {α : Type*} {room : ℕ}

theorem take_append_of_take_eq {xs ys : List α} (heq : xs.take room = ys.take room)
    (more : List α) : (xs ++ more).take room = (ys ++ more).take room := by
  have hlength := congrArg List.length heq
  simp only [List.length_take] at hlength
  have hrest : more.take (room - xs.length) = more.take (room - ys.length) := by
    by_cases hroom : room ≤ xs.length
    · rw [Nat.sub_eq_zero_of_le hroom, Nat.sub_eq_zero_of_le (by omega)]
    · rw [show xs.length = ys.length by omega]
  rw [List.take_append, List.take_append, heq, hrest]

/-- Cutting the second list does not matter behind the room. -/
theorem take_append_take (xs ys : List α) {n m : ℕ} (hn : room ≤ xs.length + n) (hle : n ≤ m) :
    (xs ++ ys.take n).take room = (xs ++ ys.take m).take room := by
  rw [List.take_append, List.take_append, List.take_take, List.take_take,
    Nat.min_eq_left (by omega), Nat.min_eq_left (by omega)]

end Lists

namespace QueueInv

variable {T : Type} {size : RingSize} {base : UInt64} {seenReads seenWrites : ℕ}
  {ring ring' : SPSCQueue T} {pushed popped offered : List T}
  {room pops supply pushes requested : ℕ}

/-- A batch is cut only where the ring is full as far as the producer has seen. -/
theorem pushCount_cases (hinv : QueueInv size base seenReads seenWrites ring) {seen : ℕ}
    (hseen : seenReads ≤ seen) (hle : seen ≤ ring.popped.length) (count : UInt64) :
    (SPSCQueue.pushCount size count (indexAt base ring.pushed.length)
        (indexAt base seen)) = count ∨
      (SPSCQueue.pushCount size count (indexAt base ring.pushed.length)
          (indexAt base seen)).toNat ≤ count.toNat ∧
        ring.pushed.length + (SPSCQueue.pushCount size count (indexAt base ring.pushed.length)
          (indexAt base seen)).toNat = seen + 2 ^ size.bits := by
  have hcounts := hinv.counts_le
  have hdistance := hinv.distance_toNat hseen hle
  have hcapacity := size.capacity_toNat
  have havailable : (size.capacity -
      (indexAt base ring.pushed.length - indexAt base seen)).toNat =
        2 ^ size.bits - (ring.pushed.length - seen) := by
    rw [UInt64.toNat_sub_of_le, hcapacity, hdistance]
    rw [UInt64.le_iff_toNat_le, hcapacity, hdistance]
    omega
  unfold SPSCQueue.pushCount
  simp only [UInt64.lt_iff_toNat_lt, havailable]
  split_ifs with hfits
  · exact .inl rfl
  · rw [havailable]
    exact .inr ⟨by omega, by omega⟩

theorem fillsRoom_producerStep (hinv : QueueInv size base seenReads seenWrites ring)
    (hfills : FillsRoom pushed room offered ring)
    (hroom : room + pushed.length ≤ pops + 2 ^ size.bits) (hpops : pops ≤ seenReads)
    {position : ℕ} (hstep : ring.producerStep size position = some ring') :
    FillsRoom pushed room offered ring' := by
  obtain ⟨since, hpushed, hkept⟩ := hfills
  have hlength := congrArg List.length hpushed
  rw [List.length_append] at hlength
  have hsound := hinv.producer
  unfold SPSCQueue.producerStep at hstep
  cases hcase : ring.producer with
  | idle returned => simp [hcase] at hstep
  | pushLoaded item w =>
      rw [hcase] at hsound hkept
      simp only [Producer.Sound] at hsound
      subst hsound
      cases hload : observe ring.readLog ring.producerSeen position with
      | none => simp [hcase, hload] at hstep
      | some r =>
          simp only [hcase, hload, Option.some.injEq] at hstep
          subst hstep
          obtain ⟨seen, hr, hseen, hle, _⟩ := hinv.readLog.load hload
          refine ⟨since, hpushed, ?_⟩
          split_ifs with hfull
          · -- the ring is full only after the room has been used up
            have hpos := Nat.two_pow_pos size.bits
            have hdistance := hinv.distance_toNat hseen hle
            rw [hr] at hfull
            rw [hfull, size.capacity_toNat] at hdistance
            have hused : room ≤ since.length := by omega
            rw [← hkept]
            simp only [Producer.inHand, List.append_nil]
            rw [List.take_append_of_le_length hused]
          · exact hkept
  | pushWriting item w =>
      rw [hcase] at hkept
      simp only [hcase, Option.some.injEq] at hstep
      subst hstep
      exact ⟨since, hpushed, hkept⟩
  | pushStoring item w =>
      rw [hcase] at hkept
      simp only [hcase, Option.some.injEq] at hstep
      subst hstep
      refine ⟨since ++ [item], ?_, ?_⟩
      · simp [SPSCQueue.storeWriteIdx, hpushed]
      · simpa [SPSCQueue.storeWriteIdx, Producer.inHand] using hkept
  | batchLoaded items w =>
      rw [hcase] at hsound hkept
      simp only [Producer.Sound] at hsound
      subst hsound
      cases hload : observe ring.readLog ring.producerSeen position with
      | none => simp [hcase, hload] at hstep
      | some r =>
          simp only [hcase, hload, Option.some.injEq] at hstep
          subst hstep
          obtain ⟨seen, hr, hseen, hle, _⟩ := hinv.readLog.load hload
          subst hr
          refine ⟨since, hpushed, ?_⟩
          rw [← hkept]
          simp only [Producer.inHand]
          rcases hinv.pushCount_cases hseen hle (UInt64.ofNat items.length) with
            hall | ⟨hfewer, hfull⟩
          · rw [hall]
          · exact take_append_take since items (by omega) hfewer
  | batchWriting items w n i =>
      rw [hcase] at hkept
      simp only [hcase] at hstep
      split_ifs at hstep with hmore hsome
      · cases hitem : items[i]? with
        | none => simp [hitem] at hstep
        | some item =>
            simp only [hitem, Option.some.injEq] at hstep
            subst hstep
            exact ⟨since, hpushed, hkept⟩
      · rw [Option.some.injEq] at hstep
        subst hstep
        refine ⟨since ++ items.take n, ?_, ?_⟩
        · simp [SPSCQueue.storeWriteIdx, hpushed]
        · simpa [SPSCQueue.storeWriteIdx, Producer.inHand] using hkept
      · rw [Option.some.injEq] at hstep
        subst hstep
        have hzero : n = 0 := by omega
        refine ⟨since, hpushed, ?_⟩
        simpa [hzero, Producer.inHand] using hkept

theorem fillsRoom_step (hinv : QueueInv size base seenReads seenWrites ring)
    (hfills : FillsRoom pushed room offered ring)
    (hroom : room + pushed.length ≤ pops + 2 ^ size.bits) (hpops : pops ≤ seenReads)
    {move : Move T} (hstep : ring.step size move = some ring') :
    FillsRoom pushed room (offered ++ move.offered) ring' := by
  cases move with
  | tryPush item =>
      obtain ⟨since, hpushed, hkept⟩ := hfills
      unfold SPSCQueue.step at hstep
      cases hcase : ring.producer <;> simp only [hcase, Option.some.injEq, reduceCtorEq] at hstep
      subst hstep
      refine ⟨since, hpushed, take_append_of_take_eq ?_ _⟩
      simpa [hcase, Producer.inHand] using hkept
  | tryPushBatch items =>
      obtain ⟨since, hpushed, hkept⟩ := hfills
      unfold SPSCQueue.step at hstep
      cases hcase : ring.producer <;> simp only [hcase, Option.some.injEq, reduceCtorEq] at hstep
      subst hstep
      refine ⟨since, hpushed, take_append_of_take_eq ?_ _⟩
      simpa [hcase, Producer.inHand] using hkept
  | producer position =>
      have hnext := hinv.fillsRoom_producerStep hfills hroom hpops hstep
      simpa [Move.offered] using hnext
  | _ =>
      have hsame := SPSCQueue.producer_step hstep Bool.false_ne_true
      simp only [Move.offered, List.append_nil]
      exact hfills.of_eq hsame.1 hsame.2

/-! ## The consumer -/

/-- A batch is cut only where the ring is empty as far as the consumer has seen. -/
theorem popCount_cases (hinv : QueueInv size base seenReads seenWrites ring) {seen : ℕ}
    (hseen : seenWrites ≤ seen) (hle : seen ≤ ring.pushed.length) (maxCount : UInt64) :
    SPSCQueue.popCount maxCount (indexAt base seen) (indexAt base ring.popped.length) =
        maxCount ∨
      ring.popped.length + (SPSCQueue.popCount maxCount (indexAt base seen)
        (indexAt base ring.popped.length)).toNat = seen := by
  have hcounts := hinv.counts_le
  have hsize := size.two_pow_lt
  have havailable : (indexAt base seen - indexAt base ring.popped.length).toNat =
      seen - ring.popped.length := by
    apply indexAt_sub_toNat
    · omega
    · omega
  unfold SPSCQueue.popCount
  simp only
  split_ifs with hfewer
  · exact .inl rfl
  · rw [havailable]
    exact .inr (by omega)

theorem takesSupply_consumerStep (hinv : QueueInv size base seenReads seenWrites ring)
    (htakes : TakesSupply popped supply requested ring)
    (hsupply : supply + popped.length ≤ pushes) (hpushes : pushes ≤ seenWrites)
    {position : ℕ} (hstep : ring.consumerStep size position = some ring') :
    TakesSupply popped supply requested ring' := by
  obtain ⟨taken, hpopped, hkept⟩ := htakes
  have hlength := congrArg List.length hpopped
  rw [List.length_append] at hlength
  have hsound := hinv.consumer
  unfold SPSCQueue.consumerStep at hstep
  cases hcase : ring.consumer with
  | idle returned => simp [hcase] at hstep
  | popLoaded r =>
      rw [hcase] at hsound hkept
      simp only [Consumer.Sound] at hsound
      subst hsound
      cases hload : observe ring.writeLog ring.consumerSeen position with
      | none => simp [hcase, hload] at hstep
      | some w =>
          simp only [hcase, hload, Option.some.injEq] at hstep
          subst hstep
          obtain ⟨seen, hw, hseen, hle, _⟩ := hinv.writeLog.load hload
          subst hw
          refine ⟨taken, hpopped, ?_⟩
          split_ifs with hempty
          · -- the ring is empty only after the supply has been taken
            have hcounts := hinv.counts_le
            have hsize := size.two_pow_lt
            have hnone := indexAt_injective_near base hempty (by omega) (by omega)
            simp only [Consumer.inHand]
            omega
          · exact hkept
  | popReading r =>
      rw [hcase] at hkept
      simp only [hcase, Option.some.injEq] at hstep
      subst hstep
      exact ⟨taken, hpopped, hkept⟩
  | popStoring r out =>
      rw [hcase] at hkept
      simp only [hcase, Option.some.injEq] at hstep
      subst hstep
      refine ⟨taken ++ [out], ?_, ?_⟩
      · simp [SPSCQueue.storeReadIdx, hpopped]
      · simpa [SPSCQueue.storeReadIdx, Consumer.inHand] using hkept
  | batchLoaded maxCount r =>
      rw [hcase] at hsound hkept
      simp only [Consumer.Sound] at hsound
      subst hsound
      cases hload : observe ring.writeLog ring.consumerSeen position with
      | none => simp [hcase, hload] at hstep
      | some w =>
          simp only [hcase, hload, Option.some.injEq] at hstep
          subst hstep
          obtain ⟨seen, hw, hseen, hle, _⟩ := hinv.writeLog.load hload
          subst hw
          refine ⟨taken, hpopped, ?_⟩
          simp only [Consumer.inHand] at hkept ⊢
          rcases hinv.popCount_cases hseen hle maxCount with hall | hempty
          · rwa [hall]
          · omega
  | batchReading r n out =>
      rw [hcase] at hsound hkept
      simp only [hcase] at hstep
      simp only [Consumer.inHand] at hkept
      split_ifs at hstep with hmore hsome
      · rw [Option.some.injEq] at hstep
        subst hstep
        exact ⟨taken, hpopped, hkept⟩
      · rw [Option.some.injEq] at hstep
        subst hstep
        refine ⟨taken ++ out, ?_, ?_⟩
        · simp [SPSCQueue.storeReadIdx, hpopped]
        · simp only [SPSCQueue.storeReadIdx, Consumer.inHand, List.length_append]
          omega
      · rw [Option.some.injEq] at hstep
        subst hstep
        refine ⟨taken, hpopped, ?_⟩
        simp only [Consumer.inHand]
        omega

theorem takesSupply_step (hinv : QueueInv size base seenReads seenWrites ring)
    (htakes : TakesSupply popped supply requested ring)
    (hsupply : supply + popped.length ≤ pushes) (hpushes : pushes ≤ seenWrites)
    {move : Move T} (hstep : ring.step size move = some ring') :
    TakesSupply popped supply (requested + move.requested) ring' := by
  cases move with
  | tryPop =>
      obtain ⟨taken, hpopped, hkept⟩ := htakes
      unfold SPSCQueue.step at hstep
      cases hcase : ring.consumer <;> simp only [hcase, Option.some.injEq, reduceCtorEq] at hstep
      subst hstep
      refine ⟨taken, hpopped, ?_⟩
      simp only [hcase, Consumer.inHand, Move.requested] at hkept ⊢
      omega
  | tryPopBatch maxCount =>
      obtain ⟨taken, hpopped, hkept⟩ := htakes
      unfold SPSCQueue.step at hstep
      cases hcase : ring.consumer <;> simp only [hcase, Option.some.injEq, reduceCtorEq] at hstep
      subst hstep
      refine ⟨taken, hpopped, ?_⟩
      simp only [hcase, Consumer.inHand, Move.requested] at hkept ⊢
      omega
  | consumer position => exact hinv.takesSupply_consumerStep htakes hsupply hpushes hstep
  | _ =>
      have hsame := SPSCQueue.consumer_step hstep rfl
      exact htakes.of_eq hsame.1 hsame.2

end QueueInv

/-! ## One move with its observers -/

namespace ObservedQueue

variable {T : Type} {size : RingSize} {queue queue' : ObservedQueue T}

/-- What a move can be. -/
inductive Stepped (size : RingSize) (queue : ObservedQueue T) :
    ObservedMove T → ObservedQueue T → Prop
  | ring {move : Move T} {ring' : SPSCQueue T} (hfree : queue.pending move.thread = none)
      (hstep : queue.ring.step size move = some ring') :
      Stepped size queue (.ring move) (queue.advance ring')
  | loadWriteIdx {observer : Observer} {position : ℕ} {w : UInt64} {stamp : Stamp}
      (hidle : queue.isIdle observer)
      (hload : observe queue.ring.writeLog (queue.writeSeen observer) position = some w)
      (hstamp : queue.writes[position]? = some stamp) :
      Stepped size queue (.loadWriteIdx observer position)
        ((queue.sawWrite observer position stamp).begin observer ⟨w, stamp.count⟩)
  | loadReadIdx {observer : Observer} {position : ℕ} {call : PendingCall} {r : UInt64}
      {stamp : Stamp} (hpending : queue.pending observer = some call)
      (hload : observe queue.ring.readLog (queue.readSeen observer) position = some r)
      (hstamp : queue.reads[position]? = some stamp) :
      Stepped size queue (.loadReadIdx observer position)
        ((queue.sawRead observer position stamp).finish observer
          ⟨observer, call.pushes, stamp.count, sizeApprox call.w r⟩)

theorem stepped {move : ObservedMove T} (hstep : queue.step size move = some queue') :
    queue.Stepped size move queue' := by
  unfold step at hstep
  cases move with
  | ring move =>
      simp only at hstep
      cases hfree : queue.pending move.thread with
      | some call => simp [hfree] at hstep
      | none =>
          simp only [hfree, Option.map_eq_some_iff] at hstep
          obtain ⟨ring', hring, hqueue⟩ := hstep
          subst hqueue
          exact .ring hfree hring
  | loadWriteIdx observer position =>
      simp only at hstep
      split at hstep
      next _ hidle =>
        obtain ⟨w, hload, hrest⟩ := Option.bind_eq_some_iff.mp hstep
        obtain ⟨stamp, hstamp, hqueue⟩ := Option.bind_eq_some_iff.mp hrest
        have hnext := Option.some.inj hqueue
        subst hnext
        exact .loadWriteIdx hidle hload hstamp
      next => exact absurd hstep (by simp)
  | loadReadIdx observer position =>
      simp only at hstep
      cases hpending : queue.pending observer with
      | none => simp [hpending] at hstep
      | some pending =>
          simp only [hpending] at hstep
          obtain ⟨r, hload, hrest⟩ := Option.bind_eq_some_iff.mp hstep
          obtain ⟨stamp, hstamp, hqueue⟩ := Option.bind_eq_some_iff.mp hrest
          have hnext := Option.some.inj hqueue
          subst hnext
          exact .loadReadIdx hpending hload hstamp

/-- The logs grow, and neither thread goes back in them. -/
structure Later (queue queue' : ObservedQueue T) : Prop where
  writes : queue.writes <+: queue'.writes
  reads : queue.reads <+: queue'.reads
  producerSeen : queue.ring.producerSeen ≤ queue'.ring.producerSeen
  consumerSeen : queue.ring.consumerSeen ≤ queue'.ring.consumerSeen

theorem writes_advance_extends (queue : ObservedQueue T) (ring' : SPSCQueue T) :
    queue.writes <+: (queue.advance ring').writes := by
  simp only [advance]
  split_ifs
  · exact List.prefix_append _ _
  · exact List.prefix_rfl

theorem Stepped.later {move : ObservedMove T} (hstep : queue.Stepped size move queue') :
    queue.Later queue' := by
  cases hstep with
  | ring _ hring =>
      have hwrites := queue.writes_advance_extends
      have hreads := queue.reads_advance_extends
      rcases SPSCQueue.step_access hring with ⟨_, haccess⟩ | ⟨_, haccess⟩
      · exact ⟨hwrites _, hreads _, haccess.producerSeen, haccess.consumerSeen.ge⟩
      · exact ⟨hwrites _, hreads _, haccess.producerSeen.ge, haccess.consumerSeen⟩
  | @loadWriteIdx observer position w stamp _ hload _ =>
      have hseen := le_of_observe hload
      constructor
      · simp [begin]
      · simp [begin]
      · cases observer <;> exact le_rfl
      · cases observer with
        | consumer => exact hseen
        | _ => exact le_rfl
  | @loadReadIdx observer position call r stamp _ hload _ =>
      have hseen := le_of_observe hload
      constructor
      · simp [finish]
      · simp [finish]
      · cases observer with
        | producer => exact hseen
        | _ => exact le_rfl
      · cases observer <;> exact le_rfl

/-! ## Calls of the owners -/

/-- A thread in a call is between two operations, and the consumer has not gone back
behind the `write_idx_` it has loaded. -/
structure InCall (queue : ObservedQueue T) : Prop where
  idle : ∀ observer call, queue.pending observer = some call → queue.isIdle observer
  loaded : ∀ call, queue.pending .consumer = some call → ∃ position stamp,
    position ≤ queue.ring.consumerSeen ∧ queue.writes[position]? = some stamp ∧
      stamp.count = call.pushes

theorem isIdle_advance {move : Move T} {ring' : SPSCQueue T} {observer : Observer}
    (hring : queue.ring.step size move = some ring') (hne : observer ≠ move.thread) :
    (queue.advance ring').isIdle observer = queue.isIdle observer := by
  cases observer with
  | producer =>
      have hby : ¬move.byProducer := by
        intro hby
        exact hne (by simp [Move.thread, hby])
      simp only [isIdle, advance, (SPSCQueue.producer_step hring hby).2]
  | consumer =>
      have hby : move.byProducer := by
        by_contra hby
        exact hne (by simp [Move.thread, hby])
      simp only [isIdle, advance, (SPSCQueue.consumer_step hring hby).2]
  | monitor id => rfl

theorem inHand_of_isIdle (hidle : queue.isIdle .producer) : queue.ring.producer.inHand = [] := by
  unfold isIdle at hidle
  cases hcase : queue.ring.producer with
  | idle returned => rfl
  | _ => simp [hcase] at hidle

theorem consumer_inHand_of_isIdle (hidle : queue.isIdle .consumer) :
    queue.ring.consumer.inHand = 0 := by
  unfold isIdle at hidle
  cases hcase : queue.ring.consumer with
  | idle returned => rfl
  | _ => simp [hcase] at hidle

theorem isIdle_begin (observer other : Observer) (position : ℕ) (stamp : Stamp)
    (call : PendingCall) :
    ((queue.sawWrite other position stamp).begin other call).isIdle observer =
      queue.isIdle observer := by
  cases other <;> rfl

theorem isIdle_finish (observer other : Observer) (position : ℕ) (stamp : Stamp)
    (call : SizeCall) :
    ((queue.sawRead other position stamp).finish other call).isIdle observer =
      queue.isIdle observer := by
  cases other <;> rfl

theorem InCall.kept (hcalls : queue.InCall) (hlater : queue.Later queue')
    (hidle : ∀ observer call, queue'.pending observer = some call →
      queue'.isIdle observer = queue.isIdle observer)
    (hpending : ∀ observer call, queue'.pending observer = some call →
      queue.pending observer = some call) : queue'.InCall := by
  constructor
  · intro observer call hcall
    rw [hidle observer call hcall]
    exact hcalls.idle observer call (hpending observer call hcall)
  · intro call hcall
    obtain ⟨position, stamp, hposition, hstamp, hcount⟩ :=
      hcalls.loaded call (hpending .consumer call hcall)
    exact ⟨position, stamp, hposition.trans hlater.consumerSeen,
      entry_of_extends hlater.writes hstamp, hcount⟩

theorem InCall.step {move : ObservedMove T} (hcalls : queue.InCall)
    (hstep : queue.Stepped size move queue') : queue'.InCall := by
  have hlater := hstep.later
  cases hstep with
  | ring hfree hring =>
      apply hcalls.kept hlater
      · intro observer call hcall
        apply isIdle_advance hring
        rintro rfl
        exact absurd (hfree.symm.trans hcall) (by simp)
      · intro observer call hcall
        exact hcall
  | @loadWriteIdx observer position w stamp hidle hload hstamp =>
      constructor
      · intro other call hcall
        rw [isIdle_begin]
        by_cases hsame : other = observer
        · rwa [hsame]
        · simp only [begin, pending_sawWrite, Function.update_of_ne hsame] at hcall
          exact hcalls.idle other call hcall
      · intro call hcall
        by_cases hsame : Observer.consumer = observer
        · subst hsame
          simp only [begin, Function.update_self, Option.some.injEq] at hcall
          refine ⟨position, stamp, le_rfl, ?_, ?_⟩
          · simpa [begin] using hstamp
          · rw [← hcall]
        · simp only [begin, pending_sawWrite, Function.update_of_ne hsame] at hcall
          obtain ⟨position', stamp', hposition, hentry, hcount⟩ := hcalls.loaded call hcall
          exact ⟨position', stamp', hposition.trans hlater.consumerSeen,
            entry_of_extends hlater.writes hentry, hcount⟩
  | @loadReadIdx observer position call r stamp hpending hload hstamp =>
      apply hcalls.kept hlater
      · intro other call _
        exact isIdle_finish other observer position stamp _
      · intro other call hcall
        by_cases hsame : other = observer
        · subst hsame
          simp [finish] at hcall
        · simpa [finish, Function.update_of_ne hsame] using hcall

/-! ## The promise of a call -/

/-- The pops the producer has seen in its call stay seen, and the room behind them
is filled with what it is offered. -/
structure KeepsRoom (position : ℕ) (stamp : Stamp) (pushed : List T) (room : ℕ)
    (offered : List T) (queue : ObservedQueue T) : Prop where
  seen : position ≤ queue.ring.producerSeen
  entry : queue.reads[position]? = some stamp
  fills : FillsRoom pushed room offered queue.ring

structure KeepsSupply (position : ℕ) (stamp : Stamp) (popped : List T)
    (supply requested : ℕ) (queue : ObservedQueue T) : Prop where
  seen : position ≤ queue.ring.consumerSeen
  entry : queue.writes[position]? = some stamp
  takes : TakesSupply popped supply requested queue.ring

variable {base : UInt64} {position : ℕ} {stamp : Stamp} {pushed popped offered : List T}
  {room supply requested : ℕ}

theorem KeepsRoom.step {move : ObservedMove T}
    (hkeeps : KeepsRoom position stamp pushed room offered queue)
    (hinv : ObservedInv size base queue)
    (hroom : room + pushed.length ≤ stamp.count + 2 ^ size.bits)
    (hstep : queue.Stepped size move queue') :
    KeepsRoom position stamp pushed room (offered ++ move.offered) queue' := by
  have hlater := hstep.later
  refine ⟨hkeeps.seen.trans hlater.producerSeen, entry_of_extends hlater.reads hkeeps.entry, ?_⟩
  cases hstep with
  | ring _ hring =>
      obtain ⟨known, taken, hknown, _, hqueue⟩ := hinv.ring.seen
      have hmono := hinv.ring.readLog.count_mono hkeeps.entry hknown hkeeps.seen
      exact hqueue.fillsRoom_step hkeeps.fills hroom hmono hring
  | @loadWriteIdx observer _ _ _ _ _ _ =>
      simp only [ObservedMove.offered, List.append_nil]
      apply hkeeps.fills.of_eq
      · simp [begin]
      · cases observer <;> rfl
  | @loadReadIdx observer _ _ _ _ _ _ _ =>
      simp only [ObservedMove.offered, List.append_nil]
      apply hkeeps.fills.of_eq
      · simp [finish]
      · cases observer <;> rfl

theorem KeepsSupply.step {move : ObservedMove T}
    (hkeeps : KeepsSupply position stamp popped supply requested queue)
    (hinv : ObservedInv size base queue) (hsupply : supply + popped.length ≤ stamp.count)
    (hstep : queue.Stepped size move queue') :
    KeepsSupply position stamp popped supply (requested + move.requested) queue' := by
  have hlater := hstep.later
  refine ⟨hkeeps.seen.trans hlater.consumerSeen, entry_of_extends hlater.writes hkeeps.entry, ?_⟩
  cases hstep with
  | ring _ hring =>
      obtain ⟨known, taken, _, htaken, hqueue⟩ := hinv.ring.seen
      have hmono := hinv.ring.writeLog.count_mono hkeeps.entry htaken hkeeps.seen
      exact hqueue.takesSupply_step hkeeps.takes hsupply hmono hring
  | @loadWriteIdx observer _ _ _ _ _ _ =>
      apply hkeeps.takes.of_eq
      · simp [begin]
      · cases observer <;> rfl
  | @loadReadIdx observer _ _ _ _ _ _ _ =>
      apply hkeeps.takes.of_eq
      · simp [finish]
      · cases observer <;> rfl

/-! ## Runs after a call -/

theorem inCall_run (buffer : ℕ → T) {moves : List (ObservedMove T)}
    (hrun : (ObservedQueue.empty base buffer).run size moves = some queue) : queue.InCall := by
  unfold run at hrun
  refine PartialRun.invariant (fun _ _ _ hcalls hstep => hcalls.step (stepped hstep)) ?_ hrun
  constructor
  · intro observer call hcall
    exact absurd hcall (by simp [empty])
  · intro call hcall
    exact absurd hcall (by simp [empty])

theorem KeepsRoom.run (hkeeps : KeepsRoom position stamp pushed room [] queue)
    (hinv : ObservedInv size base queue)
    (hroom : room + pushed.length ≤ stamp.count + 2 ^ size.bits)
    {moves : List (ObservedMove T)} (hrun : queue.run size moves = some queue') :
    KeepsRoom position stamp pushed room (offeredIn moves) queue' := by
  unfold ObservedQueue.run at hrun
  have hrule := PartialRun.invariant_past (motive := fun past queue =>
    ObservedInv size base queue ∧ KeepsRoom position stamp pushed room (offeredIn past) queue)
    ?_ [] ⟨hinv, hkeeps⟩ hrun
  · exact hrule.2
  · intro past state move next hstate hstep
    have hnext := hstate.2.step hstate.1 hroom (stepped hstep)
    refine ⟨hstate.1.step hstep, ?_⟩
    simpa [offeredIn] using hnext

theorem KeepsSupply.run (hkeeps : KeepsSupply position stamp popped supply 0 queue)
    (hinv : ObservedInv size base queue) (hsupply : supply + popped.length ≤ stamp.count)
    {moves : List (ObservedMove T)} (hrun : queue.run size moves = some queue') :
    KeepsSupply position stamp popped supply (requestedIn moves) queue' := by
  unfold ObservedQueue.run at hrun
  have hrule := PartialRun.invariant_past (motive := fun past queue =>
    ObservedInv size base queue ∧
      KeepsSupply position stamp popped supply (requestedIn past) queue)
    ?_ [] ⟨hinv, hkeeps⟩ hrun
  · exact hrule.2
  · intro past state move next hstate hstep
    have hnext := hstate.2.step hstate.1 hsupply (stepped hstep)
    refine ⟨hstate.1.step hstep, ?_⟩
    simpa [requestedIn] using hnext

end ObservedQueue

/-! ## The promise -/

section Promise

variable {T : Type}

/-- What the owner of an index may rely on after a call which has loaded `w` and `r`,
once it has done with the operations of `moves`.  Room which the producer has found
takes the first items it offers, and no item of them is refused; items which the
consumer has found come when it asks for them. -/
def ObservedQueue.Relies (size : RingSize) (called later : ObservedQueue T)
    (moves : List (ObservedMove T)) (w r : UInt64) : Observer → Prop
  | .producer => ∃ since, later.ring.pushed = called.ring.pushed ++ since ∧
      since.take (2 ^ size.bits - (sizeApprox w r).toNat) =
        (offeredIn moves).take (2 ^ size.bits - (sizeApprox w r).toNat) ∧
      (SPSCQueue.full size w r = false → offeredIn moves ≠ [] → since ≠ [])
  | .consumer => ∃ taken, later.ring.popped = called.ring.popped ++ taken ∧
      min (requestedIn moves) (sizeApprox w r).toNat ≤ taken.length ∧
      (SPSCQueue.isEmpty w r = false → requestedIn moves ≠ 0 → taken ≠ [])
  | .monitor _ => True

variable {size : RingSize} {base : UInt64} {queue called later : ObservedQueue T}
  {moves : List (ObservedMove T)} {position : ℕ} {call : PendingCall} {r : UInt64}
  {stamp : Stamp}

theorem not_full_room {w r : UInt64} (hle : (sizeApprox w r).toNat ≤ 2 ^ size.bits)
    (hfull : SPSCQueue.full size w r = false) : 0 < 2 ^ size.bits - (sizeApprox w r).toNat := by
  have hne : (sizeApprox w r).toNat ≠ 2 ^ size.bits := by
    intro heq
    rw [← size.capacity_toNat, UInt64.toNat_inj] at heq
    simp [SPSCQueue.full, ← heq, sizeApprox] at hfull
  omega

theorem not_empty_supply {w r : UInt64} (hempty : SPSCQueue.isEmpty w r = false) :
    0 < (sizeApprox w r).toNat := by
  have hne : (sizeApprox w r).toNat ≠ 0 := by
    intro heq
    have hzero : w - r = 0 := UInt64.toNat_inj.mp heq
    have hsame : w = r := by
      rw [← UInt64.sub_add_cancel w r, hzero, UInt64.zero_add]
    simp [SPSCQueue.isEmpty, hsame] at hempty
  omega

/-- The size an owner computes is the difference of the counts behind its loads. -/
theorem SizeCall.Sound.returned_toNat {sizeCall : SizeCall}
    (hsound : sizeCall.Sound size base) (hstores : sizeCall.observer.storesIndex) :
    sizeCall.returned.toNat = sizeCall.pushes - sizeCall.pops := by
  have hsize := size.two_pow_lt
  have hroom := hsound.room
  rw [hsound.returned]
  exact indexAt_sub_toNat base (hsound.ahead hstores) (by omega)

theorem producer_relies (hinv : ObservedInv size base queue) (hcalls : queue.InCall)
    (hcall : queue.pending .producer = some call)
    (hload : observe queue.ring.readLog (queue.readSeen .producer) position = some r)
    (hstamp : queue.reads[position]? = some stamp)
    (hcalled : called = (queue.sawRead .producer position stamp).finish .producer
      ⟨.producer, call.pushes, stamp.count, sizeApprox call.w r⟩)
    (hrun : called.run size moves = some later) (hidle : later.isIdle .producer) :
    called.Relies size later moves call.w r .producer := by
  have hfound := hinv.pending .producer call hcall
  have hsound := hinv.ring.returned hfound hload hstamp
  have hsize : (sizeApprox call.w r).toNat = call.pushes - stamp.count :=
    hsound.returned_toNat rfl
  have hahead : stamp.count ≤ call.pushes := hsound.ahead rfl
  have hbound : call.pushes ≤ stamp.count + 2 ^ size.bits := hsound.room
  have hpushed : queue.ring.pushed.length ≤ call.pushes := hfound.producer rfl
  have hnext : ObservedInv size base called := by
    rw [hcalled]
    exact hinv.finish hcall hload hstamp
  have hsame : called.ring.pushed = queue.ring.pushed := by
    rw [hcalled]
    rfl
  -- the producer is between two operations, so nothing is in hand
  have hhand : called.ring.producer.inHand = [] := by
    have hrests := hcalls.idle .producer call hcall
    rw [← ObservedQueue.isIdle_finish .producer .producer position stamp
      ⟨.producer, call.pushes, stamp.count, sizeApprox call.w r⟩, ← hcalled] at hrests
    exact ObservedQueue.inHand_of_isIdle hrests
  have hstart : ObservedQueue.KeepsRoom position stamp called.ring.pushed
      (2 ^ size.bits - (sizeApprox call.w r).toNat) [] called := by
    refine ⟨?_, ?_, [], (List.append_nil _).symm, ?_⟩
    · rw [hcalled]
      exact le_rfl
    · rw [hcalled]
      exact hstamp
    · rw [hhand]
      rfl
  have hkeeps := hstart.run hnext (by rw [hsame]; omega) hrun
  obtain ⟨since, hsince, hkept⟩ := hkeeps.fills
  rw [ObservedQueue.inHand_of_isIdle hidle, List.append_nil] at hkept
  refine ⟨since, hsince, hkept, ?_⟩
  intro hfull hoffered hnone
  have hroom := not_full_room (by omega) hfull
  rw [hnone, List.take_nil] at hkept
  have hlength := congrArg List.length hkept
  have hpos := List.length_pos_iff.mpr hoffered
  simp only [List.length_nil, List.length_take] at hlength
  omega

theorem consumer_relies (hinv : ObservedInv size base queue) (hcalls : queue.InCall)
    (hcall : queue.pending .consumer = some call)
    (hload : observe queue.ring.readLog (queue.readSeen .consumer) position = some r)
    (hstamp : queue.reads[position]? = some stamp)
    (hcalled : called = (queue.sawRead .consumer position stamp).finish .consumer
      ⟨.consumer, call.pushes, stamp.count, sizeApprox call.w r⟩)
    (hrun : called.run size moves = some later) (hidle : later.isIdle .consumer) :
    called.Relies size later moves call.w r .consumer := by
  have hfound := hinv.pending .consumer call hcall
  have hsound := hinv.ring.returned hfound hload hstamp
  have hsize : (sizeApprox call.w r).toNat = call.pushes - stamp.count :=
    hsound.returned_toNat rfl
  have hahead : stamp.count ≤ call.pushes := hsound.ahead rfl
  have hpops : stamp.count = queue.ring.popped.length :=
    hinv.ring.readLog.newest hstamp (le_of_observe hload)
  have hnext : ObservedInv size base called := by
    rw [hcalled]
    exact hinv.finish hcall hload hstamp
  have hsame : called.ring.popped = queue.ring.popped := by
    rw [hcalled]
    rfl
  have hhand : called.ring.consumer.inHand = 0 := by
    have hrests := hcalls.idle .consumer call hcall
    rw [← ObservedQueue.isIdle_finish .consumer .consumer position stamp
      ⟨.consumer, call.pushes, stamp.count, sizeApprox call.w r⟩, ← hcalled] at hrests
    exact ObservedQueue.consumer_inHand_of_isIdle hrests
  obtain ⟨loaded, entry, hloaded, hentry, hcount⟩ := hcalls.loaded call hcall
  have hstart : ObservedQueue.KeepsSupply loaded entry called.ring.popped
      (sizeApprox call.w r).toNat 0 called := by
    refine ⟨?_, ?_, [], (List.append_nil _).symm, ?_⟩
    · rw [hcalled]
      exact hloaded
    · rw [hcalled]
      exact hentry
    · rw [hhand]
      simp
  have hkeeps := hstart.run hnext (by rw [hsame]; omega) hrun
  obtain ⟨taken, htaken, hkept⟩ := hkeeps.takes
  rw [ObservedQueue.consumer_inHand_of_isIdle hidle, Nat.add_zero] at hkept
  refine ⟨taken, htaken, hkept, ?_⟩
  intro hempty hrequested hnone
  have hsupply := not_empty_supply hempty
  rw [hnone, List.length_nil] at hkept
  omega

end Promise

/-- Whatever the other threads do after the call, and however stale the loads of the
owner's own operations are. -/
theorem ownCall_relies {T : Type} (size : RingSize) (base : UInt64) (buffer : ℕ → T)
    (before after : List (ObservedMove T)) (observer : Observer) (position : ℕ)
    (queue called later : ObservedQueue T)
    (hbefore : (ObservedQueue.empty base buffer).run size before = some queue)
    (hcall : queue.step size (.loadReadIdx observer position) = some called)
    (hafter : called.run size after = some later) (hidle : later.isIdle observer) :
    ∃ call r, queue.pending observer = some call ∧ queue.ring.readLog[position]? = some r ∧
      called.Relies size later after call.w r observer := by
  have hinv := (ObservedInv.empty base buffer).run hbefore
  have hcalls := ObservedQueue.inCall_run buffer hbefore
  cases ObservedQueue.stepped hcall with
  | @loadReadIdx _ _ call r stamp hpending hload hstamp =>
      have hentry : queue.ring.readLog[position]? = some r := by
        unfold observe at hload
        rwa [if_pos (le_of_observe hload)] at hload
      refine ⟨call, r, hpending, hentry, ?_⟩
      cases observer with
      | producer => exact producer_relies hinv hcalls hpending hload hstamp rfl hafter hidle
      | consumer => exact consumer_relies hinv hcalls hpending hload hstamp rfl hafter hidle
      | monitor id => trivial

def twoSlots : RingSize := ⟨1, by decide⟩

/-- An item is in a ring of two slots when the producer begins its call. -/
def callingMoves : List (ObservedMove ℕ) :=
  [.ring (.tryPush 7), .ring (.producer 0), .ring (.producer 0), .ring (.producer 0),
    .loadWriteIdx .producer 1]

/-- The item is popped, and the producer pushes a batch of two with a load which does
not see this: only the slot it has found in its call is there. -/
def batchMoves : List (ObservedMove ℕ) :=
  [.ring .tryPop, .ring (.consumer 1), .ring (.consumer 0), .ring (.consumer 0),
    .ring (.tryPushBatch [8, 9]), .ring (.producer 0), .ring (.producer 0), .ring (.producer 0)]

theorem ownCall_relies_batch :
    ∃ queue called later : ObservedQueue ℕ,
      (ObservedQueue.empty 18446744073709551615 (fun _ => 0)).run twoSlots callingMoves =
        some queue ∧
      queue.step twoSlots (.loadReadIdx .producer 0) = some called ∧
      called.run twoSlots batchMoves = some later ∧
      later.ring.pushed = [7, 8] ∧ later.ring.popped = [7] ∧
      ∃ call r, queue.pending .producer = some call ∧ queue.ring.readLog[0]? = some r ∧
        called.Relies twoSlots later batchMoves call.w r .producer := by
  have hresult : (((ObservedQueue.empty 18446744073709551615 (fun _ => 0)).run twoSlots
      callingMoves).bind fun queue =>
        (queue.step twoSlots (.loadReadIdx .producer 0)).bind fun called =>
          (called.run twoSlots batchMoves).map fun later =>
            (later.ring.pushed, later.ring.popped, later.isIdle .producer)) =
      some ([7, 8], [7], true) := by
    decide
  obtain ⟨queue, hbefore, hcalls⟩ := Option.bind_eq_some_iff.mp hresult
  obtain ⟨called, hcall, hmore⟩ := Option.bind_eq_some_iff.mp hcalls
  obtain ⟨later, hafter, hvalues⟩ := Option.map_eq_some_iff.mp hmore
  simp only [Prod.mk.injEq] at hvalues
  obtain ⟨hpushed, hpopped, hidle⟩ := hvalues
  exact ⟨queue, called, later, hbefore, hcall, hafter, hpushed, hpopped,
    ownCall_relies _ _ _ _ _ _ _ queue called later hbefore hcall hafter hidle⟩

end NanoMatch
