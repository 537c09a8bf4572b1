import NanoMatch.SpscQueue

/-!
# The ring is a lossless FIFO

The two indices stand for the unbounded numbers of items pushed and popped so
far.  Each side works with a possibly stale count of the other side: the
producer has seen at most as many pops as there were, the consumer at most as
many pushes.  Both errors are on the safe side, and the invariant says so: the
pushes never exceed the pops seen by more than the capacity, and the pops never
exceed the pushes seen.  The test for a full ring is an equality of wrapping
indices, which is enough for this reason.
-/

namespace NanoMatch

open CounterLog

/-! ## Wrapping indices -/

/-- The index after `count` items. -/
def indexAt (base : UInt64) (count : ℕ) : UInt64 := base + UInt64.ofNat count

section Indices

variable (size : RingSize) (base : UInt64)

theorem indexAt_add (count k : ℕ) :
    indexAt base count + UInt64.ofNat k = indexAt base (count + k) := by
  unfold indexAt
  rw [UInt64.ofNat_add, UInt64.add_assoc]

theorem indexAt_succ (count : ℕ) : indexAt base count + 1 = indexAt base (count + 1) :=
  indexAt_add base count 1

/-- The wrapping difference of two indices is the difference of the counts. -/
theorem indexAt_sub_toNat {count count' : ℕ} (hle : count ≤ count')
    (hlt : count' - count < 2 ^ 64) :
    (indexAt base count' - indexAt base count).toNat = count' - count := by
  have hsplit : indexAt base count' = indexAt base count + UInt64.ofNat (count' - count) := by
    rw [indexAt_add, Nat.add_sub_cancel' hle]
  rw [hsplit, UInt64.add_comm, UInt64.add_sub_cancel, UInt64.toNat_ofNat',
    Nat.mod_eq_of_lt hlt]

/-- Indices of counts which are not a whole turn apart tell the counts apart. -/
theorem indexAt_injective_near {count count' : ℕ}
    (hindex : indexAt base count = indexAt base count') (hnear : count < count' + 2 ^ 64)
    (hnear' : count' < count + 2 ^ 64) : count = count' := by
  have hcounts : UInt64.ofNat count = UInt64.ofNat count' := (UInt64.add_right_inj base).mp hindex
  have hmod := congrArg UInt64.toNat hcounts
  rw [UInt64.toNat_ofNat', UInt64.toNat_ofNat'] at hmod
  omega

/-- With the smaller count first, the wrapping difference has come round. -/
theorem indexAt_sub_toNat_of_le {count count' : ℕ} (hle : count ≤ count') :
    (indexAt base count - indexAt base count').toNat =
      (2 ^ 64 - (count' - count) % 2 ^ 64) % 2 ^ 64 := by
  have hsplit : indexAt base count' = indexAt base count + UInt64.ofNat (count' - count) := by
    rw [indexAt_add, Nat.add_sub_cancel' hle]
  have hneg : indexAt base count - indexAt base count' = -UInt64.ofNat (count' - count) := by
    rw [hsplit, UInt64.sub_eq_add_neg, UInt64.neg_add, UInt64.sub_eq_add_neg,
      ← UInt64.add_assoc, UInt64.add_right_neg, UInt64.zero_add]
  rw [hneg, UInt64.toNat_neg, UInt64.toNat_ofNat']
  rfl

theorem RingSize.two_pow_lt : 2 ^ size.bits < 2 ^ 64 :=
  Nat.pow_lt_pow_right (by omega) size.bits_lt

theorem RingSize.capacity_toNat : size.capacity.toNat = 2 ^ size.bits :=
  UInt64.toNat_ofNat_of_lt size.two_pow_lt

theorem RingSize.mask_toNat : size.mask.toNat = 2 ^ size.bits - 1 := by
  have hpos := Nat.two_pow_pos size.bits
  unfold RingSize.mask
  rw [UInt64.toNat_sub_of_le, size.capacity_toNat]
  · rfl
  · rw [UInt64.le_iff_toNat_le, size.capacity_toNat]
    exact hpos

theorem slot_indexAt (count : ℕ) :
    size.slot (indexAt base count) = (base.toNat + count) % 2 ^ size.bits := by
  have hdvd : 2 ^ size.bits ∣ 2 ^ 64 := Nat.pow_dvd_pow 2 size.bits_lt.le
  unfold RingSize.slot indexAt
  rw [UInt64.toNat_and, size.mask_toNat, Nat.and_two_pow_sub_one_eq_mod, UInt64.toNat_add,
    Nat.mod_mod_of_dvd _ hdvd, UInt64.toNat_ofNat', Nat.add_mod,
    Nat.mod_mod_of_dvd _ hdvd, ← Nat.add_mod]

/-- Counts less than the capacity apart use different slots. -/
theorem slot_ne {count count' : ℕ} (hlt : count < count')
    (hnear : count' < count + 2 ^ size.bits) :
    size.slot (indexAt base count') ≠ size.slot (indexAt base count) := by
  intro heq
  rw [slot_indexAt, slot_indexAt] at heq
  have hmod : base.toNat + count' ≡ base.toNat + count [MOD 2 ^ size.bits] := heq
  have hcounts := Nat.ModEq.add_left_cancel' _ hmod
  have hdvd := (Nat.modEq_iff_dvd' hlt.le).mp hcounts.symm
  have hle := Nat.le_of_dvd (by omega) hdvd
  omega

end Indices

/-! ## What each side has reserved -/

/-- The slot the producer's next access writes. -/
def Producer.target {T : Type} (size : RingSize) : Producer T → Option ℕ
  | .pushWriting _ w => some (size.slot w)
  | .batchWriting _ w n i => if i < n then some (size.slot (w + UInt64.ofNat i)) else none
  | _ => none

/-- The items already copied out of the ring by an operation in progress. -/
def Consumer.copied {T : Type} : Consumer T → List T
  | .popStoring _ out => [out]
  | .batchReading _ _ out => out
  | _ => []

/-- The slots the consumer reads between its load of `write_idx_` and its store
of `read_idx_`. -/
def Consumer.reserved {T : Type} (size : RingSize) : Consumer T → List ℕ
  | .popReading r => [size.slot r]
  | .popStoring r _ => [size.slot r]
  | .batchReading r n _ => (List.range n).map fun j => size.slot (r + UInt64.ofNat j)
  | _ => []

theorem SPSCQueue.buffer_consumerStep {T : Type} {size : RingSize}
    {queue queue' : SPSCQueue T} {position : ℕ}
    (hstep : queue.consumerStep size position = some queue') :
    queue'.buffer = queue.buffer := by
  unfold SPSCQueue.consumerStep at hstep
  split at hstep
  · cases hstep
  · split at hstep <;> cases hstep
    rfl
  · cases hstep
    rfl
  · cases hstep
    rfl
  · split at hstep <;> cases hstep
    rfl
  · split_ifs at hstep <;> cases hstep <;> rfl

theorem SPSCQueue.buffer_producerStep {T : Type} {size : RingSize}
    {queue queue' : SPSCQueue T} {position slot : ℕ}
    (hstep : queue.producerStep size position = some queue')
    (hslot : queue.producer.target size ≠ some slot) :
    queue'.buffer slot = queue.buffer slot := by
  unfold SPSCQueue.producerStep at hstep
  cases hcase : queue.producer with
  | idle returned => simp [hcase] at hstep
  | pushLoaded item w =>
      simp only [hcase] at hstep
      split at hstep <;> cases hstep
      rfl
  | pushWriting item w =>
      simp only [hcase, Option.some.injEq] at hstep
      subst hstep
      simp only [hcase, Producer.target, ne_eq, Option.some.injEq] at hslot
      exact Function.update_of_ne (fun heq => hslot heq.symm) _ _
  | pushStoring item w =>
      simp only [hcase, Option.some.injEq] at hstep
      subst hstep
      rfl
  | batchLoaded items w =>
      simp only [hcase] at hstep
      split at hstep <;> cases hstep
      rfl
  | batchWriting items w n i =>
      simp only [hcase] at hstep
      split_ifs at hstep with hmore hsome
      · cases hitem : items[i]? with
        | none => simp [hitem] at hstep
        | some item =>
            simp only [hitem, Option.some.injEq] at hstep
            subst hstep
            simp only [hcase, Producer.target, hmore, if_true, ne_eq,
              Option.some.injEq] at hslot
            exact Function.update_of_ne (fun heq => hslot heq.symm) _ _
      · cases hstep
        rfl
      · cases hstep
        rfl

theorem SPSCQueue.buffer_step {T : Type} {size : RingSize} {queue queue' : SPSCQueue T}
    {move : Move T} (hstep : queue.step size move = some queue') {slot : ℕ}
    (hslot : queue.producer.target size ≠ some slot) :
    queue'.buffer slot = queue.buffer slot := by
  unfold SPSCQueue.step at hstep
  cases move with
  | producer position => exact SPSCQueue.buffer_producerStep hstep hslot
  | consumer position => rw [SPSCQueue.buffer_consumerStep hstep]
  | _ =>
      simp only at hstep
      split at hstep <;> cases hstep
      rfl

section Reservations

variable {T : Type} (size : RingSize) (base : UInt64)

/-- The producer may publish `items` after `count` others, of which it has
written the first `written`. -/
structure Claimed (count seen : ℕ) (buffer : ℕ → T) (items : List T) (written : ℕ) :
    Prop where
  bound : written ≤ items.length
  room : count + items.length ≤ seen + 2 ^ size.bits
  stored : ∀ j < written, items[j]? = some (buffer (size.slot (indexAt base (count + j))))

def Producer.Sound (count seen : ℕ) (buffer : ℕ → T) : Producer T → Prop
  | .idle _ => True
  | .pushLoaded _ w => w = indexAt base count
  | .pushWriting item w =>
      w = indexAt base count ∧ Claimed size base count seen buffer [item] 0
  | .pushStoring item w =>
      w = indexAt base count ∧ Claimed size base count seen buffer [item] 1
  | .batchLoaded _ w => w = indexAt base count
  | .batchWriting items w n i =>
      w = indexAt base count ∧ n ≤ items.length ∧
        Claimed size base count seen buffer (items.take n) i

/-- The consumer may take `n` items after `count` others, of which it has copied
`out`. -/
structure Reserved (count seen : ℕ) (pushed : List T) (n : ℕ) (out : List T) : Prop where
  bound : out.length ≤ n
  supply : count + n ≤ seen
  copied : out <+: pushed.drop count

def Consumer.Sound (count seen : ℕ) (pushed : List T) : Consumer T → Prop
  | .idle _ => True
  | .popLoaded r => r = indexAt base count
  | .popReading r => r = indexAt base count ∧ Reserved count seen pushed 1 []
  | .popStoring r out => r = indexAt base count ∧ Reserved count seen pushed 1 [out]
  | .batchLoaded _ r => r = indexAt base count
  | .batchReading r n out => r = indexAt base count ∧ Reserved count seen pushed n out

variable {size base} {count seen seen' : ℕ}

theorem Claimed.mono {buffer : ℕ → T} {items : List T} {written : ℕ}
    (hclaimed : Claimed size base count seen buffer items written) (hle : seen ≤ seen') :
    Claimed size base count seen' buffer items written := by
  have hroom := hclaimed.room
  exact { hclaimed with room := by omega }

theorem Producer.Sound.mono {buffer : ℕ → T} {producer : Producer T}
    (hsound : producer.Sound size base count seen buffer) (hle : seen ≤ seen') :
    producer.Sound size base count seen' buffer := by
  cases producer with
  | idle _ => trivial
  | pushLoaded _ _ => exact hsound
  | pushWriting _ _ => exact ⟨hsound.1, hsound.2.mono hle⟩
  | pushStoring _ _ => exact ⟨hsound.1, hsound.2.mono hle⟩
  | batchLoaded _ _ => exact hsound
  | batchWriting _ _ _ _ => exact ⟨hsound.1, hsound.2.1, hsound.2.2.mono hle⟩

theorem Reserved.mono {pushed : List T} {n : ℕ} {out : List T}
    (hreserved : Reserved count seen pushed n out) (hle : seen ≤ seen') :
    Reserved count seen' pushed n out :=
  { hreserved with supply := hreserved.supply.trans hle }

theorem Consumer.Sound.mono {pushed : List T} {consumer : Consumer T}
    (hsound : consumer.Sound base count seen pushed) (hle : seen ≤ seen') :
    consumer.Sound base count seen' pushed := by
  cases consumer with
  | idle _ => trivial
  | popLoaded _ => exact hsound
  | popReading _ => exact ⟨hsound.1, hsound.2.mono hle⟩
  | popStoring _ _ => exact ⟨hsound.1, hsound.2.mono hle⟩
  | batchLoaded _ _ => exact hsound
  | batchReading _ _ _ => exact ⟨hsound.1, hsound.2.mono hle⟩

/-- What the consumer has copied is still at the front after more pushes. -/
theorem Consumer.Sound.extend {pushed pushed' : List T} {consumer : Consumer T}
    (hsound : consumer.Sound base count seen pushed)
    (hdrop : pushed.drop count <+: pushed'.drop count) :
    consumer.Sound base count seen pushed' := by
  cases consumer with
  | idle _ => trivial
  | popLoaded _ => exact hsound
  | popReading _ =>
      exact ⟨hsound.1, { hsound.2 with copied := hsound.2.copied.trans hdrop }⟩
  | popStoring _ _ =>
      exact ⟨hsound.1, { hsound.2 with copied := hsound.2.copied.trans hdrop }⟩
  | batchLoaded _ _ => exact hsound
  | batchReading _ _ _ =>
      exact ⟨hsound.1, { hsound.2 with copied := hsound.2.copied.trans hdrop }⟩

variable (size base)

/-- The invariant of the ring, where the producer has seen `seenReads` pops and
the consumer `seenWrites` pushes. -/
structure QueueInv (seenReads seenWrites : ℕ) (queue : SPSCQueue T) : Prop where
  writeIdx : queue.writeIdx = indexAt base queue.pushed.length
  readIdx : queue.readIdx = indexAt base queue.popped.length
  writeLog : Tracks (indexAt base) queue.writeLog queue.pushed.length queue.consumerSeen
    seenWrites
  readLog : Tracks (indexAt base) queue.readLog queue.popped.length queue.producerSeen
    seenReads
  fifo : queue.popped <+: queue.pushed
  room : queue.pushed.length ≤ seenReads + 2 ^ size.bits
  supply : queue.popped.length ≤ seenWrites
  contents : ∀ j, queue.popped.length ≤ j → j < queue.pushed.length →
    queue.pushed[j]? = some (queue.buffer (size.slot (indexAt base j)))
  producer : queue.producer.Sound size base queue.pushed.length seenReads queue.buffer
  consumer : queue.consumer.Sound base queue.popped.length seenWrites queue.pushed

end Reservations

/-! ## Steps of the producer -/

namespace QueueInv

variable {T : Type} {size : RingSize} {base : UInt64} {seenReads seenWrites : ℕ}
  {queue queue' : SPSCQueue T} {position : ℕ}

theorem setProducer (hinv : QueueInv size base seenReads seenWrites queue)
    {producer : Producer T}
    (hsound : producer.Sound size base queue.pushed.length seenReads queue.buffer) :
    QueueInv size base seenReads seenWrites { queue with producer := producer } :=
  { hinv with producer := hsound }

theorem observeReads (hinv : QueueInv size base seenReads seenWrites queue) {seen : ℕ}
    (htracks : Tracks (indexAt base) queue.readLog queue.popped.length position seen)
    (hseen : seenReads ≤ seen) {producer : Producer T}
    (hsound : producer.Sound size base queue.pushed.length seen queue.buffer) :
    QueueInv size base seen seenWrites
      { queue with producerSeen := position, producer := producer } := by
  have hroom := hinv.room
  exact { hinv with
    readLog := htracks
    room := by simp only; omega
    producer := hsound }

theorem writeSlot (hinv : QueueInv size base seenReads seenWrites queue) {k : ℕ}
    (hroom : queue.pushed.length + k < seenReads + 2 ^ size.bits) (item : T)
    {producer : Producer T}
    (hsound : producer.Sound size base queue.pushed.length seenReads
      (Function.update queue.buffer (size.slot (indexAt base (queue.pushed.length + k))) item)) :
    QueueInv size base seenReads seenWrites
      (queue.writeSlot (size.slot (indexAt base (queue.pushed.length + k))) item producer) := by
  have hreads := hinv.readLog.observed_le
  refine { hinv with contents := ?_, producer := hsound }
  intro j hpopped hpushed
  have hne := slot_ne size base (show j < queue.pushed.length + k by
    simp only [SPSCQueue.writeSlot] at hpushed; omega)
    (by simp only [SPSCQueue.writeSlot] at hpopped; omega)
  simp only [SPSCQueue.writeSlot]
  rw [Function.update_of_ne hne.symm]
  exact hinv.contents j hpopped hpushed

theorem claimed_write {count seen k : ℕ} {buffer : ℕ → T} {items : List T} {item : T}
    (hclaimed : Claimed size base count seen buffer items k) (hitem : items[k]? = some item)
    (hcapacity : items.length ≤ 2 ^ size.bits) :
    Claimed size base count seen
      (Function.update buffer (size.slot (indexAt base (count + k))) item) items (k + 1) := by
  have hk : k < items.length := (List.getElem?_eq_some_iff.mp hitem).1
  refine ⟨hk, hclaimed.room, ?_⟩
  intro j hj
  by_cases hsame : j = k
  · subst hsame
    rw [Function.update_self]
    exact hitem
  · have hne := slot_ne size base (show count + j < count + k by omega) (by omega)
    rw [Function.update_of_ne hne.symm]
    exact hclaimed.stored j (by omega)

theorem storeWriteIdx (hinv : QueueInv size base seenReads seenWrites queue) {items : List T}
    {index : UInt64} (hindex : index = indexAt base (queue.pushed.length + items.length))
    (hclaimed : Claimed size base queue.pushed.length seenReads queue.buffer items
      items.length) :
    QueueInv size base seenReads seenWrites (queue.storeWriteIdx index items) := by
  have hpopped : queue.popped.length ≤ queue.pushed.length := hinv.fifo.length_le
  have hlength : (queue.pushed ++ items).length = queue.pushed.length + items.length :=
    List.length_append
  have hlog := hinv.writeLog.store (Nat.le_add_right queue.pushed.length items.length)
  rw [← hindex] at hlog
  constructor
  · simp only [SPSCQueue.storeWriteIdx]
    rw [hindex, hlength]
  · exact hinv.readIdx
  · simp only [SPSCQueue.storeWriteIdx]
    rw [hlength]
    exact hlog
  · exact hinv.readLog
  · exact hinv.fifo.trans (List.prefix_append _ _)
  · simp only [SPSCQueue.storeWriteIdx]
    rw [hlength]
    exact hclaimed.room
  · exact hinv.supply
  · intro j hj hpushed
    simp only [SPSCQueue.storeWriteIdx] at hj hpushed ⊢
    by_cases hold : j < queue.pushed.length
    · rw [List.getElem?_append_left hold]
      exact hinv.contents j hj hold
    · rw [List.getElem?_append_right (by omega), hclaimed.stored _ (by omega)]
      rw [show queue.pushed.length + (j - queue.pushed.length) = j by omega]
  · trivial
  · apply hinv.consumer.extend
    simp only [SPSCQueue.storeWriteIdx]
    rw [List.drop_append_of_le_length hpopped]
    exact List.prefix_append _ _

theorem counts_le (hinv : QueueInv size base seenReads seenWrites queue) :
    seenReads ≤ queue.popped.length ∧ queue.popped.length ≤ seenWrites ∧
      seenWrites ≤ queue.pushed.length ∧
      queue.pushed.length ≤ seenReads + 2 ^ size.bits :=
  ⟨hinv.readLog.observed_le, hinv.supply, hinv.writeLog.observed_le, hinv.room⟩

/-- The distance the producer computes is the number of items it has to assume
in the ring. -/
theorem distance_toNat (hinv : QueueInv size base seenReads seenWrites queue) {seen : ℕ}
    (hseen : seenReads ≤ seen) (hle : seen ≤ queue.popped.length) :
    (indexAt base queue.pushed.length - indexAt base seen).toNat =
      queue.pushed.length - seen := by
  have hcounts := hinv.counts_le
  have hsize := size.two_pow_lt
  apply indexAt_sub_toNat
  · omega
  · omega

theorem pushCount_le (hinv : QueueInv size base seenReads seenWrites queue) {seen : ℕ}
    (hseen : seenReads ≤ seen) (hle : seen ≤ queue.popped.length) (items : List T) :
    (SPSCQueue.pushCount size (UInt64.ofNat items.length)
        (indexAt base queue.pushed.length) (indexAt base seen)).toNat ≤ items.length ∧
      queue.pushed.length + (SPSCQueue.pushCount size (UInt64.ofNat items.length)
        (indexAt base queue.pushed.length) (indexAt base seen)).toNat ≤
          seen + 2 ^ size.bits := by
  have hcounts := hinv.counts_le
  have hdistance := hinv.distance_toNat hseen hle
  have hcapacity := size.capacity_toNat
  have havailable : (size.capacity -
      (indexAt base queue.pushed.length - indexAt base seen)).toNat =
        2 ^ size.bits - (queue.pushed.length - seen) := by
    rw [UInt64.toNat_sub_of_le, hcapacity, hdistance]
    rw [UInt64.le_iff_toNat_le, hcapacity, hdistance]
    omega
  have hcount : (UInt64.ofNat items.length).toNat ≤ items.length := by
    rw [UInt64.toNat_ofNat']
    exact Nat.mod_le _ _
  unfold SPSCQueue.pushCount
  simp only [UInt64.lt_iff_toNat_lt, havailable]
  split_ifs with hfits
  · omega
  · rw [havailable]
    omega

theorem producerStep (hinv : QueueInv size base seenReads seenWrites queue)
    (hstep : queue.producerStep size position = some queue') :
    ∃ seenReads', QueueInv size base seenReads' seenWrites queue' := by
  have hsound := hinv.producer
  have hcounts := hinv.counts_le
  unfold SPSCQueue.producerStep at hstep
  cases hcase : queue.producer with
  | idle returned => simp [hcase] at hstep
  | pushLoaded item w =>
      rw [hcase] at hsound
      simp only [Producer.Sound] at hsound
      subst hsound
      cases hload : observe queue.readLog queue.producerSeen position with
      | none => simp [hcase, hload] at hstep
      | some r =>
          simp only [hcase, hload, Option.some.injEq] at hstep
          subst hstep
          rcases hinv.readLog.load hload with ⟨seen, rfl, hseen, hle, htracks⟩
          refine ⟨seen, hinv.observeReads htracks hseen ?_⟩
          split_ifs with hfull
          · trivial
          · have hdistance := hinv.distance_toNat hseen hle
            have hnotFull : queue.pushed.length - seen ≠ 2 ^ size.bits := by
              intro heq
              apply hfull
              rw [← UInt64.toNat_inj, hdistance, size.capacity_toNat, heq]
            refine ⟨rfl, by simp, ?_, by simp⟩
            simp only [List.length_singleton]
            omega
  | pushWriting item w =>
      rw [hcase] at hsound
      rcases hsound with ⟨rfl, hclaimed⟩
      simp only [hcase, Option.some.injEq] at hstep
      subst hstep
      have hroom := hclaimed.room
      simp only [List.length_singleton] at hroom
      have hwritten := claimed_write hclaimed (show [item][0]? = some item from rfl)
        (by simp only [List.length_singleton]; omega)
      exact ⟨seenReads, hinv.writeSlot (k := 0) (by omega) item ⟨rfl, hwritten⟩⟩
  | pushStoring item w =>
      rw [hcase] at hsound
      rcases hsound with ⟨rfl, hclaimed⟩
      simp only [hcase, Option.some.injEq] at hstep
      subst hstep
      exact ⟨seenReads, hinv.storeWriteIdx (indexAt_succ base _) hclaimed⟩
  | batchLoaded items w =>
      rw [hcase] at hsound
      simp only [Producer.Sound] at hsound
      subst hsound
      cases hload : observe queue.readLog queue.producerSeen position with
      | none => simp [hcase, hload] at hstep
      | some r =>
          simp only [hcase, hload, Option.some.injEq] at hstep
          subst hstep
          rcases hinv.readLog.load hload with ⟨seen, rfl, hseen, hle, htracks⟩
          rcases hinv.pushCount_le hseen hle items with ⟨hlength, hroom⟩
          refine ⟨seen, hinv.observeReads htracks hseen ⟨rfl, hlength, by simp, ?_, by simp⟩⟩
          rw [List.length_take, Nat.min_eq_left hlength]
          exact hroom
  | batchWriting items w n i =>
      rw [hcase] at hsound
      rcases hsound with ⟨rfl, hlength, hclaimed⟩
      have htake : (items.take n).length = n := by
        rw [List.length_take, Nat.min_eq_left hlength]
      have hroom := hclaimed.room
      have hbound := hclaimed.bound
      rw [htake] at hroom hbound
      simp only [hcase] at hstep
      split_ifs at hstep with hmore hsome
      · cases hitem : items[i]? with
        | none => simp [hitem] at hstep
        | some item =>
            simp only [hitem, Option.some.injEq] at hstep
            subst hstep
            have hwritten := claimed_write hclaimed
              (show (items.take n)[i]? = some item by rw [List.getElem?_take_of_lt hmore, hitem])
              (by rw [htake]; omega)
            rw [indexAt_add]
            exact ⟨seenReads, hinv.writeSlot (by omega) item ⟨rfl, hlength, hwritten⟩⟩
      · rw [Option.some.injEq] at hstep
        subst hstep
        have hdone : i = (items.take n).length := by
          rw [htake]
          omega
        rw [hdone] at hclaimed
        refine ⟨seenReads, hinv.storeWriteIdx ?_ hclaimed⟩
        rw [indexAt_add, htake]
      · rw [Option.some.injEq] at hstep
        subst hstep
        exact ⟨seenReads, hinv.setProducer trivial⟩

/-! ## Steps of the consumer -/

theorem setConsumer (hinv : QueueInv size base seenReads seenWrites queue)
    {consumer : Consumer T}
    (hsound : consumer.Sound base queue.popped.length seenWrites queue.pushed) :
    QueueInv size base seenReads seenWrites { queue with consumer := consumer } :=
  { hinv with consumer := hsound }

theorem observeWrites (hinv : QueueInv size base seenReads seenWrites queue) {seen : ℕ}
    (htracks : Tracks (indexAt base) queue.writeLog queue.pushed.length position seen)
    (hseen : seenWrites ≤ seen) {consumer : Consumer T}
    (hsound : consumer.Sound base queue.popped.length seen queue.pushed) :
    QueueInv size base seenReads seen
      { queue with consumerSeen := position, consumer := consumer } :=
  { hinv with
    writeLog := htracks
    supply := hinv.supply.trans hseen
    consumer := hsound }

theorem reserved_copy (hinv : QueueInv size base seenReads seenWrites queue) {n : ℕ}
    {out : List T}
    (hreserved : Reserved queue.popped.length seenWrites queue.pushed n out)
    (hmore : out.length < n) :
    Reserved queue.popped.length seenWrites queue.pushed n
      (out ++ [queue.buffer (size.slot
        (indexAt base (queue.popped.length + out.length)))]) := by
  have hcounts := hinv.counts_le
  have hsupply := hreserved.supply
  have hitem := hinv.contents (queue.popped.length + out.length) (by omega) (by omega)
  rw [← List.getElem?_drop] at hitem
  refine ⟨by simpa using hmore, hsupply, ?_⟩
  rcases hreserved.copied with ⟨rest, hrest⟩
  rw [← hrest, List.getElem?_append_right le_rfl, Nat.sub_self] at hitem
  cases rest with
  | nil => exact absurd hitem (by simp)
  | cons item rest =>
      rw [List.getElem?_cons_zero, Option.some.injEq] at hitem
      rw [← hrest, ← hitem]
      exact ⟨rest, by simp⟩

theorem storeReadIdx (hinv : QueueInv size base seenReads seenWrites queue) {out : List T}
    {index : UInt64} (hindex : index = indexAt base (queue.popped.length + out.length))
    (hreserved : Reserved queue.popped.length seenWrites queue.pushed out.length out) :
    QueueInv size base seenReads seenWrites (queue.storeReadIdx index out) := by
  have hlength : (queue.popped ++ out).length = queue.popped.length + out.length :=
    List.length_append
  have hlog := hinv.readLog.store (Nat.le_add_right queue.popped.length out.length)
  rw [← hindex] at hlog
  constructor
  · exact hinv.writeIdx
  · simp only [SPSCQueue.storeReadIdx]
    rw [hindex, hlength]
  · exact hinv.writeLog
  · simp only [SPSCQueue.storeReadIdx]
    rw [hlength]
    exact hlog
  · have hsplit := List.prefix_iff_eq_append.mp hinv.fifo
    simp only [SPSCQueue.storeReadIdx]
    rw [← hsplit, List.prefix_append_right_inj]
    exact hreserved.copied
  · exact hinv.room
  · simp only [SPSCQueue.storeReadIdx]
    rw [hlength]
    exact hreserved.supply
  · intro j hj hpushed
    simp only [SPSCQueue.storeReadIdx] at hj hpushed ⊢
    rw [hlength] at hj
    exact hinv.contents j (by omega) hpushed
  · exact hinv.producer
  · trivial

theorem popCount_le (hinv : QueueInv size base seenReads seenWrites queue) {seen : ℕ}
    (hseen : seenWrites ≤ seen) (hle : seen ≤ queue.pushed.length) (maxCount : UInt64) :
    queue.popped.length + (SPSCQueue.popCount maxCount (indexAt base seen)
      (indexAt base queue.popped.length)).toNat ≤ seen := by
  have hcounts := hinv.counts_le
  have hsize := size.two_pow_lt
  have havailable : (indexAt base seen - indexAt base queue.popped.length).toNat =
      seen - queue.popped.length := by
    apply indexAt_sub_toNat
    · omega
    · omega
  unfold SPSCQueue.popCount
  simp only [UInt64.lt_iff_toNat_lt, havailable]
  split_ifs with hfewer
  · omega
  · rw [havailable]
    omega

theorem consumerStep (hinv : QueueInv size base seenReads seenWrites queue)
    (hstep : queue.consumerStep size position = some queue') :
    ∃ seenWrites', QueueInv size base seenReads seenWrites' queue' := by
  have hsound := hinv.consumer
  unfold SPSCQueue.consumerStep at hstep
  cases hcase : queue.consumer with
  | idle returned => simp [hcase] at hstep
  | popLoaded r =>
      rw [hcase] at hsound
      simp only [Consumer.Sound] at hsound
      subst hsound
      cases hload : observe queue.writeLog queue.consumerSeen position with
      | none => simp [hcase, hload] at hstep
      | some w =>
          simp only [hcase, hload, Option.some.injEq] at hstep
          subst hstep
          rcases hinv.writeLog.load hload with ⟨seen, rfl, hseen, _, htracks⟩
          refine ⟨seen, hinv.observeWrites htracks hseen ?_⟩
          split_ifs with hempty
          · trivial
          · have hne : queue.popped.length ≠ seen := by
              intro heq
              exact hempty (by rw [heq])
            have hsupply := hinv.supply
            exact ⟨rfl, by simp, by omega, List.nil_prefix⟩
  | popReading r =>
      rw [hcase] at hsound
      rcases hsound with ⟨rfl, hreserved⟩
      simp only [hcase, Option.some.injEq] at hstep
      subst hstep
      exact ⟨seenWrites, hinv.setConsumer ⟨rfl, hinv.reserved_copy hreserved (by simp)⟩⟩
  | popStoring r out =>
      rw [hcase] at hsound
      rcases hsound with ⟨rfl, hreserved⟩
      simp only [hcase, Option.some.injEq] at hstep
      subst hstep
      exact ⟨seenWrites, hinv.storeReadIdx (indexAt_succ base _) hreserved⟩
  | batchLoaded maxCount r =>
      rw [hcase] at hsound
      simp only [Consumer.Sound] at hsound
      subst hsound
      cases hload : observe queue.writeLog queue.consumerSeen position with
      | none => simp [hcase, hload] at hstep
      | some w =>
          simp only [hcase, hload, Option.some.injEq] at hstep
          subst hstep
          rcases hinv.writeLog.load hload with ⟨seen, rfl, hseen, hle, htracks⟩
          exact ⟨seen, hinv.observeWrites htracks hseen
            ⟨rfl, by simp, hinv.popCount_le hseen hle maxCount, List.nil_prefix⟩⟩
  | batchReading r n out =>
      rw [hcase] at hsound
      rcases hsound with ⟨rfl, hreserved⟩
      simp only [hcase] at hstep
      split_ifs at hstep with hmore hsome
      · rw [Option.some.injEq] at hstep
        subst hstep
        rw [indexAt_add]
        exact ⟨seenWrites, hinv.setConsumer ⟨rfl, hinv.reserved_copy hreserved hmore⟩⟩
      · rw [Option.some.injEq] at hstep
        subst hstep
        have hdone : n = out.length := le_antisymm (not_lt.mp hmore) hreserved.bound
        subst hdone
        exact ⟨seenWrites, hinv.storeReadIdx (indexAt_add base _ _) hreserved⟩
      · rw [Option.some.injEq] at hstep
        subst hstep
        exact ⟨seenWrites, hinv.setConsumer trivial⟩

/-! ## Runs -/

theorem empty (base : UInt64) (buffer : ℕ → T) :
    QueueInv size base 0 0 (SPSCQueue.empty base buffer) := by
  have hbase : indexAt base 0 = base := by simp [indexAt]
  have htracks : Tracks (indexAt base) [base] 0 0 0 := by
    have hsingle := Tracks.single (indexAt base) 0
    rwa [hbase] at hsingle
  refine ⟨hbase.symm, hbase.symm, htracks, htracks, List.prefix_rfl, ?_, le_rfl, ?_, trivial,
    trivial⟩
  · exact Nat.zero_le _
  · intro j _ hj
    exact absurd hj (by simp [SPSCQueue.empty])

theorem step (hinv : QueueInv size base seenReads seenWrites queue) {move : Move T}
    (hstep : queue.step size move = some queue') :
    ∃ seenReads' seenWrites', QueueInv size base seenReads' seenWrites' queue' := by
  unfold SPSCQueue.step at hstep
  cases move with
  | tryPush item =>
      cases hcase : queue.producer <;> simp only [hcase, Option.some.injEq, reduceCtorEq] at hstep
      subst hstep
      exact ⟨seenReads, seenWrites, hinv.setProducer hinv.writeIdx⟩
  | tryPushBatch items =>
      cases hcase : queue.producer <;> simp only [hcase, Option.some.injEq, reduceCtorEq] at hstep
      subst hstep
      exact ⟨seenReads, seenWrites, hinv.setProducer hinv.writeIdx⟩
  | producer position =>
      rcases hinv.producerStep hstep with ⟨seenReads', hnext⟩
      exact ⟨seenReads', seenWrites, hnext⟩
  | tryPop =>
      cases hcase : queue.consumer <;> simp only [hcase, Option.some.injEq, reduceCtorEq] at hstep
      subst hstep
      exact ⟨seenReads, seenWrites, hinv.setConsumer hinv.readIdx⟩
  | tryPopBatch maxCount =>
      cases hcase : queue.consumer <;> simp only [hcase, Option.some.injEq, reduceCtorEq] at hstep
      subst hstep
      exact ⟨seenReads, seenWrites, hinv.setConsumer hinv.readIdx⟩
  | consumer position =>
      rcases hinv.consumerStep hstep with ⟨seenWrites', hnext⟩
      exact ⟨seenReads, seenWrites', hnext⟩

theorem run (hinv : QueueInv size base seenReads seenWrites queue) {moves : List (Move T)}
    (hrun : queue.run size moves = some queue') :
    ∃ seenReads' seenWrites', QueueInv size base seenReads' seenWrites' queue' := by
  unfold SPSCQueue.run at hrun
  refine PartialRun.invariant (motive := fun queue => ∃ seenReads seenWrites,
    QueueInv size base seenReads seenWrites queue) ?_ ⟨seenReads, seenWrites, hinv⟩ hrun
  intro ring move next hbefore hnext
  obtain ⟨_, _, hring⟩ := hbefore
  exact hring.step hnext

/-! ## Separation -/

/-- A slot about to be written belongs to a count between the pushes and the
next full ring. -/
theorem exists_target (hinv : QueueInv size base seenReads seenWrites queue) {slot : ℕ}
    (htarget : queue.producer.target size = some slot) :
    ∃ count, slot = size.slot (indexAt base count) ∧ queue.pushed.length ≤ count ∧
      count < seenReads + 2 ^ size.bits := by
  have hsound := hinv.producer
  cases hcase : queue.producer with
  | idle returned => simp [hcase, Producer.target] at htarget
  | pushLoaded item w => simp [hcase, Producer.target] at htarget
  | pushStoring item w => simp [hcase, Producer.target] at htarget
  | batchLoaded items w => simp [hcase, Producer.target] at htarget
  | pushWriting item w =>
      rw [hcase] at hsound
      rcases hsound with ⟨rfl, hclaimed⟩
      simp only [hcase, Producer.target, Option.some.injEq] at htarget
      have hroom := hclaimed.room
      simp only [List.length_singleton] at hroom
      exact ⟨_, htarget.symm, le_rfl, by omega⟩
  | batchWriting items w n i =>
      rw [hcase] at hsound
      rcases hsound with ⟨rfl, hlength, hclaimed⟩
      simp only [hcase, Producer.target] at htarget
      split_ifs at htarget with hmore
      rw [Option.some.injEq, indexAt_add] at htarget
      have hroom := hclaimed.room
      rw [List.length_take, Nat.min_eq_left hlength] at hroom
      exact ⟨_, htarget.symm, by omega, by omega⟩

/-- A slot about to be read belongs to an item which is still in the ring. -/
theorem exists_reserved (hinv : QueueInv size base seenReads seenWrites queue) {slot : ℕ}
    (hslot : slot ∈ queue.consumer.reserved size) :
    ∃ count, slot = size.slot (indexAt base count) ∧ queue.popped.length ≤ count ∧
      count < seenWrites := by
  have hsound := hinv.consumer
  cases hcase : queue.consumer with
  | idle returned => simp [hcase, Consumer.reserved] at hslot
  | popLoaded r => simp [hcase, Consumer.reserved] at hslot
  | batchLoaded maxCount r => simp [hcase, Consumer.reserved] at hslot
  | popReading r =>
      rw [hcase] at hsound
      rcases hsound with ⟨rfl, hreserved⟩
      simp only [hcase, Consumer.reserved, List.mem_singleton] at hslot
      exact ⟨_, hslot, le_rfl, hreserved.supply⟩
  | popStoring r out =>
      rw [hcase] at hsound
      rcases hsound with ⟨rfl, hreserved⟩
      simp only [hcase, Consumer.reserved, List.mem_singleton] at hslot
      exact ⟨_, hslot, le_rfl, hreserved.supply⟩
  | batchReading r n out =>
      rw [hcase] at hsound
      rcases hsound with ⟨rfl, hreserved⟩
      simp only [hcase, Consumer.reserved, List.mem_map, List.mem_range] at hslot
      rcases hslot with ⟨j, hj, hslot⟩
      rw [indexAt_add] at hslot
      have hsupply := hreserved.supply
      exact ⟨_, hslot.symm, by omega, by omega⟩

theorem target_notMem_reserved (hinv : QueueInv size base seenReads seenWrites queue)
    {slot : ℕ} (htarget : queue.producer.target size = some slot) :
    slot ∉ queue.consumer.reserved size := by
  intro hreserved
  have hcounts := hinv.counts_le
  rcases hinv.exists_target htarget with ⟨count, hcount, hpushed, hroom⟩
  rcases hinv.exists_reserved hreserved with ⟨count', hcount', hpopped, hseen⟩
  rw [hcount] at hcount'
  exact slot_ne size base (show count' < count by omega) (by omega) hcount'

theorem copied_drop (hinv : QueueInv size base seenReads seenWrites queue) :
    queue.consumer.copied <+: queue.pushed.drop queue.popped.length := by
  have hsound := hinv.consumer
  cases hcase : queue.consumer with
  | popStoring r out =>
      rw [hcase] at hsound
      exact hsound.2.copied
  | batchReading r n out =>
      rw [hcase] at hsound
      exact hsound.2.copied
  | _ => exact List.nil_prefix

end QueueInv

/-! ## The guarantee -/

/-- The ring seen from outside.  The items in it are those pushed and not popped,
and no move writes a slot the consumer has reserved. -/
structure LosslessFifo {T : Type} (size : RingSize) (queue : SPSCQueue T) : Prop where
  popped_pushed : queue.popped <+: queue.pushed
  copied_pushed : queue.popped ++ queue.consumer.copied <+: queue.pushed
  distance : (queue.writeIdx - queue.readIdx).toNat ≤ 2 ^ size.bits
  contents : queue.pushed.drop queue.popped.length =
    (List.range (queue.writeIdx - queue.readIdx).toNat).map fun k =>
      queue.buffer (size.slot (queue.readIdx + UInt64.ofNat k))
  separate : ∀ slot, queue.producer.target size = some slot →
    slot ∉ queue.consumer.reserved size
  untouched : ∀ move queue', queue.step size move = some queue' →
    ∀ slot ∈ queue.consumer.reserved size, queue'.buffer slot = queue.buffer slot

theorem QueueInv.losslessFifo {T : Type} {size : RingSize} {base : UInt64}
    {seenReads seenWrites : ℕ} {queue : SPSCQueue T}
    (hinv : QueueInv size base seenReads seenWrites queue) : LosslessFifo size queue := by
  have hcounts := hinv.counts_le
  have hsize := size.two_pow_lt
  have hdistance : (queue.writeIdx - queue.readIdx).toNat =
      queue.pushed.length - queue.popped.length := by
    rw [hinv.writeIdx, hinv.readIdx]
    apply indexAt_sub_toNat
    · omega
    · omega
  constructor
  · exact hinv.fifo
  · rw [← List.prefix_iff_eq_append.mp hinv.fifo, List.prefix_append_right_inj]
    exact hinv.copied_drop
  · omega
  · rw [hdistance, hinv.readIdx]
    apply List.ext_getElem?
    intro k
    simp only [indexAt_add, List.getElem?_drop, List.getElem?_map]
    by_cases hk : k < queue.pushed.length - queue.popped.length
    · rw [List.getElem?_range hk, hinv.contents _ (by omega) (by omega)]
      rfl
    · rw [List.getElem?_eq_none (by omega), List.getElem?_eq_none (by simpa using hk)]
      rfl
  · intro slot htarget
    exact hinv.target_notMem_reserved htarget
  · intro move queue' hstep slot hslot
    exact SPSCQueue.buffer_step hstep
      (fun htarget => hinv.target_notMem_reserved htarget hslot)

/-- Under any interleaving, with stale loads, from any start of the indices. -/
theorem spsc_losslessFifo {T : Type} (size : RingSize) (base : UInt64) (buffer : ℕ → T)
    (moves : List (Move T)) (queue : SPSCQueue T)
    (hrun : (SPSCQueue.empty base buffer).run size moves = some queue) :
    LosslessFifo size queue := by
  rcases (QueueInv.empty base buffer).run hrun with ⟨_, _, hinv⟩
  exact hinv.losslessFifo

/-- A ring of two slots whose indices are about to wrap: a push, then a pop and a
batch of two at the same time.  The batch loads the old `read_idx_` and so
claims one slot only. -/
def sampleMoves : List (Move ℕ) :=
  [.tryPush 7, .producer 0, .producer 0, .producer 0, .tryPop, .tryPushBatch [8, 9],
    .consumer 1, .producer 0, .consumer 0, .producer 0, .consumer 0, .producer 0]

theorem spsc_losslessFifo_sample :
    ∃ queue : SPSCQueue ℕ,
      (SPSCQueue.empty 18446744073709551615 (fun _ => 0)).run ⟨1, by omega⟩ sampleMoves =
        some queue ∧
      queue.pushed = [7, 8] ∧ queue.popped = [7] ∧ queue.writeIdx = 1 ∧
      LosslessFifo ⟨1, by omega⟩ queue := by
  have hresult : ((SPSCQueue.empty 18446744073709551615 (fun _ => 0)).run ⟨1, by omega⟩
      sampleMoves).map (fun queue => (queue.pushed, queue.popped, queue.writeIdx)) =
        some ([7, 8], [7], 1) := by
    decide
  cases hrun : (SPSCQueue.empty 18446744073709551615 (fun _ => 0)).run ⟨1, by omega⟩
      sampleMoves with
  | none =>
      rw [hrun] at hresult
      exact absurd hresult (by simp)
  | some queue =>
      rw [hrun] at hresult
      simp only [Option.map_some, Option.some.injEq, Prod.mk.injEq] at hresult
      exact ⟨queue, rfl, hresult.1, hresult.2.1, hresult.2.2,
        spsc_losslessFifo _ _ _ _ queue hrun⟩

end NanoMatch
