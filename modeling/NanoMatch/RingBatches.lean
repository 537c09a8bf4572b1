import NanoMatch.SpscFifo

/-!
# Batches of the ring

The operations of `SPSCQueue` as functions of the indices and the buffer, for an
operation which is not interrupted and loads the newest index of the other side.
The single operations compare indices, the batches compute how much room or how
many items there are.  As long as the ring holds at most its capacity the two agree,
wherever the indices stand.
-/

namespace NanoMatch

open CounterLog

structure Ring (T : Type) where
  buffer : ℕ → T
  writeIdx : UInt64
  readIdx : UInt64

namespace Ring

variable {T : Type} (size : RingSize)

/-- How many items the ring holds. -/
def occupancy (ring : Ring T) : ℕ := (ring.writeIdx - ring.readIdx).toNat

def tryPush (ring : Ring T) (item : T) : Ring T × Bool :=
  let w := ring.writeIdx
  if w - ring.readIdx = size.capacity then (ring, false)
  else
    ({ ring with
        buffer := Function.update ring.buffer (size.slot w) item
        writeIdx := w + 1 }, true)

def tryPop (ring : Ring T) : Ring T × Option T :=
  let r := ring.readIdx
  if r = ring.writeIdx then (ring, none)
  else ({ ring with readIdx := r + 1 }, some (ring.buffer (size.slot r)))

/-- The loop of `try_push_batch` over `count` items from `i`. -/
def writeLoop (items : ℕ → T) (w : UInt64) : ℕ → ℕ → (ℕ → T) → ℕ → T
  | 0, _, buffer => buffer
  | count + 1, i, buffer => writeLoop items w count (i + 1)
      (Function.update buffer (size.slot (w + UInt64.ofNat i)) (items i))

def tryPushBatch (ring : Ring T) (items : ℕ → T) (count : UInt64) : Ring T × UInt64 :=
  let w := ring.writeIdx
  let n := SPSCQueue.pushCount size count w ring.readIdx
  let buffer := writeLoop size items w n.toNat 0 ring.buffer
  (⟨buffer, if 0 < n then w + n else w, ring.readIdx⟩, n)

/-- The loop of `try_pop_batch` over `count` items from `i`. -/
def readLoop (buffer : ℕ → T) (r : UInt64) : ℕ → ℕ → List T → List T
  | 0, _, out => out
  | count + 1, i, out => readLoop buffer r count (i + 1)
      (out ++ [buffer (size.slot (r + UInt64.ofNat i))])

def tryPopBatch (ring : Ring T) (maxCount : UInt64) : Ring T × UInt64 × List T :=
  let r := ring.readIdx
  let n := SPSCQueue.popCount maxCount ring.writeIdx r
  let out := readLoop size ring.buffer r n.toNat 0 []
  ({ ring with readIdx := if 0 < n then r + n else r }, n, out)

/-! ## One item at a time -/

/-- `try_push` for the items from `i` on, at most `count` of them, up to the first
failure; with the number of successes. -/
def pushEach (items : ℕ → T) : ℕ → ℕ → Ring T → Ring T × ℕ
  | 0, i, ring => (ring, i)
  | count + 1, i, ring =>
      match ring.tryPush size (items i) with
      | (ring, true) => pushEach items count (i + 1) ring
      | (ring, false) => (ring, i)

/-- `try_pop` at most `maxCount` times up to the first failure, with the items. -/
def popEach : ℕ → List T → Ring T → Ring T × List T
  | 0, out, ring => (ring, out)
  | maxCount + 1, out, ring =>
      match ring.tryPop size with
      | (ring, some item) => popEach maxCount (out ++ [item]) ring
      | (ring, none) => (ring, out)

end Ring

/-! ## Occupancy -/

namespace Ring

variable {T : Type} {size : RingSize}

theorem toNat_sub_succ {w r : UInt64} (hlt : (w - r).toNat < 2 ^ size.bits) :
    (w + 1 - r).toNat = (w - r).toNat + 1 := by
  have hsize := size.two_pow_lt
  rw [UInt64.toNat_sub, UInt64.toNat_add, UInt64.toNat_one]
  rw [UInt64.toNat_sub] at hlt ⊢
  omega

theorem toNat_sub_pred {w r : UInt64} (hne : r ≠ w) :
    (w - (r + 1)).toNat + 1 = (w - r).toNat := by
  have hnat : r.toNat ≠ w.toNat := fun heq => hne (UInt64.toNat_inj.mp heq)
  have hw := w.toNat_lt
  have hr := r.toNat_lt
  rw [UInt64.toNat_sub, UInt64.toNat_sub, UInt64.toNat_add, UInt64.toNat_one]
  omega

theorem sub_eq_capacity_iff {w r : UInt64} :
    w - r = size.capacity ↔ (w - r).toNat = 2 ^ size.bits := by
  rw [← UInt64.toNat_inj, size.capacity_toNat]

theorem toNat_sub_eq_zero_iff {w r : UInt64} : (w - r).toNat = 0 ↔ r = w := by
  rw [← UInt64.toNat_inj, UInt64.toNat_sub]
  have hw := w.toNat_lt
  have hr := r.toNat_lt
  omega

theorem pushCount_toNat (count : UInt64) {w r : UInt64}
    (hbound : (w - r).toNat ≤ 2 ^ size.bits) :
    (SPSCQueue.pushCount size count w r).toNat =
      min count.toNat (2 ^ size.bits - (w - r).toNat) := by
  have havailable : (size.capacity - (w - r)).toNat = 2 ^ size.bits - (w - r).toNat := by
    rw [UInt64.toNat_sub_of_le, size.capacity_toNat]
    rwa [UInt64.le_iff_toNat_le, size.capacity_toNat]
  unfold SPSCQueue.pushCount
  simp only
  split_ifs with hlt
  · rw [UInt64.lt_iff_toNat_lt, havailable] at hlt
    omega
  · rw [UInt64.lt_iff_toNat_lt, havailable] at hlt
    omega

theorem popCount_toNat (maxCount w r : UInt64) :
    (SPSCQueue.popCount maxCount w r).toNat = min maxCount.toNat (w - r).toNat := by
  unfold SPSCQueue.popCount
  simp only
  split_ifs with hlt
  · rw [UInt64.lt_iff_toNat_lt] at hlt
    omega
  · rw [UInt64.lt_iff_toNat_lt] at hlt
    omega

/-! ## The operations keep the occupancy -/

theorem occupancy_tryPush {ring : Ring T} (hbound : ring.occupancy ≤ 2 ^ size.bits) (item : T) :
    (ring.tryPush size item).1.occupancy ≤ 2 ^ size.bits := by
  unfold tryPush
  simp only
  split_ifs with hfull
  · exact hbound
  · rw [sub_eq_capacity_iff] at hfull
    unfold occupancy at hbound ⊢
    have hlt : (ring.writeIdx - ring.readIdx).toNat < 2 ^ size.bits := by omega
    have hsucc := toNat_sub_succ hlt
    simp only
    omega

theorem occupancy_tryPop {ring : Ring T} (hbound : ring.occupancy ≤ 2 ^ size.bits) :
    (ring.tryPop size).1.occupancy ≤ 2 ^ size.bits := by
  unfold tryPop
  simp only
  split_ifs with hempty
  · exact hbound
  · have hpred := toNat_sub_pred hempty
    unfold occupancy at hbound ⊢
    simp only
    omega

theorem occupancy_pushEach {ring : Ring T} (items : ℕ → T) (count i : ℕ)
    (hbound : ring.occupancy ≤ 2 ^ size.bits) :
    (pushEach size items count i ring).1.occupancy ≤ 2 ^ size.bits := by
  induction count generalizing i ring with
  | zero => exact hbound
  | succ count ih =>
      have hnext := occupancy_tryPush hbound (items i)
      rw [pushEach]
      split
      · rename_i next heq
        rw [heq] at hnext
        exact ih (i + 1) hnext
      · rename_i next heq
        rw [heq] at hnext
        exact hnext

theorem occupancy_popEach {ring : Ring T} (maxCount : ℕ) (out : List T)
    (hbound : ring.occupancy ≤ 2 ^ size.bits) :
    (popEach size maxCount out ring).1.occupancy ≤ 2 ^ size.bits := by
  induction maxCount generalizing out ring with
  | zero => exact hbound
  | succ maxCount ih =>
      have hnext := occupancy_tryPop hbound
      rw [popEach]
      split
      · rename_i next item heq
        rw [heq] at hnext
        exact ih _ hnext
      · rename_i next heq
        rw [heq] at hnext
        exact hnext

/-! ## What the single operations add up to -/

/-- Pushing one by one from the index `w + i` fills the free slots the loop of the
batch fills. -/
theorem pushEach_eq (items : ℕ → T) (w : UInt64) (count i : ℕ) {ring : Ring T}
    (hindex : ring.writeIdx = w + UInt64.ofNat i) (hbound : ring.occupancy ≤ 2 ^ size.bits) :
    pushEach size items count i ring =
      (⟨writeLoop size items w (min count (2 ^ size.bits - ring.occupancy)) i ring.buffer,
        w + UInt64.ofNat (i + min count (2 ^ size.bits - ring.occupancy)), ring.readIdx⟩,
        i + min count (2 ^ size.bits - ring.occupancy)) := by
  induction count generalizing i ring with
  | zero =>
      rw [Nat.zero_min, Nat.add_zero, ← hindex]
      rfl
  | succ count ih =>
      rw [pushEach, tryPush]
      by_cases hfull : ring.writeIdx - ring.readIdx = size.capacity
      · have hoccupied : ring.occupancy = 2 ^ size.bits := sub_eq_capacity_iff.mp hfull
        simp only [if_pos hfull, hoccupied, Nat.sub_self, Nat.min_zero, Nat.add_zero, ← hindex]
        rfl
      · have hne : ring.occupancy ≠ 2 ^ size.bits := fun heq =>
          hfull (sub_eq_capacity_iff.mpr heq)
        have hlt : ring.occupancy < 2 ^ size.bits := by omega
        have hsucc := toNat_sub_succ hlt
        have hnext : ring.writeIdx + 1 = w + UInt64.ofNat (i + 1) := by
          rw [hindex, UInt64.add_assoc, UInt64.ofNat_add]
          rfl
        rw [if_neg hfull]
        simp only
        rw [ih (i + 1) hnext (by unfold occupancy at hlt ⊢; simp only; omega)]
        have hroom : min (count + 1) (2 ^ size.bits - ring.occupancy) =
            min count (2 ^ size.bits - (ring.writeIdx + 1 - ring.readIdx).toNat) + 1 := by
          unfold occupancy at hlt ⊢
          omega
        rw [hroom, writeLoop, hindex]
        unfold occupancy
        simp only [Nat.add_assoc, Nat.add_comm 1]

theorem length_readLoop (size : RingSize) (buffer : ℕ → T) (r : UInt64) (count i : ℕ)
    (out : List T) :
    (readLoop size buffer r count i out).length = out.length + count := by
  induction count generalizing i out with
  | zero => rfl
  | succ count ih =>
      rw [readLoop, ih, List.length_append, List.length_singleton]
      omega

theorem popEach_eq (r : UInt64) (maxCount i : ℕ) (out : List T) {ring : Ring T}
    (hindex : ring.readIdx = r + UInt64.ofNat i) :
    popEach size maxCount out ring =
      (⟨ring.buffer, ring.writeIdx, r + UInt64.ofNat (i + min maxCount ring.occupancy)⟩,
        readLoop size ring.buffer r (min maxCount ring.occupancy) i out) := by
  induction maxCount generalizing i out ring with
  | zero =>
      rw [Nat.zero_min, Nat.add_zero, ← hindex]
      rfl
  | succ maxCount ih =>
      rw [popEach, tryPop]
      by_cases hempty : ring.readIdx = ring.writeIdx
      · have hoccupied : ring.occupancy = 0 := toNat_sub_eq_zero_iff.mpr hempty
        rw [if_pos hempty, hoccupied, Nat.min_zero, Nat.add_zero, ← hindex]
        rfl
      · have hpred := toNat_sub_pred hempty
        have hnext : ring.readIdx + 1 = r + UInt64.ofNat (i + 1) := by
          rw [hindex, UInt64.add_assoc, UInt64.ofNat_add]
          rfl
        rw [if_neg hempty]
        simp only
        rw [ih (i + 1) _ hnext]
        have hsupply : min (maxCount + 1) ring.occupancy =
            min maxCount (ring.writeIdx - (ring.readIdx + 1)).toNat + 1 := by
          unfold occupancy
          omega
        rw [hsupply, readLoop, hindex]
        unfold occupancy
        simp only [Nat.add_assoc, Nat.add_comm 1]

/-! ## Batches -/

/-- A store of the index only where it changes is a store of the sum. -/
theorem storedIndex_eq (index n : UInt64) : (if 0 < n then index + n else index) = index + n := by
  split_ifs with hpos
  · rfl
  · have hzero : n = 0 := by
      rw [UInt64.lt_iff_toNat_lt] at hpos
      exact UInt64.toNat_inj.mp (by simpa using hpos)
    rw [hzero, UInt64.add_zero]

theorem tryPushBatch_eq {ring : Ring T} (hbound : ring.occupancy ≤ 2 ^ size.bits)
    (items : ℕ → T) (count : UInt64) :
    (ring.tryPushBatch size items count).1 = (pushEach size items count.toNat 0 ring).1 ∧
      (ring.tryPushBatch size items count).2.toNat =
        (pushEach size items count.toNat 0 ring).2 := by
  have hcount := pushCount_toNat count hbound
  rw [pushEach_eq items ring.writeIdx count.toNat 0 (by simp) hbound]
  unfold tryPushBatch
  simp only [storedIndex_eq, Nat.zero_add]
  refine ⟨?_, hcount⟩
  have hindex : UInt64.ofNat (min count.toNat (2 ^ size.bits - ring.occupancy)) =
      SPSCQueue.pushCount size count ring.writeIdx ring.readIdx := by
    unfold occupancy
    rw [← hcount, UInt64.ofNat_toNat]
  rw [hindex, hcount]
  rfl

theorem tryPopBatch_eq (size : RingSize) (ring : Ring T) (maxCount : UInt64) :
    (ring.tryPopBatch size maxCount).1 = (popEach size maxCount.toNat [] ring).1 ∧
      (ring.tryPopBatch size maxCount).2.2 = (popEach size maxCount.toNat [] ring).2 ∧
      (ring.tryPopBatch size maxCount).2.1.toNat =
        (popEach size maxCount.toNat [] ring).2.length := by
  have hcount := popCount_toNat maxCount ring.writeIdx ring.readIdx
  rw [popEach_eq ring.readIdx maxCount.toNat 0 [] (by simp)]
  unfold tryPopBatch
  simp only [storedIndex_eq, Nat.zero_add]
  have hindex : UInt64.ofNat (min maxCount.toNat ring.occupancy) =
      SPSCQueue.popCount maxCount ring.writeIdx ring.readIdx := by
    unfold occupancy
    rw [← hcount, UInt64.ofNat_toNat]
  rw [hindex, hcount]
  refine ⟨rfl, rfl, ?_⟩
  rw [length_readLoop]
  simp [occupancy]

end Ring

/-! ## Mixed sequences -/

inductive RingOp (T : Type) where
  | push (item : T)
  | pop
  | pushBatch (items : ℕ → T) (count : UInt64)
  | popBatch (maxCount : UInt64)

namespace Ring

variable {T : Type} (size : RingSize)

/-- One operation, with how many items it has pushed and which it has popped. -/
def apply (ring : Ring T) : RingOp T → Ring T × ℕ × List T
  | .push item =>
      let (ring, ok) := ring.tryPush size item
      (ring, if ok then 1 else 0, [])
  | .pop =>
      let (ring, item) := ring.tryPop size
      (ring, 0, item.toList)
  | .pushBatch items count =>
      let (ring, n) := ring.tryPushBatch size items count
      (ring, n.toNat, [])
  | .popBatch maxCount =>
      let (ring, _, out) := ring.tryPopBatch size maxCount
      (ring, 0, out)

/-- The same with a batch taken apart into single operations. -/
def applyEach (ring : Ring T) : RingOp T → Ring T × ℕ × List T
  | .pushBatch items count =>
      let (ring, pushed) := pushEach size items count.toNat 0 ring
      (ring, pushed, [])
  | .popBatch maxCount =>
      let (ring, popped) := popEach size maxCount.toNat [] ring
      (ring, 0, popped)
  | op => ring.apply size op

/-- The ring after a sequence of operations, with the result of each. -/
def runWith (next : Ring T → RingOp T → Ring T × ℕ × List T) :
    Ring T → List (RingOp T) → Ring T × List (ℕ × List T)
  | ring, [] => (ring, [])
  | ring, op :: ops =>
      let (ring, result) := next ring op
      let (ring, results) := runWith next ring ops
      (ring, result :: results)

variable {size}

theorem apply_eq_applyEach {ring : Ring T} (hbound : ring.occupancy ≤ 2 ^ size.bits)
    (op : RingOp T) : ring.apply size op = ring.applyEach size op := by
  cases op with
  | push item => rfl
  | pop => rfl
  | pushBatch items count =>
      obtain ⟨hring, hpushed⟩ := tryPushBatch_eq hbound items count
      unfold apply applyEach
      simp only [hring, hpushed]
  | popBatch maxCount =>
      obtain ⟨hring, hpopped, -⟩ := tryPopBatch_eq size ring maxCount
      unfold apply applyEach
      simp only [hring, hpopped]

theorem occupancy_applyEach {ring : Ring T} (hbound : ring.occupancy ≤ 2 ^ size.bits)
    (op : RingOp T) : (ring.applyEach size op).1.occupancy ≤ 2 ^ size.bits := by
  cases op with
  | push item => exact occupancy_tryPush hbound item
  | pop => exact occupancy_tryPop hbound
  | pushBatch items count => exact occupancy_pushEach items count.toNat 0 hbound
  | popBatch maxCount => exact occupancy_popEach maxCount.toNat [] hbound

theorem runWith_eq {ring : Ring T} (hbound : ring.occupancy ≤ 2 ^ size.bits)
    (ops : List (RingOp T)) :
    runWith (apply size) ring ops = runWith (applyEach size) ring ops := by
  induction ops generalizing ring with
  | nil => rfl
  | cons op ops ih =>
      have hnext := ih (occupancy_applyEach hbound op)
      rw [runWith, runWith, apply_eq_applyEach hbound op]
      simp only [hnext]

end Ring

/-! ## Undisturbed operations -/

namespace SPSCQueue

variable {T : Type} {size : RingSize} {queue : SPSCQueue T} {position : ℕ}

/-- The indices and the buffer, without the threads. -/
def ring (queue : SPSCQueue T) : Ring T := ⟨queue.buffer, queue.writeIdx, queue.readIdx⟩

theorem run_cons (queue : SPSCQueue T) (move : Move T) (moves : List (Move T)) :
    queue.run size (move :: moves) =
      (queue.step size move).bind fun next => next.run size moves := rfl

theorem run_append (queue : SPSCQueue T) (moves moves' : List (Move T)) :
    queue.run size (moves ++ moves') =
      (queue.run size moves).bind fun next => next.run size moves' :=
  List.foldlM_append

/-- A push in one piece which loads the newest `read_idx_` is `tryPush`. -/
theorem run_tryPush {returned : ℕ} (hidle : queue.producer = .idle returned)
    (hfresh : observe queue.readLog queue.producerSeen position = some queue.readIdx) (item : T) :
    ∃ moves queue', queue.run size (.tryPush item :: .producer position :: moves) =
        some queue' ∧ queue'.ring = (queue.ring.tryPush size item).1 ∧
      queue'.producer = .idle (if (queue.ring.tryPush size item).2 then 1 else 0) := by
  by_cases hfull : queue.writeIdx - queue.readIdx = size.capacity
  · refine ⟨[], { queue with producerSeen := position, producer := .idle 0 }, ?_, ?_, ?_⟩
    · simp [run, step, hidle, producerStep, hfresh, hfull]
    · simp [ring, Ring.tryPush, hfull]
    · simp [ring, Ring.tryPush, hfull]
  · refine ⟨[.producer 0, .producer 0],
      ({ queue with
          buffer := Function.update queue.buffer (size.slot queue.writeIdx) item
          producerSeen := position }.storeWriteIdx (queue.writeIdx + 1) [item]), ?_, ?_, ?_⟩
    · simp [run, step, hidle, producerStep, hfresh, hfull, writeSlot, storeWriteIdx]
    · simp [ring, Ring.tryPush, hfull, storeWriteIdx]
    · simp [ring, Ring.tryPush, hfull, storeWriteIdx]

theorem run_tryPop {returned : ℕ} (hidle : queue.consumer = .idle returned)
    (hfresh : observe queue.writeLog queue.consumerSeen position = some queue.writeIdx) :
    ∃ moves queue', queue.run size (.tryPop :: .consumer position :: moves) = some queue' ∧
      queue'.ring = (queue.ring.tryPop size).1 ∧
      queue'.popped = queue.popped ++ (queue.ring.tryPop size).2.toList := by
  by_cases hempty : queue.readIdx = queue.writeIdx
  · refine ⟨[], { queue with consumerSeen := position, consumer := .idle 0 }, ?_, ?_, ?_⟩
    · simp [run, step, hidle, consumerStep, hfresh, hempty]
    · simp [ring, Ring.tryPop, hempty]
    · simp [ring, Ring.tryPop, hempty]
  · refine ⟨[.consumer 0, .consumer 0],
      ({ queue with consumerSeen := position }.storeReadIdx (queue.readIdx + 1)
        [queue.buffer (size.slot queue.readIdx)]), ?_, ?_, ?_⟩
    · simp [run, step, hidle, consumerStep, hfresh, hempty, storeReadIdx]
    · simp [ring, Ring.tryPop, hempty, storeReadIdx]
    · simp [ring, Ring.tryPop, hempty, storeReadIdx]

/-- The writes of a batch, from the item `i` on. -/
theorem run_writeLoop (size : RingSize) (queue : SPSCQueue T) {items : List T}
    {itemAt : ℕ → T} (hitems : ∀ j < items.length, items[j]? = some (itemAt j)) {w : UInt64} {n : ℕ}
    (hn : n ≤ items.length) (count i : ℕ) (hcount : i + count = n)
    (hproducer : queue.producer = .batchWriting items w n i) :
    queue.run size (List.replicate count (.producer 0)) = some { queue with
      buffer := Ring.writeLoop size itemAt w count i queue.buffer
      producer := .batchWriting items w n n } := by
  induction count generalizing i queue with
  | zero =>
      rw [Nat.add_zero] at hcount
      subst hcount
      rw [← hproducer]
      rfl
  | succ count ih =>
      have hstep : queue.step size (.producer 0) =
          some (queue.writeSlot (size.slot (w + UInt64.ofNat i)) (itemAt i)
            (.batchWriting items w n (i + 1))) := by
        have hmore : i < n := by omega
        simp [step, producerStep, hproducer, hmore, hitems i (by omega)]
      rw [List.replicate_succ, run_cons, hstep, Option.bind_some,
        ih _ (i + 1) (by omega) rfl]
      rfl

theorem run_batchWritten {items : List T} {w : UInt64} {n : ℕ}
    (hproducer : queue.producer = .batchWriting items w n n) :
    queue.run size [.producer 0] = some
      (if 0 < n then queue.storeWriteIdx (w + UInt64.ofNat n) (items.take n)
        else { queue with producer := .idle 0 }) := by
  simp only [run, List.foldlM_cons, List.foldlM_nil, step, producerStep, hproducer, lt_irrefl,
    if_false]
  split_ifs <;> rfl

theorem run_tryPushBatch {returned : ℕ} (hidle : queue.producer = .idle returned)
    (hfresh : observe queue.readLog queue.producerSeen position = some queue.readIdx)
    {items : List T} {itemAt : ℕ → T} (hlength : items.length < 2 ^ 64)
    (hitems : ∀ j < items.length, items[j]? = some (itemAt j)) :
    ∃ moves queue', queue.run size (.tryPushBatch items :: .producer position :: moves) =
        some queue' ∧
      queue'.ring =
        (queue.ring.tryPushBatch size itemAt (UInt64.ofNat items.length)).1 := by
  have hcount : (UInt64.ofNat items.length).toNat = items.length :=
    UInt64.toNat_ofNat_of_lt hlength
  have hn : (pushCount size (UInt64.ofNat items.length) queue.writeIdx queue.readIdx).toNat ≤
      items.length := by
    unfold pushCount
    simp only
    split_ifs with hlt
    · omega
    · rw [UInt64.lt_iff_toNat_lt] at hlt
      omega
  generalize hnum : pushCount size (UInt64.ofNat items.length) queue.writeIdx queue.readIdx = n
    at hn
  -- the two loads
  have hloads : queue.run size [.tryPushBatch items, .producer position] = some { queue with
      producerSeen := position
      producer := .batchWriting items queue.writeIdx n.toNat 0 } := by
    simp [run, step, hidle, producerStep, hfresh, hnum]
  have hwrites := run_writeLoop size
    { queue with
      producerSeen := position
      producer := .batchWriting items queue.writeIdx n.toNat 0 }
    hitems hn n.toNat 0 (by omega) rfl
  refine ⟨List.replicate n.toNat (.producer 0) ++ [.producer 0], ?_⟩
  rw [show (Move.tryPushBatch items :: Move.producer position ::
      (List.replicate n.toNat (Move.producer 0) ++ [Move.producer 0])) =
    [Move.tryPushBatch items, Move.producer position] ++
      (List.replicate n.toNat (Move.producer 0) ++ [Move.producer 0]) from rfl,
    run_append, hloads, Option.bind_some, run_append, hwrites, Option.bind_some]
  refine ⟨_, run_batchWritten rfl, ?_⟩
  unfold Ring.tryPushBatch
  simp only [ring, hnum, UInt64.ofNat_toNat]
  by_cases hpos : 0 < n
  · have hnat : 0 < n.toNat := hpos
    simp only [if_pos hpos, if_pos hnat]
    rfl
  · have hnat : ¬ 0 < n.toNat := hpos
    simp only [if_neg hpos, if_neg hnat]

/-- The reads of a batch, after those in `out`. -/
theorem run_readLoop (size : RingSize) (queue : SPSCQueue T) {r : UInt64} {n : ℕ}
    (count : ℕ) (out : List T) (hcount : out.length + count = n)
    (hconsumer : queue.consumer = .batchReading r n out) :
    queue.run size (List.replicate count (.consumer 0)) = some { queue with
      consumer := .batchReading r n
        (Ring.readLoop size queue.buffer r count out.length out) } := by
  induction count generalizing out queue with
  | zero =>
      rw [Ring.readLoop, ← hconsumer]
      rfl
  | succ count ih =>
      have hmore : out.length < n := by omega
      have hlength : (out ++ [queue.buffer (size.slot (r + UInt64.ofNat out.length))]).length =
          out.length + 1 := by simp
      have hstep : queue.step size (.consumer 0) = some { queue with
          consumer := .batchReading r n
            (out ++ [queue.buffer (size.slot (r + UInt64.ofNat out.length))]) } := by
        simp [step, consumerStep, hconsumer, hmore]
      rw [List.replicate_succ, run_cons, hstep, Option.bind_some, ih _ _ (by omega) rfl, hlength]
      rfl

theorem run_batchRead {r : UInt64} {n : ℕ} {out : List T} (hlength : out.length = n)
    (hconsumer : queue.consumer = .batchReading r n out) :
    queue.run size [.consumer 0] = some
      (if 0 < n then queue.storeReadIdx (r + UInt64.ofNat n) out
        else { queue with consumer := .idle 0 }) := by
  simp only [run, List.foldlM_cons, List.foldlM_nil, step, consumerStep, hconsumer, hlength,
    lt_irrefl, if_false]
  split_ifs <;> rfl

theorem run_tryPopBatch {returned : ℕ} (hidle : queue.consumer = .idle returned)
    (hfresh : observe queue.writeLog queue.consumerSeen position = some queue.writeIdx)
    (maxCount : UInt64) :
    ∃ moves queue', queue.run size (.tryPopBatch maxCount :: .consumer position :: moves) =
        some queue' ∧ queue'.ring = (queue.ring.tryPopBatch size maxCount).1 ∧
      queue'.popped = queue.popped ++ (queue.ring.tryPopBatch size maxCount).2.2 := by
  generalize hnum : popCount maxCount queue.writeIdx queue.readIdx = n
  have hloads : queue.run size [.tryPopBatch maxCount, .consumer position] = some { queue with
      consumerSeen := position
      consumer := .batchReading queue.readIdx n.toNat [] } := by
    simp [run, step, hidle, consumerStep, hfresh, hnum]
  have hreads := run_readLoop size
    { queue with
      consumerSeen := position
      consumer := .batchReading queue.readIdx n.toNat [] }
    n.toNat [] (Nat.zero_add _) rfl
  have hlength := Ring.length_readLoop size queue.buffer queue.readIdx n.toNat 0 []
  refine ⟨List.replicate n.toNat (.consumer 0) ++ [.consumer 0], ?_⟩
  rw [show (Move.tryPopBatch maxCount :: Move.consumer position ::
      (List.replicate n.toNat (Move.consumer 0) ++ [Move.consumer 0])) =
    [Move.tryPopBatch maxCount, Move.consumer position] ++
      (List.replicate n.toNat (Move.consumer 0) ++ [Move.consumer 0]) from rfl,
    run_append, hloads, Option.bind_some, run_append, hreads, Option.bind_some]
  rw [List.length_nil, Nat.zero_add] at hlength
  refine ⟨_, run_batchRead hlength rfl, ?_⟩
  unfold Ring.tryPopBatch
  simp only [ring, hnum, UInt64.ofNat_toNat]
  by_cases hpos : 0 < n
  · have hnat : 0 < n.toNat := hpos
    simp only [if_pos hpos, if_pos hnat]
    exact ⟨rfl, rfl⟩
  · have hnat : ¬ 0 < n.toNat := hpos
    have hzero : n.toNat = 0 := Nat.eq_zero_of_not_pos hnat
    simp only [if_neg hpos, hzero]
    exact ⟨rfl, (List.append_nil _).symm⟩

end SPSCQueue

/-- A batch does what the single operations do up to the first failure, alone and in
every sequence of operations. -/
theorem ring_batches_eq_singles {T : Type} (size : RingSize) (ring : Ring T)
    (hbound : ring.occupancy ≤ 2 ^ size.bits) :
    (∀ (items : ℕ → T) (count : UInt64),
      (ring.tryPushBatch size items count).1 =
          (Ring.pushEach size items count.toNat 0 ring).1 ∧
        (ring.tryPushBatch size items count).2.toNat =
          (Ring.pushEach size items count.toNat 0 ring).2) ∧
    (∀ maxCount : UInt64,
      (ring.tryPopBatch size maxCount).1 = (Ring.popEach size maxCount.toNat [] ring).1 ∧
        (ring.tryPopBatch size maxCount).2.2 =
          (Ring.popEach size maxCount.toNat [] ring).2 ∧
        (ring.tryPopBatch size maxCount).2.1.toNat =
          (Ring.popEach size maxCount.toNat [] ring).2.length) ∧
    ∀ ops : List (RingOp T),
      Ring.runWith (Ring.apply size) ring ops = Ring.runWith (Ring.applyEach size) ring ops :=
  ⟨fun items count => Ring.tryPushBatch_eq hbound items count,
    fun maxCount => Ring.tryPopBatch_eq _ ring maxCount,
    fun ops => Ring.runWith_eq hbound ops⟩

/-- A ring of four whose two items lie on both sides of the wrap of the index. -/
def wrappedRing : Ring ℕ where
  buffer := fun _ => 0
  writeIdx := 1
  readIdx := 18446744073709551615

theorem ring_batches_eq_singles_wrapped :
    wrappedRing.occupancy ≤ 2 ^ (RingSize.mk 2 (by decide)).bits ∧
      (wrappedRing.tryPushBatch ⟨2, by decide⟩ (fun i => i) 3).2.toNat = 2 := by
  have hbound : wrappedRing.occupancy ≤ 2 ^ (RingSize.mk 2 (by decide)).bits := by decide
  refine ⟨hbound, ?_⟩
  rw [((ring_batches_eq_singles _ _ hbound).1 (fun i => i) 3).2]
  decide

end NanoMatch
