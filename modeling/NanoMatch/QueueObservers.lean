import NanoMatch.SpscQueue

/-!
# Observers of the ring

`size_approx()` loads `write_idx_` and then `read_idx_`, and any thread may call
it: the producer or the consumer between two of its operations, or a thread
which only watches the queue.  Both loads are acquire loads.  A store carries
the position its thread had last seen in the other log, and a load of the entry
makes sure that nothing older is loaded afterwards.
-/

namespace NanoMatch

open CounterLog

/-- The thread of a call of `size_approx()`. -/
inductive Observer where
  | producer
  | consumer
  | monitor (id : ℕ)
  deriving DecidableEq

/-- The two threads which store an index themselves. -/
def Observer.storesIndex : Observer → Bool
  | .producer | .consumer => true
  | .monitor _ => false

def Move.thread {T : Type} (move : Move T) : Observer :=
  if move.byProducer then .producer else .consumer

/-- How far a thread has read the two logs. -/
structure View where
  writes : ℕ
  reads : ℕ

/-- A call of `size_approx()` after its first load, with the number of items
pushed by the store it has seen. -/
structure PendingCall where
  w : UInt64
  pushes : ℕ

/-- A call of `size_approx()` which has returned, with the numbers of items pushed
and popped by the stores it has seen. -/
structure SizeCall where
  observer : Observer
  pushes : ℕ
  pops : ℕ
  returned : UInt64
  deriving DecidableEq

/-- The ring with the calls of `size_approx()`.  `writes` and `reads` stamp the
entries of the two logs, and `views` belong to the monitoring threads. -/
structure ObservedQueue (T : Type) where
  ring : SPSCQueue T
  writes : List Stamp
  reads : List Stamp
  views : ℕ → View
  pending : Observer → Option PendingCall
  calls : List SizeCall

inductive ObservedMove (T : Type) where
  | ring (move : Move T)
  | loadWriteIdx (observer : Observer) (position : ℕ)
  | loadReadIdx (observer : Observer) (position : ℕ)

/-- What `size_approx()` computes from its two loads. -/
def sizeApprox (w r : UInt64) : UInt64 := w - r

namespace ObservedQueue

variable {T : Type}

/-- An empty queue whose indices start anywhere. -/
def empty (base : UInt64) (buffer : ℕ → T) : ObservedQueue T where
  ring := .empty base buffer
  writes := [⟨0, 0⟩]
  reads := [⟨0, 0⟩]
  views := fun _ => ⟨0, 0⟩
  pending := fun _ => none
  calls := []

/-! ## Views -/

/-- The oldest store of `write_idx_` a thread may still load. -/
def writeSeen (queue : ObservedQueue T) : Observer → ℕ
  | .producer => queue.ring.writeLog.length - 1
  | .consumer => queue.ring.consumerSeen
  | .monitor id => (queue.views id).writes

/-- The oldest store of `read_idx_` a thread may still load. -/
def readSeen (queue : ObservedQueue T) : Observer → ℕ
  | .producer => queue.ring.producerSeen
  | .consumer => queue.ring.readLog.length - 1
  | .monitor id => (queue.views id).reads

/-- The thread has loaded `write_idx_`.  What the producer had seen of `read_idx_`
is new to a monitoring thread only. -/
def sawWrite (queue : ObservedQueue T) (observer : Observer) (position : ℕ) (stamp : Stamp) :
    ObservedQueue T :=
  match observer with
  | .producer => queue
  | .consumer => { queue with ring := { queue.ring with consumerSeen := position } }
  | .monitor id =>
      { queue with
        views := Function.update queue.views id
          ⟨position, max (queue.views id).reads stamp.seen⟩ }

/-- The thread has loaded `read_idx_`. -/
def sawRead (queue : ObservedQueue T) (observer : Observer) (position : ℕ) (stamp : Stamp) :
    ObservedQueue T :=
  match observer with
  | .producer => { queue with ring := { queue.ring with producerSeen := position } }
  | .consumer => queue
  | .monitor id =>
      { queue with
        views := Function.update queue.views id
          ⟨max (queue.views id).writes stamp.seen, position⟩ }

/-! ## Runs -/

/-- A move of the ring; a store is stamped with what its thread has seen. -/
def advance (queue : ObservedQueue T) (ring : SPSCQueue T) : ObservedQueue T :=
  { queue with
    ring := ring
    writes :=
      if queue.ring.writeLog.length < ring.writeLog.length then
        queue.writes ++ [⟨ring.pushed.length, ring.producerSeen⟩]
      else queue.writes
    reads :=
      if queue.ring.readLog.length < ring.readLog.length then
        queue.reads ++ [⟨ring.popped.length, ring.consumerSeen⟩]
      else queue.reads }

/-- Whether the thread is between two operations of the ring. -/
def isIdle (queue : ObservedQueue T) : Observer → Bool
  | .producer => match queue.ring.producer with
      | .idle _ => true
      | _ => false
  | .consumer => match queue.ring.consumer with
      | .idle _ => true
      | _ => false
  | .monitor _ => true

def begin (queue : ObservedQueue T) (observer : Observer) (call : PendingCall) :
    ObservedQueue T :=
  { queue with pending := Function.update queue.pending observer (some call) }

def finish (queue : ObservedQueue T) (observer : Observer) (call : SizeCall) :
    ObservedQueue T :=
  { queue with
    pending := Function.update queue.pending observer none
    calls := queue.calls ++ [call] }

/-- One move.  A thread in the middle of `size_approx()` makes no other. -/
def step (size : RingSize) (queue : ObservedQueue T) :
    ObservedMove T → Option (ObservedQueue T)
  | .ring move =>
      match queue.pending move.thread with
      | some _ => none
      | none => (queue.ring.step size move).map queue.advance
  | .loadWriteIdx observer position =>
      match queue.pending observer, queue.isIdle observer with
      | none, true => do
          let w ← observe queue.ring.writeLog (queue.writeSeen observer) position
          let stamp ← queue.writes[position]?
          return (queue.sawWrite observer position stamp).begin observer ⟨w, stamp.count⟩
      | _, _ => none
  | .loadReadIdx observer position =>
      match queue.pending observer with
      | none => none
      | some call => do
          let r ← observe queue.ring.readLog (queue.readSeen observer) position
          let stamp ← queue.reads[position]?
          return (queue.sawRead observer position stamp).finish observer
            ⟨observer, call.pushes, stamp.count, sizeApprox call.w r⟩

/-- A run, unless one of its moves is impossible where it stands. -/
def run (size : RingSize) (queue : ObservedQueue T) (moves : List (ObservedMove T)) :
    Option (ObservedQueue T) :=
  moves.foldlM (step size) queue

/-! ## What a load leaves alone -/

section Fields

variable (queue : ObservedQueue T) (observer : Observer) (position : ℕ) (stamp : Stamp)

@[simp] theorem reads_sawWrite : (queue.sawWrite observer position stamp).reads = queue.reads := by
  cases observer <;> rfl

@[simp] theorem writes_sawWrite :
    (queue.sawWrite observer position stamp).writes = queue.writes := by
  cases observer <;> rfl

@[simp] theorem pushed_sawWrite :
    (queue.sawWrite observer position stamp).ring.pushed = queue.ring.pushed := by
  cases observer <;> rfl

@[simp] theorem popped_sawWrite :
    (queue.sawWrite observer position stamp).ring.popped = queue.ring.popped := by
  cases observer <;> rfl

@[simp] theorem pending_sawWrite :
    (queue.sawWrite observer position stamp).pending = queue.pending := by
  cases observer <;> rfl

@[simp] theorem calls_sawWrite : (queue.sawWrite observer position stamp).calls = queue.calls := by
  cases observer <;> rfl

@[simp] theorem reads_sawRead : (queue.sawRead observer position stamp).reads = queue.reads := by
  cases observer <;> rfl

@[simp] theorem writes_sawRead :
    (queue.sawRead observer position stamp).writes = queue.writes := by
  cases observer <;> rfl

@[simp] theorem pushed_sawRead :
    (queue.sawRead observer position stamp).ring.pushed = queue.ring.pushed := by
  cases observer <;> rfl

@[simp] theorem popped_sawRead :
    (queue.sawRead observer position stamp).ring.popped = queue.ring.popped := by
  cases observer <;> rfl

@[simp] theorem pending_sawRead :
    (queue.sawRead observer position stamp).pending = queue.pending := by
  cases observer <;> rfl

@[simp] theorem calls_sawRead : (queue.sawRead observer position stamp).calls = queue.calls := by
  cases observer <;> rfl

end Fields

variable {observer other : Observer}

theorem readSeen_sawWrite_of_ne (queue : ObservedQueue T) (hne : observer ≠ other) (position : ℕ)
    (stamp : Stamp) : (queue.sawWrite other position stamp).readSeen observer =
      queue.readSeen observer := by
  cases other with
  | producer => rfl
  | consumer => cases observer <;> rfl
  | monitor id =>
      cases observer with
      | producer => rfl
      | consumer => rfl
      | monitor id' =>
          have hid : id' ≠ id := fun heq => hne (by rw [heq])
          simp [sawWrite, readSeen, Function.update_of_ne hid]

theorem readSeen_sawRead_of_ne (queue : ObservedQueue T) (hne : observer ≠ other) (position : ℕ)
    (stamp : Stamp) : (queue.sawRead other position stamp).readSeen observer =
      queue.readSeen observer := by
  cases other with
  | producer =>
      cases observer with
      | producer => exact absurd rfl hne
      | consumer => rfl
      | monitor id => rfl
  | consumer => rfl
  | monitor id =>
      cases observer with
      | producer => rfl
      | consumer => rfl
      | monitor id' =>
          have hid : id' ≠ id := fun heq => hne (by rw [heq])
          simp [sawRead, readSeen, Function.update_of_ne hid]

theorem reads_advance_extends (queue : ObservedQueue T) (ring' : SPSCQueue T) :
    queue.reads <+: (queue.advance ring').reads := by
  simp only [advance]
  split_ifs
  · exact List.prefix_append _ _
  · exact List.prefix_rfl

end ObservedQueue

end NanoMatch
