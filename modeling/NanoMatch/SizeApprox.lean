import NanoMatch.SpscFifo
import NanoMatch.QueueObservers

/-!
# The range of `size_approx()`

The two loads of a call belong to different moments, so the difference of what
they return need not be a number of items.  It never exceeds the capacity as an
integer: the producer had seen enough pops before it stored the loaded
`write_idx_`, and the acquire load hands this on.  It can be negative.  A thread
which stores one of the indices itself keeps that index still during its call,
but while a monitoring thread is between its loads the consumer may take items
pushed after the first one, and then the unsigned difference comes round.
-/

namespace NanoMatch

open CounterLog

/-! ## Counts behind the positions -/

section Positions

variable {T : Type} {size : RingSize} {base : UInt64} {seenReads seenWrites : ℕ}
  {queue : SPSCQueue T}

/-- The pops the producer has seen are determined by the entry it has loaded. -/
theorem QueueInv.seenReads_eq (hinv : QueueInv size base seenReads seenWrites queue) {count : ℕ}
    (hentry : queue.readLog[queue.producerSeen]? = some (indexAt base count))
    (hle : count ≤ queue.popped.length)
    (hnear : queue.popped.length ≤ count + 2 ^ size.bits) : seenReads = count := by
  have hsize := size.two_pow_lt
  have hcounts := hinv.counts_le
  have hindex := hinv.readLog.entry
  rw [hentry, Option.some.injEq] at hindex
  exact (indexAt_injective_near base hindex (by omega) (by omega)).symm

/-- The pushes the consumer has seen are determined by the entry it has loaded. -/
theorem QueueInv.seenWrites_eq (hinv : QueueInv size base seenReads seenWrites queue)
    {count : ℕ} (hentry : queue.writeLog[queue.consumerSeen]? = some (indexAt base count))
    (hle : count ≤ queue.pushed.length)
    (hnear : queue.pushed.length ≤ count + 2 ^ size.bits) : seenWrites = count := by
  have hsize := size.two_pow_lt
  have hcounts := hinv.counts_le
  have hindex := hinv.writeLog.entry
  rw [hentry, Option.some.injEq] at hindex
  exact (indexAt_injective_near base hindex (by omega) (by omega)).symm

end Positions

section Invariant

variable {T : Type} (size : RingSize) (base : UInt64)

/-- The stamps count the items behind both logs, and every store of `write_idx_`
had room behind the pops its stamp points to. -/
structure StampedRing (ring : SPSCQueue T) (writes reads : List Stamp) : Prop where
  writeLog : Stamped (indexAt base) ring.writeLog writes ring.pushed.length
  readLog : Stamped (indexAt base) ring.readLog reads ring.popped.length
  seen : ∃ known taken, reads[ring.producerSeen]? = some known ∧
    writes[ring.consumerSeen]? = some taken ∧
    QueueInv size base known.count taken.count ring
  room : ∀ stamp ∈ writes, ∃ known, reads[stamp.seen]? = some known ∧
    stamp.count ≤ known.count + 2 ^ size.bits

/-- A call after its first load.  Whatever it may load of `read_idx_` is at most
the capacity behind, and not ahead if the thread stores an index itself. -/
structure PendingCall.Sound (queue : ObservedQueue T) (observer : Observer)
    (call : PendingCall) : Prop where
  index : call.w = indexAt base call.pushes
  room : ∃ position known, position ≤ queue.readSeen observer ∧
    queue.reads[position]? = some known ∧ call.pushes ≤ known.count + 2 ^ size.bits
  producer : observer = .producer → queue.ring.pushed.length ≤ call.pushes
  consumer : observer = .consumer → queue.ring.popped.length ≤ call.pushes

structure SizeCall.Sound (call : SizeCall) : Prop where
  returned : call.returned = indexAt base call.pushes - indexAt base call.pops
  room : call.pushes ≤ call.pops + 2 ^ size.bits
  ahead : call.observer.storesIndex → call.pops ≤ call.pushes

structure ObservedInv (queue : ObservedQueue T) : Prop where
  ring : StampedRing size base queue.ring queue.writes queue.reads
  pending : ∀ observer call, queue.pending observer = some call →
    call.Sound size base queue observer
  calls : ∀ call ∈ queue.calls, call.Sound size base

end Invariant

/-! ## Moves of the ring -/

namespace StampedRing

variable {T : Type} {size : RingSize} {base : UInt64} {ring ring' : SPSCQueue T}
  {writes reads writes' reads' : List Stamp} {seenReads seenWrites : ℕ}

/-- The invariant of the ring holds for the stamped counts whenever it holds for
some. -/
theorem restamp (hwrites : Stamped (indexAt base) ring.writeLog writes ring.pushed.length)
    (hreads : Stamped (indexAt base) ring.readLog reads ring.popped.length)
    (hinv : QueueInv size base seenReads seenWrites ring) {known taken : Stamp}
    (hknown : reads[ring.producerSeen]? = some known)
    (hreadsNear : ring.popped.length ≤ known.count + 2 ^ size.bits)
    (htaken : writes[ring.consumerSeen]? = some taken)
    (hwritesNear : ring.pushed.length ≤ taken.count + 2 ^ size.bits) :
    QueueInv size base known.count taken.count ring := by
  have hreadEntry : ring.readLog[ring.producerSeen]? = some (indexAt base known.count) := by
    rw [hreads.entries, List.getElem?_map, hknown]
    rfl
  have hwriteEntry : ring.writeLog[ring.consumerSeen]? = some (indexAt base taken.count) := by
    rw [hwrites.entries, List.getElem?_map, htaken]
    rfl
  have hseenReads := hinv.seenReads_eq hreadEntry (hreads.count_le hknown) hreadsNear
  have hseenWrites := hinv.seenWrites_eq hwriteEntry (hwrites.count_le htaken) hwritesNear
  rwa [hseenReads, hseenWrites] at hinv

theorem counts_le (hring : StampedRing size base ring writes reads) {known taken : Stamp}
    (hknown : reads[ring.producerSeen]? = some known)
    (htaken : writes[ring.consumerSeen]? = some taken) :
    known.count ≤ ring.popped.length ∧ ring.popped.length ≤ taken.count ∧
      taken.count ≤ ring.pushed.length ∧
      ring.pushed.length ≤ known.count + 2 ^ size.bits := by
  obtain ⟨known', taken', hknown', htaken', hinv⟩ := hring.seen
  rw [hknown, Option.some.injEq] at hknown'
  rw [htaken, Option.some.injEq] at htaken'
  subst known' taken'
  exact hinv.counts_le

theorem producerAccess (hring : StampedRing size base ring writes reads)
    (haccess : ring.ProducerAccess ring')
    (hinv : QueueInv size base seenReads seenWrites ring')
    (hwrites : Stamped (indexAt base) ring'.writeLog writes' ring'.pushed.length)
    (hextends : writes <+: writes')
    (hnew : ∀ stamp ∈ writes', stamp ∈ writes ∨
      stamp = ⟨ring'.pushed.length, ring'.producerSeen⟩) :
    StampedRing size base ring' writes' reads := by
  have hreads : Stamped (indexAt base) ring'.readLog reads ring'.popped.length := by
    rw [haccess.readLog, haccess.popped]
    exact hring.readLog
  obtain ⟨known, taken, hknown, htaken, _⟩ := hring.seen
  obtain ⟨known', hknown'⟩ := hreads.exists_stamp hinv.readLog.entry
  have hcounts := hring.counts_le hknown htaken
  have hcounts' := hinv.counts_le
  have hmono := hring.readLog.count_mono hknown hknown' haccess.producerSeen
  have htaken' : writes'[ring'.consumerSeen]? = some taken := by
    rw [haccess.consumerSeen]
    exact entry_of_extends hextends htaken
  have hpopped := congrArg List.length haccess.popped
  -- only the pushes may have moved, so the old counts still bound the distances
  have hseen := restamp hwrites hreads hinv hknown' (by omega) htaken' (by omega)
  constructor
  · exact hwrites
  · exact hreads
  · exact ⟨known', taken, hknown', htaken', hseen⟩
  · intro stamp hstamp
    rcases hnew stamp hstamp with hold | hstored
    · exact hring.room stamp hold
    · subst stamp
      exact ⟨known', hknown', hseen.room⟩

theorem consumerAccess (hring : StampedRing size base ring writes reads)
    (haccess : ring.ConsumerAccess ring')
    (hinv : QueueInv size base seenReads seenWrites ring')
    (hreads : Stamped (indexAt base) ring'.readLog reads' ring'.popped.length)
    (hextends : reads <+: reads') : StampedRing size base ring' writes reads' := by
  have hwrites : Stamped (indexAt base) ring'.writeLog writes ring'.pushed.length := by
    rw [haccess.writeLog, haccess.pushed]
    exact hring.writeLog
  obtain ⟨known, taken, hknown, htaken, _⟩ := hring.seen
  obtain ⟨taken', htaken'⟩ := hwrites.exists_stamp hinv.writeLog.entry
  have hcounts := hring.counts_le hknown htaken
  have hcounts' := hinv.counts_le
  have hmono := hring.writeLog.count_mono htaken htaken' haccess.consumerSeen
  have hknown' : reads'[ring'.producerSeen]? = some known := by
    rw [haccess.producerSeen]
    exact entry_of_extends hextends hknown
  have hpushed := congrArg List.length haccess.pushed
  -- only the pops may have moved
  have hseen := restamp hwrites hreads hinv hknown' (by omega) htaken' (by omega)
  constructor
  · exact hwrites
  · exact hreads
  · exact ⟨known, taken', hknown', htaken', hseen⟩
  · intro stamp hstamp
    obtain ⟨entry, hentry, hroom⟩ := hring.room stamp hstamp
    exact ⟨entry, entry_of_extends hextends hentry, hroom⟩

/-! ## Loads of the other side's index -/

theorem sawWrite (hring : StampedRing size base ring writes reads) {position : ℕ} {stamp : Stamp}
    (hstamp : writes[position]? = some stamp) (hle : ring.consumerSeen ≤ position) :
    StampedRing size base { ring with consumerSeen := position } writes reads := by
  obtain ⟨known, taken, hknown, htaken, hinv⟩ := hring.seen
  have hmono := hring.writeLog.count_mono htaken hstamp hle
  have hnext := hinv.observeWrites (hring.writeLog.tracks hstamp) hmono (hinv.consumer.mono hmono)
  exact ⟨hring.writeLog, hring.readLog, ⟨known, stamp, hknown, hstamp, hnext⟩, hring.room⟩

theorem sawRead (hring : StampedRing size base ring writes reads) {position : ℕ} {stamp : Stamp}
    (hstamp : reads[position]? = some stamp) (hle : ring.producerSeen ≤ position) :
    StampedRing size base { ring with producerSeen := position } writes reads := by
  obtain ⟨known, taken, hknown, htaken, hinv⟩ := hring.seen
  have hmono := hring.readLog.count_mono hknown hstamp hle
  have hnext := hinv.observeReads (hring.readLog.tracks hstamp) hmono (hinv.producer.mono hmono)
  exact ⟨hring.writeLog, hring.readLog, ⟨stamp, taken, hstamp, htaken, hnext⟩, hring.room⟩

end StampedRing

/-! ## Calls in progress -/

section Pending

variable {T : Type} {size : RingSize} {base : UInt64} {queue queue' : ObservedQueue T}
  {observer : Observer} {call : PendingCall}

/-- A call in progress only depends on what its own thread leaves alone. -/
theorem PendingCall.Sound.kept (hsound : call.Sound size base queue observer)
    (hreads : queue.reads <+: queue'.reads)
    (hseen : queue'.readSeen observer = queue.readSeen observer)
    (hpushed : observer = .producer → queue'.ring.pushed = queue.ring.pushed)
    (hpopped : observer = .consumer → queue'.ring.popped = queue.ring.popped) :
    call.Sound size base queue' observer := by
  constructor
  · exact hsound.index
  · obtain ⟨position, known, hposition, hknown, hroom⟩ := hsound.room
    rw [← hseen] at hposition
    exact ⟨position, known, hposition, entry_of_extends hreads hknown, hroom⟩
  · intro hproducer
    rw [hpushed hproducer]
    exact hsound.producer hproducer
  · intro hconsumer
    rw [hpopped hconsumer]
    exact hsound.consumer hconsumer

/-- After the first load.  The producer stored the loaded `write_idx_` when it had
seen enough pops, and nothing older can be loaded any more. -/
theorem StampedRing.pending (hring : StampedRing size base queue.ring queue.writes queue.reads)
    {position : ℕ} {stamp : Stamp} {w : UInt64}
    (hload : observe queue.ring.writeLog (queue.writeSeen observer) position = some w)
    (hstamp : queue.writes[position]? = some stamp) :
    PendingCall.Sound size base (queue.sawWrite observer position stamp) observer
      ⟨w, stamp.count⟩ := by
  obtain ⟨known, taken, hknown, htaken, _⟩ := hring.seen
  have hcounts := hring.counts_le hknown htaken
  have hseen := le_of_observe hload
  have hle := hring.writeLog.count_le hstamp
  constructor
  · exact hring.writeLog.load hload hstamp
  · simp only [ObservedQueue.reads_sawWrite]
    cases observer with
    | producer => exact ⟨_, known, le_rfl, hknown, by omega⟩
    | consumer =>
        obtain ⟨final, hfinal, hcount⟩ := hring.readLog.exists_newest
        exact ⟨_, final, le_rfl, hfinal, by omega⟩
    | monitor id =>
        obtain ⟨entry, hentry, hroom⟩ := hring.room stamp (List.mem_of_getElem? hstamp)
        refine ⟨stamp.seen, entry, ?_, hentry, hroom⟩
        simp [ObservedQueue.sawWrite, ObservedQueue.readSeen]
  · intro hproducer
    subst observer
    have hnewest := hring.writeLog.newest hstamp hseen
    exact hnewest.ge
  · intro hconsumer
    subst observer
    have hmono := hring.writeLog.count_mono htaken hstamp hseen
    exact hcounts.2.1.trans hmono

/-- After the second load. -/
theorem StampedRing.returned (hring : StampedRing size base queue.ring queue.writes queue.reads)
    (hcall : call.Sound size base queue observer) {position : ℕ} {stamp : Stamp} {r : UInt64}
    (hload : observe queue.ring.readLog (queue.readSeen observer) position = some r)
    (hstamp : queue.reads[position]? = some stamp) :
    SizeCall.Sound size base
      ⟨observer, call.pushes, stamp.count, sizeApprox call.w r⟩ := by
  obtain ⟨known, taken, hknown, htaken, _⟩ := hring.seen
  have hcounts := hring.counts_le hknown htaken
  have hle := hring.readLog.count_le hstamp
  constructor
  · simp only [sizeApprox]
    rw [hcall.index, hring.readLog.load hload hstamp]
  · obtain ⟨position', entry, hposition, hentry, hroom⟩ := hcall.room
    have hmono := hring.readLog.count_mono hentry hstamp (hposition.trans (le_of_observe hload))
    exact hroom.trans (Nat.add_le_add_right hmono _)
  · intro hstores
    cases observer with
    | producer =>
        have hpushed := hcall.producer rfl
        have hpopped : queue.ring.popped.length ≤ call.pushes := by omega
        exact hle.trans hpopped
    | consumer => exact hle.trans (hcall.consumer rfl)
    | monitor id => exact absurd hstores (by simp [Observer.storesIndex])

end Pending

/-! ## Steps -/

section Advance

variable {T : Type} {size : RingSize} {base : UInt64} {queue : ObservedQueue T}
  {ring' : SPSCQueue T} {seenReads seenWrites : ℕ} {observer : Observer} {call : PendingCall}

theorem StampedRing.advance_producer
    (hring : StampedRing size base queue.ring queue.writes queue.reads)
    (haccess : queue.ring.ProducerAccess ring')
    (hinv : QueueInv size base seenReads seenWrites ring') :
    StampedRing size base ring' (queue.advance ring').writes (queue.advance ring').reads := by
  have hreads : (queue.advance ring').reads = queue.reads := by
    simp [ObservedQueue.advance, haccess.readLog]
  rw [hreads]
  rcases haccess.stored with ⟨hlog, hpushed⟩ | ⟨hlog, items, hpushed⟩
  · have hwrites : (queue.advance ring').writes = queue.writes := by
      simp [ObservedQueue.advance, hlog]
    rw [hwrites]
    apply hring.producerAccess haccess hinv
    · rw [hlog, hpushed]
      exact hring.writeLog
    · exact List.prefix_rfl
    · intro stamp hstamp
      exact .inl hstamp
  · have hwrites : (queue.advance ring').writes =
        queue.writes ++ [⟨ring'.pushed.length, ring'.producerSeen⟩] := by
      simp [ObservedQueue.advance, hlog]
    have hgrows : queue.ring.pushed.length ≤
        (Stamp.mk ring'.pushed.length ring'.producerSeen).count := by
      simp [hpushed]
    rw [hwrites]
    apply hring.producerAccess haccess hinv
    · rw [hlog, hinv.writeIdx]
      exact hring.writeLog.store hgrows
    · exact List.prefix_append _ _
    · intro stamp hstamp
      simpa using hstamp

theorem StampedRing.advance_consumer
    (hring : StampedRing size base queue.ring queue.writes queue.reads)
    (haccess : queue.ring.ConsumerAccess ring')
    (hinv : QueueInv size base seenReads seenWrites ring') :
    StampedRing size base ring' (queue.advance ring').writes (queue.advance ring').reads := by
  have hwrites : (queue.advance ring').writes = queue.writes := by
    simp [ObservedQueue.advance, haccess.writeLog]
  rw [hwrites]
  apply hring.consumerAccess haccess hinv
  · rcases haccess.stored with ⟨hlog, hpopped⟩ | ⟨hlog, items, hpopped⟩
    · have hreads : (queue.advance ring').reads = queue.reads := by
        simp [ObservedQueue.advance, hlog]
      rw [hreads, hlog, hpopped]
      exact hring.readLog
    · have hreads : (queue.advance ring').reads =
          queue.reads ++ [⟨ring'.popped.length, ring'.consumerSeen⟩] := by
        simp [ObservedQueue.advance, hlog]
      have hgrows : queue.ring.popped.length ≤
          (Stamp.mk ring'.popped.length ring'.consumerSeen).count := by
        simp [hpopped]
      rw [hreads, hlog, hinv.readIdx]
      exact hring.readLog.store hgrows
  · exact queue.reads_advance_extends ring'

theorem PendingCall.Sound.advance_producer (hsound : call.Sound size base queue observer)
    (haccess : queue.ring.ProducerAccess ring') (hne : observer ≠ .producer) :
    call.Sound size base (queue.advance ring') observer := by
  apply hsound.kept (queue.reads_advance_extends ring')
  · cases observer with
    | producer => exact absurd rfl hne
    | consumer => simp only [ObservedQueue.readSeen, ObservedQueue.advance, haccess.readLog]
    | monitor id => rfl
  · intro hproducer
    exact absurd hproducer hne
  · intro _
    exact haccess.popped

theorem PendingCall.Sound.advance_consumer (hsound : call.Sound size base queue observer)
    (haccess : queue.ring.ConsumerAccess ring') (hne : observer ≠ .consumer) :
    call.Sound size base (queue.advance ring') observer := by
  apply hsound.kept (queue.reads_advance_extends ring')
  · cases observer with
    | producer => simp only [ObservedQueue.readSeen, ObservedQueue.advance, haccess.producerSeen]
    | consumer => exact absurd rfl hne
    | monitor id => rfl
  · intro _
    exact haccess.pushed
  · intro hconsumer
    exact absurd hconsumer hne

end Advance

namespace ObservedInv

variable {T : Type} {size : RingSize} {base : UInt64} {queue queue' : ObservedQueue T}
  {observer : Observer} {position : ℕ} {stamp : Stamp}

theorem advance (hinv : ObservedInv size base queue) {move : Move T} {ring' : SPSCQueue T}
    (hfree : queue.pending move.thread = none)
    (hstep : queue.ring.step size move = some ring') :
    ObservedInv size base (queue.advance ring') := by
  obtain ⟨known, taken, _, _, hqueue⟩ := hinv.ring.seen
  obtain ⟨seenReads, seenWrites, hnext⟩ := hqueue.step hstep
  -- the thread which moves is in no call
  have hother : ∀ observer call, queue.pending observer = some call →
      observer ≠ move.thread := by
    intro observer call hcall heq
    rw [heq, hfree] at hcall
    exact absurd hcall (by simp)
  rcases SPSCQueue.step_access hstep with ⟨hby, haccess⟩ | ⟨hby, haccess⟩
  · have hthread : move.thread = .producer := if_pos hby
    rw [hthread] at hother
    constructor
    · exact hinv.ring.advance_producer haccess hnext
    · intro observer call hcall
      exact (hinv.pending observer call hcall).advance_producer haccess (hother observer call hcall)
    · exact hinv.calls
  · have hthread : move.thread = .consumer := if_neg hby
    rw [hthread] at hother
    constructor
    · exact hinv.ring.advance_consumer haccess hnext
    · intro observer call hcall
      exact (hinv.pending observer call hcall).advance_consumer haccess (hother observer call hcall)
    · exact hinv.calls

theorem begin (hinv : ObservedInv size base queue) {w : UInt64}
    (hload : observe queue.ring.writeLog (queue.writeSeen observer) position = some w)
    (hstamp : queue.writes[position]? = some stamp) :
    ObservedInv size base
      ((queue.sawWrite observer position stamp).begin observer ⟨w, stamp.count⟩) := by
  constructor
  · simp only [ObservedQueue.begin, ObservedQueue.reads_sawWrite, ObservedQueue.writes_sawWrite]
    cases observer with
    | producer => exact hinv.ring
    | consumer => exact hinv.ring.sawWrite hstamp (le_of_observe hload)
    | monitor id => exact hinv.ring
  · intro other call hcall
    simp only [ObservedQueue.begin, ObservedQueue.pending_sawWrite] at hcall
    by_cases hsame : other = observer
    · subst hsame
      rw [Function.update_self, Option.some.injEq] at hcall
      subst call
      have hpending := hinv.ring.pending hload hstamp
      exact hpending.kept List.prefix_rfl rfl (fun _ => rfl) (fun _ => rfl)
    · rw [Function.update_of_ne hsame] at hcall
      apply (hinv.pending other call hcall).kept
      · simp [ObservedQueue.begin]
      · exact queue.readSeen_sawWrite_of_ne hsame position stamp
      · simp [ObservedQueue.begin]
      · simp [ObservedQueue.begin]
  · simpa [ObservedQueue.begin] using hinv.calls

theorem finish (hinv : ObservedInv size base queue) {pending : PendingCall} {r : UInt64}
    (hpending : queue.pending observer = some pending)
    (hload : observe queue.ring.readLog (queue.readSeen observer) position = some r)
    (hstamp : queue.reads[position]? = some stamp) :
    ObservedInv size base ((queue.sawRead observer position stamp).finish observer
      ⟨observer, pending.pushes, stamp.count, sizeApprox pending.w r⟩) := by
  constructor
  · simp only [ObservedQueue.finish, ObservedQueue.reads_sawRead, ObservedQueue.writes_sawRead]
    cases observer with
    | producer => exact hinv.ring.sawRead hstamp (le_of_observe hload)
    | consumer => exact hinv.ring
    | monitor id => exact hinv.ring
  · intro other call hcall
    simp only [ObservedQueue.finish, ObservedQueue.pending_sawRead] at hcall
    by_cases hsame : other = observer
    · subst hsame
      rw [Function.update_self] at hcall
      exact absurd hcall (by simp)
    · rw [Function.update_of_ne hsame] at hcall
      apply (hinv.pending other call hcall).kept
      · simp [ObservedQueue.finish]
      · exact queue.readSeen_sawRead_of_ne hsame position stamp
      · simp [ObservedQueue.finish]
      · simp [ObservedQueue.finish]
  · intro call hcall
    simp only [ObservedQueue.finish, ObservedQueue.calls_sawRead] at hcall
    rcases List.mem_append.mp hcall with hold | hnew
    · exact hinv.calls call hold
    · rw [List.mem_singleton.mp hnew]
      exact hinv.ring.returned (hinv.pending observer pending hpending) hload hstamp

theorem step (hinv : ObservedInv size base queue) {move : ObservedMove T}
    (hstep : queue.step size move = some queue') : ObservedInv size base queue' := by
  unfold ObservedQueue.step at hstep
  cases move with
  | ring move =>
      simp only at hstep
      cases hfree : queue.pending move.thread with
      | some call => simp [hfree] at hstep
      | none =>
          simp only [hfree, Option.map_eq_some_iff] at hstep
          obtain ⟨ring', hring, hqueue⟩ := hstep
          subst hqueue
          exact hinv.advance hfree hring
  | loadWriteIdx observer position =>
      simp only at hstep
      split at hstep
      · obtain ⟨w, hload, hrest⟩ := Option.bind_eq_some_iff.mp hstep
        obtain ⟨stamp, hstamp, hqueue⟩ := Option.bind_eq_some_iff.mp hrest
        have hnext := Option.some.inj hqueue
        subst hnext
        exact hinv.begin hload hstamp
      · exact absurd hstep (by simp)
  | loadReadIdx observer position =>
      simp only at hstep
      cases hpending : queue.pending observer with
      | none => simp [hpending] at hstep
      | some pending =>
          simp only [hpending] at hstep
          obtain ⟨r, hload, hrest⟩ := Option.bind_eq_some_iff.mp hstep
          obtain ⟨stamp, hstamp, hqueue⟩ := Option.bind_eq_some_iff.mp hrest
          have hnext := Option.some.inj hqueue
          subst hnext
          exact hinv.finish hpending hload hstamp

/-! ## Runs -/

theorem empty (base : UInt64) (buffer : ℕ → T) :
    ObservedInv size base (ObservedQueue.empty base buffer) := by
  have hbase : indexAt base 0 = base := by simp [indexAt]
  have hstamped : Stamped (indexAt base) [base] [⟨0, 0⟩] 0 := by
    have hsingle := Stamped.single (indexAt base) ⟨0, 0⟩
    rwa [hbase] at hsingle
  constructor
  · refine ⟨hstamped, hstamped, ⟨⟨0, 0⟩, ⟨0, 0⟩, rfl, rfl, QueueInv.empty base buffer⟩, ?_⟩
    intro stamp hstamp
    rw [List.mem_singleton.mp hstamp]
    exact ⟨⟨0, 0⟩, rfl, Nat.zero_le _⟩
  · intro observer call hcall
    exact absurd hcall (by simp [ObservedQueue.empty])
  · intro call hcall
    exact absurd hcall (by simp [ObservedQueue.empty])

theorem run (hinv : ObservedInv size base queue) {moves : List (ObservedMove T)}
    (hrun : queue.run size moves = some queue') : ObservedInv size base queue' := by
  unfold ObservedQueue.run at hrun
  exact PartialRun.invariant (fun _ _ _ hbefore hnext => hbefore.step hnext) hinv hrun

end ObservedInv

/-! ## The range -/

/-- The returned size is one the queue can have. -/
def SizeCall.InRange (size : RingSize) (call : SizeCall) : Prop :=
  call.returned.toNat ≤ 2 ^ size.bits

instance (size : RingSize) (call : SizeCall) : Decidable (call.InRange size) :=
  inferInstanceAs (Decidable (call.returned.toNat ≤ 2 ^ size.bits))

/-- How many items had been popped by the store the second load has seen, but were
pushed only after the one the first load has seen. -/
def SizeCall.overtaken (call : SizeCall) : ℕ := call.pops - call.pushes

/-- The thread stores an index itself, or the consumer has not overtaken the
loaded `write_idx_`, or by so much that the index has come round to it again. -/
def SizeCall.KeepsUp (size : RingSize) (call : SizeCall) : Prop :=
  call.observer.storesIndex ∨ call.overtaken = 0 ∨
    (call.overtaken + 2 ^ size.bits) % 2 ^ 64 ≤ 2 ^ size.bits

section Range

variable {size : RingSize} {base : UInt64} {call : SizeCall}

theorem SizeCall.Sound.inRange_of_le (hsound : call.Sound size base)
    (hle : call.pops ≤ call.pushes) : call.InRange size := by
  have hsize := size.two_pow_lt
  have hroom := hsound.room
  unfold SizeCall.InRange
  rw [hsound.returned, indexAt_sub_toNat base hle (by omega)]
  omega

theorem SizeCall.Sound.inRange_iff_overtaken (hsound : call.Sound size base)
    (hlt : call.pushes < call.pops) :
    call.InRange size ↔ (call.overtaken + 2 ^ size.bits) % 2 ^ 64 ≤ 2 ^ size.bits := by
  have hsize := size.two_pow_lt
  unfold SizeCall.InRange SizeCall.overtaken
  rw [hsound.returned, indexAt_sub_toNat_of_le base hlt.le]
  omega

theorem SizeCall.Sound.inRange_iff (hsound : call.Sound size base) :
    call.InRange size ↔ call.KeepsUp size := by
  by_cases hlt : call.pushes < call.pops
  · have hmonitor : ¬call.observer.storesIndex := by
      intro hstores
      have hahead := hsound.ahead hstores
      omega
    have hovertaken : call.overtaken ≠ 0 := Nat.sub_ne_zero_of_lt hlt
    rw [hsound.inRange_iff_overtaken hlt]
    simp [SizeCall.KeepsUp, hmonitor, hovertaken]
  · have hle : call.pops ≤ call.pushes := not_lt.mp hlt
    have hnone : call.overtaken = 0 := Nat.sub_eq_zero_of_le hle
    exact iff_of_true (hsound.inRange_of_le hle) (.inr (.inl hnone))

end Range

/-- Under any interleaving, with stale loads, from any start of the indices. -/
theorem sizeApprox_inRange_iff {T : Type} (size : RingSize) (base : UInt64) (buffer : ℕ → T)
    (moves : List (ObservedMove T)) (queue : ObservedQueue T)
    (hrun : (ObservedQueue.empty base buffer).run size moves = some queue) :
    ∀ call ∈ queue.calls, call.InRange size ↔ call.KeepsUp size := by
  intro call hcall
  have hinv := (ObservedInv.empty base buffer).run hrun
  exact (hinv.calls call hcall).inRange_iff

def eightSlots : RingSize := ⟨3, by decide⟩

/-- The indices wrap with the first push.  The producer calls `size_approx()` while
the consumer pops and still loads the old `read_idx_`; afterwards two monitoring
threads call it, of which the second loads the old `write_idx_`. -/
def observedMoves : List (ObservedMove ℕ) :=
  [.ring (.tryPush 7), .ring (.producer 0), .ring (.producer 0), .ring (.producer 0),
    .loadWriteIdx .producer 1, .ring .tryPop, .ring (.consumer 1), .ring (.consumer 0),
    .ring (.consumer 0), .loadReadIdx .producer 0, .loadWriteIdx (.monitor 0) 1,
    .loadReadIdx (.monitor 0) 1, .loadWriteIdx (.monitor 1) 0, .loadReadIdx (.monitor 1) 1]

theorem sizeApprox_inRange_iff_observedMoves :
    ∃ queue : ObservedQueue ℕ,
      (ObservedQueue.empty 18446744073709551615 (fun _ => 0)).run eightSlots observedMoves =
        some queue ∧
      queue.calls = [⟨.producer, 1, 0, 1⟩, ⟨.monitor 0, 1, 1, 0⟩,
        ⟨.monitor 1, 0, 1, 18446744073709551615⟩] ∧
      ∀ call ∈ queue.calls, call.InRange eightSlots ↔ call.KeepsUp eightSlots := by
  have hresult : ((ObservedQueue.empty 18446744073709551615 (fun _ => 0)).run eightSlots
      observedMoves).map ObservedQueue.calls = some [⟨.producer, 1, 0, 1⟩, ⟨.monitor 0, 1, 1, 0⟩,
        ⟨.monitor 1, 0, 1, 18446744073709551615⟩] := by
    decide
  obtain ⟨queue, hrun, hcalls⟩ := Option.map_eq_some_iff.mp hresult
  exact ⟨queue, hrun, hcalls, sizeApprox_inRange_iff _ _ _ _ queue hrun⟩

/-- A monitoring thread loads `write_idx_`, an item goes through the ring, and the
thread loads `read_idx_`. -/
def overtakingMoves : List (ObservedMove ℕ) :=
  [.loadWriteIdx (.monitor 0) 0, .ring (.tryPush 7), .ring (.producer 0), .ring (.producer 0),
    .ring (.producer 0), .ring .tryPop, .ring (.consumer 1), .ring (.consumer 0),
    .ring (.consumer 0), .loadReadIdx (.monitor 0) 1]

theorem monitor_overtaken :
    ∃ queue : ObservedQueue ℕ,
      (ObservedQueue.empty 0 (fun _ => 0)).run eightSlots overtakingMoves = some queue ∧
      queue.calls = [⟨.monitor 0, 0, 1, 18446744073709551615⟩] ∧
      ¬∀ call ∈ queue.calls, call.InRange eightSlots := by
  have hresult : ((ObservedQueue.empty 0 (fun _ => 0)).run eightSlots overtakingMoves).map
      ObservedQueue.calls = some [⟨.monitor 0, 0, 1, 18446744073709551615⟩] := by
    decide
  obtain ⟨queue, hrun, hcalls⟩ := Option.map_eq_some_iff.mp hresult
  refine ⟨queue, hrun, hcalls, ?_⟩
  rw [hcalls]
  intro hrange
  have hcall := hrange _ (List.mem_singleton.mpr rfl)
  exact absurd hcall (by decide)

end NanoMatch
