import NanoMatch.SpscFifo
import NanoMatch.BoundedFifo

/-!
# The ring as a bounded queue

A store of an index is a push or a pop of a bounded queue, and the other accesses
to shared memory change nothing that can be seen of it.
-/

namespace NanoMatch

variable {T : Type} {size : RingSize} {base : UInt64} {seenReads seenWrites : ℕ}
  {ring ring' : SPSCQueue T} {queue : BoundedFifo T}

/-! ## What an access publishes -/

/-- Items went in or came out. -/
inductive Published (ring ring' : SPSCQueue T) (items : List T) : Prop
  | pushed (hpushed : ring'.pushed = ring.pushed ++ items) (hpopped : ring'.popped = ring.popped)
  | popped (hpushed : ring'.pushed = ring.pushed) (hpopped : ring'.popped = ring.popped ++ items)

theorem Published.nothing (hpushed : ring'.pushed = ring.pushed)
    (hpopped : ring'.popped = ring.popped) : ∃ items, Published ring ring' items :=
  ⟨[], .pushed (by rw [hpushed, List.append_nil]) hpopped⟩

theorem SPSCQueue.step_published {move : Move T} (hstep : ring.step size move = some ring') :
    ∃ items, Published ring ring' items := by
  rcases SPSCQueue.step_access hstep with ⟨_, haccess⟩ | ⟨_, haccess⟩
  · rcases haccess.stored with ⟨_, hpushed⟩ | ⟨_, items, hpushed⟩
    · exact Published.nothing hpushed haccess.popped
    · exact ⟨items, .pushed hpushed haccess.popped⟩
  · rcases haccess.stored with ⟨_, hpopped⟩ | ⟨_, items, hpopped⟩
    · exact Published.nothing haccess.pushed hpopped
    · exact ⟨items, .popped haccess.pushed hpopped⟩

/-! ## The queue behind a ring -/

/-- What the queue records is what went through the ring. -/
structure Shows (size : RingSize) (ring : SPSCQueue T) (queue : BoundedFifo T) : Prop where
  capacity : queue.capacity = 2 ^ size.bits
  pushed : queue.pushed = ring.pushed
  popped : queue.popped = ring.popped

theorem Shows.step (hshows : Shows size ring queue)
    (hinv : QueueInv size base seenReads seenWrites ring) {move : Move T}
    (hstep : ring.step size move = some ring') :
    ∃ queue', Relation.ReflTransGen BoundedFifo.Step queue queue' ∧ Shows size ring' queue' := by
  rcases hinv.step hstep with ⟨seenReads', seenWrites', hnext⟩
  have hlossless := queue.lossless
  rw [hshows.pushed, hshows.popped] at hlossless
  rcases SPSCQueue.step_published hstep with ⟨items, ⟨hpushed, hpopped⟩ | ⟨hpushed, hpopped⟩⟩
  · have hcounts := hnext.counts_le
    rw [hpushed, hpopped, ← hlossless, List.length_append, List.length_append] at hcounts
    have hroom : queue.items.length + items.length ≤ queue.capacity := by
      rw [hshows.capacity]
      omega
    rcases queue.exists_pushed items hroom with ⟨queue', hsteps, hcapacity, hafter, hsame⟩
    refine ⟨queue', hsteps, hcapacity.trans hshows.capacity, ?_, ?_⟩
    · rw [hafter, hpushed, hshows.pushed]
    · rw [hsame, hpopped, hshows.popped]
  · have hfifo := hnext.fifo
    rw [hpushed, hpopped, ← hlossless, List.prefix_append_right_inj] at hfifo
    rcases queue.exists_popped items hfifo with ⟨queue', hpop, hcapacity, hsame, hafter⟩
    refine ⟨queue', .single hpop, hcapacity.trans hshows.capacity, ?_, ?_⟩
    · rw [hsame, hpushed, hshows.pushed]
    · rw [hafter, hpopped, hshows.popped]

/-- Every run of the ring is a run of a bounded queue, whatever the loads have seen. -/
theorem spsc_boundedFifo (size : RingSize) (base : UInt64) (buffer : ℕ → T)
    (moves : List (Move T)) (ring : SPSCQueue T)
    (hrun : (SPSCQueue.empty base buffer).run size moves = some ring) :
    ∃ queue, Relation.ReflTransGen BoundedFifo.Step (.empty (2 ^ size.bits)) queue ∧
      Shows size ring queue := by
  unfold SPSCQueue.run at hrun
  refine (PartialRun.invariant (motive := fun ring =>
    (∃ seenReads seenWrites, QueueInv size base seenReads seenWrites ring) ∧
      ∃ queue, Relation.ReflTransGen BoundedFifo.Step (.empty (2 ^ size.bits)) queue ∧
        Shows size ring queue) ?_ ⟨⟨0, 0, QueueInv.empty base buffer⟩, ?_⟩ hrun).2
  · intro before move after hbefore hstep
    obtain ⟨⟨_, _, hinv⟩, queue, hsteps, hshows⟩ := hbefore
    obtain ⟨queue', hmore, hshows'⟩ := hshows.step hinv hstep
    exact ⟨hinv.step hstep, queue', hsteps.trans hmore, hshows'⟩
  · exact ⟨_, .refl, rfl, rfl, rfl⟩

end NanoMatch
