import NanoMatch.UringReceiver

/-!
# Ownership of the receive buffers

Every buffer is in exactly one place: armed, in the `RawByteQueue`, in the hands
of the decoder or in the `BufReturnQueue`.  So the kernel never writes into bytes
which are still to be decoded, and since there are fewer buffers than entries in
any of the queues, no queue is ever full.

Inside a step of the receiver an id may be nowhere for a moment.  The invariant
therefore takes a list of such ids; it is empty between the steps.
-/

namespace NanoMatch

def DecoderStage.inHand : DecoderStage → List RawByteSpan
  | .idle => []
  | .popping _ => []
  | .decoding span _ => [span]
  | .returning span _ => [span]

namespace UringReceiver

/-- The spans on their way to the decoder or in its hands. -/
def spans (rx : UringReceiver) : List RawByteSpan := rx.decoderStage.inHand ++ rx.rawQueue

/-- The ids which are armed, in a span, or on their way back. -/
def places (rx : UringReceiver) : List ℕ :=
  rx.ring.outstanding ++ (rx.spans.map RawByteSpan.bufId ++ rx.retQueue)

/-- Each id is in `loose` or in one place. -/
structure Owned (loose : List ℕ) (rx : UringReceiver) : Prop where
  perm : (loose ++ rx.places).Perm (List.range kNumBufs)
  armed : ∀ id, rx.bufArmed id = true ↔ id ∈ rx.ring.outstanding
  data : ∀ span ∈ rx.spans, span.data = span.bufId
  stage : ∀ span, rx.stage ≠ .pushing span
  decoderStage : ∀ span left, rx.decoderStage ≠ .returning span left
  failed : rx.failed = false
  dropped : rx.dropped = 0

variable {loose : List ℕ} {rx : UringReceiver} {id : ℕ}

namespace Owned

theorem length_eq (hrx : Owned loose rx) :
    loose.length + (rx.ring.outstanding.length + (rx.spans.length + rx.retQueue.length)) =
      kNumBufs := by
  have hlength := hrx.perm.length_eq
  unfold places at hlength
  simpa using hlength

theorem nodup (hrx : Owned loose rx) : (loose ++ rx.places).Nodup :=
  hrx.perm.nodup_iff.mpr List.nodup_range

theorem lt (hrx : Owned loose rx) (hid : id ∈ loose ++ rx.places) : id < kNumBufs :=
  List.mem_range.mp (hrx.perm.mem_iff.mp hid)

/-- An id which is nowhere is not armed. -/
theorem not_armed (hrx : Owned (id :: loose) rx) : rx.bufArmed id = false := by
  rw [← Bool.not_eq_true, hrx.armed]
  intro hout
  have hnodup := hrx.nodup
  rw [List.cons_append, List.nodup_cons] at hnodup
  apply hnodup.1
  unfold places
  simp [hout]

/-! ## Arming -/

theorem armBuf (hrx : Owned (id :: loose) rx) : Owned loose (rx.armBuf id) := by
  have hunarmed := hrx.not_armed
  have hlt := hrx.lt (List.mem_append_left _ List.mem_cons_self)
  have hlength := hrx.length_eq
  have hunconsumed := rx.ring.unconsumed_le
  have hsqe : rx.ring.unconsumed < kRingDepth := by
    unfold kNumBufs at hlength
    unfold kRingDepth
    omega
  have hassert : (rx.failed || !rx.canArm id) = false := by
    simp [canArm, hrx.failed, hunarmed, hlt]
  unfold UringReceiver.armBuf
  rw [if_pos hsqe, hassert]
  constructor
  · have hperm : (loose ++ (rx.ring.outstanding ++ [id] ++
        (rx.spans.map RawByteSpan.bufId ++ rx.retQueue))).Perm (id :: loose ++ rx.places) := by
      unfold places
      rw [List.append_assoc, List.singleton_append, ← List.append_assoc]
      exact List.perm_middle.trans (by simp)
    simp only [places, spans, SubmissionRing.outstanding_prepare]
    exact hperm.trans hrx.perm
  · intro other
    simp only [SubmissionRing.outstanding_prepare, List.mem_append, List.mem_singleton]
    by_cases heq : other = id
    · simp [heq]
    · simp only [Function.update_of_ne heq, heq, or_false]
      exact hrx.armed other
  · exact hrx.data
  · exact hrx.stage
  · exact hrx.decoderStage
  · rfl
  · exact hrx.dropped

theorem foldl_armBuf (ids : List ℕ) (hrx : Owned (ids ++ loose) rx) :
    Owned loose (ids.foldl UringReceiver.armBuf rx) := by
  induction ids generalizing rx with
  | nil => exact hrx
  | cons id ids ih => exact ih hrx.armBuf

theorem submit (hrx : Owned loose rx) : Owned loose rx.submit where
  perm := by
    unfold places UringReceiver.submit
    rw [SubmissionRing.outstanding_submit]
    exact hrx.perm
  armed := by
    unfold UringReceiver.submit
    simp only [SubmissionRing.outstanding_submit]
    exact hrx.armed
  data := hrx.data
  stage := hrx.stage
  decoderStage := hrx.decoderStage
  failed := hrx.failed
  dropped := hrx.dropped

/-! ## Completions and reclaimed ids -/

/-- An id is taken from the completion queue. -/
theorem released (hrx : Owned loose rx) {bytes : ℤ} {rest : List (ℕ × ℤ)}
    (hcompleted : rx.ring.completed = (id, bytes) :: rest) :
    Owned (id :: loose) (rx.unarm id).seen := by
  have houtstanding := SubmissionRing.outstanding_eq_cons hcompleted
  have hnodup := hrx.nodup
  have hperm := hrx.perm
  have hlt : id < kNumBufs := by
    apply hrx.lt
    simp [places, houtstanding]
  unfold places at hnodup hperm
  rw [houtstanding] at hnodup hperm
  constructor
  · refine List.Perm.trans ?_ hperm
    exact List.perm_middle.symm
  · intro other
    change Function.update rx.bufArmed id false other = true ↔ other ∈ rx.ring.seen.outstanding
    by_cases heq : other = id
    · subst heq
      simp only [Function.update_self, Bool.false_eq_true, false_iff]
      intro hout
      rw [List.nodup_append, List.cons_append, List.nodup_cons] at hnodup
      exact hnodup.2.1.1 (List.mem_append_left _ hout)
    · rw [Function.update_of_ne heq, hrx.armed, houtstanding, List.mem_cons]
      simp [heq]
  · exact hrx.data
  · exact hrx.stage
  · exact hrx.decoderStage
  · simp [seen, unarm, hrx.failed, hlt]
  · exact hrx.dropped

theorem count (hrx : Owned loose rx) (bytesReceived errorsSeen : ℕ) :
    Owned loose { rx with bytesReceived := bytesReceived, errorsSeen := errorsSeen } :=
  ⟨hrx.perm, hrx.armed, hrx.data, hrx.stage, hrx.decoderStage, hrx.failed, hrx.dropped⟩

/-- A free id becomes a span in the `RawByteQueue`. -/
theorem pushSpan (hrx : Owned (id :: loose) rx) (len : ℕ) :
    Owned loose (rx.pushSpan ⟨id, len, id⟩) := by
  have hlength := hrx.length_eq
  have hroom : rx.rawQueue.length < rawCapacity := by
    unfold kNumBufs spans at hlength
    rw [List.length_append] at hlength
    unfold rawCapacity
    omega
  unfold UringReceiver.pushSpan
  rw [if_pos hroom]
  constructor
  · refine List.Perm.trans ?_ hrx.perm
    have hsplit : loose ++ (rx.ring.outstanding ++
        ((rx.decoderStage.inHand ++ (rx.rawQueue ++ [RawByteSpan.mk id len id])).map
          RawByteSpan.bufId ++ rx.retQueue)) =
        (loose ++ (rx.ring.outstanding ++ rx.spans.map RawByteSpan.bufId)) ++
          id :: rx.retQueue := by
      simp [spans]
    have hplaces : id :: (loose ++ (rx.ring.outstanding ++ rx.spans.map RawByteSpan.bufId) ++
        rx.retQueue) = id :: loose ++ rx.places := by
      simp [places]
    rw [← hplaces]
    unfold places spans
    rw [hsplit]
    exact List.perm_middle
  · exact hrx.armed
  · intro span hspan
    unfold spans at hspan
    rw [← List.append_assoc, List.mem_append] at hspan
    rcases hspan with hold | hnew
    · exact hrx.data span hold
    · rw [List.mem_singleton.mp hnew]
  · nofun
  · exact hrx.decoderStage
  · exact hrx.failed
  · exact hrx.dropped

/-- An id is taken from the `BufReturnQueue`. -/
theorem reclaimed (hrx : Owned loose rx) {rest : List ℕ} (hqueue : rx.retQueue = id :: rest) :
    Owned (id :: loose) { rx with retQueue := rest } where
  perm := by
    refine List.Perm.trans ?_ hrx.perm
    have hsplit : loose ++ rx.places =
        (loose ++ (rx.ring.outstanding ++ rx.spans.map RawByteSpan.bufId)) ++ id :: rest := by
      simp [places, hqueue]
    have hplaces : id :: loose ++ places { rx with retQueue := rest } =
        id :: (loose ++ (rx.ring.outstanding ++ rx.spans.map RawByteSpan.bufId) ++ rest) := by
      simp [places, spans]
    rw [hsplit, hplaces]
    exact List.perm_middle.symm
  armed := hrx.armed
  data := hrx.data
  stage := hrx.stage
  decoderStage := hrx.decoderStage
  failed := hrx.failed
  dropped := hrx.dropped

/-- A reclaimed id is always armed again. -/
theorem reclaim (hrx : Owned (id :: loose) rx) : Owned loose (rx.reclaim id) := by
  have hlt := hrx.lt (List.mem_append_left _ List.mem_cons_self)
  unfold UringReceiver.reclaim
  rw [if_pos (by simp [hlt, hrx.not_armed])]
  exact hrx.armBuf

theorem goto (hrx : Owned loose rx) (processed : ℕ) {stage : ReceiverStage}
    (hstage : ∀ span, stage ≠ .pushing span) :
    Owned loose { rx with processed := processed, stage := stage } :=
  ⟨hrx.perm, hrx.armed, hrx.data, hstage, hrx.decoderStage, hrx.failed, hrx.dropped⟩

end Owned

theorem armBuf_seen (rx : UringReceiver) (id : ℕ) : (rx.armBuf id).seen = rx.seen.armBuf id := by
  unfold armBuf
  by_cases hsqe : rx.ring.unconsumed < kRingDepth
  · rw [if_pos hsqe, if_pos (by exact hsqe)]
    rfl
  · rw [if_neg hsqe, if_neg (by exact hsqe)]
    rfl

theorem pushSpan_seen (rx : UringReceiver) (span : RawByteSpan) :
    (rx.pushSpan span).seen = rx.seen.pushSpan span := by
  unfold pushSpan
  by_cases hroom : rx.rawQueue.length < rawCapacity
  · rw [if_pos hroom, if_pos (by exact hroom)]
    rfl
  · rw [if_neg hroom, if_neg (by exact hroom)]
    rfl

/-- Unless the thread waits at a full queue, the completion is marked as seen. -/
theorem finish_eq (hrx : Owned loose rx.seen) : rx.finish = rx.seen := by
  unfold finish
  cases hcase : rx.stage with
  | pushing span => exact absurd hcase (hrx.stage span)
  | _ => rfl

/-- A processed completion leaves its buffer in the `RawByteQueue` or armed. -/
theorem Owned.processCqe (hrx : Owned loose rx) {bytes : ℤ} {rest : List (ℕ × ℤ)}
    (hcompleted : rx.ring.completed = (id, bytes) :: rest) :
    Owned loose (rx.processCqe id bytes).finish := by
  have hreleased := hrx.released hcompleted
  have howned : Owned loose (rx.processCqe id bytes).seen := by
    unfold UringReceiver.processCqe
    split_ifs with hdata heof
    · rw [pushSpan_seen]
      exact (hreleased.count _ _).pushSpan _
    · rw [armBuf_seen]
      exact hreleased.armBuf
    · rw [armBuf_seen]
      exact (hreleased.count _ _).armBuf
  rw [finish_eq howned]
  exact howned

/-! ## Steps -/

theorem Owned.reclaimStep (hrx : Owned [] rx) : Owned [] rx.reclaimStep := by
  unfold UringReceiver.reclaimStep
  split
  · split_ifs with hpending
    · exact hrx.submit.goto 0 nofun
    · exact hrx.goto 0 nofun
  next bufId rest hqueue => exact (hrx.reclaimed hqueue).reclaim

theorem Owned.drainStep (hrx : Owned [] rx) : Owned [] rx.drainStep := by
  unfold UringReceiver.drainStep
  split
  · exact hrx.goto rx.processed nofun
  next id bytes rest hcompleted => exact hrx.processCqe hcompleted

theorem Owned.receiverStep (hrx : Owned [] rx) : Owned [] rx.receiverStep := by
  unfold UringReceiver.receiverStep
  split
  next => exact hrx.goto rx.processed nofun
  next => exact hrx.reclaimStep
  next => exact hrx.drainStep
  next span hstage => exact absurd hstage (hrx.stage span)

/-- Spans and ids change hands between the queues and the decoder. -/
theorem Owned.handOver (hrx : Owned [] rx) (decoder : Decoder) {rawQueue : List RawByteSpan}
    {retQueue : List ℕ} {decoderStage : DecoderStage}
    (hperm : ((decoderStage.inHand ++ rawQueue).map RawByteSpan.bufId ++ retQueue).Perm
      (rx.spans.map RawByteSpan.bufId ++ rx.retQueue))
    (hspans : ∀ span ∈ decoderStage.inHand ++ rawQueue, span ∈ rx.spans)
    (hstage : ∀ span left, decoderStage ≠ .returning span left) :
    Owned []
      { rx with
        decoder := decoder
        rawQueue := rawQueue
        retQueue := retQueue
        decoderStage := decoderStage } where
  perm := (hperm.append_left rx.ring.outstanding).trans hrx.perm
  armed := hrx.armed
  data span hspan := hrx.data span (hspans span hspan)
  stage := hrx.stage
  decoderStage := hstage
  failed := hrx.failed
  dropped := hrx.dropped

theorem Owned.popSpan (hrx : Owned [] rx) {left : ℕ}
    (hstage : rx.decoderStage = .popping (left + 1)) : Owned [] (rx.popSpan left) := by
  have hspans : rx.spans = rx.rawQueue := by
    unfold spans
    rw [hstage]
    rfl
  unfold UringReceiver.popSpan
  split
  next hqueue =>
      apply hrx.handOver rx.decoder
      · rw [hspans]
        exact List.Perm.refl _
      · intro span hspan
        rw [hspans]
        exact hspan
      · nofun
  next span rest hqueue =>
      apply hrx.handOver rx.decoder
      · rw [hspans, hqueue]
        exact List.Perm.refl _
      · intro other hother
        rw [hspans, hqueue]
        exact hother
      · nofun

/-- The decoder returns the buffer of its span. -/
theorem Owned.returnBuf (hrx : Owned [] rx) {span : RawByteSpan} {left : ℕ}
    (hstage : rx.decoderStage = .decoding span left) (decoder : Decoder) :
    Owned [] (UringReceiver.returnBuf { rx with decoder := decoder } span left) := by
  have hspans : rx.spans = span :: rx.rawQueue := by
    unfold spans
    rw [hstage]
    rfl
  have hlength := hrx.length_eq
  have hroom : rx.retQueue.length < retCapacity := by
    unfold kNumBufs at hlength
    unfold retCapacity
    omega
  unfold UringReceiver.returnBuf
  rw [if_pos (by exact hroom)]
  apply hrx.handOver decoder
  · rw [hspans]
    change (rx.rawQueue.map RawByteSpan.bufId ++ (rx.retQueue ++ [span.bufId])).Perm
      (span.bufId :: (rx.rawQueue.map RawByteSpan.bufId ++ rx.retQueue))
    rw [← List.append_assoc]
    exact List.perm_append_singleton _ _
  · intro other hother
    rw [hspans]
    exact List.mem_cons_of_mem _ hother
  · nofun

theorem Owned.decoderStep (hrx : Owned [] rx) : Owned [] rx.decoderStep := by
  unfold UringReceiver.decoderStep
  split
  next => exact hrx
  next hstage =>
      apply hrx.handOver rx.decoder
      · unfold spans
        rw [hstage]
        exact List.Perm.refl _
      · intro span hspan
        unfold spans
        rw [hstage]
        exact hspan
      · nofun
  next left hstage => exact hrx.popSpan hstage
  next span left hstage => exact hrx.returnBuf hstage _
  next span left hstage => exact absurd hstage (hrx.decoderStage span left)

theorem Owned.callDecoder (hrx : Owned [] rx) (maxBatch : ℕ) :
    Owned [] (rx.callDecoder maxBatch) := by
  unfold UringReceiver.callDecoder
  split_ifs with hstage
  · apply hrx.handOver rx.decoder
    · unfold spans
      rw [hstage]
      exact List.Perm.refl _
    · intro span hspan
      unfold spans
      rw [hstage]
      exact hspan
    · nofun
  · exact hrx

/-- The kernel moves a receive along its way. -/
theorem Owned.kernel (hrx : Owned [] rx) {ring : SubmissionRing ℕ ℤ}
    (hperm : ring.outstanding.Perm rx.ring.outstanding) : Owned [] { rx with ring := ring } where
  perm := (hperm.append_right _).trans hrx.perm
  armed id := (hrx.armed id).trans hperm.mem_iff.symm
  data := hrx.data
  stage := hrx.stage
  decoderStage := hrx.decoderStage
  failed := hrx.failed
  dropped := hrx.dropped

theorem Owned.writeBuf (hrx : Owned [] rx) (id : ℕ) (bytes : List UInt8) :
    Owned [] (rx.writeBuf id bytes) := by
  unfold UringReceiver.writeBuf
  split_ifs with hwrites
  · exact ⟨hrx.perm, hrx.armed, hrx.data, hrx.stage, hrx.decoderStage, hrx.failed, hrx.dropped⟩
  · exact hrx

theorem Owned.step (hrx : Owned [] rx) (move : Move) : Owned [] (rx.step move) := by
  cases move with
  | receiver => exact hrx.receiverStep
  | callDecoder maxBatch => exact hrx.callDecoder maxBatch
  | decoder => exact hrx.decoderStep
  | consume =>
      apply hrx.kernel
      rw [SubmissionRing.outstanding_consume]
  | write id bytes => exact hrx.writeBuf id bytes
  | complete position res => exact hrx.kernel (rx.ring.outstanding_complete_perm position _)

theorem owned_unarmed : Owned (List.range kNumBufs) unarmed where
  perm := by
    unfold places
    exact (List.append_nil _) ▸ List.Perm.refl _
  armed := by
    intro id
    simp [unarmed]
  data := nofun
  stage := nofun
  decoderStage := nofun
  failed := rfl
  dropped := rfl

theorem owned_new : Owned [] new := by
  apply Owned.submit
  apply Owned.foldl_armBuf
  rw [List.append_nil]
  exact owned_unarmed

theorem owned_run (moves : List Move) : Owned [] (new.run moves) := by
  induction moves using List.reverseRecOn with
  | nil => exact owned_new
  | append_singleton moves move ih =>
      unfold run
      rw [List.foldl_append]
      exact ih.step move

/-! ## Nothing is overwritten -/

theorem recvBufs_armBuf (rx : UringReceiver) (id : ℕ) : (rx.armBuf id).recvBufs = rx.recvBufs := by
  unfold armBuf
  split_ifs <;> rfl

theorem recvBufs_pushSpan (rx : UringReceiver) (span : RawByteSpan) :
    (rx.pushSpan span).recvBufs = rx.recvBufs := by
  unfold pushSpan
  split_ifs <;> rfl

theorem recvBufs_finish (rx : UringReceiver) : rx.finish.recvBufs = rx.recvBufs := by
  unfold finish
  split <;> rfl

theorem recvBufs_receiverStep (rx : UringReceiver) : rx.receiverStep.recvBufs = rx.recvBufs := by
  unfold receiverStep
  split
  · rfl
  · unfold reclaimStep
    split
    · split_ifs <;> rfl
    · unfold reclaim
      split_ifs
      · rw [recvBufs_armBuf]
      · rfl
  · unfold drainStep
    split
    · rfl
    · rw [recvBufs_finish]
      unfold processCqe
      split_ifs
      · rw [recvBufs_pushSpan]
        rfl
      · rw [recvBufs_armBuf]
        rfl
      · rw [recvBufs_armBuf]
        rfl
  · rw [recvBufs_finish, recvBufs_pushSpan]

theorem recvBufs_decoderStep (rx : UringReceiver) : rx.decoderStep.recvBufs = rx.recvBufs := by
  have hreturn : ∀ rx span left, (returnBuf rx span left).recvBufs = rx.recvBufs := by
    intro rx span left
    unfold returnBuf
    split_ifs <;> rfl
  unfold decoderStep
  split
  · rfl
  · rfl
  · unfold popSpan
    split <;> rfl
  · rw [hreturn]
  · rw [hreturn]

theorem Owned.not_writing (hrx : Owned [] rx) {span : RawByteSpan} (hspan : span ∈ rx.spans) :
    span.data ∉ rx.ring.outstanding := by
  rw [hrx.data span hspan]
  intro hout
  have hnodup := hrx.nodup
  rw [List.nil_append, places, List.nodup_append] at hnodup
  exact hnodup.2.2 _ hout _ (List.mem_append_left _ (List.mem_map_of_mem hspan)) rfl

theorem Owned.recvBufs_writeBuf (hrx : Owned [] rx) (id : ℕ) (bytes : List UInt8)
    {span : RawByteSpan} (hspan : span ∈ rx.spans) :
    (rx.writeBuf id bytes).recvBufs span.data = rx.recvBufs span.data := by
  unfold UringReceiver.writeBuf
  split_ifs with hwrites
  · apply Function.update_of_ne
    rintro rfl
    apply hrx.not_writing hspan
    unfold SubmissionRing.outstanding
    simp only [List.mem_append] at hwrites ⊢
    tauto
  · rfl

/-- No move changes the bytes of a span which is queued or being read. -/
theorem Owned.spanBytes_step (hrx : Owned [] rx) (move : Move) {span : RawByteSpan}
    (hspan : span ∈ rx.spans) : (rx.step move).spanBytes span = rx.spanBytes span := by
  have hbufs : (rx.step move).recvBufs span.data = rx.recvBufs span.data := by
    cases move with
    | receiver => exact congrFun (recvBufs_receiverStep rx) span.data
    | callDecoder maxBatch =>
        unfold UringReceiver.step UringReceiver.callDecoder
        split_ifs <;> rfl
    | decoder => exact congrFun (recvBufs_decoderStep rx) span.data
    | consume => rfl
    | write id bytes => exact hrx.recvBufs_writeBuf id bytes hspan
    | complete position res => rfl
  unfold spanBytes
  rw [hbufs]

/-- The protocol of the buffers: each id is in exactly one place, an armed buffer is
one with an outstanding receive, and no queue is full where something is pushed. -/
structure BufferProtocol (rx : UringReceiver) : Prop where
  one_place : rx.places.Perm (List.range kNumBufs)
  armed_iff : ∀ id, rx.bufArmed id = true ↔ id ∈ rx.ring.outstanding
  spans_unarmed : ∀ span ∈ rx.spans, span.data = span.bufId ∧ rx.bufArmed span.data = false
  spans_kept : ∀ move, ∀ span ∈ rx.spans, (rx.step move).spanBytes span = rx.spanBytes span
  asserts : rx.failed = false
  none_dropped : rx.dropped = 0
  raw_room : rx.rawQueue.length < rawCapacity ∧ ∀ span, rx.stage ≠ .pushing span
  ret_room : rx.retQueue.length < retCapacity ∧
    ∀ span left, rx.decoderStage ≠ .returning span left

/-- The protocol holds in every state of every run. -/
theorem run_bufferProtocol (moves : List Move) : BufferProtocol (new.run moves) := by
  have hrx := owned_run moves
  have hlength := hrx.length_eq
  unfold kNumBufs at hlength
  constructor
  · exact hrx.perm
  · exact hrx.armed
  · intro span hspan
    refine ⟨hrx.data span hspan, ?_⟩
    rw [← Bool.not_eq_true, hrx.armed]
    exact hrx.not_writing hspan
  · intro move span hspan
    exact hrx.spanBytes_step move hspan
  · exact hrx.failed
  · exact hrx.dropped
  · refine ⟨?_, hrx.stage⟩
    unfold spans at hlength
    rw [List.length_append] at hlength
    unfold rawCapacity
    omega
  · refine ⟨?_, hrx.decoderStage⟩
    unfold retCapacity
    omega

end UringReceiver

end NanoMatch
