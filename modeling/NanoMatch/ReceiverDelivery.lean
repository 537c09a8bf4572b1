import NanoMatch.BufferOwnership

/-!
# What the receiver delivers

Every receive which the kernel completes with data reaches the decoder once, in the
order of the completions and with the bytes which its buffer held when it was
completed.  At any moment the completions fall into those processed and those which
wait in the ring, and what was received by the processed ones is what the decoder has
decoded, followed by the spans on their way to it.  The counters of the receiver count
the processed completions.
-/

namespace NanoMatch

/-- A receive at its completion, with what its buffer holds. -/
structure Completion where
  id : ℕ
  res : ℤ
  bytes : List UInt8
  deriving DecidableEq

namespace Completion

/-- The bytes received; there are none at the end of the stream or after an error. -/
def received (completion : Completion) : Option (List UInt8) :=
  if 0 < completion.res then some (completion.bytes.take completion.res.toNat) else none

/-- The span which `process_cqe` makes of it. -/
def span (completion : Completion) : RawByteSpan :=
  ⟨completion.id, completion.res.toNat, completion.id⟩

def failed (completion : Completion) : Bool := decide (completion.res < 0)

end Completion

namespace UringReceiver

/-- The receive which a move completes. -/
def completion (rx : UringReceiver) : Move → Option Completion
  | .complete position res => rx.ring.running[position]?.map fun id => ⟨id, res, rx.recvBufs id⟩
  | _ => none

/-- The receives completed during a run, in the order of their completion. -/
def completions (rx : UringReceiver) : List Move → List Completion
  | [] => []
  | move :: moves => (rx.completion move).toList ++ (rx.step move).completions moves

theorem completions_append (rx : UringReceiver) (moves : List Move) (move : Move) :
    rx.completions (moves ++ [move]) =
      rx.completions moves ++ ((rx.run moves).completion move).toList := by
  induction moves generalizing rx with
  | nil => simp [completions, run]
  | cons first moves ih =>
      rw [List.cons_append, completions, completions, ih, List.append_assoc]
      rfl

/-- The `processed` completions are counted and handed on, and those `pending` wait in the
ring with their bytes untouched.  What was `decoded` is in front of the spans. -/
structure Delivering (processed pending : List Completion) (decoded : List (List UInt8))
    (rx : UringReceiver) : Prop where
  completed : rx.ring.completed = pending.map fun completion => (completion.id, completion.res)
  buffers : ∀ completion ∈ pending, rx.recvBufs completion.id = completion.bytes
  received : processed.filterMap Completion.received = decoded ++ rx.spans.map rx.spanBytes
  decoder : rx.decoder = Decoder.new.decodeSpans decoded
  cqes : rx.cqesProcessed = processed.length
  bytes : rx.bytesReceived = (processed.map fun completion => completion.res.toNat).sum
  errors : rx.errorsSeen = processed.countP Completion.failed

variable {rx rx' : UringReceiver} {processed pending : List Completion}
  {decoded : List (List UInt8)} {loose : List ℕ} {id : ℕ}

/-- Nothing of what is delivered has changed. -/
structure SameDelivery (rx rx' : UringReceiver) : Prop where
  completed : rx'.ring.completed = rx.ring.completed
  recvBufs : rx'.recvBufs = rx.recvBufs
  spans : rx'.spans = rx.spans
  decoder : rx'.decoder = rx.decoder
  cqes : rx'.cqesProcessed = rx.cqesProcessed
  bytes : rx'.bytesReceived = rx.bytesReceived
  errors : rx'.errorsSeen = rx.errorsSeen

theorem Delivering.same (hrx : Delivering processed pending decoded rx)
    (hsame : SameDelivery rx rx') : Delivering processed pending decoded rx' where
  completed := hsame.completed.trans hrx.completed
  buffers completion hpending := by
    rw [hsame.recvBufs]
    exact hrx.buffers completion hpending
  received := by
    have hbytes : rx'.spanBytes = rx.spanBytes := by
      funext span
      unfold spanBytes
      rw [hsame.recvBufs]
    rw [hsame.spans, hbytes]
    exact hrx.received
  decoder := hsame.decoder.trans hrx.decoder
  cqes := hsame.cqes.trans hrx.cqes
  bytes := hsame.bytes.trans hrx.bytes
  errors := hsame.errors.trans hrx.errors

namespace SameDelivery

theorem refl (rx : UringReceiver) : SameDelivery rx rx := ⟨rfl, rfl, rfl, rfl, rfl, rfl, rfl⟩

/-- Arming counts an error only where the receive is dropped. -/
theorem armBuf (rx : UringReceiver) (id : ℕ) (hdropped : (rx.armBuf id).dropped = 0) :
    SameDelivery rx (rx.armBuf id) := by
  unfold UringReceiver.armBuf at hdropped ⊢
  split_ifs with hsqe
  · exact ⟨rfl, rfl, rfl, rfl, rfl, rfl, rfl⟩
  · rw [if_neg hsqe] at hdropped
    exact absurd hdropped (by simp)

theorem trans {rx'' : UringReceiver} (hfirst : SameDelivery rx rx')
    (hsecond : SameDelivery rx' rx'') : SameDelivery rx rx'' where
  completed := hsecond.completed.trans hfirst.completed
  recvBufs := hsecond.recvBufs.trans hfirst.recvBufs
  spans := hsecond.spans.trans hfirst.spans
  decoder := hsecond.decoder.trans hfirst.decoder
  cqes := hsecond.cqes.trans hfirst.cqes
  bytes := hsecond.bytes.trans hfirst.bytes
  errors := hsecond.errors.trans hfirst.errors

theorem submit (rx : UringReceiver) : SameDelivery rx rx.submit :=
  ⟨rfl, rfl, rfl, rfl, rfl, rfl, rfl⟩

theorem foldl_armBuf (ids : List ℕ) (hrx : Owned (ids ++ loose) rx) :
    SameDelivery rx (ids.foldl UringReceiver.armBuf rx) := by
  induction ids generalizing rx with
  | nil => exact refl rx
  | cons id ids ih => exact (armBuf rx id hrx.armBuf.dropped).trans (ih hrx.armBuf)

theorem reclaimStep (hrx : Owned [] rx) : SameDelivery rx rx.reclaimStep := by
  have howned := hrx.reclaimStep
  unfold UringReceiver.reclaimStep at howned ⊢
  split
  · split_ifs <;> exact ⟨rfl, rfl, rfl, rfl, rfl, rfl, rfl⟩
  · rename_i bufId rest hqueue
    rw [hqueue] at howned
    simp only at howned
    unfold UringReceiver.reclaim at howned ⊢
    split_ifs at howned ⊢ with harm
    · have hsame := armBuf { rx with retQueue := rest } bufId howned.dropped
      exact ⟨hsame.completed, hsame.recvBufs, hsame.spans, hsame.decoder, hsame.cqes, hsame.bytes,
        hsame.errors⟩
    · exact ⟨rfl, rfl, rfl, rfl, rfl, rfl, rfl⟩

end SameDelivery

/-! ## The receiver thread -/

theorem finish_seen (hrx : Owned loose rx.finish) : rx.finish = rx.seen := by
  have hstage := hrx.stage
  unfold finish at hstage ⊢
  cases hcase : rx.stage with
  | pushing span =>
      rw [hcase] at hstage
      exact absurd hcase (hstage span)
  | _ => rfl

theorem pushSpan_of_owned (span : RawByteSpan) (hrx : Owned loose (rx.pushSpan span).seen) :
    rx.pushSpan span = { rx with rawQueue := rx.rawQueue ++ [span], stage := .draining } := by
  have hstage := hrx.stage span
  unfold pushSpan at hstage ⊢
  split_ifs with hroom
  · rfl
  · rw [if_neg hroom] at hstage
    exact absurd rfl hstage

section Process

variable {completion : Completion}

/-- The oldest completion is taken from the ring and counted. -/
theorem Delivering.unarm (hrx : Delivering processed (completion :: pending) decoded rx)
    (hdata : ¬ 0 < completion.res) :
    Delivering (processed ++ [completion]) pending decoded
      { rx.unarm completion.id with
        errorsSeen := rx.errorsSeen + [completion].countP Completion.failed }.seen where
  completed := by
    change rx.ring.completed.tail = _
    rw [hrx.completed, List.map_cons, List.tail_cons]
  buffers other hother := hrx.buffers other (List.mem_cons_of_mem _ hother)
  received := by
    have hreceived : completion.received = none := by
      unfold Completion.received
      rw [if_neg hdata]
    rw [List.filterMap_append, hrx.received, List.filterMap_cons_none hreceived,
      List.filterMap_nil, List.append_nil]
    rfl
  decoder := hrx.decoder
  cqes := by
    change rx.cqesProcessed + 1 = _
    rw [hrx.cqes, List.length_append]
    rfl
  bytes := by
    change rx.bytesReceived = _
    have hzero : completion.res.toNat = 0 := by omega
    rw [hrx.bytes, List.map_append, List.sum_append]
    simp [hzero]
  errors := by
    rw [List.countP_append, ← hrx.errors]
    rfl

/-- The bytes of the oldest completion are appended to the spans. -/
theorem Delivering.pushed (hrx : Delivering processed (completion :: pending) decoded rx)
    (hdata : 0 < completion.res) :
    Delivering (processed ++ [completion]) pending decoded
      { rx.unarm completion.id with
        bytesReceived := rx.bytesReceived + completion.res.toNat
        rawQueue := rx.rawQueue ++ [completion.span]
        stage := .draining }.seen where
  completed := by
    change rx.ring.completed.tail = _
    rw [hrx.completed, List.map_cons, List.tail_cons]
  buffers other hother := hrx.buffers other (List.mem_cons_of_mem _ hother)
  received := by
    have hbytes := hrx.buffers completion List.mem_cons_self
    have hreceived : completion.received =
        some ((rx.recvBufs completion.id).take completion.res.toNat) := by
      unfold Completion.received
      rw [if_pos hdata, hbytes]
    have hspans : rx.decoderStage.inHand ++ (rx.rawQueue ++
        [completion.span]) =
        rx.spans ++ [completion.span] := by
      rw [← List.append_assoc]
      rfl
    change _ = decoded ++ (rx.decoderStage.inHand ++ (rx.rawQueue ++
      [completion.span])).map rx.spanBytes
    rw [hspans, List.map_append, List.filterMap_append, hrx.received,
      List.filterMap_cons_some hreceived, List.filterMap_nil, List.append_assoc]
    rfl
  decoder := hrx.decoder
  cqes := by
    change rx.cqesProcessed + 1 = _
    rw [hrx.cqes, List.length_append]
    rfl
  bytes := by
    change rx.bytesReceived + completion.res.toNat = _
    rw [hrx.bytes, List.map_append, List.sum_append]
    simp
  errors := by
    have hfailed : completion.failed = false := by
      unfold Completion.failed
      simpa using hdata.le
    change rx.errorsSeen = _
    rw [hrx.errors, List.countP_append, List.countP_singleton, hfailed]
    rfl

theorem Delivering.processCqe (hrx : Delivering processed (completion :: pending) decoded rx)
    (howned : Owned [] rx) :
    Delivering (processed ++ [completion]) pending decoded
      (rx.processCqe completion.id completion.res).finish := by
  have hcompleted : rx.ring.completed = (completion.id, completion.res) ::
      pending.map fun completion => (completion.id, completion.res) := hrx.completed
  have hfinish := howned.processCqe hcompleted
  have hseen := finish_seen hfinish
  rw [hseen] at hfinish ⊢
  unfold UringReceiver.processCqe at hfinish ⊢
  split_ifs at hfinish ⊢ with hdata heof
  · rw [pushSpan_of_owned _ hfinish]
    exact hrx.pushed hdata
  · have hcounted := hrx.unarm (by omega)
    have hfailed : completion.failed = false := by
      unfold Completion.failed
      simp [heof]
    rw [List.countP_singleton, hfailed] at hcounted
    rw [armBuf_seen] at hfinish ⊢
    exact hcounted.same (SameDelivery.armBuf _ _ hfinish.dropped)
  · have hcounted := hrx.unarm hdata
    have hfailed : completion.failed = true := by
      unfold Completion.failed
      simp
      omega
    rw [List.countP_singleton, hfailed] at hcounted
    rw [armBuf_seen] at hfinish ⊢
    exact hcounted.same (SameDelivery.armBuf _ _ hfinish.dropped)

theorem Delivering.drainStep (hrx : Delivering processed pending decoded rx)
    (howned : Owned [] rx) :
    ∃ processed' pending', processed' ++ pending' = processed ++ pending ∧
      Delivering processed' pending' decoded rx.drainStep := by
  cases pending with
  | nil =>
      refine ⟨processed, [], rfl, ?_⟩
      have hnone : rx.ring.completed = [] := hrx.completed
      unfold UringReceiver.drainStep
      rw [hnone]
      exact hrx.same ⟨rfl, rfl, rfl, rfl, rfl, rfl, rfl⟩
  | cons completion pending =>
      refine ⟨processed ++ [completion], pending, by simp, ?_⟩
      have hcompleted : rx.ring.completed = (completion.id, completion.res) ::
          pending.map fun completion => (completion.id, completion.res) := hrx.completed
      unfold UringReceiver.drainStep
      rw [hcompleted]
      exact hrx.processCqe howned

theorem Delivering.receiverStep (hrx : Delivering processed pending decoded rx)
    (howned : Owned [] rx) :
    ∃ processed' pending', processed' ++ pending' = processed ++ pending ∧
      Delivering processed' pending' decoded rx.receiverStep := by
  unfold UringReceiver.receiverStep
  split
  · exact ⟨processed, pending, rfl, hrx.same ⟨rfl, rfl, rfl, rfl, rfl, rfl, rfl⟩⟩
  · exact ⟨processed, pending, rfl, hrx.same (.reclaimStep howned)⟩
  · exact hrx.drainStep howned
  · rename_i span hstage
    exact absurd hstage (howned.stage span)

end Process

/-! ## The decoder thread -/

theorem returnBuf_of_owned {span : RawByteSpan} {left : ℕ}
    (hrx : Owned [] (rx.returnBuf span left)) :
    rx.returnBuf span left =
      { rx with retQueue := rx.retQueue ++ [span.bufId], decoderStage := .popping left } := by
  have hstage := hrx.decoderStage span left
  unfold returnBuf at hstage ⊢
  split_ifs with hroom
  · rfl
  · rw [if_neg hroom] at hstage
    exact absurd rfl hstage

theorem SameDelivery.callDecoder (rx : UringReceiver) (maxBatch : ℕ) :
    SameDelivery rx (rx.callDecoder maxBatch) := by
  unfold UringReceiver.callDecoder
  split_ifs with hstage
  · refine ⟨rfl, rfl, ?_, rfl, rfl, rfl, rfl⟩
    unfold UringReceiver.spans
    rw [hstage]
    rfl
  · exact SameDelivery.refl rx

theorem SameDelivery.popSpan {left : ℕ} (hstage : rx.decoderStage = .popping (left + 1)) :
    SameDelivery rx (rx.popSpan left) := by
  have hspans : rx.spans = rx.rawQueue := by
    unfold UringReceiver.spans
    rw [hstage]
    rfl
  unfold UringReceiver.popSpan
  split
  · exact ⟨rfl, rfl, hspans.symm, rfl, rfl, rfl, rfl⟩
  · rename_i span rest hqueue
    refine ⟨rfl, rfl, ?_, rfl, rfl, rfl, rfl⟩
    rw [hspans, hqueue]
    rfl

/-- The span in hand is decoded with the bytes it was received with. -/
theorem Delivering.decodeSpan {span : RawByteSpan} {left : ℕ}
    (hrx : Delivering processed pending decoded rx)
    (hstage : rx.decoderStage = .decoding span left) :
    Delivering processed pending (decoded ++ [rx.spanBytes span])
      { rx with
        decoder := (rx.decoder.decodeSpan (rx.spanBytes span)).1
        retQueue := rx.retQueue ++ [span.bufId]
        decoderStage := .popping left } where
  completed := hrx.completed
  buffers := hrx.buffers
  received := by
    have hspans : rx.spans = span :: rx.rawQueue := by
      unfold spans
      rw [hstage]
      rfl
    rw [hrx.received, hspans, List.map_cons, List.append_assoc]
    rfl
  decoder := by
    have hdecoder := hrx.decoder
    unfold Decoder.decodeSpans at hdecoder ⊢
    rw [List.foldl_append, ← hdecoder]
    rfl
  cqes := hrx.cqes
  bytes := hrx.bytes
  errors := hrx.errors

theorem Delivering.decoderStep (hrx : Delivering processed pending decoded rx)
    (howned : Owned [] rx) :
    ∃ decoded', Delivering processed pending decoded' rx.decoderStep := by
  have hstep := howned.decoderStep
  unfold UringReceiver.decoderStep at hstep ⊢
  split at hstep
  · exact ⟨decoded, hrx⟩
  · rename_i hstage
    refine ⟨decoded, hrx.same ⟨rfl, rfl, ?_, rfl, rfl, rfl, rfl⟩⟩
    unfold spans
    rw [hstage]
    rfl
  · rename_i left hstage
    exact ⟨decoded, hrx.same (.popSpan hstage)⟩
  · rename_i span left hstage
    rw [returnBuf_of_owned hstep]
    exact ⟨_, hrx.decodeSpan hstage⟩
  · rename_i span left hstage
    exact absurd hstage (howned.decoderStage span left)

/-! ## The kernel -/

/-- The buffers of the completions which wait are not written to. -/
theorem Delivering.writeBuf (hrx : Delivering processed pending decoded rx)
    (howned : Owned [] rx) (id : ℕ) (bytes : List UInt8) :
    Delivering processed pending decoded (rx.writeBuf id bytes) := by
  have hspans : (rx.writeBuf id bytes).spans = rx.spans := by
    unfold UringReceiver.writeBuf
    split_ifs <;> rfl
  have hreceived : rx.spans.map (rx.writeBuf id bytes).spanBytes = rx.spans.map rx.spanBytes := by
    apply List.map_congr_left
    intro span hspan
    exact howned.spanBytes_step (.write id bytes) hspan
  have hbuffers : ∀ completion ∈ pending,
      (rx.writeBuf id bytes).recvBufs completion.id = completion.bytes := by
    intro completion hpending
    unfold UringReceiver.writeBuf
    split_ifs with hwrites
    · rw [← hrx.buffers completion hpending]
      apply Function.update_of_ne
      intro heq
      have hmem : completion.id ∈ rx.ring.completed.map Prod.fst := by
        rw [hrx.completed, List.map_map]
        exact List.mem_map_of_mem hpending
      have hnodup := howned.nodup
      rw [List.nil_append, places, SubmissionRing.outstanding, List.nodup_append,
        List.nodup_append] at hnodup
      refine hnodup.1.2.2 _ hmem _ ?_ heq
      rw [List.mem_append] at hwrites ⊢
      rw [List.mem_append]
      tauto
    · exact hrx.buffers completion hpending
  unfold UringReceiver.writeBuf at hspans hreceived hbuffers ⊢
  split_ifs with hwrites
  · rw [if_pos hwrites] at hspans hreceived hbuffers
    refine ⟨hrx.completed, hbuffers, ?_, hrx.decoder, hrx.cqes, hrx.bytes, hrx.errors⟩
    rw [hspans, hreceived]
    exact hrx.received
  · exact hrx

theorem Delivering.complete (hrx : Delivering processed pending decoded rx) (position : ℕ)
    (res : ℤ) :
    Delivering processed (pending ++ (rx.completion (.complete position res)).toList) decoded
      { rx with ring := rx.ring.complete position fun _ => res } := by
  rcases rx.ring.complete_cases position (fun _ => res) with
    ⟨hrunning, hring⟩ | ⟨request, hrunning, hring⟩
  · rw [hring]
    simp only [completion, hrunning, Option.map_none, Option.toList_none, List.append_nil]
    exact hrx
  · rw [hring]
    simp only [completion, hrunning, Option.map_some, Option.toList_some]
    refine ⟨?_, ?_, hrx.received, hrx.decoder, hrx.cqes, hrx.bytes, hrx.errors⟩
    · simp only
      rw [hrx.completed, List.map_append]
      rfl
    · intro completion hpending
      rcases List.mem_append.mp hpending with hold | hnew
      · exact hrx.buffers completion hold
      · rw [List.mem_singleton.mp hnew]

/-! ## Runs -/

theorem Delivering.step (hrx : Delivering processed pending decoded rx) (howned : Owned [] rx)
    (move : Move) :
    ∃ processed' pending' decoded',
      processed' ++ pending' = processed ++ pending ++ (rx.completion move).toList ∧
        Delivering processed' pending' decoded' (rx.step move) := by
  cases move with
  | receiver =>
      obtain ⟨processed', pending', hlog, hstep⟩ := hrx.receiverStep howned
      exact ⟨processed', pending', decoded, by rw [hlog]; simp [completion], hstep⟩
  | callDecoder maxBatch =>
      exact ⟨processed, pending, decoded, by simp [completion],
        hrx.same (.callDecoder rx maxBatch)⟩
  | decoder =>
      obtain ⟨decoded', hstep⟩ := hrx.decoderStep howned
      exact ⟨processed, pending, decoded', by simp [completion], hstep⟩
  | consume =>
      refine ⟨processed, pending, decoded, by simp [completion], hrx.same ?_⟩
      exact ⟨rx.ring.completed_consume, rfl, rfl, rfl, rfl, rfl, rfl⟩
  | write id bytes =>
      exact ⟨processed, pending, decoded, by simp [completion], hrx.writeBuf howned id bytes⟩
  | complete position res =>
      exact ⟨processed, _, decoded, by rw [List.append_assoc], hrx.complete position res⟩

theorem delivering_new : Delivering [] [] [] new := by
  have hunarmed : Delivering [] [] [] unarmed := ⟨rfl, nofun, rfl, rfl, rfl, rfl, rfl⟩
  have howned : Owned (List.range kNumBufs ++ []) unarmed := by
    rw [List.append_nil]
    exact owned_unarmed
  have harmed := SameDelivery.foldl_armBuf (List.range kNumBufs) howned
  exact (hunarmed.same harmed).same (SameDelivery.submit _)

/-- Every receive is handed on once, in the order of completion and with its bytes. -/
theorem run_delivers (moves : List Move) :
    ∃ processed pending decoded, new.completions moves = processed ++ pending ∧
      Delivering processed pending decoded (new.run moves) := by
  induction moves using List.reverseRecOn with
  | nil => exact ⟨[], [], [], rfl, delivering_new⟩
  | append_singleton moves move ih =>
      obtain ⟨processed, pending, decoded, hlog, hrx⟩ := ih
      obtain ⟨processed', pending', decoded', hlog', hstep⟩ := hrx.step (owned_run moves) move
      refine ⟨processed', pending', decoded', ?_, ?_⟩
      · rw [completions_append, hlog, hlog']
      · unfold run
        rw [List.foldl_append]
        exact hstep

end UringReceiver

end NanoMatch
