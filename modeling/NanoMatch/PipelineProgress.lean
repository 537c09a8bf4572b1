import NanoMatch.FairProgress
import NanoMatch.ScheduleIndependence
import Mathlib.Data.Prod.Lex

/-!
# Progress of the pipeline

However the threads have been interleaved, if from now on each of them moves again
and again then every span is decoded, every message is dispatched and every report
reaches the consumer.  No two threads ever wait for each other.

Work only moves downstream: a move which does something takes it from one place and
adds to places further down, so the work before the places decreases in the
lexicographic order.  A load which misses the latest stores sends a thread around its
loop once more without any work done, but the stores become visible in the end.
-/

namespace NanoMatch

open FairRun

/-- How much the decoder thread has to do for the span in its hands. -/
def DecodePoint.work : DecodePoint → ℕ
  | .idle => 0
  | .popping _ => 0
  | .decoding _ ptr _ => 2 * ptr.length + 2
  | .pushing _ _ ptr _ => 2 * ptr.length + 3
  | .returning _ _ => 1

theorem DecodePoint.work_eq_zero_iff (point : DecodePoint) :
    point.work = 0 ↔ point.inHand = [] := by
  cases point <;> simp [DecodePoint.work, DecodePoint.inHand]

/-- The work which is left, from the first place to the last. -/
structure Work where
  incoming : ℕ
  raw : ℕ
  decoding : ℕ
  inbound : ℕ
  batch : ℕ
  posting : ℕ
  outbound : ℕ
  returns : ℕ
  deriving DecidableEq

namespace Work

def key (work : Work) : ℕ ×ₗ ℕ ×ₗ ℕ ×ₗ ℕ ×ₗ ℕ ×ₗ ℕ ×ₗ ℕ ×ₗ ℕ :=
  toLex (work.incoming, toLex (work.raw, toLex (work.decoding, toLex (work.inbound,
    toLex (work.batch, toLex (work.posting, toLex (work.outbound, work.returns)))))))

theorem key_injective : Function.Injective key := by
  rintro ⟨⟩ ⟨⟩ hkey
  simpa [key] using hkey

instance : PartialOrder Work := PartialOrder.lift key key_injective

instance : WellFoundedLT Work := ⟨InvImage.wf key wellFounded_lt⟩

theorem lt_iff (work work' : Work) :
    work < work' ↔ work.incoming < work'.incoming ∨ work.incoming = work'.incoming ∧
      (work.raw < work'.raw ∨ work.raw = work'.raw ∧
      (work.decoding < work'.decoding ∨ work.decoding = work'.decoding ∧
      (work.inbound < work'.inbound ∨ work.inbound = work'.inbound ∧
      (work.batch < work'.batch ∨ work.batch = work'.batch ∧
      (work.posting < work'.posting ∨ work.posting = work'.posting ∧
      (work.outbound < work'.outbound ∨ work.outbound = work'.outbound ∧
        work.returns < work'.returns)))))) := by
  change key work < key work' ↔ _
  simp only [key, Prod.Lex.toLex_lt_toLex]

end Work

namespace Pipeline

def work (pipeline : Pipeline) : Work where
  incoming := pipeline.incoming.length
  raw := pipeline.raw.items.length
  decoding := pipeline.decodePoint.work
  inbound := pipeline.inbound.items.length
  batch := pipeline.batch.length
  posting := pipeline.posting.length
  outbound := pipeline.outbound.items.length
  returns := pipeline.returns.items.length

/-- Nothing is left to do. -/
structure Drained (pipeline : Pipeline) : Prop where
  incoming : pipeline.incoming = []
  raw : pipeline.raw.items = []
  decoder : pipeline.decodePoint.inHand = []
  inbound : pipeline.inbound.items = []
  batch : pipeline.batch = []
  posting : pipeline.posting = []
  outbound : pipeline.outbound.items = []
  returns : pipeline.returns.items = []

theorem drained_iff (pipeline : Pipeline) :
    pipeline.Drained ↔ pipeline.work = ⟨0, 0, 0, 0, 0, 0, 0, 0⟩ := by
  unfold work
  simp only [Work.mk.injEq, List.length_eq_zero_iff, DecodePoint.work_eq_zero_iff]
  constructor
  · rintro ⟨hincoming, hraw, hdecoder, hinbound, hbatch, hposting, houtbound, hreturns⟩
    exact ⟨hincoming, hraw, hdecoder, hinbound, hbatch, hposting, houtbound, hreturns⟩
  · rintro ⟨hincoming, hraw, hdecoder, hinbound, hbatch, hposting, houtbound, hreturns⟩
    exact ⟨hincoming, hraw, hdecoder, hinbound, hbatch, hposting, houtbound, hreturns⟩

/-! ## Turns -/

inductive Turn where
  | receive
  | decoderPoll
  | decoder
  | reclaim
  | enginePoll
  | engine
  | consume
  deriving DecidableEq

def Move.turn : Move → Turn
  | .receive _ => .receive
  | .decoderPoll _ => .decoderPoll
  | .decoder _ => .decoder
  | .reclaim _ _ => .reclaim
  | .enginePoll _ _ => .enginePoll
  | .engine _ => .engine
  | .consume _ _ => .consume

/-- The stores of the other side which the move does not see. -/
def Move.unseen : Move → ℕ
  | .receive unseen => unseen
  | .decoderPoll _ => 0
  | .decoder unseen => unseen
  | .reclaim unseen _ => unseen
  | .enginePoll unseen _ => unseen
  | .engine unseen => unseen
  | .consume unseen _ => unseen

/-- A poll or a pop asks for at least one item, as those of the threads do. -/
def Move.Asks : Move → Prop
  | .decoderPoll maxBatch => 0 < iterations maxBatch
  | .reclaim _ maxCount => 0 < maxCount
  | .enginePoll _ maxBatch => 0 < maxBatch.toNat
  | .consume _ maxCount => 0 < maxCount
  | _ => True

instance (move : Move) : Decidable move.Asks :=
  match move with
  | .receive _ => inferInstanceAs (Decidable True)
  | .decoderPoll maxBatch => inferInstanceAs (Decidable (0 < iterations maxBatch))
  | .decoder _ => inferInstanceAs (Decidable True)
  | .reclaim _ maxCount => inferInstanceAs (Decidable (0 < maxCount))
  | .enginePoll _ maxBatch => inferInstanceAs (Decidable (0 < maxBatch.toNat))
  | .engine _ => inferInstanceAs (Decidable True)
  | .consume _ maxCount => inferInstanceAs (Decidable (0 < maxCount))

/-! ## Steps -/

/-- Every queue has a place, and the engine thread has nothing at hand between polls. -/
structure Ready (pipeline : Pipeline) : Prop where
  raw : 0 < pipeline.raw.capacity
  inbound : 0 < pipeline.inbound.capacity
  returns : 0 < pipeline.returns.capacity
  outbound : 0 < pipeline.outbound.capacity
  waiting : pipeline.polled = none → pipeline.batch = [] ∧ pipeline.posting = []

variable {pipeline : Pipeline} {unseen maxCount : ℕ}

theorem receive_effect (pipeline : Pipeline) (unseen : ℕ) :
    (pipeline.receive unseen).work < pipeline.work ∨
      pipeline.receive unseen = pipeline ∧
        (unseen = 0 → pipeline.incoming = [] ∨
          pipeline.raw.capacity ≤ pipeline.raw.items.length) := by
  unfold receive
  split
  · rename_i hincoming
    exact Or.inr ⟨rfl, fun _ => Or.inl hincoming⟩
  · rename_i span incoming hincoming
    cases hpush : pipeline.raw.tryPush unseen span with
    | none =>
        refine Or.inr ⟨rfl, ?_⟩
        rintro rfl
        exact Or.inr (BoundedFifo.full_of_tryPush hpush)
    | some raw =>
        apply Or.inl
        rw [Work.lt_iff]
        simp [work, hincoming]

theorem decoderPoll_effect (pipeline : Pipeline) (maxBatch : UInt64) :
    pipeline.decodePoint ≠ .idle ∧ pipeline.decoderPoll maxBatch = pipeline ∨
      pipeline.decodePoint = .idle ∧
        pipeline.decoderPoll maxBatch =
          { pipeline with decodePoint := .popping (iterations maxBatch) } := by
  unfold decoderPoll
  split
  · rename_i hpoint
    exact Or.inr ⟨hpoint, rfl⟩
  · rename_i hpoint
    exact Or.inl ⟨hpoint, rfl⟩

/-- The decoder thread stands still only at a full queue or between its polls, and it goes
back to the beginning of `poll` only when it sees no span. -/
theorem decoderStep_effect (pipeline : Pipeline) (unseen : ℕ) :
    (pipeline.decoderStep unseen).work < pipeline.work ∨
      pipeline.decoderStep unseen = pipeline ∧
        (unseen = 0 → pipeline.decodePoint = .idle ∨
          pipeline.inbound.capacity ≤ pipeline.inbound.items.length ∨
          pipeline.returns.capacity ≤ pipeline.returns.items.length) ∨
      ∃ left, pipeline.decodePoint = .popping left ∧
        pipeline.decoderStep unseen = { pipeline with decodePoint := .idle } ∧
        (unseen = 0 → left = 0 ∨ pipeline.raw.items = []) := by
  unfold decoderStep
  split
  · rename_i hpoint
    exact Or.inr (Or.inl ⟨rfl, fun _ => Or.inl hpoint⟩)
  · rename_i hpoint
    exact Or.inr (Or.inr ⟨0, hpoint, rfl, fun _ => Or.inl rfl⟩)
  · rename_i left hpoint
    unfold popSpan
    cases hpop : pipeline.raw.tryPop unseen with
    | none =>
        refine Or.inr (Or.inr ⟨left + 1, hpoint, rfl, ?_⟩)
        rintro rfl
        exact Or.inr (BoundedFifo.empty_of_tryPop hpop)
    | some popped =>
        rcases popped with ⟨span, raw⟩
        have hitems := (BoundedFifo.items_tryPop hpop).1
        apply Or.inl
        rw [Work.lt_iff]
        simp [work, hitems]
  · rename_i span ptr left hpoint
    apply Or.inl
    unfold decodeFrame
    simp only
    split_ifs with hshort hcorrupt
    · rw [Work.lt_iff]
      simp [work, hpoint, DecodePoint.work]
    · rw [Work.lt_iff]
      simp [work, hpoint, DecodePoint.work]
    · have hlength : (ptr.drop (WireHeader.read ptr).msgLen.toNat).length + 4 ≤ ptr.length := by
        unfold WireHeader.size at hshort hcorrupt
        rw [List.length_drop]
        omega
      rw [Work.lt_iff]
      apply Or.inr
      refine ⟨rfl, Or.inr ⟨rfl, Or.inl ?_⟩⟩
      simp only [work, hpoint]
      cases hparse : (pipeline.decoder.parseFrame (WireHeader.read ptr) ptr).2 with
      | none =>
          simp only [DecodePoint.work]
          omega
      | some msg =>
          simp only [DecodePoint.work]
          omega
  · rename_i span msg ptr left hpoint
    unfold pushMessage
    cases hpush : pipeline.inbound.tryPush unseen msg with
    | none =>
        refine Or.inr (Or.inl ⟨rfl, ?_⟩)
        rintro rfl
        exact Or.inr (Or.inl (BoundedFifo.full_of_tryPush hpush))
    | some inbound =>
        apply Or.inl
        rw [Work.lt_iff]
        simp [work, hpoint, DecodePoint.work]
  · rename_i span left hpoint
    unfold returnBuffer
    cases hpush : pipeline.returns.tryPush unseen span.bufId with
    | none =>
        refine Or.inr (Or.inl ⟨rfl, ?_⟩)
        rintro rfl
        exact Or.inr (Or.inr (BoundedFifo.full_of_tryPush hpush))
    | some returns =>
        apply Or.inl
        rw [Work.lt_iff]
        simp [work, hpoint, DecodePoint.work]

theorem enginePoll_effect (hready : pipeline.Ready) (unseen : ℕ) (maxBatch : UInt64) :
    (pipeline.enginePoll unseen maxBatch).work < pipeline.work ∨
      pipeline.enginePoll unseen maxBatch = pipeline ∧ pipeline.polled ≠ none ∨
      (pipeline.enginePoll unseen maxBatch).work = pipeline.work ∧
        (unseen = 0 → 0 < maxBatch.toNat → pipeline.inbound.items = []) := by
  unfold enginePoll
  split
  · rename_i n hpolled
    exact Or.inr (Or.inl ⟨rfl, by simp [hpolled]⟩)
  · rename_i hpolled
    have hbatch := (hready.waiting hpolled).1
    rcases pipeline.inbound.tryPopBatch_effect unseen (min maxBatch.toNat 64) with
      hfewer | ⟨hnone, hsame, hempty⟩
    · apply Or.inl
      rw [Work.lt_iff]
      simp [work, hfewer]
    · refine Or.inr (Or.inr ⟨by simp [work, hnone, hsame, hbatch], ?_⟩)
      intro hunseen hasks
      exact hempty hunseen (by omega)

theorem engineStep_effect (pipeline : Pipeline) (unseen : ℕ) :
    (pipeline.engineStep unseen).work < pipeline.work ∨
      pipeline.engineStep unseen = pipeline ∧ pipeline.posting ≠ [] ∧
        (unseen = 0 → pipeline.outbound.capacity ≤ pipeline.outbound.items.length) ∨
      (pipeline.engineStep unseen).work = pipeline.work ∧
        (pipeline.engineStep unseen).polled = none ∧
          pipeline.batch = [] ∧ pipeline.posting = [] := by
  unfold engineStep
  split
  · rename_i report rest hposting
    unfold postReport
    cases hpush : pipeline.outbound.tryPush unseen report with
    | none =>
        refine Or.inr (Or.inl ⟨rfl, by simp [hposting], ?_⟩)
        rintro rfl
        exact BoundedFifo.full_of_tryPush hpush
    | some outbound =>
        apply Or.inl
        rw [Work.lt_iff]
        simp [work, hposting]
  · rename_i hposting
    split
    · rename_i msg rest hbatch
      apply Or.inl
      rw [Work.lt_iff]
      simp [work, dispatchNext, hbatch]
    · rename_i hbatch
      refine Or.inr (Or.inr ?_)
      unfold finishPoll
      split
      · rename_i hpolled
        exact ⟨rfl, hpolled, hbatch, hposting⟩
      · exact ⟨rfl, rfl, hbatch, hposting⟩

theorem reclaim_effect (pipeline : Pipeline) (unseen maxCount : ℕ) :
    (pipeline.step (.reclaim unseen maxCount)).work < pipeline.work ∨
      (pipeline.step (.reclaim unseen maxCount)).work = pipeline.work ∧
        (unseen = 0 → 0 < maxCount → pipeline.returns.items = []) := by
  rcases pipeline.returns.tryPopBatch_effect unseen maxCount with hfewer | ⟨-, hsame, hempty⟩
  · apply Or.inl
    rw [Work.lt_iff]
    simp [work, step, hfewer]
  · exact Or.inr ⟨by simp [work, step, hsame], hempty⟩

theorem consume_effect (pipeline : Pipeline) (unseen maxCount : ℕ) :
    (pipeline.step (.consume unseen maxCount)).work < pipeline.work ∨
      (pipeline.step (.consume unseen maxCount)).work = pipeline.work ∧
        (unseen = 0 → 0 < maxCount → pipeline.outbound.items = []) := by
  rcases pipeline.outbound.tryPopBatch_effect unseen maxCount with hfewer | ⟨-, hsame, hempty⟩
  · apply Or.inl
    rw [Work.lt_iff]
    simp [work, step, hfewer]
  · exact Or.inr ⟨by simp [work, step, hsame], hempty⟩

/-- Nothing is done twice and no work is made. -/
theorem work_step_le (hready : pipeline.Ready) (move : Move) :
    (pipeline.step move).work ≤ pipeline.work := by
  cases move with
  | receive unseen =>
      rcases pipeline.receive_effect unseen with hless | ⟨hsame, -⟩
      · exact hless.le
      · exact (congrArg work hsame).le
  | decoderPoll maxBatch =>
      change (pipeline.decoderPoll maxBatch).work ≤ pipeline.work
      rcases pipeline.decoderPoll_effect maxBatch with ⟨-, hsame⟩ | ⟨hpoint, hpopping⟩
      · exact (congrArg work hsame).le
      · rw [hpopping]
        simp [work, hpoint, DecodePoint.work]
  | decoder unseen =>
      rcases pipeline.decoderStep_effect unseen with hless | ⟨hsame, -⟩ | ⟨left, hpoint, hidle, -⟩
      · exact hless.le
      · exact (congrArg work hsame).le
      · change (pipeline.decoderStep unseen).work ≤ pipeline.work
        rw [hidle]
        simp [work, hpoint, DecodePoint.work]
  | reclaim unseen maxCount =>
      rcases pipeline.reclaim_effect unseen maxCount with hless | ⟨hsame, -⟩
      · exact hless.le
      · exact hsame.le
  | enginePoll unseen maxBatch =>
      rcases enginePoll_effect hready unseen maxBatch with hless | ⟨hsame, -⟩ | ⟨hsame, -⟩
      · exact hless.le
      · exact (congrArg work hsame).le
      · exact hsame.le
  | engine unseen =>
      rcases pipeline.engineStep_effect unseen with hless | ⟨hsame, -⟩ | ⟨hsame, -⟩
      · exact hless.le
      · exact (congrArg work hsame).le
      · exact hsame.le
  | consume unseen maxCount =>
      rcases pipeline.consume_effect unseen maxCount with hless | ⟨hsame, -⟩
      · exact hless.le
      · exact hsame.le

/-! ## Detours -/

/-- How many moves the decoder thread needs until it takes a span which waits for it. -/
def decoderDetour (pipeline : Pipeline) : ℕ :=
  if pipeline.raw.items = [] then 0
  else
    match pipeline.decodePoint with
    | .popping 0 => 2
    | .idle => 1
    | _ => 0

/-- The engine thread has to finish its poll before it takes the messages which wait. -/
def engineDetour (pipeline : Pipeline) : ℕ :=
  if pipeline.inbound.items ≠ [] ∧ pipeline.polled.isSome ∧ pipeline.batch = [] ∧
      pipeline.posting = [] then 1
  else 0

def detour (pipeline : Pipeline) : ℕ × ℕ := (pipeline.decoderDetour, pipeline.engineDetour)

/-- Whose turn it is, from the last place with work to the first. -/
def next (work : Work) (detour : ℕ × ℕ) : Turn :=
  if 0 < work.outbound then .consume
  else if 0 < work.posting ∨ 0 < work.batch then .engine
  else if 0 < work.inbound then if detour.2 = 0 then .enginePoll else .engine
  else if 0 < work.returns then .reclaim
  else if 0 < work.decoding then .decoder
  else if 0 < work.raw then if detour.1 = 1 then .decoderPoll else .decoder
  else .receive

theorem detour_step_le (hready : pipeline.Ready) {move : Move} (hasks : move.Asks)
    (hunseen : move.unseen = 0) (hwork : (pipeline.step move).work = pipeline.work) :
    (pipeline.step move).detour ≤ pipeline.detour := by
  cases move with
  | receive unseen =>
      rcases pipeline.receive_effect unseen with hless | ⟨hsame, -⟩
      · exact absurd hwork hless.ne
      · exact (congrArg detour hsame).le
  | decoderPoll maxBatch =>
      change (pipeline.decoderPoll maxBatch).detour ≤ pipeline.detour
      rcases pipeline.decoderPoll_effect maxBatch with ⟨-, hsame⟩ | ⟨hpoint, hpopping⟩
      · exact (congrArg detour hsame).le
      · rw [hpopping]
        refine ⟨?_, le_rfl⟩
        have hpos : 0 < iterations maxBatch := hasks
        obtain ⟨left, hleft⟩ := Nat.exists_eq_succ_of_ne_zero hpos.ne'
        simp [detour, decoderDetour, hpoint, hleft]
  | decoder unseen =>
      change (pipeline.decoderStep unseen).detour ≤ pipeline.detour
      rcases pipeline.decoderStep_effect unseen with hless | ⟨hsame, -⟩ |
        ⟨left, hpoint, hidle, hseen⟩
      · exact absurd hwork hless.ne
      · exact (congrArg detour hsame).le
      · rw [hidle]
        refine ⟨?_, le_rfl⟩
        rcases hseen hunseen with rfl | hraw
        · simp only [detour, decoderDetour, hpoint]
          split_ifs <;> omega
        · simp [detour, decoderDetour, hraw]
  | reclaim unseen maxCount => exact le_rfl
  | enginePoll unseen maxBatch =>
      rcases enginePoll_effect hready unseen maxBatch with hless | ⟨hsame, -⟩ | ⟨-, hempty⟩
      · exact absurd hwork hless.ne
      · exact (congrArg detour hsame).le
      · have hinbound := congrArg Work.inbound hwork
        have hitems : (pipeline.step (.enginePoll unseen maxBatch)).inbound.items = [] := by
          have hlength : (pipeline.step (.enginePoll unseen maxBatch)).inbound.items.length =
            pipeline.inbound.items.length := hinbound
          rw [hempty hunseen hasks, List.length_nil] at hlength
          exact List.length_eq_zero_iff.mp hlength
        have hdecoder := DecoderWaits.enginePoll pipeline unseen maxBatch
        constructor
        · change (pipeline.enginePoll unseen maxBatch).decoderDetour ≤ pipeline.decoderDetour
          unfold decoderDetour
          rw [hdecoder.raw, hdecoder.decodePoint]
        · simp [detour, engineDetour, hitems]
  | engine unseen =>
      rcases pipeline.engineStep_effect unseen with hless | ⟨hsame, -⟩ | ⟨-, hpolled, -⟩
      · exact absurd hwork hless.ne
      · exact (congrArg detour hsame).le
      · have hdecoder := DecoderWaits.engineStep pipeline unseen
        constructor
        · change (pipeline.engineStep unseen).decoderDetour ≤ pipeline.decoderDetour
          unfold decoderDetour
          rw [hdecoder.raw, hdecoder.decodePoint]
        · change (pipeline.engineStep unseen).engineDetour ≤ pipeline.engineDetour
          simp [engineDetour, hpolled]
  | consume unseen maxCount => exact le_rfl

theorem decoderDetour_eq_one_iff (pipeline : Pipeline) :
    pipeline.decoderDetour = 1 ↔ pipeline.raw.items ≠ [] ∧ pipeline.decodePoint = .idle := by
  unfold decoderDetour
  split_ifs with hraw
  · simp [hraw]
  · split <;> simp_all

theorem not_full_of_empty {α : Type} {queue : BoundedFifo α} (hcapacity : 0 < queue.capacity)
    (hempty : ¬ 0 < queue.items.length) : ¬ queue.capacity ≤ queue.items.length := by
  omega

section Progress

variable {move : Move}

/-- The consumer and the engine thread find their work. -/
theorem engine_progress (hready : pipeline.Ready) (hasks : move.Asks) (hunseen : move.unseen = 0)
    (hmore : 0 < pipeline.outbound.items.length ∨ 0 < pipeline.posting.length ∨
      0 < pipeline.batch.length ∨ 0 < pipeline.inbound.items.length)
    (hturn : move.turn = next pipeline.work pipeline.detour)
    (hwork : (pipeline.step move).work = pipeline.work) :
    (pipeline.step move).detour ≠ pipeline.detour := by
  unfold next work at hturn
  simp only at hturn
  split_ifs at hturn with houtbound hengine hinbound hpoll hreturns hdecoding hraw hidle
  · cases move <;> cases hturn
    rename_i unseen maxCount
    rcases pipeline.consume_effect unseen maxCount with hless | ⟨-, hempty⟩
    · exact absurd hwork hless.ne
    · simp [hempty hunseen hasks] at houtbound
  · cases move <;> cases hturn
    rename_i unseen
    rcases pipeline.engineStep_effect unseen with hless | ⟨-, -, hfull⟩ | ⟨-, -, hbatch, hposting⟩
    · exact absurd hwork hless.ne
    · exact absurd (hfull hunseen) (not_full_of_empty hready.outbound houtbound)
    · simp [hbatch, hposting] at hengine
  · cases move <;> cases hturn
    rename_i unseen maxBatch
    rcases enginePoll_effect hready unseen maxBatch with hless | ⟨-, hpolled⟩ | ⟨-, hempty⟩
    · exact absurd hwork hless.ne
    · -- Inside a poll with nothing at hand the thread would be on its detour.
      have hitems : pipeline.inbound.items ≠ [] := List.length_pos_iff.mp hinbound
      rw [not_or, List.length_pos_iff, List.length_pos_iff, not_not, not_not] at hengine
      simp [detour, engineDetour, hitems, hengine.1, hengine.2,
        Option.isSome_iff_ne_none.mpr hpolled] at hpoll
    · simp [hempty hunseen hasks] at hinbound
  · cases move <;> cases hturn
    rename_i unseen
    rcases pipeline.engineStep_effect unseen with hless | ⟨-, hposting, -⟩ | ⟨-, hpolled, -⟩
    · exact absurd hwork hless.ne
    · exact absurd (Or.inl (List.length_pos_iff.mpr hposting)) hengine
    · intro hsame
      apply hpoll
      rw [← hsame]
      change (pipeline.engineStep unseen).engineDetour = 0
      simp [engineDetour, hpolled]
  all_goals omega

/-- The receiver and the decoder thread find their work. -/
theorem decoder_progress (hready : pipeline.Ready) (hasks : move.Asks) (hunseen : move.unseen = 0)
    (hdrained : ¬ pipeline.Drained)
    (hless : ¬ (0 < pipeline.outbound.items.length ∨ 0 < pipeline.posting.length ∨
      0 < pipeline.batch.length ∨ 0 < pipeline.inbound.items.length))
    (hturn : move.turn = next pipeline.work pipeline.detour)
    (hwork : (pipeline.step move).work = pipeline.work) :
    (pipeline.step move).detour ≠ pipeline.detour := by
  simp only [not_or] at hless
  obtain ⟨houtbound, hposting, hbatch, hinbound⟩ := hless
  unfold next work at hturn
  simp only [houtbound, hposting, hbatch, hinbound, or_self, if_false] at hturn
  split_ifs at hturn with hreturns hdecoding hraw hidle
  · cases move <;> cases hturn
    rename_i unseen maxCount
    rcases pipeline.reclaim_effect unseen maxCount with hless | ⟨-, hempty⟩
    · exact absurd hwork hless.ne
    · simp [hempty hunseen hasks] at hreturns
  · cases move <;> cases hturn
    rename_i unseen
    rcases pipeline.decoderStep_effect unseen with hless | ⟨-, hstill⟩ | ⟨left, hpoint, -⟩
    · exact absurd hwork hless.ne
    · rcases hstill hunseen with hpoint | hfull | hfull
      · simp [hpoint, DecodePoint.work] at hdecoding
      · exact absurd hfull (not_full_of_empty hready.inbound hinbound)
      · exact absurd hfull (not_full_of_empty hready.returns hreturns)
    · simp [hpoint, DecodePoint.work] at hdecoding
  · cases move <;> cases hturn
    rename_i maxBatch
    have hpoint := (pipeline.decoderDetour_eq_one_iff.mp hidle).2
    intro hsame
    change (pipeline.decoderPoll maxBatch).detour = pipeline.detour at hsame
    rcases pipeline.decoderPoll_effect maxBatch with ⟨hbusy, -⟩ | ⟨-, hpopping⟩
    · exact hbusy hpoint
    · have hone := (congrArg Prod.fst hsame).trans hidle
      have hidle' := ((pipeline.decoderPoll maxBatch).decoderDetour_eq_one_iff.mp hone).2
      rw [hpopping] at hidle'
      exact absurd hidle' (by simp)
  · cases move <;> cases hturn
    rename_i unseen
    have hitems : pipeline.raw.items ≠ [] := List.length_pos_iff.mp hraw
    rcases pipeline.decoderStep_effect unseen with hless | ⟨-, hstill⟩ |
      ⟨left, hpoint, hidles, hseen⟩
    · exact absurd hwork hless.ne
    · rcases hstill hunseen with hpoint | hfull | hfull
      · exact absurd (pipeline.decoderDetour_eq_one_iff.mpr ⟨hitems, hpoint⟩) hidle
      · exact absurd hfull (not_full_of_empty hready.inbound hinbound)
      · exact absurd hfull (not_full_of_empty hready.returns hreturns)
    · intro hsame
      change (pipeline.decoderStep unseen).detour = pipeline.detour at hsame
      have hone : (pipeline.decoderStep unseen).decoderDetour = 1 := by
        rw [decoderDetour_eq_one_iff, hidles]
        exact ⟨hitems, rfl⟩
      exact hidle ((congrArg Prod.fst hsame).symm.trans hone)
  · cases move <;> cases hturn
    rename_i unseen
    rcases pipeline.receive_effect unseen with hless | ⟨-, hstill⟩
    · exact absurd hwork hless.ne
    · rcases hstill hunseen with hincoming | hfull
      · apply absurd _ hdrained
        rw [drained_iff]
        unfold work
        rw [Work.mk.injEq]
        simp only [hincoming, List.length_nil, true_and]
        omega
      · exact absurd hfull (not_full_of_empty hready.raw hraw)

end Progress

theorem turn_progress (hready : pipeline.Ready) {move : Move} (hasks : move.Asks)
    (hunseen : move.unseen = 0) (hdrained : ¬ pipeline.Drained)
    (hturn : move.turn = next pipeline.work pipeline.detour)
    (hwork : (pipeline.step move).work = pipeline.work) :
    (pipeline.step move).detour ≠ pipeline.detour := by
  by_cases hmore : 0 < pipeline.outbound.items.length ∨ 0 < pipeline.posting.length ∨
      0 < pipeline.batch.length ∨ 0 < pipeline.inbound.items.length
  · exact engine_progress hready hasks hunseen hmore hturn hwork
  · exact decoder_progress hready hasks hunseen hdrained hmore hturn hwork

/-! ## Runs -/

/-- Every queue has a place. -/
structure Capacities.Positive (capacities : Capacities) : Prop where
  raw : 0 < capacities.raw
  inbound : 0 < capacities.inbound
  returns : 0 < capacities.returns
  outbound : 0 < capacities.outbound

def capacities (pipeline : Pipeline) : Capacities where
  raw := pipeline.raw.capacity
  inbound := pipeline.inbound.capacity
  returns := pipeline.returns.capacity
  outbound := pipeline.outbound.capacity

theorem capacities_decoderStep (pipeline : Pipeline) (unseen : ℕ) :
    (pipeline.decoderStep unseen).capacities = pipeline.capacities := by
  unfold decoderStep
  split
  · rfl
  · rfl
  · unfold popSpan
    split
    · rfl
    · rename_i span raw hpop
      simp [capacities, (BoundedFifo.items_tryPop hpop).2]
  · unfold decodeFrame
    simp only
    split_ifs <;> rfl
  · unfold pushMessage
    split
    · rfl
    · rename_i inbound hpush
      simp [capacities, (BoundedFifo.items_tryPush hpush).2]
  · unfold returnBuffer
    split
    · rfl
    · rename_i returns hpush
      simp [capacities, (BoundedFifo.items_tryPush hpush).2]

theorem capacities_engineStep (pipeline : Pipeline) (unseen : ℕ) :
    (pipeline.engineStep unseen).capacities = pipeline.capacities := by
  unfold engineStep
  split
  · unfold postReport
    split
    · rfl
    · rename_i outbound hpush
      simp [capacities, (BoundedFifo.items_tryPush hpush).2]
  · split
    · rfl
    · unfold finishPoll
      split <;> rfl

theorem capacities_step (pipeline : Pipeline) (move : Move) :
    (pipeline.step move).capacities = pipeline.capacities := by
  cases move with
  | receive unseen =>
      change (pipeline.receive unseen).capacities = pipeline.capacities
      unfold receive
      split
      · rfl
      · split
        · rfl
        · rename_i raw hpush
          simp [capacities, (BoundedFifo.items_tryPush hpush).2]
  | decoderPoll maxBatch =>
      change (pipeline.decoderPoll maxBatch).capacities = pipeline.capacities
      rcases pipeline.decoderPoll_effect maxBatch with ⟨-, hsame⟩ | ⟨-, hpopping⟩
      · rw [hsame]
      · rw [hpopping]
        rfl
  | decoder unseen => exact pipeline.capacities_decoderStep unseen
  | reclaim unseen maxCount => rfl
  | enginePoll unseen maxBatch =>
      change (pipeline.enginePoll unseen maxBatch).capacities = pipeline.capacities
      unfold enginePoll
      split <;> rfl
  | engine unseen => exact pipeline.capacities_engineStep unseen
  | consume unseen maxCount => rfl

theorem capacities_run (pipeline : Pipeline) (moves : List Move) :
    (pipeline.run moves).capacities = pipeline.capacities := by
  unfold run
  induction moves generalizing pipeline with
  | nil => rfl
  | cons move moves ih => exact (ih (pipeline.step move)).trans (pipeline.capacities_step move)

/-- A pipeline on its way, with a place in every queue. -/
structure OnTheWay (spans : List FilledSpan) (sequential : Engine) (pipeline : Pipeline) :
    Prop where
  decoding : Decoding spans pipeline
  matching : Matching sequential pipeline
  capacities : pipeline.capacities.Positive

theorem OnTheWay.ready {spans : List FilledSpan} {sequential : Engine}
    (hway : OnTheWay spans sequential pipeline) : pipeline.Ready where
  raw := hway.capacities.raw
  inbound := hway.capacities.inbound
  returns := hway.capacities.returns
  outbound := hway.capacities.outbound
  waiting := hway.matching.waiting

theorem OnTheWay.step {spans : List FilledSpan} {sequential : Engine}
    (hway : OnTheWay spans sequential pipeline) (move : Move) :
    OnTheWay spans sequential (pipeline.step move) := by
  obtain ⟨hdecoding, hmatching⟩ := step_invariant hway.decoding hway.matching move
  refine ⟨hdecoding, hmatching, ?_⟩
  rw [capacities_step]
  exact hway.capacities

/-- Everything which went in has come out, as if it had been done one after another. -/
structure Served (spans : List FilledSpan) (sequential : Engine) (pipeline : Pipeline) :
    Prop where
  drained : pipeline.Drained
  reports : pipeline.outbound.popped.map ExecutionReport.view =
    (sequential.runMessages (messagesOf spans)).outbound.map ExecutionReport.view
  buffers : pipeline.returns.popped = spans.map FilledSpan.bufId

theorem OnTheWay.served {spans : List FilledSpan} {sequential : Engine}
    (hway : OnTheWay spans sequential pipeline) (hdrained : pipeline.Drained) :
    Served spans sequential pipeline := by
  have harrived := hway.decoding.arrived
  have hfinish := hway.decoding.finish
  obtain ⟨done, hdone, hids, -⟩ := hway.decoding.returned
  rw [hdrained.incoming, List.append_nil] at harrived
  rw [BoundedFifo.popped_eq hdrained.raw, harrived] at hfinish hdone
  rw [hdrained.decoder, List.append_nil] at hdone
  have hpoint : pipeline.decodePoint.finish pipeline.decoder = pipeline.decoder := by
    have hhand := hdrained.decoder
    cases hcase : pipeline.decodePoint with
    | idle => rfl
    | popping left => rfl
    | decoding span ptr left => simp [hcase, DecodePoint.inHand] at hhand
    | pushing span msg ptr left => simp [hcase, DecodePoint.inHand] at hhand
    | returning span left => rfl
  have hmsgs : pipeline.inbound.popped = messagesOf spans := by
    rw [BoundedFifo.popped_eq hdrained.inbound, hway.decoding.pushed, ← hpoint, hfinish]
    rfl
  obtain ⟨dispatched, hdispatched, hviews, -⟩ := hway.matching.posted_eq
  rw [hdrained.batch, List.append_nil, hmsgs] at hdispatched
  rw [hdrained.posting, List.append_nil, ← hdispatched] at hviews
  refine ⟨hdrained, ?_, ?_⟩
  · rw [BoundedFifo.popped_eq hdrained.outbound, hviews]
  · rw [BoundedFifo.popped_eq hdrained.returns, hids, hdone]

/-- The lengths of the queues. -/
def lengths (pipeline : Pipeline) : ℕ × ℕ × ℕ × ℕ :=
  (pipeline.raw.items.length, pipeline.inbound.items.length, pipeline.returns.items.length,
    pipeline.outbound.items.length)

/-- A schedule in which each thread moves again and again.  When the queues no longer
change, all stores to their indices become visible. -/
structure KeepsMoving (pipeline : Pipeline) (schedule : ℕ → Move) : Prop where
  fair : Fair (fun move turn => move.turn = turn) schedule
  asks : ∀ n, (schedule n).Asks
  visible : ∀ n, (∀ m, n ≤ m → (stateAt step pipeline schedule m).lengths =
    (stateAt step pipeline schedule n).lengths) →
      ∃ m, n ≤ m ∧ ∀ k, m ≤ k → (schedule k).unseen = 0

theorem drained_step (hready : pipeline.Ready) (hdrained : pipeline.Drained) (move : Move) :
    (pipeline.step move).Drained := by
  rw [drained_iff] at hdrained ⊢
  have hle := work_step_le hready move
  rw [hdrained] at hle
  rcases hle.lt_or_eq with hless | heq
  · rw [Work.lt_iff] at hless
    simp at hless
  · exact heq

theorem OnTheWay.drains {spans : List FilledSpan} {sequential : Engine} {schedule : ℕ → Move}
    (hway : OnTheWay spans sequential pipeline) (hkeeps : pipeline.KeepsMoving schedule) :
    ∃ n, (stateAt Pipeline.step pipeline schedule n).Drained := by
  apply hkeeps.fair.reaches Drained work detour next (fun s a hs _ => OnTheWay.step hs a)
    (fun s a hs _ => work_step_le hs.ready a)
    (fun s a hs hasks hunseen hwork => detour_step_le hs.ready hasks hunseen hwork)
    (fun s a hs hasks hunseen hdrained hturn hwork =>
      turn_progress hs.ready hasks hunseen hdrained hturn hwork) hway hkeeps.asks
  intro n hsame
  have hlengths : ∀ m, n ≤ m → (stateAt Pipeline.step pipeline schedule m).lengths =
      (stateAt Pipeline.step pipeline schedule n).lengths := by
    intro m hm
    have hwork := hsame m hm
    unfold lengths
    rw [Prod.mk.injEq, Prod.mk.injEq, Prod.mk.injEq]
    exact ⟨congrArg Work.raw hwork, congrArg Work.inbound hwork, congrArg Work.returns hwork,
      congrArg Work.outbound hwork⟩
  exact hkeeps.visible n hlengths

end Pipeline

/-- From any state of any run: when each thread keeps moving, everything is served. -/
theorem run_drains (capacities : Pipeline.Capacities) (hcapacities : capacities.Positive)
    (capacity : ℕ) (clock clock' : ℕ → UInt64) (listings : List (InstrumentId × PriceGrid))
    (spans : List FilledSpan) (moves : List Pipeline.Move) (schedule : ℕ → Pipeline.Move)
    (hkeeps : Pipeline.KeepsMoving
      ((Pipeline.new capacities (Engine.listed capacity clock listings) spans).run moves)
      schedule) :
    ∃ n, ∀ m, n ≤ m → Pipeline.Served spans (Engine.listed capacity clock' listings)
      (stateAt Pipeline.step
        ((Pipeline.new capacities (Engine.listed capacity clock listings) spans).run moves)
        schedule m) := by
  rcases Pipeline.run_invariant (Decoding.new capacities _ spans)
    (Matching.new capacities spans) moves with ⟨hdecoding, hmatching⟩
  have hway : Pipeline.OnTheWay spans (Engine.listed capacity clock' listings)
      ((Pipeline.new capacities (Engine.listed capacity clock listings) spans).run moves) := by
    refine ⟨hdecoding, hmatching, ?_⟩
    rw [Pipeline.capacities_run]
    exact hcapacities
  have hall : ∀ m, Pipeline.OnTheWay spans (Engine.listed capacity clock' listings)
      (stateAt Pipeline.step
        ((Pipeline.new capacities (Engine.listed capacity clock listings) spans).run moves)
        schedule m) :=
    invariant (fun pipeline move hpipeline _ => hpipeline.step move) hway hkeeps.asks
  obtain ⟨n, hdrained⟩ := hway.drains hkeeps
  refine ⟨n, ?_⟩
  intro m hm
  apply (hall m).served
  induction m, hm using Nat.le_induction with
  | base => exact hdrained
  | succ m _ ih => exact Pipeline.drained_step (hall m).ready ih (schedule m)

/-- The threads move one after another, with the batches `poll` has by default. -/
def inTurn (n : ℕ) : Pipeline.Move :=
  match n % 7 with
  | 0 => .receive 0
  | 1 => .decoderPoll 64
  | 2 => .decoder 0
  | 3 => .enginePoll 0 64
  | 4 => .engine 0
  | 5 => .consume 0 1
  | _ => .reclaim 0 1

theorem inTurn_keepsMoving (pipeline : Pipeline) : pipeline.KeepsMoving inTurn where
  fair := by
    intro turn n
    have hslot : ∀ i, i < 7 → inTurn (7 * n + i) = inTurn i := by
      intro i hi
      unfold inTurn
      rw [Nat.mul_add_mod]
    cases turn with
    | receive => exact ⟨7 * n + 0, by omega, by rw [hslot 0 (by omega)]; rfl⟩
    | decoderPoll => exact ⟨7 * n + 1, by omega, by rw [hslot 1 (by omega)]; rfl⟩
    | decoder => exact ⟨7 * n + 2, by omega, by rw [hslot 2 (by omega)]; rfl⟩
    | enginePoll => exact ⟨7 * n + 3, by omega, by rw [hslot 3 (by omega)]; rfl⟩
    | engine => exact ⟨7 * n + 4, by omega, by rw [hslot 4 (by omega)]; rfl⟩
    | consume => exact ⟨7 * n + 5, by omega, by rw [hslot 5 (by omega)]; rfl⟩
    | reclaim => exact ⟨7 * n + 6, by omega, by rw [hslot 6 (by omega)]; rfl⟩
  asks := by
    intro n
    unfold inTurn
    split <;> decide
  visible := by
    intro n _
    refine ⟨n, le_rfl, ?_⟩
    intro k _
    unfold inTurn
    split <;> rfl

/-- After moves which miss the latest stores, with a single place in each queue. -/
theorem run_drains_inTurn :
    ∃ n, ∀ m, n ≤ m → Pipeline.Served sampleSpans (Engine.listed 4 (fun _ => 0) [(0, sampleGrid)])
      (stateAt Pipeline.step
        ((Pipeline.new ⟨1, 1, 1, 1⟩ (Engine.listed 4 (fun _ => 0) [(0, sampleGrid)])
          sampleSpans).run [.receive 0, .decoderPoll 64, .decoder 1, .enginePoll 1 64])
        inTurn m) :=
  run_drains ⟨1, 1, 1, 1⟩ ⟨by decide, by decide, by decide, by decide⟩ 4 (fun _ => 0)
    (fun _ => 0) [(0, sampleGrid)] sampleSpans _ inTurn (inTurn_keepsMoving _)

end NanoMatch
