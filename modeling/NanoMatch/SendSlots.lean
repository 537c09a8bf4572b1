import NanoMatch.UringSender

/-!
# Send slots and outstanding sends

A slot is in flight exactly while a send for it is outstanding, and it holds the
bytes of the report of that send.  There are as many slots as entries in the
submission queue, so a report which has found a free slot also finds a free entry.
-/

namespace NanoMatch

open Encoder

/-! ## Slots -/

/-- The sends occupy different slots, these are the ones in flight, and each holds
the encoding of its report. -/
structure SlotsHold (sends : List Send) (inFlight : ℕ → Bool) (bufs : ℕ → List UInt8) :
    Prop where
  nodup : (sends.map Send.slot).Nodup
  inFlight_iff : ∀ slot, inFlight slot = true ↔ slot ∈ sends.map Send.slot
  slot_lt : ∀ send ∈ sends, send.slot < UringSender.kNumSendBufs
  encoded : ∀ send ∈ sends, bufs send.slot = encodeExecReport send.report

namespace SlotsHold

variable {sends sends' : List Send} {inFlight : ℕ → Bool} {bufs : ℕ → List UInt8}

theorem nil (bufs : ℕ → List UInt8) : SlotsHold [] (fun _ => false) bufs where
  nodup := List.nodup_nil
  inFlight_iff := by simp
  slot_lt := by simp
  encoded := by simp

theorem perm (hslots : SlotsHold sends inFlight bufs) (hperm : sends'.Perm sends) :
    SlotsHold sends' inFlight bufs where
  nodup := (hperm.map Send.slot).nodup_iff.mpr hslots.nodup
  inFlight_iff slot := (hslots.inFlight_iff slot).trans (hperm.map Send.slot).mem_iff.symm
  slot_lt send hsend := hslots.slot_lt send (hperm.mem_iff.mp hsend)
  encoded send hsend := hslots.encoded send (hperm.mem_iff.mp hsend)

theorem reaped {send : Send} (hslots : SlotsHold (send :: sends) inFlight bufs) :
    SlotsHold sends (Function.update inFlight send.slot false) bufs where
  nodup := (List.nodup_cons.mp hslots.nodup).2
  inFlight_iff slot := by
    have hfresh := (List.nodup_cons.mp hslots.nodup).1
    by_cases heq : slot = send.slot
    · subst heq
      simp only [Function.update_self, Bool.false_eq_true, false_iff]
      exact hfresh
    · rw [Function.update_of_ne heq, hslots.inFlight_iff, List.map_cons, List.mem_cons]
      simp [heq]
  slot_lt other hother := hslots.slot_lt other (List.mem_cons_of_mem _ hother)
  encoded other hother := hslots.encoded other (List.mem_cons_of_mem _ hother)

theorem prepared (hslots : SlotsHold sends inFlight bufs) {slot : ℕ}
    (hlt : slot < UringSender.kNumSendBufs) (hfree : inFlight slot = false)
    (report : ExecutionReport) :
    SlotsHold (sends ++ [⟨slot, report⟩]) (Function.update inFlight slot true)
      (Function.update bufs slot (encodeExecReport report)) := by
  have hfresh : slot ∉ sends.map Send.slot := by
    rw [← hslots.inFlight_iff, hfree]
    exact Bool.false_ne_true
  have hne : ∀ send ∈ sends, send.slot ≠ slot := by
    intro send hsend heq
    exact hfresh (heq ▸ List.mem_map_of_mem hsend)
  constructor
  · rw [List.map_append, List.nodup_append]
    refine ⟨hslots.nodup, List.nodup_singleton _, ?_⟩
    intro a ha b hb heq
    rw [List.map_singleton, List.mem_singleton] at hb
    rw [heq, hb] at ha
    exact hfresh ha
  · intro other
    rw [List.map_append, List.mem_append, ← hslots.inFlight_iff]
    by_cases heq : other = slot
    · simp [heq]
    · simp [heq]
  · intro send hsend
    rcases List.mem_append.mp hsend with hold | hnew
    · exact hslots.slot_lt send hold
    · rw [List.mem_singleton.mp hnew]
      exact hlt
  · intro send hsend
    rcases List.mem_append.mp hsend with hold | hnew
    · rw [Function.update_of_ne (hne send hold)]
      exact hslots.encoded send hold
    · rw [List.mem_singleton.mp hnew, Function.update_self]

end SlotsHold

/-- The report which has been popped and for which no entry is prepared yet. -/
def SenderStage.inHand : SenderStage → List ExecutionReport
  | .holding report => [report]
  | .reaping report => [report]
  | .retrying report _ => [report]
  | _ => []

namespace UringSender

/-- The slots with `buf_in_flight_` set, and the others. -/
def slotsInFlight (sender : UringSender) : List ℕ :=
  (List.range kNumSendBufs).filter fun slot => sender.bufInFlight slot

def slotsFree (sender : UringSender) : List ℕ :=
  (List.range kNumSendBufs).filter fun slot => !sender.bufInFlight slot

variable {sender : UringSender}

theorem length_slotsInFlight {sends : List Send}
    (hslots : SlotsHold sends sender.bufInFlight sender.sendBufs) :
    sender.slotsInFlight.length = sends.length := by
  have hperm : sender.slotsInFlight.Perm (sends.map Send.slot) := by
    unfold slotsInFlight
    rw [List.perm_ext_iff_of_nodup (List.nodup_range.filter _) hslots.nodup]
    intro slot
    rw [List.mem_filter, List.mem_range, hslots.inFlight_iff,
      and_iff_right_iff_imp]
    intro hslot
    rcases List.mem_map.mp hslot with ⟨send, hsend, rfl⟩
    exact hslots.slot_lt send hsend
  rw [hperm.length_eq, List.length_map]

theorem length_slots (sender : UringSender) :
    sender.slotsInFlight.length + sender.slotsFree.length = kNumSendBufs := by
  have hlength := List.length_eq_length_filter_add
    (l := List.range kNumSendBufs) (fun slot => sender.bufInFlight slot)
  rw [List.length_range] at hlength
  exact hlength.symm

/-! ## The steps of the thread -/

/-- The slot is taken and holds the report. -/
def fillSlot (sender : UringSender) (report : ExecutionReport) (slot : ℕ) : UringSender :=
  { sender with
    bufInFlight := Function.update sender.bufInFlight slot true
    freeCount := sender.freeCount - 1
    sendBufs := Function.update sender.sendBufs slot (encodeExecReport report) }

/-- What the thread does in one step, with the branches left out which are never
taken. -/
inductive ThreadStep (sender : UringSender) : UringSender → Prop where
  | call (hstage : sender.stage = .idle) :
      ThreadStep sender { sender with submitted := 0, stage := .draining }
  | reap {send : Send} {result : SendResult} {rest : List (Send × SendResult)}
      (hstage : sender.stage = .draining ∨ ∃ report, sender.stage = .reaping report)
      (hcompleted : sender.ring.completed = (send, result) :: rest) :
      ThreadStep sender (sender.reap send result)
  | flush (hstage : sender.stage = .draining) (hcompleted : sender.ring.completed = []) :
      ThreadStep sender { sender.flushSqes with stage := .popping }
  | done (hstage : sender.stage = .popping) (hqueue : sender.outQueue = []) :
      ThreadStep sender { sender with stage := .idle }
  | pop {report : ExecutionReport} {rest : List ExecutionReport}
      (hstage : sender.stage = .popping) (hqueue : sender.outQueue = report :: rest) :
      ThreadStep sender
        { sender with
          outQueue := rest
          popped := sender.popped ++ [report]
          stage := .holding report }
  | wait {report : ExecutionReport} (hstage : sender.stage = .holding report)
      (hfull : sender.freeCount = 0) :
      ThreadStep sender { sender with stage := .reaping report }
  | test {report : ExecutionReport} (hstage : sender.stage = .reaping report)
      (hcompleted : sender.ring.completed = []) :
      ThreadStep sender { sender with stage := .holding report }
  | prepare {report : ExecutionReport} {slot : ℕ} (hstage : sender.stage = .holding report)
      (hfree : sender.freeCount ≠ 0) (hlt : slot < kNumSendBufs)
      (hslot : sender.bufInFlight slot = false) :
      ThreadStep sender ((sender.fillSlot report slot).prepSend report slot)

/-! ## The invariant -/

structure Accounted (sender : UringSender) : Prop where
  slots : SlotsHold sender.ring.outstanding sender.bufInFlight sender.sendBufs
  free : sender.freeCount + sender.ring.outstanding.length = kNumSendBufs
  pending : sender.ring.prepared.length = sender.pendingSqes
  reachable : sender.stage ≠ .unreachable
  entries : ∀ report slot, sender.stage ≠ .retrying report slot
  popped : sender.popped = sender.sends.map Send.report ++ sender.stage.inHand
  sends : (sender.recycled.map Recycled.send ++ sender.ring.outstanding).Perm sender.sends

theorem drainCompletions_cases (sender : UringSender) (next : UringSender → UringSender) :
    sender.ring.completed = [] ∧ sender.drainCompletions next = next sender ∨
      ∃ send result rest, sender.ring.completed = (send, result) :: rest ∧
        sender.drainCompletions next = sender.reap send result := by
  unfold drainCompletions
  cases hcompleted : sender.ring.completed with
  | nil => exact Or.inl ⟨rfl, rfl⟩
  | cons first rest => exact Or.inr ⟨first.1, first.2, rest, rfl, rfl⟩

@[simp] theorem stage_flushSqes (sender : UringSender) :
    sender.flushSqes.stage = sender.stage := by
  unfold flushSqes
  split_ifs <;> rfl

theorem popReport_cases (sender : UringSender) :
    sender.outQueue = [] ∧ sender.popReport = { sender with stage := .idle } ∨
      ∃ report rest, sender.outQueue = report :: rest ∧
        sender.popReport =
          { sender with
            outQueue := rest
            popped := sender.popped ++ [report]
            stage := .holding report } := by
  rcases sender with ⟨_, _, _, _, _, outQueue⟩
  cases outQueue with
  | nil => exact Or.inl ⟨rfl, rfl⟩
  | cons report rest => exact Or.inr ⟨report, rest, rfl, rfl⟩

/-- With a free slot, `alloc_send_buf` returns one. -/
theorem allocSendBuf_eq (hfree : sender.slotsFree ≠ []) :
    ∃ slot, slot < kNumSendBufs ∧ sender.bufInFlight slot = false ∧
      sender.allocSendBuf = some (slot,
        { sender with
          bufInFlight := Function.update sender.bufInFlight slot true
          freeCount := sender.freeCount - 1 }) := by
  unfold allocSendBuf
  cases hfind : (List.range kNumSendBufs).find? fun i => !sender.bufInFlight i with
  | none =>
      exfalso
      apply hfree
      rw [slotsFree, List.filter_eq_nil_iff]
      exact List.find?_eq_none.mp hfind
  | some slot =>
      have hmem := List.mem_range.mp (List.mem_of_find?_eq_some hfind)
      have hslot := List.find?_some hfind
      rw [Bool.not_eq_true'] at hslot
      exact ⟨slot, hmem, hslot, rfl⟩

namespace Accounted

theorem length_slotsFree (hsender : Accounted sender) :
    sender.slotsFree.length = sender.freeCount := by
  have hinFlight := length_slotsInFlight hsender.slots
  have htotal := sender.length_slots
  have hfree := hsender.free
  omega

/-- A free slot leaves an entry of the submission queue free. -/
theorem serialise_eq (hsender : Accounted sender) (report : ExecutionReport)
    (hfree : sender.freeCount ≠ 0) :
    ∃ slot, slot < kNumSendBufs ∧ sender.bufInFlight slot = false ∧
      sender.serialise report = (sender.fillSlot report slot).prepSend report slot := by
  have hslots : sender.slotsFree ≠ [] := by
    intro hnil
    rw [← hsender.length_slotsFree, hnil] at hfree
    exact hfree rfl
  rcases allocSendBuf_eq hslots with ⟨slot, hlt, hslot, halloc⟩
  have hsqe : sender.ring.unconsumed < kRingDepth := by
    have hunconsumed := sender.ring.unconsumed_le
    have htotal := hsender.free
    unfold kNumSendBufs at htotal
    unfold kRingDepth
    omega
  refine ⟨slot, hlt, hslot, ?_⟩
  unfold serialise
  rw [halloc]
  change (if decide (sender.ring.unconsumed < kRingDepth) = true then _ else _) = _
  rw [if_pos (decide_eq_true hsqe)]
  rfl

theorem threadStep (hsender : Accounted sender) : ThreadStep sender sender.threadStep := by
  unfold UringSender.threadStep
  cases hstage : sender.stage with
  | idle => exact ThreadStep.call hstage
  | draining =>
      rcases sender.drainCompletions_cases
        (fun sender => { sender.flushSqes with stage := .popping }) with
        ⟨hcompleted, hdrain⟩ | ⟨send, result, rest, hcompleted, hdrain⟩
      · simp only [hdrain]
        exact ThreadStep.flush hstage hcompleted
      · simp only [hdrain]
        exact ThreadStep.reap (Or.inl hstage) hcompleted
  | popping =>
      rcases sender.popReport_cases with ⟨hqueue, hpop⟩ | ⟨report, rest, hqueue, hpop⟩
      · simp only [hpop]
        exact ThreadStep.done hstage hqueue
      · simp only [hpop]
        exact ThreadStep.pop hstage hqueue
  | holding report =>
      simp only
      split_ifs with hfull
      · exact ThreadStep.wait hstage hfull
      · rcases hsender.serialise_eq report hfull with ⟨slot, hlt, hslot, heq⟩
        rw [heq]
        exact ThreadStep.prepare hstage hfull hlt hslot
  | reaping report =>
      rcases sender.drainCompletions_cases
        (fun sender => { sender with stage := .holding report }) with
        ⟨hcompleted, hdrain⟩ | ⟨send, result, rest, hcompleted, hdrain⟩
      · simp only [hdrain]
        exact ThreadStep.test hstage hcompleted
      · simp only [hdrain]
        exact ThreadStep.reap (Or.inr ⟨report, hstage⟩) hcompleted
  | retrying report slot => exact absurd hstage (hsender.entries report slot)
  | unreachable => exact absurd hstage hsender.reachable

/-- A step which touches neither the slots nor the ring. -/
theorem goto (hsender : Accounted sender) (outQueue : List ExecutionReport) (submitted : ℕ)
    {popped : List ExecutionReport} {stage : SenderStage} (hreachable : stage ≠ .unreachable)
    (hentries : ∀ report slot, stage ≠ .retrying report slot)
    (hpopped : popped = sender.sends.map Send.report ++ stage.inHand) :
    Accounted
      { sender with
        outQueue := outQueue
        submitted := submitted
        popped := popped
        stage := stage } :=
  ⟨hsender.slots, hsender.free, hsender.pending, hreachable, hentries, hpopped, hsender.sends⟩

theorem flushSqes (hsender : Accounted sender) : Accounted sender.flushSqes := by
  unfold UringSender.flushSqes
  split_ifs with hpending
  · constructor
    · simpa using hsender.slots
    · simpa using hsender.free
    · rfl
    · exact hsender.reachable
    · exact hsender.entries
    · exact hsender.popped
    · simpa using hsender.sends
  · exact hsender

theorem reap (hsender : Accounted sender) {send : Send} {result : SendResult}
    {rest : List (Send × SendResult)}
    (hcompleted : sender.ring.completed = (send, result) :: rest) :
    Accounted (sender.reap send result) := by
  have houtstanding := SubmissionRing.outstanding_eq_cons hcompleted
  have hslots := hsender.slots
  have hfree := hsender.free
  rw [houtstanding] at hslots hfree
  rw [List.length_cons] at hfree
  constructor
  · exact hslots.reaped
  · change sender.freeCount + 1 + sender.ring.seen.outstanding.length = kNumSendBufs
    omega
  · exact hsender.pending
  · exact hsender.reachable
  · exact hsender.entries
  · exact hsender.popped
  · change ((sender.recycled ++ [_]).map Recycled.send ++ sender.ring.seen.outstanding).Perm
      sender.sends
    have hsends := hsender.sends
    rw [houtstanding] at hsends
    simpa using hsends

theorem prepare (hsender : Accounted sender) {report : ExecutionReport} {slot : ℕ}
    (hstage : sender.stage = .holding report) (hfree : sender.freeCount ≠ 0)
    (hlt : slot < kNumSendBufs) (hslot : sender.bufInFlight slot = false) :
    Accounted ((sender.fillSlot report slot).prepSend report slot) := by
  have hpopped := hsender.popped
  have htotal := hsender.free
  constructor
  · change SlotsHold (sender.ring.prepare ⟨slot, report⟩).outstanding _ _
    rw [SubmissionRing.outstanding_prepare]
    exact hsender.slots.prepared hlt hslot report
  · change sender.freeCount - 1 + (sender.ring.prepare ⟨slot, report⟩).outstanding.length = _
    rw [SubmissionRing.outstanding_prepare, List.length_append, List.length_singleton]
    omega
  · change (sender.ring.prepared ++ [_]).length = sender.pendingSqes + 1
    rw [List.length_append, List.length_singleton, hsender.pending]
  · nofun
  · nofun
  · rw [hstage] at hpopped
    simp [prepSend, fillSlot, SenderStage.inHand, hpopped]
  · change (sender.recycled.map Recycled.send ++
      (sender.ring.prepare ⟨slot, report⟩).outstanding).Perm (sender.sends ++ [_])
    rw [SubmissionRing.outstanding_prepare, ← List.append_assoc]
    exact hsender.sends.append_right _

theorem thread (hsender : Accounted sender) {sender' : UringSender}
    (hstep : ThreadStep sender sender') : Accounted sender' := by
  have hpopped := hsender.popped
  cases hstep with
  | call hstage =>
      rw [hstage] at hpopped
      exact hsender.goto sender.outQueue 0 nofun nofun hpopped
  | reap hstage hcompleted => exact hsender.reap hcompleted
  | flush hstage hcompleted =>
      have hflushed := hsender.flushSqes.popped
      rw [sender.stage_flushSqes, hstage] at hflushed
      exact hsender.flushSqes.goto _ _ nofun nofun hflushed
  | done hstage hqueue =>
      rw [hstage] at hpopped
      exact hsender.goto sender.outQueue _ nofun nofun hpopped
  | @pop report rest hstage hqueue =>
      rw [hstage] at hpopped
      refine hsender.goto rest _ nofun nofun ?_
      rw [hpopped]
      simp [SenderStage.inHand]
  | wait hstage hfull =>
      rw [hstage] at hpopped
      exact hsender.goto sender.outQueue _ nofun nofun hpopped
  | test hstage hcompleted =>
      rw [hstage] at hpopped
      exact hsender.goto sender.outQueue _ nofun nofun hpopped
  | prepare hstage hfree hlt hslot => exact hsender.prepare hstage hfree hlt hslot

theorem consume (hsender : Accounted sender) :
    Accounted { sender with ring := sender.ring.consume } where
  slots := by simpa using hsender.slots
  free := by simpa using hsender.free
  pending := by simpa using hsender.pending
  reachable := hsender.reachable
  entries := hsender.entries
  popped := hsender.popped
  sends := by simpa using hsender.sends

theorem completeSend (hsender : Accounted sender) (position : ℕ) (res : ℤ) :
    Accounted (sender.completeSend position res) := by
  have hperm := sender.ring.outstanding_complete_perm position
    fun send => (⟨res, sender.transmitted res send⟩ : SendResult)
  constructor
  · exact hsender.slots.perm hperm
  · unfold UringSender.completeSend
    rw [hperm.length_eq]
    exact hsender.free
  · unfold UringSender.completeSend
    rw [SubmissionRing.prepared_complete]
    exact hsender.pending
  · exact hsender.reachable
  · exact hsender.entries
  · exact hsender.popped
  · exact (hperm.append_left _).trans hsender.sends

theorem step (hsender : Accounted sender) (move : Move) : Accounted (sender.step move) := by
  cases move with
  | thread => exact hsender.thread hsender.threadStep
  | arrive report => exact hsender.goto _ _ hsender.reachable hsender.entries hsender.popped
  | consume => exact hsender.consume
  | complete position res => exact hsender.completeSend position res

theorem run (hsender : Accounted sender) (moves : List Move) : Accounted (sender.run moves) := by
  induction moves generalizing sender with
  | nil => exact hsender
  | cons move moves ih => exact ih (hsender.step move)

end Accounted

theorem accounted_new : Accounted new where
  slots := SlotsHold.nil _
  free := rfl
  pending := rfl
  reachable := nofun
  entries := nofun
  popped := rfl
  sends := List.Perm.refl _

theorem accounted_run (moves : List Move) : Accounted (new.run moves) := accounted_new.run moves

/-- The counter of free slots, the slots in flight and the outstanding sends agree,
the slots hold the reports of their sends, and each report gets its own send. -/
structure SlotAccounting (sender : UringSender) : Prop where
  freeCount_eq : sender.freeCount = sender.slotsFree.length
  slots_nodup : (sender.ring.outstanding.map Send.slot).Nodup
  slots_mem : ∀ slot, slot ∈ sender.ring.outstanding.map Send.slot ↔ slot ∈ sender.slotsInFlight
  encoded : ∀ send ∈ sender.ring.outstanding,
    sender.sendBufs send.slot = encodeExecReport send.report
  allocates : sender.stage ≠ .unreachable
  never_gives_up : ∀ report slot, sender.stage ≠ .retrying report slot
  one_send_each : sender.popped = sender.sends.map Send.report ++ sender.stage.inHand
  sends_perm : (sender.recycled.map Recycled.send ++ sender.ring.outstanding).Perm sender.sends

/-- The slots are accounted for in every state of every run. -/
theorem run_slotAccounting (moves : List Move) : SlotAccounting (new.run moves) := by
  have hsender := accounted_run moves
  refine ⟨hsender.length_slotsFree.symm, hsender.slots.nodup, ?_, hsender.slots.encoded,
    hsender.reachable, hsender.entries, hsender.popped, hsender.sends⟩
  intro slot
  rw [slotsInFlight, List.mem_filter, List.mem_range, hsender.slots.inFlight_iff,
    iff_and_self]
  intro hslot
  rcases List.mem_map.mp hslot with ⟨send, hsend, rfl⟩
  exact hsender.slots.slot_lt send hsend

end UringSender

end NanoMatch
