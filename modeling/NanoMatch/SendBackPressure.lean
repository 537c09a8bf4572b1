import NanoMatch.SendSlots

/-!
# Back pressure

When no slot is free, `poll` reaps completions until one is.  It submits nothing
in this loop, so at least one of the slots in flight has to have been submitted
before.  The entries of one call are submitted at the start of the next call only:
a call which prepares an entry in every slot and then pops a report waits for
sends the kernel has not been told of.
-/

namespace NanoMatch

/-- In the back-pressure loop or at its test. -/
def SenderStage.waits : SenderStage → Bool
  | .holding _ => true
  | .reaping _ => true
  | _ => false

namespace UringSender

/-- With no free slot in the back-pressure loop, some slot in flight has been
submitted, and the loop can come to an end. -/
def Served (sender : UringSender) : Prop :=
  sender.stage.waits = true → sender.freeCount = 0 →
    sender.pendingSqes < sender.slotsInFlight.length ∧
      ∃ moves, (sender.run moves).freeCount ≠ 0

/-- A report is only popped while one of the slots is free or submitted. -/
def PopsInTime (sender : UringSender) : Prop :=
  sender.stage = .popping → sender.outQueue ≠ [] → sender.pendingSqes < kNumSendBufs

variable {sender : UringSender}

/-! ## The loop ends -/

theorem drainCompletions_nil (next : UringSender → UringSender)
    (hcompleted : sender.ring.completed = []) :
    sender.drainCompletions next = next sender := by
  unfold drainCompletions
  rw [hcompleted]

theorem drainCompletions_cons (next : UringSender → UringSender) {send : Send}
    {result : SendResult} {rest : List (Send × SendResult)}
    (hcompleted : sender.ring.completed = (send, result) :: rest) :
    sender.drainCompletions next = sender.reap send result := by
  unfold drainCompletions
  rw [hcompleted]

theorem threadStep_reaping {report : ExecutionReport} (hstage : sender.stage = .reaping report) :
    sender.threadStep =
      sender.drainCompletions fun sender => { sender with stage := .holding report } := by
  unfold threadStep
  rw [hstage]

theorem threadStep_waits {report : ExecutionReport} (hstage : sender.stage = .holding report)
    (hfull : sender.freeCount = 0) :
    sender.threadStep = { sender with stage := .reaping report } := by
  unfold threadStep
  rw [hstage]
  simp only [hfull, if_true]

theorem threadStep_serialise {report : ExecutionReport} (hstage : sender.stage = .holding report)
    (hfree : sender.freeCount ≠ 0) : sender.threadStep = sender.serialise report := by
  unfold threadStep
  rw [hstage]
  simp only [hfree, if_false]

theorem freed_of_reaping {report : ExecutionReport} (hstage : sender.stage = .reaping report)
    (hcompleted : sender.ring.completed ≠ []) : sender.threadStep.freeCount ≠ 0 := by
  rcases List.exists_cons_of_ne_nil hcompleted with ⟨⟨send, result⟩, rest, hcons⟩
  rw [threadStep_reaping hstage, drainCompletions_cons _ hcons]
  exact Nat.succ_ne_zero _

/-- A posted completion frees a slot. -/
theorem freed_of_completed (hwaits : sender.stage.waits = true)
    (hcompleted : sender.ring.completed ≠ []) :
    ∃ moves, (sender.run moves).freeCount ≠ 0 := by
  by_cases hfull : sender.freeCount = 0
  · cases hstage : sender.stage with
    | reaping report => exact ⟨[.thread], freed_of_reaping hstage hcompleted⟩
    | holding report =>
        refine ⟨[.thread, .thread], ?_⟩
        change sender.threadStep.threadStep.freeCount ≠ 0
        rw [threadStep_waits hstage hfull]
        exact freed_of_reaping rfl hcompleted
    | _ => simp [SenderStage.waits, hstage] at hwaits
  · exact ⟨[], hfull⟩

/-- A running send can complete. -/
theorem freed_of_running (hwaits : sender.stage.waits = true)
    (hrunning : sender.ring.running ≠ []) :
    ∃ moves, (sender.run moves).freeCount ≠ 0 := by
  have hcompleted : (sender.step (.complete 0 0)).ring.completed ≠ [] := by
    rcases List.exists_cons_of_ne_nil hrunning with ⟨send, rest, hcons⟩
    simp [step, completeSend, SubmissionRing.complete, hcons]
  have hwaits' : (sender.step (.complete 0 0)).stage.waits = true := hwaits
  rcases freed_of_completed hwaits' hcompleted with ⟨moves, hmoves⟩
  exact ⟨.complete 0 0 :: moves, hmoves⟩

/-- A submitted send can run. -/
theorem freed_of_submitted (hwaits : sender.stage.waits = true)
    (hsubmitted : sender.ring.submitted ≠ []) :
    ∃ moves, (sender.run moves).freeCount ≠ 0 := by
  have hrunning : (sender.step .consume).ring.running ≠ [] := by
    rcases List.exists_cons_of_ne_nil hsubmitted with ⟨send, rest, hcons⟩
    simp [step, SubmissionRing.consume, hcons]
  have hwaits' : (sender.step .consume).stage.waits = true := hwaits
  rcases freed_of_running hwaits' hrunning with ⟨moves, hmoves⟩
  exact ⟨.consume :: moves, hmoves⟩

namespace Accounted

theorem slotsInFlight_eq (hsender : Accounted sender) (hfull : sender.freeCount = 0) :
    sender.slotsInFlight.length = kNumSendBufs := by
  have htotal := sender.length_slots
  have hfree := hsender.length_slotsFree
  omega

theorem pendingSqes_le (hsender : Accounted sender) :
    sender.pendingSqes + sender.freeCount ≤ kNumSendBufs := by
  have hunconsumed := sender.ring.unconsumed_le
  have hfree := hsender.free
  have hpending := hsender.pending
  unfold SubmissionRing.unconsumed at hunconsumed
  omega

/-- With fewer pending entries than slots, the loop is served. -/
theorem served (hsender : Accounted sender)
    (hpending : sender.stage.waits = true → sender.pendingSqes < kNumSendBufs) :
    Served sender := by
  intro hwaits hfull
  have hfewer := hpending hwaits
  refine ⟨(hsender.slotsInFlight_eq hfull).symm ▸ hfewer, ?_⟩
  by_cases hcompleted : sender.ring.completed = []
  · by_cases hrunning : sender.ring.running = []
    · by_cases hsubmitted : sender.ring.submitted = []
      · exfalso
        have hfree := hsender.free
        rw [SubmissionRing.outstanding, hcompleted, hrunning, hsubmitted] at hfree
        simp only [List.map_nil, List.nil_append, hsender.pending] at hfree
        omega
      · exact freed_of_submitted hwaits hsubmitted
    · exact freed_of_running hwaits hrunning
  · exact freed_of_completed hwaits hcompleted

end Accounted

/-! ## Runs -/

/-- The number of pending entries in the loop is the one at the pop. -/
theorem ThreadStep.waits_pending {sender' : UringSender} (hstep : ThreadStep sender sender')
    (hpending : sender.stage.waits = true → sender.pendingSqes < kNumSendBufs)
    (hpops : PopsInTime sender) :
    sender'.stage.waits = true → sender'.pendingSqes < kNumSendBufs := by
  cases hstep with
  | call hstage => nofun
  | flush hstage hcompleted => nofun
  | done hstage hqueue => nofun
  | prepare hstage hfree hlt hslot => nofun
  | reap hstage hcompleted => exact hpending
  | pop hstage hqueue =>
      intro _
      exact hpops hstage (by simp [hqueue])
  | wait hstage hfull =>
      intro _
      exact hpending (by simp [hstage, SenderStage.waits])
  | test hstage hcompleted =>
      intro _
      exact hpending (by simp [hstage, SenderStage.waits])

theorem Accounted.waits_pending (hsender : Accounted sender)
    (hpending : sender.stage.waits = true → sender.pendingSqes < kNumSendBufs) (move : Move)
    (hpops : move = .thread → PopsInTime sender) :
    (sender.step move).stage.waits = true →
      (sender.step move).pendingSqes < kNumSendBufs := by
  cases move with
  | arrive report => exact hpending
  | consume => exact hpending
  | complete position res => exact hpending
  | thread => exact hsender.threadStep.waits_pending hpending (hpops rfl)

/-- Popping a report. -/
theorem threadStep_pop (hstage : sender.stage = .popping) {report : ExecutionReport}
    {rest : List ExecutionReport} (hqueue : sender.outQueue = report :: rest) :
    sender.threadStep =
      { sender with
        outQueue := rest
        popped := sender.popped ++ [report]
        stage := .holding report } := by
  unfold threadStep
  rw [hstage]
  rcases sender.popReport_cases with ⟨hnil, _⟩ | ⟨first, others, hcons, hpop⟩
  · rw [hqueue] at hnil
    exact absurd hnil (List.cons_ne_nil _ _)
  · rw [hqueue, List.cons.injEq] at hcons
    rw [hcons.1, hcons.2]
    exact hpop

/-- A pop with no slot free or submitted starts a loop which is not served. -/
theorem Accounted.not_served (hsender : Accounted sender) (hstage : sender.stage = .popping)
    (hqueue : sender.outQueue ≠ []) (hpending : kNumSendBufs ≤ sender.pendingSqes) :
    ¬ Served sender.threadStep := by
  rcases List.exists_cons_of_ne_nil hqueue with ⟨report, rest, hcons⟩
  have hle := hsender.pendingSqes_le
  have hfull : sender.freeCount = 0 := by omega
  have hinFlight := hsender.slotsInFlight_eq hfull
  rw [threadStep_pop hstage hcons]
  intro hserved
  have hfewer : sender.pendingSqes < sender.slotsInFlight.length := (hserved rfl hfull).1
  omega

/-- The back-pressure loop is served in every state of a run exactly when no call
of the run pops a report while every slot holds an unsubmitted entry. -/
theorem run_served_iff (moves : List Move) :
    (∀ before after, moves = before ++ after → Served (new.run before)) ↔
      ∀ before after, moves = before ++ .thread :: after → PopsInTime (new.run before) := by
  constructor
  · intro hserved before after hsplit hstage hqueue
    by_contra hpending
    have hstep : new.run (before ++ [.thread]) = (new.run before).threadStep := by
      rw [run_append]
      rfl
    apply (accounted_run before).not_served hstage hqueue (not_lt.mp hpending)
    rw [← hstep]
    exact hserved (before ++ [.thread]) after (by simp [hsplit])
  · intro hpops before
    have hinvariant : ∀ after, moves = before ++ after →
        (new.run before).stage.waits = true → (new.run before).pendingSqes < kNumSendBufs := by
      induction before using List.reverseRecOn with
      | nil => nofun
      | append_singleton before move ih =>
          intro after hsplit
          rw [List.append_assoc, List.singleton_append] at hsplit
          rw [run_append]
          apply (accounted_run before).waits_pending (ih _ hsplit) move
          intro hthread
          rw [hthread] at hsplit
          exact hpops before after hsplit
    intro after hsplit
    exact (accounted_run before).served (hinvariant after hsplit)

/-! ## A call which waits for itself -/

/-- A report takes a slot and leaves its entry unsubmitted. -/
theorem Accounted.fill_slot (hsender : Accounted sender) (hstage : sender.stage = .popping)
    (hfree : sender.freeCount ≠ 0) {report : ExecutionReport} {rest : List ExecutionReport}
    (hqueue : sender.outQueue = report :: rest) :
    (sender.run [.thread, .thread]).stage = .popping ∧
      (sender.run [.thread, .thread]).pendingSqes = sender.pendingSqes + 1 ∧
      (sender.run [.thread, .thread]).freeCount = sender.freeCount - 1 ∧
      (sender.run [.thread, .thread]).outQueue = rest := by
  have hholding := hsender.step .thread
  change Accounted sender.threadStep at hholding
  change sender.threadStep.threadStep.stage = _ ∧ sender.threadStep.threadStep.pendingSqes = _ ∧
    sender.threadStep.threadStep.freeCount = _ ∧ sender.threadStep.threadStep.outQueue = _
  have hpopped := threadStep_pop hstage hqueue
  generalize sender.threadStep = popped at hholding hpopped ⊢
  have hfree' : popped.freeCount ≠ 0 := by
    rw [hpopped]
    exact hfree
  rcases hholding.serialise_eq report hfree' with ⟨slot, _, _, hserialise⟩
  rw [threadStep_serialise (by rw [hpopped]) hfree', hserialise, hpopped]
  exact ⟨rfl, rfl, rfl, rfl⟩

/-- The steps in which the thread handles `count` reports. -/
def handling (count : ℕ) : List Move := List.replicate (2 * count) .thread

theorem handling_succ (count : ℕ) :
    handling (count + 1) = [.thread, .thread] ++ handling count := by
  unfold handling
  rw [Nat.mul_succ, Nat.add_comm, List.replicate_add]
  rfl

theorem Accounted.fill_slots (hsender : Accounted sender) (hstage : sender.stage = .popping)
    (count : ℕ) (hfree : count ≤ sender.freeCount) (hqueue : count ≤ sender.outQueue.length) :
    (sender.run (handling count)).stage = .popping ∧
      (sender.run (handling count)).pendingSqes = sender.pendingSqes + count ∧
      (sender.run (handling count)).outQueue = sender.outQueue.drop count := by
  induction count generalizing sender with
  | zero => exact ⟨hstage, rfl, rfl⟩
  | succ count ih =>
      cases hcons : sender.outQueue with
      | nil => simp [hcons] at hqueue
      | cons report rest =>
          rw [hcons, List.length_cons] at hqueue
          rcases hsender.fill_slot hstage (by omega) hcons with
            ⟨hstage', hpending, hfree', hqueue'⟩
          rcases ih (hsender.run [.thread, .thread]) hstage' (by omega)
            (by rw [hqueue']; omega) with ⟨hpopping, hfilled, hrest⟩
          rw [handling_succ, run_append]
          refine ⟨hpopping, by omega, ?_⟩
          rw [hrest, hqueue', List.drop_succ_cons]

/-- The loop waits for entries which were never submitted, whatever the kernel does. -/
structure Starved (sender : UringSender) : Prop where
  waits : sender.stage.waits = true
  submitted : sender.ring.submitted = []
  running : sender.ring.running = []
  completed : sender.ring.completed = []
  freeCount : sender.freeCount = 0

theorem Starved.step (hstarved : Starved sender) (move : Move) : Starved (sender.step move) := by
  cases move with
  | arrive report =>
      exact ⟨hstarved.waits, hstarved.submitted, hstarved.running, hstarved.completed,
        hstarved.freeCount⟩
  | consume =>
      have hring : sender.ring.consume = sender.ring := by
        unfold SubmissionRing.consume
        rw [hstarved.submitted]
      change Starved { sender with ring := sender.ring.consume }
      rw [hring]
      exact hstarved
  | complete position res =>
      have hcomplete : sender.step (.complete position res) = sender := by
        simp [UringSender.step, completeSend, SubmissionRing.complete, hstarved.running]
      rw [hcomplete]
      exact hstarved
  | thread =>
      change Starved sender.threadStep
      have hwaits := hstarved.waits
      cases hstage : sender.stage with
      | holding report =>
          rw [threadStep_waits hstage hstarved.freeCount]
          exact ⟨rfl, hstarved.submitted, hstarved.running, hstarved.completed,
            hstarved.freeCount⟩
      | reaping report =>
          rw [threadStep_reaping hstage, drainCompletions_nil _ hstarved.completed]
          exact ⟨rfl, hstarved.submitted, hstarved.running, hstarved.completed,
            hstarved.freeCount⟩
      | _ => simp [SenderStage.waits, hstage] at hwaits

theorem Starved.run (hstarved : Starved sender) (moves : List Move) :
    Starved (sender.run moves) := by
  induction moves generalizing sender with
  | nil => exact hstarved
  | cons move moves ih => exact ih (hstarved.step move)

theorem Accounted.starved (hsender : Accounted sender) (hwaits : sender.stage.waits = true)
    (hpending : sender.pendingSqes = kNumSendBufs) : Starved sender := by
  have hle := hsender.pendingSqes_le
  have hfree := hsender.free
  rw [SubmissionRing.outstanding] at hfree
  simp only [List.length_append, List.length_map, hsender.pending] at hfree
  refine ⟨hwaits, ?_, ?_, ?_, by omega⟩ <;>
    rw [← List.length_eq_zero_iff] <;> omega

theorem run_arrivals (count : ℕ) (report : ExecutionReport) (sender : UringSender) :
    sender.run (List.replicate count (.arrive report)) =
      { sender with outQueue := sender.outQueue ++ List.replicate count report } := by
  induction count generalizing sender with
  | zero => simp [run]
  | succ count ih =>
      rw [List.replicate_succ, run_cons, ih]
      simp [step, List.replicate_succ]

/-- One call of `poll` which finds `count + 1` reports and pops the last of them after
it has handled the others; the kernel does nothing. -/
def burst (count : ℕ) : List Move :=
  List.replicate (count + 1) (.arrive sampleReport) ++ [.thread, .thread] ++ handling count ++
    [.thread]

theorem burst_fills (count : ℕ) (hcount : count ≤ kNumSendBufs) :
    ∃ sender, Accounted sender ∧ sender.stage = .popping ∧ sender.pendingSqes = count ∧
      sender.outQueue = [sampleReport] ∧ new.run (burst count) = sender.threadStep := by
  have hcall : new.run (List.replicate (count + 1) (.arrive sampleReport) ++ [.thread, .thread]) =
      { new with outQueue := List.replicate (count + 1) sampleReport, stage := .popping } := by
    rw [run_append, run_arrivals]
    rfl
  have hcalled := accounted_run
    (List.replicate (count + 1) (.arrive sampleReport) ++ [.thread, .thread])
  rw [hcall] at hcalled
  have hfilled := hcalled.fill_slots rfl count hcount (by simp)
  refine ⟨_, hcalled.run (handling count), hfilled.1, ?_, ?_, ?_⟩
  · rw [hfilled.2.1]
    exact Nat.zero_add count
  · rw [hfilled.2.2]
    simp
  · unfold burst
    rw [run_append, run_append, hcall]
    rfl

/-- A burst of 257 reports within one call: the sender waits for entries which it has
not submitted, and goes on waiting whatever happens. -/
theorem burst_starves :
    ¬ Served (new.run (burst 256)) ∧
      ∀ moves, (new.run (burst 256 ++ moves)).stage.waits = true ∧
        (new.run (burst 256 ++ moves)).freeCount = 0 := by
  rcases burst_fills 256 le_rfl with ⟨sender, hsender, hstage, hpending, hqueue, hrun⟩
  have hpopped := threadStep_pop hstage hqueue
  constructor
  · rw [hrun]
    apply hsender.not_served hstage _ hpending.ge
    rw [hqueue]
    exact List.cons_ne_nil _ _
  · intro moves
    have hstarved : Starved sender.threadStep := by
      apply (hsender.step .thread).starved
      · change sender.threadStep.stage.waits = true
        rw [hpopped]
        rfl
      · change sender.threadStep.pendingSqes = kNumSendBufs
        rw [hpopped]
        exact hpending
    rw [run_append, hrun]
    exact ⟨(hstarved.run moves).waits, (hstarved.run moves).freeCount⟩

end UringSender

end NanoMatch
