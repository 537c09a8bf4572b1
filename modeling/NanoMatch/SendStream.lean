import NanoMatch.SendSlots

/-!
# The outbound byte stream

The kernel runs the sends in the order of their submission, and the result of a
send says how many of its bytes went out.  `drain_completions` only looks at the
sign of the result.  A send which is cut short is recycled like a whole one and
not counted, and the reports after it follow where it stopped.  Without such sends
the stream is a sequence of whole reports.
-/

namespace NanoMatch

open Encoder

namespace UringSender

/-- The kernel completes sends in order, with a result of at most 48. -/
def Move.inOrder : Move → Bool
  | .complete position res => position == 0 && decide (res ≤ 48)
  | _ => true

/-- A completed send has transmitted nothing or everything. -/
def Move.whole : Move → Bool
  | .complete _ res => decide (res < 0 ∨ res = 48)
  | _ => true

/-- Every send with a posted completion, reaped or not. -/
def completions (sender : UringSender) : List (Send × SendResult) :=
  sender.recycled.map (fun r => (r.send, r.result)) ++ sender.ring.completed

/-- The reports of the sends which have transmitted something. -/
def completedReports (sender : UringSender) : List ExecutionReport :=
  (sender.completions.filter fun c => decide (0 ≤ c.2.res)).map fun c => c.1.report

def recycledReports (sender : UringSender) : List ExecutionReport :=
  sender.recycled.map fun r => r.send.report

/-- The completed reports whose slots have not been recycled yet. -/
def unreapedReports (sender : UringSender) : List ExecutionReport :=
  (sender.ring.completed.filter fun c => decide (0 ≤ c.2.res)).map fun c => c.1.report

/-- A recycled slot was transmitted in full or is counted as an error, and the bytes on the
wire are those of the completed reports.  Without errors every recycled report is one of
them. -/
structure Framed (sender : UringSender) : Prop where
  accounted : ∀ r ∈ sender.recycled,
    r.result.sent = encodeExecReport r.send.report ∨ r.counted = true
  errors_eq : sender.errors = (sender.recycled.filter Recycled.counted).length
  pop_order : sender.completions.map (fun c => c.1.report) <+: sender.popped
  completed_eq : sender.wire = sender.completedReports.flatMap encodeExecReport
  wire_eq : sender.errors = 0 → sender.wire =
    (sender.recycledReports ++ sender.unreapedReports).flatMap encodeExecReport

/-! ## Invariant -/

structure InOrder (sender : UringSender) : Prop where
  counted : ∀ r ∈ sender.recycled, r.counted = decide (r.result.res < 0)
  errors : sender.errors = (sender.recycled.filter Recycled.counted).length
  order : sender.completions.map Prod.fst ++
    (sender.ring.running ++ (sender.ring.submitted ++ sender.ring.prepared)) = sender.sends
  sent : ∀ c ∈ sender.completions,
    c.2.sent = (encodeExecReport c.1.report).take c.2.res.toNat ∧ c.2.res ≤ 48
  wire : sender.wire = sender.completions.flatMap fun c => c.2.sent

variable {sender sender' : UringSender}

theorem completions_reap {send : Send} {result : SendResult} {rest : List (Send × SendResult)}
    (hcompleted : sender.ring.completed = (send, result) :: rest) :
    (sender.reap send result).completions = sender.completions := by
  unfold completions
  rw [hcompleted]
  simp [reap, freeSendBuf, SubmissionRing.seen, hcompleted]

/-- A completion is posted for a running send, or nothing happens. -/
theorem completeSend_cases (sender : UringSender) (position : ℕ) (res : ℤ) :
    sender.completeSend position res = sender ∨
      ∃ send, sender.ring.running[position]? = some send ∧
        sender.completeSend position res =
          { sender with
            ring :=
              { sender.ring with
                running := sender.ring.running.eraseIdx position
                completed :=
                  sender.ring.completed ++ [(send, ⟨res, sender.transmitted res send⟩)] }
            wire := sender.wire ++ sender.transmitted res send } := by
  unfold completeSend
  rcases sender.ring.complete_cases position
    (fun send => (⟨res, sender.transmitted res send⟩ : SendResult)) with
    ⟨hnone, hring⟩ | ⟨send, hrunning, hring⟩
  · left
    rw [hring, hnone]
    simp
  · right
    refine ⟨send, hrunning, ?_⟩
    rw [hring, hrunning]
    rfl

namespace InOrder

theorem reap (hsender : InOrder sender) {send : Send} {result : SendResult}
    {rest : List (Send × SendResult)}
    (hcompleted : sender.ring.completed = (send, result) :: rest) :
    InOrder (sender.reap send result) where
  counted := by
    intro r hr
    rcases List.mem_append.mp hr with hold | hnew
    · exact hsender.counted r hold
    · rw [List.mem_singleton.mp hnew]
  errors := by
    have herrors := hsender.errors
    change (if result.res < 0 then sender.errors + 1 else sender.errors) =
      ((sender.recycled ++ [Recycled.mk send result (decide (result.res < 0))]).filter
        Recycled.counted).length
    rw [List.filter_append, List.length_append, ← herrors]
    split_ifs with hfailed <;> simp [hfailed]
  order := by
    rw [completions_reap hcompleted]
    exact hsender.order
  sent := by
    rw [completions_reap hcompleted]
    exact hsender.sent
  wire := by
    rw [completions_reap hcompleted]
    exact hsender.wire

theorem flushSqes (hsender : InOrder sender) : InOrder sender.flushSqes := by
  unfold UringSender.flushSqes
  split_ifs with hpending
  · refine ⟨hsender.counted, hsender.errors, ?_, hsender.sent, hsender.wire⟩
    have horder := hsender.order
    simpa [SubmissionRing.submit, completions] using horder
  · exact hsender

theorem thread (hsender : InOrder sender) (hstep : ThreadStep sender sender') :
    InOrder sender' := by
  cases hstep with
  | reap hstage hcompleted => exact hsender.reap hcompleted
  | flush hstage hcompleted =>
      have hflushed := hsender.flushSqes
      exact ⟨hflushed.counted, hflushed.errors, hflushed.order, hflushed.sent, hflushed.wire⟩
  | @prepare report slot hstage hfree hlt hslot =>
      refine ⟨hsender.counted, hsender.errors, ?_, hsender.sent, hsender.wire⟩
      change sender.completions.map Prod.fst ++ (sender.ring.running ++
        (sender.ring.submitted ++ (sender.ring.prepared ++ [_]))) = sender.sends ++ [_]
      rw [← hsender.order]
      simp
  | _ => exact ⟨hsender.counted, hsender.errors, hsender.order, hsender.sent, hsender.wire⟩

theorem consume (hsender : InOrder sender) :
    InOrder { sender with ring := sender.ring.consume } := by
  rcases sender.ring.consume_cases with ⟨_, hring⟩ | ⟨send, rest, hsubmitted, hring⟩
  · rw [hring]
    exact hsender
  · rw [hring]
    refine ⟨hsender.counted, hsender.errors, ?_, hsender.sent, hsender.wire⟩
    have horder := hsender.order
    rw [hsubmitted] at horder
    simpa [completions] using horder

/-- The first running send completes, with the first `res` bytes of its report. -/
theorem completeSend (hsender : InOrder sender)
    (hslots : SlotsHold sender.ring.outstanding sender.bufInFlight sender.sendBufs) {res : ℤ}
    (hres : res ≤ 48) : InOrder (sender.completeSend 0 res) := by
  rcases sender.completeSend_cases 0 res with hsame | ⟨send, hrunning, hposted⟩
  · rw [hsame]
    exact hsender
  · have hbytes : sender.transmitted res send =
        (encodeExecReport send.report).take res.toNat := by
      unfold transmitted
      rw [hslots.encoded send (SubmissionRing.mem_outstanding_of_running hrunning)]
    have hcompletions : (sender.completeSend 0 res).completions =
        sender.completions ++ [(send, ⟨res, sender.transmitted res send⟩)] := by
      rw [hposted]
      exact (List.append_assoc _ _ _).symm
    rw [hposted] at hcompletions ⊢
    refine ⟨hsender.counted, hsender.errors, ?_, ?_, ?_⟩
    · rw [hcompletions]
      cases hlist : sender.ring.running with
      | nil => simp [hlist] at hrunning
      | cons first rest =>
          have horder := hsender.order
          rw [hlist] at hrunning horder
          simp only [List.getElem?_cons_zero, Option.some.injEq] at hrunning
          simpa [hlist, hrunning] using horder
    · rw [hcompletions]
      intro c hc
      rcases List.mem_append.mp hc with hold | hnew
      · exact hsender.sent c hold
      · rw [List.mem_singleton.mp hnew]
        exact ⟨hbytes, hres⟩
    · rw [hcompletions, List.flatMap_append, ← hsender.wire]
      simp

theorem step (hsender : InOrder sender) (haccounted : Accounted sender) {move : Move}
    (hmove : move.inOrder = true) : InOrder (sender.step move) := by
  cases move with
  | thread => exact hsender.thread haccounted.threadStep
  | arrive report =>
      exact ⟨hsender.counted, hsender.errors, hsender.order, hsender.sent, hsender.wire⟩
  | consume => exact hsender.consume
  | complete position res =>
      simp only [Move.inOrder, Bool.and_eq_true, beq_iff_eq, decide_eq_true_eq] at hmove
      rw [hmove.1]
      exact hsender.completeSend haccounted.slots hmove.2

end InOrder

theorem inOrder_new : InOrder new where
  counted := by nofun
  errors := rfl
  order := rfl
  sent := by nofun
  wire := rfl

theorem inOrder_run (moves : List Move) (hkernel : ∀ move ∈ moves, move.inOrder = true) :
    InOrder (new.run moves) := by
  induction moves using List.reverseRecOn with
  | nil => exact inOrder_new
  | append_singleton moves move ih =>
      have hbefore : ∀ move ∈ moves, move.inOrder = true := by
        intro other hother
        exact hkernel other (by simp [hother])
      rw [run_append]
      exact (ih hbefore).step (accounted_run moves) (hkernel move (by simp))

/-! ## Short sends -/

/-- All bytes of a report went out if and only if the result says so. -/
theorem InOrder.sent_eq_iff (hsender : InOrder sender) {c : Send × SendResult}
    (hc : c ∈ sender.completions) :
    c.2.sent = encodeExecReport c.1.report ↔ c.2.res = 48 := by
  have hsent := hsender.sent c hc
  have hlength := length_encodeExecReport c.1.report
  unfold WireExecReport.size at hlength
  rw [hsent.1, List.take_eq_self_iff, hlength]
  omega

theorem mem_completions {r : Recycled} (hr : r ∈ sender.recycled) :
    (r.send, r.result) ∈ sender.completions :=
  List.mem_append_left _ (List.mem_map_of_mem hr)

/-- A recycled slot is transmitted in full or counted exactly when its result is
negative or 48. -/
theorem InOrder.accounted_iff (hsender : InOrder sender) {r : Recycled}
    (hr : r ∈ sender.recycled) :
    (r.result.sent = encodeExecReport r.send.report ∨ r.counted = true) ↔
      r.result.res < 0 ∨ r.result.res = 48 := by
  have hsent := hsender.sent_eq_iff (mem_completions hr)
  rw [hsent, hsender.counted r hr, decide_eq_true_iff, or_comm]

/-- Every completion so far was of a send which transmitted nothing or everything. -/
def Whole (sender : UringSender) : Prop :=
  ∀ c ∈ sender.completions, c.2.res < 0 ∨ c.2.res = 48

theorem Whole.thread (hwhole : Whole sender) (hstep : ThreadStep sender sender') :
    Whole sender' := by
  cases hstep with
  | reap hstage hcompleted =>
      unfold Whole
      rw [completions_reap hcompleted]
      exact hwhole
  | flush hstage hcompleted =>
      unfold UringSender.flushSqes
      split_ifs <;> exact hwhole
  | _ => exact hwhole

theorem Whole.step (hwhole : Whole sender) (haccounted : Accounted sender) {move : Move}
    (hmove : move.whole = true) : Whole (sender.step move) := by
  cases move with
  | thread => exact hwhole.thread haccounted.threadStep
  | arrive report => exact hwhole
  | consume =>
      unfold Whole completions UringSender.step
      rw [SubmissionRing.completed_consume]
      exact hwhole
  | complete position res =>
      simp only [Move.whole, decide_eq_true_eq] at hmove
      change Whole (sender.completeSend position res)
      rcases sender.completeSend_cases position res with hsame | ⟨send, _, hposted⟩
      · rw [hsame]
        exact hwhole
      · intro c hc
        rw [hposted, completions, ← List.append_assoc, List.mem_append] at hc
        rcases hc with hold | hnew
        · exact hwhole c hold
        · rw [List.mem_singleton.mp hnew]
          exact hmove

theorem whole_run (moves : List Move) (hmoves : ∀ move ∈ moves, move.whole = true) :
    Whole (new.run moves) := by
  induction moves using List.reverseRecOn with
  | nil => nofun
  | append_singleton moves move ih =>
      have hbefore : ∀ move ∈ moves, move.whole = true := by
        intro other hother
        exact hmoves other (by simp [hother])
      rw [run_append]
      exact (ih hbefore).step (accounted_run moves) (hmoves move (by simp))

theorem flatMap_sent {completions : List (Send × SendResult)}
    (hsent : ∀ c ∈ completions,
      c.2.sent = (encodeExecReport c.1.report).take c.2.res.toNat ∧ c.2.res ≤ 48)
    (hwhole : ∀ c ∈ completions, c.2.res < 0 ∨ c.2.res = 48) :
    completions.flatMap (fun c => c.2.sent) =
      ((completions.filter fun c => decide (0 ≤ c.2.res)).map fun c => c.1.report).flatMap
        encodeExecReport := by
  induction completions with
  | nil => rfl
  | cons c completions ih =>
      have hrest := ih (fun other hother => hsent other (by simp [hother]))
        (fun other hother => hwhole other (by simp [hother]))
      have hlength := length_encodeExecReport c.1.report
      unfold WireExecReport.size at hlength
      rw [List.flatMap_cons, hrest, (hsent c (by simp)).1]
      rcases hwhole c (by simp) with hfailed | hfull
      · have hnone : c.2.res.toNat = 0 := by omega
        rw [List.filter_cons_of_neg (by simpa using hfailed), hnone, List.take_zero,
          List.nil_append]
      · have hall : (encodeExecReport c.1.report).length ≤ c.2.res.toNat := by omega
        rw [List.filter_cons_of_pos (by simp [hfull]), List.take_of_length_le hall,
          List.map_cons, List.flatMap_cons]

/-- Without errors no recycled send has failed. -/
theorem InOrder.completedReports_eq (hsender : InOrder sender) (herrors : sender.errors = 0) :
    sender.completedReports = sender.recycledReports ++ sender.unreapedReports := by
  have hcounted := hsender.errors
  rw [herrors, eq_comm, List.length_eq_zero_iff, List.filter_eq_nil_iff] at hcounted
  have hall : (sender.recycled.map fun r => (r.send, r.result)).filter
      (fun c => decide (0 ≤ c.2.res)) = sender.recycled.map fun r => (r.send, r.result) := by
    apply List.filter_eq_self.mpr
    intro c hc
    rcases List.mem_map.mp hc with ⟨r, hr, rfl⟩
    have hnot := hcounted r hr
    rw [hsender.counted r hr, decide_eq_true_iff, not_lt] at hnot
    exact decide_eq_true hnot
  unfold completedReports completions recycledReports unreapedReports
  rw [List.filter_append, hall, List.map_append, List.map_map]
  rfl

theorem InOrder.framed (hsender : InOrder sender) (haccounted : Accounted sender)
    (hwhole : Whole sender) : Framed sender where
  accounted r hr := (hsender.accounted_iff hr).mpr (hwhole _ (mem_completions hr))
  errors_eq := hsender.errors
  pop_order := by
    rw [haccounted.popped, ← hsender.order, List.map_append, List.map_map, List.append_assoc]
    exact List.prefix_append _ _
  completed_eq := by
    rw [hsender.wire]
    exact flatMap_sent hsender.sent hwhole
  wire_eq herrors := by
    rw [← hsender.completedReports_eq herrors, hsender.wire]
    exact flatMap_sent hsender.sent hwhole

/-- A recycled slot was transmitted in full or is counted exactly when its send was
not cut short, and the stream keeps its framing in every run without short sends. -/
theorem run_framed (moves : List Move) (hkernel : ∀ move ∈ moves, move.inOrder = true) :
    (∀ r ∈ (new.run moves).recycled,
      (r.result.sent = encodeExecReport r.send.report ∨ r.counted = true) ↔
        r.result.res < 0 ∨ r.result.res = 48) ∧
      ((∀ move ∈ moves, move.whole = true) → Framed (new.run moves)) := by
  have hsender := inOrder_run moves hkernel
  constructor
  · intro r hr
    exact hsender.accounted_iff hr
  · intro hmoves
    exact hsender.framed (accounted_run moves) (whole_run moves hmoves)

/-- Two reports, sent with results `first` and `second`. -/
def twoSends (first second : ℤ) : List Move :=
  [.arrive sampleReport, .arrive sampleReport] ++ List.replicate 9 .thread ++
    [.consume, .consume, .complete 0 first, .complete 0 second] ++ List.replicate 4 .thread

theorem run_framed_twoSends :
    (∀ move ∈ twoSends 48 48, move.inOrder = true) ∧
      (∀ move ∈ twoSends 48 48, move.whole = true) ∧
      (new.run (twoSends 48 48)).recycled.length = 2 ∧ Framed (new.run (twoSends 48 48)) := by
  refine ⟨by decide, by decide, by decide, ?_⟩
  exact (run_framed (twoSends 48 48) (by decide)).2 (by decide)

/-- A send cut short after 10 bytes is recycled without an error. -/
theorem short_send_uncounted :
    (∀ move ∈ twoSends 10 48, move.inOrder = true) ∧
      (new.run (twoSends 10 48)).errors = 0 ∧
      (new.run (twoSends 10 48)).wire =
        (encodeExecReport sampleReport).take 10 ++ encodeExecReport sampleReport ∧
      ¬ Framed (new.run (twoSends 10 48)) := by
  refine ⟨by decide, by decide, by decide, ?_⟩
  intro hframed
  have hlost : ∃ r ∈ (new.run (twoSends 10 48)).recycled,
      ¬ (r.result.sent = encodeExecReport r.send.report ∨ r.counted = true) := by decide
  rcases hlost with ⟨r, hr, hnot⟩
  exact hnot (hframed.accounted r hr)

end UringSender

end NanoMatch
