import NanoMatch.FeasibilityScan
import NanoMatch.MirroredSteps

/-!
# Rejected orders

A new order is rejected for four reasons, and two of them are found only after a slot
was taken and filled in.  Nothing else posts a reject, and whatever the reason, the
books and the free list are those before the message.

The side byte of the message is not among the reasons: every byte but 0 counts as a
sell.
-/

namespace NanoMatch

open OrderBook

namespace Engine

/-- Why a new order is rejected. -/
def RejectCause (engine : Engine) (msg : InboundOrderMsg) : Prop :=
  engine.books msg.instrumentId = none ∨ engine.pool.freelistHead = none ∨ 3 < msg.type ∨
    msg.orderType = .fok ∧ ∃ book, engine.books msg.instrumentId = some book ∧
      book.availableQuantityAtOrBetter msg.orderSide msg.price < msg.quantity

/-- The dispatch of the message posts a reject. -/
def PostsReject (engine : Engine) (msg : InboundOrderMsg) : Prop :=
  ∃ report ∈ (engine.dispatch msg).outbound.drop engine.outbound.length, report.kind = .reject

/-- One reject, counted, is all that has happened. -/
structure LeavesNoTrace (engine : Engine) (msg : InboundOrderMsg) (after : Engine) : Prop where
  killed : engine.Killed msg after
  queues : after.queue = engine.queue
  rejected : after.ordersRejected = engine.ordersRejected + 1
  fills : after.fillsExecuted = engine.fillsExecuted
  freeSlots : after.pool.freeSlots = engine.pool.freeSlots
  freeCount : after.pool.freeCount = engine.pool.freeCount

end Engine

theorem InboundOrderMsg.undefinedType_iff (msg : InboundOrderMsg) :
    (∃ byte, msg.orderType = .raw byte) ↔ 3 < msg.type := by
  unfold InboundOrderMsg.orderType
  generalize msg.type = byte
  rw [UInt8.lt_iff_toNat_lt]
  unfold OrderType.ofByte
  have hcode (code : UInt8) : byte = code ↔ byte.toNat = code.toNat := UInt8.toNat_inj.symm
  split_ifs with hlimit hmarket hioc hfok
  · simp [hlimit]
  · simp [hmarket]
  · simp [hioc]
  · simp [hfok]
  · rw [hcode] at hlimit hmarket hioc hfok
    simp only [UInt8.reduceToNat] at hlimit hmarket hioc hfok ⊢
    simp only [OrderType.raw.injEq, exists_eq', true_iff]
    omega

section Rejection

variable {msg : InboundOrderMsg} {slot : Slot} {s s₀ s₁ s' : Snapshot} {book : OrderBook}
  {timestampNs : UInt64}

theorem Snapshot.rejectCause_iff (hbook : s.engine.books msg.instrumentId = some book)
    (hfree : s.free ≠ []) : s.engine.RejectCause msg ↔ msg.Infeasible book := by
  have hhead : s.engine.pool.freelistHead ≠ none := by
    rw [s.freelistHead_eq]
    simpa using hfree
  unfold Engine.RejectCause InboundOrderMsg.Infeasible
  rw [msg.undefinedType_iff, hbook]
  simp [hhead]

theorem Snapshot.freeCount_eq (s : Snapshot) : s.engine.pool.freeCount = s.free.length :=
  s.rep.freeList.count.symm

/-- The same snapshot apart from one counted reject. -/
theorem Engine.Killed.leavesNoTrace (hkilled : s.engine.Killed msg s'.engine)
    (hqueues : s'.queues = s.queues) (hfree : s'.free = s.free)
    (hrejected : s'.engine.ordersRejected = s.engine.ordersRejected + 1)
    (hfills : s'.engine.fillsExecuted = s.engine.fillsExecuted) :
    s.engine.LeavesNoTrace msg s'.engine where
  killed := hkilled
  queues := by rw [s.rep.queue_eq, s'.rep.queue_eq, hqueues]
  rejected := hrejected
  fills := hfills
  freeSlots := by rw [s.rep.freeSlots_eq, s'.rep.freeSlots_eq, hfree]
  freeCount := by rw [s.freeCount_eq, s'.freeCount_eq, hfree]

theorem Posted.leavesNoTrace
    (hposted : Posted [rejectReport msg.orderId msg.quantity timestampNs] 1 s s') :
    s.engine.LeavesNoTrace msg s'.engine :=
  hposted.killed.leavesNoTrace hposted.queues_eq hposted.free_eq hposted.rejects_eq
    hposted.fills_eq

/-- The slot goes back to where it was taken from. -/
theorem Admitted.leavesNoTrace (hadmitted : Admitted msg slot s s₀)
    (hposted : Posted [rejectReport msg.orderId msg.quantity timestampNs] 1 s₀ s₁)
    (hreleased : Released slot s₁ s') : s.engine.LeavesNoTrace msg s'.engine := by
  apply (hadmitted.killed hposted hreleased).leavesNoTrace
  · rw [hreleased.queues_eq, hposted.queues_eq, hadmitted.queues_eq]
  · rw [hreleased.free_eq, hposted.free_eq, hadmitted.free_eq]
  · rw [hreleased.rejects_eq, hposted.rejects_eq, hadmitted.rejects_eq]
  · rw [hreleased.fills_eq, hposted.fills_eq, hadmitted.fills_eq]

/-- A sweep posts trades only. -/
theorem Swept.no_reject {instrumentId : InstrumentId} {priceOk : Price → Bool}
    (hswept : Swept instrumentId slot priceOk s s') :
    ∃ reports, s'.engine.outbound = s.engine.outbound ++ reports ∧
      ∀ report ∈ reports, report.kind ≠ .reject := by
  rcases hswept.exists_reports with ⟨fills, hfills, _⟩
  refine ⟨pairReports fills, hfills.outbound_eq, ?_⟩
  intro report hreport hkind
  rcases List.mem_flatMap.mp hreport with ⟨pair, hpair, hmem⟩
  have htrade : report.isTrade = true := by
    rcases List.mem_pair.mp hmem with rfl | rfl
    · exact (hfills.trades pair hpair).1
    · exact (hfills.trades pair hpair).2
  unfold ExecutionReport.isTrade at htrade
  rw [hkind] at htrade
  exact absurd htrade (by decide)

theorem Ends.no_reject {grid : PriceGrid} {fate : Fate} (hends : Ends msg grid slot s s' fate) :
    ∃ reports, s'.engine.outbound = s.engine.outbound ++ reports ∧
      ∀ report ∈ reports, report.kind ≠ .reject := by
  cases fate with
  | released => exact ⟨[], by rw [List.append_nil]; exact hends.outbound_eq, by simp⟩
  | acked =>
      rcases hends with ⟨s₁, timestampNs, hposted, hreleased⟩
      refine ⟨_, hreleased.outbound_eq.trans hposted.outbound_eq, ?_⟩
      intro report hreport
      rw [List.mem_singleton.mp hreport]
      exact fun hkind => absurd hkind (by simp [cancelAckReport])
  | rested => exact ⟨[], by rw [List.append_nil]; exact hends.outbound_eq, by simp⟩
  | lost => exact ⟨[], by rw [List.append_nil, show s' = s from hends], by simp⟩

/-- A new order is rejected and leaves no trace, or has no cause to be rejected and is
not. -/
theorem NewOrderStep.rejection (hstep : NewOrderStep msg s s') :
    s.engine.RejectCause msg ∧ s.engine.LeavesNoTrace msg s'.engine ∨
      ¬ s.engine.RejectCause msg ∧
        ∃ reports, s'.engine.outbound = s.engine.outbound ++ reports ∧
          ∀ report ∈ reports, report.kind ≠ .reject := by
  rcases hstep.phases with ⟨hwhy, timestampNs, hposted⟩ |
    ⟨slot, book, s₁, hbook, hadmitted, hphases⟩
  · refine Or.inl ⟨?_, hposted.leavesNoTrace⟩
    rcases hwhy with hunlisted | hexhausted
    · exact Or.inl hunlisted
    · refine Or.inr (Or.inl ?_)
      rw [s.freelistHead_eq, hexhausted]
      rfl
  · have hfree : s.free ≠ [] := by
      rw [hadmitted.free_eq]
      exact List.cons_ne_nil _ _
    rw [Snapshot.rejectCause_iff hbook hfree]
    rcases hphases with ⟨hinfeasible, s₂, timestampNs, hposted, hreleased⟩ |
      ⟨hfeasible, s₂, hswept, hends⟩
    · exact Or.inl ⟨hinfeasible, hadmitted.leavesNoTrace hposted hreleased⟩
    · rcases hswept.no_reject with ⟨traded, htraded, hnone⟩
      rcases Ends.no_reject hends with ⟨last, hlast, hnone'⟩
      refine Or.inr ⟨hfeasible, traded ++ last, ?_, ?_⟩
      · rw [hlast, htraded, hadmitted.outbound_eq, List.append_assoc]
      · intro report hreport
        rcases List.mem_append.mp hreport with hmem | hmem
        · exact hnone report hmem
        · exact hnone' report hmem

theorem Snapshot.rejection (s : Snapshot) (hkind : msg.kind = .newOrder) :
    (s.engine.PostsReject msg ↔ s.engine.RejectCause msg) ∧
      (s.engine.PostsReject msg → s.engine.LeavesNoTrace msg (s.engine.dispatch msg)) := by
  rcases s.handleNewOrder_step msg with ⟨s', hengine, hstep⟩
  have hdispatch : s.engine.dispatch msg = s'.engine := by
    rw [Engine.dispatch, hkind, hengine]
  unfold Engine.PostsReject
  rw [hdispatch]
  rcases hstep.rejection with ⟨hcause, htrace⟩ | ⟨hnone, reports, houtbound, hreports⟩
  · rcases htrace.killed.1 with ⟨timestampNs, houtbound⟩
    refine ⟨iff_of_true ⟨rejectReport msg.orderId msg.quantity timestampNs, ?_, rfl⟩ hcause,
      fun _ => htrace⟩
    rw [houtbound, List.drop_left]
    exact List.mem_singleton_self _
  · have hsilent : ¬ ∃ report ∈ s'.engine.outbound.drop s.engine.outbound.length,
        report.kind = .reject := by
      rintro ⟨report, hreport, hkind⟩
      rw [houtbound, List.drop_left] at hreport
      exact hreports report hreport hkind
    exact ⟨iff_of_false hsilent hnone, fun hposts => absurd hposts hsilent⟩

end Rejection

/-- In every reachable state a reject is posted for the four causes only, and it is the
only trace of its order. -/
theorem rejected_leavesNoTrace (capacity : ℕ) (clock : ℕ → UInt64)
    (listings : List (InstrumentId × PriceGrid)) (events : List Engine.Event)
    (msg : InboundOrderMsg) (hkind : msg.kind = .newOrder) :
    (((Engine.listed capacity clock listings).run events).PostsReject msg ↔
        ((Engine.listed capacity clock listings).run events).RejectCause msg) ∧
      (((Engine.listed capacity clock listings).run events).PostsReject msg →
        ((Engine.listed capacity clock listings).run events).LeavesNoTrace msg
          (((Engine.listed capacity clock listings).run events).dispatch msg)) := by
  rcases exists_snapshot capacity clock listings events with ⟨s, hengine⟩
  rw [← hengine]
  exact s.rejection hkind

theorem rejected_leavesNoTrace_sample :
    (sampleOrder 0 3 2 104 5).kind = .newOrder ∧
      (sampleEngine.run [.message (sampleOrder 1 0 1 104 3)]).LeavesNoTrace
        (sampleOrder 0 3 2 104 5)
        ((sampleEngine.run [.message (sampleOrder 1 0 1 104 3)]).dispatch
          (sampleOrder 0 3 2 104 5)) := by
  refine ⟨rfl, (rejected_leavesNoTrace 4 (fun _ => 0) [(0, sampleGrid)]
    [.message (sampleOrder 1 0 1 104 3)] _ rfl).2 ?_⟩
  unfold Engine.PostsReject
  decide

/-! ## Undefined sides -/

/-- The answer to an undefined type, expected for an undefined side as well. -/
def Engine.RejectsUntouched (engine : Engine) (msg : InboundOrderMsg) : Prop :=
  (∃ timestampNs, (engine.dispatch msg).outbound =
      engine.outbound ++ [rejectReport msg.orderId msg.quantity timestampNs]) ∧
    (engine.dispatch msg).books = engine.books ∧
    (engine.dispatch msg).queue = engine.queue ∧
    (∀ instrumentId side i, ∀ slot ∈ engine.queue instrumentId side i,
      (engine.dispatch msg).slab slot = engine.slab slot) ∧
    (engine.dispatch msg).pool.freeSlots = engine.pool.freeSlots

theorem Snapshot.rejectsUntouched_iff (s : Snapshot) {msg : InboundOrderMsg}
    (hkind : msg.kind = .newOrder) : s.engine.RejectsUntouched msg ↔ s.engine.RejectCause msg := by
  rcases s.rejection hkind with ⟨hcause, htrace⟩
  constructor
  · rintro ⟨⟨timestampNs, houtbound⟩, -⟩
    rw [← hcause]
    refine ⟨rejectReport msg.orderId msg.quantity timestampNs, ?_, rfl⟩
    rw [houtbound, List.drop_left]
    exact List.mem_singleton_self _
  · intro hrejected
    have hnoTrace := htrace (hcause.mpr hrejected)
    exact ⟨hnoTrace.killed.1, hnoTrace.killed.2.1, hnoTrace.queues, hnoTrace.killed.2.2,
      hnoTrace.freeSlots⟩

/-- An order with an undefined side is turned away exactly when there is another cause
to reject it. -/
theorem undefinedSide_rejected_iff (capacity : ℕ) (clock : ℕ → UInt64)
    (listings : List (InstrumentId × PriceGrid)) (events : List Engine.Event)
    (msg : InboundOrderMsg) (hkind : msg.kind = .newOrder) : 1 < msg.side →
      (((Engine.listed capacity clock listings).run events).RejectsUntouched msg ↔
        ((Engine.listed capacity clock listings).run events).RejectCause msg) := by
  intro _
  rcases exists_snapshot capacity clock listings events with ⟨s, hengine⟩
  rw [← hengine]
  exact s.rejectsUntouched_iff hkind

/-- A bid of 5 at 104 is resting.  A fill-or-kill order for 9 with the side byte 7 finds too
little, and an order with the type byte 4 has no type. -/
theorem undefinedSide_rejected_iff_resting :
    1 < (sampleOrder 7 3 2 100 9).side ∧ 1 < (sampleOrder 7 4 2 100 5).side ∧
      (sampleEngine.run [.message (sampleOrder 0 0 1 104 5)]).RejectsUntouched
        (sampleOrder 7 3 2 100 9) ∧
      (sampleEngine.run [.message (sampleOrder 0 0 1 104 5)]).RejectsUntouched
        (sampleOrder 7 4 2 100 5) := by
  refine ⟨by decide, by decide, ?_, ?_⟩
  · apply (undefinedSide_rejected_iff 4 (fun _ => 0) [(0, sampleGrid)]
      [.message (sampleOrder 0 0 1 104 5)] (sampleOrder 7 3 2 100 9) rfl (by decide)).mpr
    exact Or.inr (Or.inr (Or.inr ⟨by decide, _, rfl, by decide⟩))
  · apply (undefinedSide_rejected_iff 4 (fun _ => 0) [(0, sampleGrid)]
      [.message (sampleOrder 0 0 1 104 5)] (sampleOrder 7 4 2 100 5) rfl (by decide)).mpr
    exact Or.inr (Or.inr (Or.inl (by decide)))

/-- A bid of 5 at 104 is resting; an order for 5 at 100 with the side byte 7 fills it. -/
theorem undefinedSide_trades :
    (sampleOrder 7 0 2 100 5).kind = .newOrder ∧ 1 < (sampleOrder 7 0 2 100 5).side ∧
      ((sampleEngine.run [.message (sampleOrder 0 0 1 104 5)]).dispatch
        (sampleOrder 7 0 2 100 5)).fillsExecuted = 1 ∧
      ¬ (sampleEngine.run [.message (sampleOrder 0 0 1 104 5)]).RejectsUntouched
        (sampleOrder 7 0 2 100 5) := by
  refine ⟨rfl, by decide, by decide, ?_⟩
  rintro ⟨⟨timestampNs, houtbound⟩, -⟩
  have hlength := congrArg List.length houtbound
  rw [List.length_append, List.length_singleton] at hlength
  exact absurd hlength (by decide)

end NanoMatch
