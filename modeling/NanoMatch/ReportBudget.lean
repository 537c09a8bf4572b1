import NanoMatch.ExecutionTape

/-!
# The report budget

One incoming order can cause any number of trades, since it may sweep the whole book.
Over a run the trades are bounded all the same: every trade but the last one of a sweep
gives the slot of its maker back to the pool.  With two reports put aside for every slot
in use, a new order pays for itself with two reports and everything else is free.
-/

namespace NanoMatch

open OrderBook

/-- The reports posted so far, less two for every free slot. -/
def Snapshot.reportDebt (s : Snapshot) : ℤ := s.engine.outbound.length - 2 * s.free.length

/-- The fills and rejections so far, less one for every free slot. -/
def Snapshot.outcomeDebt (s : Snapshot) : ℤ :=
  s.engine.fillsExecuted + s.engine.ordersRejected - s.free.length

/-- A step which adds at most so much to the two debts. -/
structure Charged (reports outcomes : ℤ) (s s' : Snapshot) : Prop where
  reports_le : s'.reportDebt ≤ s.reportDebt + reports
  outcomes_le : s'.outcomeDebt ≤ s.outcomeDebt + outcomes

namespace Charged

variable {msg : InboundOrderMsg} {instrumentId : InstrumentId} {slot agg maker : Slot}
  {s s₁ s' : Snapshot}

theorem trans {reports outcomes reports' outcomes' : ℤ} (hfirst : Charged reports outcomes s s₁)
    (hsecond : Charged reports' outcomes' s₁ s') :
    Charged (reports + reports') (outcomes + outcomes') s s' := by
  rcases hfirst with ⟨hreports, houtcomes⟩
  rcases hsecond with ⟨hreports', houtcomes'⟩
  constructor
  · linarith
  · linarith

theorem mono {reports outcomes reports' outcomes' : ℤ} (hcharged : Charged reports outcomes s s')
    (hreports : reports ≤ reports') (houtcomes : outcomes ≤ outcomes') :
    Charged reports' outcomes' s s' :=
  ⟨hcharged.reports_le.trans (by linarith), hcharged.outcomes_le.trans (by linarith)⟩

/-- A phase which posts nothing pays with the free slots alone. -/
theorem of_free {slots : ℤ} (houtbound : s'.engine.outbound = s.engine.outbound)
    (hfills : s'.engine.fillsExecuted = s.engine.fillsExecuted)
    (hrejects : s'.engine.ordersRejected = s.engine.ordersRejected)
    (hfree : (s.free.length : ℤ) = s'.free.length + slots) :
    Charged (2 * slots) slots s s' := by
  constructor
  · unfold Snapshot.reportDebt
    rw [houtbound]
    linarith
  · unfold Snapshot.outcomeDebt
    rw [hfills, hrejects]
    linarith

theorem admitted (hadmitted : Admitted msg slot s s') : Charged 2 1 s s' := by
  have hcharged : Charged (2 * 1) 1 s s' := by
    apply of_free hadmitted.outbound_eq hadmitted.fills_eq hadmitted.rejects_eq
    rw [hadmitted.free_eq, List.length_cons, Nat.cast_succ]
  simpa using hcharged

theorem released (hreleased : Released slot s s') : Charged (-2) (-1) s s' := by
  have hcharged : Charged (2 * (-1)) (-1) s s' := by
    apply of_free hreleased.outbound_eq hreleased.fills_eq hreleased.rejects_eq
    rw [hreleased.free_eq, List.length_cons, Nat.cast_succ]
    ring
  simpa using hcharged

theorem rested {level : ℕ} (hrested : Rested instrumentId slot level s s') :
    Charged 0 0 s s' := by
  have hcharged : Charged (2 * 0) 0 s s' := by
    apply of_free hrested.outbound_eq hrested.fills_eq hrested.rejects_eq
    rw [hrested.free_eq, add_zero]
  simpa using hcharged

theorem removed {side : BookSide} {level : ℕ} {before after : List Slot}
    (hremoved : Removed instrumentId slot side level before after s s') :
    Charged 0 0 s s' := by
  have hcharged : Charged (2 * 0) 0 s s' := by
    apply of_free hremoved.outbound_eq hremoved.fills_eq hremoved.rejects_eq
    rw [hremoved.free_eq, add_zero]
  simpa using hcharged

theorem posted {reports : List ExecutionReport} {rejections : ℕ}
    (hposted : Posted reports rejections s s') :
    Charged reports.length rejections s s' := by
  constructor
  · unfold Snapshot.reportDebt
    rw [hposted.outbound_eq, hposted.free_eq, List.length_append, Nat.cast_add]
    linarith
  · unfold Snapshot.outcomeDebt
    rw [hposted.fills_eq, hposted.rejects_eq, hposted.free_eq, Nat.cast_add]
    linarith

/-! ## The sweep -/

/-- A trade which uses up its maker is paid for by the slot of the maker. -/
theorem traded {level : ℕ} {behind : List Slot}
    (htraded : Traded instrumentId agg maker level behind s s') :
    Charged 2 1 s s' ∧ (0 < (s'.slab agg).remaining → Charged 0 0 s s') := by
  have hlength : s'.engine.outbound.length = s.engine.outbound.length + 2 := by
    rw [htraded.outbound, List.length_append]
    rfl
  have hfree := htraded.free'
  have hcharge : ∀ slots : ℕ, s'.free.length = s.free.length + slots →
      Charged (2 - 2 * slots) (1 - slots) s s' := by
    intro slots hslots
    constructor
    · unfold Snapshot.reportDebt
      rw [hlength, hslots]
      push_cast
      linarith
    · unfold Snapshot.outcomeDebt
      rw [htraded.fills, htraded.rejects, hslots]
      push_cast
      linarith
  have hkept : (s'.slab maker).quantity = 0 → Charged 0 0 s s' := by
    intro hempty
    rw [if_pos hempty] at hfree
    have hcharged := hcharge 1 (by rw [hfree, List.length_cons])
    simpa using hcharged
  constructor
  · by_cases hempty : (s'.slab maker).quantity = 0
    · exact (hkept hempty).mono (by norm_num) (by norm_num)
    · rw [if_neg hempty] at hfree
      have hcharged := hcharge 0 (by rw [hfree, add_zero])
      simpa using hcharged
  · intro hleft
    -- something is left of the incoming order, so the maker was the smaller of the two
    apply hkept
    rw [htraded.done_iff]
    have hremaining := htraded.remaining_eq agg
    rw [if_pos (Or.inr rfl)] at hremaining
    omega

/-- Only the last trade of a sweep is not paid for, and only when it fills the order. -/
theorem swept {accepts : Price → Bool} (hswept : Swept instrumentId agg accepts s s') :
    Charged 2 1 s s' ∧ (0 < (s'.slab agg).remaining → Charged 0 0 s s') := by
  apply hswept.induction
    (fun t => Charged 2 1 s t ∧ (0 < (t.slab agg).remaining → Charged 0 0 s t))
  · have hsame : Charged 0 0 s s := ⟨by simp, by simp⟩
    exact ⟨hsame.mono (by norm_num) (by norm_num), fun _ => hsame⟩
  · intro t t' maker level behind htraded _ ⟨_, hpaid⟩
    have hbefore := hpaid htraded.unfilled
    constructor
    · simpa using hbefore.trans (traded htraded).1
    · intro hleft
      simpa using hbefore.trans ((traded htraded).2 hleft)

/-! ## Messages -/

theorem newOrder (hstep : NewOrderStep msg s s') : Charged 2 1 s s' := by
  cases hstep with
  | refused timestampNs _ hposted =>
      exact (posted hposted).mono (by simp) (by simp)
  | rejected slot book s₀ s₁ timestampNs _ hadmitted _ hposted hreleased =>
      have hcharged := ((admitted hadmitted).trans (posted hposted)).trans (released hreleased)
      exact hcharged.mono (by simp) (by simp)
  | completed slot book s₀ s₁ _ hadmitted hswept _ hreleased =>
      have hcharged := ((admitted hadmitted).trans (swept hswept).1).trans (released hreleased)
      exact hcharged.mono (by norm_num) (by norm_num)
  | acked slot book s₀ s₁ s₂ timestampNs _ hadmitted hswept _ hresidual hposted hreleased =>
      have hsweep := (admitted hadmitted).trans ((swept hswept).2 hresidual)
      have hcharged := (hsweep.trans (posted hposted)).trans (released hreleased)
      exact hcharged.mono (by simp) (by simp)
  | rested slot book s₀ s₁ _ hadmitted hswept _ _ hrested =>
      have hsweep := (admitted hadmitted).trans ((swept hswept).2 hrested.unfilled)
      have hcharged := hsweep.trans (rested hrested)
      exact hcharged.mono (by norm_num) (by norm_num)
  | lost slot book s₀ _ hadmitted hswept _ hresidual _ =>
      have hcharged := (admitted hadmitted).trans ((swept hswept).2 hresidual)
      exact hcharged.mono (by norm_num) (by norm_num)

theorem cancel (hstep : CancelStep msg s s') : Charged 0 0 s s' := by
  cases hstep with
  | ignored hsame _ =>
      rw [hsame]
      exact ⟨by simp, by simp⟩
  | cancelled slot book side level before after s₁ s₂ timestampNs _ _ _ hremoved hposted
      hreleased =>
      have hcharged := ((removed hremoved).trans (posted hposted)).trans (released hreleased)
      exact hcharged.mono (by simp) (by simp)

end Charged

/-- The new orders among the events. -/
def newOrdersIn (events : List Engine.Event) : List InboundOrderMsg :=
  (messagesIn events).filter fun msg => msg.kind = .newOrder

theorem newOrdersIn_snoc (events : List Engine.Event) (event : Engine.Event) :
    newOrdersIn (events ++ [event]) = newOrdersIn events ++ newOrdersIn [event] := by
  unfold newOrdersIn messagesIn
  rw [List.filterMap_append, List.filter_append]

theorem MessageStep.charged {msg : InboundOrderMsg} {s s' : Snapshot}
    (hstep : MessageStep msg s s') :
    Charged (2 * (newOrdersIn [.message msg]).length) (newOrdersIn [.message msg]).length s s' := by
  cases hstep with
  | newOrder s₁ hkind hstep hcounted =>
      have hcharged := (Charged.newOrder hstep).trans (.posted hcounted)
      simpa [newOrdersIn, messagesIn, hkind] using hcharged
  | cancel s₁ hkind hstep hcounted =>
      have hcharged := (Charged.cancel hstep).trans (.posted hcounted)
      have hother : msg.kind ≠ .newOrder := by
        rcases hkind with hkind | hkind <;> simp [hkind]
      simpa [newOrdersIn, messagesIn, hother] using hcharged
  | ignored byte hkind hcounted =>
      simpa [newOrdersIn, messagesIn, hkind] using Charged.posted hcounted

/-! ## Runs -/

/-- The engine has not posted more reports, nor decided more orders, than its new orders
and the slots in use allow. -/
structure WithinBudget (newOrders : ℕ) (engine : Engine) : Prop where
  reports : engine.outbound.length + 2 * engine.pool.usedCount ≤ 2 * newOrders
  outcomes : engine.fillsExecuted + engine.ordersRejected + engine.pool.usedCount ≤ newOrders

/-- With the slots in use written as the capacity less the free ones. -/
theorem Snapshot.withinBudget_iff (s : Snapshot) (newOrders : ℕ) :
    WithinBudget newOrders s.engine ↔
      s.reportDebt + 2 * s.engine.pool.capacity ≤ 2 * newOrders ∧
        s.outcomeDebt + s.engine.pool.capacity ≤ newOrders := by
  have hcount := s.rep.freeList.count
  have hle := s.rep.freeList.length_le
  have hused : (s.engine.pool.usedCount : ℤ) = s.engine.pool.capacity - s.free.length := by
    unfold OrderPool.usedCount
    omega
  unfold Snapshot.reportDebt Snapshot.outcomeDebt
  constructor
  · intro hbudget
    have hreports := hbudget.reports
    have houtcomes := hbudget.outcomes
    constructor
    · omega
    · omega
  · rintro ⟨hreports, houtcomes⟩
    constructor
    · omega
    · omega

theorem WithinBudget.message {newOrders : ℕ} {msg : InboundOrderMsg} {s s' : Snapshot}
    (hbudget : WithinBudget newOrders s.engine) (hstep : MessageStep msg s s') :
    WithinBudget (newOrders + (newOrdersIn [.message msg]).length) s'.engine := by
  rcases hstep.charged with ⟨hreports, houtcomes⟩
  rw [Snapshot.withinBudget_iff] at hbudget ⊢
  rw [(SameLayout.message hstep).capacity]
  push_cast
  constructor
  · linarith [hbudget.1]
  · linarith [hbudget.2]

/-- A reset gives every slot back and keeps the reports and the counters. -/
theorem WithinBudget.reset {newOrders : ℕ} {s : Snapshot}
    (hbudget : WithinBudget newOrders s.engine) :
    WithinBudget newOrders s.engine.resetState := by
  have hused : s.engine.resetState.pool.usedCount = 0 := by
    have hcount := s.engine.pool.buildFreelist_freeList.count
    have hcapacity := s.engine.pool.buildFreelist_capacity
    rw [List.length_range] at hcount
    change s.engine.pool.buildFreelist.capacity - s.engine.pool.buildFreelist.freeCount = 0
    omega
  constructor
  · have hreports := hbudget.reports
    rw [hused]
    change s.engine.outbound.length + 2 * 0 ≤ 2 * newOrders
    omega
  · have houtcomes := hbudget.outcomes
    rw [hused]
    change s.engine.fillsExecuted + s.engine.ordersRejected + 0 ≤ newOrders
    omega

/-- However long the sweeps are, a run never posts more than two reports per new order, and
never makes more fills than it was given new orders. -/
theorem run_withinBudget (capacity : ℕ) (clock : ℕ → UInt64)
    (listings : List (InstrumentId × PriceGrid)) (events : List Engine.Event) :
    WithinBudget (newOrdersIn events).length
      ((Engine.listed capacity clock listings).run events) := by
  induction events using List.reverseRecOn with
  | nil =>
      rcases Snapshot.exists_initial capacity clock listings with ⟨s, hs⟩
      rcases hs.reports with ⟨houtbound, hfills, hrejects, _⟩
      change WithinBudget 0 (Engine.listed capacity clock listings)
      rw [← hs.engine_eq, Snapshot.withinBudget_iff]
      unfold Snapshot.reportDebt Snapshot.outcomeDebt
      rw [houtbound, hfills, hrejects, hs.free_eq, hs.capacity_eq, List.length_range]
      simp
  | append_singleton events event ih =>
      rcases exists_snapshot capacity clock listings events with ⟨s, hengine⟩
      have hrun : (Engine.listed capacity clock listings).run (events ++ [event]) =
          s.engine.step event := by
        rw [hengine]
        simp [Engine.run]
      rw [hrun, newOrdersIn_snoc, List.length_append]
      rw [← hengine] at ih
      cases event with
      | message msg =>
          rcases s.submit_step msg with ⟨s', hengine', hstep⟩
          change WithinBudget _ (s.engine.submit msg)
          rw [← hengine']
          exact ih.message hstep
      | reset => exact ih.reset

end NanoMatch
