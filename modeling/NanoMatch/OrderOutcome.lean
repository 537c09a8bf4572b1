import NanoMatch.SweepAccounting

/-!
# How a new order ends

After the dispatch of a new order the client should either find it resting or
hold a final report for it.  `Accounted` states this for the release build and
`Accountable` is the exact condition on the state and the message under which
it holds.  The exceptions are limit orders whose residual has a price off the
grid, orders of quantity zero, and fill-or-kill orders accepted by a
feasibility scan which adds up more than the sweep can reach.
-/

namespace NanoMatch

open OrderBook

/-- A full fill, an acknowledged cancellation or a rejection. -/
def ExecutionReport.Closes (report : ExecutionReport) : Prop :=
  report.kind = .fill ∧ report.leavesQuantity = 0 ∨ report.kind = .cancelAck ∨
    report.kind = .reject

namespace Engine

/-- The reports posted for the submitted order between two states. -/
def postedFor (before after : Engine) : List ExecutionReport :=
  ownReports (after.outbound.drop before.outbound.length)

/-- The resting quantity which the order of a message may trade with. -/
def crossingQuantity (engine : Engine) (msg : InboundOrderMsg) : ℕ :=
  match engine.books msg.instrumentId with
  | none => 0
  | some book => ∑ i ∈ Finset.range book.grid.numLevels, restingQty engine.slab
      ((engine.queue msg.instrumentId msg.makerSide i).filter fun slot =>
        msg.accepts (engine.slab slot).price)

/-- The submitted order, which takes the first free slot, rests with what was
not executed. -/
def Rests (engine : Engine) (msg : InboundOrderMsg) (after : Engine) : Prop :=
  ∃ slot, engine.pool.freelistHead = some slot ∧
    (∃ side i, slot ∈ after.queue msg.instrumentId side i) ∧
    (after.slab slot).orderId = msg.orderId ∧ 0 < (after.slab slot).remaining ∧
    (after.slab slot).remaining + executedQty (engine.postedFor after) = msg.quantity.toNat

/-- The last report for the submitted order is final and accounts for its whole
quantity. -/
def Closed (engine : Engine) (msg : InboundOrderMsg) (after : Engine) : Prop :=
  ∃ report, (engine.postedFor after).getLast? = some report ∧ report.Closes ∧
    executedQty (engine.postedFor after) + report.leavesQuantity.toNat =
      msg.quantity.toNat

def Accounted (engine : Engine) (msg : InboundOrderMsg) : Prop :=
  Xor (engine.Rests msg (engine.dispatch msg)) (engine.Closed msg (engine.dispatch msg))

/-- The feasibility scan of a fill-or-kill order finds enough quantity. -/
def Feasible (engine : Engine) (msg : InboundOrderMsg) : Prop :=
  ∃ book, engine.books msg.instrumentId = some book ∧
    ¬ book.availableQuantityAtOrBetter msg.orderSide msg.price < msg.quantity

/-- The order is refused before it is matched, or its type and price provide
for every residual. -/
def Accountable (engine : Engine) (msg : InboundOrderMsg) : Prop :=
  engine.books msg.instrumentId = none ∨ engine.pool.freelistHead = none ∨
    (∃ byte, msg.orderType = .raw byte) ∨
    0 < msg.quantity.toNat ∧
      (msg.orderType = .market ∨ msg.orderType = .ioc ∨
        msg.orderType = .limit ∧
          ((∃ book, engine.books msg.instrumentId = some book ∧
              book.grid.isValidPrice msg.price = true) ∨
            msg.quantity.toNat ≤ engine.crossingQuantity msg) ∨
        msg.orderType = .fok ∧
          (¬ engine.Feasible msg ∨ msg.quantity.toNat ≤ engine.crossingQuantity msg))

end Engine

/-! ## Outcomes of the steps -/

section Outcome

variable {msg : InboundOrderMsg} {slot : Slot} {s s₀ s₁ s' : Snapshot}

theorem Snapshot.freelistHead_eq (s : Snapshot) : s.engine.pool.freelistHead = s.free.head? :=
  s.rep.freeList.chain.head_eq

theorem Snapshot.crossingQuantity_eq (s : Snapshot) (msg : InboundOrderMsg)
    {book : OrderBook} (hbook : s.engine.books msg.instrumentId = some book) :
    s.engine.crossingQuantity msg =
      s.crossing msg.instrumentId msg.makerSide book.grid.numLevels msg.accepts := by
  unfold Engine.crossingQuantity Snapshot.crossing Snapshot.slab
  rw [hbook, s.rep.queue_eq]

theorem postedFor_of_outbound {before after : Engine} {reports : List ExecutionReport}
    (houtbound : after.outbound = before.outbound ++ reports) :
    before.postedFor after = ownReports reports := by
  unfold Engine.postedFor
  rw [houtbound, List.drop_left]

theorem Admitted.crossing_eq (hadmitted : Admitted msg slot s s₀) (n : ℕ)
    (side : BookSide) (priceOk : Price → Bool) :
    s₀.crossing msg.instrumentId side n priceOk =
      s.crossing msg.instrumentId side n priceOk := by
  have hkept : ∀ i, ∀ other ∈ s.queues msg.instrumentId side i,
      s₀.slab other = s.slab other := by
    intro i other hother
    rw [← hadmitted.queues_eq] at hother
    exact hadmitted.others other (Snapshot.ne_of_isLoose hadmitted.loose hother)
  unfold Snapshot.crossing
  apply Finset.sum_congr rfl
  intro i _
  rw [hadmitted.queues_eq]
  have hfilter : ((s.queues msg.instrumentId side i).filter
      fun other => priceOk (s₀.slab other).price) =
        (s.queues msg.instrumentId side i).filter
          fun other => priceOk (s.slab other).price := by
    apply List.filter_congr
    intro other hother
    rw [hkept i other hother]
  rw [hfilter]
  apply restingQty_congr
  intro other hother
  rw [hkept i other (List.mem_filter.mp hother).1]

theorem Admitted.residual_eq (hadmitted : Admitted msg slot s s₀) {book : OrderBook}
    (hbook : s.engine.books msg.instrumentId = some book)
    (hswept : Swept msg.instrumentId slot msg.accepts s₀ s₁) :
    (s₁.slab slot).remaining = msg.quantity.toNat - s.engine.crossingQuantity msg := by
  have hbook₀ := hbook
  rw [← hadmitted.books_eq] at hbook₀
  have hremaining := hswept.remaining_eq hadmitted.loose hbook₀
  rw [hadmitted.makerSide_eq, hadmitted.crossing_eq, hadmitted.order] at hremaining
  rw [hremaining, s.crossingQuantity_eq msg hbook]
  rfl

theorem Admitted.freelistHead_eq (hadmitted : Admitted msg slot s s₀) :
    s.engine.pool.freelistHead = some slot := by
  rw [s.freelistHead_eq, hadmitted.free_eq]
  rfl

theorem Admitted.not_rests (hadmitted : Admitted msg slot s s₀)
    (hgone : ∀ instrumentId side i, slot ∉ s'.queues instrumentId side i) :
    ¬ s.engine.Rests msg s'.engine := by
  intro hrests
  rcases hrests with ⟨other, hhead, ⟨side, i, hmem⟩, _⟩
  rw [hadmitted.freelistHead_eq, Option.some.injEq] at hhead
  subst hhead
  rw [s'.rep.queue_eq] at hmem
  exact hgone _ _ _ hmem

theorem Admitted.exists_takers (hadmitted : Admitted msg slot s s₀)
    (hswept : Swept msg.instrumentId slot msg.accepts s₀ s₁) :
    ∃ fills, SweepReports slot msg.accepts s₀ s₁ fills ∧
      s₁.engine.outbound = s.engine.outbound ++ pairReports fills ∧
      executedQty (fills.map Prod.snd) + (s₁.slab slot).remaining = msg.quantity.toNat := by
  rcases hswept.exists_reports with ⟨fills, hfills, _⟩
  refine ⟨fills, hfills, ?_, ?_⟩
  · rw [hfills.outbound_eq, hadmitted.outbound_eq]
  · have hexecuted := executedQty_takers hfills
    rw [hadmitted.order] at hexecuted
    exact hexecuted

/-- A sweep without a further report closes the order exactly when it filled a
positive quantity. -/
theorem Admitted.closed_iff (hadmitted : Admitted msg slot s s₀)
    (hswept : Swept msg.instrumentId slot msg.accepts s₀ s₁)
    (houtbound : s'.engine.outbound = s₁.engine.outbound) :
    s.engine.Closed msg s'.engine ↔
      0 < msg.quantity.toNat ∧ (s₁.slab slot).remaining = 0 := by
  rcases hadmitted.exists_takers hswept with ⟨fills, hfills, htakers, hexecuted⟩
  have hposted : s.engine.postedFor s'.engine = fills.map Prod.snd := by
    rw [postedFor_of_outbound (houtbound.trans htakers)]
    have hown := ownReports_pairReports fills []
      (fun pair hpair => (hfills.trades pair hpair).1)
    simpa [ownReports] using hown
  have hzero : (s₁.slab slot).quantity = 0 ↔ (s₁.slab slot).remaining = 0 := by
    unfold Order.remaining
    rw [← UInt32.toNat_inj]
    rfl
  unfold Engine.Closed
  rw [hposted]
  constructor
  · intro hclosed
    rcases hclosed with ⟨report, hlast, hcloses, htotal⟩
    rw [List.getLast?_map, Option.map_eq_some_iff] at hlast
    rcases hlast with ⟨pair, hpair, rfl⟩
    rcases hfills.last pair hpair with ⟨hleaves, hkind⟩
    have hnone : (s₁.slab slot).quantity = 0 := by
      by_contra hne
      rw [if_neg hne] at hkind
      rcases hcloses with ⟨hfill, _⟩ | hack | hreject
      · rw [hkind] at hfill
        exact absurd hfill (by simp)
      · rw [hkind] at hack
        exact absurd hack (by simp)
      · rw [hkind] at hreject
        exact absurd hreject (by simp)
    have hstarted := hfills.started (List.ne_nil_of_mem (List.mem_of_getLast? hpair))
    rw [hadmitted.order] at hstarted
    exact ⟨hstarted, hzero.mp hnone⟩
  · intro hfilled
    rcases hfilled with ⟨hpositive, hremaining⟩
    cases hlast : fills.getLast? with
    | none =>
        rw [List.getLast?_eq_none_iff] at hlast
        subst hlast
        simp [executedQty] at hexecuted
        omega
    | some pair =>
        rcases hfills.last pair hlast with ⟨hleaves, hkind⟩
        have hquantity := hzero.mpr hremaining
        rw [if_pos hquantity] at hkind
        refine ⟨pair.2, by rw [List.getLast?_map, hlast]; rfl, Or.inl ⟨hkind, ?_⟩, ?_⟩
        · rw [hleaves, hquantity]
        · rw [hleaves]
          exact hexecuted

theorem closed_of_reject {timestampNs : UInt64}
    (houtbound : s'.engine.outbound =
      s.engine.outbound ++ [rejectReport msg.orderId msg.quantity timestampNs]) :
    s.engine.Closed msg s'.engine := by
  refine ⟨rejectReport msg.orderId msg.quantity timestampNs, ?_, Or.inr (Or.inr rfl), ?_⟩
  · rw [postedFor_of_outbound houtbound]
    rfl
  · rw [postedFor_of_outbound houtbound]
    simp [ownReports, executedQty, ExecutionReport.isTrade, rejectReport]

theorem Admitted.closed_of_ack (hadmitted : Admitted msg slot s s₀)
    (hswept : Swept msg.instrumentId slot msg.accepts s₀ s₁) {timestampNs : UInt64}
    (houtbound : s'.engine.outbound = s₁.engine.outbound ++
      [cancelAckReport msg.orderId (s₁.slab slot).quantity timestampNs]) :
    s.engine.Closed msg s'.engine := by
  rcases hadmitted.exists_takers hswept with ⟨fills, hfills, htakers, hexecuted⟩
  rw [htakers, List.append_assoc] at houtbound
  have hposted : s.engine.postedFor s'.engine = fills.map Prod.snd ++
      [cancelAckReport msg.orderId (s₁.slab slot).quantity timestampNs] := by
    rw [postedFor_of_outbound houtbound]
    exact ownReports_pairReports fills _ (fun pair hpair => (hfills.trades pair hpair).1)
  refine ⟨cancelAckReport msg.orderId (s₁.slab slot).quantity timestampNs, ?_,
    Or.inr (Or.inl rfl), ?_⟩
  · rw [hposted, List.getLast?_append]
    rfl
  · rw [hposted]
    have hnone : executedQty (fills.map Prod.snd ++
        [cancelAckReport msg.orderId (s₁.slab slot).quantity timestampNs]) =
          executedQty (fills.map Prod.snd) := by
      simp [executedQty, ExecutionReport.isTrade, cancelAckReport]
    rw [hnone]
    exact hexecuted

theorem Admitted.rests_of_rested (hadmitted : Admitted msg slot s s₀) {level : ℕ}
    (hswept : Swept msg.instrumentId slot msg.accepts s₀ s₁)
    (hrested : Rested msg.instrumentId slot level s₁ s') :
    s.engine.Rests msg s'.engine := by
  rcases hadmitted.exists_takers hswept with ⟨fills, hfills, htakers, hexecuted⟩
  have hresidual := hrested.unfilled
  have hremaining : (s'.engine.slab slot).remaining = (s₁.slab slot).remaining :=
    congrArg UInt32.toNat (hrested.quantity slot)
  have hposted : s.engine.postedFor s'.engine = fills.map Prod.snd := by
    rw [postedFor_of_outbound (hrested.outbound_eq.trans htakers)]
    have hown := ownReports_pairReports fills []
      (fun pair hpair => (hfills.trades pair hpair).1)
    simpa [ownReports] using hown
  refine ⟨slot, hadmitted.freelistHead_eq, ⟨(s₁.slab slot).side.bookSide, level, ?_⟩, ?_, ?_, ?_⟩
  · rw [s'.rep.queue_eq, hrested.queues_eq, Function.update_self, Queues.set_same]
    simp
  · exact (congrArg Order.Terms.orderId (hrested.terms slot)).trans
      (hadmitted.swept_terms hswept).1
  · omega
  · rw [hposted]
    omega

/-! ## The condition in each way of processing -/

theorem Snapshot.not_rests_of_refused
    (hwhy : s.engine.books msg.instrumentId = none ∨ s.free = [])
    (hbooks : s'.engine.books = s.engine.books) : ¬ s.engine.Rests msg s'.engine := by
  intro hrests
  rcases hrests with ⟨slot, hhead, ⟨side, i, hmem⟩, _⟩
  rcases hwhy with hunlisted | hexhausted
  · rw [s'.rep.queue_eq, s'.rep.unlisted] at hmem
    · exact absurd hmem (by simp)
    · rw [hbooks]
      exact hunlisted
  · rw [s.freelistHead_eq, hexhausted] at hhead
    exact absurd hhead (by simp)

theorem Snapshot.accountable_of_refused
    (hwhy : s.engine.books msg.instrumentId = none ∨ s.free = []) :
    s.engine.Accountable msg := by
  rcases hwhy with hunlisted | hexhausted
  · exact Or.inl hunlisted
  · right
    left
    rw [s.freelistHead_eq, hexhausted]
    rfl

theorem Admitted.not_rests_of_released (hadmitted : Admitted msg slot s s₀)
    (hreleased : Released slot s₁ s') : ¬ s.engine.Rests msg s'.engine := by
  apply hadmitted.not_rests
  rw [hreleased.queues_eq]
  exact hreleased.loose.notQueued

theorem accountable_of_rejected {engine : Engine} {book : OrderBook}
    (hbook : engine.books msg.instrumentId = some book)
    (hwhy : (∃ byte, msg.orderType = .raw byte) ∨ msg.orderType = .fok ∧
      book.availableQuantityAtOrBetter msg.orderSide msg.price < msg.quantity) :
    engine.Accountable msg := by
  rcases hwhy with hraw | ⟨htype, hshort⟩
  · exact Or.inr (Or.inr (Or.inl hraw))
  · have hpositive : 0 < msg.quantity.toNat := by
      rw [UInt32.lt_iff_toNat_lt] at hshort
      omega
    have hinfeasible : ¬ engine.Feasible msg := by
      intro hfeasible
      rcases hfeasible with ⟨book', hbook', henough⟩
      rw [hbook, Option.some.injEq] at hbook'
      subst hbook'
      exact henough hshort
    exact Or.inr (Or.inr (Or.inr ⟨hpositive,
      Or.inr (Or.inr (Or.inr ⟨htype, Or.inl hinfeasible⟩))⟩))

theorem Admitted.accountable_iff_of_completed (hadmitted : Admitted msg slot s s₀)
    {book : OrderBook} (hbook : s.engine.books msg.instrumentId = some book)
    (hswept : Swept msg.instrumentId slot msg.accepts s₀ s₁)
    (hwhy : (msg.orderType = .limit ∨ msg.orderType = .market ∨ msg.orderType = .ioc) ∧
        (s₁.slab slot).remaining = 0 ∨
      msg.orderType = .fok ∧
        ¬ book.availableQuantityAtOrBetter msg.orderSide msg.price < msg.quantity) :
    s.engine.Accountable msg ↔
      0 < msg.quantity.toNat ∧ (s₁.slab slot).remaining = 0 := by
  have hresidual := hadmitted.residual_eq hbook hswept
  have hlisted : s.engine.books msg.instrumentId ≠ none := by simp [hbook]
  have hfree : s.engine.pool.freelistHead ≠ none := by
    simp [hadmitted.freelistHead_eq]
  rw [hresidual]
  unfold Engine.Accountable
  rcases hwhy with ⟨htype, hzero⟩ | ⟨htype, henough⟩
  · rw [hresidual] at hzero
    have hle : msg.quantity.toNat ≤ s.engine.crossingQuantity msg := by omega
    rcases htype with htype | htype | htype <;>
      simp [hlisted, hfree, htype, hle, hzero]
  · have hfeasible : s.engine.Feasible msg := ⟨book, hbook, henough⟩
    simp [hlisted, hfree, htype, hfeasible, Nat.sub_eq_zero_iff_le]

theorem Admitted.quantity_pos (hadmitted : Admitted msg slot s s₀) {book : OrderBook}
    (hbook : s.engine.books msg.instrumentId = some book)
    (hswept : Swept msg.instrumentId slot msg.accepts s₀ s₁)
    (hresidual : 0 < (s₁.slab slot).remaining) : 0 < msg.quantity.toNat := by
  rw [hadmitted.residual_eq hbook hswept] at hresidual
  omega

theorem Admitted.not_accountable_of_lost (hadmitted : Admitted msg slot s s₀)
    {book : OrderBook} (hbook : s.engine.books msg.instrumentId = some book)
    (hswept : Swept msg.instrumentId slot msg.accepts s₀ s₁)
    (htype : msg.orderType = .limit) (hresidual : 0 < (s₁.slab slot).remaining)
    (hinvalid : book.grid.isValidPrice msg.price = false) :
    ¬ s.engine.Accountable msg := by
  have hfree : s.engine.pool.freelistHead ≠ none := by
    simp [hadmitted.freelistHead_eq]
  have hmore : ¬ msg.quantity.toNat ≤ s.engine.crossingQuantity msg := by
    rw [hadmitted.residual_eq hbook hswept] at hresidual
    omega
  unfold Engine.Accountable
  simp [hfree, htype, hmore, hbook, hinvalid]

theorem NewOrderStep.accounted_iff (hstep : NewOrderStep msg s s') :
    Xor (s.engine.Rests msg s'.engine) (s.engine.Closed msg s'.engine) ↔
      s.engine.Accountable msg := by
  cases hstep with
  | refused timestampNs hwhy hposted =>
      have hclosed : s.engine.Closed msg s'.engine := closed_of_reject hposted.outbound_eq
      have hrests := Snapshot.not_rests_of_refused hwhy hposted.books_eq
      exact iff_of_true (Or.inr ⟨hclosed, hrests⟩) (Snapshot.accountable_of_refused hwhy)
  | rejected slot book s₀ s₁ timestampNs hbook hadmitted hwhy hposted hreleased =>
      have hclosed : s.engine.Closed msg s'.engine := by
        apply closed_of_reject
        rw [hreleased.outbound_eq, hposted.outbound_eq, hadmitted.outbound_eq]
      have hrests := hadmitted.not_rests_of_released hreleased
      exact iff_of_true (Or.inr ⟨hclosed, hrests⟩) (accountable_of_rejected hbook hwhy)
  | completed slot book s₀ s₁ hbook hadmitted hswept hwhy hreleased =>
      have hrests := hadmitted.not_rests_of_released hreleased
      have hxor : Xor (s.engine.Rests msg s'.engine) (s.engine.Closed msg s'.engine) ↔
          s.engine.Closed msg s'.engine := by
        unfold Xor
        tauto
      rw [hxor, hadmitted.closed_iff hswept hreleased.outbound_eq,
        hadmitted.accountable_iff_of_completed hbook hswept hwhy]
  | acked slot book s₀ s₁ s₂ timestampNs hbook hadmitted hswept htype hresidual hposted
      hreleased =>
      have hclosed : s.engine.Closed msg s'.engine := by
        apply hadmitted.closed_of_ack hswept
        rw [hreleased.outbound_eq, hposted.outbound_eq]
      have hrests := hadmitted.not_rests_of_released hreleased
      have hpositive := hadmitted.quantity_pos hbook hswept hresidual
      have haccountable : s.engine.Accountable msg := by
        unfold Engine.Accountable
        tauto
      exact iff_of_true (Or.inr ⟨hclosed, hrests⟩) haccountable
  | rested slot book s₀ s₁ hbook hadmitted hswept htype hvalid hrested =>
      have hresidual := hrested.unfilled
      have hclosed : ¬ s.engine.Closed msg s'.engine := by
        rw [hadmitted.closed_iff hswept hrested.outbound_eq]
        omega
      have hrests := hadmitted.rests_of_rested hswept hrested
      have hpositive := hadmitted.quantity_pos hbook hswept hresidual
      have haccountable : s.engine.Accountable msg :=
        Or.inr (Or.inr (Or.inr ⟨hpositive,
          Or.inr (Or.inr (Or.inl ⟨htype, Or.inl ⟨book, hbook, hvalid⟩⟩))⟩))
      exact iff_of_true (Or.inl ⟨hrests, hclosed⟩) haccountable
  | lost slot book s₀ hbook hadmitted hswept htype hresidual hinvalid =>
      have hclosed : ¬ s.engine.Closed msg s'.engine := by
        rw [hadmitted.closed_iff hswept rfl]
        omega
      have hrests : ¬ s.engine.Rests msg s'.engine :=
        hadmitted.not_rests hswept.loose.notQueued
      apply iff_of_false _
        (hadmitted.not_accountable_of_lost hbook hswept htype hresidual hinvalid)
      unfold Xor
      tauto

/-- A limit order which is larger than what it can trade with rests when its
price is on the grid, and is dropped otherwise. -/
theorem NewOrderStep.residual_cases (hstep : NewOrderStep msg s s')
    (htype : msg.orderType = .limit) (hfree : s.engine.pool.freelistHead ≠ none)
    {book : OrderBook} (hbook : s.engine.books msg.instrumentId = some book)
    (hmore : s.engine.crossingQuantity msg < msg.quantity.toNat) :
    ∃ slot s₀ s₁, Admitted msg slot s s₀ ∧
      Swept msg.instrumentId slot msg.accepts s₀ s₁ ∧
      (book.grid.isValidPrice msg.price = true ∧
          Rested msg.instrumentId slot (book.grid.tickToIndex msg.price) s₁ s' ∨
        book.grid.isValidPrice msg.price = false ∧ s' = s₁) := by
  cases hstep with
  | refused _ hwhy =>
      rcases hwhy with hunlisted | hexhausted
      · rw [hunlisted] at hbook
        exact absurd hbook (by simp)
      · rw [s.freelistHead_eq, hexhausted] at hfree
        exact absurd rfl hfree
  | rejected slot book' s₀ s₁ _ _ _ hwhy =>
      rcases hwhy with ⟨byte, hraw⟩ | ⟨hfok, _⟩
      · rw [htype] at hraw
        exact absurd hraw (by simp)
      · rw [htype] at hfok
        exact absurd hfok (by simp)
  | completed slot book' s₀ s₁ hbook' hadmitted hswept hwhy =>
      rcases hwhy with ⟨_, hzero⟩ | ⟨hfok, _⟩
      · rw [hadmitted.residual_eq hbook' hswept] at hzero
        omega
      · rw [htype] at hfok
        exact absurd hfok (by simp)
  | acked slot book' s₀ s₁ s₂ _ _ _ _ hother =>
      rw [htype] at hother
      simp at hother
  | rested slot book' s₀ s₁ hbook' hadmitted hswept _ hvalid hrested =>
      rw [hbook, Option.some.injEq] at hbook'
      subst hbook'
      exact ⟨slot, s₀, s₁, hadmitted, hswept, Or.inl ⟨hvalid, hrested⟩⟩
  | lost slot book' s₀ hbook' hadmitted hswept _ _ hinvalid =>
      rw [hbook, Option.some.injEq] at hbook'
      subst hbook'
      exact ⟨slot, s₀, s', hadmitted, hswept, Or.inr ⟨hinvalid, rfl⟩⟩

theorem MessageStep.newOrder_step (hstep : MessageStep msg s s')
    (hkind : msg.kind = .newOrder) :
    ∃ s₁, NewOrderStep msg s s₁ ∧ Posted [] 0 s₁ s' := by
  cases hstep with
  | newOrder s₁ _ hstep hcounted => exact ⟨s₁, hstep, hcounted⟩
  | cancel s₁ hkind' =>
      rw [hkind] at hkind'
      simp at hkind'
  | ignored byte hkind' =>
      rw [hkind] at hkind'
      exact absurd hkind' (by simp)

end Outcome

theorem Snapshot.accounted_iff (s : Snapshot) {msg : InboundOrderMsg}
    (hkind : msg.kind = .newOrder) :
    s.engine.Accounted msg ↔ s.engine.Accountable msg := by
  rcases s.handleNewOrder_step msg with ⟨s', hengine, hstep⟩
  unfold Engine.Accounted
  rw [Engine.dispatch, hkind]
  simp only [← hengine]
  exact hstep.accounted_iff

/-- No order vanishes exactly when it is accountable, in every reachable
state. -/
theorem newOrder_accounted_iff (capacity : ℕ) (clock : ℕ → UInt64)
    (listings : List (InstrumentId × PriceGrid)) (events : List Engine.Event)
    (msg : InboundOrderMsg) (hkind : msg.kind = .newOrder) :
    ((Engine.listed capacity clock listings).run events).Accounted msg ↔
      ((Engine.listed capacity clock listings).run events).Accountable msg := by
  rcases exists_snapshot capacity clock listings events with ⟨s, hengine⟩
  rw [← hengine]
  exact s.accounted_iff hkind

/-! ### A limit order off the grid -/

/-- An ask of 3 at 103 is resting.  The buy of 5 at 104 takes it and rests with 2. -/
theorem newOrder_accounted_iff_sample :
    (sampleOrder 0 0 2 104 5).kind = .newOrder ∧
      ((sampleEngine.run [.message (sampleOrder 1 0 1 103 3)]).dispatch
        (sampleOrder 0 0 2 104 5)).fillsExecuted = 1 ∧
      (sampleEngine.run [.message (sampleOrder 1 0 1 103 3)]).Accounted
        (sampleOrder 0 0 2 104 5) := by
  refine ⟨rfl, by decide, (newOrder_accounted_iff 4 (fun _ => 0) [(0, sampleGrid)]
    [.message (sampleOrder 1 0 1 103 3)] _ rfl).mpr ?_⟩
  refine Or.inr (Or.inr (Or.inr ⟨by decide, Or.inr (Or.inr (Or.inl ⟨rfl, Or.inl ?_⟩))⟩))
  exact ⟨_, rfl, by decide⟩

/-- A limit buy of 5 at 95, below the grid, leaves neither a resting order nor
a report. -/
theorem newOrder_vanishes_off_grid :
    (sampleOrder 0 0 1 95 5).kind = .newOrder ∧
      ¬ (sampleEngine.run []).Accounted (sampleOrder 0 0 1 95 5) := by
  refine ⟨rfl, ?_⟩
  rcases exists_snapshot 4 (fun _ => 0) [(0, sampleGrid)] [] with ⟨s, hengine⟩
  have hnot : ¬ (sampleEngine.run []).Accountable (sampleOrder 0 0 1 95 5) := by
    have hcrossing : (sampleEngine.run []).crossingQuantity (sampleOrder 0 0 1 95 5) = 0 := by
      decide
    intro haccountable
    rcases haccountable with hunlisted | hexhausted | ⟨byte, hraw⟩ | ⟨_, hcases⟩
    · exact absurd hunlisted (by decide)
    · exact absurd hexhausted (by decide)
    · exact absurd hraw (by simp [sampleOrder, InboundOrderMsg.orderType, OrderType.ofByte])
    · rcases hcases with hmarket | hioc | ⟨_, ⟨book, hbook, hvalid⟩ | hle⟩ | ⟨hfok, _⟩
      · exact absurd hmarket (by decide)
      · exact absurd hioc (by decide)
      · have hsome : (sampleEngine.run []).books 0 = some (OrderBook.new 0 sampleGrid) := rfl
        rw [show (sampleOrder 0 0 1 95 5).instrumentId = 0 from rfl, hsome,
          Option.some.injEq] at hbook
        subst hbook
        exact absurd hvalid (by decide)
      · rw [hcrossing] at hle
        exact absurd hle (by decide)
      · exact absurd hfok (by decide)
  intro haccounted
  apply hnot
  unfold sampleEngine at *
  rw [← hengine] at haccounted ⊢
  exact (s.accounted_iff rfl).mp haccounted

end NanoMatch
