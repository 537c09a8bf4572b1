import NanoMatch.SweepAccounting

/-!
# The execution tape

Each message appends one block to the tape of reports.  A block is a single `Reject`,
or the trades of a sweep as maker/taker pairs with at most one `CancelAck` behind them,
or the answer to a cancellation.  Within a sweep every trade is at an accepted price, no
trade is at a better price than one before it, and only the last one can leave something
of its maker.  The two counters of the engine add up over the blocks.
-/

namespace NanoMatch

open OrderBook

/-- A trade, as its two reports tell it. -/
structure Trade where
  maker : OrderId
  price : Price
  quantity : Quantity
  makerLeaves : Quantity
  takerLeaves : Quantity
  timestamps : UInt64 × UInt64

/-- The maker report and the taker report. -/
def Trade.reports (taker : OrderId) (trade : Trade) : List ExecutionReport :=
  [{ kind := if trade.makerLeaves = 0 then .fill else .partialFill
     orderId := trade.maker
     counterpartOrderId := taker
     execPrice := trade.price
     execQuantity := trade.quantity
     leavesQuantity := trade.makerLeaves
     timestampNs := trade.timestamps.1 },
   { kind := if trade.takerLeaves = 0 then .fill else .partialFill
     orderId := taker
     counterpartOrderId := trade.maker
     execPrice := trade.price
     execQuantity := trade.quantity
     leavesQuantity := trade.takerLeaves
     timestampNs := trade.timestamps.2 }]

/-- The trades of an order of some quantity against one side, with what is left of it. -/
inductive Executes (side : BookSide) (accepts : Price → Bool) (quantity : ℕ) :
    List Trade → ℕ → Prop
  | none : Executes side accepts quantity [] quantity
  | trade {trades : List Trade} {left : ℕ} (trade : Trade)
      (hearlier : Executes side accepts quantity trades left)
      (hprior : ∀ earlier ∈ trades,
        earlier.makerLeaves = 0 ∧ side.NoWorse earlier.price trade.price)
      (haccepts : accepts trade.price = true) (hpos : 0 < trade.quantity.toNat)
      (hleaves : trade.takerLeaves.toNat + trade.quantity.toNat = left) :
      Executes side accepts quantity (trades ++ [trade]) trade.takerLeaves.toNat

/-- The reports of one message and what it adds to the counters. -/
structure Block where
  reports : List ExecutionReport
  fills : ℕ
  rejects : ℕ

/-- What a message can append to the tape. -/
inductive Tape (msg : InboundOrderMsg) : Block → Prop
  | unknown (byte : UInt8) (hkind : msg.kind = .raw byte) : Tape msg ⟨[], 0, 0⟩
  | notFound (hkind : msg.kind = .cancel ∨ msg.kind = .modify) : Tape msg ⟨[], 0, 0⟩
  | cancelled (leaves : Quantity) (timestampNs : UInt64)
      (hkind : msg.kind = .cancel ∨ msg.kind = .modify) (hpos : 0 < leaves) :
      Tape msg ⟨[cancelAckReport msg.orderId leaves timestampNs], 0, 0⟩
  | rejected (timestampNs : UInt64) (hkind : msg.kind = .newOrder) :
      Tape msg ⟨[rejectReport msg.orderId msg.quantity timestampNs], 0, 1⟩
  | traded {trades : List Trade} {left : ℕ} (hkind : msg.kind = .newOrder)
      (hexecutes : Executes msg.makerSide msg.accepts msg.quantity.toNat trades left)
      (hleft : left = 0 ∨ msg.orderType = .limit ∨ msg.orderType = .fok) :
      Tape msg ⟨trades.flatMap (Trade.reports msg.orderId), trades.length, 0⟩
  | acked {trades : List Trade} (leaves : Quantity) (timestampNs : UInt64)
      (hkind : msg.kind = .newOrder) (htype : msg.orderType = .market ∨ msg.orderType = .ioc)
      (hexecutes : Executes msg.makerSide msg.accepts msg.quantity.toNat trades leaves.toNat)
      (hpos : 0 < leaves) :
      Tape msg ⟨trades.flatMap (Trade.reports msg.orderId) ++
        [cancelAckReport msg.orderId leaves timestampNs], trades.length, 0⟩

/-! ## The trades of a sweep -/

/-- The trades of a sweep from `s` as far as `t`. -/
structure SweepTape (instrumentId : InstrumentId) (agg : Slot) (accepts : Price → Bool)
    (s t : Snapshot) (trades : List Trade) : Prop where
  outbound : t.engine.outbound =
    s.engine.outbound ++ trades.flatMap (Trade.reports (s.slab agg).orderId)
  fills : t.engine.fillsExecuted = s.engine.fillsExecuted + trades.length
  rejects : t.engine.ordersRejected = s.engine.ordersRejected
  executes : Executes (s.makerSide agg) accepts (s.slab agg).remaining trades
    (t.slab agg).remaining
  terms : (t.slab agg).terms = (s.slab agg).terms
  emptied : 0 < (t.slab agg).remaining → ∀ trade ∈ trades, trade.makerLeaves = 0
  worse : ∀ trade ∈ trades, ∀ i, ∀ slot ∈ t.queues instrumentId (s.makerSide agg) i,
    (s.makerSide agg).NoWorse trade.price (t.slab slot).price

section Sweep

variable {instrumentId : InstrumentId} {agg maker : Slot} {accepts : Price → Bool}
  {s t t' : Snapshot} {trades : List Trade} {level : ℕ} {behind : List Slot}

/-- No order on the other side has a better price than the maker. -/
theorem Traded.noWorse (htraded : Traded instrumentId agg maker level behind s t) {i : ℕ}
    {slot : Slot} (hslot : slot ∈ s.queues instrumentId (s.makerSide agg) i) :
    (s.makerSide agg).NoWorse (s.slab maker).price (s.slab slot).price := by
  rcases htraded.books with ⟨book, _, hbook, _⟩
  have hnonempty : s.queues instrumentId (s.makerSide agg) i ≠ [] := List.ne_nil_of_mem hslot
  rw [Snapshot.price_of_mem hbook htraded.maker_mem, Snapshot.price_of_mem hbook hslot]
  exact Snapshot.noWorse_of_not_better book.grid (htraded.best i hnonempty)

/-- The trade between two snapshots. -/
def tradeOf (agg maker : Slot) (s t : Snapshot) : Trade where
  maker := (s.slab maker).orderId
  price := (s.slab maker).price
  quantity := Engine.fillQuantity (s.slab maker) (s.slab agg)
  makerLeaves := (t.slab maker).quantity
  takerLeaves := (t.slab agg).quantity
  timestamps := (s.engine.clock s.engine.clockReads, s.engine.clock (s.engine.clockReads + 1))

theorem SweepTape.trade (htape : SweepTape instrumentId agg accepts s t trades)
    (htraded : Traded instrumentId agg maker level behind t t')
    (hok : accepts (t.slab maker).price = true) :
    SweepTape instrumentId agg accepts s t' (trades ++ [tradeOf agg maker t t']) := by
  have horderId : (t.slab agg).orderId = (s.slab agg).orderId :=
    congrArg Order.Terms.orderId htape.terms
  have hside : t.makerSide agg = s.makerSide agg := by
    unfold Snapshot.makerSide
    rw [show (t.slab agg).side = (s.slab agg).side from congrArg Order.Terms.side htape.terms]
  have hunfilled := htraded.unfilled
  have hmaker := htraded.maker_pos
  have hremaining := htraded.remaining_eq agg
  rw [if_pos (Or.inr rfl)] at hremaining
  have hfill := Engine.fillQuantity_toNat (t.slab maker) (t.slab agg)
  have hmem := htraded.maker_mem
  rw [hside] at hmem
  constructor
  · rw [htraded.outbound, htape.outbound, List.append_assoc, List.flatMap_append]
    rw [← horderId]
    simp [tradeReports, Trade.reports, tradeOf]
  · rw [htraded.fills, htape.fills, List.length_append]
    rfl
  · exact htraded.rejects.trans htape.rejects
  · apply Executes.trade (tradeOf agg maker t t') htape.executes
    · intro earlier hearlier
      exact ⟨htape.emptied hunfilled earlier hearlier,
        htape.worse earlier hearlier level maker hmem⟩
    · exact hok
    · change 0 < (Engine.fillQuantity (t.slab maker) (t.slab agg)).toNat
      omega
    · change (t'.slab agg).remaining + (Engine.fillQuantity (t.slab maker) (t.slab agg)).toNat = _
      omega
  · exact (htraded.terms agg).trans htape.terms
  · intro hleft trade htrade
    rcases List.mem_append.mp htrade with hold | hnew
    · exact htape.emptied hunfilled trade hold
    · rw [List.mem_singleton.mp hnew]
      change (t'.slab maker).quantity = 0
      rw [htraded.done_iff]
      omega
  · intro trade htrade i slot hslot
    have hbefore := htraded.queue_subset hslot
    rw [htraded.price_eq]
    rcases List.mem_append.mp htrade with hold | hnew
    · exact htape.worse trade hold i slot hbefore
    · rw [List.mem_singleton.mp hnew]
      have hworse : (t.makerSide agg).NoWorse (t.slab maker).price (t.slab slot).price := by
        apply htraded.noWorse
        rw [hside]
        exact hbefore
      rw [hside] at hworse
      exact hworse

theorem Swept.exists_tape (hswept : Swept instrumentId agg accepts s t) :
    ∃ trades, SweepTape instrumentId agg accepts s t trades := by
  apply hswept.induction (fun t => ∃ trades, SweepTape instrumentId agg accepts s t trades)
  · exact ⟨[], by simp, rfl, rfl, .none, rfl, by simp, by simp⟩
  · intro t t' maker level behind htraded hok htape
    rcases htape with ⟨trades, htape⟩
    exact ⟨_, htape.trade htraded hok⟩

end Sweep

/-! ## Messages -/

/-- What a step appends to the reports and adds to the counters. -/
structure Appends (block : Block) (s s' : Snapshot) : Prop where
  outbound : s'.engine.outbound = s.engine.outbound ++ block.reports
  fills : s'.engine.fillsExecuted = s.engine.fillsExecuted + block.fills
  rejects : s'.engine.ordersRejected = s.engine.ordersRejected + block.rejects

namespace Appends

variable {block block' : Block} {s s₁ s' : Snapshot} {msg : InboundOrderMsg} {slot : Slot}

theorem trans (hfirst : Appends block s s₁) (hsecond : Appends block' s₁ s') :
    Appends ⟨block.reports ++ block'.reports, block.fills + block'.fills,
      block.rejects + block'.rejects⟩ s s' where
  outbound := by rw [hsecond.outbound, hfirst.outbound, List.append_assoc]
  fills := by rw [hsecond.fills, hfirst.fills, Nat.add_assoc]
  rejects := by rw [hsecond.rejects, hfirst.rejects, Nat.add_assoc]

theorem of_eq (houtbound : s'.engine.outbound = s.engine.outbound)
    (hfills : s'.engine.fillsExecuted = s.engine.fillsExecuted)
    (hrejects : s'.engine.ordersRejected = s.engine.ordersRejected) :
    Appends ⟨[], 0, 0⟩ s s' :=
  ⟨by rw [houtbound, List.append_nil], hfills, hrejects⟩

theorem after (hsilent : Appends ⟨[], 0, 0⟩ s s₁) (happends : Appends block s₁ s') :
    Appends block s s' := by
  have hboth := hsilent.trans happends
  simpa using hboth

theorem before (happends : Appends block s s₁) (hsilent : Appends ⟨[], 0, 0⟩ s₁ s') :
    Appends block s s' := by
  have hboth := happends.trans hsilent
  simpa using hboth

theorem posted {reports : List ExecutionReport} {rejections : ℕ}
    (hposted : Posted reports rejections s s') : Appends ⟨reports, 0, rejections⟩ s s' :=
  ⟨hposted.outbound_eq, hposted.fills_eq, hposted.rejects_eq⟩

theorem admitted (hadmitted : Admitted msg slot s s') : Appends ⟨[], 0, 0⟩ s s' :=
  of_eq hadmitted.outbound_eq hadmitted.fills_eq hadmitted.rejects_eq

theorem released (hreleased : Released slot s s') : Appends ⟨[], 0, 0⟩ s s' :=
  of_eq hreleased.outbound_eq hreleased.fills_eq hreleased.rejects_eq

theorem rested {instrumentId : InstrumentId} {level : ℕ}
    (hrested : Rested instrumentId slot level s s') : Appends ⟨[], 0, 0⟩ s s' :=
  of_eq hrested.outbound_eq hrested.fills_eq hrested.rejects_eq

theorem removed {instrumentId : InstrumentId} {side : BookSide} {level : ℕ}
    {before after : List Slot}
    (hremoved : Removed instrumentId slot side level before after s s') :
    Appends ⟨[], 0, 0⟩ s s' :=
  of_eq hremoved.outbound_eq hremoved.fills_eq hremoved.rejects_eq

/-- The sweep of an admitted order. -/
theorem swept {s₀ : Snapshot} (hadmitted : Admitted msg slot s s₀)
    (hswept : Swept msg.instrumentId slot msg.accepts s₀ s₁) :
    ∃ trades, Executes msg.makerSide msg.accepts msg.quantity.toNat trades
        (s₁.slab slot).remaining ∧
      Appends ⟨trades.flatMap (Trade.reports msg.orderId), trades.length, 0⟩ s s₁ := by
  rcases hswept.exists_tape with ⟨trades, htape⟩
  have horderId : (s₀.slab slot).orderId = msg.orderId := by
    rw [hadmitted.order]
    rfl
  have hquantity : (s₀.slab slot).remaining = msg.quantity.toNat := by
    rw [hadmitted.order]
    rfl
  have houtbound := htape.outbound
  have hexecutes := htape.executes
  rw [horderId] at houtbound
  rw [hadmitted.makerSide_eq, hquantity] at hexecutes
  exact ⟨trades, hexecutes, (admitted hadmitted).after ⟨houtbound, htape.fills, htape.rejects⟩⟩

end Appends

section Messages

variable {msg : InboundOrderMsg} {s s' : Snapshot}

theorem NewOrderStep.tape (hkind : msg.kind = .newOrder) (hstep : NewOrderStep msg s s') :
    ∃ block, Tape msg block ∧ Appends block s s' := by
  cases hstep with
  | refused timestampNs _ hposted =>
      exact ⟨_, .rejected timestampNs hkind, .posted hposted⟩
  | rejected slot book s₀ s₁ timestampNs _ hadmitted _ hposted hreleased =>
      refine ⟨_, .rejected timestampNs hkind, ?_⟩
      exact ((Appends.admitted hadmitted).after (.posted hposted)).before (.released hreleased)
  | completed slot book s₀ s₁ _ hadmitted hswept hwhy hreleased =>
      rcases Appends.swept hadmitted hswept with ⟨trades, hexecutes, happends⟩
      refine ⟨_, .traded hkind hexecutes ?_, happends.before (.released hreleased)⟩
      rcases hwhy with ⟨_, hzero⟩ | ⟨hfok, _⟩
      · exact Or.inl hzero
      · exact Or.inr (Or.inr hfok)
  | acked slot book s₀ s₁ s₂ timestampNs _ hadmitted hswept htype hresidual hposted hreleased =>
      rcases Appends.swept hadmitted hswept with ⟨trades, hexecutes, happends⟩
      have hacked := (happends.trans (.posted hposted)).before (.released hreleased)
      refine ⟨_, .acked (s₁.slab slot).quantity timestampNs hkind htype hexecutes ?_, hacked⟩
      exact Quantity.pos_iff.mpr hresidual
  | rested slot book s₀ s₁ _ hadmitted hswept htype _ hrested =>
      rcases Appends.swept hadmitted hswept with ⟨trades, hexecutes, happends⟩
      exact ⟨_, .traded hkind hexecutes (Or.inr (Or.inl htype)), happends.before (.rested hrested)⟩
  | lost slot book s₀ _ hadmitted hswept htype _ _ =>
      rcases Appends.swept hadmitted hswept with ⟨trades, hexecutes, happends⟩
      exact ⟨_, .traded hkind hexecutes (Or.inr (Or.inl htype)), happends⟩

theorem CancelStep.tape (hkind : msg.kind = .cancel ∨ msg.kind = .modify)
    (hstep : CancelStep msg s s') : ∃ block, Tape msg block ∧ Appends block s s' := by
  cases hstep with
  | ignored hsame _ =>
      rw [hsame]
      exact ⟨_, .notFound hkind, .of_eq rfl rfl rfl⟩
  | cancelled slot book side level before after s₁ s₂ timestampNs hbook _ _ hremoved hposted
      hreleased =>
      refine ⟨_, .cancelled (s.slab slot).quantity timestampNs hkind ?_, ?_⟩
      · apply Quantity.pos_iff.mpr
        apply (s.rep.bookRep _ book hbook).positive side level slot
        rw [hremoved.queue_eq]
        simp
      · exact ((Appends.removed hremoved).after (.posted hposted)).before (.released hreleased)

theorem MessageStep.tape (hstep : MessageStep msg s s') :
    ∃ block, Tape msg block ∧ Appends block s s' := by
  cases hstep with
  | newOrder s₁ hkind hstep hcounted =>
      rcases hstep.tape hkind with ⟨block, htape, happends⟩
      exact ⟨block, htape, happends.before (.posted hcounted)⟩
  | cancel s₁ hkind hstep hcounted =>
      rcases hstep.tape hkind with ⟨block, htape, happends⟩
      exact ⟨block, htape, happends.before (.posted hcounted)⟩
  | ignored byte hkind hcounted => exact ⟨_, .unknown byte hkind, .posted hcounted⟩

end Messages

/-! ## Runs -/

/-- The messages among the events, in order. -/
def messagesIn (events : List Engine.Event) : List InboundOrderMsg :=
  events.filterMap fun event =>
    match event with
    | .message msg => some msg
    | .reset => none

/-- The reports and counters of an engine, as blocks with one for each message. -/
structure Taped (msgs : List InboundOrderMsg) (blocks : List Block) (engine : Engine) : Prop where
  tapes : List.Forall₂ Tape msgs blocks
  outbound : engine.outbound = blocks.flatMap Block.reports
  fills : engine.fillsExecuted = (blocks.map Block.fills).sum
  rejects : engine.ordersRejected = (blocks.map Block.rejects).sum

theorem Taped.message {msgs : List InboundOrderMsg} {blocks : List Block} {s s' : Snapshot}
    {msg : InboundOrderMsg} (htaped : Taped msgs blocks s.engine) (hstep : MessageStep msg s s') :
    ∃ blocks, Taped (msgs ++ [msg]) blocks s'.engine := by
  rcases hstep.tape with ⟨block, htape, happends⟩
  refine ⟨blocks ++ [block], ?_, ?_, ?_, ?_⟩
  · exact List.rel_append htaped.tapes (.cons htape .nil)
  · rw [happends.outbound, htaped.outbound, List.flatMap_append]
    simp
  · rw [happends.fills, htaped.fills, List.map_append, List.sum_append]
    simp
  · rw [happends.rejects, htaped.rejects, List.map_append, List.sum_append]
    simp

/-- In every run, resets included, the tape is made of one block for each message. -/
theorem run_taped (capacity : ℕ) (clock : ℕ → UInt64)
    (listings : List (InstrumentId × PriceGrid)) (events : List Engine.Event) :
    ∃ blocks, Taped (messagesIn events) blocks
      ((Engine.listed capacity clock listings).run events) := by
  induction events using List.reverseRecOn with
  | nil =>
      rcases Snapshot.exists_initial capacity clock listings with ⟨s, hs⟩
      rcases hs.reports with ⟨houtbound, hfills, hrejects, _⟩
      rw [hs.engine_eq] at houtbound hfills hrejects
      exact ⟨[], .nil, houtbound, hfills, hrejects⟩
  | append_singleton events event ih =>
      rcases ih with ⟨blocks, htaped⟩
      rcases exists_snapshot capacity clock listings events with ⟨s, hengine⟩
      have hrun : (Engine.listed capacity clock listings).run (events ++ [event]) =
          s.engine.step event := by
        rw [hengine]
        simp [Engine.run]
      have hmessages : messagesIn (events ++ [event]) =
          messagesIn events ++ messagesIn [event] := List.filterMap_append
      rw [hrun, hmessages]
      rw [← hengine] at htaped
      cases event with
      | message msg =>
          rcases s.submit_step msg with ⟨s', hengine', hstep⟩
          change ∃ blocks, Taped (messagesIn events ++ [msg]) blocks (s.engine.submit msg)
          rw [← hengine']
          exact htaped.message hstep
      | reset =>
          change ∃ blocks, Taped (messagesIn events ++ []) blocks s.engine.resetState
          rw [List.append_nil]
          exact ⟨blocks, htaped.tapes, htaped.outbound, htaped.fills, htaped.rejects⟩

end NanoMatch
