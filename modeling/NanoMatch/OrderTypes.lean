import NanoMatch.AlignedRuns
import NanoMatch.PoolAccounting

/-!
# Two order types with one outcome

Orders of different types are swept against the book by the same loop, with the limit
as the only difference.  Two such orders with the same id, side and quantity are
processed on the same slots and leave the same state wherever their limits accept the
same resting orders.

An IOC order at price 0 is documented as one at market.  For a sell this is what the
limit says, since 0 lies below every price.  For a buy the limit is taken literally,
and nothing is for sale at 0.
-/

namespace NanoMatch

open OrderBook

/-- The same reports and the same state after two ways of going on. -/
def Engine.SameOutcome (before after after' : Engine) : Prop :=
  before.postedViews after' = before.postedViews after ∧ after.SameState after'

section Outcome

variable {s s₀ t₀ a b a' b' : Snapshot} {instrumentId : InstrumentId}
  {msg msg' : InboundOrderMsg} {slot slot' : Slot}

theorem InStep.sameOutcome (hstep : InStep instrumentId s s a b) (hslots : SameSlots a b)
    (hothers : ∀ other, other ≠ instrumentId → Mirrors other a b) :
    s.engine.SameOutcome a.engine b.engine := by
  refine ⟨hstep.posted_eq.symm, hslots.sameState fun other => ?_⟩
  by_cases heq : other = instrumentId
  · rw [heq]
    exact hstep.mirrors
  · exact hothers other heq

/-- Two orders with the same id, side and quantity are admitted to the same slot. -/
theorem Admitted.alignedSweeps (ha : Admitted msg slot s a) (hb : Admitted msg' slot' s b)
    (hid : msg'.orderId = msg.orderId) (hside : msg'.side = msg.side)
    (hquantity : msg'.quantity = msg.quantity) (instrumentId : InstrumentId) :
    slot' = slot ∧ AlignedSweeps instrumentId slot s s a b := by
  rcases SameSlots.admitted ⟨rfl, rfl⟩ ha hb with ⟨rfl, hslots⟩
  refine ⟨rfl, ?_, hslots, ?_⟩
  · apply (InStep.start (Mirrors.refl instrumentId s)).quiet (ha.mirrors _) (hb.mirrors _)
      ha.outbound_eq hb.outbound_eq
    rw [hslots.free, Nat.add_comm]
  · refine ⟨?_, ?_, ?_, ha.loose, hb.loose⟩
    · rw [ha.order, hb.order]
      exact hid
    · rw [ha.order, hb.order]
      exact congrArg Side.ofByte hside
    · rw [ha.order, hb.order]
      exact hquantity

/-- Both orders leave the engine, with or without an acknowledged residual. -/
theorem AlignedSweeps.ends (hstate : AlignedSweeps instrumentId slot s₀ t₀ a b)
    {grid grid' : PriceGrid} {fate : Fate} (ha : Ends msg grid slot a a' fate)
    (hb : Ends msg' grid' slot b b' fate) (hid : msg'.orderId = msg.orderId)
    (hfate : fate = .released ∨ fate = .acked) :
    InStep instrumentId s₀ t₀ a' b' ∧ SameSlots a' b' := by
  rcases hfate with rfl | rfl
  · exact ⟨hstate.inStep.released ha hb, hstate.slots.released ha hb⟩
  · rcases ha with ⟨a₁, _, hposted, hreleased⟩
    rcases hb with ⟨b₁, _, hposted', hreleased'⟩
    refine ⟨(hstate.inStep.posted hposted hposted' ?_).released hreleased hreleased',
      (hstate.slots.posted hposted hposted').released hreleased hreleased'⟩
    rw [hid, hstate.taker.quantity]
    rfl

theorem InboundOrderMsg.fate_immediate (grid : PriceGrid) (residual : Quantity)
    (htype : msg.orderType = .market ∨ msg.orderType = .ioc) :
    msg.fate grid residual = if residual = 0 then .released else .acked := by
  unfold InboundOrderMsg.fate
  rcases htype with htype | htype <;> rw [htype]

/-- Every order but a FOK order is swept, if its instrument is listed and there is a slot
for it. -/
theorem NewOrderStep.swept (hstep : NewOrderStep msg s a)
    (htype : msg.orderType = .limit ∨ msg.orderType = .market ∨ msg.orderType = .ioc)
    {book : OrderBook} (hbook : s.engine.books msg.instrumentId = some book)
    (hfree : s.free ≠ []) :
    ∃ slot s₁ s₂, Admitted msg slot s s₁ ∧ Swept msg.instrumentId slot msg.accepts s₁ s₂ ∧
      Ends msg book.grid slot s₂ a (msg.fate book.grid (s₂.slab slot).quantity) := by
  rcases hstep.phases with ⟨hwhy, _⟩ | ⟨slot, book', s₁, hbook', hadmitted, hphases⟩
  · rw [hbook] at hwhy
    simp [hfree] at hwhy
  · rw [hbook, Option.some.injEq] at hbook'
    subst hbook'
    rcases hphases with ⟨hinfeasible, _⟩ | ⟨_, s₂, hswept, hends⟩
    · exact absurd hinfeasible (InboundOrderMsg.feasible_of_type book htype)
    · exact ⟨slot, s₁, s₂, hadmitted, hswept, hends⟩

/-- A market or IOC order is gone after its sweep. -/
theorem NewOrderStep.immediate (hstep : NewOrderStep msg s a)
    (htype : msg.orderType = .market ∨ msg.orderType = .ioc) {book : OrderBook}
    (hbook : s.engine.books msg.instrumentId = some book) (hfree : s.free ≠ []) :
    ∃ slot s₁ s₂ fate, Admitted msg slot s s₁ ∧
      Swept msg.instrumentId slot msg.accepts s₁ s₂ ∧ Ends msg book.grid slot s₂ a fate ∧
      fate = if (s₂.slab slot).quantity = 0 then .released else .acked := by
  rcases hstep.swept (Or.inr htype) hbook hfree with ⟨slot, s₁, s₂, hadmitted, hswept, hends⟩
  exact ⟨slot, s₁, s₂, _, hadmitted, hswept, hends, InboundOrderMsg.fate_immediate _ _ htype⟩

end Outcome

/-! ## IOC at price 0 -/

namespace InboundOrderMsg

/-- The message as an IOC order at price 0. -/
def iocAtZero (msg : InboundOrderMsg) : InboundOrderMsg :=
  { msg with kind := .newOrder, type := 2, price := 0 }

def asMarket (msg : InboundOrderMsg) : InboundOrderMsg :=
  { msg with kind := .newOrder, type := 1 }

end InboundOrderMsg

/-- The order does not buy, or there is nothing it could buy. -/
def Engine.NothingToBuy (engine : Engine) (msg : InboundOrderMsg) : Prop :=
  msg.side ≠ 0 ∨ msg.quantity = 0 ∨ engine.pool.freelistHead = none ∨
    engine.restingOn msg.instrumentId .ask = []

section AtMarket

variable {s a b : Snapshot} {msg : InboundOrderMsg} {book : OrderBook} {slot : Slot}

theorem InboundOrderMsg.orderSide_eq_buy_iff (msg : InboundOrderMsg) :
    msg.orderSide = .buy ↔ msg.side = 0 := by
  unfold InboundOrderMsg.orderSide Side.ofByte
  split_ifs with hbuy hsell
  · simp [hbuy]
  · simp [hbuy]
  · simp [hbuy]

theorem Snapshot.price_pos (hbook : s.engine.books msg.instrumentId = some book)
    (hmin : 0 < book.grid.minPrice) {side : BookSide} {i : ℕ} {slot : Slot}
    (hslot : slot ∈ s.queues msg.instrumentId side i) : 0 < (s.slab slot).price := by
  rw [Snapshot.price_of_mem hbook hslot]
  have hle := (book.grid.indexToPrice_le_iff 0 i).mpr (Nat.zero_le i)
  have hzero : book.grid.indexToPrice 0 = book.grid.minPrice := by
    simp [PriceGrid.indexToPrice]
  linarith

theorem Snapshot.restingOn_eq_nil (s : Snapshot) (instrumentId : InstrumentId)
    (side : BookSide) :
    s.engine.restingOn instrumentId side = [] ↔ ∀ i, s.queues instrumentId side i = [] := by
  simp only [List.eq_nil_iff_forall_not_mem, s.mem_restingOn_side]
  constructor
  · exact fun hnone i slot hslot => hnone slot ⟨i, hslot⟩
  · rintro hnone slot ⟨i, hslot⟩
    exact hnone i slot hslot

theorem InboundOrderMsg.accepts_asMarket (msg : InboundOrderMsg) (price : Price) :
    msg.asMarket.accepts price = true := rfl

theorem InboundOrderMsg.accepts_iocAtZero (msg : InboundOrderMsg) {price : Price}
    (hprice : 0 < price) : msg.iocAtZero.accepts price = decide (msg.side ≠ 0) := by
  have hside : msg.iocAtZero.orderSide = .buy ↔ msg.side = 0 :=
    msg.iocAtZero.orderSide_eq_buy_iff
  have haccepts : msg.iocAtZero.accepts price =
      if msg.iocAtZero.orderSide = .buy then decide (price ≤ 0) else decide (0 ≤ price) := rfl
  rw [haccepts]
  by_cases hbuy : msg.side = 0
  · rw [if_pos (hside.mpr hbuy)]
    simp [hbuy, hprice]
  · rw [if_neg (fun horder => hbuy (hside.mp horder))]
    simp [hbuy, hprice.le]

theorem InboundOrderMsg.makerSide_of_buy (hbuy : msg.side = 0) : msg.makerSide = .ask := by
  unfold InboundOrderMsg.makerSide
  rw [msg.orderSide_eq_buy_iff.mpr hbuy]
  rfl

/-- Neither limit stops the sweep earlier than the other where there is nothing to buy. -/
theorem Admitted.agreeOn (ha : Admitted msg.iocAtZero slot s a)
    (hbook : s.engine.books msg.instrumentId = some book) (hmin : 0 < book.grid.minPrice)
    (hfree : s.free ≠ []) (hnothing : s.engine.NothingToBuy msg) :
    AgreeOn msg.instrumentId slot msg.iocAtZero.accepts msg.asMarket.accepts a := by
  intro hunfilled i other hother
  have hbook' : a.engine.books msg.instrumentId = some book := by rw [ha.books_eq, hbook]
  rw [msg.accepts_asMarket, msg.accepts_iocAtZero (Snapshot.price_pos hbook' hmin hother)]
  rcases hnothing with hside | hquantity | hexhausted | hnone
  · simp [hside]
  · rw [ha.order] at hunfilled
    exact absurd (congrArg UInt32.toNat hquantity) hunfilled
  · rw [s.freelistHead_eq, List.head?_eq_none_iff] at hexhausted
    exact absurd hexhausted hfree
  · by_cases hbuy : msg.side = 0
    · rw [ha.queues_eq, ha.makerSide_eq, show msg.iocAtZero.makerSide = msg.makerSide from rfl,
        InboundOrderMsg.makerSide_of_buy hbuy, (s.restingOn_eq_nil _ _).mp hnone i] at hother
      exact absurd hother (by simp)
    · simp [hbuy]

/-- The two orders end alike where there is nothing to buy. -/
theorem NewOrderStep.sameOutcome_atMarket (ha : NewOrderStep msg.iocAtZero s a)
    (hb : NewOrderStep msg.asMarket s b)
    (hbook : s.engine.books msg.instrumentId = some book) (hmin : 0 < book.grid.minPrice)
    (hfree : s.free ≠ []) (hnothing : s.engine.NothingToBuy msg) :
    s.engine.SameOutcome a.engine b.engine := by
  rcases ha.immediate (Or.inr rfl) hbook hfree with
    ⟨slot, a₁, a₂, fate, hadmitted, hswept, hends, hfate⟩
  rcases hb.immediate (Or.inl rfl) hbook hfree with
    ⟨slot', b₁, b₂, fate', hadmitted', hswept', hends', hfate'⟩
  rcases hadmitted.alignedSweeps hadmitted' rfl rfl rfl msg.instrumentId with ⟨rfl, hstate⟩
  have hstate' := hswept.aligned hswept' hstate
    (hadmitted.agreeOn hbook hmin hfree hnothing)
  rw [hstate'.taker.quantity, ← hfate] at hfate'
  subst hfate'
  rcases hstate'.ends hends hends' rfl (by rw [hfate]; split_ifs <;> simp) with ⟨hstep, hslots⟩
  apply hstep.sameOutcome hslots
  intro other hne
  exact (ha.mirrors_other hne).symm.trans (hb.mirrors_other hne)

/-- A buy at price 0 does not trade. -/
theorem Swept.eq_of_rejecting {instrumentId : InstrumentId} {slot : Slot}
    {priceOk : Price → Bool} (hswept : Swept instrumentId slot priceOk s a)
    (hnone : ∀ i, ∀ other ∈ s.queues instrumentId (s.makerSide slot) i,
      priceOk (s.slab other).price = false) : a = s := by
  rcases hswept.trades.cases_head with hsame | ⟨next, hnext, _⟩
  · exact hsame.symm
  · exact absurd (Or.inr hnone) hnext.not_stopped

/-- A sweep which does not stop at once posts a trade first. -/
theorem Swept.first_trade {instrumentId : InstrumentId} {slot : Slot} {priceOk : Price → Bool}
    (hswept : Swept instrumentId slot priceOk s a)
    (hgoes : ¬ Stopped instrumentId slot priceOk s) :
    ∃ report, report.isTrade = true ∧ s.engine.outbound ++ [report] <+: a.engine.outbound := by
  rcases hswept.trades.cases_head with hsame | ⟨next, ⟨maker, level, behind, htraded, _⟩, hrest⟩
  · rw [← hsame] at hswept
    exact absurd hswept.stopped hgoes
  · rcases tradeReports_eq_pair (s.slab maker) (s.slab slot) (next.slab maker) (next.slab slot)
      (Engine.fillQuantity (s.slab maker) (s.slab slot))
      (s.engine.clock s.engine.clockReads, s.engine.clock (s.engine.clockReads + 1)) with
      ⟨pair, hpair, htrade, _⟩
    have hfirst : s.engine.outbound ++ [pair.1] <+: next.engine.outbound := by
      rw [htraded.outbound, hpair]
      exact ⟨[pair.2], by simp⟩
    have hlater : Swept instrumentId slot priceOk next a := ⟨hrest, hswept.loose, hswept.stopped⟩
    exact ⟨pair.1, htrade, hfirst.trans hlater.outbound_prefix⟩

theorem Engine.postedViews_of_append {before after : Engine} {reports : List ExecutionReport}
    (houtbound : after.outbound = before.outbound ++ reports) :
    before.postedViews after = reports.map ExecutionReport.view := by
  unfold Engine.postedViews
  rw [houtbound, List.drop_left]

/-- An IOC buy at price 0 is acknowledged as a whole. -/
theorem NewOrderStep.acked_atZero (ha : NewOrderStep msg.iocAtZero s a)
    (hbook : s.engine.books msg.instrumentId = some book) (hmin : 0 < book.grid.minPrice)
    (hfree : s.free ≠ []) (hbuy : msg.side = 0) (hquantity : msg.quantity ≠ 0) :
    ∃ leaves timestampNs, a.engine.outbound =
      s.engine.outbound ++ [cancelAckReport msg.orderId leaves timestampNs] := by
  rcases ha.immediate (Or.inr rfl) hbook hfree with
    ⟨slot, a₁, a₂, fate, hadmitted, hswept, hends, hfate⟩
  have hbook₁ : a₁.engine.books msg.instrumentId = some book := by
    rw [hadmitted.books_eq, hbook]
  have hidle : a₂ = a₁ := by
    apply hswept.eq_of_rejecting
    intro i other hother
    rw [msg.accepts_iocAtZero (Snapshot.price_pos hbook₁ hmin hother), hbuy]
    rfl
  have hresidual : (a₂.slab slot).quantity ≠ 0 := by
    rw [hidle, hadmitted.order]
    exact hquantity
  rw [if_neg hresidual] at hfate
  subst hfate
  rcases hends with ⟨a₃, timestampNs, hposted, hreleased⟩
  refine ⟨(a₂.slab slot).quantity, timestampNs, ?_⟩
  rw [hreleased.outbound_eq, hposted.outbound_eq, hidle, hadmitted.outbound_eq]
  rfl

/-- A market buy trades as long as an ask rests. -/
theorem NewOrderStep.trades_atMarket (hb : NewOrderStep msg.asMarket s b)
    (hbook : s.engine.books msg.instrumentId = some book) (hfree : s.free ≠ [])
    (hbuy : msg.side = 0) (hquantity : msg.quantity ≠ 0)
    (hasks : s.engine.restingOn msg.instrumentId .ask ≠ []) :
    ∃ report rest, report.isTrade = true ∧
      b.engine.outbound = s.engine.outbound ++ report :: rest := by
  rcases hb.immediate (Or.inl rfl) hbook hfree with
    ⟨slot, b₁, b₂, fate, hadmitted, hswept, hends, _⟩
  have hgoes : ¬ Stopped msg.instrumentId slot msg.asMarket.accepts b₁ := by
    rintro (hfilled | hnone)
    · rw [hadmitted.order] at hfilled
      exact hquantity (UInt32.toNat_inj.mp hfilled)
    · apply hasks
      rw [s.restingOn_eq_nil]
      intro i
      by_contra hsome
      rcases List.exists_mem_of_ne_nil _ hsome with ⟨other, hother⟩
      rw [hadmitted.queues_eq, hadmitted.makerSide_eq,
        show msg.asMarket.makerSide = msg.makerSide from rfl,
        InboundOrderMsg.makerSide_of_buy hbuy] at hnone
      exact absurd (hnone i other hother) (by simp [msg.accepts_asMarket])
  rcases hswept.first_trade hgoes with ⟨report, htrade, hfirst⟩
  rcases hfirst.trans hends.outbound_prefix with ⟨rest, hrest⟩
  rw [hadmitted.outbound_eq, List.append_assoc] at hrest
  exact ⟨report, rest, htrade, hrest.symm⟩

theorem NewOrderStep.nothingToBuy (ha : NewOrderStep msg.iocAtZero s a)
    (hb : NewOrderStep msg.asMarket s b)
    (hbook : s.engine.books msg.instrumentId = some book) (hmin : 0 < book.grid.minPrice)
    (hsame : s.engine.SameOutcome a.engine b.engine) : s.engine.NothingToBuy msg := by
  by_contra hbuys
  unfold Engine.NothingToBuy at hbuys
  simp only [not_or, ne_eq, not_not] at hbuys
  rcases hbuys with ⟨hbuy, hquantity, hhead, hasks⟩
  have hfree : s.free ≠ [] := by
    rw [s.freelistHead_eq, List.head?_eq_none_iff] at hhead
    exact hhead
  rcases ha.acked_atZero hbook hmin hfree hbuy hquantity with ⟨leaves, timestampNs, hacked⟩
  rcases hb.trades_atMarket hbook hfree hbuy hquantity hasks with ⟨report, rest, htrade, hrest⟩
  have hviews := hsame.1
  rw [Engine.postedViews_of_append hacked, Engine.postedViews_of_append hrest] at hviews
  have hkind : report.kind = .cancelAck :=
    congrArg Execution.kind (List.cons.inj hviews).1
  unfold ExecutionReport.isTrade at htrade
  rw [hkind] at htrade
  exact absurd htrade (by decide)

theorem Snapshot.sameOutcome_atMarket_iff (s : Snapshot) (msg : InboundOrderMsg)
    {book : OrderBook} (hbook : s.engine.books msg.instrumentId = some book)
    (hmin : 0 < book.grid.minPrice) :
    s.engine.SameOutcome (s.engine.dispatch msg.iocAtZero) (s.engine.dispatch msg.asMarket) ↔
      s.engine.NothingToBuy msg := by
  rcases s.handleNewOrder_step msg.iocAtZero with ⟨a, hengine, ha⟩
  rcases s.handleNewOrder_step msg.asMarket with ⟨b, hengine', hb⟩
  have hioc : s.engine.dispatch msg.iocAtZero = a.engine := hengine.symm
  have hmarket : s.engine.dispatch msg.asMarket = b.engine := hengine'.symm
  rw [hioc, hmarket]
  constructor
  · exact ha.nothingToBuy hb hbook hmin
  · intro hnothing
    by_cases hfree : s.free = []
    · have hrefused : ∀ {order : InboundOrderMsg} {after : Snapshot},
          NewOrderStep order s after → ∃ timestampNs,
            Posted [rejectReport order.orderId order.quantity timestampNs] 1 s after := by
        intro order after hstep
        rcases hstep.phases with ⟨_, hposted⟩ | ⟨slot, _, _, _, hadmitted, _⟩
        · exact hposted
        · have hcons := hadmitted.free_eq
          rw [hfree] at hcons
          exact absurd hcons (by simp)
      rcases hrefused ha with ⟨timestampNs, hposted⟩
      rcases hrefused hb with ⟨timestampNs', hposted'⟩
      have hstep : InStep msg.instrumentId s s a b :=
        (InStep.start (Mirrors.refl _ s)).posted hposted hposted' rfl
      apply hstep.sameOutcome (SameSlots.posted ⟨rfl, rfl⟩ hposted hposted')
      intro other _
      exact (hposted.mirrors other).symm.trans (hposted'.mirrors other)
    · exact ha.sameOutcome_atMarket hb hbook hmin hfree hnothing

end AtMarket

/-- An IOC order at price 0 does what a market order does exactly when it does not buy or
there is nothing to buy. -/
theorem ioc_atMarket_iff (capacity : ℕ) (clock : ℕ → UInt64)
    (listings : List (InstrumentId × PriceGrid)) (events : List Engine.Event)
    (msg : InboundOrderMsg) (engine : Engine) (book : OrderBook)
    (hengine : engine = (Engine.listed capacity clock listings).run events)
    (hbook : engine.books msg.instrumentId = some book) (hmin : 0 < book.grid.minPrice) :
    engine.SameOutcome (engine.dispatch msg.iocAtZero) (engine.dispatch msg.asMarket) ↔
      engine.NothingToBuy msg := by
  rcases exists_snapshot capacity clock listings events with ⟨s, hs⟩
  rw [← hengine] at hs
  rw [← hs] at hbook ⊢
  exact s.sameOutcome_atMarket_iff msg hbook hmin

/-- Two bids are resting. -/
def bidsBelow : Engine :=
  sampleEngine.run [.message (sampleOrder 0 0 1 104 5), .message (sampleOrder 0 0 2 103 4)]

/-- The IOC sell of 7 at 0 fills the first bid and 2 of the second, and so does the market
sell. -/
theorem ioc_atMarket_iff_sell :
    (0 : Price) < sampleGrid.minPrice ∧
      (bidsBelow.postedViews (bidsBelow.dispatch (sampleOrder 1 2 3 0 7))).map
        Execution.execQuantity = [5, 5, 2, 2] ∧
      bidsBelow.SameOutcome (bidsBelow.dispatch (sampleOrder 1 2 3 0 7))
        (bidsBelow.dispatch (sampleOrder 1 1 3 0 7)) := by
  refine ⟨by decide, by decide, ?_⟩
  exact (ioc_atMarket_iff 4 (fun _ => 0) [(0, sampleGrid)]
    [.message (sampleOrder 0 0 1 104 5), .message (sampleOrder 0 0 2 103 4)]
    (sampleOrder 1 2 3 0 7) bidsBelow _ rfl rfl (by decide)).mpr (Or.inl (by decide))

/-- An ask of 5 at 100 is resting.  The IOC buy at 0 trades nothing, the market buy
trades. -/
theorem ioc_buy_at_zero_idle :
    (sampleEngine.run [.message (sampleOrder 1 0 1 100 5)]).postedViews
        ((sampleEngine.run [.message (sampleOrder 1 0 1 100 5)]).dispatch
          (sampleOrder 0 2 2 0 5)) = [⟨.cancelAck, 2, 0, 0, 0, 5⟩] ∧
      ¬ (sampleEngine.run [.message (sampleOrder 1 0 1 100 5)]).SameOutcome
        ((sampleEngine.run [.message (sampleOrder 1 0 1 100 5)]).dispatch
          (sampleOrder 0 2 2 0 5))
        ((sampleEngine.run [.message (sampleOrder 1 0 1 100 5)]).dispatch
          (sampleOrder 0 1 2 0 5)) := by
  refine ⟨by decide, fun hsame => ?_⟩
  have hlength := congrArg List.length hsame.1
  exact absurd hlength (by decide)

end NanoMatch
