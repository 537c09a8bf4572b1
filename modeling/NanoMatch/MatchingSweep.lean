import NanoMatch.EngineRepresentation

/-!
# The sweep

A `Snapshot` is an engine together with its free list and queues and the proof
that it represents them.  `Traded` says everything one iteration of the sweep
loop does to a snapshot; every property of a sweep is an induction over such
trades.  The loop ends when the incoming order is filled or when no order on
the other side passes the price check, never because its iteration bound is
used up.
-/

namespace NanoMatch

open OrderBook

structure Snapshot where
  engine : Engine
  queues : InstrumentId → Queues
  free : List Slot
  rep : EngineRep engine queues free

namespace Snapshot

def slab (s : Snapshot) : Slab := s.engine.slab

def IsLoose (s : Snapshot) (slot : Slot) : Prop :=
  Loose s.engine.pool.capacity s.queues s.free slot

/-- The side the order in `agg` trades against. -/
def makerSide (s : Snapshot) (agg : Slot) : BookSide :=
  (s.slab agg).side.bookSide.opposite

end Snapshot

/-- The two reports of one trade. -/
def tradeReports (maker taker maker' taker' : Order) (fill : Quantity)
    (timestamps : UInt64 × UInt64) : List ExecutionReport :=
  [{ kind := if maker'.quantity = 0 then .fill else .partialFill
     orderId := maker.orderId
     counterpartOrderId := taker.orderId
     execPrice := maker.price
     execQuantity := fill
     leavesQuantity := maker'.quantity
     timestampNs := timestamps.1 },
   { kind := if taker'.quantity = 0 then .fill else .partialFill
     orderId := taker.orderId
     counterpartOrderId := maker.orderId
     execPrice := maker.price
     execQuantity := fill
     leavesQuantity := taker'.quantity
     timestampNs := timestamps.2 }]

/-- One iteration of the sweep for the order in `agg`, against the head
`maker` of the best level. -/
structure Traded (instrumentId : InstrumentId) (agg maker : Slot) (level : ℕ)
    (behind : List Slot) (s s' : Snapshot) : Prop where
  unfilled : 0 < (s.slab agg).remaining
  queue_eq : s.queues instrumentId (s.makerSide agg) level = maker :: behind
  best : ∀ i, s.queues instrumentId (s.makerSide agg) i ≠ [] →
    ¬ (s.makerSide agg).Better i level
  terms : ∀ slot, (s'.slab slot).terms = (s.slab slot).terms
  quantity : ∀ slot, (s'.slab slot).quantity =
    if slot = maker ∨ slot = agg then
      (s.slab slot).quantity - Engine.fillQuantity (s.slab maker) (s.slab agg)
    else (s.slab slot).quantity
  queues' : s'.queues =
    if (s'.slab maker).quantity = 0 then
      Function.update s.queues instrumentId
        ((s.queues instrumentId).set (s.makerSide agg) level behind)
    else s.queues
  free' : s'.free = if (s'.slab maker).quantity = 0 then maker :: s.free else s.free
  books : ∃ book book', s.engine.books instrumentId = some book ∧
    s'.engine.books = Function.update s.engine.books instrumentId (some book') ∧
    book'.grid = book.grid ∧
    book'.orderIndex =
      if (s'.slab maker).quantity = 0 then
        book.orderIndex.erase (s.slab maker).orderId
      else book.orderIndex
  aggregates : ∀ book book', s.engine.books instrumentId = some book →
    s'.engine.books instrumentId = some book' →
    book.AggregatesSet book' (s.makerSide agg) level
      ((book.aggregates (s.makerSide agg) level).filled
        (Engine.fillQuantity (s.slab maker) (s.slab agg))
        (decide ((s'.slab maker).quantity = 0)))
  outbound : s'.engine.outbound = s.engine.outbound ++
    tradeReports (s.slab maker) (s.slab agg) (s'.slab maker) (s'.slab agg)
      (Engine.fillQuantity (s.slab maker) (s.slab agg))
      (s.engine.clock s.engine.clockReads, s.engine.clock (s.engine.clockReads + 1))
  fills : s'.engine.fillsExecuted = s.engine.fillsExecuted + 1
  rejects : s'.engine.ordersRejected = s.engine.ordersRejected
  capacity : s'.engine.pool.capacity = s.engine.pool.capacity

/-! ## One iteration -/

namespace Engine

theorem fillQuantity_toNat (rest agg : Order) :
    (fillQuantity rest agg).toNat = min rest.remaining agg.remaining := by
  unfold fillQuantity Order.remaining
  split_ifs with hlt
  · rw [UInt32.lt_iff_toNat_lt] at hlt
    omega
  · rw [UInt32.lt_iff_toNat_lt] at hlt
    omega

theorem fillQuantity_le_rest (rest agg : Order) :
    fillQuantity rest agg ≤ rest.quantity := by
  have hmin := fillQuantity_toNat rest agg
  rw [UInt32.le_iff_toNat_le, hmin]
  exact min_le_left _ _

theorem fillQuantity_le_agg (rest agg : Order) :
    fillQuantity rest agg ≤ agg.quantity := by
  have hmin := fillQuantity_toNat rest agg
  rw [UInt32.le_iff_toNat_le, hmin]
  exact min_le_right _ _

@[simp] theorem slab_release_terms (engine : Engine) (slot other : Slot) :
    ((engine.release slot).slab other).terms = (engine.slab other).terms := by
  simp [release, slab, OrderPool.release]

@[simp] theorem slab_release_quantity (engine : Engine) (slot other : Slot) :
    ((engine.release slot).slab other).quantity = (engine.slab other).quantity := by
  simp [release, slab, OrderPool.release]

/-- The engine after a trade and its two reports, before the maker is
released. -/
def settled (engine : Engine) (instrumentId : InstrumentId) (agg rest : Slot)
    (fillQty : Quantity) (result : Bool × Slab × OrderBook) : Engine :=
  { engine with
    pool := { engine.pool with storage := result.2.1 }
    books := Function.update engine.books instrumentId (some result.2.2)
    fillsExecuted := engine.fillsExecuted + 1
    outbound := engine.outbound ++
      [{ kind := if result.1 then .fill else .partialFill
         orderId := (result.2.1 rest).orderId
         counterpartOrderId := (result.2.1 agg).orderId
         execPrice := (engine.slab rest).price
         execQuantity := fillQty
         leavesQuantity := (result.2.1 rest).quantity
         timestampNs := engine.clock engine.clockReads }] ++
      [{ kind := if (result.2.1 agg).quantity = 0 then .fill else .partialFill
         orderId := (result.2.1 agg).orderId
         counterpartOrderId := (result.2.1 rest).orderId
         execPrice := (engine.slab rest).price
         execQuantity := fillQty
         leavesQuantity := (result.2.1 agg).quantity
         timestampNs := engine.clock (engine.clockReads + 1) }]
    clockReads := engine.clockReads + 1 + 1 }

theorem trade_eq (engine : Engine) (instrumentId : InstrumentId) (book : OrderBook)
    (agg rest : Slot) {fillQty : Quantity} {result : Bool × Slab × OrderBook}
    (hfill : fillQty = fillQuantity (engine.slab rest) (engine.slab agg))
    (hresult : result = fillRestingOrder
      (engine.slab.setQuantity agg ((engine.slab agg).quantity - fillQty)) book
      (some rest) fillQty) :
    engine.trade instrumentId book agg rest =
      if result.1 then (engine.settled instrumentId agg rest fillQty result).release rest
      else engine.settled instrumentId agg rest fillQty result := by
  subst hfill hresult
  rfl

end Engine

theorem Queues.mem_of_mem_set {queues : Queues} {side side' : BookSide} {i j : ℕ}
    {slots : List Slot} {slot : Slot} (hsubset : slots ⊆ queues side i)
    (hslot : slot ∈ queues.set side i slots side' j) : slot ∈ queues side' j := by
  by_cases hlevel : side' = side ∧ j = i
  · rcases hlevel with ⟨rfl, rfl⟩
    rw [Queues.set_same] at hslot
    exact hsubset hslot
  · rwa [Queues.set_of_ne queues slots hlevel] at hslot

theorem Quantity.sub_eq_zero_iff {quantity taken : Quantity} (hle : taken ≤ quantity) :
    quantity - taken = 0 ↔ taken = quantity := by
  constructor
  · intro hzero
    by_contra hne
    exact Quantity.ne_zero_of_pos (Quantity.sub_pos hle hne) hzero
  · intro heq
    rw [heq, UInt32.sub_self]

namespace Snapshot

section Trade

variable {s : Snapshot} {instrumentId : InstrumentId} {book : OrderBook} {agg maker : Slot}
  {level : ℕ} {behind : List Slot}

theorem ne_of_isLoose {slot other : Slot} {side : BookSide} {i : ℕ} (hloose : s.IsLoose slot)
    (hother : other ∈ s.queues instrumentId side i) : other ≠ slot := by
  rintro rfl
  exact hloose.notQueued _ _ _ hother

theorem filled_of_trade (hloose : s.IsLoose agg)
    (hbook : s.engine.books instrumentId = some book)
    (hqueue : s.queues instrumentId (s.makerSide agg) level = maker :: behind)
    {fill : Quantity} (hfill : fill = Engine.fillQuantity (s.slab maker) (s.slab agg))
    (quantity : Quantity) :
    BookRep.Filled (s.slab.setQuantity agg quantity) book (s.queues instrumentId)
      (s.makerSide agg) level [] maker behind fill
      (fillRestingOrder (s.slab.setQuantity agg quantity) book (some maker) fill) := by
  have hkept : ∀ side i, ∀ slot ∈ s.queues instrumentId side i,
      s.slab.setQuantity agg quantity slot = s.slab slot := by
    intro side i slot hslot
    exact Function.update_of_ne (ne_of_isLoose hloose hslot) _ _
  have hmaker : maker ∈ s.queues instrumentId (s.makerSide agg) level := by
    rw [hqueue]
    simp
  apply ((s.rep.bookRep _ book hbook).congr_of_mem hkept).fillRestingOrder hqueue
  rw [hkept _ _ maker hmaker, hfill]
  exact Engine.fillQuantity_le_rest _ _

/-- After a trade every slot has its old terms, and only the two parties have a
new quantity. -/
theorem orders_of_trade (hne : maker ≠ agg) {fill : Quantity}
    {result : Bool × Slab × OrderBook}
    (hfilled : BookRep.Filled (s.slab.setQuantity agg ((s.slab agg).quantity - fill)) book
      (s.queues instrumentId) (s.makerSide agg) level [] maker behind fill result)
    (slot : Slot) :
    (result.2.1 slot).terms = (s.slab slot).terms ∧
      (result.2.1 slot).quantity =
        if slot = maker ∨ slot = agg then (s.slab slot).quantity - fill
        else (s.slab slot).quantity := by
  constructor
  · rw [hfilled.terms slot, Slab.terms_setQuantity]
  · rw [hfilled.quantity slot]
    by_cases hmaker : slot = maker
    · subst hmaker
      simp [hne]
    · by_cases hagg : slot = agg
      · subst hagg
        simp [hmaker]
      · simp [hmaker, hagg]

theorem settled_rep (hloose : s.IsLoose agg)
    (hbook : s.engine.books instrumentId = some book)
    (hqueue : s.queues instrumentId (s.makerSide agg) level = maker :: behind)
    {fill : Quantity} {result : Bool × Slab × OrderBook}
    (hfilled : BookRep.Filled (s.slab.setQuantity agg ((s.slab agg).quantity - fill)) book
      (s.queues instrumentId) (s.makerSide agg) level [] maker behind fill result) :
    EngineRep (s.engine.settled instrumentId agg maker fill result)
      (Function.update s.queues instrumentId
        (if result.1 then (s.queues instrumentId).set (s.makerSide agg) level behind
          else s.queues instrumentId)) s.free := by
  have hsubset : behind ⊆ s.queues instrumentId (s.makerSide agg) level := by
    rw [hqueue]
    exact List.subset_cons_self _ _
  have hreduced : EngineRep
      (s.engine.setSlab (s.slab.setQuantity agg ((s.slab agg).quantity - fill)))
      s.queues s.free := by
    apply s.rep.setSlab hloose
    intro other hne
    exact Function.update_of_ne hne _ _
  have hwritten := hreduced.setBook hbook result.2 hfilled.rep ?_ hfilled.terms ?_
  · exact hwritten.congr rfl rfl rfl
  · intro side i slot hslot
    left
    cases hdone : result.1 with
    | true =>
        simp only [hdone, if_true] at hslot
        exact ⟨side, i, Queues.mem_of_mem_set hsubset hslot⟩
    | false =>
        simp only [hdone, Bool.false_eq_true, if_false] at hslot
        exact ⟨side, i, hslot⟩
  · intro slot hslot _
    exact hfilled.outside slot (hslot _ _)

theorem mem_of_mem_behind
    (hqueue : s.queues instrumentId (s.makerSide agg) level = maker :: behind)
    {instrumentId' : InstrumentId} {side : BookSide} {i : ℕ} {slot : Slot}
    (hslot : slot ∈ Function.update s.queues instrumentId
      ((s.queues instrumentId).set (s.makerSide agg) level behind) instrumentId' side i) :
    slot ∈ s.queues instrumentId' side i := by
  rw [Queues.update_set] at hslot
  split_ifs at hslot with hat
  · rcases hat with ⟨rfl, rfl, rfl⟩
    rw [hqueue]
    exact List.mem_cons_of_mem _ hslot
  · exact hslot

theorem maker_notMem_behind (hbook : s.engine.books instrumentId = some book)
    (hqueue : s.queues instrumentId (s.makerSide agg) level = maker :: behind)
    (instrumentId' : InstrumentId) (side : BookSide) (i : ℕ) :
    maker ∉ Function.update s.queues instrumentId
      ((s.queues instrumentId).set (s.makerSide agg) level behind) instrumentId' side i := by
  intro hmem
  have hmaker : maker ∈ s.queues instrumentId (s.makerSide agg) level := by
    rw [hqueue]
    simp
  have hold := mem_of_mem_behind hqueue hmem
  rcases s.rep.queue_unique hmaker hold with ⟨rfl, rfl, rfl⟩
  rw [Function.update_self, Queues.set_same] at hmem
  have hnodup := ((s.rep.bookRep _ book hbook).linked (s.makerSide agg) i).nodup
  rw [hqueue] at hnodup
  exact (List.nodup_cons.mp hnodup).1 hmem

theorem settled_outbound (hne : maker ≠ agg) {fill : Quantity}
    {result : Bool × Slab × OrderBook}
    (hfilled : BookRep.Filled (s.slab.setQuantity agg ((s.slab agg).quantity - fill)) book
      (s.queues instrumentId) (s.makerSide agg) level [] maker behind fill result)
    (hdone : result.1 = true ↔ (result.2.1 maker).quantity = 0) :
    (s.engine.settled instrumentId agg maker fill result).outbound =
      s.engine.outbound ++ tradeReports (s.slab maker) (s.slab agg) (result.2.1 maker)
        (result.2.1 agg) fill
        (s.engine.clock s.engine.clockReads, s.engine.clock (s.engine.clockReads + 1)) := by
  have hmakerId : (result.2.1 maker).orderId = (s.slab maker).orderId :=
    congrArg Order.Terms.orderId (orders_of_trade hne hfilled maker).1
  have haggId : (result.2.1 agg).orderId = (s.slab agg).orderId :=
    congrArg Order.Terms.orderId (orders_of_trade hne hfilled agg).1
  simp only [Engine.settled, tradeReports, hmakerId, haggId, hdone, List.append_assoc,
    List.singleton_append]
  rfl

/-- The flag which decides about the release of the maker. -/
theorem done_of_trade (hne : maker ≠ agg) {result : Bool × Slab × OrderBook}
    {fill : Quantity} (hfill : Engine.fillQuantity (s.slab maker) (s.slab agg) = fill)
    (hfilled : BookRep.Filled (s.slab.setQuantity agg ((s.slab agg).quantity - fill)) book
      (s.queues instrumentId) (s.makerSide agg) level [] maker behind fill result) :
    result.1 = true ↔ (result.2.1 maker).quantity = 0 := by
  have hle : fill ≤ (s.slab maker).quantity := by
    rw [← hfill]
    exact Engine.fillQuantity_le_rest _ _
  rw [hfilled.done_iff, (orders_of_trade hne hfilled maker).2, if_pos (Or.inl rfl),
    Quantity.sub_eq_zero_iff hle]
  simp [hne]

/-- The state after the two reports, whether or not the maker has been released: a
release changes neither terms nor quantities. -/
structure AfterSettling (s s' : Snapshot) (instrumentId : InstrumentId) (agg maker : Slot)
    (fill : Quantity) (result : Bool × Slab × OrderBook) : Prop where
  books : s'.engine.books = Function.update s.engine.books instrumentId (some result.2.2)
  terms : ∀ slot, (s'.slab slot).terms = (result.2.1 slot).terms
  quantity : ∀ slot, (s'.slab slot).quantity = (result.2.1 slot).quantity
  outbound : s'.engine.outbound =
    (s.engine.settled instrumentId agg maker fill result).outbound
  fills : s'.engine.fillsExecuted = s.engine.fillsExecuted + 1
  rejects : s'.engine.ordersRejected = s.engine.ordersRejected
  capacity : s'.engine.pool.capacity = s.engine.pool.capacity

theorem AfterSettling.traded {s' : Snapshot} {fill : Quantity}
    {result : Bool × Slab × OrderBook}
    (hsettled : AfterSettling s s' instrumentId agg maker fill result)
    (hbook : s.engine.books instrumentId = some book) (hne : maker ≠ agg)
    (hunfilled : 0 < (s.slab agg).remaining)
    (hqueue : s.queues instrumentId (s.makerSide agg) level = maker :: behind)
    (hbest : ∀ i, s.queues instrumentId (s.makerSide agg) i ≠ [] →
      ¬ (s.makerSide agg).Better i level)
    (hfill : Engine.fillQuantity (s.slab maker) (s.slab agg) = fill)
    (hfilled : BookRep.Filled (s.slab.setQuantity agg ((s.slab agg).quantity - fill)) book
      (s.queues instrumentId) (s.makerSide agg) level [] maker behind fill result)
    (hqueues : s'.queues = if (result.2.1 maker).quantity = 0 then
        Function.update s.queues instrumentId
          ((s.queues instrumentId).set (s.makerSide agg) level behind)
      else s.queues)
    (hfree : s'.free = if (result.2.1 maker).quantity = 0 then maker :: s.free else s.free) :
    Traded instrumentId agg maker level behind s s' := by
  have hdone := done_of_trade hne hfill hfilled
  have horders := orders_of_trade hne hfilled
  constructor
  · exact hunfilled
  · exact hqueue
  · exact hbest
  · intro slot
    exact (hsettled.terms slot).trans (horders slot).1
  · intro slot
    rw [hfill]
    exact (hsettled.quantity slot).trans (horders slot).2
  · rwa [hsettled.quantity maker]
  · rwa [hsettled.quantity maker]
  · refine ⟨book, result.2.2, hbook, hsettled.books, hfilled.grid, ?_⟩
    have hid : (s.slab.setQuantity agg ((s.slab agg).quantity - fill) maker).orderId =
        (s.slab maker).orderId := congrArg Order.Terms.orderId (Slab.terms_setQuantity ..)
    rw [hsettled.quantity maker]
    simpa only [hid, hdone] using hfilled.index
  · intro old new hold hnew
    rw [hbook, Option.some.injEq] at hold
    rw [hsettled.books, Function.update_self, Option.some.injEq] at hnew
    have hflag : result.1 = decide ((result.2.1 maker).quantity = 0) := by
      rw [Bool.eq_iff_iff, hdone, decide_eq_true_eq]
    rw [← hold, ← hnew, hsettled.quantity maker, hfill, ← hflag]
    exact hfilled.aggregates
  · rw [hsettled.outbound, hfill]
    simp only [tradeReports, hsettled.quantity]
    exact settled_outbound hne hfilled hdone
  · exact hsettled.fills
  · exact hsettled.rejects
  · exact hsettled.capacity

end Trade

end Snapshot

/-! ## Consequences of one trade -/

namespace Traded

variable {s s' : Snapshot} {instrumentId : InstrumentId} {agg maker : Slot} {level : ℕ}
  {behind : List Slot}

theorem maker_mem (htraded : Traded instrumentId agg maker level behind s s') :
    maker ∈ s.queues instrumentId (s.makerSide agg) level := by
  rw [htraded.queue_eq]
  simp

theorem maker_pos (htraded : Traded instrumentId agg maker level behind s s') :
    0 < (s.slab maker).remaining := by
  rcases s.rep.listed_of_mem htraded.maker_mem with ⟨book, hbook⟩
  exact (s.rep.bookRep _ book hbook).positive _ _ _ htraded.maker_mem

theorem side_eq (htraded : Traded instrumentId agg maker level behind s s') (slot : Slot) :
    (s'.slab slot).side = (s.slab slot).side :=
  congrArg Order.Terms.side (htraded.terms slot)

theorem price_eq (htraded : Traded instrumentId agg maker level behind s s') (slot : Slot) :
    (s'.slab slot).price = (s.slab slot).price :=
  congrArg Order.Terms.price (htraded.terms slot)

theorem orderId_eq (htraded : Traded instrumentId agg maker level behind s s')
    (slot : Slot) : (s'.slab slot).orderId = (s.slab slot).orderId :=
  congrArg Order.Terms.orderId (htraded.terms slot)

theorem makerSide_eq (htraded : Traded instrumentId agg maker level behind s s') :
    s'.makerSide agg = s.makerSide agg := by
  unfold Snapshot.makerSide
  rw [htraded.side_eq agg]

/-- Both parties lose the smaller of their two quantities. -/
theorem remaining_eq (htraded : Traded instrumentId agg maker level behind s s')
    (slot : Slot) :
    (s'.slab slot).remaining =
      if slot = maker ∨ slot = agg then
        (s.slab slot).remaining - min (s.slab maker).remaining (s.slab agg).remaining
      else (s.slab slot).remaining := by
  unfold Order.remaining
  rw [htraded.quantity slot]
  split_ifs with hparty
  · rw [UInt32.toNat_sub_of_le, Engine.fillQuantity_toNat]
    · rfl
    · rcases hparty with rfl | rfl
      · exact Engine.fillQuantity_le_rest _ _
      · exact Engine.fillQuantity_le_agg _ _
  · rfl

theorem agg_remaining_lt (htraded : Traded instrumentId agg maker level behind s s') :
    (s'.slab agg).remaining < (s.slab agg).remaining := by
  have hmaker := htraded.maker_pos
  have hagg := htraded.unfilled
  rw [htraded.remaining_eq agg, if_pos (Or.inr rfl)]
  omega

theorem done_iff (htraded : Traded instrumentId agg maker level behind s s') :
    (s'.slab maker).quantity = 0 ↔
      (s.slab maker).remaining ≤ (s.slab agg).remaining := by
  have hmaker := htraded.maker_pos
  have hremaining := htraded.remaining_eq maker
  rw [if_pos (Or.inl rfl)] at hremaining
  have hzero : (s'.slab maker).quantity = 0 ↔ (s'.slab maker).remaining = 0 := by
    unfold Order.remaining
    rw [← UInt32.toNat_inj]
    rfl
  rw [hzero, hremaining]
  omega

theorem listed (htraded : Traded instrumentId agg maker level behind s s') :
    ∃ book, s'.engine.books instrumentId = some book := by
  rcases htraded.books with ⟨_, book, _, hbooks, _⟩
  exact ⟨book, by rw [hbooks, Function.update_self]⟩

theorem queue_subset (htraded : Traded instrumentId agg maker level behind s s')
    {instrumentId' : InstrumentId} {side : BookSide} {i : ℕ} {slot : Slot}
    (hslot : slot ∈ s'.queues instrumentId' side i) :
    slot ∈ s.queues instrumentId' side i := by
  rw [htraded.queues'] at hslot
  split_ifs at hslot with hdone
  · exact Snapshot.mem_of_mem_behind htraded.queue_eq hslot
  · exact hslot

theorem isLoose (htraded : Traded instrumentId agg maker level behind s s')
    (hloose : s.IsLoose agg) : s'.IsLoose agg := by
  refine ⟨?_, ?_, ?_⟩
  · rw [htraded.capacity]
    exact hloose.bound
  · rw [htraded.free']
    split_ifs with hdone
    · intro hmem
      rcases List.mem_cons.mp hmem with heq | hmem
      · exact Snapshot.ne_of_isLoose hloose htraded.maker_mem heq.symm
      · exact hloose.notFree hmem
    · exact hloose.notFree
  · intro instrumentId' side i hmem
    exact hloose.notQueued _ _ _ (htraded.queue_subset hmem)

end Traded

/-! ## The loop -/

/-- `price` is at least as good as `other` for an order trading against the
given side. -/
def BookSide.NoWorse : BookSide → Price → Price → Prop
  | .bid, price, other => other ≤ price
  | .ask, price, other => price ≤ other

/-- A check which accepts every price better than an accepted one. -/
def PriceCheck (side : BookSide) (priceOk : Price → Bool) : Prop :=
  ∀ price other, side.NoWorse price other → priceOk other = true → priceOk price = true

theorem priceCheck_limitOk (agg : Order) :
    PriceCheck agg.side.bookSide.opposite (Engine.limitOk agg) := by
  intro price other hworse hok
  unfold Engine.limitOk Order.isBuy at *
  cases hside : agg.side <;>
    simp [hside, Side.bookSide, BookSide.opposite, BookSide.NoWorse] at hworse hok ⊢ <;>
    linarith

theorem priceCheck_market (side : BookSide) : PriceCheck side (fun _ => true) := by
  intro price other _ _
  rfl

/-- A trade at an accepted price. -/
def SweepStep (instrumentId : InstrumentId) (agg : Slot) (priceOk : Price → Bool)
    (s s' : Snapshot) : Prop :=
  ∃ maker level behind, Traded instrumentId agg maker level behind s s' ∧
    priceOk (s.slab maker).price = true

/-- Nothing is left to trade. -/
def Stopped (instrumentId : InstrumentId) (agg : Slot) (priceOk : Price → Bool)
    (s : Snapshot) : Prop :=
  (s.slab agg).remaining = 0 ∨
    ∀ i, ∀ slot ∈ s.queues instrumentId (s.makerSide agg) i,
      priceOk (s.slab slot).price = false

/-- A sweep from one snapshot to another which ran to its end. -/
structure Swept (instrumentId : InstrumentId) (agg : Slot) (priceOk : Price → Bool)
    (s s' : Snapshot) : Prop where
  trades : Relation.ReflTransGen (SweepStep instrumentId agg priceOk) s s'
  loose : s'.IsLoose agg
  stopped : Stopped instrumentId agg priceOk s'

/-- What holds of the first snapshot and is kept by every trade holds of the
last one. -/
theorem sweep_induction {instrumentId : InstrumentId} {agg : Slot}
    {priceOk : Price → Bool} {s s' : Snapshot}
    (htrades : Relation.ReflTransGen (SweepStep instrumentId agg priceOk) s s')
    (motive : Snapshot → Prop) (hfirst : motive s)
    (htrade : ∀ s s' maker level behind, Traded instrumentId agg maker level behind s s' →
      priceOk (s.slab maker).price = true → motive s → motive s') : motive s' := by
  induction htrades with
  | refl => exact hfirst
  | tail _ hstep ih =>
      rcases hstep with ⟨maker, level, behind, htraded, hok⟩
      exact htrade _ _ maker level behind htraded hok ih

theorem Swept.induction {instrumentId : InstrumentId} {agg : Slot}
    {priceOk : Price → Bool} {s s' : Snapshot} (hswept : Swept instrumentId agg priceOk s s')
    (motive : Snapshot → Prop) (hfirst : motive s)
    (htrade : ∀ s s' maker level behind, Traded instrumentId agg maker level behind s s' →
      priceOk (s.slab maker).price = true → motive s → motive s') : motive s' :=
  sweep_induction hswept.trades motive hfirst htrade

namespace Swept

variable {s s' : Snapshot} {instrumentId : InstrumentId} {agg : Slot}
  {priceOk : Price → Bool}

theorem terms (hswept : Swept instrumentId agg priceOk s s') (slot : Slot) :
    (s'.slab slot).terms = (s.slab slot).terms := by
  apply hswept.induction (fun t => (t.slab slot).terms = (s.slab slot).terms) rfl
  intro t t' _ _ _ htraded _ ih
  exact (htraded.terms slot).trans ih

theorem makerSide_eq (hswept : Swept instrumentId agg priceOk s s') :
    s'.makerSide agg = s.makerSide agg := by
  unfold Snapshot.makerSide
  rw [show (s'.slab agg).side = (s.slab agg).side from
    congrArg Order.Terms.side (hswept.terms agg)]

theorem listed (hswept : Swept instrumentId agg priceOk s s') {book : OrderBook}
    (hbook : s.engine.books instrumentId = some book) :
    ∃ book', s'.engine.books instrumentId = some book' ∧ book'.grid = book.grid := by
  apply hswept.induction
    (fun t => ∃ book', t.engine.books instrumentId = some book' ∧ book'.grid = book.grid)
    ⟨book, hbook, rfl⟩
  intro t t' _ _ _ htraded _ ih
  rcases ih with ⟨old, hold, hgrid⟩
  rcases htraded.books with ⟨old', new, hold', hnew, hgrid', _⟩
  rw [hold, Option.some.injEq] at hold'
  subst hold'
  exact ⟨new, by rw [hnew, Function.update_self], hgrid'.trans hgrid⟩

end Swept

namespace Snapshot

variable {s : Snapshot} {instrumentId : InstrumentId} {book : OrderBook} {agg : Slot}
  {priceOk : Price → Bool}

/-- One iteration of the sweep, started at the best level of the other side. -/
theorem exists_traded {maker : Slot} {level : ℕ} {behind : List Slot} (hloose : s.IsLoose agg)
    (hbook : s.engine.books instrumentId = some book)
    (hunfilled : 0 < (s.slab agg).remaining)
    (hqueue : s.queues instrumentId (s.makerSide agg) level = maker :: behind)
    (hbest : ∀ i, s.queues instrumentId (s.makerSide agg) i ≠ [] →
      ¬ (s.makerSide agg).Better i level) :
    ∃ s' : Snapshot, s'.engine = s.engine.trade instrumentId book agg maker ∧
      Traded instrumentId agg maker level behind s s' ∧ s'.IsLoose agg := by
  have hmaker : maker ∈ s.queues instrumentId (s.makerSide agg) level := by
    rw [hqueue]
    simp
  have hne : maker ≠ agg := ne_of_isLoose hloose hmaker
  generalize hfill : Engine.fillQuantity (s.slab maker) (s.slab agg) = fill
  generalize hresult : fillRestingOrder
    (s.slab.setQuantity agg ((s.slab agg).quantity - fill)) book (some maker) fill = result
  have hfilled := filled_of_trade hloose hbook hqueue hfill.symm
    ((s.slab agg).quantity - fill)
  rw [hresult] at hfilled
  have hrep := settled_rep hloose hbook hqueue hfilled
  have hdone := done_of_trade hne hfill hfilled
  have htrade := s.engine.trade_eq instrumentId book agg maker hfill.symm hresult.symm
  cases hflag : result.1 with
  | false =>
      rw [hflag] at hdone htrade hrep
      simp only [Bool.false_eq_true, if_false, false_iff] at hdone htrade hrep
      rw [Function.update_eq_self] at hrep
      refine ⟨⟨_, _, _, hrep⟩, htrade.symm, ?_, hloose⟩
      have hsettled : AfterSettling s ⟨_, _, _, hrep⟩ instrumentId agg maker fill result :=
        ⟨rfl, fun _ => rfl, fun _ => rfl, rfl, rfl, rfl, rfl⟩
      exact hsettled.traded hbook hne hunfilled hqueue hbest hfill hfilled
        (if_neg hdone).symm (if_neg hdone).symm
  | true =>
      rw [hflag] at hdone htrade hrep
      simp only [if_true, true_iff] at hdone htrade hrep
      have hmakerLoose : Loose s.engine.pool.capacity (Function.update s.queues instrumentId
          ((s.queues instrumentId).set (s.makerSide agg) level behind)) s.free maker :=
        ⟨s.rep.bound _ _ _ _ hmaker, s.rep.separate _ _ _ _ hmaker,
          maker_notMem_behind hbook hqueue⟩
      have hreleased := hrep.release hmakerLoose
      have hsettled : AfterSettling s ⟨_, _, _, hreleased⟩ instrumentId agg maker fill result :=
        ⟨rfl, Engine.slab_release_terms _ maker, Engine.slab_release_quantity _ maker, rfl, rfl,
          rfl, rfl⟩
      have htraded := hsettled.traded hbook hne hunfilled hqueue hbest hfill hfilled
        (if_pos hdone).symm (if_pos hdone).symm
      exact ⟨⟨_, _, _, hreleased⟩, htrade.symm, htraded, htraded.isLoose hloose⟩

theorem price_of_mem (hbook : s.engine.books instrumentId = some book) {side : BookSide}
    {i : ℕ} {slot : Slot} (hslot : slot ∈ s.queues instrumentId side i) :
    (s.slab slot).price = book.grid.indexToPrice i :=
  ((s.rep.bookRep _ book hbook).placed side i slot hslot).price_eq

theorem noWorse_of_not_better (grid : PriceGrid) {side : BookSide} {i best : ℕ}
    (hworse : ¬ side.Better i best) :
    side.NoWorse (grid.indexToPrice best) (grid.indexToPrice i) := by
  cases side with
  | bid =>
      simp only [BookSide.Better] at hworse
      exact (grid.indexToPrice_le_iff _ _).mpr (by omega)
  | ask =>
      simp only [BookSide.Better] at hworse
      exact (grid.indexToPrice_le_iff _ _).mpr (by omega)

theorem bestLevel_none (hbook : s.engine.books instrumentId = some book) {side : BookSide}
    (hnone : book.bestLevel side = none) (i : ℕ) : s.queues instrumentId side i = [] := by
  have hcursor := (s.rep.bookRep _ book hbook).best side
  rw [OrderBook.bestLevel, Option.map_eq_none_iff] at hnone
  rw [hnone] at hcursor
  exact hcursor i

/-- The level behind a cursor has a head, and no better level has orders. -/
theorem bestLevel_some (hbook : s.engine.books instrumentId = some book) {side : BookSide}
    {best : PriceLevel} (hbest : book.bestLevel side = some best) :
    ∃ level maker behind, s.queues instrumentId side level = maker :: behind ∧
      best.head = some maker ∧ best.price = book.grid.indexToPrice level ∧
      ∀ i, s.queues instrumentId side i ≠ [] → ¬ side.Better i level := by
  have hrep := s.rep.bookRep _ book hbook
  have hcursor := hrep.best side
  rcases Option.map_eq_some_iff.mp hbest with ⟨level, hlevel, rfl⟩
  rw [hlevel] at hcursor
  have hlinked := hrep.linked side level
  cases hqueue : s.queues instrumentId side level with
  | nil => exact absurd hqueue hcursor.1
  | cons maker behind =>
      rw [hqueue] at hlinked
      exact ⟨level, maker, behind, hqueue, hlinked.head_eq, hrep.priced side level, hcursor.2⟩

theorem sweepStep_spec (hloose : s.IsLoose agg)
    (hbook : s.engine.books instrumentId = some book)
    (hcheck : PriceCheck (s.makerSide agg) priceOk) :
    match s.engine.sweepStep instrumentId agg priceOk with
    | none => Stopped instrumentId agg priceOk s
    | some next => ∃ s' : Snapshot, s'.engine = next ∧
        SweepStep instrumentId agg priceOk s s' ∧ s'.IsLoose agg := by
  simp only [Engine.sweepStep, hbook]
  by_cases hzero : (s.engine.slab agg).quantity = 0
  · rw [if_pos hzero]
    left
    unfold Order.remaining slab
    rw [hzero]
    rfl
  · rw [if_neg hzero]
    have hunfilled : 0 < (s.slab agg).remaining := by
      apply Nat.pos_of_ne_zero
      intro hremaining
      exact hzero (UInt32.toNat_inj.mp hremaining)
    have hside : (s.engine.slab agg).side.bookSide.opposite = s.makerSide agg := rfl
    rw [hside]
    cases hlevel : book.bestLevel (s.makerSide agg) with
    | none =>
        right
        intro i slot hslot
        rw [bestLevel_none hbook hlevel i] at hslot
        exact absurd hslot (by simp)
    | some best =>
        rcases bestLevel_some hbook hlevel with
          ⟨level, maker, behind, hqueue, hhead, hprice, hbest⟩
        simp only [hprice, hhead, Option.map_some]
        cases hok : priceOk (book.grid.indexToPrice level) with
        | false =>
            simp only [Bool.not_false, if_true]
            right
            intro i slot hslot
            rw [price_of_mem hbook hslot]
            have hworse := noWorse_of_not_better book.grid (hbest i (List.ne_nil_of_mem hslot))
            by_contra hother
            have haccepted := hcheck _ _ hworse (by simpa using hother)
            rw [hok] at haccepted
            exact absurd haccepted (by simp)
        | true =>
            simp only [Bool.not_true, Bool.false_eq_true, if_false]
            rcases exists_traded hloose hbook hunfilled hqueue hbest with
              ⟨s', hengine, htraded, hloose'⟩
            refine ⟨s', hengine, ⟨maker, level, behind, htraded, ?_⟩, hloose'⟩
            rw [price_of_mem hbook htraded.maker_mem]
            exact hok

/-- After any number of iterations the loop has traded, and with enough of them
nothing is left to trade. -/
theorem sweepFuel_spec (fuel : ℕ) (hloose : s.IsLoose agg)
    (hbook : s.engine.books instrumentId = some book)
    (hcheck : PriceCheck (s.makerSide agg) priceOk) :
    ∃ s' : Snapshot,
      s'.engine = Engine.sweepFuel instrumentId agg priceOk fuel s.engine ∧
        Relation.ReflTransGen (SweepStep instrumentId agg priceOk) s s' ∧
        s'.IsLoose agg ∧
        ((s.slab agg).remaining ≤ fuel → Stopped instrumentId agg priceOk s') := by
  induction fuel generalizing s book with
  | zero =>
      refine ⟨s, rfl, Relation.ReflTransGen.refl, hloose, fun hfuel => Or.inl ?_⟩
      omega
  | succ fuel ih =>
      have hstep := sweepStep_spec hloose hbook hcheck
      unfold Engine.sweepFuel
      cases hnext : s.engine.sweepStep instrumentId agg priceOk with
      | none =>
          rw [hnext] at hstep
          exact ⟨s, rfl, Relation.ReflTransGen.refl, hloose, fun _ => hstep⟩
      | some next =>
          rw [hnext] at hstep
          rcases hstep with ⟨s', hengine, htrade, hloose'⟩
          rcases htrade with ⟨maker, level, behind, htraded, hok⟩
          rcases htraded.listed with ⟨book', hbook'⟩
          have hless := htraded.agg_remaining_lt
          rw [← htraded.makerSide_eq] at hcheck
          rcases ih hloose' hbook' hcheck with ⟨s'', hengine', htrades, hloose'', hstopped⟩
          refine ⟨s'', ?_, ?_, hloose'', fun hfuel => hstopped (by omega)⟩
          · rw [hengine', hengine]
          · exact Relation.ReflTransGen.head ⟨maker, level, behind, htraded, hok⟩ htrades

theorem doSweep_exit (hloose : s.IsLoose agg)
    (hbook : s.engine.books instrumentId = some book)
    (hcheck : PriceCheck (s.makerSide agg) priceOk) :
    ∃ s' : Snapshot, s'.engine = s.engine.doSweep instrumentId agg priceOk ∧
      Swept instrumentId agg priceOk s s' := by
  rcases sweepFuel_spec (s.slab agg).remaining hloose hbook hcheck with
    ⟨s', hengine, htrades, hloose', hstopped⟩
  exact ⟨s', hengine, htrades, hloose', hstopped le_rfl⟩

theorem sweepLimit_exit (hloose : s.IsLoose agg)
    (hbook : s.engine.books instrumentId = some book) :
    ∃ s' : Snapshot, s'.engine = s.engine.sweepLimit instrumentId agg ∧
      Swept instrumentId agg (Engine.limitOk (s.slab agg)) s s' :=
  doSweep_exit hloose hbook (priceCheck_limitOk _)

end Snapshot

end NanoMatch
