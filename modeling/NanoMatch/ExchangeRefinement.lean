import NanoMatch.Exchange

/-!
# One side of the engine and of the naive exchange

The simulation relation on one side of a book: the orders of the exchange at one
price are the queue of that level, in the same order.  A trade changes the list
as it changes the queues, and by induction a sweep ends where the exchange ends,
with the same residual and the same reports except for their timestamps.
-/

namespace NanoMatch

open OrderBook Exchange

def Order.view (order : Order) : RestingOrder where
  orderId := order.orderId
  price := order.price
  remaining := order.remaining

def ExecutionReport.view (report : ExecutionReport) : Execution where
  kind := report.kind
  orderId := report.orderId
  counterpartOrderId := report.counterpartOrderId
  execPrice := report.execPrice
  execQuantity := report.execQuantity.toNat
  leavesQuantity := report.leavesQuantity.toNat

theorem Order.view_congr {order order' : Order} (hterms : order'.terms = order.terms)
    (hquantity : order'.quantity = order.quantity) : order'.view = order.view := by
  have hid : order'.orderId = order.orderId := congrArg Order.Terms.orderId hterms
  have hprice : order'.price = order.price := congrArg Order.Terms.price hterms
  simp [Order.view, Order.remaining, hid, hprice, hquantity]

/-- The list of one side is the queues of its levels. -/
structure Agrees (grid : PriceGrid) (slab : Slab) (queues : ℕ → List Slot)
    (orders : List RestingOrder) : Prop where
  levels : ∀ i, atPrice orders (grid.indexToPrice i) =
    (queues i).map fun slot => (slab slot).view
  priced : ∀ order ∈ orders, ∃ i, order.price = grid.indexToPrice i

namespace Agrees

variable {grid : PriceGrid} {slab slab' : Slab} {queues queues' : ℕ → List Slot}
  {orders : List RestingOrder}

theorem congr (hagrees : Agrees grid slab queues orders) (hqueues : queues' = queues)
    (hviews : ∀ i, ∀ slot ∈ queues i, (slab' slot).view = (slab slot).view) :
    Agrees grid slab' queues' orders := by
  refine ⟨?_, hagrees.priced⟩
  intro i
  rw [hagrees.levels i, hqueues]
  apply List.map_congr_left
  intro slot hslot
  exact (hviews i slot hslot).symm

theorem exists_slot (hagrees : Agrees grid slab queues orders) {order : RestingOrder}
    (horder : order ∈ orders) :
    ∃ i, ∃ slot ∈ queues i, (slab slot).view = order ∧
      order.price = grid.indexToPrice i := by
  rcases hagrees.priced order horder with ⟨i, hprice⟩
  have hmem : order ∈ atPrice orders (grid.indexToPrice i) :=
    mem_atPrice.mpr ⟨horder, hprice⟩
  rw [hagrees.levels i] at hmem
  rcases List.mem_map.mp hmem with ⟨slot, hslot, hview⟩
  exact ⟨i, slot, hslot, hview, hprice⟩

theorem view_mem (hagrees : Agrees grid slab queues orders) {i : ℕ} {slot : Slot}
    (hslot : slot ∈ queues i) : (slab slot).view ∈ orders := by
  have hmem : (slab slot).view ∈ atPrice orders (grid.indexToPrice i) := by
    rw [hagrees.levels i]
    exact List.mem_map_of_mem hslot
  exact (mem_atPrice.mp hmem).1

end Agrees

/-! ## One trade -/

section Trade

variable {s s' : Snapshot} {instrumentId : InstrumentId} {agg maker : Slot} {level : ℕ}
  {behind : List Slot} {grid : PriceGrid} {orders : List RestingOrder}

/-- The quantity of a trade. -/
def Snapshot.fill (s : Snapshot) (maker agg : Slot) : ℕ :=
  min (s.slab maker).remaining (s.slab agg).remaining

theorem Traded.view_maker (htraded : Traded instrumentId agg maker level behind s s') :
    (s'.slab maker).view =
      { (s.slab maker).view with
        remaining := (s.slab maker).view.remaining - s.fill maker agg } := by
  have hremaining := htraded.remaining_eq maker
  rw [if_pos (Or.inl rfl)] at hremaining
  simp [Order.view, htraded.orderId_eq maker, htraded.price_eq maker, hremaining,
    Snapshot.fill]

theorem Traded.view_other (htraded : Traded instrumentId agg maker level behind s s')
    {slot : Slot} (hmaker : slot ≠ maker) (hagg : slot ≠ agg) :
    (s'.slab slot).view = (s.slab slot).view := by
  apply Order.view_congr (htraded.terms slot)
  rw [htraded.quantity slot, if_neg]
  simp [hmaker, hagg]

theorem Traded.maker_view_price (htraded : Traded instrumentId agg maker level behind s s')
    {book : OrderBook} (hbook : s.engine.books instrumentId = some book) :
    (s.slab maker).view.price = book.grid.indexToPrice level :=
  Snapshot.price_of_mem hbook htraded.maker_mem

theorem Traded.done_iff_fill (htraded : Traded instrumentId agg maker level behind s s') :
    (s'.slab maker).quantity = 0 ↔ (s.slab maker).view.remaining = s.fill maker agg := by
  rw [htraded.done_iff]
  change _ ↔ (s.slab maker).remaining = min _ _
  omega

theorem Agrees.traded {book : OrderBook} (hbook : s.engine.books instrumentId = some book)
    (hloose : s.IsLoose agg)
    (htraded : Traded instrumentId agg maker level behind s s')
    (hagrees : Agrees book.grid s.slab (s.queues instrumentId (s.makerSide agg)) orders) :
    Agrees book.grid s'.slab (s'.queues instrumentId (s.makerSide agg))
      (debit (s.slab maker).view (s.fill maker agg) orders) := by
  have hprice := htraded.maker_view_price hbook
  have htail : ∀ slot ∈ behind, slot ≠ maker ∧ slot ≠ agg := by
    intro slot hslot
    have hmem : slot ∈ s.queues instrumentId (s.makerSide agg) level := by
      rw [htraded.queue_eq]
      simp [hslot]
    refine ⟨?_, Snapshot.ne_of_isLoose hloose hmem⟩
    intro heq
    subst heq
    exact htraded.maker_notMem_tail hslot
  have hbehind : behind.map (fun slot => (s'.slab slot).view) =
      behind.map fun slot => (s.slab slot).view := by
    apply List.map_congr_left
    intro slot hslot
    exact htraded.view_other (htail slot hslot).1 (htail slot hslot).2
  constructor
  · intro i
    by_cases hlevel : i = level
    · subst hlevel
      rw [← hprice, atPrice_debit_same, hprice, hagrees.levels i, htraded.queue_eq,
        htraded.queue_level]
      simp only [List.map_cons, debit, if_true]
      by_cases hdone : (s'.slab maker).quantity = 0
      · rw [if_pos hdone, if_pos (htraded.done_iff_fill.mp hdone), hbehind]
      · rw [if_neg hdone, if_neg (fun heq => hdone (htraded.done_iff_fill.mpr heq)),
          List.map_cons, hbehind, htraded.view_maker]
    · have hne : book.grid.indexToPrice i ≠ (s.slab maker).view.price := by
        rw [hprice]
        exact fun heq => hlevel (book.grid.indexToPrice_injective heq)
      rw [atPrice_debit_other hne, hagrees.levels i,
        htraded.queue_other (fun hall => hlevel hall.2.2)]
      apply List.map_congr_left
      intro slot hslot
      symm
      apply htraded.view_other
      · intro heq
        subst heq
        exact hlevel (s.rep.queue_unique htraded.maker_mem hslot).2.2
      · exact Snapshot.ne_of_isLoose hloose hslot
  · intro order horder
    rcases price_of_mem_debit horder with ⟨old, hold, hsame⟩
    rcases hagrees.priced old hold with ⟨i, hi⟩
    exact ⟨i, hsame.symm.trans hi⟩

theorem beats_asymm (side : BookSide) (price other : Price)
    (hbeats : side.beats price other = true) : side.beats other price = false := by
  cases side <;> simp only [BookSide.beats, decide_eq_true_eq, decide_eq_false_iff_not] at * <;>
    linarith

theorem beats_irrefl (side : BookSide) (price : Price) :
    side.beats price price = false := by
  cases side <;> simp [BookSide.beats]

theorem Agrees.bestMaker_eq {book : OrderBook} {priceOk : Price → Bool}
    (hbook : s.engine.books instrumentId = some book)
    (htraded : Traded instrumentId agg maker level behind s s')
    (hok : priceOk (s.slab maker).price = true)
    (hagrees : Agrees book.grid s.slab (s.queues instrumentId (s.makerSide agg)) orders) :
    bestMaker (s.makerSide agg) (orders.filter fun order => priceOk order.price) =
      some (s.slab maker).view := by
  have hprice := htraded.maker_view_price hbook
  apply Exchange.bestMaker_eq (behind.map fun slot => (s.slab slot).view)
  · rw [hprice, hagrees.levels level, htraded.queue_eq]
    rfl
  · intro order horder
    rcases hagrees.exists_slot horder with ⟨i, slot, hslot, _, horderPrice⟩
    have hworse := htraded.best i (List.ne_nil_of_mem hslot)
    rw [hprice, horderPrice]
    by_cases hlevel : i = level
    · rw [hlevel]
      exact Or.inl rfl
    · right
      cases hside : s.makerSide agg with
      | bid =>
          rw [hside] at hworse
          simp only [BookSide.Better] at hworse
          have hlt := (book.grid.indexToPrice_lt_iff i level).mpr (by omega)
          simpa [BookSide.beats] using hlt
      | ask =>
          rw [hside] at hworse
          simp only [BookSide.Better] at hworse
          have hlt := (book.grid.indexToPrice_lt_iff level i).mpr (by omega)
          simpa [BookSide.beats] using hlt
  · exact fun price => beats_asymm _ _ price
  · exact beats_irrefl _ _
  · exact hok

theorem Traded.view_reports (htraded : Traded instrumentId agg maker level behind s s') :
    s'.engine.outbound.map ExecutionReport.view =
      s.engine.outbound.map ExecutionReport.view ++
        [makerExecution (s.slab maker).view (s.slab agg).orderId (s.fill maker agg),
          takerExecution (s.slab maker).view (s.slab agg).orderId (s.fill maker agg)
            (s.slab agg).remaining] := by
  have hmakerLeft := htraded.remaining_eq maker
  rw [if_pos (Or.inl rfl)] at hmakerLeft
  have htakerLeft := htraded.remaining_eq agg
  rw [if_pos (Or.inr rfl)] at htakerLeft
  have hfill := Engine.fillQuantity_toNat (s.slab maker) (s.slab agg)
  have htakerDone : (s'.slab agg).quantity = 0 ↔
      (s.slab agg).remaining = s.fill maker agg := by
    have hzero : (s'.slab agg).quantity = 0 ↔ (s'.slab agg).remaining = 0 := by
      unfold Order.remaining
      rw [← UInt32.toNat_inj]
      rfl
    have hunfilled := htraded.unfilled
    rw [hzero, htakerLeft]
    unfold Snapshot.fill
    omega
  rw [htraded.outbound, List.map_append]
  congr 1
  simp only [tradeReports, List.map_cons, List.map_nil, ExecutionReport.view, makerExecution,
    takerExecution, htraded.done_iff_fill, htakerDone, hfill]
  have hmakerNat : (s'.slab maker).quantity.toNat =
      (s.slab maker).view.remaining - s.fill maker agg := hmakerLeft
  have htakerNat : (s'.slab agg).quantity.toNat =
      (s.slab agg).remaining - s.fill maker agg := htakerLeft
  rw [hmakerNat, htakerNat]
  rfl

end Trade

/-! ## A sweep -/

section Sweep

variable {s s' : Snapshot} {instrumentId : InstrumentId} {agg : Slot}
  {priceOk : Price → Bool}

/-- The result of the exchange for a taker describes the end of the sweep. -/
structure SweepAgrees (instrumentId : InstrumentId) (agg : Slot) (grid : PriceGrid)
    (orders : List RestingOrder) (s s' : Snapshot)
    (result : List RestingOrder × ℕ × List Execution) : Prop where
  agrees : Agrees grid s'.slab (s'.queues instrumentId (s.makerSide agg)) result.1
  residual : result.2.1 = (s'.slab agg).remaining
  reports : s'.engine.outbound.map ExecutionReport.view =
    s.engine.outbound.map ExecutionReport.view ++ result.2.2
  free : s'.free.length + result.1.length = s.free.length + orders.length

theorem Agrees.stopped {grid : PriceGrid} {orders : List RestingOrder}
    (hstopped : Stopped instrumentId agg priceOk s)
    (hagrees : Agrees grid s.slab (s.queues instrumentId (s.makerSide agg)) orders) :
    (s.slab agg).remaining = 0 ∨ ∀ order ∈ orders, priceOk order.price = false := by
  rcases hstopped with hzero | hclear
  · exact Or.inl hzero
  · right
    intro order horder
    rcases hagrees.exists_slot horder with ⟨i, slot, hslot, hview, _⟩
    rw [← hview]
    exact hclear i slot hslot

theorem Agrees.bound_traded {grid : PriceGrid} {orders : List RestingOrder} {maker : Slot}
    {level : ℕ} {behind : List Slot} {bound : ℕ}
    (htraded : Traded instrumentId agg maker level behind s s')
    (hagrees : Agrees grid s.slab (s.queues instrumentId (s.makerSide agg)) orders)
    (hbound : orders.length ≤ bound + 1) :
    (debit (s.slab maker).view (s.fill maker agg) orders).length ≤ bound ∨
      (s'.slab agg).remaining = 0 := by
  have hlength := length_debit (hagrees.view_mem htraded.maker_mem) (s.fill maker agg)
  have htaker := htraded.remaining_eq agg
  rw [if_pos (Or.inr rfl)] at htaker
  by_cases hdone : (s.slab maker).view.remaining = s.fill maker agg
  · left
    rw [if_pos hdone] at hlength
    omega
  · right
    have hdone' : ¬ (s.slab maker).remaining =
        min (s.slab maker).remaining (s.slab agg).remaining := hdone
    omega

/-- The exchange trades as the sweep does.  The bound on its number of trades is
never reached before the sweep stops. -/
theorem Swept.sweepAgrees (hswept : Swept instrumentId agg priceOk s s')
    (hloose : s.IsLoose agg) {book : OrderBook}
    (hbook : s.engine.books instrumentId = some book) {orders : List RestingOrder}
    (hagrees : Agrees book.grid s.slab (s.queues instrumentId (s.makerSide agg)) orders)
    {bound : ℕ} (hbound : orders.length ≤ bound ∨ (s.slab agg).remaining = 0) :
    SweepAgrees instrumentId agg book.grid orders s s'
      (matchTaker (s.makerSide agg) priceOk (s.slab agg).orderId bound orders
        (s.slab agg).remaining) := by
  have htrades := hswept.trades
  have hstopped := hswept.stopped
  clear hswept
  induction htrades using Relation.ReflTransGen.head_induction_on
    generalizing book orders bound with
  | refl =>
      rw [matchTaker_stopped (hagrees.stopped hstopped)]
      exact ⟨hagrees, rfl, by simp, rfl⟩
  | @head t t' hstep _ ih =>
      rcases hstep with ⟨maker, level, behind, htraded, hok⟩
      have hview := hagrees.view_mem htraded.maker_mem
      have hunfilled := htraded.unfilled
      have hside := htraded.makerSide_eq
      cases bound with
      | zero =>
          have hpos := List.length_pos_of_mem hview
          omega
      | succ bound =>
          rcases htraded.books with ⟨old, new, hold, hnew, hgrid, _⟩
          rw [hbook, Option.some.injEq] at hold
          subst hold
          have hagrees' := hagrees.traded hbook hloose htraded
          have hbound' := hagrees.bound_traded htraded (hbound.resolve_right (by omega))
          have hlength := length_debit hview (t.fill maker agg)
          have hremaining : (t'.slab agg).remaining =
              (t.slab agg).remaining - t.fill maker agg := by
            rw [htraded.remaining_eq agg, if_pos (Or.inr rfl)]
            rfl
          rw [← hgrid, ← hside] at hagrees'
          have hrest := ih (htraded.isLoose hloose)
            (by rw [hnew, Function.update_self]) hagrees' hbound'
          rw [hside, htraded.orderId_eq agg, hremaining, hgrid] at hrest
          have hfinal := hrest.agrees
          rw [hside] at hfinal
          rw [matchTaker_trade hunfilled.ne' (hagrees.bestMaker_eq hbook htraded hok)
            (rfl : t.fill maker agg = _)]
          constructor
          · exact hfinal
          · exact hrest.residual
          · rw [hrest.reports, htraded.view_reports, List.append_assoc]
            rfl
          · have hfree := hrest.free
            have hreleased : t'.free.length = t.free.length +
                if (t.slab maker).view.remaining = t.fill maker agg then 1 else 0 := by
              rw [htraded.free']
              simp only [htraded.done_iff_fill]
              split_ifs <;> simp
            rw [hreleased] at hfree
            simp only at hfree ⊢
            omega

end Sweep

end NanoMatch
