import NanoMatch.ExchangeRefinement

/-!
# The engine refines the naive exchange

The relation of one side is extended to the whole market, with one free slot for
each order the exchange could still take, and is carried through every phase of
a message.

The engine departs from the exchange in three ways, which `Faithful` excludes
message by message: a residual off the grid is dropped, the feasibility scan of
a fill-or-kill order can miscount, and an order under a reused id is not found
by a cancellation.
-/

namespace NanoMatch

open OrderBook Exchange

/-! ## Frames -/

/-- Nothing but one side of one book has changed. -/
structure Frame (instrumentId : InstrumentId) (side : BookSide) (s s' : Snapshot) :
    Prop where
  grids : s'.gridOf = s.gridOf
  queues : ∀ other side', ¬ (other = instrumentId ∧ side' = side) →
    s'.queues other side' = s.queues other side'
  views : ∀ other side', ¬ (other = instrumentId ∧ side' = side) →
    ∀ i, ∀ slot ∈ s.queues other side' i, (s'.slab slot).view = (s.slab slot).view

namespace Frame

variable {instrumentId : InstrumentId} {side : BookSide} {s s' s'' : Snapshot}

theorem refl (s : Snapshot) : Frame instrumentId side s s :=
  ⟨rfl, fun _ _ _ => rfl, fun _ _ _ _ _ _ => rfl⟩

theorem trans (hfirst : Frame instrumentId side s s')
    (hsecond : Frame instrumentId side s' s'') : Frame instrumentId side s s'' := by
  constructor
  · rw [hsecond.grids, hfirst.grids]
  · intro other side' hne
    rw [hsecond.queues _ _ hne, hfirst.queues _ _ hne]
  · intro other side' hne i slot hslot
    have hslot' := hslot
    rw [← hfirst.queues _ _ hne] at hslot'
    rw [hsecond.views _ _ hne i slot hslot', hfirst.views _ _ hne i slot hslot]

theorem queues_of_set {level : ℕ} {slots : List Slot}
    (hqueues : s'.queues = Function.update s.queues instrumentId
      ((s.queues instrumentId).set side level slots))
    {other : InstrumentId} {side' : BookSide}
    (hne : ¬ (other = instrumentId ∧ side' = side)) :
    s'.queues other side' = s.queues other side' := by
  funext i
  rw [hqueues, Queues.update_set, if_neg]
  exact fun hat => hne ⟨hat.1, hat.2.1⟩

end Frame

section Phases

variable {instrumentId : InstrumentId} {s s' : Snapshot} {agg maker slot : Slot} {level : ℕ}
  {behind : List Slot} {priceOk : Price → Bool}

theorem Traded.frame (htraded : Traded instrumentId agg maker level behind s s')
    (hloose : s.IsLoose agg) : Frame instrumentId (s.makerSide agg) s s' := by
  constructor
  · exact (SameLayout.traded htraded).grids
  · intro other side hne
    funext i
    exact htraded.queue_other (fun hall => hne ⟨hall.1, hall.2.1⟩)
  · intro other side hne i slot hslot
    apply htraded.view_other
    · intro heq
      subst heq
      rcases s.rep.queue_unique htraded.maker_mem hslot with ⟨hinstrument, hside, _⟩
      exact hne ⟨hinstrument, hside⟩
    · exact Snapshot.ne_of_isLoose hloose hslot

theorem Swept.frame (hswept : Swept instrumentId agg priceOk s s') (hloose : s.IsLoose agg) :
    Frame instrumentId (s.makerSide agg) s s' := by
  have hall : Frame instrumentId (s.makerSide agg) s s' ∧ s'.IsLoose agg ∧
      s'.makerSide agg = s.makerSide agg := by
    apply hswept.induction (fun t => Frame instrumentId (s.makerSide agg) s t ∧
      t.IsLoose agg ∧ t.makerSide agg = s.makerSide agg)
    · exact ⟨Frame.refl s, hloose, rfl⟩
    · intro t t' maker level behind htraded _ ih
      rcases ih with ⟨hframe, htloose, hside⟩
      have hstep := htraded.frame htloose
      rw [hside] at hstep
      exact ⟨hframe.trans hstep, htraded.isLoose htloose, htraded.makerSide_eq.trans hside⟩
  exact hall.1

theorem Rested.frame (hrested : Rested instrumentId slot level s s') :
    Frame instrumentId (s.slab slot).side.bookSide s s' := by
  constructor
  · exact (SameLayout.rested hrested).grids
  · intro other side hne
    exact Frame.queues_of_set hrested.queues_eq hne
  · intro _ _ _ _ other _
    exact Order.view_congr (hrested.terms other) (hrested.quantity other)

theorem Removed.frame {side : BookSide} {before after : List Slot}
    (hremoved : Removed instrumentId slot side level before after s s') :
    Frame instrumentId side s s' := by
  constructor
  · exact (SameLayout.removed hremoved).grids
  · intro other side' hne
    exact Frame.queues_of_set hremoved.queues_eq hne
  · intro _ _ _ _ other _
    exact Order.view_congr (hremoved.terms other) (hremoved.quantity other)

theorem Agrees.rested {grid : PriceGrid} {orders : List RestingOrder}
    (hagrees : Agrees grid s.slab (s.queues instrumentId (s.slab slot).side.bookSide) orders)
    (hprice : (s.slab slot).price = grid.indexToPrice level)
    (hrested : Rested instrumentId slot level s s') :
    Agrees grid s'.slab (s'.queues instrumentId (s.slab slot).side.bookSide)
      (orders ++ [(s.slab slot).view]) := by
  have hviews : ∀ other, (s'.slab other).view = (s.slab other).view :=
    fun other => Order.view_congr (hrested.terms other) (hrested.quantity other)
  constructor
  · intro i
    rw [atPrice_append, hagrees.levels i, hrested.queues_eq, Function.update_self]
    simp only [hviews]
    by_cases hsame : i = level
    · subst hsame
      rw [Queues.set_same, List.map_append]
      simp [atPrice, Order.view, hprice]
    · have hne : (s.slab slot).view.price ≠ grid.indexToPrice i := by
        change (s.slab slot).price ≠ _
        rw [hprice]
        exact fun heq => hsame (grid.indexToPrice_injective heq).symm
      rw [Queues.set_of_ne _ _ (fun hall => hsame hall.2)]
      simp [atPrice, hne]
  · intro order horder
    rcases List.mem_append.mp horder with hold | hnew
    · exact hagrees.priced order hold
    · rw [List.mem_singleton] at hnew
      subst hnew
      exact ⟨level, hprice⟩

theorem Agrees.removed {grid : PriceGrid} {orders : List RestingOrder} {side : BookSide}
    {before after : List Slot}
    (hagrees : Agrees grid s.slab (s.queues instrumentId side) orders)
    (hunique : ∀ i, ∀ other ∈ s.queues instrumentId side i,
      (s.slab other).orderId = (s.slab slot).orderId → other = slot)
    (hremoved : Removed instrumentId slot side level before after s s') :
    Agrees grid s'.slab (s'.queues instrumentId side)
      (orders.eraseP fun order => order.orderId = (s.slab slot).orderId) := by
  have hviews : ∀ other, (s'.slab other).view = (s.slab other).view :=
    fun other => Order.view_congr (hremoved.terms other) (hremoved.quantity other)
  have hprice : ∀ order ∈ orders,
      decide (order.orderId = (s.slab slot).orderId) = true →
        order.price = grid.indexToPrice level := by
    intro order horder hid
    rw [decide_eq_true_eq] at hid
    rcases hagrees.exists_slot horder with ⟨i, other, hother, hview, hlevel⟩
    rw [← hview] at hid
    have hsame := hunique i other hother hid
    rw [hsame] at hother
    rw [hlevel, (s.rep.queue_unique hremoved.slot_mem hother).2.2]
  constructor
  · intro i
    rw [hremoved.queues_eq, Function.update_self]
    simp only [hviews]
    by_cases hsame : i = level
    · subst hsame
      have hnotBefore : slot ∉ before := by
        intro hmem
        rcases s.rep.listed_of_mem hremoved.slot_mem with ⟨book, hbook⟩
        have hnodup := ((s.rep.bookRep _ book hbook).linked side i).nodup
        rw [hremoved.queue_eq] at hnodup
        exact not_mem_of_nodup_middle hnodup (by simp [hmem])
      rw [Queues.set_same, atPrice_eraseP_same hprice, hagrees.levels i, hremoved.queue_eq,
        List.map_append, List.map_cons, List.eraseP_append_right, List.eraseP_cons_of_pos,
        List.map_append]
      · simp [Order.view]
      · intro order horder
        rcases List.mem_map.mp horder with ⟨other, hother, rfl⟩
        intro hid
        rw [decide_eq_true_eq] at hid
        have hmem : other ∈ s.queues instrumentId side i := by
          rw [hremoved.queue_eq]
          simp [hother]
        rw [hunique i other hmem hid] at hother
        exact hnotBefore hother
    · rw [atPrice_eraseP_other (fun heq => hsame (grid.indexToPrice_injective heq)) hprice,
        hagrees.levels i, Queues.set_of_ne _ _ (fun hall => hsame hall.2)]
  · intro order horder
    exact hagrees.priced order (List.mem_of_mem_eraseP horder)

end Phases

/-! ## The simulation relation -/

/-- The market of the engine, with `held` slots neither free nor queued, is the
market of the exchange. -/
structure Refines (held : ℕ) (s : Snapshot) (x : Exchange) : Prop where
  listed : ∀ instrumentId, instrumentId ∈ x.instruments ↔ s.gridOf instrumentId ≠ none
  agrees : ∀ instrumentId grid, s.gridOf instrumentId = some grid →
    ∀ side, Agrees grid s.slab (s.queues instrumentId side) (x.book instrumentId side)
  unlisted : ∀ instrumentId, s.gridOf instrumentId = none →
    ∀ side, x.book instrumentId side = []
  capacity : s.free.length + held + x.resting = x.capacity
  reports : s.engine.outbound.map ExecutionReport.view = x.reports

namespace Refines

variable {held held' : ℕ} {s s' : Snapshot} {x : Exchange}

theorem of_same (hrefines : Refines held s x) (hbooks : s'.engine.books = s.engine.books)
    (hqueues : s'.queues = s.queues)
    (hviews : ∀ instrumentId side i, ∀ slot ∈ s.queues instrumentId side i,
      (s'.slab slot).view = (s.slab slot).view)
    (hfree : s'.free.length + held' = s.free.length + held) {reports : List Execution}
    (hreports : s'.engine.outbound.map ExecutionReport.view =
      s.engine.outbound.map ExecutionReport.view ++ reports) :
    Refines held' s' { x with reports := x.reports ++ reports } := by
  have hgrids : s'.gridOf = s.gridOf := by
    unfold Snapshot.gridOf
    rw [hbooks]
  constructor
  · rw [hgrids]
    exact hrefines.listed
  · intro instrumentId grid hgrid side
    rw [hgrids] at hgrid
    exact (hrefines.agrees _ grid hgrid side).congr (by rw [hqueues]) (hviews _ side)
  · rw [hgrids]
    exact hrefines.unlisted
  · rw [hfree]
    exact hrefines.capacity
  · rw [hreports, hrefines.reports]

/-- One side of one book was changed on both machines. -/
theorem setBook (hrefines : Refines held s x) {instrumentId : InstrumentId}
    {side : BookSide} {grid : PriceGrid} (hgrid : s.gridOf instrumentId = some grid)
    (hframe : Frame instrumentId side s s') {orders : List RestingOrder}
    (hagrees : Agrees grid s'.slab (s'.queues instrumentId side) orders)
    (hfree : s'.free.length + held' + orders.length =
      s.free.length + held + (x.book instrumentId side).length) {reports : List Execution}
    (hreports : s'.engine.outbound.map ExecutionReport.view =
      s.engine.outbound.map ExecutionReport.view ++ reports) :
    Refines held' s'
      { x.setBook instrumentId side orders with reports := x.reports ++ reports } := by
  have hlisted : instrumentId ∈ x.instruments := by
    rw [hrefines.listed, hgrid]
    simp
  have hother : ∀ other side', ¬ (other = instrumentId ∧ side' = side) →
      (x.setBook instrumentId side orders).book other side' = x.book other side' := by
    intro other side' hne
    unfold Exchange.setBook
    by_cases hsame : other = instrumentId
    · subst hsame
      have hside : side' ≠ side := fun heq => hne ⟨rfl, heq⟩
      simp [Function.update_of_ne hside]
    · simp [Function.update_of_ne hsame]
  constructor
  · rw [hframe.grids]
    exact hrefines.listed
  · intro other grid' hgrid' side'
    rw [hframe.grids] at hgrid'
    by_cases hchanged : other = instrumentId ∧ side' = side
    · rcases hchanged with ⟨rfl, rfl⟩
      rw [hgrid, Option.some.injEq] at hgrid'
      subst hgrid'
      simpa [Exchange.setBook] using hagrees
    · change Agrees _ _ _ ((x.setBook instrumentId side orders).book other side')
      rw [hother _ _ hchanged]
      exact (hrefines.agrees _ grid' hgrid' side').congr (hframe.queues _ _ hchanged)
        (hframe.views _ _ hchanged)
  · intro other hnone side'
    rw [hframe.grids] at hnone
    have hchanged : ¬ (other = instrumentId ∧ side' = side) := by
      intro hall
      rw [hall.1, hgrid] at hnone
      exact absurd hnone (by simp)
    change (x.setBook instrumentId side orders).book other side' = []
    rw [hother _ _ hchanged]
    exact hrefines.unlisted _ hnone side'
  · have hresting := x.resting_setBook hlisted side orders
    have hcapacity := hrefines.capacity
    change s'.free.length + held' + (x.setBook instrumentId side orders).resting = x.capacity
    omega
  · rw [hreports, hrefines.reports]

theorem setBook_silent (hrefines : Refines held s x) {instrumentId : InstrumentId}
    {side : BookSide} {grid : PriceGrid} (hgrid : s.gridOf instrumentId = some grid)
    (hframe : Frame instrumentId side s s') {orders : List RestingOrder}
    (hagrees : Agrees grid s'.slab (s'.queues instrumentId side) orders)
    (hfree : s'.free.length + held' + orders.length =
      s.free.length + held + (x.book instrumentId side).length)
    (houtbound : s'.engine.outbound = s.engine.outbound) :
    Refines held' s' (x.setBook instrumentId side orders) := by
  have hset : Refines held' s'
      { x.setBook instrumentId side orders with reports := x.reports ++ [] } := by
    apply hrefines.setBook hgrid hframe hagrees hfree
    rw [houtbound, List.append_nil]
  rw [List.append_nil] at hset
  exact hset

variable {msg : InboundOrderMsg} {slot : Slot}

theorem admitted (hrefines : Refines 0 s x) (hadmitted : Admitted msg slot s s') :
    Refines 1 s' x := by
  have hsame : Refines 1 s' { x with reports := x.reports ++ [] } := by
    apply hrefines.of_same hadmitted.books_eq hadmitted.queues_eq
    · intro instrumentId side i other hother
      rw [← hadmitted.queues_eq] at hother
      rw [hadmitted.others other (Snapshot.ne_of_isLoose hadmitted.loose hother)]
    · rw [hadmitted.free_eq, List.length_cons]
    · rw [hadmitted.outbound_eq, List.append_nil]
  simpa using hsame

theorem posted (hrefines : Refines held s x) {reports : List ExecutionReport} {count : ℕ}
    (hposted : Posted reports count s s') :
    Refines held s'
      { x with reports := x.reports ++ reports.map ExecutionReport.view } := by
  apply hrefines.of_same hposted.books_eq hposted.queues_eq
  · intro _ _ _ other _
    unfold Snapshot.slab Engine.slab
    rw [hposted.pool_eq]
  · rw [hposted.free_eq]
  · rw [hposted.outbound_eq, List.map_append]

theorem released (hrefines : Refines 1 s x) (hreleased : Released slot s s') :
    Refines 0 s' x := by
  have hsame : Refines 0 s' { x with reports := x.reports ++ [] } := by
    apply hrefines.of_same hreleased.books_eq hreleased.queues_eq
    · intro _ _ _ other _
      exact Order.view_congr (hreleased.terms other) (hreleased.quantity other)
    · rw [hreleased.free_eq, List.length_cons]
    · rw [hreleased.outbound_eq, List.append_nil]
  simpa using hsame

theorem swept {s₀ s₁ : Snapshot} {book : OrderBook} (hrefines : Refines 1 s₀ x)
    (hbook : s.engine.books msg.instrumentId = some book)
    (hadmitted : Admitted msg slot s s₀)
    (hswept : Swept msg.instrumentId slot msg.accepts s₀ s₁) :
    Refines 1 s₁ (x.trade msg).1 ∧ (x.trade msg).2 = (s₁.slab slot).remaining := by
  rw [← hadmitted.books_eq] at hbook
  have hgrid := Snapshot.gridOf_eq hbook
  have hagrees := hrefines.agrees _ book.grid hgrid (s₀.makerSide slot)
  have hresult := hswept.sweepAgrees hadmitted.loose hbook hagrees (Or.inl le_rfl)
  have horder := hadmitted.order
  have hframe := hswept.frame hadmitted.loose
  have hfinal := hresult.agrees
  rw [hadmitted.makerSide_eq] at hresult hframe hfinal
  rw [horder] at hresult hfinal
  refine ⟨hrefines.setBook hgrid hframe hfinal ?_ hresult.reports, hresult.residual⟩
  have hfree := hresult.free
  omega

/-- An order joins the end of its side on both machines. -/
theorem rested {s₁ : Snapshot} {level : ℕ} (hrefines : Refines 1 s₁ x)
    (hid : (s₁.slab slot).orderId = msg.orderId) (hprice : (s₁.slab slot).price = msg.price)
    (hside : (s₁.slab slot).side = msg.orderSide)
    (hrested : Rested msg.instrumentId slot level s₁ s') :
    Refines 0 s' (x.rest msg (s₁.slab slot).remaining) := by
  rcases hrested.books with ⟨book, _, hbook, _, hlevel, _⟩
  have hgrid := Snapshot.gridOf_eq hbook
  have hagrees := (hrefines.agrees _ book.grid hgrid _).rested hlevel hrested
  have hframe := hrested.frame
  have hview : (s₁.slab slot).view =
      ⟨msg.orderId, msg.price, (s₁.slab slot).remaining⟩ := by
    simp [Order.view, hid, hprice]
  rw [hside] at hframe hagrees
  rw [hview] at hagrees
  apply hrefines.setBook_silent hgrid hframe hagrees
  · rw [hrested.free_eq, List.length_append, List.length_singleton]
    omega
  · exact hrested.outbound_eq

end Refines

/-! ## The condition on a message -/

/-- The messages of the exchange: new orders with known bytes, and
cancellations. -/
def InboundOrderMsg.Admissible (msg : InboundOrderMsg) : Prop :=
  msg.kind = .newOrder ∧ msg.side ≤ 1 ∧ msg.type ≤ 3 ∨ msg.kind = .cancel

/-- The engine can follow the exchange: an order which will rest has a price on
the grid, the scan of a fill-or-kill order answers as the crossing quantity
does, and every order of the book with the id of a cancellation is the one the
index finds. -/
structure Engine.Faithful (engine : Engine) (msg : InboundOrderMsg) : Prop where
  onGrid : msg.kind = .newOrder → msg.orderType = .limit →
    engine.pool.freelistHead ≠ none → engine.crossingQuantity msg < msg.quantity.toNat →
      ∀ book, engine.books msg.instrumentId = some book →
        book.grid.isValidPrice msg.price = true
  scan : msg.kind = .newOrder → msg.orderType = .fok →
    engine.pool.freelistHead ≠ none →
      ∀ book, engine.books msg.instrumentId = some book →
        (book.availableQuantityAtOrBetter msg.orderSide msg.price < msg.quantity ↔
          engine.crossingQuantity msg < msg.quantity.toNat)
  found : msg.kind = .cancel → ∀ book, engine.books msg.instrumentId = some book →
    ∀ side i, ∀ slot ∈ engine.queue msg.instrumentId side i,
      (engine.slab slot).orderId = msg.orderId → book.findOrder msg.orderId = some slot

theorem InboundOrderMsg.Admissible.orderType_ne_raw {msg : InboundOrderMsg}
    (hadmissible : msg.Admissible) (hkind : msg.kind = .newOrder) (byte : UInt8) :
    msg.orderType ≠ .raw byte := by
  rcases hadmissible with ⟨_, _, htype⟩ | hcancel
  · have hbyte : msg.type = 0 ∨ msg.type = 1 ∨ msg.type = 2 ∨ msg.type = 3 := by
      have hle : msg.type.toNat ≤ 3 := htype
      simp only [← UInt8.toNat_inj]
      change _ = 0 ∨ _ = 1 ∨ _ = 2 ∨ _ = 3
      omega
    unfold InboundOrderMsg.orderType
    rcases hbyte with h | h | h | h <;> rw [h] <;> simp [OrderType.ofByte]
  · rw [hkind] at hcancel
    exact absurd hcancel (by simp)

/-! ## New orders -/

namespace Refines

variable {s s' : Snapshot} {x : Exchange} {msg : InboundOrderMsg}

theorem crossingQty_eq {held : ℕ} (hrefines : Refines held s x) {book : OrderBook}
    (hbook : s.engine.books msg.instrumentId = some book) :
    x.crossingQty msg = s.engine.crossingQuantity msg := by
  have hagrees := hrefines.agrees _ book.grid (Snapshot.gridOf_eq hbook) msg.makerSide
  have hpriced : ∀ order ∈ (x.book msg.instrumentId msg.makerSide).filter
      (fun order => msg.accepts order.price),
        ∃ i < book.grid.numLevels, order.price = book.grid.indexToPrice i := by
    intro order horder
    rcases hagrees.exists_slot (List.mem_filter.mp horder).1 with ⟨i, slot, hslot, _, hprice⟩
    exact ⟨i, ((s.rep.bookRep _ book hbook).placed _ _ _ hslot).range, hprice⟩
  unfold Exchange.crossingQty
  rw [s.crossingQuantity_eq msg hbook,
    sum_remaining_eq book.grid.indexToPrice_injective hpriced]
  unfold Snapshot.crossing
  apply Finset.sum_congr rfl
  intro i _
  have hlevel : atPrice ((x.book msg.instrumentId msg.makerSide).filter
      fun order => msg.accepts order.price) (book.grid.indexToPrice i) =
        ((s.queues msg.instrumentId msg.makerSide i).filter
          fun slot => msg.accepts (s.slab slot).price).map fun slot => (s.slab slot).view := by
    have hcommute : atPrice ((x.book msg.instrumentId msg.makerSide).filter
        fun order => msg.accepts order.price) (book.grid.indexToPrice i) =
          (atPrice (x.book msg.instrumentId msg.makerSide)
            (book.grid.indexToPrice i)).filter fun order => msg.accepts order.price := by
      unfold atPrice
      exact List.filter_comm ..
    rw [hcommute, hagrees.levels i, List.filter_map]
    rfl
  rw [hlevel, List.map_map]
  rfl

/-- The engine has a slot for the order exactly when the exchange takes it. -/
theorem refused_iff (hrefines : Refines 0 s x) :
    s.engine.books msg.instrumentId = none ∨ s.free = [] ↔
      msg.instrumentId ∉ x.instruments ∨ x.resting = x.capacity := by
  have hcapacity := hrefines.capacity
  have hunlisted : s.engine.books msg.instrumentId = none ↔
      msg.instrumentId ∉ x.instruments := by
    rw [hrefines.listed]
    simp [Snapshot.gridOf]
  rw [hunlisted, ← List.length_eq_zero_iff]
  constructor
  · intro hwhy
    rcases hwhy with hout | hfull
    · exact Or.inl hout
    · right
      omega
  · intro hwhy
    rcases hwhy with hout | hfull
    · exact Or.inl hout
    · right
      omega

theorem not_refused (hrefines : Refines 0 s x) {book : OrderBook} {slot : Slot}
    {s₀ : Snapshot} (hbook : s.engine.books msg.instrumentId = some book)
    (hadmitted : Admitted msg slot s s₀) :
    ¬ (msg.instrumentId ∉ x.instruments ∨ x.resting = x.capacity) := by
  rw [← hrefines.refused_iff, hbook, hadmitted.free_eq]
  simp

theorem newOrder (hrefines : Refines 0 s x) (hkind : msg.kind = .newOrder)
    (hadmissible : msg.Admissible) (hfaithful : s.engine.Faithful msg)
    (hstep : NewOrderStep msg s s') : Refines 0 s' (x.newOrder msg) := by
  cases hstep with
  | refused timestampNs hwhy hposted =>
      unfold Exchange.newOrder
      rw [if_pos (hrefines.refused_iff.mp hwhy)]
      exact hrefines.posted hposted
  | rejected slot book s₀ s₁ timestampNs hbook hadmitted hwhy hposted hreleased =>
      rcases hwhy with ⟨byte, hraw⟩ | ⟨htype, hshort⟩
      · exact absurd hraw (hadmissible.orderType_ne_raw hkind byte)
      · have hless := (hfaithful.scan hkind htype
          (by simp [hadmitted.freelistHead_eq]) book hbook).mp hshort
        rw [← hrefines.crossingQty_eq hbook] at hless
        simp only [Exchange.newOrder, if_neg (hrefines.not_refused hbook hadmitted), htype,
          if_pos hless]
        exact ((hrefines.admitted hadmitted).posted hposted).released hreleased
  | completed slot book s₀ s₁ hbook hadmitted hswept hwhy hreleased =>
      rcases (hrefines.admitted hadmitted).swept hbook hadmitted hswept with
        ⟨htraded, hresidual⟩
      have hfinal := htraded.released hreleased
      simp only [Exchange.newOrder, if_neg (hrefines.not_refused hbook hadmitted)]
      rcases hwhy with ⟨htype, hzero⟩ | ⟨htype, henough⟩
      · rw [hzero] at hresidual
        rcases htype with htype | htype | htype <;> simpa only [htype, hresidual, if_true]
      · rw [hfaithful.scan hkind htype (by simp [hadmitted.freelistHead_eq]) book hbook,
          ← hrefines.crossingQty_eq hbook] at henough
        simpa only [htype, if_neg henough]
  | acked slot book s₀ s₁ s₂ timestampNs hbook hadmitted hswept htype hpos hposted hreleased =>
      rcases (hrefines.admitted hadmitted).swept hbook hadmitted hswept with
        ⟨htraded, hresidual⟩
      have hfinal := (htraded.posted hposted).released hreleased
      have hne : (x.trade msg).2 ≠ 0 := by omega
      simp only [Exchange.newOrder, if_neg (hrefines.not_refused hbook hadmitted)]
      rcases htype with htype | htype <;>
      · simp only [htype, if_neg hne]
        rw [hresidual]
        exact hfinal
  | rested slot book s₀ s₁ hbook hadmitted hswept htype hvalid hrested =>
      rcases (hrefines.admitted hadmitted).swept hbook hadmitted hswept with
        ⟨htraded, hresidual⟩
      rcases hadmitted.swept_terms hswept with ⟨hid, hprice, _, hside⟩
      have hunfilled := hrested.unfilled
      have hne : (x.trade msg).2 ≠ 0 := by omega
      simp only [Exchange.newOrder, if_neg (hrefines.not_refused hbook hadmitted), htype,
        if_neg hne]
      rw [hresidual]
      exact htraded.rested hid hprice hside hrested
  | lost slot book s₀ hbook hadmitted hswept htype hpos hinvalid =>
      have hresidual := hadmitted.residual_eq hbook hswept
      have hvalid := hfaithful.onGrid hkind htype (by simp [hadmitted.freelistHead_eq])
        (by omega) book hbook
      rw [hinvalid] at hvalid
      exact absurd hvalid (by simp)

/-! ## Cancellations -/

theorem exists_found {held : ℕ} (hrefines : Refines held s x) (hkind : msg.kind = .cancel)
    (hfaithful : s.engine.Faithful msg) {side : BookSide} {order : RestingOrder}
    (horder : order ∈ x.book msg.instrumentId side) (hid : order.orderId = msg.orderId) :
    ∃ book i slot, s.engine.books msg.instrumentId = some book ∧
      slot ∈ s.queues msg.instrumentId side i ∧ (s.slab slot).view = order ∧
      book.findOrder msg.orderId = some slot := by
  cases hbook : s.engine.books msg.instrumentId with
  | none =>
      rw [hrefines.unlisted _ (by simp [Snapshot.gridOf, hbook]) side] at horder
      exact absurd horder (by simp)
  | some book =>
      have hagrees := hrefines.agrees _ book.grid (Snapshot.gridOf_eq hbook) side
      rcases hagrees.exists_slot horder with ⟨i, slot, hslot, hview, _⟩
      have hmem := hslot
      rw [← s.rep.queue_eq] at hmem
      have hslotId : (s.slab slot).view.orderId = msg.orderId := by rw [hview, hid]
      exact ⟨book, i, slot, rfl, hslot, hview,
        hfaithful.found hkind book hbook side i slot hmem hslotId⟩

theorem find_eq_none {held : ℕ} (hrefines : Refines held s x) (hkind : msg.kind = .cancel)
    (hfaithful : s.engine.Faithful msg) {side : BookSide}
    (hnone : ∀ book, s.engine.books msg.instrumentId = some book →
      ∀ slot, book.findOrder msg.orderId = some slot →
        ∀ i, slot ∉ s.queues msg.instrumentId side i) :
    (x.book msg.instrumentId side).find? (fun order => order.orderId = msg.orderId) =
      none := by
  rw [List.find?_eq_none]
  intro order horder hid
  rcases hrefines.exists_found hkind hfaithful horder (of_decide_eq_true hid) with
    ⟨book, i, slot, hbook, hslot, _, hfound⟩
  exact hnone book hbook slot hfound i hslot

theorem find_eq_some {held : ℕ} (hrefines : Refines held s x) (hkind : msg.kind = .cancel)
    (hfaithful : s.engine.Faithful msg) {book : OrderBook}
    (hbook : s.engine.books msg.instrumentId = some book) {slot : Slot} {side : BookSide}
    {level : ℕ} (hslot : slot ∈ s.queues msg.instrumentId side level)
    (hid : (s.slab slot).orderId = msg.orderId)
    (hfound : book.findOrder msg.orderId = some slot) :
    (x.book msg.instrumentId side).find? (fun order => order.orderId = msg.orderId) =
      some (s.slab slot).view := by
  have hagrees := hrefines.agrees _ book.grid (Snapshot.gridOf_eq hbook) side
  cases hfind : (x.book msg.instrumentId side).find?
      (fun order => order.orderId = msg.orderId) with
  | none =>
      rw [List.find?_eq_none] at hfind
      exact absurd (decide_eq_true hid) (hfind _ (hagrees.view_mem hslot))
  | some order =>
      have hmatch := List.find?_some hfind
      rcases hrefines.exists_found hkind hfaithful (List.mem_of_find?_eq_some hfind)
        (of_decide_eq_true hmatch) with ⟨book', _, slot', hbook', _, hview, hfound'⟩
      rw [hbook, Option.some.injEq] at hbook'
      subst hbook'
      rw [hfound, Option.some.injEq] at hfound'
      subst hfound'
      rw [hview]

theorem removed {side : BookSide} {level : ℕ} {slot : Slot} {before after : List Slot}
    (hrefines : Refines 0 s x)
    (hunique : ∀ i, ∀ other ∈ s.queues msg.instrumentId side i,
      (s.slab other).orderId = (s.slab slot).orderId → other = slot)
    (hremoved : Removed msg.instrumentId slot side level before after s s') :
    Refines 1 s' (x.setBook msg.instrumentId side
      ((x.book msg.instrumentId side).eraseP
        fun order => order.orderId = (s.slab slot).orderId)) := by
  rcases hremoved.books with ⟨book, _, hbook, _⟩
  have hgrid := Snapshot.gridOf_eq hbook
  have hagrees := hrefines.agrees _ book.grid hgrid side
  apply hrefines.setBook_silent hgrid hremoved.frame (hagrees.removed hunique hremoved)
  · have hmem := hagrees.view_mem hremoved.slot_mem
    have hlength := List.length_eraseP_of_mem
      (p := fun order : RestingOrder => decide (order.orderId = (s.slab slot).orderId))
      hmem (decide_eq_true rfl)
    have hpos := List.length_pos_of_mem hmem
    rw [hremoved.free_eq, hlength]
    omega
  · exact hremoved.outbound_eq

theorem cancel (hrefines : Refines 0 s x) (hkind : msg.kind = .cancel)
    (hfaithful : s.engine.Faithful msg) (hstep : CancelStep msg s s') :
    Refines 0 s' (x.cancel msg) := by
  cases hstep with
  | ignored hsame hwhy =>
      subst hsame
      have hnone : ∀ side, (x.book msg.instrumentId side).find?
          (fun order => order.orderId = msg.orderId) = none := by
        intro side
        apply hrefines.find_eq_none hkind hfaithful
        intro book hbook slot hfound
        rw [hwhy book hbook] at hfound
        exact absurd hfound (by simp)
      simpa only [Exchange.cancel, hnone]
  | cancelled slot book side level before after s₁ s₂ timestampNs hbook hfound hid hremoved
      hposted hreleased =>
      have hunique : ∀ i, ∀ other ∈ s.queues msg.instrumentId side i,
          (s.slab other).orderId = (s.slab slot).orderId → other = slot := by
        intro i other hother hsame
        rw [← s.rep.queue_eq] at hother
        have hfound' := hfaithful.found hkind book hbook side i other hother
          (hsame.trans hid)
        rw [hfound, Option.some.injEq] at hfound'
        exact hfound'.symm
      have hfinal := ((hrefines.removed hunique hremoved).posted hposted).released hreleased
      have hfind := hrefines.find_eq_some hkind hfaithful hbook hremoved.slot_mem hid hfound
      have hremove : Refines 0 s' (x.remove msg.instrumentId side (s.slab slot).view) := by
        rw [← hid] at hfinal
        exact hfinal
      cases side with
      | bid => simpa only [Exchange.cancel, hfind]
      | ask =>
          have hnone : (x.book msg.instrumentId .bid).find?
              (fun order => order.orderId = msg.orderId) = none := by
            apply hrefines.find_eq_none hkind hfaithful
            intro book' hbook' slot' hfound' i hslot'
            rw [hbook, Option.some.injEq] at hbook'
            subst hbook'
            rw [hfound, Option.some.injEq] at hfound'
            subst hfound'
            have hsides := (s.rep.queue_unique hremoved.slot_mem hslot').2.1
            exact absurd hsides (by simp)
          simpa only [Exchange.cancel, hnone, hfind]

theorem message (hrefines : Refines 0 s x) (hadmissible : msg.Admissible)
    (hfaithful : s.engine.Faithful msg) (hstep : MessageStep msg s s') :
    Refines 0 s' (x.submit msg) := by
  -- counting a message changes neither side of the relation
  have hcount : ∀ {t t' : Snapshot} {y : Exchange}, Refines 0 t y → Posted [] 0 t t' →
      Refines 0 t' y := by
    intro t t' y hy hcounted
    have hposted := hy.posted hcounted
    simpa using hposted
  cases hstep with
  | newOrder s₁ hkind hnew hcounted =>
      simp only [Exchange.submit, hkind]
      exact hcount (hrefines.newOrder hkind hadmissible hfaithful hnew) hcounted
  | cancel s₁ hkind hcancel hcounted =>
      have hcancelKind : msg.kind = .cancel := by
        rcases hadmissible with ⟨hnew, _⟩ | hcancelled
        · rw [hnew] at hkind
          simp at hkind
        · exact hcancelled
      simp only [Exchange.submit, hcancelKind]
      exact hcount (hrefines.cancel hcancelKind hfaithful hcancel) hcounted
  | ignored byte hkind hcounted =>
      rcases hadmissible with ⟨hnew, _⟩ | hcancelled
      · rw [hkind] at hnew
        exact absurd hnew (by simp)
      · rw [hkind] at hcancelled
        exact absurd hcancelled (by simp)

end Refines

/-! ## Runs -/

theorem Initial.refines {listings : List (InstrumentId × PriceGrid)} {capacity : ℕ}
    {clock : ℕ → UInt64} {s : Snapshot} (hs : Initial listings capacity clock s) :
    Refines 0 s (Exchange.new capacity listings) := by
  constructor
  · intro instrumentId
    have hlisted := Engine.listed_books_ne_none capacity clock listings instrumentId
    rw [← hs.engine_eq] at hlisted
    simp only [Exchange.new, List.mem_toFinset, ← hlisted, Snapshot.gridOf, ne_eq,
      Option.map_eq_none_iff]
  · intro instrumentId grid _ side
    rw [hs.queues_eq]
    refine ⟨fun _ => rfl, ?_⟩
    intro order horder
    exact absurd horder (by simp [Exchange.new])
  · intro _ _ _
    rfl
  · rw [hs.free_eq, List.length_range]
    simp [Exchange.new, Exchange.resting]
  · rw [hs.reports.1]
    rfl

/-- The reports agree except for their timestamps, and so do the resting orders:
on each side of each book the orders of the exchange at the price of a level
are the queue of that level, and there are no others. -/
structure SameMarket (engine : Engine) (x : Exchange) : Prop where
  reports : engine.outbound.map ExecutionReport.view = x.reports
  books : ∀ instrumentId book, engine.books instrumentId = some book →
    ∀ side, Agrees book.grid engine.slab (engine.queue instrumentId side)
      (x.book instrumentId side)
  unlisted : ∀ instrumentId, engine.books instrumentId = none →
    ∀ side, x.book instrumentId side = []
  capacity : engine.pool.freeCount + x.resting = x.capacity

theorem Refines.sameMarket {s : Snapshot} {x : Exchange} (hrefines : Refines 0 s x) :
    SameMarket s.engine x := by
  constructor
  · exact hrefines.reports
  · intro instrumentId book hbook side
    rw [s.rep.queue_eq]
    exact hrefines.agrees _ book.grid (Snapshot.gridOf_eq hbook) side
  · intro instrumentId hnone
    exact hrefines.unlisted _ (by simp [Snapshot.gridOf, hnone])
  · have hcapacity := hrefines.capacity
    rw [s.rep.freeList.count] at hcapacity
    exact hcapacity

/-- In every run whose messages the engine can follow, every state is the state
of the exchange after the same messages. -/
theorem run_refines_exchange (capacity : ℕ) (clock : ℕ → UInt64)
    (listings : List (InstrumentId × PriceGrid)) (msgs : List InboundOrderMsg)
    (hadmissible : ∀ msg ∈ msgs, msg.Admissible)
    (hfaithful : ∀ before msg after, msgs = before ++ msg :: after →
      ((Engine.listed capacity clock listings).runMessages before).Faithful msg) :
    ∀ before after, msgs = before ++ after →
      SameMarket ((Engine.listed capacity clock listings).runMessages before)
        ((Exchange.new capacity listings).run before) := by
  intro before after hsplit
  have hinvariant := runMessages_induction capacity clock listings
    (fun history s => ∀ rest, msgs = history ++ rest →
      Refines 0 s ((Exchange.new capacity listings).run history))
    (fun s hs _ _ => hs.refines) ?_ before
  · rcases hinvariant with ⟨s, hengine, hrefines⟩
    rw [← hengine]
    exact (hrefines after hsplit).sameMarket
  · intro history msg s s' hengine hrefines hstep rest hsplit'
    have hcons : msgs = history ++ msg :: rest := by simp [hsplit']
    have hmsg := hfaithful history msg rest hcons
    rw [← hengine] at hmsg
    have hnext := (hrefines _ hcons).message (hadmissible msg (by simp [hcons])) hmsg hstep
    simpa [Exchange.run] using hnext

theorem Engine.faithful_newOrder {engine : Engine} {msg : InboundOrderMsg}
    (hkind : msg.kind = .newOrder) (htype : msg.orderType ≠ .fok)
    (hvalid : ∀ book, engine.books msg.instrumentId = some book →
      book.grid.isValidPrice msg.price = true) : engine.Faithful msg := by
  constructor
  · exact fun _ _ _ _ => hvalid
  · exact fun _ hfok => absurd hfok htype
  · intro hcancel
    rw [hkind] at hcancel
    exact absurd hcancel (by simp)

/-- A resting ask, a bid which trades with it, and a market order for more than
what is left. -/
def sampleMessages : List InboundOrderMsg :=
  [sampleOrder 1 0 1 104 5, sampleOrder 0 0 2 105 3, sampleOrder 0 1 3 106 9]

theorem run_refines_exchange_sample :
    SameMarket (sampleEngine.runMessages sampleMessages)
        ((Exchange.new 4 [(0, sampleGrid)]).run sampleMessages) ∧
      (sampleEngine.runMessages sampleMessages).outbound.length = 5 := by
  constructor
  · apply run_refines_exchange 4 (fun _ => 0) [(0, sampleGrid)] sampleMessages ?_ ?_
      sampleMessages [] (by simp)
    · intro msg hmsg
      left
      simp only [sampleMessages, List.mem_cons, List.not_mem_nil, or_false] at hmsg
      rcases hmsg with rfl | rfl | rfl <;> decide
    · intro before msg after hsplit
      have hvalid : (((Engine.listed 4 (fun _ => 0) [(0, sampleGrid)]).runMessages
          before).books 0).map (fun book => book.grid.isValidPrice msg.price) = some true ∧
            msg ∈ sampleMessages := by
        rcases before with _ | ⟨first, _ | ⟨second, _ | ⟨third, before⟩⟩⟩
        all_goals simp only [sampleMessages, List.nil_append, List.cons_append,
          List.cons.injEq, List.nil_eq, List.append_eq_nil_iff, reduceCtorEq, and_false] at hsplit
        · rcases hsplit with ⟨rfl, _⟩
          decide
        · rcases hsplit with ⟨rfl, rfl, _⟩
          decide
        · rcases hsplit with ⟨rfl, rfl, rfl, _⟩
          decide
      rcases hvalid with ⟨hvalid, hmem⟩
      have hkinds : ∀ msg ∈ sampleMessages,
          msg.kind = .newOrder ∧ msg.orderType ≠ .fok ∧ msg.instrumentId = 0 := by
        decide
      rcases hkinds msg hmem with ⟨hkind, htype, hinstrument⟩
      apply Engine.faithful_newOrder hkind htype
      intro book hbook
      rw [hinstrument] at hbook
      rw [hbook] at hvalid
      simpa using hvalid
  · decide

/-- A bid below the grid and its cancellation. -/
def offGridMessages : List InboundOrderMsg :=
  [sampleOrder 0 0 1 95 5, { sampleOrder 0 0 1 95 5 with kind := .cancel }]

/-- An off-grid bid rests on the exchange but not on the engine, so that only the
exchange acknowledges its cancellation. -/
theorem off_grid_cancel_differs :
    (∀ msg ∈ offGridMessages, msg.Admissible) ∧
      ¬ SameMarket (sampleEngine.runMessages offGridMessages)
        ((Exchange.new 4 [(0, sampleGrid)]).run offGridMessages) := by
  constructor
  · intro msg hmsg
    simp only [offGridMessages, List.mem_cons, List.not_mem_nil, or_false] at hmsg
    rcases hmsg with rfl | rfl
    · left
      decide
    · right
      rfl
  · intro hsame
    have hreports := hsame.reports
    revert hreports
    decide

end NanoMatch
