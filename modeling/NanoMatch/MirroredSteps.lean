import NanoMatch.BookEffects
import NanoMatch.LockStep

/-!
# Mirrored steps

The same message, processed in two snapshots which mirror each other at its
instrument, posts the same reports and takes as many slots from the pool, and the
two snapshots mirror each other again.  The slots of the two runs have nothing to do
with each other, and neither have their clocks.
-/

namespace NanoMatch

open OrderBook

/-! ## Two runs side by side -/

/-- The runs from `s₀` to `s` and from `t₀` to `t` have posted the same reports and
taken as many slots, and now mirror each other. -/
structure InStep (instrumentId : InstrumentId) (s₀ t₀ s t : Snapshot) : Prop where
  mirrors : Mirrors instrumentId s t
  reports : ∃ posted : List Execution,
    s.engine.outbound.map ExecutionReport.view =
        s₀.engine.outbound.map ExecutionReport.view ++ posted ∧
      t.engine.outbound.map ExecutionReport.view =
        t₀.engine.outbound.map ExecutionReport.view ++ posted
  free : s.free.length + t₀.free.length = t.free.length + s₀.free.length

/-- The incoming orders of the two runs agree. -/
structure SameTaker (agg agg' : Slot) (s t : Snapshot) : Prop where
  terms : (t.slab agg').terms = (s.slab agg).terms
  quantity : (t.slab agg').quantity = (s.slab agg).quantity
  loose : s.IsLoose agg
  loose' : t.IsLoose agg'

/-- The incoming orders agree in what a trade looks at; their limits may differ. -/
structure AlikeTaker (agg agg' : Slot) (s t : Snapshot) : Prop where
  orderId : (t.slab agg').orderId = (s.slab agg).orderId
  side : (t.slab agg').side = (s.slab agg).side
  quantity : (t.slab agg').quantity = (s.slab agg).quantity
  loose : s.IsLoose agg
  loose' : t.IsLoose agg'

namespace InStep

variable {instrumentId : InstrumentId} {s₀ t₀ s t s' t' : Snapshot}

theorem start (hmirrors : Mirrors instrumentId s t) : InStep instrumentId s t s t :=
  ⟨hmirrors, ⟨[], by simp, by simp⟩, Nat.add_comm _ _⟩

/-- A step which changes the book in neither run. -/
theorem next (hstep : InStep instrumentId s₀ t₀ s t) (hs : Mirrors instrumentId s s')
    (ht : Mirrors instrumentId t t') {reports reports' : List ExecutionReport}
    (hreports : s'.engine.outbound = s.engine.outbound ++ reports)
    (hreports' : t'.engine.outbound = t.engine.outbound ++ reports')
    (hviews : reports'.map ExecutionReport.view = reports.map ExecutionReport.view)
    (hfree : s'.free.length + t.free.length = t'.free.length + s.free.length) :
    InStep instrumentId s₀ t₀ s' t' := by
  refine ⟨(hs.symm.trans hstep.mirrors).trans ht, ?_, ?_⟩
  · rcases hstep.reports with ⟨posted, hposted, hposted'⟩
    refine ⟨posted ++ reports.map ExecutionReport.view, ?_, ?_⟩
    · rw [hreports, List.map_append, hposted, List.append_assoc]
    · rw [hreports', List.map_append, hposted', hviews, List.append_assoc]
  · have hbefore := hstep.free
    omega

/-- A step which posts nothing either. -/
theorem quiet (hstep : InStep instrumentId s₀ t₀ s t) (hs : Mirrors instrumentId s s')
    (ht : Mirrors instrumentId t t') (houtbound : s'.engine.outbound = s.engine.outbound)
    (houtbound' : t'.engine.outbound = t.engine.outbound)
    (hfree : s'.free.length + t.free.length = t'.free.length + s.free.length) :
    InStep instrumentId s₀ t₀ s' t' := by
  have hnone : s'.engine.outbound = s.engine.outbound ++ [] := by rw [houtbound, List.append_nil]
  have hnone' : t'.engine.outbound = t.engine.outbound ++ [] := by
    rw [houtbound', List.append_nil]
  exact hstep.next hs ht hnone hnone' rfl hfree

/-- The reports posted since the start are the same. -/
theorem posted_eq (hstep : InStep instrumentId s t s' t') :
    (s'.engine.outbound.drop s.engine.outbound.length).map ExecutionReport.view =
      (t'.engine.outbound.drop t.engine.outbound.length).map ExecutionReport.view := by
  rcases hstep.reports with ⟨posted, hposted, hposted'⟩
  have hdrop : ∀ outbound outbound' : List ExecutionReport,
      outbound'.map ExecutionReport.view = outbound.map ExecutionReport.view ++ posted →
        (outbound'.drop outbound.length).map ExecutionReport.view = posted := by
    intro outbound outbound' heq
    rw [List.map_drop, heq]
    exact List.drop_left' (by simp)
  rw [hdrop _ _ hposted, hdrop _ _ hposted']

end InStep

section Trades

variable {instrumentId : InstrumentId} {s t s' t' : Snapshot} {agg agg' maker maker' : Slot}
  {level level' : ℕ} {behind behind' : List Slot}

theorem SameTaker.alike (htaker : SameTaker agg agg' s t) : AlikeTaker agg agg' s t where
  orderId := congrArg Order.Terms.orderId htaker.terms
  side := congrArg Order.Terms.side htaker.terms
  quantity := htaker.quantity
  loose := htaker.loose
  loose' := htaker.loose'

theorem AlikeTaker.makerSide_eq (htaker : AlikeTaker agg agg' s t) :
    t.makerSide agg' = s.makerSide agg := by
  unfold Snapshot.makerSide
  rw [htaker.side]

theorem Traded.isBest (htraded : Traded instrumentId agg maker level behind s s') :
    IsBest (s.makerSide agg) (s.queues instrumentId (s.makerSide agg)) (some level) := by
  refine ⟨?_, htraded.best⟩
  rw [htraded.queue_eq]
  exact List.cons_ne_nil _ _

/-- Both runs trade at the same level. -/
theorem Traded.level_eq (hs : Traded instrumentId agg maker level behind s s')
    (ht : Traded instrumentId agg' maker' level' behind' t t')
    (hmirrors : Mirrors instrumentId s t) (htaker : AlikeTaker agg agg' s t) :
    level' = level := by
  have hbest := ht.isBest
  rw [htaker.makerSide_eq] at hbest
  have hunique := IsBest.unique hbest
    (IsBest.congr hs.isBest (hmirrors.empty_iff (s.makerSide agg)))
  exact Option.some.inj hunique

theorem Traded.maker_view_eq (hs : Traded instrumentId agg maker level behind s s')
    (ht : Traded instrumentId agg' maker' level' behind' t t')
    (hmirrors : Mirrors instrumentId s t) (htaker : AlikeTaker agg agg' s t) :
    t.orderView instrumentId maker' = s.orderView instrumentId maker := by
  have hlevel := hs.level_eq ht hmirrors htaker
  have horders := ht.orders_level
  rw [htaker.makerSide_eq, hlevel, hmirrors.orders, hs.orders_level] at horders
  exact (List.cons.inj horders).1.symm

theorem Engine.fillQuantity_congr {rest agg rest' agg' : Order}
    (hrest : rest'.quantity = rest.quantity) (hagg : agg'.quantity = agg.quantity) :
    Engine.fillQuantity rest' agg' = Engine.fillQuantity rest agg := by
  unfold Engine.fillQuantity
  rw [hrest, hagg]

theorem tradeReports_congr {maker taker makerAfter takerAfter maker' taker' makerAfter'
    takerAfter' : Order} {fill fill' : Quantity} (timestamps timestamps' : UInt64 × UInt64)
    (hmakerId : maker'.orderId = maker.orderId) (hprice : maker'.price = maker.price)
    (htakerId : taker'.orderId = taker.orderId) (hfill : fill' = fill)
    (hmaker : makerAfter'.quantity = makerAfter.quantity)
    (htaker : takerAfter'.quantity = takerAfter.quantity) :
    (tradeReports maker' taker' makerAfter' takerAfter' fill' timestamps').map
        ExecutionReport.view =
      (tradeReports maker taker makerAfter takerAfter fill timestamps).map
        ExecutionReport.view := by
  unfold tradeReports
  rw [hmakerId, hprice, htakerId, hfill, hmaker, htaker]
  rfl

/-- Both parties are left with the same quantities in both runs. -/
theorem Traded.quantities_eq (hs : Traded instrumentId agg maker level behind s s')
    (ht : Traded instrumentId agg' maker' level' behind' t t')
    (hmirrors : Mirrors instrumentId s t) (htaker : AlikeTaker agg agg' s t) :
    (t'.slab maker').quantity = (s'.slab maker).quantity ∧
      (t'.slab agg').quantity = (s'.slab agg).quantity := by
  have hview := hs.maker_view_eq ht hmirrors htaker
  have hquantity : (t.slab maker').quantity = (s.slab maker).quantity :=
    congrArg OrderView.quantity hview
  have hfill := Engine.fillQuantity_congr hquantity htaker.quantity
  constructor
  · rw [ht.quantity, hs.quantity, if_pos (Or.inl rfl), if_pos (Or.inl rfl), hquantity, hfill]
  · rw [ht.quantity, hs.quantity, if_pos (Or.inr rfl), if_pos (Or.inr rfl), hfill,
      htaker.quantity]

/-- One iteration of the loop in both runs. -/
theorem Traded.mirrors (hs : Traded instrumentId agg maker level behind s s')
    (ht : Traded instrumentId agg' maker' level' behind' t t')
    (hmirrors : Mirrors instrumentId s t) (htaker : AlikeTaker agg agg' s t) :
    Mirrors instrumentId s' t' := by
  have hlevel := hs.level_eq ht hmirrors htaker
  have hside := htaker.makerSide_eq
  have hview := hs.maker_view_eq ht hmirrors htaker
  have hquantity : (t.slab maker').quantity = (s.slab maker).quantity :=
    congrArg OrderView.quantity hview
  have hfill := Engine.fillQuantity_congr hquantity htaker.quantity
  have hafter := (hs.quantities_eq ht hmirrors htaker).1
  constructor
  · exact hmirrors.grid_of_layout (SameLayout.traded hs) (SameLayout.traded ht)
  · rw [hs.orders htaker.loose, ht.orders htaker.loose', hmirrors.orders, hside, hlevel, hfill]
  · funext side i
    rw [hs.aggregates_eq, ht.aggregates_eq, hmirrors.aggregates, hside, hlevel, hfill, hafter]

theorem Traded.alikeTaker (hs : Traded instrumentId agg maker level behind s s')
    (ht : Traded instrumentId agg' maker' level' behind' t t')
    (hmirrors : Mirrors instrumentId s t) (htaker : AlikeTaker agg agg' s t) :
    AlikeTaker agg agg' s' t' where
  orderId := by rw [hs.orderId_eq, ht.orderId_eq, htaker.orderId]
  side := by rw [hs.side_eq, ht.side_eq, htaker.side]
  quantity := (hs.quantities_eq ht hmirrors htaker).2
  loose := hs.isLoose htaker.loose
  loose' := ht.isLoose htaker.loose'

/-- The state of two sweeps side by side. -/
structure SweepsInStep (instrumentId : InstrumentId) (agg agg' : Slot) (s₀ t₀ s t : Snapshot) :
    Prop where
  inStep : InStep instrumentId s₀ t₀ s t
  taker : SameTaker agg agg' s t

variable {s₀ t₀ : Snapshot} {priceOk : Price → Bool}

/-- A trade in both runs posts the same reports and frees as many slots. -/
theorem InStep.traded (hstep : InStep instrumentId s₀ t₀ s t)
    (htaker : AlikeTaker agg agg' s t)
    (hs : Traded instrumentId agg maker level behind s s')
    (ht : Traded instrumentId agg' maker' level' behind' t t') :
    InStep instrumentId s₀ t₀ s' t' := by
  have hmirrors := hstep.mirrors
  have hview := hs.maker_view_eq ht hmirrors htaker
  have hquantity : (t.slab maker').quantity = (s.slab maker).quantity :=
    congrArg OrderView.quantity hview
  have hfill := Engine.fillQuantity_congr hquantity htaker.quantity
  rcases hs.quantities_eq ht hmirrors htaker with ⟨hafter, hafter'⟩
  refine ⟨hs.mirrors ht hmirrors htaker, ?_, ?_⟩
  · rcases hstep.reports with ⟨posted, hposted, hposted'⟩
    refine ⟨posted ++ (tradeReports (s.slab maker) (s.slab agg) (s'.slab maker) (s'.slab agg)
      (Engine.fillQuantity (s.slab maker) (s.slab agg)) (0, 0)).map ExecutionReport.view, ?_, ?_⟩
    · rw [hs.outbound, List.map_append, hposted, List.append_assoc]
      rfl
    · rw [ht.outbound, List.map_append, hposted', List.append_assoc,
        tradeReports_congr (0, 0) _ (congrArg OrderView.orderId hview)
          (congrArg OrderView.price hview) htaker.orderId hfill hafter hafter']
  · have hfree := hstep.free
    rw [hs.free', ht.free', hafter]
    split_ifs
    · simp only [List.length_cons]
      omega
    · exact hfree

theorem SweepsInStep.traded (hstate : SweepsInStep instrumentId agg agg' s₀ t₀ s t)
    (hs : Traded instrumentId agg maker level behind s s')
    (ht : Traded instrumentId agg' maker' level' behind' t t') :
    SweepsInStep instrumentId agg agg' s₀ t₀ s' t' := by
  have halike := hstate.taker.alike
  have hafter := hs.alikeTaker ht hstate.inStep.mirrors halike
  refine ⟨hstate.inStep.traded halike hs ht, ?_, hafter.quantity, hafter.loose, hafter.loose'⟩
  rw [hs.terms, ht.terms, hstate.taker.terms]

theorem SweepStep.not_stopped (hstep : SweepStep instrumentId agg priceOk s s') :
    ¬ Stopped instrumentId agg priceOk s := by
  rcases hstep with ⟨maker, level, behind, htraded, hok⟩
  rintro (hfilled | hnone)
  · have hunfilled := htraded.unfilled
    omega
  · rw [hnone level maker htraded.maker_mem] at hok
    exact absurd hok (by simp)

/-- Both loops stop at the same point if they accept the same resting prices. -/
theorem stopped_iff {priceOk' : Price → Bool} (hmirrors : Mirrors instrumentId s t)
    (htaker : AlikeTaker agg agg' s t)
    (hok : (s.slab agg).remaining ≠ 0 → ∀ i, ∀ slot ∈ s.queues instrumentId (s.makerSide agg) i,
      priceOk' (s.slab slot).price = priceOk (s.slab slot).price) :
    Stopped instrumentId agg priceOk s ↔ Stopped instrumentId agg' priceOk' t := by
  have hprices : ∀ (u : Snapshot) (check : Price → Bool) side i,
      (∀ slot ∈ u.queues instrumentId side i, check (u.slab slot).price = false) ↔
        ∀ order ∈ u.orders instrumentId side i, check order.price = false := by
    intro u check side i
    unfold Snapshot.orders
    simp only [List.forall_mem_map]
    rfl
  have hremaining : (t.slab agg').remaining = (s.slab agg).remaining := by
    unfold Order.remaining
    rw [htaker.quantity]
  unfold Stopped
  rw [hremaining, htaker.makerSide_eq]
  by_cases hfilled : (s.slab agg).remaining = 0
  · simp [hfilled]
  · simp only [hfilled, false_or]
    apply forall_congr'
    intro i
    rw [hprices t, hmirrors.orders, ← hprices s]
    constructor
    · intro hnone slot hslot
      rw [hok hfilled i slot hslot]
      exact hnone slot hslot
    · intro hnone slot hslot
      rw [← hok hfilled i slot hslot]
      exact hnone slot hslot

/-- Two sweeps which start in step end in step. -/
theorem Swept.inStep (hs : Swept instrumentId agg priceOk s s')
    (ht : Swept instrumentId agg' priceOk t t')
    (hstate : SweepsInStep instrumentId agg agg' s₀ t₀ s t) :
    SweepsInStep instrumentId agg agg' s₀ t₀ s' t' := by
  apply LockStep.reaches _ _ _ _ hs.trades hs.stopped ht.trades ht.stopped hstate
  · rintro s s' t t' hstate ⟨maker, level, behind, hs, _⟩ ⟨maker', level', behind', ht, _⟩
    exact hstate.traded hs ht
  · intro s t hstate
    exact stopped_iff hstate.inStep.mirrors hstate.taker.alike fun _ _ _ _ => rfl
  · exact fun _ _ hstep => SweepStep.not_stopped hstep
  · exact fun _ _ hstep => SweepStep.not_stopped hstep

end Trades

/-! ## The scan -/

section Scan

variable {book book' : OrderBook}

theorem OrderBook.sumLevels_congr {levels levels' : ℕ → PriceLevel}
    (htotals : ∀ i, (levels' i).totalQty = (levels i).totalQty) (i count : ℕ)
    (total : Quantity) : sumLevels levels' i count total = sumLevels levels i count total := by
  induction count generalizing i total with
  | zero => rfl
  | succ count ih =>
      unfold sumLevels
      rw [htotals, ih]

/-- The scan only looks at the grid, the cursors and the cached totals. -/
theorem OrderBook.available_congr (hgrid : book'.grid = book.grid)
    (hbest : ∀ side, book'.bestIdx side = book.bestIdx side)
    (haggregates : book'.aggregates = book.aggregates) (side : Side) (price : Price) :
    book'.availableQuantityAtOrBetter side price =
      book.availableQuantityAtOrBetter side price := by
  have hask : book'.bestAskIdx = book.bestAskIdx := hbest .ask
  have hbid : book'.bestBidIdx = book.bestBidIdx := hbest .bid
  have htotals : ∀ side i,
      (book'.sideLevels side i).totalQty = (book.sideLevels side i).totalQty := by
    intro side i
    exact congrArg Aggregates.totalQty (congrFun (congrFun haggregates side) i)
  have hasks : ∀ i count total,
      sumLevels book'.askLevels i count total = sumLevels book.askLevels i count total :=
    sumLevels_congr (htotals .ask)
  have hbids : ∀ i count total,
      sumLevels book'.bidLevels i count total = sumLevels book.bidLevels i count total :=
    sumLevels_congr (htotals .bid)
  unfold availableQuantityAtOrBetter
  simp only [hask, hbid, hgrid, hasks, hbids]

end Scan

/-! ## New orders -/

/-- The scan turns the order away, or its type is none of the four. -/
def InboundOrderMsg.Infeasible (msg : InboundOrderMsg) (book : OrderBook) : Prop :=
  (∃ byte, msg.orderType = .raw byte) ∨ msg.orderType = .fok ∧
    book.availableQuantityAtOrBetter msg.orderSide msg.price < msg.quantity

/-- What becomes of an order after its sweep. -/
inductive Fate where
  | released
  | acked
  | rested
  | lost

def InboundOrderMsg.fate (msg : InboundOrderMsg) (grid : PriceGrid) (residual : Quantity) : Fate :=
  if residual = 0 then .released
  else
    match msg.orderType with
    | .limit => if grid.isValidPrice msg.price then .rested else .lost
    | .market => .acked
    | .ioc => .acked
    | _ => .released

/-- The last phase of an order with this fate. -/
def Ends (msg : InboundOrderMsg) (grid : PriceGrid) (slot : Slot) (s s' : Snapshot) :
    Fate → Prop
  | .released => Released slot s s'
  | .acked => ∃ s₁ timestampNs,
      Posted [cancelAckReport msg.orderId (s.slab slot).quantity timestampNs] 0 s s₁ ∧
        Released slot s₁ s'
  | .rested => Rested msg.instrumentId slot (grid.tickToIndex msg.price) s s'
  | .lost => s' = s

section Messages

variable {msg : InboundOrderMsg} {s t s' t' s₀ t₀ : Snapshot}

theorem InboundOrderMsg.feasible_of_type (book : OrderBook)
    (htype : msg.orderType = .limit ∨ msg.orderType = .market ∨ msg.orderType = .ioc) :
    ¬ msg.Infeasible book := by
  rintro (⟨byte, hraw⟩ | ⟨hfok, _⟩)
  · simp [hraw] at htype
  · simp [hfok] at htype

theorem InboundOrderMsg.fate_limit (grid : PriceGrid) {residual : Quantity}
    (hresidual : residual ≠ 0) (htype : msg.orderType = .limit) :
    msg.fate grid residual = if grid.isValidPrice msg.price then .rested else .lost := by
  unfold InboundOrderMsg.fate
  rw [if_neg hresidual, htype]

/-- A new order is refused, or it is admitted and then rejected or swept. -/
theorem NewOrderStep.phases (hstep : NewOrderStep msg s s') :
    ((s.engine.books msg.instrumentId = none ∨ s.free = []) ∧
        ∃ timestampNs, Posted [rejectReport msg.orderId msg.quantity timestampNs] 1 s s') ∨
      ∃ slot book s₁, s.engine.books msg.instrumentId = some book ∧ Admitted msg slot s s₁ ∧
        (msg.Infeasible book ∧
            (∃ s₂ timestampNs, Posted [rejectReport msg.orderId msg.quantity timestampNs] 1 s₁ s₂ ∧
              Released slot s₂ s') ∨
          ¬ msg.Infeasible book ∧
            ∃ s₂, Swept msg.instrumentId slot msg.accepts s₁ s₂ ∧
              Ends msg book.grid slot s₂ s' (msg.fate book.grid (s₂.slab slot).quantity)) := by
  have hzero : ∀ order : Order, order.remaining = 0 → order.quantity = 0 := by
    intro order hremaining
    exact UInt32.toNat_inj.mp hremaining
  have hpos : ∀ order : Order, 0 < order.remaining → order.quantity ≠ 0 := by
    intro order hremaining
    exact Quantity.ne_zero_of_pos (Quantity.pos_iff.mpr hremaining)
  cases hstep with
  | refused timestampNs hwhy hposted => exact Or.inl ⟨hwhy, timestampNs, hposted⟩
  | rejected slot book s₁ s₂ timestampNs hbook hadmitted hwhy hposted hreleased =>
      exact Or.inr ⟨slot, book, s₁, hbook, hadmitted,
        Or.inl ⟨hwhy, s₂, timestampNs, hposted, hreleased⟩⟩
  | completed slot book s₁ s₂ hbook hadmitted hswept hwhy hreleased =>
      refine Or.inr ⟨slot, book, s₁, hbook, hadmitted, Or.inr ⟨?_, s₂, hswept, ?_⟩⟩
      · rintro (⟨byte, hraw⟩ | ⟨hfok, hshort⟩)
        · simp [hraw] at hwhy
        · simp [hfok, hshort] at hwhy
      · have hfate : msg.fate book.grid (s₂.slab slot).quantity = .released := by
          unfold InboundOrderMsg.fate
          rcases hwhy with ⟨_, hfilled⟩ | ⟨hfok, _⟩
          · rw [if_pos (hzero _ hfilled)]
          · simp [hfok]
        rw [hfate]
        exact hreleased
  | acked slot book s₁ s₂ s₃ timestampNs hbook hadmitted hswept htype hresidual hposted
      hreleased =>
      refine Or.inr ⟨slot, book, s₁, hbook, hadmitted, Or.inr ⟨?_, s₂, hswept, ?_⟩⟩
      · exact InboundOrderMsg.feasible_of_type book (Or.inr htype)
      · have hfate : msg.fate book.grid (s₂.slab slot).quantity = .acked := by
          unfold InboundOrderMsg.fate
          rw [if_neg (hpos _ hresidual)]
          rcases htype with htype | htype <;> rw [htype]
        rw [hfate]
        exact ⟨s₃, timestampNs, hposted, hreleased⟩
  | rested slot book s₁ s₂ hbook hadmitted hswept htype hvalid hrested =>
      refine Or.inr ⟨slot, book, s₁, hbook, hadmitted, Or.inr ⟨?_, s₂, hswept, ?_⟩⟩
      · exact InboundOrderMsg.feasible_of_type book (Or.inl htype)
      · rw [InboundOrderMsg.fate_limit _ (hpos _ hrested.unfilled) htype, if_pos hvalid]
        exact hrested
  | lost slot book s₁ hbook hadmitted hswept htype hresidual hinvalid =>
      refine Or.inr ⟨slot, book, s₁, hbook, hadmitted, Or.inr ⟨?_, s', hswept, ?_⟩⟩
      · exact InboundOrderMsg.feasible_of_type book (Or.inl htype)
      · rw [InboundOrderMsg.fate_limit _ (hpos _ hresidual) htype, hinvalid]
        rfl

variable {instrumentId : InstrumentId} {slot slot' : Slot}

theorem InStep.posted (hstep : InStep instrumentId s₀ t₀ s t)
    {reports reports' : List ExecutionReport} {count count' : ℕ}
    (hs : Posted reports count s s') (ht : Posted reports' count' t t')
    (hviews : reports'.map ExecutionReport.view = reports.map ExecutionReport.view) :
    InStep instrumentId s₀ t₀ s' t' := by
  apply hstep.next (hs.mirrors _) (ht.mirrors _) hs.outbound_eq ht.outbound_eq hviews
  rw [hs.free_eq, ht.free_eq, Nat.add_comm]

theorem InStep.released (hstep : InStep instrumentId s₀ t₀ s t) (hs : Released slot s s')
    (ht : Released slot' t t') : InStep instrumentId s₀ t₀ s' t' := by
  apply hstep.quiet (hs.mirrors _) (ht.mirrors _) hs.outbound_eq ht.outbound_eq
  rw [hs.free_eq, ht.free_eq, List.length_cons, List.length_cons]
  omega

theorem InStep.admitted (hstep : InStep instrumentId s₀ t₀ s t) (hs : Admitted msg slot s s')
    (ht : Admitted msg slot' t t') : SweepsInStep instrumentId slot slot' s₀ t₀ s' t' := by
  constructor
  · apply hstep.quiet (hs.mirrors _) (ht.mirrors _) hs.outbound_eq ht.outbound_eq
    rw [hs.free_eq, ht.free_eq, List.length_cons, List.length_cons]
    omega
  · refine ⟨?_, ?_, hs.loose, ht.loose⟩
    · rw [hs.order, ht.order]
      rfl
    · rw [hs.order, ht.order]
      rfl

/-- The residuals of both runs join their level. -/
theorem Rested.inStep {level : ℕ} (hs : Rested instrumentId slot level s s')
    (ht : Rested instrumentId slot' level t t')
    (hstate : SweepsInStep instrumentId slot slot' s₀ t₀ s t) :
    InStep instrumentId s₀ t₀ s' t' := by
  have hmirrors := hstate.inStep.mirrors
  have htaker := hstate.taker
  have hid : (t.slab slot').orderId = (s.slab slot).orderId :=
    congrArg Order.Terms.orderId htaker.terms
  have hprice : (t.slab slot').price = (s.slab slot).price :=
    congrArg Order.Terms.price htaker.terms
  have hside : (t.slab slot').side = (s.slab slot).side :=
    congrArg Order.Terms.side htaker.terms
  have hnone : (t.findOrder instrumentId (t.slab slot').orderId).isNone =
      (s.findOrder instrumentId (s.slab slot).orderId).isNone := by
    rw [hid, ← Option.not_isSome, ← Option.not_isSome, hmirrors.findOrder_isSome]
  refine ⟨⟨?_, ?_, ?_⟩, ?_, ?_⟩
  · exact hmirrors.grid_of_layout (SameLayout.rested hs) (SameLayout.rested ht)
  · rw [hs.orders, ht.orders, hmirrors.orders, hside, hnone]
    unfold Snapshot.orderView
    rw [hid, hprice, hside, htaker.quantity]
  · funext side i
    rw [hs.aggregates_eq, ht.aggregates_eq, hmirrors.aggregates, hside, htaker.quantity]
  · rw [hs.outbound_eq, ht.outbound_eq]
    exact hstate.inStep.reports
  · rw [hs.free_eq, ht.free_eq]
    exact hstate.inStep.free

theorem Ends.inStep {grid : PriceGrid} {fate : Fate} (hs : Ends msg grid slot s s' fate)
    (ht : Ends msg grid slot' t t' fate)
    (hstate : SweepsInStep msg.instrumentId slot slot' s₀ t₀ s t) :
    InStep msg.instrumentId s₀ t₀ s' t' := by
  cases fate with
  | released => exact hstate.inStep.released hs ht
  | acked =>
      rcases hs with ⟨s₁, timestampNs, hposted, hreleased⟩
      rcases ht with ⟨t₁, timestampNs', hposted', hreleased'⟩
      apply (hstate.inStep.posted hposted hposted' _).released hreleased hreleased'
      rw [hstate.taker.quantity]
      rfl
  | rested => exact Rested.inStep hs ht hstate
  | lost =>
      rw [show s' = s from hs, show t' = t from ht]
      exact hstate.inStep

/-- A new order takes the same way in both runs. -/
theorem NewOrderStep.pairedPhases (hs : NewOrderStep msg s s') (ht : NewOrderStep msg t t')
    (hmirrors : Mirrors msg.instrumentId s t)
    (hfree : s.engine.books msg.instrumentId ≠ none → (t.free = [] ↔ s.free = [])) :
    (∃ timestampNs timestampNs',
        Posted [rejectReport msg.orderId msg.quantity timestampNs] 1 s s' ∧
          Posted [rejectReport msg.orderId msg.quantity timestampNs'] 1 t t') ∨
      ∃ slot slot' s₁ t₁, Admitted msg slot s s₁ ∧ Admitted msg slot' t t₁ ∧
        ((∃ s₂ t₂ timestampNs timestampNs',
            (Posted [rejectReport msg.orderId msg.quantity timestampNs] 1 s₁ s₂ ∧
              Released slot s₂ s') ∧
            Posted [rejectReport msg.orderId msg.quantity timestampNs'] 1 t₁ t₂ ∧
              Released slot' t₂ t') ∨
          ∃ grid s₂ t₂,
            (Swept msg.instrumentId slot msg.accepts s₁ s₂ ∧
              Ends msg grid slot s₂ s' (msg.fate grid (s₂.slab slot).quantity)) ∧
            Swept msg.instrumentId slot' msg.accepts t₁ t₂ ∧
              Ends msg grid slot' t₂ t' (msg.fate grid (t₂.slab slot').quantity)) := by
  rcases hs.phases with ⟨hwhy, timestampNs, hposted⟩ |
    ⟨slot, book, s₁, hbook, hadmitted, hphases⟩
  · rcases ht.phases with ⟨_, timestampNs', hposted'⟩ |
      ⟨slot', book', t₁, hbook', hadmitted', _⟩
    · exact Or.inl ⟨timestampNs, timestampNs', hposted, hposted'⟩
    · exfalso
      rcases hwhy with hunlisted | hexhausted
      · rw [hmirrors.unlisted.mpr hunlisted] at hbook'
        exact absurd hbook' (by simp)
      · have hempty := hadmitted'.free_eq
        have hlisted : s.engine.books msg.instrumentId ≠ none := by
          rw [ne_eq, ← hmirrors.unlisted, hbook']
          simp
        rw [(hfree hlisted).mpr hexhausted] at hempty
        exact absurd hempty (by simp)
  · rcases ht.phases with ⟨hwhy', _⟩ | ⟨slot', book', t₁, hbook', hadmitted', hphases'⟩
    · exfalso
      rcases hwhy' with hunlisted | hexhausted
      · rw [hmirrors.unlisted.mp hunlisted] at hbook
        exact absurd hbook (by simp)
      · have hempty := hadmitted.free_eq
        rw [(hfree (by simp [hbook])).mp hexhausted] at hempty
        exact absurd hempty (by simp)
    · have hgrid := hmirrors.grid_eq hbook hbook'
      have hscan : msg.Infeasible book' ↔ msg.Infeasible book := by
        unfold InboundOrderMsg.Infeasible
        rw [OrderBook.available_congr hgrid (hmirrors.bestIdx_eq hbook hbook')
          (hmirrors.book_aggregates hbook hbook')]
      refine Or.inr ⟨slot, slot', s₁, t₁, hadmitted, hadmitted', ?_⟩
      rcases hphases with ⟨hshort, s₂, timestampNs, hrejected⟩ | ⟨hfeasible, s₂, hswept⟩
      · rcases hphases' with ⟨_, t₂, timestampNs', hrejected'⟩ | ⟨hfeasible', _⟩
        · exact Or.inl ⟨s₂, t₂, timestampNs, timestampNs', hrejected, hrejected'⟩
        · exact absurd (hscan.mpr hshort) hfeasible'
      · rcases hphases' with ⟨hshort', _⟩ | ⟨_, t₂, hswept'⟩
        · exact absurd (hscan.mp hshort') hfeasible
        · rw [hgrid] at hswept'
          exact Or.inr ⟨book.grid, s₂, t₂, hswept, hswept'⟩

theorem NewOrderStep.inStep (hs : NewOrderStep msg s s') (ht : NewOrderStep msg t t')
    (hmirrors : Mirrors msg.instrumentId s t)
    (hfree : s.engine.books msg.instrumentId ≠ none → (t.free = [] ↔ s.free = [])) :
    InStep msg.instrumentId s t s' t' := by
  have hstart := InStep.start hmirrors
  rcases hs.pairedPhases ht hmirrors hfree with ⟨_, _, hposted, hposted'⟩ |
    ⟨slot, slot', s₁, t₁, hadmitted, hadmitted', hphases⟩
  · exact hstart.posted hposted hposted' rfl
  · have hstate := hstart.admitted hadmitted hadmitted'
    rcases hphases with ⟨s₂, t₂, _, _, ⟨hposted, hreleased⟩, hposted', hreleased'⟩ |
      ⟨grid, s₂, t₂, ⟨hswept, hends⟩, hswept', hends'⟩
    · exact (hstate.inStep.posted hposted hposted' rfl).released hreleased hreleased'
    · have hstate' := hswept.inStep hswept' hstate
      rw [hstate'.taker.quantity] at hends'
      exact Ends.inStep hends hends' hstate'

/-! ## Cancellations -/

/-- The index names orders in the same place of both books. -/
theorem Mirrors.found (hmirrors : Mirrors instrumentId s t) {id : OrderId}
    (hfound : s.findOrder instrumentId id = some slot)
    (hfound' : t.findOrder instrumentId id = some slot') {side : BookSide} {i : ℕ}
    (hslot : slot ∈ s.queues instrumentId side i) :
    slot' ∈ t.queues instrumentId side i ∧
      t.orderView instrumentId slot' = s.orderView instrumentId slot := by
  have hid := (Snapshot.mem_of_findOrder hfound).2
  have hview : s.orderView instrumentId slot ∈ t.orders instrumentId side i := by
    rw [hmirrors.orders]
    exact List.mem_map_of_mem hslot
  rcases List.mem_map.mp hview with ⟨other, hother, heq⟩
  have hid' : (t.slab other).orderId = id := (congrArg OrderView.orderId heq).trans hid
  have hindexed : t.findOrder instrumentId id = some other := by
    have hflag : (t.orderView instrumentId other).indexed = true := by
      rw [heq, Snapshot.orderView, hid, hfound]
      exact decide_eq_true rfl
    have hnamed := of_decide_eq_true hflag
    rw [hid'] at hnamed
    exact hnamed
  rw [hfound', Option.some.injEq] at hindexed
  rw [hindexed]
  exact ⟨hother, heq⟩

theorem Removed.inStep {side side' : BookSide} {level level' : ℕ}
    {before after before' after' : List Slot}
    (hs : Removed instrumentId slot side level before after s s')
    (ht : Removed instrumentId slot' side' level' before' after' t t')
    (hstep : InStep instrumentId s₀ t₀ s t) {id : OrderId}
    (hfound : s.findOrder instrumentId id = some slot)
    (hfound' : t.findOrder instrumentId id = some slot') :
    InStep instrumentId s₀ t₀ s' t' ∧ (t.slab slot').quantity = (s.slab slot).quantity := by
  have hmirrors := hstep.mirrors
  rcases hmirrors.found hfound hfound' hs.slot_mem with ⟨hmem, hview⟩
  have hquantity : (t.slab slot').quantity = (s.slab slot).quantity :=
    congrArg OrderView.quantity hview
  have hid := (Snapshot.mem_of_findOrder hfound).2
  have hid' := (Snapshot.mem_of_findOrder hfound').2
  rcases t.rep.queue_unique hmem ht.slot_mem with ⟨_, hside, hlevel⟩
  refine ⟨⟨⟨?_, ?_, ?_⟩, ?_, ?_⟩, hquantity⟩
  · exact hmirrors.grid_of_layout (SameLayout.removed hs) (SameLayout.removed ht)
  · rw [hs.orders (hid.symm ▸ hfound), ht.orders (hid'.symm ▸ hfound'), hmirrors.orders, hid, hid']
  · funext other i
    rw [hs.aggregates_eq, ht.aggregates_eq, hmirrors.aggregates, hside, hlevel, hquantity]
  · rw [hs.outbound_eq, ht.outbound_eq]
    exact hstep.reports
  · rw [hs.free_eq, ht.free_eq]
    exact hstep.free

/-- A cancellation finds its order in both runs or in none. -/
theorem CancelStep.pairedPhases (hs : CancelStep msg s s') (ht : CancelStep msg t t')
    (hmirrors : Mirrors msg.instrumentId s t) :
    (s' = s ∧ t' = t) ∨
      ∃ slot slot' side side' level level' before before' after after' s₁ s₂ t₁ t₂ timestampNs
          timestampNs',
        s.findOrder msg.instrumentId msg.orderId = some slot ∧
          t.findOrder msg.instrumentId msg.orderId = some slot' ∧
          (Removed msg.instrumentId slot side level before after s s₁ ∧
            Posted [cancelAckReport msg.orderId (s.slab slot).quantity timestampNs] 0 s₁ s₂ ∧
            Released slot s₂ s') ∧
          Removed msg.instrumentId slot' side' level' before' after' t t₁ ∧
            Posted [cancelAckReport msg.orderId (t.slab slot').quantity timestampNs'] 0 t₁ t₂ ∧
            Released slot' t₂ t' := by
  have hsame := hmirrors.findOrder_isSome msg.orderId
  have hignored : ∀ u : Snapshot,
      (∀ book, u.engine.books msg.instrumentId = some book →
        book.findOrder msg.orderId = none) →
      (u.findOrder msg.instrumentId msg.orderId).isSome = false := by
    intro u hwhy
    cases hbook : u.engine.books msg.instrumentId with
    | none => simp [Snapshot.findOrder, hbook]
    | some book =>
        rw [Snapshot.findOrder_eq hbook, hwhy book hbook]
        rfl
  cases hs with
  | ignored hnothing hwhy =>
      rw [hignored s hwhy] at hsame
      cases ht with
      | ignored hnothing' => exact Or.inl ⟨hnothing, hnothing'⟩
      | cancelled slot' book' side' level' before' after' t₁ t₂ _ hbook' hfound' =>
          rw [Snapshot.findOrder_eq hbook', hfound'] at hsame
          exact absurd hsame (by simp)
  | cancelled slot book side level before after s₁ s₂ timestampNs hbook hfound _ hremoved
      hposted hreleased =>
      rw [← Snapshot.findOrder_eq hbook] at hfound
      cases ht with
      | ignored _ hwhy' =>
          rw [hignored t hwhy', hfound] at hsame
          exact absurd hsame (by simp)
      | cancelled slot' book' side' level' before' after' t₁ t₂ timestampNs' hbook' hfound' _
          hremoved' hposted' hreleased' =>
          rw [← Snapshot.findOrder_eq hbook'] at hfound'
          exact Or.inr ⟨slot, slot', side, side', level, level', before, before', after, after',
            s₁, s₂, t₁, t₂, timestampNs, timestampNs', hfound, hfound',
            ⟨hremoved, hposted, hreleased⟩, hremoved', hposted', hreleased'⟩

theorem CancelStep.inStep (hs : CancelStep msg s s') (ht : CancelStep msg t t')
    (hmirrors : Mirrors msg.instrumentId s t) : InStep msg.instrumentId s t s' t' := by
  have hstart := InStep.start hmirrors
  rcases hs.pairedPhases ht hmirrors with ⟨hnothing, hnothing'⟩ |
    ⟨slot, slot', side, side', level, level', before, before', after, after', s₁, s₂, t₁, t₂, _,
      _, hfound, hfound', ⟨hremoved, hposted, hreleased⟩, hremoved', hposted', hreleased'⟩
  · rw [hnothing, hnothing']
    exact hstart
  · rcases hremoved.inStep hremoved' hstart hfound hfound' with ⟨hstep, hquantity⟩
    apply (hstep.posted hposted hposted' _).released hreleased hreleased'
    rw [hquantity]
    rfl

/-- The same message in mirrored books, with slots left in both pools or in none if it
needs one. -/
theorem MessageStep.inStep (hs : MessageStep msg s s') (ht : MessageStep msg t t')
    (hmirrors : Mirrors msg.instrumentId s t)
    (hfree : msg.kind = .newOrder → s.engine.books msg.instrumentId ≠ none →
      (t.free = [] ↔ s.free = [])) :
    InStep msg.instrumentId s t s' t' := by
  cases hs with
  | newOrder s₁ hkind hs hcounted =>
      rcases ht.newOrder_step hkind with ⟨t₁, ht, hcounted'⟩
      exact (hs.inStep ht hmirrors (hfree hkind)).posted hcounted hcounted' rfl
  | cancel s₁ hkind hs hcounted =>
      cases ht with
      | newOrder t₁ hkind' ht hcounted' => simp [hkind'] at hkind
      | cancel t₁ _ ht hcounted' =>
          exact (hs.inStep ht hmirrors).posted hcounted hcounted' rfl
      | ignored byte hkind' hcounted' => simp [hkind'] at hkind
  | ignored byte hkind hcounted =>
      cases ht with
      | newOrder t₁ hkind' ht hcounted' =>
          rw [hkind] at hkind'
          exact absurd hkind' (by simp)
      | cancel t₁ hkind' ht hcounted' => simp [hkind] at hkind'
      | ignored byte' _ hcounted' =>
          exact (InStep.start hmirrors).posted hcounted hcounted' rfl

end Messages

end NanoMatch
