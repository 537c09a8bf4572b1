import NanoMatch.DebugBuild

/-!
# What the debug build rejects

As long as the level totals are exact, only three asserts of the debug build can fail:
the residual of a limit order has no level to rest at, the feasibility scan looks up a
price between two ticks, or a fill-or-kill order which passed the scan is not filled.  In
every other case the debug build computes what the release build computes.
-/

namespace NanoMatch

open OrderBook

/-! ## Book operations -/

section Book

variable {slab : Slab} {book : OrderBook} {queues : Queues} {side : BookSide} {i : ℕ}
  {slot : Slot}

theorem PriceGrid.tickToIndexDebug_ok {grid : PriceGrid} {price : Price}
    (hvalid : grid.isValidPrice price = true) :
    grid.tickToIndexDebug price = .ok (grid.tickToIndex price) :=
  asserting_of_holds hvalid

theorem detachDebug_ok (side : BookSide) (idx : ℕ) {level : PriceLevel} (status : OrderStatus)
    (hcount : 1 ≤ level.orderCount) (htotal : (slab slot).quantity ≤ level.totalQty) :
    detachDebug slab book side idx level slot status =
      .ok (detach slab book side idx level slot status) := by
  unfold detachDebug levelRemoveDebug
  simp only
  rw [asserting_of_holds (by simpa using hcount), asserting_of_holds (by simpa using htotal)]
  rfl

theorem LevelsRep.cancelOrderDebug_ok
    (hrep : LevelsRep slab book.grid book.sideLevels queues) (hslot : slot ∈ queues side i)
    (hcount : 1 ≤ (book.sideLevels side i).orderCount)
    (htotal : (slab slot).quantity ≤ (book.sideLevels side i).totalQty) :
    cancelOrderDebug slab book (some slot) = .ok (cancelOrder slab book (some slot)) := by
  have hvalid := hrep.isValidPrice hslot
  unfold cancelOrderDebug cancelOrder
  simp only
  rw [asserting_of_holds hvalid, PriceGrid.tickToIndexDebug_ok hvalid, hrep.tickToIndex hslot,
    (hrep.placed side i slot hslot).side_eq]
  simp only [hvalid, Bool.not_true, Bool.false_eq_true, if_false]
  exact detachDebug_ok side i .cancelled hcount htotal

theorem LevelsRep.fillRestingOrderDebug_ok {fillQty : Quantity}
    (hrep : LevelsRep slab book.grid book.sideLevels queues) (hslot : slot ∈ queues side i)
    (hpos : 0 < fillQty) (hle : fillQty ≤ (slab slot).quantity)
    (hcount : 1 ≤ (book.sideLevels side i).orderCount)
    (htotal : fillQty ≤ (book.sideLevels side i).totalQty) :
    fillRestingOrderDebug slab book (some slot) fillQty =
      .ok (fillRestingOrder slab book (some slot) fillQty) := by
  have hvalid := hrep.isValidPrice hslot
  unfold fillRestingOrderDebug fillRestingOrder
  simp only
  rw [asserting_of_holds (by simpa using hpos), asserting_of_holds (by simpa using hle),
    PriceGrid.tickToIndexDebug_ok hvalid, hrep.tickToIndex hslot,
    (hrep.placed side i slot hslot).side_eq]
  simp only [hvalid, Bool.not_true, Bool.false_eq_true, if_false]
  change asserting _ _ _ = _
  rw [asserting_of_holds (by simpa using htotal)]
  split_ifs with hdone
  · have hempty : (slab.setQuantity slot ((slab slot).quantity - fillQty) slot).quantity ≤
        (book.sideLevels side i).totalQty - fillQty := by
      rw [hdone]
      exact UInt32.zero_le
    rw [detachDebug_ok]
    · rfl
    · exact hcount
    · exact hempty
  · rfl

end Book

/-! ## The sweep -/

section Sweep

variable {s : Snapshot} {instrumentId : InstrumentId} {book : OrderBook} {agg : Slot}
  {priceOk : Price → Bool}

theorem Snapshot.LevelsExact.covered (hexact : s.LevelsExact)
    (hbook : s.engine.books instrumentId = some book) {side : BookSide} {i : ℕ} {slot : Slot}
    (hslot : slot ∈ s.queues instrumentId side i) :
    (s.slab slot).quantity ≤ (book.sideLevels side i).totalQty ∧
      1 ≤ (book.sideLevels side i).orderCount := by
  have hcovered := (s.totalsExact_iff.mpr hexact).covered instrumentId book hbook side i slot
  rw [s.rep.queue_eq] at hcovered
  exact hcovered hslot

theorem Engine.releaseDebug_ok {engine : Engine} {slot : Slot}
    (hbound : slot < engine.pool.capacity) :
    engine.releaseDebug slot = .ok (engine.release slot) :=
  asserting_of_holds (by simpa using hbound)

theorem Engine.tradeDebug_ok {engine : Engine} {agg rest : Slot}
    {result : Bool × Slab × OrderBook}
    (hresult : fillRestingOrder
      (engine.slab.setQuantity agg ((engine.slab agg).quantity -
        fillQuantity (engine.slab rest) (engine.slab agg))) book (some rest)
      (fillQuantity (engine.slab rest) (engine.slab agg)) = result)
    (hdebug : fillRestingOrderDebug
      (engine.slab.setQuantity agg ((engine.slab agg).quantity -
        fillQuantity (engine.slab rest) (engine.slab agg))) book (some rest)
      (fillQuantity (engine.slab rest) (engine.slab agg)) = .ok result)
    (hbound : rest < engine.pool.capacity) :
    engine.tradeDebug instrumentId book agg rest =
      .ok (engine.trade instrumentId book agg rest) := by
  unfold Engine.tradeDebug Engine.trade
  simp only [hresult, hdebug]
  rcases result with ⟨restDone, state⟩
  cases restDone with
  | false => rfl
  | true => exact releaseDebug_ok hbound

/-- The fill of an iteration passes every assert of `fill_resting_order`. -/
theorem Snapshot.LevelsExact.tradeDebug_ok (hexact : s.LevelsExact) (hloose : s.IsLoose agg)
    (hbook : s.engine.books instrumentId = some book)
    (hunfilled : 0 < (s.slab agg).remaining) {side : BookSide} {i : ℕ} {maker : Slot}
    (hmaker : maker ∈ s.queues instrumentId side i) :
    s.engine.tradeDebug instrumentId book agg maker =
      .ok (s.engine.trade instrumentId book agg maker) := by
  have hrep := s.rep.bookRep _ book hbook
  have hne : maker ≠ agg := Snapshot.ne_of_isLoose hloose hmaker
  have hle := Engine.fillQuantity_le_rest (s.slab maker) (s.slab agg)
  have hpos : 0 < Engine.fillQuantity (s.slab maker) (s.slab agg) := by
    have hquantity := Engine.fillQuantity_toNat (s.slab maker) (s.slab agg)
    rw [UInt32.lt_iff_toNat_lt, hquantity]
    exact lt_min (hrep.positive side i maker hmaker) hunfilled
  rcases hexact.covered hbook hmaker with ⟨htotal, hcount⟩
  have hdebited := hrep.toLevelsRep.congr (Slab.nextOf_setQuantity s.engine.slab agg
      ((s.slab agg).quantity - Engine.fillQuantity (s.slab maker) (s.slab agg)))
    (Slab.prevOf_setQuantity _ agg _) (fun slot => Slab.terms_setQuantity _ agg slot _)
  apply Engine.tradeDebug_ok rfl
  · apply hdebited.fillRestingOrderDebug_ok hmaker hpos
    · rw [Slab.quantity_setQuantity, if_neg hne]
      exact hle
    · exact hcount
    · exact UInt32.le_trans hle htotal
  · exact s.rep.bound _ _ _ _ hmaker

theorem Snapshot.LevelsExact.sweepStepDebug_ok (hexact : s.LevelsExact)
    (hloose : s.IsLoose agg) :
    s.engine.sweepStepDebug instrumentId agg priceOk =
      .ok (s.engine.sweepStep instrumentId agg priceOk) := by
  unfold Engine.sweepStepDebug Engine.sweepStep
  cases hbook : s.engine.books instrumentId with
  | none => rfl
  | some book =>
      simp only
      by_cases hzero : (s.engine.slab agg).quantity = 0
      · rw [if_pos hzero, if_pos hzero]
      · rw [if_neg hzero, if_neg hzero]
        have hunfilled : 0 < (s.slab agg).remaining := by
          apply Nat.pos_of_ne_zero
          intro hremaining
          exact hzero (UInt32.toNat_inj.mp hremaining)
        cases hlevel : book.bestLevel (s.engine.slab agg).side.bookSide.opposite with
        | none => rfl
        | some best =>
            rcases Snapshot.bestLevel_some hbook hlevel with
              ⟨level, maker, behind, hqueue, hhead, _, _⟩
            have hmaker : maker ∈ s.queues instrumentId
                (s.engine.slab agg).side.bookSide.opposite level := by
              rw [hqueue]
              simp
            simp only [hhead]
            split_ifs
            · rfl
            · rw [hexact.tradeDebug_ok hloose hbook hunfilled hmaker]
              rfl

/-- A trade leaves the status of the incoming order alone. -/
theorem Snapshot.trade_status (hloose : s.IsLoose agg)
    (hbook : s.engine.books instrumentId = some book) {maker : Slot} {level : ℕ}
    {behind : List Slot}
    (hqueue : s.queues instrumentId (s.makerSide agg) level = maker :: behind) :
    ((s.engine.trade instrumentId book agg maker).slab agg).status =
      (s.slab agg).status := by
  have hmaker : maker ∈ s.queues instrumentId (s.makerSide agg) level := by
    rw [hqueue]
    simp
  have hne : agg ≠ maker := (Snapshot.ne_of_isLoose hloose hmaker).symm
  have hfilled := filled_of_trade hloose hbook hqueue rfl
    ((s.slab agg).quantity - Engine.fillQuantity (s.slab maker) (s.slab agg))
  have hkept := hfilled.outside agg (hloose.notQueued instrumentId _ _)
  rw [s.engine.trade_eq instrumentId book agg maker rfl rfl]
  have hsettled : ∀ result : Bool × Slab × OrderBook,
      result.2.1 agg = s.slab.setQuantity agg ((s.slab agg).quantity -
        Engine.fillQuantity (s.slab maker) (s.slab agg)) agg →
      ((if result.1 then (s.engine.settled instrumentId agg maker
            (Engine.fillQuantity (s.slab maker) (s.slab agg)) result).release maker
        else s.engine.settled instrumentId agg maker
            (Engine.fillQuantity (s.slab maker) (s.slab agg)) result).slab agg).status =
        (s.slab agg).status := by
    intro result hresult
    have hstatus : (result.2.1 agg).status = (s.slab agg).status := by
      rw [hresult]
      simp [Slab.setQuantity]
    split_ifs
    · simpa [Engine.release, Engine.slab, OrderPool.release, Slab.setPrev, Slab.setNext,
        Engine.settled, hne] using hstatus
    · exact hstatus
  exact hsettled _ hkept

theorem Snapshot.sweepStep_status (hloose : s.IsLoose agg) {next : Engine}
    (hstep : s.engine.sweepStep instrumentId agg priceOk = some next) :
    (next.slab agg).status = (s.slab agg).status := by
  unfold Engine.sweepStep at hstep
  cases hbook : s.engine.books instrumentId with
  | none => simp [hbook] at hstep
  | some book =>
      simp only [hbook] at hstep
      split_ifs at hstep with hzero
      cases hlevel : book.bestLevel (s.engine.slab agg).side.bookSide.opposite with
      | none => simp [hlevel] at hstep
      | some best =>
          rcases Snapshot.bestLevel_some hbook hlevel with
            ⟨level, maker, behind, hqueue, hhead, _, _⟩
          simp only [hlevel, hhead] at hstep
          split_ifs at hstep with hok
          rw [Option.map_some, Option.some.injEq] at hstep
          rw [← hstep]
          exact Snapshot.trade_status hloose hbook hqueue

theorem Snapshot.LevelsExact.sweepFuelDebug_ok (fuel : ℕ) (hexact : s.LevelsExact)
    (hloose : s.IsLoose agg) (hbook : s.engine.books instrumentId = some book)
    (hcheck : PriceCheck (s.makerSide agg) priceOk) :
    Engine.sweepFuelDebug instrumentId agg priceOk fuel s.engine =
        .ok (Engine.sweepFuel instrumentId agg priceOk fuel s.engine) ∧
      ((Engine.sweepFuel instrumentId agg priceOk fuel s.engine).slab agg).status =
        (s.slab agg).status := by
  induction fuel generalizing s book with
  | zero => exact ⟨rfl, rfl⟩
  | succ fuel ih =>
      have hstep := Snapshot.sweepStep_spec hloose hbook hcheck
      unfold Engine.sweepFuelDebug Engine.sweepFuel
      rw [hexact.sweepStepDebug_ok hloose]
      cases hnext : s.engine.sweepStep instrumentId agg priceOk with
      | none => exact ⟨rfl, rfl⟩
      | some next =>
          have hstatus := Snapshot.sweepStep_status hloose hnext
          rw [hnext] at hstep
          rcases hstep with ⟨s', hengine, ⟨maker, level, behind, htraded, _⟩, hloose'⟩
          rcases htraded.listed with ⟨book', hbook'⟩
          rw [← htraded.makerSide_eq] at hcheck
          have hrest := ih (hexact.traded htraded hloose) hloose' hbook' hcheck
          rw [hengine] at hrest
          refine ⟨hrest.1, hrest.2.trans ?_⟩
          unfold Snapshot.slab at hstatus ⊢
          rw [hengine]
          exact hstatus

end Sweep

/-! ## Messages -/

namespace Engine

/-- The assert which fails for a new order of an instrument with this book. -/
def orderViolation (engine : Engine) (book : OrderBook) (msg : InboundOrderMsg) :
    Option Assertion :=
  match msg.orderType with
  | .limit =>
      if engine.crossingQuantity msg < msg.quantity.toNat ∧
          book.grid.isValidPrice msg.price = false then
        some .isValidPrice
      else none
  | .fok =>
      if book.scanLooksUp msg.orderSide msg.price ∧
          book.grid.isValidPrice msg.price = false then
        some .isValidPrice
      else if ¬ book.availableQuantityAtOrBetter msg.orderSide msg.price < msg.quantity ∧
          engine.crossingQuantity msg < msg.quantity.toNat then
        some .fokFilled
      else none
  | _ => none

/-- The assert which fails while a message is dispatched. -/
def violation (engine : Engine) (msg : InboundOrderMsg) : Option Assertion :=
  if msg.kind = .newOrder ∧ engine.pool.freelistHead.isSome then
    (engine.books msg.instrumentId).bind fun book => engine.orderViolation book msg
  else none

end Engine

section Messages

variable {s s₀ : Snapshot} {msg : InboundOrderMsg} {slot : Slot} {book : OrderBook}

theorem Admitted.sweepLimitDebug_ok (hadmitted : Admitted msg slot s s₀)
    (hexact : s₀.LevelsExact) (hbook : s.engine.books msg.instrumentId = some book) :
    s₀.engine.sweepLimitDebug msg.instrumentId slot =
        .ok (s₀.engine.sweepLimit msg.instrumentId slot) ∧
      ((s₀.engine.sweepLimit msg.instrumentId slot).slab slot).status = .new := by
  rw [← hadmitted.books_eq] at hbook
  have hsweep := hexact.sweepFuelDebug_ok (s₀.engine.slab slot).quantity.toNat hadmitted.loose
    hbook (priceCheck_limitOk (s₀.slab slot))
  refine ⟨hsweep.1, hsweep.2.trans ?_⟩
  rw [hadmitted.order]
  rfl

theorem Admitted.doSweepDebug_ok (hadmitted : Admitted msg slot s s₀)
    (hexact : s₀.LevelsExact) (hbook : s.engine.books msg.instrumentId = some book) :
    s₀.engine.doSweepDebug msg.instrumentId slot (fun _ => true) =
      .ok (s₀.engine.doSweep msg.instrumentId slot (fun _ => true)) := by
  rw [← hadmitted.books_eq] at hbook
  exact (hexact.sweepFuelDebug_ok _ hadmitted.loose hbook
    (priceCheck_market (s₀.makerSide slot))).1

theorem Snapshot.releaseDebug_ok (hloose : s.IsLoose slot) :
    s.engine.releaseDebug slot = .ok (s.engine.release slot) :=
  Engine.releaseDebug_ok hloose.bound

theorem Snapshot.ackDebug_ok (hloose : s.IsLoose slot) :
    (s.engine.ackResidual slot).releaseDebug slot =
      .ok ((s.engine.ackResidual slot).release slot) := by
  apply Engine.releaseDebug_ok
  unfold Engine.ackResidual
  split_ifs
  · exact hloose.bound
  · exact hloose.bound

/-- Resting passes its asserts when the price is on the grid. -/
theorem Engine.restDebug_eq {engine : Engine}
    (hbook : engine.books msg.instrumentId = some book)
    (hstatus : (engine.slab slot).status = .new) :
    engine.restDebug msg.instrumentId slot =
      if book.grid.isValidPrice (engine.slab slot).price then
        .ok (engine.rest msg.instrumentId slot)
      else .error .isValidPrice := by
  have hactive : (engine.slab slot).isActive = true := by
    unfold Order.isActive
    rw [hstatus]
    rfl
  unfold Engine.restDebug Engine.rest addOrderDebug
  simp only [hbook]
  rw [asserting_of_holds hactive]
  cases hvalid : book.grid.isValidPrice (engine.slab slot).price with
  | true =>
      rw [asserting_of_holds rfl, PriceGrid.tickToIndexDebug_ok hvalid]
      rfl
  | false =>
      rw [asserting_of_fails rfl]
      rfl

theorem Admitted.matchLimitDebug_eq (hadmitted : Admitted msg slot s s₀)
    (hexact : s₀.LevelsExact) (hbook : s.engine.books msg.instrumentId = some book)
    (htype : msg.orderType = .limit) :
    s₀.engine.matchLimitDebug msg.instrumentId slot =
      (s.engine.orderViolation book msg).elim
        (.ok (s₀.engine.matchLimit msg.instrumentId slot)) .error := by
  rcases hadmitted.sweepLimitDebug_ok hexact hbook with ⟨hdebug, hstatus⟩
  rcases hadmitted.exists_swept_limit hbook (by simp [htype]) with ⟨s₁, hengine, hswept⟩
  have hresidual := hadmitted.residual_eq hbook hswept
  have hprice : (s₁.engine.slab slot).price = msg.price := (hadmitted.swept_terms hswept).2.1
  have hbook₀ := hbook
  rw [← hadmitted.books_eq] at hbook₀
  rcases hswept.listed hbook₀ with ⟨book₁, hbook₁, hgrid⟩
  unfold Engine.matchLimitDebug Engine.matchLimit Engine.orderViolation
  rw [hdebug]
  rw [← hengine] at hstatus ⊢
  simp only [htype]
  change (if 0 < (s₁.engine.slab slot).quantity then _ else _) = _
  by_cases hpos : 0 < (s₁.engine.slab slot).quantity
  · have hmore : s.engine.crossingQuantity msg < msg.quantity.toNat := by
      have hremaining : 0 < (s₁.slab slot).remaining := Quantity.pos_iff.mp hpos
      omega
    rw [if_pos hpos, if_pos hpos, Engine.restDebug_eq hbook₁ hstatus, hgrid, hprice]
    cases hvalid : book.grid.isValidPrice msg.price with
    | true => simp
    | false => simp [hmore]
  · have hless : ¬ s.engine.crossingQuantity msg < msg.quantity.toNat := by
      have hremaining : ¬ 0 < (s₁.slab slot).remaining :=
        fun hremaining => hpos (Quantity.pos_iff.mpr hremaining)
      omega
    rw [if_neg hpos, if_neg hpos, Snapshot.releaseDebug_ok hswept.loose]
    simp [hless]

theorem Snapshot.rejectDebug_ok (hloose : s.IsLoose slot) :
    s.engine.rejectDebug slot =
      .ok ((s.engine.postReject (s.engine.slab slot).orderId
        (s.engine.slab slot).quantity).release slot).countReject := by
  have hreleased : (s.engine.postReject (s.engine.slab slot).orderId
      (s.engine.slab slot).quantity).releaseDebug slot = .ok _ :=
    Engine.releaseDebug_ok hloose.bound
  unfold Engine.rejectDebug
  rw [hreleased]
  rfl

theorem OrderBook.availableDebug_eq (book : OrderBook) (side : Side) (price : Price) :
    book.availableQuantityAtOrBetterDebug side price =
      if book.scanLooksUp side price ∧ book.grid.isValidPrice price = false then
        .error .isValidPrice
      else .ok (book.availableQuantityAtOrBetter side price) := by
  unfold OrderBook.availableQuantityAtOrBetterDebug PriceGrid.tickToIndexDebug
  cases hlooks : book.scanLooksUp side price with
  | false => simp
  | true =>
      cases hvalid : book.grid.isValidPrice price with
      | false =>
          rw [asserting_of_fails rfl]
          rfl
      | true =>
          rw [asserting_of_holds rfl]
          rfl

theorem Admitted.matchFokDebug_eq (hadmitted : Admitted msg slot s s₀)
    (hexact : s₀.LevelsExact) (hbook : s.engine.books msg.instrumentId = some book)
    (htype : msg.orderType = .fok) :
    s₀.engine.matchFokDebug msg.instrumentId book slot =
      (s.engine.orderViolation book msg).elim
        (.ok (s₀.engine.matchFok msg.instrumentId book slot)) .error := by
  have horder : s₀.engine.slab slot = Engine.populated msg s.engine.nowNs := hadmitted.order
  have hside : (s₀.engine.slab slot).side = msg.orderSide := by
    rw [horder]
    rfl
  have hprice : (s₀.engine.slab slot).price = msg.price := by
    rw [horder]
    rfl
  have hquantity : (s₀.engine.slab slot).quantity = msg.quantity := by
    rw [horder]
    rfl
  have hreject := Snapshot.rejectDebug_ok hadmitted.loose
  unfold Engine.matchFokDebug Engine.matchFok Engine.orderViolation
  simp only [htype, hside, hprice, hquantity, book.availableDebug_eq] at hreject ⊢
  by_cases hlookup : book.scanLooksUp msg.orderSide msg.price = true ∧
      book.grid.isValidPrice msg.price = false
  · rw [if_pos hlookup, if_pos hlookup]
    rfl
  · rw [if_neg hlookup, if_neg hlookup]
    change (if book.availableQuantityAtOrBetter msg.orderSide msg.price < msg.quantity
      then _ else _) = _
    by_cases hshort :
        book.availableQuantityAtOrBetter msg.orderSide msg.price < msg.quantity
    · rw [if_pos hshort, if_pos hshort, hreject]
      simp [hshort]
    · rw [if_neg hshort, if_neg hshort]
      rcases hadmitted.sweepLimitDebug_ok hexact hbook with ⟨hdebug, _⟩
      rcases hadmitted.exists_swept_limit hbook (by simp [htype]) with ⟨s₁, hengine, hswept⟩
      have hresidual := hadmitted.residual_eq hbook hswept
      rw [hdebug, ← hengine]
      change asserting _ _ (s₁.engine.releaseDebug slot) = _
      rw [Snapshot.releaseDebug_ok hswept.loose]
      by_cases hzero : (s₁.engine.slab slot).quantity = 0
      · have hfilled : ¬ s.engine.crossingQuantity msg < msg.quantity.toNat := by
          have hremaining : (s₁.slab slot).remaining = 0 := by
            unfold Order.remaining Snapshot.slab
            rw [hzero]
            rfl
          omega
        rw [asserting_of_holds (by simpa using hzero)]
        simp [hfilled]
      · have hunfilled : s.engine.crossingQuantity msg < msg.quantity.toNat := by
          have hremaining : (s₁.slab slot).remaining ≠ 0 :=
            fun hremaining => hzero (UInt32.toNat_inj.mp hremaining)
          omega
        rw [asserting_of_fails (by simpa using hzero)]
        simp [hshort, hunfilled]

theorem Admitted.matchOrderDebug_eq (hadmitted : Admitted msg slot s s₀)
    (hexact : s₀.LevelsExact) (hbook : s.engine.books msg.instrumentId = some book) :
    s₀.engine.matchOrderDebug msg.instrumentId book slot =
      (s.engine.orderViolation book msg).elim
        (.ok (s₀.engine.matchOrder msg.instrumentId book slot)) .error := by
  have htype : (s₀.engine.slab slot).type = msg.orderType := by
    change (s₀.slab slot).type = _
    rw [hadmitted.order]
    rfl
  unfold Engine.matchOrderDebug Engine.matchOrder
  rw [htype]
  cases hcase : msg.orderType with
  | limit => exact hadmitted.matchLimitDebug_eq hexact hbook hcase
  | market =>
      rcases hadmitted.exists_swept_market hbook hcase with ⟨s₁, hengine, hswept⟩
      have hack := Snapshot.ackDebug_ok hswept.loose
      unfold Engine.matchMarketDebug Engine.orderViolation
      rw [hadmitted.doSweepDebug_ok hexact hbook, ← hengine]
      simp only [hcase]
      change (s₁.engine.ackResidual slot).releaseDebug slot = _
      rw [hack, hengine]
      rfl
  | ioc =>
      rcases hadmitted.exists_swept_limit hbook (by simp [hcase]) with ⟨s₁, hengine, hswept⟩
      have hack := Snapshot.ackDebug_ok hswept.loose
      unfold Engine.matchIocDebug Engine.orderViolation
      rw [(hadmitted.sweepLimitDebug_ok hexact hbook).1, ← hengine]
      simp only [hcase]
      change (s₁.engine.ackResidual slot).releaseDebug slot = _
      rw [hack, hengine]
      rfl
  | fok => exact hadmitted.matchFokDebug_eq hexact hbook hcase
  | raw byte =>
      unfold Engine.orderViolation
      simp only [hcase]
      exact Snapshot.rejectDebug_ok hadmitted.loose

theorem Snapshot.LevelsExact.handleNewOrderDebug_eq (hexact : s.LevelsExact)
    (hkind : msg.kind = .newOrder) :
    s.engine.handleNewOrderDebug msg =
      (s.engine.violation msg).elim (.ok (s.engine.handleNewOrder msg)) .error := by
  unfold Engine.handleNewOrderDebug Engine.handleNewOrder Engine.violation
  cases hbook : s.engine.books msg.instrumentId with
  | none => simp
  | some book =>
      simp only [hkind]
      cases hacquire : s.engine.pool.acquire with
      | none =>
          have hnone : s.engine.pool.freelistHead = none := by
            cases hhead : s.engine.pool.freelistHead with
            | none => rfl
            | some slot => simp [OrderPool.acquire, hhead] at hacquire
          simp [hnone]
      | some acquired =>
          rcases s.admitted_of_acquire msg hacquire with ⟨s₀, hengine, hadmitted⟩
          simp only [hadmitted.freelistHead_eq]
          simp only [← hengine]
          exact hadmitted.matchOrderDebug_eq (hexact.admitted hadmitted) hbook

theorem Snapshot.LevelsExact.handleCancelDebug_ok (hexact : s.LevelsExact)
    (msg : InboundOrderMsg) :
    s.engine.handleCancelDebug msg = .ok (s.engine.handleCancel msg) := by
  unfold Engine.handleCancelDebug Engine.handleCancel
  cases hbook : s.engine.books msg.instrumentId with
  | none => rfl
  | some book =>
      simp only
      cases hfound : book.findOrder msg.orderId with
      | none => rfl
      | some slot =>
          have hrep := s.rep.bookRep _ book hbook
          rcases hrep.indexed _ _ hfound with ⟨⟨side, i, hslot⟩, _⟩
          rcases hexact.covered hbook hslot with ⟨htotal, hcount⟩
          simp only [hrep.toLevelsRep.cancelOrderDebug_ok hslot hcount htotal]
          exact Engine.releaseDebug_ok (s.rep.bound _ _ _ _ hslot)

/-- While the totals are exact, a message stops the debug build exactly at its violation. -/
theorem Snapshot.LevelsExact.dispatchDebug_eq (hexact : s.LevelsExact)
    (msg : InboundOrderMsg) :
    s.engine.dispatchDebug msg =
      (s.engine.violation msg).elim (.ok (s.engine.dispatch msg)) .error := by
  have hnone : msg.kind ≠ .newOrder → s.engine.violation msg = none := by
    intro hkind
    simp [Engine.violation, hkind]
  unfold Engine.dispatchDebug Engine.dispatch
  cases hkind : msg.kind with
  | newOrder => exact hexact.handleNewOrderDebug_eq hkind
  | cancel =>
      rw [hnone (by simp [hkind])]
      exact hexact.handleCancelDebug_ok msg
  | modify =>
      rw [hnone (by simp [hkind])]
      exact hexact.handleCancelDebug_ok msg
  | raw byte =>
      rw [hnone (by simp [hkind])]
      rfl

theorem Snapshot.LevelsExact.submitDebug_eq (hexact : s.LevelsExact) (msg : InboundOrderMsg) :
    s.engine.submitDebug msg =
      (s.engine.violation msg).elim (.ok (s.engine.submit msg)) .error := by
  unfold Engine.submitDebug
  rw [hexact.dispatchDebug_eq msg]
  cases s.engine.violation msg <;> rfl

end Messages

/-! ## Runs -/

/-- The first assert which fails along the run of the release build. -/
def Engine.firstViolation (engine : Engine) : List Engine.Event → Option Assertion
  | [] => none
  | .message msg :: events =>
      (engine.violation msg).or (Engine.firstViolation (engine.submit msg) events)
  | .reset :: events => Engine.firstViolation engine.resetState events

theorem ResetStep.levelsExact {s s' : Snapshot} (hreset : ResetStep s s') : s'.LevelsExact := by
  apply Snapshot.LevelsExact.of_empty hreset.queues_eq
  intro instrumentId book hbook side i
  rw [hreset.books_eq, Option.map_eq_some_iff] at hbook
  rcases hbook with ⟨old, _, rfl⟩
  cases side <;> rfl

theorem Snapshot.LevelsExact.runDebug_eq {s : Snapshot} (hexact : s.LevelsExact)
    (events : List Engine.Event)
    (hfits : ∀ before msg after, events = before ++ .message msg :: after →
      (s.engine.run before).FitsLevel msg) :
    s.engine.runDebug events =
      (s.engine.firstViolation events).elim (.ok (s.engine.run events)) .error := by
  induction events generalizing s with
  | nil => rfl
  | cons event events ih =>
      have hlater : ∀ before msg after, events = before ++ .message msg :: after →
          ((s.engine.step event).run before).FitsLevel msg := by
        intro before msg after hsplit
        exact hfits (event :: before) msg after (by simp [hsplit])
      rcases s.event_step event with ⟨s', hengine, hevent⟩
      rw [← hengine] at hlater
      have hrun : s.engine.run (event :: events) = s'.engine.run events := by
        rw [hengine]
        rfl
      rw [hrun]
      change (s.engine.stepDebug event >>= fun engine => engine.runDebug events) = _
      cases hevent with
      | message hstep =>
          rename_i msg
          have hrest := ih (hexact.message (hfits [] msg events rfl) hstep) hlater
          have hsubmit : s'.engine = s.engine.submit msg := hengine
          change (s.engine.submitDebug msg >>= fun engine => engine.runDebug events) = _
          unfold Engine.firstViolation
          rw [hexact.submitDebug_eq msg, ← hsubmit]
          cases hviolation : s.engine.violation msg with
          | none =>
              rw [Option.none_or, ← hrest]
              rfl
          | some assertion => rfl
      | reset hstep =>
          have hrest := ih hstep.levelsExact hlater
          have hreset : s'.engine = s.engine.resetState := hengine
          unfold Engine.firstViolation
          rw [← hreset, ← hrest, hreset]
          rfl

/-- As long as every order which comes to rest leaves the sum of its level in 32 bits, the
debug build ends a run like the release build, or stops at the first violation. -/
theorem runDebug_firstViolation (capacity : ℕ) (clock : ℕ → UInt64)
    (listings : List (InstrumentId × PriceGrid)) (events : List Engine.Event)
    (hfits : ∀ before msg after, events = before ++ .message msg :: after →
      ((Engine.listed capacity clock listings).run before).FitsLevel msg) :
    (Engine.listed capacity clock listings).runDebug events =
      ((Engine.listed capacity clock listings).firstViolation events).elim
        (.ok ((Engine.listed capacity clock listings).run events)) .error := by
  rcases Snapshot.exists_initial capacity clock listings with ⟨s, hs⟩
  have hrun := hs.levelsExact.runDebug_eq events
  rw [hs.engine_eq] at hrun
  exact hrun hfits

/-- A sell rests at 100, and a fill-or-kill buy below the grid passes the scan. -/
def unfilledKill : List Engine.Event :=
  [.message (sampleOrder 1 0 1 100 5), .message (sampleOrder 0 3 2 99 5)]

theorem runDebug_firstViolation_unfilled_kill :
    sampleEngine.runDebug unfilledKill = .error .fokFilled := by
  have hviolation : sampleEngine.firstViolation unfilledKill = some .fokFilled := by decide
  have hrun := runDebug_firstViolation 4 (fun _ => 0) [(0, sampleGrid)] unfilledKill ?_
  · change sampleEngine.runDebug unfilledKill = _ at hrun
    rw [hrun]
    change (sampleEngine.firstViolation unfilledKill).elim _ _ = _
    rw [hviolation]
    rfl
  · intro before msg after hsplit hrest book hbook
    -- only the first message rests, at an empty level
    rcases before with _ | ⟨first, _ | ⟨second, before⟩⟩
    · simp only [unfilledKill, List.nil_append, List.cons.injEq,
        Engine.Event.message.injEq] at hsplit
      rcases hsplit with ⟨rfl, _⟩
      have hquantity : (sampleOrder 1 0 1 100 5).quantity.toNat = 5 := by decide
      have hempty : ∀ i, sampleEngine.queue 0 .ask i = [] := by
        intro i
        rfl
      change restingQty _ (sampleEngine.queue 0 .ask _) + _ < _
      rw [hempty, hquantity]
      simp only [restingQty_nil]
      omega
    · simp only [unfilledKill, List.cons_append, List.nil_append, List.cons.injEq,
        Engine.Event.message.injEq] at hsplit
      rcases hsplit with ⟨rfl, rfl, _⟩
      exact absurd hrest.2.1 (by decide)
    · simp [unfilledKill] at hsplit

end NanoMatch
