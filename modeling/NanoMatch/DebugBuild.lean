import NanoMatch.LevelTotals

/-!
# The debug build

The release build compiles the asserts out.  The debug build stops at the first assert
which fails, and this module follows it through the book, the pool and the engine.  Where
no assert can fail the release code is called.
-/

namespace NanoMatch

open OrderBook

/-- The asserts on the way of a message, apart from the null checks behind early returns. -/
inductive Assertion where
  | isActive
  | isValidPrice
  | orderCount
  | totalQty
  | fillQty
  | restingHead
  | fokFilled
  | fromThisPool
  deriving DecidableEq, Repr

/-- `assert(holds)` in front of the rest of a body. -/
def asserting {α : Type} (holds : Bool) (assertion : Assertion) (rest : Except Assertion α) :
    Except Assertion α :=
  if holds then rest else .error assertion

theorem asserting_of_holds {α : Type} {holds : Bool} {assertion : Assertion}
    {rest : Except Assertion α} (hholds : holds = true) :
    asserting holds assertion rest = rest :=
  if_pos hholds

theorem asserting_of_fails {α : Type} {holds : Bool} {assertion : Assertion}
    {rest : Except Assertion α} (hfails : holds = false) :
    asserting holds assertion rest = .error assertion := by
  rw [hfails]
  rfl

/-! ## The book -/

def PriceGrid.tickToIndexDebug (grid : PriceGrid) (price : Price) : Except Assertion ℕ :=
  asserting (grid.isValidPrice price) .isValidPrice (.ok (grid.tickToIndex price))

/-- `level_remove`. -/
def levelRemoveDebug (slab : Slab) (level : PriceLevel) (order : Option Slot) :
    Except Assertion (Slab × PriceLevel) :=
  match order with
  | none => .ok (slab, level)
  | some slot =>
      asserting (1 ≤ level.orderCount) .orderCount
        (asserting ((slab slot).quantity ≤ level.totalQty) .totalQty
          (.ok (levelRemove slab level (some slot))))

namespace OrderBook

/-- Behind its asserts `add_order` computes what the release build computes. -/
def addOrderDebug (slab : Slab) (book : OrderBook) (order : Option Slot) :
    Except Assertion (Slab × OrderBook) :=
  match order with
  | none => .ok (slab, book)
  | some slot =>
      asserting (slab slot).isActive .isActive
        (asserting (book.grid.isValidPrice (slab slot).price) .isValidPrice do
          let _ ← book.grid.tickToIndexDebug (slab slot).price
          return addOrder slab book (some slot))

/-- The only asserts of a removal are those of `level_remove`. -/
def detachDebug (slab : Slab) (book : OrderBook) (side : BookSide) (idx : ℕ)
    (level : PriceLevel) (slot : Slot) (status : OrderStatus) :
    Except Assertion (Slab × OrderBook) := do
  let _ ← levelRemoveDebug slab level (some slot)
  return detach slab book side idx level slot status

def cancelOrderDebug (slab : Slab) (book : OrderBook) (order : Option Slot) :
    Except Assertion (Slab × OrderBook) :=
  match order with
  | none => .ok (slab, book)
  | some slot =>
      asserting (book.grid.isValidPrice (slab slot).price) .isValidPrice do
        let idx ← book.grid.tickToIndexDebug (slab slot).price
        let side := (slab slot).side.bookSide
        detachDebug slab book side idx (book.sideLevels side idx) slot .cancelled

def fillRestingOrderDebug (slab : Slab) (book : OrderBook) (rest : Option Slot)
    (fillQty : Quantity) : Except Assertion (Bool × Slab × OrderBook) :=
  match rest with
  | none => .ok (true, slab, book)
  | some slot =>
      asserting (0 < fillQty) .fillQty
        (asserting (fillQty ≤ (slab slot).quantity) .fillQty
          (if !book.grid.isValidPrice (slab slot).price then .ok (true, slab, book)
          else do
            let idx ← book.grid.tickToIndexDebug (slab slot).price
            let side := (slab slot).side.bookSide
            let level := book.sideLevels side idx
            asserting (fillQty ≤ level.totalQty) .totalQty do
              let level := { level with totalQty := level.totalQty - fillQty }
              let slab := slab.setQuantity slot ((slab slot).quantity - fillQty)
              if (slab slot).quantity = 0 then
                let state ← detachDebug slab book side idx level slot .filled
                return (true, state)
              else
                return (false, slab.setStatus slot .partialFilled,
                  book.setLevel side idx level)))

/-- Whether the scan calls `tick_to_index` for its limit price. -/
def scanLooksUp (book : OrderBook) (aggSide : Side) (limitPrice : Price) : Bool :=
  if aggSide = .buy then
    book.bestAskIdx.isSome && book.grid.minPrice ≤ limitPrice && limitPrice < book.grid.maxPrice
  else
    book.bestBidIdx.isSome && book.grid.minPrice < limitPrice && limitPrice ≤ book.grid.maxPrice

def availableQuantityAtOrBetterDebug (book : OrderBook) (aggSide : Side) (limitPrice : Price) :
    Except Assertion Quantity :=
  if book.scanLooksUp aggSide limitPrice then do
    let _ ← book.grid.tickToIndexDebug limitPrice
    return book.availableQuantityAtOrBetter aggSide limitPrice
  else .ok (book.availableQuantityAtOrBetter aggSide limitPrice)

end OrderBook

/-! ## The engine -/

namespace Engine

/-- `pool_.release`. -/
def releaseDebug (engine : Engine) (slot : Slot) : Except Assertion Engine :=
  asserting (slot < engine.pool.capacity) .fromThisPool (.ok (engine.release slot))

def tradeDebug (engine : Engine) (instrumentId : InstrumentId) (book : OrderBook)
    (agg rest : Slot) : Except Assertion Engine := do
  let fillQty := fillQuantity (engine.slab rest) (engine.slab agg)
  let execPrice := (engine.slab rest).price
  let slab := engine.slab.setQuantity agg ((engine.slab agg).quantity - fillQty)
  let (restDone, state) ← fillRestingOrderDebug slab book (some rest) fillQty
  let engine := engine.setBook instrumentId state
  let engine := { engine with fillsExecuted := engine.fillsExecuted + 1 }
  let engine := engine.postReport (if restDone then .fill else .partialFill)
    (engine.slab rest).orderId (engine.slab agg).orderId execPrice fillQty
    (engine.slab rest).quantity
  let engine := engine.postReport
    (if (engine.slab agg).quantity = 0 then .fill else .partialFill)
    (engine.slab agg).orderId (engine.slab rest).orderId execPrice fillQty
    (engine.slab agg).quantity
  if restDone then engine.releaseDebug rest else return engine

def sweepStepDebug (engine : Engine) (instrumentId : InstrumentId) (agg : Slot)
    (priceOk : Price → Bool) : Except Assertion (Option Engine) :=
  match engine.books instrumentId with
  | none => .ok none
  | some book =>
      if (engine.slab agg).quantity = 0 then .ok none
      else
        match book.bestLevel (engine.slab agg).side.bookSide.opposite with
        | none => .ok none
        | some best =>
            if !priceOk best.price then .ok none
            else
              match best.head with
              | none => .error .restingHead
              | some rest => some <$> engine.tradeDebug instrumentId book agg rest

def sweepFuelDebug (instrumentId : InstrumentId) (agg : Slot) (priceOk : Price → Bool) :
    ℕ → Engine → Except Assertion Engine
  | 0, engine => .ok engine
  | fuel + 1, engine => do
      match ← engine.sweepStepDebug instrumentId agg priceOk with
      | none => return engine
      | some next => sweepFuelDebug instrumentId agg priceOk fuel next

def doSweepDebug (engine : Engine) (instrumentId : InstrumentId) (agg : Slot)
    (priceOk : Price → Bool) : Except Assertion Engine :=
  sweepFuelDebug instrumentId agg priceOk (engine.slab agg).quantity.toNat engine

def sweepLimitDebug (engine : Engine) (instrumentId : InstrumentId) (agg : Slot) :
    Except Assertion Engine :=
  engine.doSweepDebug instrumentId agg (limitOk (engine.slab agg))

def restDebug (engine : Engine) (instrumentId : InstrumentId) (agg : Slot) :
    Except Assertion Engine :=
  match engine.books instrumentId with
  | none => .ok engine
  | some book => do
      let state ← addOrderDebug engine.slab book (some agg)
      return engine.setBook instrumentId state

def matchLimitDebug (engine : Engine) (instrumentId : InstrumentId) (agg : Slot) :
    Except Assertion Engine := do
  let engine ← engine.sweepLimitDebug instrumentId agg
  if 0 < (engine.slab agg).quantity then engine.restDebug instrumentId agg
  else engine.releaseDebug agg

def matchMarketDebug (engine : Engine) (instrumentId : InstrumentId) (agg : Slot) :
    Except Assertion Engine := do
  let engine ← engine.doSweepDebug instrumentId agg (fun _ => true)
  (engine.ackResidual agg).releaseDebug agg

def matchIocDebug (engine : Engine) (instrumentId : InstrumentId) (agg : Slot) :
    Except Assertion Engine := do
  let engine ← engine.sweepLimitDebug instrumentId agg
  (engine.ackResidual agg).releaseDebug agg

def rejectDebug (engine : Engine) (agg : Slot) : Except Assertion Engine := do
  let engine ← (engine.postReject (engine.slab agg).orderId
    (engine.slab agg).quantity).releaseDebug agg
  return engine.countReject

def matchFokDebug (engine : Engine) (instrumentId : InstrumentId) (book : OrderBook)
    (agg : Slot) : Except Assertion Engine := do
  let order := engine.slab agg
  let available ← book.availableQuantityAtOrBetterDebug order.side order.price
  if available < order.quantity then engine.rejectDebug agg
  else
    let engine ← engine.sweepLimitDebug instrumentId agg
    asserting ((engine.slab agg).quantity = 0) .fokFilled (engine.releaseDebug agg)

def matchOrderDebug (engine : Engine) (instrumentId : InstrumentId) (book : OrderBook)
    (slot : Slot) : Except Assertion Engine :=
  match (engine.slab slot).type with
  | .limit => engine.matchLimitDebug instrumentId slot
  | .market => engine.matchMarketDebug instrumentId slot
  | .ioc => engine.matchIocDebug instrumentId slot
  | .fok => engine.matchFokDebug instrumentId book slot
  | .raw _ => engine.rejectDebug slot

def handleNewOrderDebug (engine : Engine) (msg : InboundOrderMsg) : Except Assertion Engine :=
  match engine.books msg.instrumentId with
  | none => .ok (engine.postReject msg.orderId msg.quantity).countReject
  | some book =>
      match engine.pool.acquire with
      | none => .ok (engine.postReject msg.orderId msg.quantity).countReject
      | some (slot, pool) =>
          (engine.admitOrder msg slot pool).matchOrderDebug msg.instrumentId book slot

def handleCancelDebug (engine : Engine) (msg : InboundOrderMsg) : Except Assertion Engine :=
  match engine.books msg.instrumentId with
  | none => .ok engine
  | some book =>
      match book.findOrder msg.orderId with
      | none => .ok engine
      | some slot => do
          let leaves := (engine.slab slot).quantity
          let state ← cancelOrderDebug engine.slab book (some slot)
          let engine := engine.setBook msg.instrumentId state
          let engine := engine.postCancelAck (engine.slab slot).orderId leaves
          engine.releaseDebug slot

def dispatchDebug (engine : Engine) (msg : InboundOrderMsg) : Except Assertion Engine :=
  match msg.kind with
  | .newOrder => engine.handleNewOrderDebug msg
  | .cancel => engine.handleCancelDebug msg
  | .modify => engine.handleCancelDebug msg
  | .raw _ => .ok engine

def submitDebug (engine : Engine) (msg : InboundOrderMsg) : Except Assertion Engine := do
  let engine ← engine.dispatchDebug msg
  return { engine with ordersProcessed := engine.ordersProcessed + 1 }

def stepDebug (engine : Engine) : Event → Except Assertion Engine
  | .message msg => engine.submitDebug msg
  | .reset => .ok engine.resetState

def runDebug (engine : Engine) (events : List Event) : Except Assertion Engine :=
  events.foldlM stepDebug engine

end Engine

end NanoMatch
