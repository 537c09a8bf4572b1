import NanoMatch.OrderBookRepresentation
import NanoMatch.OrderPool

/-!
# The matching engine

State passing model of `MatchingEngine`.  A book reference is the key of its
entry in the book map; the outbound queue is the list of all reports posted so
far, since a full queue only makes the engine wait.  The clock is a stream of
readings.  `releases` is a ghost record: it keeps, for every call of
`pool_.release`, the slot and the pool and books at the call.

The sweep loop carries an explicit bound on its iterations.  Every iteration
of a reachable state trades at least one unit, so the quantity of the
incoming order is enough; `sweepFuel_spec` shows that the bound is never what
ends the loop.
-/

namespace NanoMatch

open OrderBook

/-! ## Messages and reports -/

inductive MsgKind where
  | newOrder
  | cancel
  | modify
  | raw (byte : UInt8)
  deriving DecidableEq, Repr

structure InboundOrderMsg where
  kind : MsgKind
  orderId : OrderId
  price : Price
  quantity : Quantity
  instrumentId : InstrumentId
  clientId : UInt64
  side : UInt8
  type : UInt8
  deriving DecidableEq, Repr

inductive ExecKind where
  | fill
  | partialFill
  | cancelAck
  | reject
  | raw (byte : UInt8)
  deriving DecidableEq, Repr

structure ExecutionReport where
  kind : ExecKind
  orderId : OrderId
  counterpartOrderId : OrderId
  execPrice : Price
  execQuantity : Quantity
  leavesQuantity : Quantity
  timestampNs : UInt64
  deriving DecidableEq, Repr

/-! ## State -/

abbrev Books := InstrumentId → Option OrderBook

/-- The slots met by following one level queue of one book. -/
def levelQueue (pool : OrderPool) (books : Books) (instrumentId : InstrumentId) :
    Queues :=
  fun side i =>
    match books instrumentId with
    | none => []
    | some book =>
        IntrusiveList.walk pool.storage.nextOf pool.capacity (book.sideLevels side i).head

structure ReleaseCall where
  slot : Slot
  pool : OrderPool
  books : Books

structure Engine where
  pool : OrderPool
  books : Books
  outbound : List ExecutionReport
  ordersProcessed : ℕ
  fillsExecuted : ℕ
  ordersRejected : ℕ
  clock : ℕ → UInt64
  clockReads : ℕ
  releases : List ReleaseCall

namespace Engine

def new (capacity : ℕ) (clock : ℕ → UInt64) : Engine where
  pool := OrderPool.new capacity
  books := fun _ => none
  outbound := []
  ordersProcessed := 0
  fillsExecuted := 0
  ordersRejected := 0
  clock := clock
  clockReads := 0
  releases := []

/-- `books_.emplace`: a registered instrument keeps its book. -/
def addInstrument (engine : Engine) (listing : InstrumentId × PriceGrid) : Engine :=
  match engine.books listing.1 with
  | some _ => engine
  | none =>
      { engine with
        books := Function.update engine.books listing.1
          (some (OrderBook.new listing.1 listing.2)) }

def slab (engine : Engine) : Slab := engine.pool.storage

def setSlab (engine : Engine) (slab : Slab) : Engine :=
  { engine with pool := { engine.pool with storage := slab } }

/-- Write back the slab and the book behind a book reference. -/
def setBook (engine : Engine) (instrumentId : InstrumentId)
    (state : Slab × OrderBook) : Engine :=
  { engine with
    pool := { engine.pool with storage := state.1 }
    books := Function.update engine.books instrumentId (some state.2) }

def release (engine : Engine) (slot : Slot) : Engine :=
  { engine with
    pool := engine.pool.release slot
    releases := engine.releases ++ [⟨slot, engine.pool, engine.books⟩] }

def resetState (engine : Engine) : Engine :=
  { engine with
    pool := engine.pool.reset
    books := fun instrumentId => (engine.books instrumentId).map OrderBook.clear }

/-! ## Reports -/

def nowNs (engine : Engine) : UInt64 := engine.clock engine.clockReads

def post (engine : Engine) (report : ExecutionReport) : Engine :=
  { engine with
    outbound := engine.outbound ++ [report]
    clockReads := engine.clockReads + 1 }

def postReport (engine : Engine) (kind : ExecKind) (orderId counterpartId : OrderId)
    (execPrice : Price) (execQty leavesQty : Quantity) : Engine :=
  engine.post
    { kind := kind
      orderId := orderId
      counterpartOrderId := counterpartId
      execPrice := execPrice
      execQuantity := execQty
      leavesQuantity := leavesQty
      timestampNs := engine.nowNs }

def postReject (engine : Engine) (orderId : OrderId) (originalQty : Quantity) : Engine :=
  engine.postReport .reject orderId 0 0 0 originalQty

def postCancelAck (engine : Engine) (orderId : OrderId) (leavesQty : Quantity) : Engine :=
  engine.postReport .cancelAck orderId 0 0 0 leavesQty

def countReject (engine : Engine) : Engine :=
  { engine with ordersRejected := engine.ordersRejected + 1 }

/-! ## The sweep -/

/-- `std::min(rest->quantity, agg.quantity)`. -/
def fillQuantity (rest agg : Order) : Quantity :=
  if agg.quantity < rest.quantity then agg.quantity else rest.quantity

/-- The body of the sweep loop for the resting order `rest`. -/
def trade (engine : Engine) (instrumentId : InstrumentId) (book : OrderBook)
    (agg rest : Slot) : Engine :=
  let fillQty := fillQuantity (engine.slab rest) (engine.slab agg)
  let execPrice := (engine.slab rest).price
  let slab := engine.slab.setQuantity agg ((engine.slab agg).quantity - fillQty)
  let (restDone, state) := fillRestingOrder slab book (some rest) fillQty
  let engine := engine.setBook instrumentId state
  let engine := { engine with fillsExecuted := engine.fillsExecuted + 1 }
  let engine := engine.postReport (if restDone then .fill else .partialFill)
    (engine.slab rest).orderId (engine.slab agg).orderId execPrice fillQty
    (engine.slab rest).quantity
  let engine := engine.postReport
    (if (engine.slab agg).quantity = 0 then .fill else .partialFill)
    (engine.slab agg).orderId (engine.slab rest).orderId execPrice fillQty
    (engine.slab agg).quantity
  if restDone then engine.release rest else engine

/-- One iteration of the loop, or `none` when the loop is left.  The level
behind a cursor always has a head. -/
def sweepStep (engine : Engine) (instrumentId : InstrumentId) (agg : Slot)
    (priceOk : Price → Bool) : Option Engine :=
  match engine.books instrumentId with
  | none => none
  | some book =>
      if (engine.slab agg).quantity = 0 then none
      else
        match book.bestLevel (engine.slab agg).side.bookSide.opposite with
        | none => none
        | some best =>
            if !priceOk best.price then none
            else best.head.map (engine.trade instrumentId book agg)

def sweepFuel (instrumentId : InstrumentId) (agg : Slot) (priceOk : Price → Bool) :
    ℕ → Engine → Engine
  | 0, engine => engine
  | fuel + 1, engine =>
      match engine.sweepStep instrumentId agg priceOk with
      | none => engine
      | some next => sweepFuel instrumentId agg priceOk fuel next

def doSweep (engine : Engine) (instrumentId : InstrumentId) (agg : Slot)
    (priceOk : Price → Bool) : Engine :=
  sweepFuel instrumentId agg priceOk (engine.slab agg).quantity.toNat engine

/-! ## Order types -/

/-- The price check captured by the limit, IOC and FOK sweeps. -/
def limitOk (agg : Order) (levelPrice : Price) : Bool :=
  if agg.isBuy then decide (levelPrice ≤ agg.price) else decide (agg.price ≤ levelPrice)

def sweepLimit (engine : Engine) (instrumentId : InstrumentId) (agg : Slot) : Engine :=
  engine.doSweep instrumentId agg (limitOk (engine.slab agg))

/-- `book.add_order(&agg)`. -/
def rest (engine : Engine) (instrumentId : InstrumentId) (agg : Slot) : Engine :=
  match engine.books instrumentId with
  | none => engine
  | some book => engine.setBook instrumentId (addOrder engine.slab book (some agg))

def matchLimit (engine : Engine) (instrumentId : InstrumentId) (agg : Slot) : Engine :=
  let engine := engine.sweepLimit instrumentId agg
  if 0 < (engine.slab agg).quantity then engine.rest instrumentId agg
  else engine.release agg

/-- The residual of a market or IOC order is acknowledged as cancelled. -/
def ackResidual (engine : Engine) (agg : Slot) : Engine :=
  if 0 < (engine.slab agg).quantity then
    engine.postCancelAck (engine.slab agg).orderId (engine.slab agg).quantity
  else engine

def matchMarket (engine : Engine) (instrumentId : InstrumentId) (agg : Slot) : Engine :=
  ((engine.doSweep instrumentId agg (fun _ => true)).ackResidual agg).release agg

def matchIoc (engine : Engine) (instrumentId : InstrumentId) (agg : Slot) : Engine :=
  ((engine.sweepLimit instrumentId agg).ackResidual agg).release agg

def matchFok (engine : Engine) (instrumentId : InstrumentId) (book : OrderBook)
    (agg : Slot) : Engine :=
  let order := engine.slab agg
  if book.availableQuantityAtOrBetter order.side order.price < order.quantity then
    ((engine.postReject order.orderId order.quantity).release agg).countReject
  else (engine.sweepLimit instrumentId agg).release agg

/-! ## Dispatch -/

/-- The order written into an acquired slot. -/
def populated (msg : InboundOrderMsg) (timestampNs : UInt64) : Order where
  orderId := msg.orderId
  price := msg.price
  timestampNs := timestampNs
  quantity := msg.quantity
  origQuantity := msg.quantity
  instrumentId := msg.instrumentId
  side := Side.ofByte msg.side
  type := OrderType.ofByte msg.type
  status := .new
  next := none
  prev := none
  clientId := msg.clientId

/-- Acquire the popped slot and populate it. -/
def admitOrder (engine : Engine) (msg : InboundOrderMsg) (slot : Slot)
    (pool : OrderPool) : Engine :=
  { engine with
    pool :=
      { pool with
        storage := Function.update pool.storage slot (populated msg engine.nowNs) }
    clockReads := engine.clockReads + 1 }

def matchOrder (engine : Engine) (instrumentId : InstrumentId) (book : OrderBook)
    (slot : Slot) : Engine :=
  match (engine.slab slot).type with
  | .limit => engine.matchLimit instrumentId slot
  | .market => engine.matchMarket instrumentId slot
  | .ioc => engine.matchIoc instrumentId slot
  | .fok => engine.matchFok instrumentId book slot
  | .raw _ =>
      ((engine.postReject (engine.slab slot).orderId
        (engine.slab slot).quantity).release slot).countReject

def handleNewOrder (engine : Engine) (msg : InboundOrderMsg) : Engine :=
  match engine.books msg.instrumentId with
  | none => (engine.postReject msg.orderId msg.quantity).countReject
  | some book =>
      match engine.pool.acquire with
      | none => (engine.postReject msg.orderId msg.quantity).countReject
      | some (slot, pool) =>
          (engine.admitOrder msg slot pool).matchOrder msg.instrumentId book slot

def handleCancel (engine : Engine) (msg : InboundOrderMsg) : Engine :=
  match engine.books msg.instrumentId with
  | none => engine
  | some book =>
      match book.findOrder msg.orderId with
      | none => engine
      | some slot =>
          let leaves := (engine.slab slot).quantity
          let engine := engine.setBook msg.instrumentId
            (cancelOrder engine.slab book (some slot))
          let engine := engine.postCancelAck (engine.slab slot).orderId leaves
          engine.release slot

def dispatch (engine : Engine) (msg : InboundOrderMsg) : Engine :=
  match msg.kind with
  | .newOrder => engine.handleNewOrder msg
  | .cancel => engine.handleCancel msg
  | .modify => engine.handleCancel msg
  | .raw _ => engine

def submit (engine : Engine) (msg : InboundOrderMsg) : Engine :=
  let engine := engine.dispatch msg
  { engine with ordersProcessed := engine.ordersProcessed + 1 }

/-! ## Runs -/

/-- A fresh engine with its instruments registered. -/
def listed (capacity : ℕ) (clock : ℕ → UInt64)
    (listings : List (InstrumentId × PriceGrid)) : Engine :=
  listings.foldl addInstrument (new capacity clock)

def runMessages (engine : Engine) (msgs : List InboundOrderMsg) : Engine :=
  msgs.foldl submit engine

/-- What can happen to a running engine. -/
inductive Event where
  | message (msg : InboundOrderMsg)
  | reset

def step (engine : Engine) : Event → Engine
  | .message msg => engine.submit msg
  | .reset => engine.resetState

def run (engine : Engine) (events : List Event) : Engine :=
  events.foldl step engine

/-! ## Observed queues -/

def queue (engine : Engine) : InstrumentId → Queues :=
  levelQueue engine.pool engine.books

/-- All resting slots of one side of a book, from the lowest price up. -/
def restingOn (engine : Engine) (instrumentId : InstrumentId) (side : BookSide) :
    List Slot :=
  match engine.books instrumentId with
  | none => []
  | some book =>
      (List.range book.grid.numLevels).flatMap (engine.queue instrumentId side)

end Engine

end NanoMatch
