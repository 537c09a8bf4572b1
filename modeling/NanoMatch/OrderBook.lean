import NanoMatch.PriceGrid
import NanoMatch.PriceLevel
import Mathlib.Data.List.AList

/-!
# The limit order book

The flat level arrays, the two best-price cursors, the order index and the
public operations of `OrderBook`.  The level arrays are functions of the
index together with the length `numLevels`; a missing cursor is `none`.  Every
operation takes the slab as well, since the queues are threaded through it.

Asserts are compiled out, as in the release build, so an operation computes
what its unchecked code computes.
-/

namespace NanoMatch

open IntrusiveList

/-! ## The order index -/

/-- `std::unordered_map<OrderId, Order*>`. -/
abbrev OrderIndex := AList (fun _ : OrderId => Slot)

namespace OrderIndex

/-- `emplace(o->order_id, o)`: an entry that is already there stays. -/
def emplace (index : OrderIndex) (slab : Slab) (slot : Slot) : OrderIndex :=
  if (slab slot).orderId ∈ index then index
  else AList.insert (slab slot).orderId slot index

def find (index : OrderIndex) (id : OrderId) : Option Slot := AList.lookup id index

def size (index : OrderIndex) : ℕ := index.keys.length

end OrderIndex

/-! ## The book -/

/-- The two level arrays. -/
inductive BookSide where
  | bid
  | ask
  deriving DecidableEq, Repr

/-- The test `side == Side::Buy` which selects a level array. -/
def Side.bookSide : Side → BookSide
  | .buy => .bid
  | _ => .ask

/-- The side an incoming order trades against. -/
def BookSide.opposite : BookSide → BookSide
  | .bid => .ask
  | .ask => .bid

structure OrderBook where
  instrumentId : InstrumentId
  grid : PriceGrid
  bidLevels : ℕ → PriceLevel
  askLevels : ℕ → PriceLevel
  bestBidIdx : Option ℕ
  bestAskIdx : Option ℕ
  orderIndex : OrderIndex

namespace OrderBook

def emptyLevel (price : Price) : PriceLevel where
  head := none
  tail := none
  price := price
  totalQty := 0
  orderCount := 0

/-- The constructor, with the price of every level filled in. -/
def new (instrumentId : InstrumentId) (grid : PriceGrid) : OrderBook where
  instrumentId := instrumentId
  grid := grid
  bidLevels := fun i => emptyLevel (grid.indexToPrice i)
  askLevels := fun i => emptyLevel (grid.indexToPrice i)
  bestBidIdx := none
  bestAskIdx := none
  orderIndex := ∅

def sideLevels (book : OrderBook) : BookSide → ℕ → PriceLevel
  | .bid => book.bidLevels
  | .ask => book.askLevels

def bestIdx (book : OrderBook) : BookSide → Option ℕ
  | .bid => book.bestBidIdx
  | .ask => book.bestAskIdx

def setLevel (book : OrderBook) (side : BookSide) (i : ℕ) (level : PriceLevel) :
    OrderBook :=
  match side with
  | .bid => { book with bidLevels := Function.update book.bidLevels i level }
  | .ask => { book with askLevels := Function.update book.askLevels i level }

def setBestIdx (book : OrderBook) (side : BookSide) (best : Option ℕ) : OrderBook :=
  match side with
  | .bid => { book with bestBidIdx := best }
  | .ask => { book with bestAskIdx := best }

def clear (book : OrderBook) : OrderBook :=
  { book with
    bidLevels := fun i => emptyLevel (book.bidLevels i).price
    askLevels := fun i => emptyLevel (book.askLevels i).price
    bestBidIdx := none
    bestAskIdx := none
    orderIndex := ∅ }

/-! ### Cursors -/

/-- The downward scan of the bid cursor. -/
def scanDown (levels : ℕ → PriceLevel) : ℕ → Option ℕ
  | 0 => if levelEmpty (levels 0) then none else some 0
  | i + 1 => if levelEmpty (levels (i + 1)) then scanDown levels i else some (i + 1)

/-- The upward scan of the ask cursor over `count` levels from `i`. -/
def scanUp (levels : ℕ → PriceLevel) : ℕ → ℕ → Option ℕ
  | _, 0 => none
  | i, count + 1 =>
      if levelEmpty (levels i) then scanUp levels (i + 1) count else some i

/-- Where `advance_best_cursor` leaves the cursor; it only moves when it
pointed at the drained level. -/
def cursorAfterDrain (book : OrderBook) (side : BookSide) (drained : ℕ) : Option ℕ :=
  if book.bestIdx side ≠ some drained then book.bestIdx side
  else
    match side with
    | .bid =>
        if drained = 0 then none else scanDown book.bidLevels (drained - 1)
    | .ask =>
        if drained = book.grid.numLevels - 1 then none
        else
          scanUp book.askLevels (drained + 1) (book.grid.numLevels - (drained + 1))

def advanceBestCursor (book : OrderBook) (side : BookSide) (drained : ℕ) : OrderBook :=
  book.setBestIdx side (book.cursorAfterDrain side drained)

/-- Where `add_order` leaves the cursor of its side. -/
def cursorAfterAdd (book : OrderBook) (side : BookSide) (idx : ℕ) : Option ℕ :=
  match book.bestIdx side with
  | none => some idx
  | some best =>
      match side with
      | .bid => if best < idx then some idx else some best
      | .ask => if idx < best then some idx else some best

/-! ### Mutators -/

def addOrder (slab : Slab) (book : OrderBook) (order : Option Slot) :
    Slab × OrderBook :=
  match order with
  | none => (slab, book)
  | some slot =>
      if !book.grid.isValidPrice (slab slot).price then (slab, book)
      else
        let idx := book.grid.tickToIndex (slab slot).price
        let side := (slab slot).side.bookSide
        let (slab, level) := levelEnqueueTail slab (book.sideLevels side idx) (some slot)
        let book := book.setLevel side idx level
        let book := { book with orderIndex := book.orderIndex.emplace slab slot }
        (slab, book.setBestIdx side (book.cursorAfterAdd side idx))

/-- The common tail of every removal: splice out, deregister, set the status,
advance the cursor when the level became empty. -/
def detach (slab : Slab) (book : OrderBook) (side : BookSide) (idx : ℕ)
    (level : PriceLevel) (slot : Slot) (status : OrderStatus) : Slab × OrderBook :=
  let (slab, level) := levelRemove slab level (some slot)
  let book := book.setLevel side idx level
  let book := { book with orderIndex := book.orderIndex.erase (slab slot).orderId }
  let slab := slab.setStatus slot status
  (slab, if levelEmpty level then book.advanceBestCursor side idx else book)

def cancelOrder (slab : Slab) (book : OrderBook) (order : Option Slot) :
    Slab × OrderBook :=
  match order with
  | none => (slab, book)
  | some slot =>
      if !book.grid.isValidPrice (slab slot).price then (slab, book)
      else
        let idx := book.grid.tickToIndex (slab slot).price
        let side := (slab slot).side.bookSide
        detach slab book side idx (book.sideLevels side idx) slot .cancelled

def cancelOrderById (slab : Slab) (book : OrderBook) (id : OrderId) :
    Bool × Slab × OrderBook :=
  match book.orderIndex.find id with
  | none => (false, slab, book)
  | some slot => (true, cancelOrder slab book (some slot))

def reduceOrderQty (slab : Slab) (book : OrderBook) (order : Option Slot)
    (newQty : Quantity) : Slab × OrderBook :=
  match order with
  | none => (slab, book)
  | some slot =>
      if !book.grid.isValidPrice (slab slot).price then (slab, book)
      else
        let idx := book.grid.tickToIndex (slab slot).price
        let side := (slab slot).side.bookSide
        let delta := (slab slot).quantity - newQty
        let (slab, level) :=
          levelReduceQty slab (book.sideLevels side idx) (some slot) delta
        if newQty = 0 then detach slab book side idx level slot .cancelled
        else (slab, book.setLevel side idx level)

/-- The fill primitive; `true` when the order has left the book. -/
def fillRestingOrder (slab : Slab) (book : OrderBook) (rest : Option Slot)
    (fillQty : Quantity) : Bool × Slab × OrderBook :=
  match rest with
  | none => (true, slab, book)
  | some slot =>
      if !book.grid.isValidPrice (slab slot).price then (true, slab, book)
      else
        let idx := book.grid.tickToIndex (slab slot).price
        let side := (slab slot).side.bookSide
        let level := book.sideLevels side idx
        let level := { level with totalQty := level.totalQty - fillQty }
        let slab := slab.setQuantity slot ((slab slot).quantity - fillQty)
        if (slab slot).quantity = 0 then
          (true, detach slab book side idx level slot .filled)
        else
          (false, slab.setStatus slot .partialFilled, book.setLevel side idx level)

/-- The common body of `pop_best_bid_head` and `pop_best_ask_head`. -/
def popBestHead (slab : Slab) (book : OrderBook) (side : BookSide) :
    Option Slot × Slab × OrderBook :=
  match book.bestIdx side with
  | none => (none, slab, book)
  | some best =>
      match levelDequeueHead slab (book.sideLevels side best) with
      | (none, slab, level) => (none, slab, book.setLevel side best level)
      | (some slot, slab, level) =>
          let book := book.setLevel side best level
          let book := { book with orderIndex := book.orderIndex.erase (slab slot).orderId }
          (some slot, slab,
            if levelEmpty level then book.advanceBestCursor side best else book)

def popBestBidHead (slab : Slab) (book : OrderBook) :
    Option Slot × Slab × OrderBook := popBestHead slab book .bid

def popBestAskHead (slab : Slab) (book : OrderBook) :
    Option Slot × Slab × OrderBook := popBestHead slab book .ask

/-! ### Queries -/

/-- `total += levels[i].total_qty` over `count` levels from `i`. -/
def sumLevels (levels : ℕ → PriceLevel) : ℕ → ℕ → Quantity → Quantity
  | _, 0, total => total
  | i, count + 1, total => sumLevels levels (i + 1) count (total + (levels i).totalQty)

def availableQuantityAtOrBetter (book : OrderBook) (aggSide : Side)
    (limitPrice : Price) : Quantity :=
  if aggSide = .buy then
    match book.bestAskIdx with
    | none => 0
    | some best =>
        let toIdx :=
          if book.grid.maxPrice ≤ limitPrice then book.grid.numLevels - 1
          else if limitPrice < book.grid.minPrice then 0
          else book.grid.tickToIndex limitPrice
        if toIdx < best then 0
        else sumLevels book.askLevels best (toIdx + 1 - best) 0
  else
    match book.bestBidIdx with
    | none => 0
    | some best =>
        let fromIdx :=
          if limitPrice ≤ book.grid.minPrice then 0
          else if book.grid.maxPrice < limitPrice then book.grid.numLevels
          else book.grid.tickToIndex limitPrice
        if best < fromIdx then 0
        else sumLevels book.bidLevels fromIdx (best + 1 - fromIdx) 0

/-- `best_bid()` and `best_ask()`. -/
def bestLevel (book : OrderBook) (side : BookSide) : Option PriceLevel :=
  (book.bestIdx side).map (book.sideLevels side)

/-- `best_bid_price()` and `best_ask_price()`. -/
def bestPrice (book : OrderBook) (side : BookSide) : Price :=
  match book.bestLevel side with
  | none => kInvalidPrice
  | some level => level.price

def findOrder (book : OrderBook) (id : OrderId) : Option Slot :=
  book.orderIndex.find id

def liveOrderCount (book : OrderBook) : ℕ := book.orderIndex.size

def hasBids (book : OrderBook) : Bool := book.bestBidIdx.isSome

def hasAsks (book : OrderBook) : Bool := book.bestAskIdx.isSome

def isEmpty (book : OrderBook) : Bool := !book.hasBids && !book.hasAsks

def bidLevelAt (book : OrderBook) (price : Price) : PriceLevel :=
  book.bidLevels (book.grid.tickToIndex price)

def askLevelAt (book : OrderBook) (price : Price) : PriceLevel :=
  book.askLevels (book.grid.tickToIndex price)

/-- `bid_level_at` or `ask_level_at`. -/
def levelAt (book : OrderBook) : BookSide → Price → PriceLevel
  | .bid => book.bidLevelAt
  | .ask => book.askLevelAt

/-- The levels from the best ask upward. -/
def askSweepSpan (book : OrderBook) : List PriceLevel :=
  match book.bestAskIdx with
  | none => []
  | some best => (List.range' best (book.grid.numLevels - best)).map book.askLevels

/-- The levels up to the best bid. -/
def bidSweepSpan (book : OrderBook) : List PriceLevel :=
  match book.bestBidIdx with
  | none => []
  | some best => (List.range (best + 1)).map book.bidLevels

def sweepSpan (book : OrderBook) : BookSide → List PriceLevel
  | .bid => book.bidSweepSpan
  | .ask => book.askSweepSpan

def hasOrder (book : OrderBook) (id : OrderId) : Bool := decide (id ∈ book.orderIndex)

end OrderBook

end NanoMatch
