import NanoMatch.ExchangeRefinement
import NanoMatch.PriorityLevels

/-!
# Price-time priority

What a book is for: two lists of resting orders in the order in which they are traded.
Every public operation of `OrderBook` is one of six operations on these lists, the
levels, links, cursors, cached totals and the index being means to this end.  Here are
the lists of a book and what adding, amending and popping an order does to them.
-/

namespace NanoMatch

open OrderBook PriorityLevels

/-! ## Priority lists -/

/-- The resting orders of each side, best first. -/
abbrev PriorityBook := BookSide → List RestingOrder

inductive PriorityOp where
  | add (side : BookSide) (order : RestingOrder)
  /-- by id, where the id may be unknown -/
  | cancel (id : OrderId)
  | reduce (id : OrderId) (remaining : ℕ)
  | fill (id : OrderId) (quantity : ℕ)
  | pop (side : BookSide)
  | clear
  deriving DecidableEq, Repr

/-- What an operation tells its caller. -/
inductive Answer where
  | done
  | found (found : Bool)
  | filled (filled : Bool)
  | popped (order : Option RestingOrder)
  deriving DecidableEq, Repr

namespace PriorityBook

def empty : PriorityBook := fun _ => []

/-- Behind every order which is at least as good. -/
def add (orders : PriorityBook) (side : BookSide) (order : RestingOrder) : PriorityBook :=
  Function.update orders side
    ((orders side).orderedInsert (fun a b => side.beats a.price b.price = true) order)

/-- The order with the given id keeps its place as long as something remains of it. -/
def amended (id : OrderId) (change : ℕ → ℕ) (order : RestingOrder) : Option RestingOrder :=
  if order.orderId = id then
    if change order.remaining = 0 then none
    else some { order with remaining := change order.remaining }
  else some order

def amend (orders : PriorityBook) (id : OrderId) (change : ℕ → ℕ) : PriorityBook :=
  fun side => (orders side).filterMap (amended id change)

def find (orders : PriorityBook) (id : OrderId) : Option RestingOrder :=
  (orders .bid ++ orders .ask).find? fun order => order.orderId = id

def step (orders : PriorityBook) : PriorityOp → Answer × PriorityBook
  | .add side order => (.done, orders.add side order)
  | .cancel id => (.found (orders.find id).isSome, orders.amend id fun _ => 0)
  | .reduce id remaining => (.done, orders.amend id fun _ => remaining)
  | .fill id quantity =>
      (.filled ((orders.find id).map RestingOrder.remaining = some quantity),
        orders.amend id fun remaining => remaining - quantity)
  | .pop side =>
      (.popped (orders side).head?, Function.update orders side (orders side).tail)
  | .clear => (.done, empty)

/-- The answers and the lists after all operations. -/
def run (orders : PriorityBook) (ops : List PriorityOp) : List Answer × PriorityBook :=
  ops.foldl (fun state op => (state.1 ++ [(state.2.step op).1], (state.2.step op).2)) ([], orders)

end PriorityBook

/-- Every query answered from the priority lists. -/
structure Quotes (slab : Slab) (book : OrderBook) (orders : PriorityBook) : Prop where
  bestPrice : ∀ side, book.bestPrice side =
    ((orders side).head?.map RestingOrder.price).getD kInvalidPrice
  hasBids : book.hasBids = !(orders .bid).isEmpty
  hasAsks : book.hasAsks = !(orders .ask).isEmpty
  isEmpty : book.isEmpty = ((orders .bid).isEmpty && (orders .ask).isEmpty)
  liveOrderCount : book.liveOrderCount = (orders .bid).length + (orders .ask).length
  findOrder : ∀ id, (book.findOrder id).map (fun slot => (slab slot).view) = orders.find id
  hasOrder : ∀ id, book.hasOrder id = (orders.find id).isSome
  levelTotal : ∀ side price, book.grid.isValidPrice price = true →
    (book.levelAt side price).totalQty.toNat =
      (((orders side).filter fun order => order.price = price).map RestingOrder.remaining).sum
  levelCount : ∀ side price, book.grid.isValidPrice price = true →
    (book.levelAt side price).orderCount.toNat =
      (orders side).countP fun order => order.price = price
  /-- a sweep passes the prices of the grid which are no better than the best order -/
  sweepPrices : ∀ side, (book.sweepSpan side).map PriceLevel.price =
    ((List.range book.grid.numLevels).map book.grid.indexToPrice).filter fun price =>
      (orders side).head?.any fun best => !side.beats price best.price
  sweepLevels : ∀ side, ∀ level ∈ book.sweepSpan side,
    level.totalQty.toNat = (((orders side).filter fun order => order.price = level.price).map
      RestingOrder.remaining).sum ∧
    level.orderCount.toNat = (orders side).countP fun order => order.price = level.price
  sweepTotal : ∀ side, ((book.sweepSpan side).map fun level => level.totalQty.toNat).sum =
    ((orders side).map RestingOrder.remaining).sum

/-! ## Requests and answers of the book -/

/-- The operation on the lists which the caller asks for.  Cancelling through a pointer is
amending to nothing; preparing an order is no operation of the book. -/
def BookOp.request (slab : Slab) : BookOp → Option PriorityOp
  | .prepare _ _ => none
  | .add slot => some (.add (slab slot).side.bookSide (slab slot).view)
  | .cancelId id => some (.cancel id)
  | .cancel slot => some (.reduce (slab slot).orderId 0)
  | .reduce slot newQty => some (.reduce (slab slot).orderId newQty.toNat)
  | .fill slot fillQty => some (.fill (slab slot).orderId fillQty.toNat)
  | .popBid => some (.pop .bid)
  | .popAsk => some (.pop .ask)
  | .clear => some .clear

/-- The order behind the returned pointer. -/
def poppedView (result : Option Slot × Slab × OrderBook) : Option RestingOrder :=
  result.1.map fun slot => (result.2.1 slot).view

def BookOp.answer (slab : Slab) (book : OrderBook) : BookOp → Answer
  | .cancelId id => .found (cancelOrderById slab book id).1
  | .fill slot fillQty => .filled (fillRestingOrder slab book (some slot) fillQty).1
  | .popBid => .popped (poppedView (popBestBidHead slab book))
  | .popAsk => .popped (poppedView (popBestAskHead slab book))
  | _ => .done

/-! ## The lists of a book -/

/-- The level indices of a side, best first. -/
def BookSide.levels : BookSide → ℕ → List ℕ
  | .bid, n => (List.range n).reverse
  | .ask, n => List.range n

def viewed (slab : Slab) (queues : Queues) (side : BookSide) (i : ℕ) : List RestingOrder :=
  (queues side i).map fun slot => (slab slot).view

/-- The orders of the levels, best level first. -/
def listed (grid : PriceGrid) (slab : Slab) (queues : Queues) : PriorityBook :=
  fun side => inOrder (side.levels grid.numLevels) (viewed slab queues side)

instance (side : BookSide) : Std.Asymm fun p q => side.beats p q = true where
  asymm p q hbeats hback := by
    cases side with
    | bid =>
        simp only [BookSide.beats, decide_eq_true_eq] at hbeats hback
        exact lt_asymm hbeats hback
    | ask =>
        simp only [BookSide.beats, decide_eq_true_eq] at hbeats hback
        exact lt_asymm hbeats hback

theorem BookSide.mem_levels (side : BookSide) {n i : ℕ} : i ∈ side.levels n ↔ i < n := by
  cases side <;> simp [BookSide.levels]

theorem BookSide.beats_index (side : BookSide) (grid : PriceGrid) {i j : ℕ} :
    side.beats (grid.indexToPrice i) (grid.indexToPrice j) = true ↔ side.Better i j := by
  cases side <;> simp [BookSide.beats, BookSide.Better, grid.indexToPrice_lt_iff]

theorem BookSide.levels_sorted (side : BookSide) (grid : PriceGrid) (n : ℕ) :
    (side.levels n).Pairwise fun i j =>
      side.beats (grid.indexToPrice i) (grid.indexToPrice j) = true := by
  simp only [BookSide.beats_index]
  cases side with
  | bid =>
      rw [BookSide.levels, List.pairwise_reverse]
      exact List.pairwise_lt_range
  | ask => exact List.pairwise_lt_range

section Lists

variable {slab slab' : Slab} {book book' : OrderBook} {queues queues' : Queues}
  {side : BookSide} {i : ℕ} {slot : Slot} {before after : List Slot}

theorem LevelsRep.ranked {grid : PriceGrid} {levels : BookSide → ℕ → PriceLevel}
    (hlevels : LevelsRep slab grid levels queues) (side : BookSide) :
    Ranked (fun p q => side.beats p q = true) grid.indexToPrice RestingOrder.price
      (side.levels grid.numLevels) (viewed slab queues side) where
  sorted := side.levels_sorted grid grid.numLevels
  keyed := by
    intro i order horder
    rcases List.mem_map.mp horder with ⟨slot, hslot, rfl⟩
    exact (hlevels.placed side i slot hslot).price_eq

/-- The queues of a book are determined by its links. -/
theorem BookInvariant.of_shape (hinv : ∃ queues, BookInvariant slab book queues)
    (hshape : BookShape slab book queues') : BookInvariant slab book queues' := by
  rcases hinv with ⟨queues, hinv⟩
  have heq : queues = queues' := by
    funext side i
    exact (hinv.linked side i).forward.unique (hshape.linked side i).forward
  rw [← heq]
  exact hinv

theorem BookInvariant.unique_id (hinv : BookInvariant slab book queues)
    (hslot : slot ∈ queues side i) {other : Slot} {side' : BookSide} {j : ℕ}
    (hother : other ∈ queues side' j) (hid : (slab other).orderId = (slab slot).orderId) :
    other = slot := by
  have hfound := hinv.complete side' j other hother
  rw [hid, hinv.complete side i slot hslot, Option.some.injEq] at hfound
  exact hfound.symm

/-- One order is changed, and leaves the book when nothing remains of it. -/
theorem BookInvariant.listed_amend (hinv : BookInvariant slab book queues)
    (hqueue : queues side i = before ++ slot :: after) {change : ℕ → ℕ}
    (hterms : ∀ other, (slab' other).terms = (slab other).terms)
    (hquantity : ∀ other, other ≠ slot → (slab' other).quantity = (slab other).quantity)
    (hchange : change (slab slot).remaining ≠ 0 →
      (slab' slot).remaining = change (slab slot).remaining)
    (hqueues : queues' = if change (slab slot).remaining = 0 then
      queues.set side i (before ++ after) else queues) :
    listed book.grid slab' queues' =
      (listed book.grid slab queues).amend (slab slot).orderId change := by
  have hslot : slot ∈ queues side i := by
    rw [hqueue]
    simp
  -- the other orders have other ids
  have hkept : ∀ side' j, ∀ other ∈ queues side' j, other ≠ slot →
      PriorityBook.amended (slab slot).orderId change (slab other).view =
        some (slab' other).view := by
    intro side' j other hother hne
    have hid : (slab other).orderId ≠ (slab slot).orderId :=
      fun hid => hne (hinv.unique_id hslot hother hid)
    rw [Order.view_congr (hterms other) (hquantity other hne)]
    exact if_neg hid
  have hlist : ∀ side' j slots, slots ⊆ queues side' j → slot ∉ slots →
      (slots.map fun other => (slab other).view).filterMap
          (PriorityBook.amended (slab slot).orderId change) =
        slots.map fun other => (slab' other).view := by
    intro side' j slots hsubset hnotMem
    rw [List.filterMap_map, ← List.filterMap_eq_map]
    apply List.filterMap_congr
    intro other hother
    apply hkept side' j other (hsubset hother)
    rintro rfl
    exact hnotMem hother
  funext side'
  apply inOrder_filterMap
  intro j _
  unfold viewed
  by_cases hlevel : side' = side ∧ j = i
  · rcases hlevel with ⟨rfl, rfl⟩
    have hnodup := (hinv.linked side' j).nodup
    rw [hqueue] at hnodup
    have hnotMem := not_mem_of_nodup_middle hnodup
    have hbefore := hlist side' j before (by rw [hqueue]; simp)
      (fun hmem => hnotMem (by simp [hmem]))
    have hafter := hlist side' j after (by rw [hqueue]; simp) (fun hmem => hnotMem (by simp [hmem]))
    rw [hqueue, List.map_append, List.map_cons, List.filterMap_append, List.filterMap_cons,
      hbefore, hafter, hqueues]
    by_cases hzero : change (slab slot).remaining = 0
    · have hgone : PriorityBook.amended (slab slot).orderId change (slab slot).view = none := by
        simp [PriorityBook.amended, Order.view, hzero]
      rw [if_pos hzero, hgone, Queues.set_same, List.map_append]
    · have hleft : PriorityBook.amended (slab slot).orderId change (slab slot).view =
          some (slab' slot).view := by
        have hid : (slab' slot).orderId = (slab slot).orderId :=
          congrArg Order.Terms.orderId (hterms slot)
        have hprice : (slab' slot).price = (slab slot).price :=
          congrArg Order.Terms.price (hterms slot)
        simp [PriorityBook.amended, Order.view, hzero, hchange hzero, hid, hprice]
      rw [if_neg hzero, hleft, hqueue, List.map_append, List.map_cons]
  · have hsame : queues' side' j = queues side' j := by
      rw [hqueues]
      split_ifs
      · exact Queues.set_of_ne _ _ hlevel
      · rfl
    rw [hsame, hlist side' j _ (List.Subset.refl _)]
    intro hmem
    exact hlevel (hinv.toLevelsRep.level_unique hslot hmem)

theorem BookInvariant.listed_add (hinv : BookInvariant slab book queues)
    (hvalid : book.grid.isValidPrice (slab slot).price = true)
    (hterms : ∀ other, (slab' other).terms = (slab other).terms)
    (hquantity : ∀ other, (slab' other).quantity = (slab other).quantity)
    (hside : (slab slot).side.bookSide = side)
    (hindex : book.grid.tickToIndex (slab slot).price = i) :
    listed book.grid slab' (queues.set side i (queues side i ++ [slot])) =
      (listed book.grid slab queues).add side (slab slot).view := by
  have hview : ∀ other, (slab' other).view = (slab other).view :=
    fun other => Order.view_congr (hterms other) (hquantity other)
  obtain ⟨hrange, hprice⟩ := book.grid.tickToIndex_lt_numLevels hvalid
  rw [hindex] at hrange hprice
  funext side'
  unfold PriorityBook.add
  by_cases hsame : side' = side
  · subst hsame
    rw [Function.update_self]
    apply (hinv.toLevelsRep.ranked side').enqueue ((side'.mem_levels).mpr hrange) hprice
    · simp [viewed, hview]
    · intro j hne
      simp [viewed, Queues.set, hne, hview]
  · rw [Function.update_of_ne hsame]
    apply inOrder_congr
    intro j _
    simp [viewed, Queues.set, hsame, hview]

/-- The head of the best level leaves the book. -/
theorem BookInvariant.listed_pop {rest : List Slot} (hinv : BookInvariant slab book queues)
    (hcursor : book.bestIdx side = some i) (hqueue : queues side i = slot :: rest)
    (hterms : ∀ other, (slab' other).terms = (slab other).terms)
    (hquantity : ∀ other, (slab' other).quantity = (slab other).quantity) :
    listed book.grid slab queues side = (slab' slot).view ::
        listed book.grid slab' (queues.set side i rest) side ∧
      ∀ side', side' ≠ side →
        listed book.grid slab' (queues.set side i rest) side' =
          listed book.grid slab queues side' := by
  have hview : ∀ other, (slab' other).view = (slab other).view :=
    fun other => Order.view_congr (hterms other) (hquantity other)
  have hbest := hinv.best side
  rw [hcursor] at hbest
  have hrange := hinv.toLevelsRep.range hbest.1
  constructor
  · rw [hview]
    apply (hinv.toLevelsRep.ranked side).dequeue ((side.mem_levels).mpr hrange)
    · rw [viewed, hqueue, List.map_cons]
    · intro j hbeats
      rw [side.beats_index] at hbeats
      by_contra hne
      apply hbest.2 j _ hbeats
      intro hnil
      rw [viewed, hnil] at hne
      exact hne rfl
    · simp [viewed, hview]
    · intro j hne
      simp [viewed, Queues.set, hne, hview]
  · intro side' hne
    apply inOrder_congr
    intro j _
    simp [viewed, Queues.set, hne, hview]

/-! ## One operation through another -/

theorem Slab.setStatus_setStatus (slab : Slab) (slot : Slot) (status status' : OrderStatus) :
    (slab.setStatus slot status).setStatus slot status' = slab.setStatus slot status' := by
  simp [Slab.setStatus]

theorem Slab.setStatus_self (slab : Slab) (slot : Slot) :
    slab.setStatus slot (slab slot).status = slab :=
  Function.update_eq_self slot slab

/-- `reduce_order_qty` is `fill_resting_order` with the difference, up to the status. -/
theorem BookInvariant.reduceOrderQty_eq (hinv : BookInvariant slab book queues)
    (hqueue : queues side i = before ++ slot :: after) {newQty : Quantity}
    (hnew : newQty ≤ (slab slot).quantity) :
    ∃ status, reduceOrderQty slab book (some slot) newQty =
      ((fillRestingOrder slab book (some slot) ((slab slot).quantity - newQty)).2.1.setStatus
          slot status,
        (fillRestingOrder slab book (some slot) ((slab slot).quantity - newQty)).2.2) := by
  have hslot : slot ∈ queues side i := by
    rw [hqueue]
    simp
  obtain ⟨hvalid, hindex, hside⟩ := hinv.toBookShape.lookup hslot
  have hexact := hinv.level side i
  rw [hqueue] at hexact
  have hdelta : (slab slot).quantity - newQty ≤ (slab slot).quantity := by
    rw [UInt32.le_iff_toNat_le, UInt32.toNat_sub_of_le _ _ hnew]
    omega
  -- the guarded decrements of `level_reduce_qty` are the plain ones here
  have hroom := UInt32.le_trans hdelta hexact.aggregates.quantity_le_total
  have hleft : (slab slot).quantity - ((slab slot).quantity - newQty) = newQty := by
    apply UInt32.toNat_inj.mp
    rw [UInt32.toNat_sub_of_le _ _ hdelta, UInt32.toNat_sub_of_le _ _ hnew]
    rw [UInt32.le_iff_toNat_le] at hnew
    omega
  have hreduced : reduceOrderQty slab book (some slot) newQty =
      if newQty = 0 then
        OrderBook.detach (slab.setQuantity slot newQty) book side i
          (BookShape.debited (book.sideLevels side i) ((slab slot).quantity - newQty)) slot
          .cancelled
      else
        (slab.setQuantity slot newQty, book.setLevel side i
          (BookShape.debited (book.sideLevels side i) ((slab slot).quantity - newQty))) := by
    simp only [reduceOrderQty, hvalid, hindex, hside, Bool.not_true, Bool.false_eq_true,
      if_false, levelReduceQty, hdelta, hroom, if_true, hleft, BookShape.debited]
  rw [hreduced]
  by_cases hzero : newQty = 0
  · refine ⟨.cancelled, ?_⟩
    have hfull : (slab slot).quantity - newQty = (slab slot).quantity := by
      rw [hzero, UInt32.sub_zero]
    rw [if_pos hzero, hfull, hinv.toBookShape.fillRestingOrder_full hslot, hzero]
    simp only [OrderBook.detach, Slab.setStatus_setStatus]
  · refine ⟨(slab slot).status, ?_⟩
    have hne : (slab slot).quantity - ((slab slot).quantity - newQty) ≠ 0 := by
      rw [hleft]
      exact hzero
    rw [if_neg hzero, hinv.toBookShape.fillRestingOrder_partial hslot hne, hleft]
    have hstatus : (slab slot).status = (slab.setQuantity slot newQty slot).status := by
      simp [Slab.setQuantity]
    simp only [hstatus, Slab.setStatus_setStatus, Slab.setStatus_self]

/-- Popping the head of the best level is cancelling it, up to the status. -/
theorem BookInvariant.popBestHead_eq {rest : List Slot} (hinv : BookInvariant slab book queues)
    (hcursor : book.bestIdx side = some i) (hqueue : queues side i = slot :: rest) :
    ∃ status, popBestHead slab book side =
      (some slot, (cancelOrder slab book (some slot)).1.setStatus slot status,
        (cancelOrder slab book (some slot)).2) := by
  have hslot : slot ∈ queues side i := by
    rw [hqueue]
    simp
  have hlinked := hinv.linked side i
  rw [hqueue] at hlinked
  refine ⟨((levelRemove slab (book.sideLevels side i) (some slot)).1 slot).status, ?_⟩
  rw [hinv.toBookShape.cancelOrder_eq hslot]
  simp only [popBestHead, hcursor, hlinked.levelDequeueHead_eq, OrderBook.detach,
    Slab.setStatus_setStatus, Slab.setStatus_self]

end Lists

end NanoMatch
