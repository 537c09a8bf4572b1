import NanoMatch.OrderBookRepresentation

/-!
# The mutators on the represented queues

Each mutator of the book is described once on the queues it represents: an
added order stands at the tail of its level, a removed one is cut out of its
queue, and every other queue is unchanged.  The slab changes at most in the
touched level, and never in the terms of an order.
-/

namespace NanoMatch

open IntrusiveList

namespace LevelsRep

variable {slab slab' : Slab} {grid : PriceGrid} {levels : BookSide → ℕ → PriceLevel}
  {queues : Queues} {side side' : BookSide} {i j : ℕ} {slot : Slot}

theorem level_unique (hrep : LevelsRep slab grid levels queues)
    (hslot : slot ∈ queues side i) (hslot' : slot ∈ queues side' j) :
    side' = side ∧ j = i := by
  have hplaced := hrep.placed side i slot hslot
  have hplaced' := hrep.placed side' j slot hslot'
  constructor
  · rw [← hplaced.side_eq, ← hplaced'.side_eq]
  · apply grid.indexToPrice_injective
    rw [← hplaced.price_eq, ← hplaced'.price_eq]

theorem levelEmpty_iff (hrep : LevelsRep slab grid levels queues)
    (side : BookSide) (i : ℕ) :
    levelEmpty (levels side i) = true ↔ queues side i = [] :=
  (hrep.linked side i).levelEmpty_iff

theorem range (hrep : LevelsRep slab grid levels queues)
    (hne : queues side i ≠ []) : i < grid.numLevels := by
  obtain ⟨slot, hslot⟩ := List.exists_mem_of_ne_nil _ hne
  exact (hrep.placed side i slot hslot).range

theorem isValidPrice (hrep : LevelsRep slab grid levels queues)
    (hslot : slot ∈ queues side i) :
    grid.isValidPrice (slab slot).price = true := by
  have hplaced := hrep.placed side i slot hslot
  rw [hplaced.price_eq]
  exact grid.isValidPrice_indexToPrice hplaced.range

theorem tickToIndex (hrep : LevelsRep slab grid levels queues)
    (hslot : slot ∈ queues side i) : grid.tickToIndex (slab slot).price = i := by
  rw [(hrep.placed side i slot hslot).price_eq]
  exact grid.tickToIndex_indexToPrice i

theorem congr (hrep : LevelsRep slab grid levels queues)
    (hnext : slab'.nextOf = slab.nextOf) (hprev : slab'.prevOf = slab.prevOf)
    (hterms : ∀ slot, (slab' slot).terms = (slab slot).terms) :
    LevelsRep slab' grid levels queues where
  linked side i := by
    unfold Queue
    rw [hnext, hprev]
    exact hrep.linked side i
  placed side i slot hslot := (hrep.placed side i slot hslot).congr (hterms slot)
  priced := hrep.priced

theorem congr_of_mem (hrep : LevelsRep slab grid levels queues)
    (hsame : ∀ side i, ∀ slot ∈ queues side i, slab' slot = slab slot) :
    LevelsRep slab' grid levels queues where
  linked side i := (hrep.linked side i).congr (hsame side i)
  placed side i slot hslot :=
    (hrep.placed side i slot hslot).congr (by rw [hsame side i slot hslot])
  priced := hrep.priced

theorem mem_splice_iff (hrep : LevelsRep slab grid levels queues)
    {before after : List Slot} {other : Slot}
    (hqueue : queues side i = before ++ slot :: after) :
    other ∈ queues.set side i (before ++ after) side' j ↔
      other ∈ queues side' j ∧ other ≠ slot := by
  have hslot : slot ∈ queues side i := by
    rw [hqueue]
    simp
  by_cases hlevel : side' = side ∧ j = i
  · obtain ⟨rfl, rfl⟩ := hlevel
    have hnodup := (hrep.linked side' j).nodup
    rw [hqueue] at hnodup
    have hnotMem : slot ∉ before ++ after := by
      have hperm : (before ++ slot :: after).Perm (slot :: (before ++ after)) :=
        List.perm_middle
      exact (List.nodup_cons.mp (hperm.nodup_iff.mp hnodup)).1
    rw [Queues.set_same, hqueue]
    constructor
    · intro hother
      constructor
      · simp only [List.mem_append, List.mem_cons] at hother ⊢
        tauto
      · rintro rfl
        exact hnotMem hother
    · rintro ⟨hother, hne⟩
      simp only [List.mem_append, List.mem_cons] at hother ⊢
      tauto
  · rw [Queues.set_of_ne _ _ hlevel]
    constructor
    · intro hother
      refine ⟨hother, ?_⟩
      rintro rfl
      exact hlevel (hrep.level_unique hslot hother)
    · exact fun hother => hother.1

theorem setLevel {book : OrderBook} {level : PriceLevel} {slots : List Slot}
    (hrep : LevelsRep slab book.grid book.sideLevels queues)
    (hframe : ∀ side' j, ¬ (side' = side ∧ j = i) →
      ∀ slot ∈ queues side' j, slab' slot = slab slot)
    (hqueue : Queue slab' level slots)
    (hprice : level.price = book.grid.indexToPrice i)
    (hplaced : ∀ slot ∈ slots, Placed slab' book.grid side i slot) :
    LevelsRep slab' book.grid (book.setLevel side i level).sideLevels
      (queues.set side i slots) where
  linked side' j := by
    by_cases hlevel : side' = side ∧ j = i
    · obtain ⟨rfl, rfl⟩ := hlevel
      simpa using hqueue
    · rw [OrderBook.sideLevels_setLevel_of_ne _ _ _ _ _ _ hlevel,
        Queues.set_of_ne _ _ hlevel]
      exact (hrep.linked side' j).congr (hframe side' j hlevel)
  placed side' j slot hslot := by
    by_cases hlevel : side' = side ∧ j = i
    · obtain ⟨rfl, rfl⟩ := hlevel
      rw [Queues.set_same] at hslot
      exact hplaced slot hslot
    · rw [Queues.set_of_ne _ _ hlevel] at hslot
      apply (hrep.placed side' j slot hslot).congr
      rw [hframe side' j hlevel slot hslot]
  priced side' j := by
    by_cases hlevel : side' = side ∧ j = i
    · obtain ⟨rfl, rfl⟩ := hlevel
      simpa using hprice
    · rw [OrderBook.sideLevels_setLevel_of_ne _ _ _ _ _ _ hlevel]
      exact hrep.priced side' j

end LevelsRep

namespace OrderIndex

variable (index : OrderIndex) (slab : Slab) (slot : Slot) (id id' : OrderId)

theorem find_erase_self : OrderIndex.find (index.erase id) id = none :=
  AList.lookup_erase id index

theorem find_erase_of_ne (hne : id' ≠ id) :
    OrderIndex.find (index.erase id) id' = index.find id' :=
  AList.lookup_erase_ne hne

theorem find_emplace_of_mem (hmem : (slab slot).orderId ∈ index) :
    index.emplace slab slot = index := by
  simp [emplace, hmem]

theorem find_emplace_self (hfresh : (slab slot).orderId ∉ index) :
    (index.emplace slab slot).find (slab slot).orderId = some slot := by
  simp [emplace, hfresh, find]

theorem find_emplace_of_ne (hne : id' ≠ (slab slot).orderId) :
    (index.emplace slab slot).find id' = index.find id' := by
  unfold emplace
  split_ifs
  · rfl
  · exact AList.lookup_insert_ne hne

theorem find_eq_none_iff : index.find id = none ↔ id ∉ index :=
  AList.lookup_eq_none

end OrderIndex

/-! ## Cached aggregates -/

/-- The total and the count a level caches. -/
structure Aggregates where
  totalQty : Quantity
  orderCount : UInt32

namespace Aggregates

def added (cached : Aggregates) (quantity : Quantity) : Aggregates :=
  ⟨cached.totalQty + quantity, cached.orderCount + 1⟩

def removed (cached : Aggregates) (quantity : Quantity) : Aggregates :=
  ⟨if quantity ≤ cached.totalQty then cached.totalQty - quantity else 0,
    if 1 ≤ cached.orderCount then cached.orderCount - 1 else 0⟩

/-- A trade takes its quantity without a guard.  An order which is done is then
spliced out with nothing left. -/
def filled (cached : Aggregates) (fill : Quantity) (done : Bool) : Aggregates :=
  if done then removed ⟨cached.totalQty - fill, cached.orderCount⟩ 0
  else ⟨cached.totalQty - fill, cached.orderCount⟩

end Aggregates

def OrderBook.aggregates (book : OrderBook) (side : BookSide) (i : ℕ) : Aggregates :=
  ⟨(book.sideLevels side i).totalQty, (book.sideLevels side i).orderCount⟩

/-- Only one level has new aggregates. -/
def OrderBook.AggregatesSet (book book' : OrderBook) (side : BookSide) (i : ℕ)
    (cached : Aggregates) : Prop :=
  ∀ side' j, book'.aggregates side' j =
    if side' = side ∧ j = i then cached else book.aggregates side' j

theorem OrderBook.aggregatesSet_of_setLevel {book book' : OrderBook} {side : BookSide}
    {i : ℕ} {level : PriceLevel}
    (hlevels : book'.sideLevels = (book.setLevel side i level).sideLevels) :
    book.AggregatesSet book' side i ⟨level.totalQty, level.orderCount⟩ := by
  intro side' j
  unfold OrderBook.aggregates
  rw [hlevels]
  split_ifs with hsame
  · rcases hsame with ⟨rfl, rfl⟩
    rw [sideLevels_setLevel_same]
  · rw [sideLevels_setLevel_of_ne _ _ _ _ _ _ hsame]

/-! ## Removal -/

namespace BookShape

open OrderBook

variable {slab slab' : Slab} {book : OrderBook} {queues : Queues}
  {side : BookSide} {i : ℕ} {slot : Slot} {before after : List Slot}
  {level : PriceLevel}

theorem detach_book (slab : Slab) (book : OrderBook) (side : BookSide) (i : ℕ)
    (level : PriceLevel) (slot : Slot) (status : OrderStatus) :
    (detach slab book side i level slot status).2.grid = book.grid ∧
      (detach slab book side i level slot status).2.instrumentId = book.instrumentId ∧
      (detach slab book side i level slot status).2.sideLevels =
        (book.setLevel side i (levelRemove slab level (some slot)).2).sideLevels ∧
      (detach slab book side i level slot status).2.orderIndex =
        book.orderIndex.erase ((levelRemove slab level (some slot)).1 slot).orderId ∧
      (∀ side', side' ≠ side →
        (detach slab book side i level slot status).2.bestIdx side' =
          book.bestIdx side') ∧
      (detach slab book side i level slot status).2.bestIdx side =
        if levelEmpty (levelRemove slab level (some slot)).2 then
          (book.setLevel side i
            (levelRemove slab level (some slot)).2).cursorAfterDrain side i
        else book.bestIdx side := by
  unfold detach
  simp only
  split_ifs
  · refine ⟨by simp [advanceBestCursor], by simp [advanceBestCursor], ?_,
      by simp [advanceBestCursor], ?_, ?_⟩
    · funext side'
      simp only [advanceBestCursor, sideLevels_setBestIdx]
      cases side' <;> rfl
    · intro side' hside
      rw [advanceBestCursor, bestIdx_setBestIdx_of_ne _ _ _ _ hside]
      cases side' <;> cases side <;> rfl
    · rw [advanceBestCursor, bestIdx_setBestIdx_same]
      cases side <;> rfl
  · refine ⟨by simp, by simp, ?_, by simp, ?_, ?_⟩
    · funext side'
      cases side' <;> rfl
    · intro side' _
      cases side' <;> cases side <;> rfl
    · cases side <;> rfl

theorem detach_relinked (hqueue : Queue slab level (before ++ slot :: after))
    (book : OrderBook) (side : BookSide) (i : ℕ) (status : OrderStatus) :
    Relinked (before ++ slot :: after) slab
      (detach slab book side i level slot status).1 := by
  have hmem : slot ∈ before ++ slot :: after := by simp
  exact hqueue.levelRemove_relinked.trans (Relinked.setStatus _ hmem status)

theorem queue_of_ends (hshape : BookShape slab book queues)
    (hqueue : queues side i = before ++ slot :: after) (level : PriceLevel)
    (hhead : level.head = (book.sideLevels side i).head)
    (htail : level.tail = (book.sideLevels side i).tail) :
    Queue slab level (before ++ slot :: after) := by
  have hold := hshape.linked side i
  unfold Queue at hold ⊢
  rw [hhead, htail, ← hqueue]
  exact hold

theorem detach_levels (hshape : BookShape slab book queues)
    (hqueue : queues side i = before ++ slot :: after)
    (hlinked : Queue slab level (before ++ slot :: after))
    (hprice : level.price = (book.sideLevels side i).price)
    (status : OrderStatus) :
    LevelsRep (detach slab book side i level slot status).1 book.grid
      (book.setLevel side i (levelRemove slab level (some slot)).2).sideLevels
      (queues.set side i (before ++ after)) := by
  have hrelinked := detach_relinked hlinked book side i status
  apply hshape.toLevelsRep.setLevel
  · intro side' j hlevel other hother
    apply hrelinked.outside
    intro hmem
    rw [← hqueue] at hmem
    exact hlevel (hshape.level_unique hmem hother)
  · have hremoved := hlinked.levelRemove
    unfold Queue at hremoved ⊢
    simpa [detach] using hremoved
  · rw [(Queue.levelRemove_aggregates slab level slot).1, hprice]
    exact hshape.priced side i
  · intro other hother
    have hmem : other ∈ queues side i := by
      rw [hqueue]
      simp only [List.mem_append, List.mem_cons] at hother ⊢
      tauto
    exact (hshape.placed side i other hmem).congr (hrelinked.terms other)

theorem detach_best (hshape : BookShape slab book queues)
    (hqueue : queues side i = before ++ slot :: after)
    {levels : BookSide → ℕ → PriceLevel}
    (hlevels : levels =
      (book.setLevel side i (levelRemove slab level (some slot)).2).sideLevels)
    (hrep : LevelsRep slab' book.grid levels (queues.set side i (before ++ after)))
    (status : OrderStatus) (side' : BookSide) :
    IsBest side' (queues.set side i (before ++ after) side')
      ((detach slab book side i level slot status).2.bestIdx side') := by
  obtain ⟨_, _, _, _, hbestOther, hbestSame⟩ :=
    detach_book slab book side i level slot status
  by_cases hside : side' = side
  · subst hside
    have hset : queues.set side' i (before ++ after) side' i = before ++ after := by
      simp
    have hother : ∀ j, j ≠ i →
        queues.set side' i (before ++ after) side' j = queues side' j := by
      intro j hj
      exact Queues.set_of_ne _ _ (by simp [hj])
    have hne : queues side' i ≠ [] := by
      rw [hqueue]
      simp
    have hempty := hrep.levelEmpty_iff side' i
    rw [hlevels, sideLevels_setLevel_same, hset] at hempty
    rw [hbestSame]
    split_ifs with hdrained
    · apply isBest_cursorAfterDrain (queues side')
      · intro j
        rw [← hlevels]
        exact hrep.levelEmpty_iff side' j
      · intro j hj
        rw [grid_setLevel]
        exact hshape.toLevelsRep.range hj
      · rw [bestIdx_setLevel]
        exact hshape.best side'
      · exact hne
      · rw [hset]
        exact hempty.mp hdrained
      · exact hother
    · apply (hshape.best side').congr
      intro j
      by_cases hj : j = i
      · subst hj
        rw [hset]
        constructor
        · intro hnil
          exact absurd (hempty.mpr hnil) hdrained
        · intro hnil
          exact absurd hnil hne
      · rw [hother j hj]
  · have hqueues : queues.set side i (before ++ after) side' = queues side' := by
      funext j
      exact Queues.set_of_ne _ _ (by simp [hside])
    rw [hqueues, hbestOther side' hside]
    exact hshape.best side'

theorem detach_indexed (hshape : BookShape slab book queues)
    (hqueue : queues side i = before ++ slot :: after)
    (hlinked : Queue slab level (before ++ slot :: after)) (status : OrderStatus)
    {id : OrderId} {found : Slot}
    (hfound : (detach slab book side i level slot status).2.findOrder id = some found) :
    (∃ side' j, found ∈ queues.set side i (before ++ after) side' j) ∧
      ((detach slab book side i level slot status).1 found).orderId = id := by
  obtain ⟨_, _, _, hindex, _⟩ := detach_book slab book side i level slot status
  have hterms := (detach_relinked hlinked book side i status).terms
  have hid : ((levelRemove slab level (some slot)).1 slot).orderId =
      (slab slot).orderId :=
    congrArg Order.Terms.orderId (hlinked.levelRemove_relinked.terms slot)
  unfold findOrder at hfound
  rw [hindex, hid] at hfound
  by_cases hself : id = (slab slot).orderId
  · rw [hself, OrderIndex.find_erase_self] at hfound
    simp at hfound
  · rw [OrderIndex.find_erase_of_ne _ _ _ hself] at hfound
    obtain ⟨⟨side', j, hresting⟩, horder⟩ := hshape.indexed id found hfound
    have hne : found ≠ slot := by
      rintro rfl
      exact hself horder.symm
    constructor
    · exact ⟨side', j, (hshape.mem_splice_iff hqueue).mpr ⟨hresting, hne⟩⟩
    · rw [← horder]
      exact congrArg Order.Terms.orderId (hterms found)

/-- Cutting `slot` out of its level.  The level may already carry a changed
aggregate, and the slot may already be empty. -/
theorem detach (hshape : BookShape slab book queues)
    (hqueue : queues side i = before ++ slot :: after) (level : PriceLevel)
    (hhead : level.head = (book.sideLevels side i).head)
    (htail : level.tail = (book.sideLevels side i).tail)
    (hprice : level.price = (book.sideLevels side i).price)
    (status : OrderStatus) :
    BookShape (detach slab book side i level slot status).1
      (detach slab book side i level slot status).2
      (queues.set side i (before ++ after)) := by
  have hlinked := hshape.queue_of_ends hqueue level hhead htail
  obtain ⟨hgrid, _, hlevels, _⟩ := detach_book slab book side i level slot status
  have hrep := hshape.detach_levels hqueue hlinked hprice status
  constructor
  · rw [hgrid, hlevels]
    exact hrep
  · exact hshape.detach_best hqueue rfl hrep status
  · intro id found hfound
    exact hshape.detach_indexed hqueue hlinked status hfound

theorem lookup (hshape : BookShape slab book queues) (hslot : slot ∈ queues side i) :
    book.grid.isValidPrice (slab slot).price = true ∧
      book.grid.tickToIndex (slab slot).price = i ∧
      (slab slot).side.bookSide = side :=
  ⟨hshape.toLevelsRep.isValidPrice hslot, hshape.toLevelsRep.tickToIndex hslot,
    (hshape.placed side i slot hslot).side_eq⟩

theorem cancelOrder_eq (hshape : BookShape slab book queues)
    (hslot : slot ∈ queues side i) :
    cancelOrder slab book (some slot) =
      OrderBook.detach slab book side i (book.sideLevels side i) slot .cancelled := by
  obtain ⟨hvalid, hindex, hside⟩ := hshape.lookup hslot
  simp only [cancelOrder, hvalid, hindex, hside, Bool.not_true, Bool.false_eq_true,
    if_false]

theorem cancelOrder_aggregates (hshape : BookShape slab book queues)
    (hslot : slot ∈ queues side i) :
    book.AggregatesSet (cancelOrder slab book (some slot)).2 side i
      ((book.aggregates side i).removed (slab slot).quantity) := by
  obtain ⟨_, _, hlevels, _⟩ := detach_book slab book side i (book.sideLevels side i) slot
    .cancelled
  obtain ⟨_, htotal, hcount⟩ := Queue.levelRemove_aggregates slab (book.sideLevels side i) slot
  have hset := aggregatesSet_of_setLevel hlevels
  rw [htotal, hcount, ← hshape.cancelOrder_eq hslot] at hset
  exact hset

/-- The level with a wrapping decrement of its total. -/
def debited (level : PriceLevel) (quantity : Quantity) : PriceLevel :=
  { level with totalQty := level.totalQty - quantity }

theorem fillRestingOrder_full (hshape : BookShape slab book queues)
    (hslot : slot ∈ queues side i) :
    fillRestingOrder slab book (some slot) (slab slot).quantity =
      (true, OrderBook.detach (slab.setQuantity slot 0) book side i
        (debited (book.sideLevels side i) (slab slot).quantity) slot .filled) := by
  obtain ⟨hvalid, hindex, hside⟩ := hshape.lookup hslot
  simp [fillRestingOrder, hvalid, hindex, hside, debited]

theorem fillRestingOrder_partial (hshape : BookShape slab book queues)
    (hslot : slot ∈ queues side i) {fill : Quantity}
    (hfill : (slab slot).quantity - fill ≠ 0) :
    fillRestingOrder slab book (some slot) fill =
      (false, (slab.setQuantity slot ((slab slot).quantity - fill)).setStatus slot
          .partialFilled,
        book.setLevel side i (debited (book.sideLevels side i) fill)) := by
  obtain ⟨hvalid, hindex, hside⟩ := hshape.lookup hslot
  simp [fillRestingOrder, hvalid, hindex, hside, hfill, debited]

theorem setQuantity (hshape : BookShape slab book queues) (slot : Slot)
    (quantity : Quantity) :
    BookShape (slab.setQuantity slot quantity) book queues where
  toLevelsRep := hshape.toLevelsRep.congr (by simp) (by simp) (by simp)
  best := hshape.best
  indexed id found hfound := by
    obtain ⟨hresting, horder⟩ := hshape.indexed id found hfound
    refine ⟨hresting, ?_⟩
    rw [← horder]
    exact congrArg Order.Terms.orderId (slab.terms_setQuantity slot found quantity)

theorem setStatus (hshape : BookShape slab book queues) (slot : Slot)
    (status : OrderStatus) :
    BookShape (slab.setStatus slot status) book queues where
  toLevelsRep := hshape.toLevelsRep.congr (by simp) (by simp) (by simp)
  best := hshape.best
  indexed id found hfound := by
    obtain ⟨hresting, horder⟩ := hshape.indexed id found hfound
    refine ⟨hresting, ?_⟩
    rw [← horder]
    exact congrArg Order.Terms.orderId (slab.terms_setStatus slot found status)

theorem setAggregates (hshape : BookShape slab book queues) (level : PriceLevel)
    (hhead : level.head = (book.sideLevels side i).head)
    (htail : level.tail = (book.sideLevels side i).tail)
    (hprice : level.price = (book.sideLevels side i).price) :
    BookShape slab (book.setLevel side i level) queues := by
  have hrep := hshape.toLevelsRep.setLevel (fun _ _ _ _ _ => rfl)
    (show Queue slab level (queues side i) by
      have hold := hshape.linked side i
      unfold Queue at hold ⊢
      rw [hhead, htail]
      exact hold)
    (hprice.trans (hshape.priced side i)) (hshape.placed side i)
  rw [Queues.set_eq_self rfl] at hrep
  constructor
  · rw [grid_setLevel]
    exact hrep
  · intro side'
    rw [bestIdx_setLevel]
    exact hshape.best side'
  · intro id found hfound
    apply hshape.indexed id found
    simpa [findOrder] using hfound

theorem congr_of_mem (hshape : BookShape slab book queues)
    (hsame : ∀ side i, ∀ slot ∈ queues side i, slab' slot = slab slot) :
    BookShape slab' book queues where
  toLevelsRep := hshape.toLevelsRep.congr_of_mem hsame
  best := hshape.best
  indexed id found hfound := by
    obtain ⟨⟨side, i, hresting⟩, horder⟩ := hshape.indexed id found hfound
    refine ⟨⟨side, i, hresting⟩, ?_⟩
    rw [hsame side i found hresting]
    exact horder

/-! ## Insertion -/

theorem addOrder_invalid (slab : Slab) (book : OrderBook) (slot : Slot)
    (hinvalid : book.grid.isValidPrice (slab slot).price = false) :
    addOrder slab book (some slot) = (slab, book) := by
  simp [addOrder, hinvalid]

theorem addOrder_valid (slab : Slab) (book : OrderBook) (slot : Slot)
    (hvalid : book.grid.isValidPrice (slab slot).price = true)
    (hindex : book.grid.tickToIndex (slab slot).price = i)
    (hside : (slab slot).side.bookSide = side) :
    let queued := levelEnqueueTail slab (book.sideLevels side i) (some slot)
    (addOrder slab book (some slot)).1 = queued.1 ∧
      (addOrder slab book (some slot)).2.grid = book.grid ∧
      (addOrder slab book (some slot)).2.instrumentId = book.instrumentId ∧
      (addOrder slab book (some slot)).2.sideLevels =
        (book.setLevel side i queued.2).sideLevels ∧
      (addOrder slab book (some slot)).2.orderIndex =
        book.orderIndex.emplace queued.1 slot ∧
      (∀ side', side' ≠ side →
        (addOrder slab book (some slot)).2.bestIdx side' = book.bestIdx side') ∧
      (addOrder slab book (some slot)).2.bestIdx side =
        book.cursorAfterAdd side i := by
  intro queued
  subst hindex hside
  simp only [addOrder, hvalid, Bool.not_true, Bool.false_eq_true, if_false]
  refine ⟨rfl, by simp, by simp, ?_, by simp [queued], ?_, ?_⟩
  · funext side'
    rw [sideLevels_setBestIdx]
    cases side' <;> rfl
  · intro side' hne
    rw [bestIdx_setBestIdx_of_ne _ _ _ _ hne]
    cases side' <;> cases (slab slot).side.bookSide <;> rfl
  · rw [bestIdx_setBestIdx_same]
    cases (slab slot).side.bookSide <;> rfl

theorem addOrder_relinked (hshape : BookShape slab book queues)
    (hvalid : book.grid.isValidPrice (slab slot).price = true)
    (hindex : book.grid.tickToIndex (slab slot).price = i)
    (hside : (slab slot).side.bookSide = side) :
    Relinked (slot :: queues side i) slab (addOrder slab book (some slot)).1 := by
  rw [(addOrder_valid slab book slot hvalid hindex hside).1]
  exact (hshape.linked side i).levelEnqueueTail_relinked slot

theorem addOrder_orderIndex (hshape : BookShape slab book queues)
    (hvalid : book.grid.isValidPrice (slab slot).price = true)
    (hindex : book.grid.tickToIndex (slab slot).price = i)
    (hside : (slab slot).side.bookSide = side) :
    (addOrder slab book (some slot)).2.orderIndex =
      if (slab slot).orderId ∈ book.orderIndex then book.orderIndex
      else book.orderIndex.insert (slab slot).orderId slot := by
  have hfields := addOrder_valid slab book slot hvalid hindex hside
  have hid := congrArg Order.Terms.orderId
    ((hshape.addOrder_relinked hvalid hindex hside).terms slot)
  rw [hfields.1] at hid
  have hid' : ((levelEnqueueTail slab (book.sideLevels side i) (some slot)).1 slot).orderId =
      (slab slot).orderId := hid
  rw [hfields.2.2.2.2.1, OrderIndex.emplace, hid']

theorem addOrder_aggregates (slab : Slab) (book : OrderBook) (slot : Slot)
    (hvalid : book.grid.isValidPrice (slab slot).price = true)
    (hindex : book.grid.tickToIndex (slab slot).price = i)
    (hside : (slab slot).side.bookSide = side) :
    book.AggregatesSet (OrderBook.addOrder slab book (some slot)).2 side i
      ((book.aggregates side i).added (slab slot).quantity) := by
  obtain ⟨_, _, _, hlevels, _⟩ := addOrder_valid slab book slot hvalid hindex hside
  obtain ⟨_, htotal, hcount⟩ :=
    Queue.levelEnqueueTail_aggregates slab (book.sideLevels side i) slot
  have hset := aggregatesSet_of_setLevel hlevels
  rw [htotal, hcount] at hset
  exact hset

/-- The index names the orders it named before, and the new one unless its id is taken. -/
theorem addOrder_indexed (hshape : BookShape slab book queues)
    (hvalid : book.grid.isValidPrice (slab slot).price = true)
    (hindex : book.grid.tickToIndex (slab slot).price = i)
    (hside : (slab slot).side.bookSide = side) {id : OrderId} {found : Slot}
    (hfound : (addOrder slab book (some slot)).2.findOrder id = some found) :
    (∃ side' j, found ∈ queues.set side i (queues side i ++ [slot]) side' j) ∧
      ((addOrder slab book (some slot)).1 found).orderId = id := by
  obtain ⟨hslab, _, _, _, horderIndex, _⟩ := addOrder_valid slab book slot hvalid hindex hside
  have hid : ∀ other, ((addOrder slab book (some slot)).1 other).orderId =
      (slab other).orderId := by
    intro other
    exact congrArg Order.Terms.orderId
      ((hshape.addOrder_relinked hvalid hindex hside).terms other)
  have hkept : book.findOrder id = some found →
      (∃ side' j, found ∈ queues.set side i (queues side i ++ [slot]) side' j) ∧
        (slab found).orderId = id := by
    intro hold
    obtain ⟨⟨side', j, hresting⟩, horder⟩ := hshape.indexed id found hold
    exact ⟨⟨side', j, Queues.mem_set_append hresting⟩, horder⟩
  unfold findOrder at hfound
  rw [horderIndex, ← hslab] at hfound
  rw [hid]
  by_cases hself : id = (slab slot).orderId
  · by_cases hmem : id ∈ book.orderIndex
    · rw [OrderIndex.find_emplace_of_mem _ _ _ (by rw [hid, ← hself]; exact hmem)] at hfound
      exact hkept hfound
    · rw [hself, ← hid slot, OrderIndex.find_emplace_self _ _ _
        (by rw [hid, ← hself]; exact hmem)] at hfound
      obtain rfl : slot = found := by simpa using hfound
      refine ⟨⟨side, i, ?_⟩, hself.symm⟩
      rw [Queues.set_same]
      simp
  · rw [OrderIndex.find_emplace_of_ne _ _ _ _ (by rw [hid]; exact hself)] at hfound
    exact hkept hfound

/-- A new order joins the tail of its level. -/
theorem addOrder (hshape : BookShape slab book queues)
    (hvalid : book.grid.isValidPrice (slab slot).price = true)
    (hindex : book.grid.tickToIndex (slab slot).price = i)
    (hside : (slab slot).side.bookSide = side)
    (hfresh : ∀ side' j, slot ∉ queues side' j) :
    BookShape (addOrder slab book (some slot)).1 (addOrder slab book (some slot)).2
      (queues.set side i (queues side i ++ [slot])) := by
  obtain ⟨hslab, hgrid, _, hlevels, _, hbestOther, hbestSame⟩ :=
    addOrder_valid slab book slot hvalid hindex hside
  have hrelinked := hshape.addOrder_relinked hvalid hindex hside
  have hplaced : Placed slab book.grid side i slot := by
    obtain ⟨hrange, hprice⟩ := book.grid.tickToIndex_lt_numLevels hvalid
    rw [hindex] at hrange hprice
    exact ⟨hrange, hside, hprice⟩
  have hset : queues.set side i (queues side i ++ [slot]) side i =
      queues side i ++ [slot] := by simp
  constructor
  · rw [hgrid, hlevels]
    apply hshape.toLevelsRep.setLevel
    · intro side' j hlevel other hother
      apply hrelinked.outside
      intro hmem
      rcases List.mem_cons.mp hmem with rfl | hmem
      · exact hfresh side' j hother
      · exact hlevel (hshape.level_unique hmem hother)
    · rw [hslab]
      exact (hshape.linked side i).levelEnqueueTail (hfresh side i)
    · rw [(Queue.levelEnqueueTail_aggregates _ _ _).1]
      exact hshape.priced side i
    · intro other hother
      rcases List.mem_append.mp hother with hold | hnew
      · exact (hshape.placed side i other hold).congr (hrelinked.terms other)
      · rw [List.mem_singleton.mp hnew]
        exact hplaced.congr (hrelinked.terms slot)
  · intro side'
    by_cases hsame : side' = side
    · subst hsame
      rw [hbestSame]
      apply isBest_cursorAfterAdd (hshape.best side')
      · rw [hset]
        simp
      · intro j hj
        exact Queues.set_of_ne _ _ (by simp [hj])
    · have hqueues : queues.set side i (queues side i ++ [slot]) side' =
          queues side' := by
        funext j
        exact Queues.set_of_ne _ _ (by simp [hsame])
      rw [hqueues, hbestOther side' hsame]
      exact hshape.best side'
  · intro id found hfound
    exact hshape.addOrder_indexed hvalid hindex hside hfound

end BookShape

/-! ## Mutators between two operations -/

namespace BookRep

open OrderBook

variable {slab slab' : Slab} {book : OrderBook} {queues : Queues}
  {side : BookSide} {i : ℕ} {slot : Slot} {before after : List Slot}

theorem congr_of_mem (hrep : BookRep slab book queues)
    (hsame : ∀ side i, ∀ slot ∈ queues side i, slab' slot = slab slot) :
    BookRep slab' book queues where
  toBookShape := hrep.toBookShape.congr_of_mem hsame
  positive side i slot hslot := by
    rw [hsame side i slot hslot]
    exact hrep.positive side i slot hslot

theorem cancelOrder (hrep : BookRep slab book queues)
    (hqueue : queues side i = before ++ slot :: after) :
    BookRep (cancelOrder slab book (some slot)).1 (cancelOrder slab book (some slot)).2
        (queues.set side i (before ++ after)) ∧
      Relinked (queues side i) slab (OrderBook.cancelOrder slab book (some slot)).1 ∧
      (OrderBook.cancelOrder slab book (some slot)).2.grid = book.grid ∧
      (OrderBook.cancelOrder slab book (some slot)).2.orderIndex =
        book.orderIndex.erase (slab slot).orderId := by
  have hslot : slot ∈ queues side i := by
    rw [hqueue]
    simp
  have hlinked := hrep.linked side i
  rw [hqueue] at hlinked
  have hrelinked := BookShape.detach_relinked hlinked book side i .cancelled
  obtain ⟨hgrid, _, _, hindex, _⟩ := BookShape.detach_book slab book side i
    (book.sideLevels side i) slot .cancelled
  have hid : ((levelRemove slab (book.sideLevels side i) (some slot)).1 slot).orderId =
      (slab slot).orderId :=
    congrArg Order.Terms.orderId (hlinked.levelRemove_relinked.terms slot)
  rw [hid] at hindex
  rw [hrep.toBookShape.cancelOrder_eq hslot, hqueue]
  refine ⟨⟨hrep.toBookShape.detach hqueue _ rfl rfl rfl .cancelled, ?_⟩, hrelinked,
    hgrid, hindex⟩
  intro side' j other hother
  have hmem := (hrep.mem_splice_iff hqueue).mp hother
  have hpositive := hrep.positive side' j other hmem.1
  unfold Order.remaining at hpositive ⊢
  rw [hrelinked.quantity other]
  exact hpositive

/-- What one trade does to the book: a full fill cuts the order out, a partial
fill only lowers its quantity. -/
structure Filled (slab : Slab) (book : OrderBook) (queues : Queues) (side : BookSide)
    (i : ℕ) (before : List Slot) (slot : Slot) (after : List Slot) (fill : Quantity)
    (result : Bool × Slab × OrderBook) : Prop where
  done_iff : result.1 = true ↔ fill = (slab slot).quantity
  rep : BookRep result.2.1 result.2.2
    (if result.1 then queues.set side i (before ++ after) else queues)
  outside : ∀ other, other ∉ queues side i → result.2.1 other = slab other
  terms : ∀ other, (result.2.1 other).terms = (slab other).terms
  quantity : ∀ other, (result.2.1 other).quantity =
    if other = slot then (slab slot).quantity - fill else (slab other).quantity
  grid : result.2.2.grid = book.grid
  index : result.2.2.orderIndex =
    if result.1 then book.orderIndex.erase (slab slot).orderId else book.orderIndex
  aggregates : book.AggregatesSet result.2.2 side i
    ((book.aggregates side i).filled fill result.1)

theorem fillRestingOrder_done (hrep : BookRep slab book queues)
    (hqueue : queues side i = before ++ slot :: after) :
    Filled slab book queues side i before slot after (slab slot).quantity
      (fillRestingOrder slab book (some slot) (slab slot).quantity) := by
  have hslot : slot ∈ queues side i := by
    rw [hqueue]
    simp
  have hshape := hrep.toBookShape.setQuantity slot 0
  have hlinked := hshape.queue_of_ends hqueue
    (BookShape.debited (book.sideLevels side i) (slab slot).quantity) rfl rfl
  have hrelinked := BookShape.detach_relinked hlinked book side i .filled
  obtain ⟨hgrid, _, hlevels, hindex, _⟩ := BookShape.detach_book (slab.setQuantity slot 0)
    book side i (BookShape.debited (book.sideLevels side i) (slab slot).quantity)
    slot .filled
  have hid := congrArg Order.Terms.orderId (hlinked.levelRemove_relinked.terms slot)
  rw [Slab.terms_setQuantity] at hid
  rw [hrep.toBookShape.fillRestingOrder_full hslot]
  refine ⟨by simp, ?_, ?_, ?_, ?_, hgrid, ?_, ?_⟩
  · simp only [if_true]
    refine ⟨hshape.detach hqueue (BookShape.debited (book.sideLevels side i)
      (slab slot).quantity) rfl rfl rfl .filled, ?_⟩
    intro side' j other hother
    have hmem := (hrep.mem_splice_iff hqueue).mp hother
    have hpositive := hrep.positive side' j other hmem.1
    unfold Order.remaining at hpositive ⊢
    rw [hrelinked.quantity other, Slab.quantity_setQuantity, if_neg hmem.2]
    exact hpositive
  · intro other hother
    rw [hqueue] at hother
    rw [hrelinked.outside other hother]
    apply Function.update_of_ne
    rintro rfl
    simp at hother
  · intro other
    rw [hrelinked.terms other, Slab.terms_setQuantity]
  · intro other
    rw [hrelinked.quantity other, Slab.quantity_setQuantity, UInt32.sub_self]
  · rw [if_pos rfl, ← show _ = (slab slot).orderId from hid]
    exact hindex
  · obtain ⟨_, htotal, hcount⟩ := Queue.levelRemove_aggregates (slab.setQuantity slot 0)
      (BookShape.debited (book.sideLevels side i) (slab slot).quantity) slot
    have hset := aggregatesSet_of_setLevel hlevels
    have hzero : (slab.setQuantity slot 0 slot).quantity = 0 := by simp
    rw [htotal, hcount, hzero] at hset
    exact hset

theorem fillRestingOrder_kept (hrep : BookRep slab book queues)
    (hqueue : queues side i = before ++ slot :: after) {fill : Quantity}
    (hle : fill ≤ (slab slot).quantity) (hne : fill ≠ (slab slot).quantity) :
    Filled slab book queues side i before slot after fill
      (fillRestingOrder slab book (some slot) fill) := by
  have hslot : slot ∈ queues side i := by
    rw [hqueue]
    simp
  have hpositive := Quantity.sub_pos hle hne
  have hshape := ((hrep.toBookShape.setQuantity slot
    ((slab slot).quantity - fill)).setStatus slot .partialFilled).setAggregates
      (BookShape.debited (book.sideLevels side i) fill) rfl rfl rfl
  rw [hrep.toBookShape.fillRestingOrder_partial hslot
    (Quantity.ne_zero_of_pos hpositive)]
  refine ⟨by simpa using hne, ?_, ?_, ?_, ?_, by simp, by simp,
    aggregatesSet_of_setLevel rfl⟩
  · simp only [Bool.false_eq_true, if_false]
    refine ⟨hshape, ?_⟩
    intro side' j other hother
    unfold Order.remaining
    rw [Slab.quantity_setStatus, Slab.quantity_setQuantity]
    split_ifs
    · exact UInt32.lt_iff_toNat_lt.mp hpositive
    · exact hrep.positive side' j other hother
  · intro other hother
    have hother' : other ≠ slot := by
      rintro rfl
      exact hother hslot
    simp [Slab.setStatus, Slab.setQuantity, hother']
  · intro other
    rw [Slab.terms_setStatus, Slab.terms_setQuantity]
  · intro other
    rw [Slab.quantity_setStatus, Slab.quantity_setQuantity]

theorem fillRestingOrder (hrep : BookRep slab book queues)
    (hqueue : queues side i = before ++ slot :: after) {fill : Quantity}
    (hle : fill ≤ (slab slot).quantity) :
    Filled slab book queues side i before slot after fill
      (fillRestingOrder slab book (some slot) fill) := by
  by_cases hfull : fill = (slab slot).quantity
  · subst hfull
    exact hrep.fillRestingOrder_done hqueue
  · exact hrep.fillRestingOrder_kept hqueue hle hfull

theorem addOrder (hrep : BookRep slab book queues)
    (hvalid : book.grid.isValidPrice (slab slot).price = true)
    (hindex : book.grid.tickToIndex (slab slot).price = i)
    (hside : (slab slot).side.bookSide = side)
    (hfresh : ∀ side' j, slot ∉ queues side' j)
    (hquantity : 0 < (slab slot).remaining) :
    BookRep (addOrder slab book (some slot)).1 (addOrder slab book (some slot)).2
      (queues.set side i (queues side i ++ [slot])) := by
  have hrelinked := hrep.toBookShape.addOrder_relinked hvalid hindex hside
  refine ⟨hrep.toBookShape.addOrder hvalid hindex hside hfresh, ?_⟩
  intro side' j other hother
  unfold Order.remaining
  rw [hrelinked.quantity other]
  by_cases hsame : side' = side ∧ j = i
  · obtain ⟨rfl, rfl⟩ := hsame
    rw [Queues.set_same] at hother
    rcases List.mem_append.mp hother with hold | hlast
    · exact hrep.positive side' j other hold
    · rw [List.mem_singleton.mp hlast]
      exact hquantity
  · rw [Queues.set_of_ne _ _ hsame] at hother
    exact hrep.positive side' j other hother

end BookRep

end NanoMatch
