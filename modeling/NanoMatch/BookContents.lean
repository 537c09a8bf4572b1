import NanoMatch.ExchangeRefinement

/-!
# The contents of a book

What can be seen of a book without naming a slot: the orders of each queue, the
cached aggregates, the cursors and the keys of the index.  An order shows whether
the index names it, since several orders of a book may share an id.

Two snapshots mirror each other at an instrument when they show the same orders and
aggregates there.  The slots behind them may be different ones, and so may the rest
of the slab.  Each step of the engine changes what its own book shows by a function
of what it showed before, and leaves every other book as it is.
-/

namespace NanoMatch

open OrderBook

structure OrderView where
  orderId : OrderId
  price : Price
  side : Side
  quantity : Quantity
  indexed : Bool
  deriving DecidableEq

abbrev OrderTable := BookSide → ℕ → List OrderView

structure BookContents where
  grid : PriceGrid
  orders : OrderTable
  aggregates : BookSide → ℕ → Aggregates
  bestIdx : BookSide → Option ℕ
  hasKey : OrderId → Bool

def OrderBook.orderView (book : OrderBook) (slab : Slab) (slot : Slot) : OrderView where
  orderId := (slab slot).orderId
  price := (slab slot).price
  side := (slab slot).side
  quantity := (slab slot).quantity
  indexed := decide (book.findOrder (slab slot).orderId = some slot)

def Engine.contents (engine : Engine) (instrumentId : InstrumentId) : Option BookContents :=
  (engine.books instrumentId).map fun book =>
    { grid := book.grid
      orders := fun side i =>
        (engine.queue instrumentId side i).map (book.orderView engine.slab)
      aggregates := book.aggregates
      bestIdx := book.bestIdx
      hasKey := fun id => (book.findOrder id).isSome }

/-! ## Snapshots -/

namespace Snapshot

def findOrder (s : Snapshot) (instrumentId : InstrumentId) (id : OrderId) : Option Slot :=
  (s.engine.books instrumentId).bind fun book => book.findOrder id

def orderView (s : Snapshot) (instrumentId : InstrumentId) (slot : Slot) : OrderView where
  orderId := (s.slab slot).orderId
  price := (s.slab slot).price
  side := (s.slab slot).side
  quantity := (s.slab slot).quantity
  indexed := decide (s.findOrder instrumentId (s.slab slot).orderId = some slot)

def orders (s : Snapshot) (instrumentId : InstrumentId) : OrderTable :=
  fun side i => (s.queues instrumentId side i).map (s.orderView instrumentId)

def aggregates (s : Snapshot) (instrumentId : InstrumentId) (side : BookSide) (i : ℕ) :
    Option Aggregates :=
  (s.engine.books instrumentId).map fun book => book.aggregates side i

variable {s : Snapshot} {instrumentId : InstrumentId} {book : OrderBook}

theorem findOrder_eq (hbook : s.engine.books instrumentId = some book) (id : OrderId) :
    s.findOrder instrumentId id = book.findOrder id := by
  simp [findOrder, hbook]

theorem aggregates_eq (hbook : s.engine.books instrumentId = some book) (side : BookSide)
    (i : ℕ) : s.aggregates instrumentId side i = some (book.aggregates side i) := by
  simp [aggregates, hbook]

theorem orders_eq (hbook : s.engine.books instrumentId = some book) (side : BookSide) (i : ℕ) :
    s.orders instrumentId side i =
      (s.engine.queue instrumentId side i).map (book.orderView s.engine.slab) := by
  unfold orders orderView
  simp only [findOrder_eq hbook, s.rep.queue_eq]
  rfl

/-- The index names a resting order with the id. -/
theorem mem_of_findOrder {id : OrderId} {slot : Slot}
    (hfound : s.findOrder instrumentId id = some slot) :
    (∃ side i, slot ∈ s.queues instrumentId side i) ∧ (s.slab slot).orderId = id := by
  unfold findOrder at hfound
  rcases Option.bind_eq_some_iff.mp hfound with ⟨book, hbook, hindexed⟩
  exact (s.rep.bookRep _ book hbook).indexed id slot hindexed

/-- An order with the id is shown as indexed. -/
theorem findOrder_isSome_iff (id : OrderId) :
    (s.findOrder instrumentId id).isSome ↔
      ∃ side i, ∃ order ∈ s.orders instrumentId side i,
        order.orderId = id ∧ order.indexed = true := by
  constructor
  · intro hsome
    rcases Option.isSome_iff_exists.mp hsome with ⟨slot, hfound⟩
    rcases mem_of_findOrder hfound with ⟨⟨side, i, hslot⟩, hid⟩
    refine ⟨side, i, _, List.mem_map_of_mem hslot, hid, ?_⟩
    rw [orderView, hid, hfound]
    exact decide_eq_true rfl
  · rintro ⟨side, i, order, horder, hid, hindexed⟩
    rcases List.mem_map.mp horder with ⟨slot, _, rfl⟩
    have hfound := of_decide_eq_true hindexed
    change (s.slab slot).orderId = id at hid
    rw [hid] at hfound
    rw [hfound]
    rfl

theorem orderView_of_terms {t : Snapshot} {slot : Slot}
    (hterms : (t.slab slot).terms = (s.slab slot).terms) :
    t.orderView instrumentId slot =
      { s.orderView instrumentId slot with
        quantity := (t.slab slot).quantity
        indexed := decide (t.findOrder instrumentId (s.slab slot).orderId = some slot) } := by
  have hid : (t.slab slot).orderId = (s.slab slot).orderId :=
    congrArg Order.Terms.orderId hterms
  have hprice : (t.slab slot).price = (s.slab slot).price := congrArg Order.Terms.price hterms
  have hside : (t.slab slot).side = (s.slab slot).side := congrArg Order.Terms.side hterms
  unfold orderView
  rw [hid, hprice, hside]

theorem orderView_congr {t : Snapshot} {slot : Slot}
    (hterms : (t.slab slot).terms = (s.slab slot).terms)
    (hquantity : (t.slab slot).quantity = (s.slab slot).quantity)
    (hfound : t.findOrder instrumentId (s.slab slot).orderId =
      s.findOrder instrumentId (s.slab slot).orderId) :
    t.orderView instrumentId slot = s.orderView instrumentId slot := by
  rw [orderView_of_terms hterms, hquantity, hfound]
  rfl

theorem orders_eq_nil (side : BookSide) (i : ℕ) :
    s.orders instrumentId side i = [] ↔ s.queues instrumentId side i = [] :=
  List.map_eq_nil_iff

end Snapshot

/-! ## Mirrored books -/

structure Mirrors (instrumentId : InstrumentId) (s t : Snapshot) : Prop where
  grid : t.gridOf instrumentId = s.gridOf instrumentId
  orders : t.orders instrumentId = s.orders instrumentId
  aggregates : t.aggregates instrumentId = s.aggregates instrumentId

namespace Mirrors

variable {instrumentId : InstrumentId} {s t u : Snapshot} {book book' : OrderBook}

theorem refl (instrumentId : InstrumentId) (s : Snapshot) : Mirrors instrumentId s s :=
  ⟨rfl, rfl, rfl⟩

theorem symm (hmirrors : Mirrors instrumentId s t) : Mirrors instrumentId t s :=
  ⟨hmirrors.grid.symm, hmirrors.orders.symm, hmirrors.aggregates.symm⟩

theorem trans (hfirst : Mirrors instrumentId s t) (hsecond : Mirrors instrumentId t u) :
    Mirrors instrumentId s u :=
  ⟨hsecond.grid.trans hfirst.grid, hsecond.orders.trans hfirst.orders,
    hsecond.aggregates.trans hfirst.aggregates⟩

theorem unlisted (hmirrors : Mirrors instrumentId s t) :
    t.engine.books instrumentId = none ↔ s.engine.books instrumentId = none := by
  have hgrid := hmirrors.grid
  unfold Snapshot.gridOf at hgrid
  rw [← Option.map_eq_none_iff (f := OrderBook.grid), hgrid, Option.map_eq_none_iff]

theorem listed (hmirrors : Mirrors instrumentId s t)
    (hbook : s.engine.books instrumentId = some book) :
    ∃ book', t.engine.books instrumentId = some book' := by
  cases hbook' : t.engine.books instrumentId with
  | none =>
      rw [hmirrors.unlisted.mp hbook'] at hbook
      exact absurd hbook (by simp)
  | some book' => exact ⟨book', rfl⟩

theorem grid_of_layout (hmirrors : Mirrors instrumentId s t) {s' t' : Snapshot}
    (hs : SameLayout s s') (ht : SameLayout t t') :
    t'.gridOf instrumentId = s'.gridOf instrumentId := by
  rw [hs.grids, ht.grids]
  exact hmirrors.grid

theorem grid_eq (hmirrors : Mirrors instrumentId s t)
    (hbook : s.engine.books instrumentId = some book)
    (hbook' : t.engine.books instrumentId = some book') : book'.grid = book.grid := by
  have hgrid := hmirrors.grid
  rw [Snapshot.gridOf_eq hbook, Snapshot.gridOf_eq hbook', Option.some.injEq] at hgrid
  exact hgrid

theorem book_aggregates (hmirrors : Mirrors instrumentId s t)
    (hbook : s.engine.books instrumentId = some book)
    (hbook' : t.engine.books instrumentId = some book') :
    book'.aggregates = book.aggregates := by
  funext side i
  have haggregates := congrFun (congrFun hmirrors.aggregates side) i
  rw [Snapshot.aggregates_eq hbook, Snapshot.aggregates_eq hbook', Option.some.injEq]
    at haggregates
  exact haggregates

theorem empty_iff (hmirrors : Mirrors instrumentId s t) (side : BookSide) (i : ℕ) :
    t.queues instrumentId side i = [] ↔ s.queues instrumentId side i = [] := by
  rw [← Snapshot.orders_eq_nil, ← Snapshot.orders_eq_nil, hmirrors.orders]

theorem findOrder_isSome (hmirrors : Mirrors instrumentId s t) (id : OrderId) :
    (t.findOrder instrumentId id).isSome = (s.findOrder instrumentId id).isSome := by
  rw [Bool.eq_iff_iff, Snapshot.findOrder_isSome_iff, Snapshot.findOrder_isSome_iff,
    hmirrors.orders]

theorem bestIdx_eq (hmirrors : Mirrors instrumentId s t)
    (hbook : s.engine.books instrumentId = some book)
    (hbook' : t.engine.books instrumentId = some book') (side : BookSide) :
    book'.bestIdx side = book.bestIdx side := by
  have hbest := (s.rep.bookRep _ book hbook).best side
  have hbest' := (t.rep.bookRep _ book' hbook').best side
  exact IsBest.unique hbest' (IsBest.congr hbest (hmirrors.empty_iff side))

/-- Mirrored books have the same contents. -/
theorem contents_eq (hmirrors : Mirrors instrumentId s t) :
    t.engine.contents instrumentId = s.engine.contents instrumentId := by
  cases hbook : s.engine.books instrumentId with
  | none =>
      have hbook' := hmirrors.unlisted.mpr hbook
      simp [Engine.contents, hbook, hbook']
  | some book =>
      rcases hmirrors.listed hbook with ⟨book', hbook'⟩
      have hkeys : ∀ id, (book'.findOrder id).isSome = (book.findOrder id).isSome := by
        intro id
        rw [← Snapshot.findOrder_eq hbook, ← Snapshot.findOrder_eq hbook']
        exact hmirrors.findOrder_isSome id
      have horders : ∀ side i,
          (t.engine.queue instrumentId side i).map (book'.orderView t.engine.slab) =
            (s.engine.queue instrumentId side i).map (book.orderView s.engine.slab) := by
        intro side i
        rw [← Snapshot.orders_eq hbook, ← Snapshot.orders_eq hbook', hmirrors.orders]
      have hbest : book'.bestIdx = book.bestIdx := funext (hmirrors.bestIdx_eq hbook hbook')
      unfold Engine.contents
      rw [hbook, hbook']
      simp only [Option.map_some, hmirrors.grid_eq hbook hbook',
        hmirrors.book_aggregates hbook hbook', hbest, hkeys, horders]

/-- A book which is not touched. -/
theorem of_same (hbooks : t.engine.books instrumentId = s.engine.books instrumentId)
    (hqueues : t.queues instrumentId = s.queues instrumentId)
    (hterms : ∀ side i, ∀ slot ∈ s.queues instrumentId side i,
      (t.slab slot).terms = (s.slab slot).terms)
    (hquantity : ∀ side i, ∀ slot ∈ s.queues instrumentId side i,
      (t.slab slot).quantity = (s.slab slot).quantity) : Mirrors instrumentId s t := by
  constructor
  · unfold Snapshot.gridOf
    rw [hbooks]
  · funext side i
    unfold Snapshot.orders
    rw [hqueues]
    apply List.map_congr_left
    intro slot hslot
    apply Snapshot.orderView_congr (hterms side i slot hslot) (hquantity side i slot hslot)
    unfold Snapshot.findOrder
    rw [hbooks]
  · funext side i
    unfold Snapshot.aggregates
    rw [hbooks]

end Mirrors

/-! ## Steps which leave a book as it is -/

section Untouched

variable {instrumentId other : InstrumentId} {s s' : Snapshot} {msg : InboundOrderMsg}
  {slot agg maker : Slot} {level : ℕ} {behind : List Slot}

theorem Posted.mirrors {reports : List ExecutionReport} {count : ℕ}
    (hposted : Posted reports count s s') (instrumentId : InstrumentId) :
    Mirrors instrumentId s s' := by
  have hslab : s'.slab = s.slab := by
    unfold Snapshot.slab Engine.slab
    rw [hposted.pool_eq]
  apply Mirrors.of_same (congrFun hposted.books_eq _) (congrFun hposted.queues_eq _)
  · intro _ _ slot _
    rw [hslab]
  · intro _ _ slot _
    rw [hslab]

theorem Admitted.mirrors (hadmitted : Admitted msg slot s s') (instrumentId : InstrumentId) :
    Mirrors instrumentId s s' := by
  have hsame : ∀ side i, ∀ other ∈ s.queues instrumentId side i,
      s'.slab other = s.slab other := by
    intro side i other hother
    apply hadmitted.others
    rintro rfl
    apply s.rep.separate _ _ _ _ hother
    rw [hadmitted.free_eq]
    exact List.mem_cons_self
  apply Mirrors.of_same (congrFun hadmitted.books_eq _) (congrFun hadmitted.queues_eq _)
  · intro side i other hother
    rw [hsame side i other hother]
  · intro side i other hother
    rw [hsame side i other hother]

theorem Released.mirrors (hreleased : Released slot s s') (instrumentId : InstrumentId) :
    Mirrors instrumentId s s' :=
  Mirrors.of_same (congrFun hreleased.books_eq _) (congrFun hreleased.queues_eq _)
    (fun _ _ other _ => hreleased.terms other) (fun _ _ other _ => hreleased.quantity other)

theorem Traded.mirrors_other (htraded : Traded instrumentId agg maker level behind s s')
    (hloose : s.IsLoose agg) (hne : other ≠ instrumentId) : Mirrors other s s' := by
  rcases htraded.books with ⟨book, book', _, hbooks, _⟩
  apply Mirrors.of_same
  · rw [hbooks, Function.update_of_ne hne]
  · funext side i
    exact htraded.queue_other (fun hall => hne hall.1)
  · intro _ _ slot _
    exact htraded.terms slot
  · intro side i slot hslot
    have hmaker : slot ≠ maker := by
      rintro rfl
      exact hne (s.rep.queue_unique htraded.maker_mem hslot).1
    have hagg : slot ≠ agg := Snapshot.ne_of_isLoose hloose hslot
    rw [htraded.quantity, if_neg]
    simp [hmaker, hagg]

theorem Rested.mirrors_other (hrested : Rested instrumentId slot level s s')
    (hne : other ≠ instrumentId) : Mirrors other s s' := by
  rcases hrested.books with ⟨book, book', _, hbooks, _⟩
  apply Mirrors.of_same
  · rw [hbooks, Function.update_of_ne hne]
  · rw [hrested.queues_eq, Function.update_of_ne hne]
  · exact fun _ _ slot _ => hrested.terms slot
  · exact fun _ _ slot _ => hrested.quantity slot

theorem Removed.mirrors_other {side : BookSide} {before after : List Slot}
    (hremoved : Removed instrumentId slot side level before after s s')
    (hne : other ≠ instrumentId) : Mirrors other s s' := by
  rcases hremoved.books with ⟨book, book', _, hbooks, _⟩
  apply Mirrors.of_same
  · rw [hbooks, Function.update_of_ne hne]
  · rw [hremoved.queues_eq, Function.update_of_ne hne]
  · exact fun _ _ slot _ => hremoved.terms slot
  · exact fun _ _ slot _ => hremoved.quantity slot

theorem Mirrors.keptByPhases (s : Snapshot) (hne : other ≠ instrumentId) :
    KeptByPhases instrumentId (Mirrors other s) where
  posted hposted hmirrors := hmirrors.trans (hposted.mirrors other)
  admitted hadmitted hmirrors := hmirrors.trans (hadmitted.mirrors other)
  traded htraded hloose hmirrors := hmirrors.trans (htraded.mirrors_other hloose hne)
  released hreleased hmirrors := hmirrors.trans (hreleased.mirrors other)
  removed hremoved hmirrors := hmirrors.trans (hremoved.mirrors_other hne)

theorem NewOrderStep.mirrors_other (hstep : NewOrderStep msg s s')
    (hne : other ≠ msg.instrumentId) : Mirrors other s s' := by
  apply (Mirrors.keptByPhases s hne).newOrder hstep _ (Mirrors.refl other s)
  intro slot book s₀ s₁ hrests hmirrors
  exact hmirrors.trans (hrests.rested.mirrors_other hne)

theorem CancelStep.mirrors_other (hstep : CancelStep msg s s')
    (hne : other ≠ msg.instrumentId) : Mirrors other s s' :=
  (Mirrors.keptByPhases s hne).cancel hstep (Mirrors.refl other s)

/-- A message leaves the books of the other instruments as they are. -/
theorem MessageStep.mirrors_other (hstep : MessageStep msg s s')
    (hne : other ≠ msg.instrumentId) : Mirrors other s s' := by
  apply (Mirrors.keptByPhases s hne).message hstep _ (Mirrors.refl other s)
  intro slot book s₀ s₁ t _ hrests hmirrors
  exact hmirrors.trans (hrests.rested.mirrors_other hne)

end Untouched

end NanoMatch
