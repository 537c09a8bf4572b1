import NanoMatch.BookContents

/-!
# What a step does to its own book

A trade, an order which comes to rest and a cancellation change the table of orders
of their book by a function of the table, and the aggregates of one level by a
function of the aggregates.  No slot occurs in these functions.
-/

namespace NanoMatch

open OrderBook

/-! ## Tables of orders -/

def OrderView.unindex (id : OrderId) (order : OrderView) : OrderView :=
  { order with indexed := order.indexed && decide (order.orderId ≠ id) }

namespace OrderTable

def set (table : OrderTable) (side : BookSide) (i : ℕ) (orders : List OrderView) : OrderTable :=
  fun side' j => if side' = side ∧ j = i then orders else table side' j

/-- The index forgets an id. -/
def unindex (table : OrderTable) (id : OrderId) : OrderTable :=
  fun side i => (table side i).map (OrderView.unindex id)

/-- The first order of a level trades a quantity. -/
def traded (table : OrderTable) (side : BookSide) (level : ℕ) (fill : Quantity) : OrderTable :=
  match table side level with
  | [] => table
  | head :: tail =>
      if head.quantity - fill = 0 then (table.set side level tail).unindex head.orderId
      else table.set side level ({ head with quantity := head.quantity - fill } :: tail)

/-- The order which the index names is taken out. -/
def cancelled (table : OrderTable) (id : OrderId) : OrderTable :=
  fun side i => (table side i).filter fun order => !(order.indexed && order.orderId == id)

def rested (table : OrderTable) (side : BookSide) (level : ℕ) (order : OrderView) : OrderTable :=
  table.set side level (table side level ++ [order])

end OrderTable

/-! ## The index -/

section Index

variable {instrumentId : InstrumentId} {s s' : Snapshot} {book book' : OrderBook}

theorem Snapshot.findOrder_erase {id : OrderId} (hbook : s.engine.books instrumentId = some book)
    (hbooks : s'.engine.books = Function.update s.engine.books instrumentId (some book'))
    (hindex : book'.orderIndex = book.orderIndex.erase id) (other : OrderId) :
    s'.findOrder instrumentId other =
      if other = id then none else s.findOrder instrumentId other := by
  have hbook' : s'.engine.books instrumentId = some book' := by
    rw [hbooks, Function.update_self]
  rw [Snapshot.findOrder_eq hbook, Snapshot.findOrder_eq hbook']
  unfold OrderBook.findOrder OrderIndex.find
  rw [hindex]
  split_ifs with hsame
  · rw [hsame]
    exact AList.lookup_erase _ _
  · exact AList.lookup_erase_ne hsame

theorem Snapshot.findOrder_same (hbook : s.engine.books instrumentId = some book)
    (hbooks : s'.engine.books = Function.update s.engine.books instrumentId (some book'))
    (hindex : book'.orderIndex = book.orderIndex) (other : OrderId) :
    s'.findOrder instrumentId other = s.findOrder instrumentId other := by
  have hbook' : s'.engine.books instrumentId = some book' := by
    rw [hbooks, Function.update_self]
  rw [Snapshot.findOrder_eq hbook, Snapshot.findOrder_eq hbook']
  unfold OrderBook.findOrder
  rw [hindex]

/-- One level has new aggregates. -/
theorem Snapshot.aggregates_set {side : BookSide} {level : ℕ} {update : Aggregates → Aggregates}
    (hbook : s.engine.books instrumentId = some book)
    (hbooks : s'.engine.books = Function.update s.engine.books instrumentId (some book'))
    (hset : book.AggregatesSet book' side level (update (book.aggregates side level)))
    (side' : BookSide) (i : ℕ) :
    s'.aggregates instrumentId side' i =
      if side' = side ∧ i = level then (s.aggregates instrumentId side level).map update
      else s.aggregates instrumentId side' i := by
  have hbook' : s'.engine.books instrumentId = some book' := by
    rw [hbooks, Function.update_self]
  rw [Snapshot.aggregates_eq hbook', hset side' i, Snapshot.aggregates_eq hbook,
    Snapshot.aggregates_eq hbook]
  split_ifs <;> rfl

theorem Snapshot.orderView_unindex {id : OrderId} {slot : Slot}
    (hterms : (s'.slab slot).terms = (s.slab slot).terms)
    (hquantity : (s'.slab slot).quantity = (s.slab slot).quantity)
    (hfound : ∀ other, s'.findOrder instrumentId other =
      if other = id then none else s.findOrder instrumentId other) :
    s'.orderView instrumentId slot = (s.orderView instrumentId slot).unindex id := by
  rw [Snapshot.orderView_of_terms hterms, hquantity, hfound]
  unfold Snapshot.orderView OrderView.unindex
  by_cases hsame : (s.slab slot).orderId = id <;> simp [hsame]

end Index

/-! ## What a step does to its own book -/

section Own

variable {instrumentId : InstrumentId} {s s' : Snapshot} {msg : InboundOrderMsg}
  {slot agg maker : Slot} {level : ℕ} {behind : List Slot}

theorem Traded.orders_level (htraded : Traded instrumentId agg maker level behind s s') :
    s.orders instrumentId (s.makerSide agg) level =
      s.orderView instrumentId maker :: behind.map (s.orderView instrumentId) := by
  unfold Snapshot.orders
  rw [htraded.queue_eq, List.map_cons]

/-- The orders of the book besides the maker keep their quantities. -/
theorem Traded.quantity_behind (htraded : Traded instrumentId agg maker level behind s s')
    (hloose : s.IsLoose agg) {side : BookSide} {i : ℕ} {other : Slot}
    (hother : other ∈ (s.queues instrumentId).set (s.makerSide agg) level behind side i) :
    (s'.slab other).quantity = (s.slab other).quantity := by
  rcases htraded.books with ⟨book, _, hbook, _⟩
  have hother' : other ∈ Function.update s.queues instrumentId
      ((s.queues instrumentId).set (s.makerSide agg) level behind) instrumentId side i := by
    rw [Function.update_self]
    exact hother
  have hmaker : other ≠ maker := by
    rintro rfl
    exact Snapshot.maker_notMem_behind hbook htraded.queue_eq _ _ _ hother'
  have hagg : other ≠ agg :=
    Snapshot.ne_of_isLoose hloose (Snapshot.mem_of_mem_behind htraded.queue_eq hother')
  rw [htraded.quantity, if_neg]
  simp [hmaker, hagg]

theorem Traded.orders_done (htraded : Traded instrumentId agg maker level behind s s')
    (hloose : s.IsLoose agg) (hdone : (s'.slab maker).quantity = 0) :
    s'.orders instrumentId =
      ((s.orders instrumentId).set (s.makerSide agg) level
        (behind.map (s.orderView instrumentId))).unindex (s.slab maker).orderId := by
  rcases htraded.books with ⟨book, book', hbook, hbooks, _, hindex⟩
  rw [if_pos hdone] at hindex
  have hfound := Snapshot.findOrder_erase hbook hbooks hindex
  have hqueues : s'.queues instrumentId =
      (s.queues instrumentId).set (s.makerSide agg) level behind := by
    rw [htraded.queues', if_pos hdone, Function.update_self]
  funext side i
  have hviews : s'.orders instrumentId side i =
      ((s.queues instrumentId).set (s.makerSide agg) level behind side i).map
        (fun other => (s.orderView instrumentId other).unindex (s.slab maker).orderId) := by
    unfold Snapshot.orders
    rw [hqueues]
    apply List.map_congr_left
    intro other hother
    exact Snapshot.orderView_unindex (htraded.terms other)
      (htraded.quantity_behind hloose hother) hfound
  rw [hviews]
  unfold OrderTable.unindex OrderTable.set Queues.set Snapshot.orders
  split_ifs <;> rw [List.map_map] <;> rfl

theorem Traded.orders_left (htraded : Traded instrumentId agg maker level behind s s')
    (hloose : s.IsLoose agg) (hdone : (s'.slab maker).quantity ≠ 0) :
    s'.orders instrumentId =
      (s.orders instrumentId).set (s.makerSide agg) level
        ({ s.orderView instrumentId maker with quantity := (s'.slab maker).quantity } ::
          behind.map (s.orderView instrumentId)) := by
  rcases htraded.books with ⟨book, book', hbook, hbooks, _, hindex⟩
  rw [if_neg hdone] at hindex
  have hfound := Snapshot.findOrder_same hbook hbooks hindex
  have hqueues : s'.queues instrumentId = s.queues instrumentId := by
    rw [htraded.queues', if_neg hdone]
  have hothers : ∀ side i, ∀ other ∈
      (s.queues instrumentId).set (s.makerSide agg) level behind side i,
      s'.orderView instrumentId other = s.orderView instrumentId other := by
    intro side i other hother
    exact Snapshot.orderView_congr (htraded.terms other)
      (htraded.quantity_behind hloose hother) (hfound _)
  have hmaker : s'.orderView instrumentId maker =
      { s.orderView instrumentId maker with quantity := (s'.slab maker).quantity } := by
    rw [Snapshot.orderView_of_terms (htraded.terms maker), hfound]
    rfl
  funext side i
  unfold OrderTable.set
  split_ifs with hlevel
  · rcases hlevel with ⟨rfl, rfl⟩
    unfold Snapshot.orders
    rw [hqueues, htraded.queue_eq, List.map_cons, hmaker]
    congr 1
    apply List.map_congr_left
    intro other hother
    apply hothers (s.makerSide agg) i
    rw [Queues.set_same]
    exact hother
  · unfold Snapshot.orders
    rw [hqueues]
    apply List.map_congr_left
    intro other hother
    apply hothers side i
    rw [Queues.set_of_ne _ _ hlevel]
    exact hother

/-- A trade debits the first order of the best level. -/
theorem Traded.orders (htraded : Traded instrumentId agg maker level behind s s')
    (hloose : s.IsLoose agg) :
    s'.orders instrumentId = (s.orders instrumentId).traded (s.makerSide agg) level
      (Engine.fillQuantity (s.slab maker) (s.slab agg)) := by
  have hmaker : (s'.slab maker).quantity = (s.slab maker).quantity -
      Engine.fillQuantity (s.slab maker) (s.slab agg) := by
    rw [htraded.quantity, if_pos (Or.inl rfl)]
  unfold OrderTable.traded
  rw [htraded.orders_level]
  change _ = if (s.slab maker).quantity - _ = 0 then _ else _
  split_ifs with hdone
  · rw [← hmaker] at hdone
    exact htraded.orders_done hloose hdone
  · rw [← hmaker] at hdone
    rw [htraded.orders_left hloose hdone, hmaker]
    rfl

theorem Traded.aggregates_eq (htraded : Traded instrumentId agg maker level behind s s')
    (side : BookSide) (i : ℕ) :
    s'.aggregates instrumentId side i =
      if side = s.makerSide agg ∧ i = level then
        (s.aggregates instrumentId (s.makerSide agg) level).map fun cached =>
          cached.filled (Engine.fillQuantity (s.slab maker) (s.slab agg))
            (decide ((s'.slab maker).quantity = 0))
      else s.aggregates instrumentId side i := by
  rcases htraded.books with ⟨book, book', hbook, hbooks, _⟩
  have hbook' : s'.engine.books instrumentId = some book' := by
    rw [hbooks, Function.update_self]
  exact Snapshot.aggregates_set hbook hbooks (htraded.aggregates book book' hbook hbook') side i

theorem Rested.findOrder_eq (hrested : Rested instrumentId slot level s s') (id : OrderId) :
    s'.findOrder instrumentId id =
      if id = (s.slab slot).orderId ∧ s.findOrder instrumentId id = none then some slot
      else s.findOrder instrumentId id := by
  rcases hrested.books with ⟨book, book', hbook, hbooks, _, _, hindex⟩
  have hbook' : s'.engine.books instrumentId = some book' := by
    rw [hbooks, Function.update_self]
  have hmem : (s.slab slot).orderId ∈ book.orderIndex ↔
      book.findOrder (s.slab slot).orderId ≠ none := by
    unfold OrderBook.findOrder OrderIndex.find
    rw [ne_eq, AList.lookup_eq_none, not_not]
  rw [Snapshot.findOrder_eq hbook, Snapshot.findOrder_eq hbook']
  by_cases hid : id = (s.slab slot).orderId
  · subst hid
    by_cases htaken : book.findOrder (s.slab slot).orderId = none
    · rw [if_neg (fun hin => hmem.mp hin htaken)] at hindex
      rw [if_pos ⟨rfl, htaken⟩, OrderBook.findOrder, OrderIndex.find, hindex, AList.lookup_insert]
    · rw [if_pos (hmem.mpr htaken)] at hindex
      rw [if_neg (fun hall => htaken hall.2), OrderBook.findOrder, OrderBook.findOrder, hindex]
  · rw [if_neg (fun hall => hid hall.1)]
    unfold OrderBook.findOrder OrderIndex.find
    rw [hindex]
    split_ifs
    · rfl
    · exact AList.lookup_insert_ne hid

/-- The order joins its level; the index names it unless the id is taken. -/
theorem Rested.orders (hrested : Rested instrumentId slot level s s') :
    s'.orders instrumentId = (s.orders instrumentId).rested (s.slab slot).side.bookSide level
      { s.orderView instrumentId slot with
        indexed := (s.findOrder instrumentId (s.slab slot).orderId).isNone } := by
  have hfound := hrested.findOrder_eq
  have hothers : ∀ side i, ∀ other ∈ s.queues instrumentId side i,
      s'.orderView instrumentId other = s.orderView instrumentId other := by
    intro side i other hother
    have hne : other ≠ slot := Snapshot.ne_of_isLoose hrested.loose hother
    rw [Snapshot.orderView_of_terms (hrested.terms other), hrested.quantity other, hfound]
    unfold Snapshot.orderView
    split_ifs with htaken
    · simp [htaken.2, hne.symm]
    · rfl
  have hslot : s'.orderView instrumentId slot =
      { s.orderView instrumentId slot with
        indexed := (s.findOrder instrumentId (s.slab slot).orderId).isNone } := by
    rw [Snapshot.orderView_of_terms (hrested.terms slot), hrested.quantity slot, hfound]
    unfold Snapshot.orderView
    split_ifs with htaken
    · simp [htaken.2]
    · have hnot : s.findOrder instrumentId (s.slab slot).orderId ≠ some slot := by
        intro heq
        rcases (Snapshot.mem_of_findOrder heq).1 with ⟨side, i, hmem⟩
        exact hrested.loose.notQueued _ _ _ hmem
      have htaken' : (s.findOrder instrumentId (s.slab slot).orderId).isSome = true :=
        Option.isSome_iff_ne_none.mpr (fun hnone => htaken ⟨rfl, hnone⟩)
      simp [hnot, htaken']
  funext side i
  unfold OrderTable.rested OrderTable.set Snapshot.orders
  rw [hrested.queues_eq, Function.update_self]
  unfold Queues.set
  split_ifs with hlevel
  · rcases hlevel with ⟨rfl, rfl⟩
    rw [List.map_append, List.map_singleton, hslot]
    congr 1
    exact List.map_congr_left (hothers _ _)
  · exact List.map_congr_left (hothers side i)

theorem Rested.aggregates_eq (hrested : Rested instrumentId slot level s s')
    (side : BookSide) (i : ℕ) :
    s'.aggregates instrumentId side i =
      if side = (s.slab slot).side.bookSide ∧ i = level then
        (s.aggregates instrumentId (s.slab slot).side.bookSide level).map fun cached =>
          cached.added (s.slab slot).quantity
      else s.aggregates instrumentId side i := by
  rcases hrested.books with ⟨book, book', hbook, hbooks, _⟩
  have hbook' : s'.engine.books instrumentId = some book' := by
    rw [hbooks, Function.update_self]
  exact Snapshot.aggregates_set hbook hbooks (hrested.aggregates book book' hbook hbook') side i

section Cancelled

variable {side : BookSide} {before after : List Slot}

/-- The order leaves its level and the index. -/
theorem Removed.orders
    (hremoved : Removed instrumentId slot side level before after s s')
    (hfound : s.findOrder instrumentId (s.slab slot).orderId = some slot) :
    s'.orders instrumentId = (s.orders instrumentId).cancelled (s.slab slot).orderId := by
  rcases hremoved.books with ⟨book, book', hbook, hbooks, _, hindex⟩
  have herased := Snapshot.findOrder_erase hbook hbooks hindex
  have hview : ∀ other, other ≠ slot →
      s'.orderView instrumentId other = s.orderView instrumentId other := by
    intro other hne
    rw [Snapshot.orderView_of_terms (hremoved.terms other), hremoved.quantity other, herased]
    unfold Snapshot.orderView
    split_ifs with hid
    · rw [hid, hfound]
      simp [hne.symm]
    · rfl
  have hkept : ∀ other, other ≠ slot →
      (!((s.orderView instrumentId other).indexed &&
        (s.orderView instrumentId other).orderId == (s.slab slot).orderId)) = true := by
    intro other hne
    unfold Snapshot.orderView
    by_cases hid : (s.slab other).orderId = (s.slab slot).orderId
    · simp [hid, hfound, hne.symm]
    · simp [hid]
  have hdropped : (!((s.orderView instrumentId slot).indexed &&
      (s.orderView instrumentId slot).orderId == (s.slab slot).orderId)) = false := by
    unfold Snapshot.orderView
    simp [hfound]
  have hrest : ∀ slots : List Slot, slot ∉ slots →
      (slots.map (s.orderView instrumentId)).filter (fun order =>
        !(order.indexed && order.orderId == (s.slab slot).orderId)) =
          slots.map (s'.orderView instrumentId) := by
    intro slots hslot
    rw [List.filter_eq_self.mpr]
    · apply List.map_congr_left
      intro other hother
      exact (hview other (fun heq => hslot (heq ▸ hother))).symm
    · intro order horder
      rcases List.mem_map.mp horder with ⟨other, hother, rfl⟩
      exact hkept other (fun heq => hslot (heq ▸ hother))
  have hnodup := ((s.rep.bookRep _ book hbook).linked side level).nodup
  rw [hremoved.queue_eq] at hnodup
  have hfresh := not_mem_of_nodup_middle hnodup
  rw [List.mem_append, not_or] at hfresh
  funext side' i
  unfold OrderTable.cancelled Snapshot.orders
  rw [hremoved.queues_eq, Function.update_self]
  by_cases hlevel : side' = side ∧ i = level
  · rcases hlevel with ⟨rfl, rfl⟩
    rw [Queues.set_same, hremoved.queue_eq, List.map_append, List.map_append, List.map_cons,
      List.filter_append, List.filter_cons_of_neg (by rw [hdropped]; simp), hrest _ hfresh.1,
      hrest _ hfresh.2]
  · rw [Queues.set_of_ne _ _ hlevel]
    apply (hrest _ _).symm
    intro hmem
    rcases s.rep.queue_unique hremoved.slot_mem hmem with ⟨_, hside, hi⟩
    exact hlevel ⟨hside, hi⟩

theorem Removed.aggregates_eq
    (hremoved : Removed instrumentId slot side level before after s s')
    (side' : BookSide) (i : ℕ) :
    s'.aggregates instrumentId side' i =
      if side' = side ∧ i = level then
        (s.aggregates instrumentId side level).map fun cached =>
          cached.removed (s.slab slot).quantity
      else s.aggregates instrumentId side' i := by
  rcases hremoved.books with ⟨book, book', hbook, hbooks, _⟩
  have hbook' : s'.engine.books instrumentId = some book' := by
    rw [hbooks, Function.update_self]
  exact Snapshot.aggregates_set hbook hbooks (hremoved.aggregates book book' hbook hbook') side' i

end Cancelled

end Own

end NanoMatch
