import NanoMatch.MatchingSweep

/-!
# What one message does

The handlers of the engine are cut into phases between snapshots: a slot is
admitted, the sweep trades, reports are posted, the order rests, or its slot
is released.  `NewOrderStep` and `CancelStep` list every way a message can be
processed, guards included, and the theorems at the end show that the code
takes one of these ways.  The invariants of the engine are proved from these
lists, without looking at the code again.
-/

namespace NanoMatch

open OrderBook

/-! ## Phases -/

/-- The head of the free list holds the new order. -/
structure Admitted (msg : InboundOrderMsg) (slot : Slot) (s s' : Snapshot) : Prop where
  free_eq : s.free = slot :: s'.free
  loose : s'.IsLoose slot
  order : s'.slab slot = Engine.populated msg s.engine.nowNs
  others : ∀ other, other ≠ slot → s'.slab other = s.slab other
  queues_eq : s'.queues = s.queues
  books_eq : s'.engine.books = s.engine.books
  outbound_eq : s'.engine.outbound = s.engine.outbound
  fills_eq : s'.engine.fillsExecuted = s.engine.fillsExecuted
  rejects_eq : s'.engine.ordersRejected = s.engine.ordersRejected
  capacity_eq : s'.engine.pool.capacity = s.engine.pool.capacity

/-- Reports were posted and rejections counted. -/
structure Posted (reports : List ExecutionReport) (rejections : ℕ) (s s' : Snapshot) :
    Prop where
  pool_eq : s'.engine.pool = s.engine.pool
  books_eq : s'.engine.books = s.engine.books
  queues_eq : s'.queues = s.queues
  free_eq : s'.free = s.free
  outbound_eq : s'.engine.outbound = s.engine.outbound ++ reports
  fills_eq : s'.engine.fillsExecuted = s.engine.fillsExecuted
  rejects_eq : s'.engine.ordersRejected = s.engine.ordersRejected + rejections

/-- A slot went back to the free list. -/
structure Released (slot : Slot) (s s' : Snapshot) : Prop where
  loose : s.IsLoose slot
  free_eq : s'.free = slot :: s.free
  others : ∀ other, other ≠ slot → s'.slab other = s.slab other
  terms : ∀ other, (s'.slab other).terms = (s.slab other).terms
  quantity : ∀ other, (s'.slab other).quantity = (s.slab other).quantity
  queues_eq : s'.queues = s.queues
  books_eq : s'.engine.books = s.engine.books
  outbound_eq : s'.engine.outbound = s.engine.outbound
  fills_eq : s'.engine.fillsExecuted = s.engine.fillsExecuted
  rejects_eq : s'.engine.ordersRejected = s.engine.ordersRejected
  capacity_eq : s'.engine.pool.capacity = s.engine.pool.capacity

/-- A loose order joined the tail of its level. -/
structure Rested (instrumentId : InstrumentId) (slot : Slot) (level : ℕ)
    (s s' : Snapshot) : Prop where
  loose : s.IsLoose slot
  unfilled : 0 < (s.slab slot).remaining
  terms : ∀ other, (s'.slab other).terms = (s.slab other).terms
  quantity : ∀ other, (s'.slab other).quantity = (s.slab other).quantity
  queues_eq : s'.queues = Function.update s.queues instrumentId
    ((s.queues instrumentId).set (s.slab slot).side.bookSide level
      (s.queues instrumentId (s.slab slot).side.bookSide level ++ [slot]))
  free_eq : s'.free = s.free
  books : ∃ book book', s.engine.books instrumentId = some book ∧
    s'.engine.books = Function.update s.engine.books instrumentId (some book') ∧
    (s.slab slot).price = book.grid.indexToPrice level ∧
    book'.grid = book.grid ∧
    book'.orderIndex = if (s.slab slot).orderId ∈ book.orderIndex then book.orderIndex
      else book.orderIndex.insert (s.slab slot).orderId slot
  aggregates : ∀ book book', s.engine.books instrumentId = some book →
    s'.engine.books instrumentId = some book' →
    book.AggregatesSet book' (s.slab slot).side.bookSide level
      ((book.aggregates (s.slab slot).side.bookSide level).added (s.slab slot).quantity)
  outbound_eq : s'.engine.outbound = s.engine.outbound
  fills_eq : s'.engine.fillsExecuted = s.engine.fillsExecuted
  rejects_eq : s'.engine.ordersRejected = s.engine.ordersRejected
  capacity_eq : s'.engine.pool.capacity = s.engine.pool.capacity

/-- A queued order was spliced out of its level. -/
structure Removed (instrumentId : InstrumentId) (slot : Slot) (side : BookSide)
    (level : ℕ) (before after : List Slot) (s s' : Snapshot) : Prop where
  queue_eq : s.queues instrumentId side level = before ++ slot :: after
  loose : s'.IsLoose slot
  terms : ∀ other, (s'.slab other).terms = (s.slab other).terms
  quantity : ∀ other, (s'.slab other).quantity = (s.slab other).quantity
  queues_eq : s'.queues = Function.update s.queues instrumentId
    ((s.queues instrumentId).set side level (before ++ after))
  free_eq : s'.free = s.free
  books : ∃ book book', s.engine.books instrumentId = some book ∧
    s'.engine.books = Function.update s.engine.books instrumentId (some book') ∧
    book'.grid = book.grid ∧
    book'.orderIndex = book.orderIndex.erase (s.slab slot).orderId
  aggregates : ∀ book book', s.engine.books instrumentId = some book →
    s'.engine.books instrumentId = some book' →
    book.AggregatesSet book' side level
      ((book.aggregates side level).removed (s.slab slot).quantity)
  outbound_eq : s'.engine.outbound = s.engine.outbound
  fills_eq : s'.engine.fillsExecuted = s.engine.fillsExecuted
  rejects_eq : s'.engine.ordersRejected = s.engine.ordersRejected
  capacity_eq : s'.engine.pool.capacity = s.engine.pool.capacity

namespace Snapshot

variable (s : Snapshot)

theorem exists_posted (engine : Engine) (reports : List ExecutionReport) (rejections : ℕ)
    (hpool : engine.pool = s.engine.pool) (hbooks : engine.books = s.engine.books)
    (hreleases : engine.releases = s.engine.releases)
    (houtbound : engine.outbound = s.engine.outbound ++ reports)
    (hfills : engine.fillsExecuted = s.engine.fillsExecuted)
    (hrejects : engine.ordersRejected = s.engine.ordersRejected + rejections) :
    ∃ s' : Snapshot, s'.engine = engine ∧ Posted reports rejections s s' := by
  refine ⟨⟨engine, s.queues, s.free, s.rep.congr hpool hbooks hreleases⟩, rfl, ?_⟩
  exact ⟨hpool, hbooks, rfl, rfl, houtbound, hfills, hrejects⟩

theorem exists_admitted (msg : InboundOrderMsg) {slot : Slot} {free : List Slot}
    (hfree : s.free = slot :: free) :
    ∃ s' : Snapshot,
      s'.engine = s.engine.admitOrder msg slot (s.engine.pool.popped slot) ∧
        Admitted msg slot s s' := by
  have hrep := s.rep
  rw [hfree] at hrep
  rcases hrep.admitOrder msg with ⟨hentered, hloose⟩
  refine ⟨⟨_, _, _, hentered⟩, rfl, ?_⟩
  constructor
  · exact hfree
  · exact hloose
  · simp [slab, Engine.slab, Engine.admitOrder]
  · intro other hne
    simp [slab, Engine.slab, Engine.admitOrder, OrderPool.popped, hne]
  all_goals rfl

theorem admitted_of_acquire (msg : InboundOrderMsg) {slot : Slot} {pool : OrderPool}
    (hacquire : s.engine.pool.acquire = some (slot, pool)) :
    ∃ s' : Snapshot, s'.engine = s.engine.admitOrder msg slot pool ∧
      Admitted msg slot s s' := by
  cases hfree : s.free with
  | nil =>
      rw [s.rep.freeList.acquire_eq_none_iff.mpr hfree] at hacquire
      exact absurd hacquire (by simp)
  | cons head free =>
      have hlist := s.rep.freeList
      rw [hfree] at hlist
      rw [hlist.acquire_cons, Option.some.injEq, Prod.mk.injEq] at hacquire
      rcases hacquire with ⟨rfl, rfl⟩
      exact s.exists_admitted msg hfree

theorem exists_released {slot : Slot} (hloose : s.IsLoose slot) :
    ∃ s' : Snapshot, s'.engine = s.engine.release slot ∧ Released slot s s' := by
  refine ⟨⟨_, _, _, s.rep.release hloose⟩, rfl, ?_⟩
  constructor
  · exact hloose
  · rfl
  · intro other hne
    simp [slab, Engine.release, Engine.slab, OrderPool.release, Slab.setPrev, Slab.setNext,
      hne]
  · exact Engine.slab_release_terms _ slot
  · exact Engine.slab_release_quantity _ slot
  all_goals rfl

theorem exists_rested {instrumentId : InstrumentId} {book : OrderBook} {slot : Slot}
    (hbook : s.engine.books instrumentId = some book) (hloose : s.IsLoose slot)
    (howner : (s.slab slot).instrumentId = instrumentId)
    (hunfilled : 0 < (s.slab slot).remaining)
    (hvalid : book.grid.isValidPrice (s.slab slot).price = true) :
    ∃ s' : Snapshot, s'.engine = s.engine.rest instrumentId slot ∧
      Rested instrumentId slot (book.grid.tickToIndex (s.slab slot).price) s s' := by
  have hrep : BookRep s.slab book (s.queues instrumentId) := s.rep.bookRep _ book hbook
  have hbound := book.grid.tickToIndex_lt_numLevels hvalid
  generalize hindex : book.grid.tickToIndex (s.slab slot).price = level at hbound ⊢
  generalize hside : (s.slab slot).side.bookSide = side
  have hadded := hrep.addOrder hvalid hindex hside (hloose.notQueued instrumentId) hunfilled
  have hrelinked := hrep.toBookShape.addOrder_relinked hvalid hindex hside
  have hgrid := (BookShape.addOrder_valid s.slab book slot hvalid hindex hside).2.1
  have hwritten := s.rep.setBook hbook (addOrder s.slab book (some slot)) hadded ?_
    hrelinked.terms ?_
  · have hengine : s.engine.rest instrumentId slot =
        s.engine.setBook instrumentId (addOrder s.slab book (some slot)) := by
      simp only [Engine.rest, hbook]
      rfl
    refine ⟨⟨_, _, _, hwritten⟩, hengine.symm, ?_⟩
    constructor
    · exact hloose
    · exact hunfilled
    · exact hrelinked.terms
    · exact hrelinked.quantity
    · rw [hside]
    · rfl
    · refine ⟨book, (addOrder s.slab book (some slot)).2, hbook, rfl, hbound.2, hgrid, ?_⟩
      exact hrep.toBookShape.addOrder_orderIndex hvalid hindex hside
    · intro old new hold hnew
      rw [hbook, Option.some.injEq] at hold
      change Function.update s.engine.books instrumentId _ instrumentId = some new at hnew
      rw [Function.update_self, Option.some.injEq] at hnew
      rw [← hold, ← hnew, hside]
      exact BookShape.addOrder_aggregates s.slab book slot hvalid hindex hside
    all_goals rfl
  · intro side' i other hother
    by_cases hlevel : side' = side ∧ i = level
    · rcases hlevel with ⟨rfl, rfl⟩
      rw [Queues.set_same] at hother
      rcases List.mem_append.mp hother with hold | hnew
      · exact Or.inl ⟨_, _, hold⟩
      · rw [List.mem_singleton] at hnew
        subst hnew
        exact Or.inr ⟨hloose, howner⟩
    · rw [Queues.set_of_ne _ _ hlevel] at hother
      exact Or.inl ⟨_, _, hother⟩
  · intro other hold hnew
    apply hrelinked.outside
    intro hmem
    rcases List.mem_cons.mp hmem with rfl | hmem
    · apply hnew side level
      rw [Queues.set_same]
      simp
    · exact hold _ _ hmem

theorem exists_removed {instrumentId : InstrumentId} {book : OrderBook} {slot : Slot}
    {side : BookSide} {level : ℕ} {before after : List Slot}
    (hbook : s.engine.books instrumentId = some book)
    (hqueue : s.queues instrumentId side level = before ++ slot :: after) :
    ∃ s' : Snapshot,
      s'.engine = s.engine.setBook instrumentId (cancelOrder s.slab book (some slot)) ∧
        Removed instrumentId slot side level before after s s' := by
  have hrep : BookRep s.slab book (s.queues instrumentId) := s.rep.bookRep _ book hbook
  rcases hrep.cancelOrder hqueue with ⟨hcancelled, hrelinked, hgrid, hindex⟩
  have hslot : slot ∈ s.queues instrumentId side level := by
    rw [hqueue]
    simp
  have hsubset : before ++ after ⊆ s.queues instrumentId side level := by
    rw [hqueue]
    intro other hother
    rcases List.mem_append.mp hother with hmem | hmem <;> simp [hmem]
  have hnodup := (hrep.linked side level).nodup
  rw [hqueue] at hnodup
  have hwritten := s.rep.setBook hbook (cancelOrder s.slab book (some slot)) hcancelled ?_
    hrelinked.terms ?_
  · refine ⟨⟨_, _, _, hwritten⟩, rfl, ?_⟩
    constructor
    · exact hqueue
    · refine ⟨s.rep.bound _ _ _ _ hslot, s.rep.separate _ _ _ _ hslot, ?_⟩
      intro instrumentId' side' i hmem
      change slot ∈ Function.update s.queues instrumentId _ instrumentId' side' i at hmem
      rw [Queues.update_set] at hmem
      split_ifs at hmem with hat
      · exact not_mem_of_nodup_middle hnodup hmem
      · exact hat (s.rep.queue_unique hslot hmem)
    · exact hrelinked.terms
    · exact hrelinked.quantity
    · rfl
    · rfl
    · exact ⟨book, _, hbook, rfl, hgrid, hindex⟩
    · intro old new hold hnew
      rw [hbook, Option.some.injEq] at hold
      change Function.update s.engine.books instrumentId _ instrumentId = some new at hnew
      rw [Function.update_self, Option.some.injEq] at hnew
      rw [← hold, ← hnew]
      exact hrep.toBookShape.cancelOrder_aggregates hslot
    all_goals rfl
  · intro side' i other hother
    exact Or.inl ⟨side', i, Queues.mem_of_mem_set hsubset hother⟩
  · intro other hold _
    exact hrelinked.outside other (hold _ _)

end Snapshot

namespace Removed

variable {s s' : Snapshot} {instrumentId : InstrumentId} {slot : Slot} {side : BookSide}
  {level : ℕ} {before after : List Slot}

theorem slot_mem (hremoved : Removed instrumentId slot side level before after s s') :
    slot ∈ s.queues instrumentId side level := by
  rw [hremoved.queue_eq]
  simp

theorem queue_apply (hremoved : Removed instrumentId slot side level before after s s')
    (instrumentId' : InstrumentId) (side' : BookSide) (i : ℕ) :
    s'.queues instrumentId' side' i =
      if instrumentId' = instrumentId ∧ side' = side ∧ i = level then before ++ after
      else s.queues instrumentId' side' i := by
  rw [hremoved.queues_eq, Queues.update_set]

theorem queue_subset (hremoved : Removed instrumentId slot side level before after s s')
    {instrumentId' : InstrumentId} {side' : BookSide} {i : ℕ} {other : Slot}
    (hother : other ∈ s'.queues instrumentId' side' i) :
    other ∈ s.queues instrumentId' side' i := by
  rw [hremoved.queue_apply] at hother
  split_ifs at hother with hat
  · rcases hat with ⟨rfl, rfl, rfl⟩
    rw [hremoved.queue_eq]
    rcases List.mem_append.mp hother with hmem | hmem <;> simp [hmem]
  · exact hother

end Removed

theorem Rested.slot_mem {s s' : Snapshot} {instrumentId : InstrumentId} {slot : Slot}
    {level : ℕ} (hrested : Rested instrumentId slot level s s') :
    slot ∈ s'.queues instrumentId (s.slab slot).side.bookSide level := by
  rw [hrested.queues_eq, Function.update_self, Queues.set_same]
  simp

theorem Rested.queue_apply {s s' : Snapshot} {instrumentId : InstrumentId} {slot : Slot}
    {level : ℕ} (hrested : Rested instrumentId slot level s s')
    (instrumentId' : InstrumentId) (side : BookSide) (i : ℕ) :
    s'.queues instrumentId' side i =
      if instrumentId' = instrumentId ∧ side = (s.slab slot).side.bookSide ∧ i = level then
        s.queues instrumentId (s.slab slot).side.bookSide level ++ [slot]
      else s.queues instrumentId' side i := by
  rw [hrested.queues_eq, Queues.update_set]

theorem Rested.mem_of_mem {s s' : Snapshot} {instrumentId instrumentId' : InstrumentId}
    {slot other : Slot} {level i : ℕ} {side : BookSide}
    (hrested : Rested instrumentId slot level s s')
    (hother : other ∈ s.queues instrumentId' side i) :
    other ∈ s'.queues instrumentId' side i := by
  rw [hrested.queue_apply]
  split_ifs with hat
  · rcases hat with ⟨rfl, rfl, rfl⟩
    exact List.mem_append_left _ hother
  · exact hother

theorem Rested.mem_cases {s s' : Snapshot} {instrumentId instrumentId' : InstrumentId}
    {slot other : Slot} {level i : ℕ} {side : BookSide}
    (hrested : Rested instrumentId slot level s s')
    (hother : other ∈ s'.queues instrumentId' side i) :
    other ∈ s.queues instrumentId' side i ∨
      other = slot ∧ instrumentId' = instrumentId ∧ (s.slab slot).side.bookSide = side ∧
        i = level := by
  rw [hrested.queue_apply] at hother
  split_ifs at hother with hat
  · rcases hat with ⟨rfl, rfl, rfl⟩
    rcases List.mem_append.mp hother with hold | hnew
    · exact Or.inl hold
    · exact Or.inr ⟨List.mem_singleton.mp hnew, rfl, rfl, rfl⟩
  · exact Or.inl hother

/-! ## Messages -/

def rejectReport (orderId : OrderId) (quantity : Quantity) (timestampNs : UInt64) :
    ExecutionReport :=
  { kind := .reject
    orderId := orderId
    counterpartOrderId := 0
    execPrice := 0
    execQuantity := 0
    leavesQuantity := quantity
    timestampNs := timestampNs }

def cancelAckReport (orderId : OrderId) (leaves : Quantity) (timestampNs : UInt64) :
    ExecutionReport :=
  { kind := .cancelAck
    orderId := orderId
    counterpartOrderId := 0
    execPrice := 0
    execQuantity := 0
    leavesQuantity := leaves
    timestampNs := timestampNs }

namespace InboundOrderMsg

def orderType (msg : InboundOrderMsg) : OrderType := OrderType.ofByte msg.type

def orderSide (msg : InboundOrderMsg) : Side := Side.ofByte msg.side

/-- The prices the order of this message trades at. -/
def accepts (msg : InboundOrderMsg) (price : Price) : Bool :=
  match msg.orderType with
  | .market => true
  | _ =>
      if msg.orderSide = .buy then decide (price ≤ msg.price)
      else decide (msg.price ≤ price)

/-- The side the order of this message trades against. -/
def makerSide (msg : InboundOrderMsg) : BookSide := msg.orderSide.bookSide.opposite

end InboundOrderMsg

/-- Every way a new order can be processed. -/
inductive NewOrderStep (msg : InboundOrderMsg) (s s' : Snapshot) : Prop
  | refused (timestampNs : UInt64)
      (hwhy : s.engine.books msg.instrumentId = none ∨ s.free = [])
      (hposted : Posted [rejectReport msg.orderId msg.quantity timestampNs] 1 s s')
  | rejected (slot : Slot) (book : OrderBook) (s₀ s₁ : Snapshot) (timestampNs : UInt64)
      (hbook : s.engine.books msg.instrumentId = some book)
      (hadmitted : Admitted msg slot s s₀)
      (hwhy : (∃ byte, msg.orderType = .raw byte) ∨ msg.orderType = .fok ∧
        book.availableQuantityAtOrBetter msg.orderSide msg.price < msg.quantity)
      (hposted : Posted [rejectReport msg.orderId msg.quantity timestampNs] 1 s₀ s₁)
      (hreleased : Released slot s₁ s')
  | completed (slot : Slot) (book : OrderBook) (s₀ s₁ : Snapshot)
      (hbook : s.engine.books msg.instrumentId = some book)
      (hadmitted : Admitted msg slot s s₀)
      (hswept : Swept msg.instrumentId slot msg.accepts s₀ s₁)
      (hwhy : (msg.orderType = .limit ∨ msg.orderType = .market ∨ msg.orderType = .ioc) ∧
          (s₁.slab slot).remaining = 0 ∨
        msg.orderType = .fok ∧
          ¬ book.availableQuantityAtOrBetter msg.orderSide msg.price < msg.quantity)
      (hreleased : Released slot s₁ s')
  | acked (slot : Slot) (book : OrderBook) (s₀ s₁ s₂ : Snapshot) (timestampNs : UInt64)
      (hbook : s.engine.books msg.instrumentId = some book)
      (hadmitted : Admitted msg slot s s₀)
      (hswept : Swept msg.instrumentId slot msg.accepts s₀ s₁)
      (htype : msg.orderType = .market ∨ msg.orderType = .ioc)
      (hresidual : 0 < (s₁.slab slot).remaining)
      (hposted : Posted [cancelAckReport msg.orderId (s₁.slab slot).quantity timestampNs] 0
        s₁ s₂)
      (hreleased : Released slot s₂ s')
  | rested (slot : Slot) (book : OrderBook) (s₀ s₁ : Snapshot)
      (hbook : s.engine.books msg.instrumentId = some book)
      (hadmitted : Admitted msg slot s s₀)
      (hswept : Swept msg.instrumentId slot msg.accepts s₀ s₁)
      (htype : msg.orderType = .limit)
      (hvalid : book.grid.isValidPrice msg.price = true)
      (hrested : Rested msg.instrumentId slot (book.grid.tickToIndex msg.price) s₁ s')
  | lost (slot : Slot) (book : OrderBook) (s₀ : Snapshot)
      (hbook : s.engine.books msg.instrumentId = some book)
      (hadmitted : Admitted msg slot s s₀)
      (hswept : Swept msg.instrumentId slot msg.accepts s₀ s')
      (htype : msg.orderType = .limit)
      (hresidual : 0 < (s'.slab slot).remaining)
      (hinvalid : book.grid.isValidPrice msg.price = false)

/-- Every way a cancellation can be processed. -/
inductive CancelStep (msg : InboundOrderMsg) (s s' : Snapshot) : Prop
  | ignored (hsame : s' = s)
      (hwhy : ∀ book, s.engine.books msg.instrumentId = some book →
        book.findOrder msg.orderId = none)
  | cancelled (slot : Slot) (book : OrderBook) (side : BookSide) (level : ℕ)
      (before after : List Slot) (s₁ s₂ : Snapshot) (timestampNs : UInt64)
      (hbook : s.engine.books msg.instrumentId = some book)
      (hfound : book.findOrder msg.orderId = some slot)
      (hid : (s.slab slot).orderId = msg.orderId)
      (hremoved : Removed msg.instrumentId slot side level before after s s₁)
      (hposted : Posted [cancelAckReport msg.orderId (s.slab slot).quantity timestampNs] 0
        s₁ s₂)
      (hreleased : Released slot s₂ s')

theorem Quantity.pos_iff {order : Order} : 0 < order.quantity ↔ 0 < order.remaining := by
  rw [UInt32.lt_iff_toNat_lt]
  rfl

theorem Engine.limitOk_populated {msg : InboundOrderMsg} (timestampNs : UInt64)
    (htype : msg.orderType ≠ .market) :
    Engine.limitOk (Engine.populated msg timestampNs) = msg.accepts := by
  funext price
  unfold InboundOrderMsg.accepts
  cases hcase : msg.orderType with
  | market => exact absurd hcase htype
  | _ =>
      by_cases hbuy : msg.orderSide = .buy
      · have hside : Side.ofByte msg.side = .buy := hbuy
        simp only [Engine.limitOk, Order.isBuy, Engine.populated, hside, hbuy,
          decide_true, if_true]
      · have hside : Side.ofByte msg.side ≠ .buy := hbuy
        simp only [Engine.limitOk, Order.isBuy, Engine.populated, hside, hbuy,
          decide_false, Bool.false_eq_true, if_false]
        rfl

namespace Admitted

variable {msg : InboundOrderMsg} {slot : Slot} {s s₀ : Snapshot}

theorem makerSide_eq (hadmitted : Admitted msg slot s s₀) :
    s₀.makerSide slot = msg.makerSide := by
  unfold Snapshot.makerSide
  rw [hadmitted.order]
  rfl

theorem exists_swept_limit (hadmitted : Admitted msg slot s s₀) {book : OrderBook}
    (hbook : s.engine.books msg.instrumentId = some book)
    (htype : msg.orderType ≠ .market) :
    ∃ s₁ : Snapshot, s₁.engine = s₀.engine.sweepLimit msg.instrumentId slot ∧
      Swept msg.instrumentId slot msg.accepts s₀ s₁ := by
  rw [← hadmitted.books_eq] at hbook
  rcases Snapshot.sweepLimit_exit hadmitted.loose hbook with ⟨s₁, hengine, hswept⟩
  rw [hadmitted.order, Engine.limitOk_populated _ htype] at hswept
  exact ⟨s₁, hengine, hswept⟩

theorem exists_swept_market (hadmitted : Admitted msg slot s s₀) {book : OrderBook}
    (hbook : s.engine.books msg.instrumentId = some book)
    (htype : msg.orderType = .market) :
    ∃ s₁ : Snapshot,
      s₁.engine = s₀.engine.doSweep msg.instrumentId slot (fun _ => true) ∧
        Swept msg.instrumentId slot msg.accepts s₀ s₁ := by
  rw [← hadmitted.books_eq] at hbook
  rcases Snapshot.doSweep_exit hadmitted.loose hbook
    (priceCheck_market (s₀.makerSide slot)) with ⟨s₁, hengine, hswept⟩
  have haccepts : msg.accepts = fun _ => true := by
    funext price
    simp [InboundOrderMsg.accepts, htype]
  rw [haccepts]
  exact ⟨s₁, hengine, hswept⟩

theorem swept_terms (hadmitted : Admitted msg slot s s₀) {s₁ : Snapshot}
    {priceOk : Price → Bool} (hswept : Swept msg.instrumentId slot priceOk s₀ s₁) :
    (s₁.slab slot).orderId = msg.orderId ∧ (s₁.slab slot).price = msg.price ∧
      (s₁.slab slot).instrumentId = msg.instrumentId ∧
      (s₁.slab slot).side = msg.orderSide := by
  have hterms := hswept.terms slot
  rw [hadmitted.order] at hterms
  exact ⟨congrArg Order.Terms.orderId hterms, congrArg Order.Terms.price hterms,
    congrArg Order.Terms.instrumentId hterms, congrArg Order.Terms.side hterms⟩

theorem matchLimit_step (hadmitted : Admitted msg slot s s₀) {book : OrderBook}
    (hbook : s.engine.books msg.instrumentId = some book)
    (htype : msg.orderType = .limit) :
    ∃ s' : Snapshot, s'.engine = s₀.engine.matchLimit msg.instrumentId slot ∧
      NewOrderStep msg s s' := by
  rcases hadmitted.exists_swept_limit hbook (by simp [htype]) with ⟨s₁, hengine, hswept⟩
  rcases hadmitted.swept_terms hswept with ⟨_, hprice, howner, _⟩
  simp only [Engine.matchLimit, ← hengine]
  by_cases hresidual : 0 < (s₁.slab slot).remaining
  · have hpos : 0 < (s₁.engine.slab slot).quantity := Quantity.pos_iff.mpr hresidual
    rw [if_pos hpos]
    rw [← hadmitted.books_eq] at hbook
    rcases hswept.listed hbook with ⟨book₁, hbook₁, hgrid⟩
    rw [hadmitted.books_eq] at hbook
    cases hvalid : book.grid.isValidPrice msg.price with
    | true =>
        have hvalid₁ : book₁.grid.isValidPrice (s₁.slab slot).price = true := by
          rw [hgrid, hprice]
          exact hvalid
        rcases s₁.exists_rested hbook₁ hswept.loose howner hresidual hvalid₁ with
          ⟨s', hengine', hrested⟩
        rw [hgrid, hprice] at hrested
        exact ⟨s', hengine', .rested slot book s₀ s₁ hbook hadmitted hswept htype hvalid hrested⟩
    | false =>
        have hkept : s₁.engine.rest msg.instrumentId slot = s₁.engine := by
          simp only [Engine.rest, hbook₁]
          rw [BookShape.addOrder_invalid]
          · have hupdate : Function.update s₁.engine.books msg.instrumentId (some book₁) =
                s₁.engine.books := by
              rw [← hbook₁, Function.update_eq_self]
            simp only [Engine.setBook, hupdate]
            rfl
          · change book₁.grid.isValidPrice (s₁.slab slot).price = false
            rw [hgrid, hprice]
            exact hvalid
        exact ⟨s₁, hkept.symm, .lost slot book s₀ hbook hadmitted hswept htype hresidual hvalid⟩
  · have hzero : ¬ 0 < (s₁.engine.slab slot).quantity :=
      fun hpos => hresidual (Quantity.pos_iff.mp hpos)
    rw [if_neg hzero]
    rcases s₁.exists_released hswept.loose with ⟨s', hengine', hreleased⟩
    exact ⟨s', hengine', .completed slot book s₀ s₁ hbook hadmitted hswept
      (Or.inl ⟨Or.inl htype, by omega⟩) hreleased⟩

theorem ackResidual_step (hadmitted : Admitted msg slot s s₀) {book : OrderBook}
    (hbook : s.engine.books msg.instrumentId = some book) {s₁ : Snapshot}
    (hswept : Swept msg.instrumentId slot msg.accepts s₀ s₁)
    (htype : msg.orderType = .market ∨ msg.orderType = .ioc) :
    ∃ s' : Snapshot, s'.engine = (s₁.engine.ackResidual slot).release slot ∧
      NewOrderStep msg s s' := by
  unfold Engine.ackResidual
  by_cases hresidual : 0 < (s₁.slab slot).remaining
  · have hpos : 0 < (s₁.engine.slab slot).quantity := Quantity.pos_iff.mpr hresidual
    rw [if_pos hpos]
    rcases s₁.exists_posted
      (s₁.engine.postCancelAck (s₁.slab slot).orderId (s₁.slab slot).quantity)
      [cancelAckReport (s₁.slab slot).orderId (s₁.slab slot).quantity s₁.engine.nowNs] 0
      rfl rfl rfl rfl rfl rfl with ⟨s₂, hengine₂, hposted⟩
    have hloose₂ : s₂.IsLoose slot := by
      unfold Snapshot.IsLoose
      rw [hposted.pool_eq, hposted.queues_eq, hposted.free_eq]
      exact hswept.loose
    rcases s₂.exists_released hloose₂ with ⟨s', hengine', hreleased⟩
    rw [(hadmitted.swept_terms hswept).1] at hposted
    refine ⟨s', ?_, .acked slot book s₀ s₁ s₂ _ hbook hadmitted hswept htype hresidual
      hposted hreleased⟩
    rw [hengine', hengine₂]
    rfl
  · have hzero : ¬ 0 < (s₁.engine.slab slot).quantity :=
      fun hpos => hresidual (Quantity.pos_iff.mp hpos)
    rw [if_neg hzero]
    rcases s₁.exists_released hswept.loose with ⟨s', hengine', hreleased⟩
    exact ⟨s', hengine', .completed slot book s₀ s₁ hbook hadmitted hswept
      (Or.inl ⟨Or.inr htype, by omega⟩) hreleased⟩

theorem reject_step (hadmitted : Admitted msg slot s s₀) {book : OrderBook}
    (hbook : s.engine.books msg.instrumentId = some book)
    (hwhy : (∃ byte, msg.orderType = .raw byte) ∨ msg.orderType = .fok ∧
      book.availableQuantityAtOrBetter msg.orderSide msg.price < msg.quantity) :
    ∃ s' : Snapshot,
      s'.engine = ((s₀.engine.postReject msg.orderId msg.quantity).release slot).countReject ∧
        NewOrderStep msg s s' := by
  rcases s₀.exists_posted (s₀.engine.postReject msg.orderId msg.quantity).countReject
    [rejectReport msg.orderId msg.quantity s₀.engine.nowNs] 1
    rfl rfl rfl rfl rfl rfl with ⟨s₁, hengine₁, hposted⟩
  have hloose₁ : s₁.IsLoose slot := by
    unfold Snapshot.IsLoose
    rw [hposted.pool_eq, hposted.queues_eq, hposted.free_eq]
    exact hadmitted.loose
  rcases s₁.exists_released hloose₁ with ⟨s', hengine', hreleased⟩
  refine ⟨s', ?_, .rejected slot book s₀ s₁ _ hbook hadmitted hwhy hposted hreleased⟩
  rw [hengine', hengine₁]
  rfl

theorem matchFok_step (hadmitted : Admitted msg slot s s₀) {book : OrderBook}
    (hbook : s.engine.books msg.instrumentId = some book)
    (htype : msg.orderType = .fok) :
    ∃ s' : Snapshot, s'.engine = s₀.engine.matchFok msg.instrumentId book slot ∧
      NewOrderStep msg s s' := by
  have horder : s₀.engine.slab slot = Engine.populated msg s.engine.nowNs := hadmitted.order
  simp only [Engine.matchFok, horder]
  by_cases hshort : book.availableQuantityAtOrBetter
      (Engine.populated msg s.engine.nowNs).side (Engine.populated msg s.engine.nowNs).price <
        (Engine.populated msg s.engine.nowNs).quantity
  · rw [if_pos hshort]
    exact hadmitted.reject_step hbook (Or.inr ⟨htype, hshort⟩)
  · rw [if_neg hshort]
    rcases hadmitted.exists_swept_limit hbook (by simp [htype]) with ⟨s₁, hengine, hswept⟩
    rcases s₁.exists_released hswept.loose with ⟨s', hengine', hreleased⟩
    rw [hengine] at hengine'
    exact ⟨s', hengine', .completed slot book s₀ s₁ hbook hadmitted hswept
      (Or.inr ⟨htype, hshort⟩) hreleased⟩

theorem matchOrder_step (hadmitted : Admitted msg slot s s₀) {book : OrderBook}
    (hbook : s.engine.books msg.instrumentId = some book) :
    ∃ s' : Snapshot, s'.engine = s₀.engine.matchOrder msg.instrumentId book slot ∧
      NewOrderStep msg s s' := by
  have horder : s₀.engine.slab slot = Engine.populated msg s.engine.nowNs := hadmitted.order
  have htype : (s₀.engine.slab slot).type = msg.orderType := by
    rw [horder]
    rfl
  unfold Engine.matchOrder
  rw [htype]
  cases hcase : msg.orderType with
  | limit => exact hadmitted.matchLimit_step hbook hcase
  | market =>
      rcases hadmitted.exists_swept_market hbook hcase with ⟨s₁, hengine, hswept⟩
      rcases hadmitted.ackResidual_step hbook hswept (Or.inl hcase) with ⟨s', hengine', hstep⟩
      rw [hengine] at hengine'
      exact ⟨s', hengine', hstep⟩
  | ioc =>
      rcases hadmitted.exists_swept_limit hbook (by simp [hcase]) with ⟨s₁, hengine, hswept⟩
      rcases hadmitted.ackResidual_step hbook hswept (Or.inr hcase) with ⟨s', hengine', hstep⟩
      rw [hengine] at hengine'
      exact ⟨s', hengine', hstep⟩
  | fok => exact hadmitted.matchFok_step hbook hcase
  | raw byte =>
      simp only [horder]
      exact hadmitted.reject_step hbook (Or.inl ⟨byte, hcase⟩)

end Admitted

namespace Snapshot

variable (s : Snapshot)

theorem refuse_step (msg : InboundOrderMsg)
    (hwhy : s.engine.books msg.instrumentId = none ∨ s.free = []) :
    ∃ s' : Snapshot,
      s'.engine = (s.engine.postReject msg.orderId msg.quantity).countReject ∧
        NewOrderStep msg s s' := by
  rcases s.exists_posted (s.engine.postReject msg.orderId msg.quantity).countReject
    [rejectReport msg.orderId msg.quantity s.engine.nowNs] 1
    rfl rfl rfl rfl rfl rfl with ⟨s', hengine, hposted⟩
  exact ⟨s', hengine, .refused _ hwhy hposted⟩

theorem handleNewOrder_step (msg : InboundOrderMsg) :
    ∃ s' : Snapshot, s'.engine = s.engine.handleNewOrder msg ∧ NewOrderStep msg s s' := by
  unfold Engine.handleNewOrder
  cases hbook : s.engine.books msg.instrumentId with
  | none => exact s.refuse_step msg (Or.inl hbook)
  | some book =>
      cases hacquire : s.engine.pool.acquire with
      | none =>
          exact s.refuse_step msg (Or.inr (s.rep.freeList.acquire_eq_none_iff.mp hacquire))
      | some acquired =>
          rcases s.admitted_of_acquire msg hacquire with ⟨s₀, hengine, hadmitted⟩
          simp only [← hengine]
          exact hadmitted.matchOrder_step hbook

theorem handleCancel_step (msg : InboundOrderMsg) :
    ∃ s' : Snapshot, s'.engine = s.engine.handleCancel msg ∧ CancelStep msg s s' := by
  unfold Engine.handleCancel
  cases hbook : s.engine.books msg.instrumentId with
  | none =>
      refine ⟨s, rfl, .ignored rfl ?_⟩
      intro book hlisted
      rw [hbook] at hlisted
      exact absurd hlisted (by simp)
  | some book =>
      cases hfound : book.findOrder msg.orderId with
      | none =>
          simp only [hfound]
          refine ⟨s, rfl, .ignored rfl ?_⟩
          intro book' hlisted
          rw [hbook, Option.some.injEq] at hlisted
          subst hlisted
          exact hfound
      | some slot =>
          simp only [hfound]
          rcases (s.rep.bookRep _ book hbook).indexed _ _ hfound with ⟨⟨side, level, hslot⟩, hid⟩
          rcases List.append_of_mem hslot with ⟨before, after, hqueue⟩
          rcases s.exists_removed hbook hqueue with ⟨s₁, hengine₁, hremoved⟩
          have hid₁ : (s₁.slab slot).orderId = msg.orderId :=
            (congrArg Order.Terms.orderId (hremoved.terms slot)).trans hid
          rcases s₁.exists_posted
            (s₁.engine.postCancelAck (s₁.slab slot).orderId (s.slab slot).quantity)
            [cancelAckReport (s₁.slab slot).orderId (s.slab slot).quantity s₁.engine.nowNs] 0
            rfl rfl rfl rfl rfl rfl with ⟨s₂, hengine₂, hposted⟩
          have hloose₂ : s₂.IsLoose slot := by
            unfold IsLoose
            rw [hposted.pool_eq, hposted.queues_eq, hposted.free_eq]
            exact hremoved.loose
          rcases s₂.exists_released hloose₂ with ⟨s', hengine', hreleased⟩
          rw [hid₁] at hposted
          refine ⟨s', ?_, .cancelled slot book side level before after s₁ s₂ _ hbook hfound hid
            hremoved hposted hreleased⟩
          rw [hengine', hengine₂]
          unfold slab
          rw [hengine₁]
          rfl

end Snapshot

end NanoMatch
