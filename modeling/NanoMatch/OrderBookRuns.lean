import NanoMatch.OrderBookExact

/-!
# Runs of the public mutators

`BookRun` is any sequence of public operations of one book, each used as the
book expects it, with the caller free to prepare orders in slots that rest
nowhere.  The invariant `BookInvariant` holds after every operation;
`RepresentationInvariant` spells it out in the vocabulary of the source.

An order enters the book only through `add_order` and keeps its side and its
price while it rests.  So if only buy and sell orders are added, the asks are
sell orders.
-/

namespace NanoMatch

open IntrusiveList OrderBook

structure BookInvariant (slab : Slab) (book : OrderBook) (queues : Queues) : Prop
    extends BookRep slab book queues, BookExact slab book queues

/-! ## The operations -/

inductive BookOp where
  | prepare (slot : Slot) (order : Order)
  | add (slot : Slot)
  | cancelId (id : OrderId)
  | cancel (slot : Slot)
  | reduce (slot : Slot) (newQty : Quantity)
  | fill (slot : Slot) (fillQty : Quantity)
  | popBid
  | popAsk
  | clear

def BookOp.apply (slab : Slab) (book : OrderBook) : BookOp → Slab × OrderBook
  | .prepare slot order => (Function.update slab slot order, book)
  | .add slot => addOrder slab book (some slot)
  | .cancelId id => (cancelOrderById slab book id).2
  | .cancel slot => cancelOrder slab book (some slot)
  | .reduce slot newQty => reduceOrderQty slab book (some slot) newQty
  | .fill slot fillQty => (fillRestingOrder slab book (some slot) fillQty).2
  | .popBid => (popBestBidHead slab book).2
  | .popAsk => (popBestAskHead slab book).2
  | .clear => (slab, book.clear)

/-- The slot is met by following some level queue from its head. -/
def InBook (slab : Slab) (book : OrderBook) (slot : Slot) : Prop :=
  ∃ side i slots, Chain slab.nextOf (book.sideLevels side i).head slots ∧ slot ∈ slots

/-- The true sum of the level an order would join, with the order, stays below
`2^32`. -/
def LevelHasRoom (slab : Slab) (book : OrderBook) (slot : Slot) : Prop :=
  ∀ slots,
    Chain slab.nextOf
      (book.sideLevels (slab slot).side.bookSide
        (book.grid.tickToIndex (slab slot).price)).head slots →
    restingQty slab slots + (slab slot).remaining < 2 ^ 32

/-- What an operation expects of its caller.  The source asserts that an added
order is active and has a valid price, that a reduced or filled order has the
quantity, and that a fill is positive.  It asserts neither that a removed
order rests in the book, nor that an added order is not queued yet, has a
quantity and a fresh id, and leaves the sum of its level in 32 bits. -/
def BookOp.Allowed (slab : Slab) (book : OrderBook) : BookOp → Prop
  | .prepare slot _ => ¬ InBook slab book slot
  | .add slot =>
      (slab slot).isActive = true ∧
        book.grid.isValidPrice (slab slot).price = true ∧
        0 < (slab slot).quantity ∧ ¬ InBook slab book slot ∧
        book.findOrder (slab slot).orderId = none ∧ LevelHasRoom slab book slot
  | .cancelId _ => True
  | .cancel slot => InBook slab book slot
  | .reduce slot newQty => InBook slab book slot ∧ newQty ≤ (slab slot).quantity
  | .fill slot fillQty =>
      InBook slab book slot ∧ 0 < fillQty ∧ fillQty ≤ (slab slot).quantity
  | .popBid => True
  | .popAsk => True
  | .clear => True

/-- The side of an added order is one of the enumerators.  `add_order` does not test
it and rests every other byte with the asks. -/
def BookOp.sided (slab : Slab) : BookOp → Bool
  | .add slot => (slab slot).isBuy || (slab slot).isSell
  | _ => true

/-- The states a book can reach. -/
inductive BookRun (instrumentId : InstrumentId) (grid : PriceGrid) :
    Slab → OrderBook → Prop
  | start (slab : Slab) : BookRun instrumentId grid slab (OrderBook.new instrumentId grid)
  | step {slab : Slab} {book : OrderBook} (op : BookOp)
      (hrun : BookRun instrumentId grid slab book) (hallowed : op.Allowed slab book)
      (hsided : op.sided slab = true) :
      BookRun instrumentId grid (op.apply slab book).1 (op.apply slab book).2

/-! ## What the invariant says about the level queues -/

namespace BookInvariant

variable {slab : Slab} {book : OrderBook} {queues : Queues} {side : BookSide}
  {i : ℕ} {slot : Slot} {before after : List Slot} {level : PriceLevel}

theorem inBook_iff (hinv : BookInvariant slab book queues) :
    InBook slab book slot ↔ ∃ side i, slot ∈ queues side i := by
  constructor
  · rintro ⟨side, i, slots, hchain, hslot⟩
    have heq : slots = queues side i := hchain.unique (hinv.linked side i).forward
    exact ⟨side, i, heq ▸ hslot⟩
  · rintro ⟨side, i, hslot⟩
    exact ⟨side, i, queues side i, (hinv.linked side i).forward, hslot⟩

theorem split_of_inBook (hinv : BookInvariant slab book queues)
    (hslot : InBook slab book slot) :
    ∃ side i before after, queues side i = before ++ slot :: after := by
  obtain ⟨side, i, hmem⟩ := hinv.inBook_iff.mp hslot
  obtain ⟨before, after, hsplit⟩ := List.append_of_mem hmem
  exact ⟨side, i, before, after, hsplit⟩

theorem levelExact_of_ne (hinv : BookInvariant slab book queues)
    (hslot : slot ∈ queues side i) (quantity : Quantity)
    {side' : BookSide} {j : ℕ} (hne : ¬ (side' = side ∧ j = i)) :
    LevelExact (slab.setQuantity slot quantity) (book.sideLevels side' j)
      (queues side' j) := by
  apply (hinv.level side' j).congr
  intro other hother
  have hother' : other ≠ slot := by
    rintro rfl
    exact hne (hinv.toLevelsRep.level_unique hslot hother)
  simp [hother']

/-- Every removal: the quantity of the slot and the aggregates of its level
may have been changed before the splice-out. -/
theorem detach (hinv : BookInvariant slab book queues)
    (hqueue : queues side i = before ++ slot :: after) (quantity : Quantity)
    (level : PriceLevel)
    (hhead : level.head = (book.sideLevels side i).head)
    (htail : level.tail = (book.sideLevels side i).tail)
    (hprice : level.price = (book.sideLevels side i).price)
    (hlevel : LevelExact (slab.setQuantity slot quantity) level
      (before ++ slot :: after))
    (status : OrderStatus) :
    BookInvariant
      (detach (slab.setQuantity slot quantity) book side i level slot status).1
      (detach (slab.setQuantity slot quantity) book side i level slot status).2
      (queues.set side i (before ++ after)) := by
  have hslot : slot ∈ queues side i := by
    rw [hqueue]
    simp
  have hshape := hinv.toBookShape.setQuantity slot quantity
  have hlinked := hshape.queue_of_ends hqueue level hhead htail
  have hrelinked := BookShape.detach_relinked hlinked book side i status
  refine { hshape.detach hqueue level hhead htail hprice status,
    BookExact.detach hshape hqueue hlinked hlevel ?_ ?_ status with positive := ?_ }
  · intro side' j hother
    exact hinv.levelExact_of_ne hslot quantity hother
  · intro side' j other hother
    have hid : (slab.setQuantity slot quantity other).orderId = (slab other).orderId :=
      congrArg Order.Terms.orderId (slab.terms_setQuantity slot other quantity)
    rw [hid]
    exact hinv.complete side' j other hother
  · intro side' j other hother
    have hmem := (hinv.toLevelsRep.mem_splice_iff hqueue).mp hother
    have hpositive := hinv.positive side' j other hmem.1
    rw [← remaining_setQuantity_of_ne hmem.2 quantity] at hpositive
    unfold Order.remaining at hpositive ⊢
    rw [hrelinked.quantity other]
    exact hpositive

theorem requantify (hinv : BookInvariant slab book queues)
    (hqueue : queues side i = before ++ slot :: after) {quantity : Quantity}
    (hquantity : 0 < quantity) (level : PriceLevel)
    (hhead : level.head = (book.sideLevels side i).head)
    (htail : level.tail = (book.sideLevels side i).tail)
    (hprice : level.price = (book.sideLevels side i).price)
    (hlevel : LevelExact (slab.setQuantity slot quantity) level
      (before ++ slot :: after)) :
    BookInvariant (slab.setQuantity slot quantity) (book.setLevel side i level)
      queues := by
  have hslot : slot ∈ queues side i := by
    rw [hqueue]
    simp
  refine { (hinv.toBookShape.setQuantity slot quantity).setAggregates level hhead htail
    hprice
    with positive := ?_, level := ?_, complete := ?_ }
  · intro side' j other hother
    by_cases hne : other = slot
    · rw [hne, remaining_setQuantity_self]
      exact UInt32.lt_iff_toNat_lt.mp hquantity
    · rw [remaining_setQuantity_of_ne hne]
      exact hinv.positive side' j other hother
  · intro side' j
    by_cases hsame : side' = side ∧ j = i
    · obtain ⟨rfl, rfl⟩ := hsame
      rw [sideLevels_setLevel_same, hqueue]
      exact hlevel
    · rw [sideLevels_setLevel_of_ne _ _ _ _ _ _ hsame]
      exact hinv.levelExact_of_ne hslot quantity hsame
  · intro side' j other hother
    have hid : (slab.setQuantity slot quantity other).orderId = (slab other).orderId :=
      congrArg Order.Terms.orderId (slab.terms_setQuantity slot other quantity)
    rw [hid]
    simpa [findOrder] using hinv.complete side' j other hother

theorem setStatus (hinv : BookInvariant slab book queues) (slot : Slot)
    (status : OrderStatus) : BookInvariant (slab.setStatus slot status) book queues := by
  refine { hinv.toBookShape.setStatus slot status with
    positive := ?_, level := ?_, complete := ?_ }
  · intro side i other hother
    have hpositive := hinv.positive side i other hother
    simpa [Order.remaining] using hpositive
  · intro side i
    exact (hinv.level side i).congr (fun other _ => by simp)
  · intro side i other hother
    have hid : (slab.setStatus slot status other).orderId = (slab other).orderId :=
      congrArg Order.Terms.orderId (slab.terms_setStatus slot other status)
    rw [hid]
    exact hinv.complete side i other hother

/-! ## One lemma per mutator -/

theorem cancel (hinv : BookInvariant slab book queues)
    (hqueue : queues side i = before ++ slot :: after) :
    BookInvariant (cancelOrder slab book (some slot)).1
      (cancelOrder slab book (some slot)).2 (queues.set side i (before ++ after)) := by
  have hslot : slot ∈ queues side i := by
    rw [hqueue]
    simp
  have hself : slab.setQuantity slot (slab slot).quantity = slab :=
    Function.update_eq_self slot slab
  have hlevel := hinv.level side i
  rw [hqueue] at hlevel
  have hresult := hinv.detach hqueue (slab slot).quantity _ rfl rfl rfl
    (by rw [hself]; exact hlevel) .cancelled
  rw [hself] at hresult
  rw [hinv.toBookShape.cancelOrder_eq hslot]
  exact hresult

theorem fill (hinv : BookInvariant slab book queues)
    (hqueue : queues side i = before ++ slot :: after) {fillQty : Quantity}
    (hfill : fillQty ≤ (slab slot).quantity) :
    ∃ queues', BookInvariant (fillRestingOrder slab book (some slot) fillQty).2.1
      (fillRestingOrder slab book (some slot) fillQty).2.2 queues' := by
  have hslot : slot ∈ queues side i := by
    rw [hqueue]
    simp
  have hlevel := hinv.level side i
  have hnodup := (hinv.linked side i).nodup
  rw [hqueue] at hlevel hnodup
  have hdebit : LevelExact (slab.setQuantity slot ((slab slot).quantity - fillQty))
      (BookShape.debited (book.sideLevels side i) fillQty) (before ++ slot :: after) :=
    hlevel.debit hnodup hfill rfl rfl
  by_cases hfull : fillQty = (slab slot).quantity
  · rw [hfull] at hdebit ⊢
    rw [hinv.toBookShape.fillRestingOrder_full hslot]
    rw [UInt32.sub_self] at hdebit
    exact ⟨_, hinv.detach hqueue 0
      (BookShape.debited (book.sideLevels side i) (slab slot).quantity)
      rfl rfl rfl hdebit .filled⟩
  · have hpositive := Quantity.sub_pos hfill hfull
    rw [hinv.toBookShape.fillRestingOrder_partial hslot
      (Quantity.ne_zero_of_pos hpositive)]
    have hresult := hinv.requantify hqueue hpositive
      (BookShape.debited (book.sideLevels side i) fillQty) rfl rfl rfl hdebit
    exact ⟨queues, hresult.setStatus slot .partialFilled⟩

theorem reduce (hinv : BookInvariant slab book queues)
    (hqueue : queues side i = before ++ slot :: after) {newQty : Quantity}
    (hnew : newQty ≤ (slab slot).quantity) :
    ∃ queues', BookInvariant (reduceOrderQty slab book (some slot) newQty).1
      (reduceOrderQty slab book (some slot) newQty).2 queues' := by
  have hslot : slot ∈ queues side i := by
    rw [hqueue]
    simp
  obtain ⟨hvalid, hindex, hside⟩ := hinv.toBookShape.lookup hslot
  have hexact := hinv.level side i
  have hnodup := (hinv.linked side i).nodup
  rw [hqueue] at hexact hnodup
  have hdelta : (slab slot).quantity - newQty ≤ (slab slot).quantity := by
    rw [UInt32.le_iff_toNat_le, UInt32.toNat_sub_of_le _ _ hnew]
    omega
  have hroom := UInt32.le_trans hdelta hexact.aggregates.quantity_le_total
  let level : PriceLevel :=
    { book.sideLevels side i with
      totalQty := (book.sideLevels side i).totalQty - ((slab slot).quantity - newQty) }
  have hdebit : LevelExact
      (slab.setQuantity slot ((slab slot).quantity - ((slab slot).quantity - newQty)))
      level (before ++ slot :: after) :=
    hexact.debit hnodup hdelta rfl rfl
  have hleft : (slab slot).quantity - ((slab slot).quantity - newQty) = newQty := by
    apply UInt32.toNat_inj.mp
    rw [UInt32.toNat_sub_of_le _ _ hdelta, UInt32.toNat_sub_of_le _ _ hnew]
    rw [UInt32.le_iff_toNat_le] at hnew
    omega
  rw [hleft] at hdebit
  have hresult : reduceOrderQty slab book (some slot) newQty =
      if newQty = 0 then
        OrderBook.detach (slab.setQuantity slot newQty) book side i level slot .cancelled
      else (slab.setQuantity slot newQty, book.setLevel side i level) := by
    simp only [reduceOrderQty, hvalid, hindex, hside, Bool.not_true, Bool.false_eq_true,
      if_false, levelReduceQty, hdelta, hroom, if_true, hleft, level]
  rw [hresult]
  by_cases hzero : newQty = 0
  · rw [if_pos hzero]
    exact ⟨_, hinv.detach hqueue newQty level rfl rfl rfl hdebit .cancelled⟩
  · rw [if_neg hzero]
    have hpositive : 0 < newQty := by
      rw [UInt32.lt_iff_toNat_lt]
      apply Nat.pos_of_ne_zero
      intro hnat
      exact hzero (UInt32.toNat_inj.mp hnat)
    exact ⟨queues, hinv.requantify hqueue hpositive level rfl rfl rfl hdebit⟩

theorem pop (hinv : BookInvariant slab book queues) (side : BookSide) :
    ∃ queues', BookInvariant (popBestHead slab book side).2.1
      (popBestHead slab book side).2.2 queues' := by
  have hbest := hinv.best side
  cases hcursor : book.bestIdx side with
  | none =>
      refine ⟨queues, ?_⟩
      simpa [popBestHead, hcursor] using hinv
  | some best =>
      rw [hcursor] at hbest
      cases hqueue : queues side best with
      | nil => exact absurd hqueue hbest.1
      | cons slot rest =>
          have hlinked := hinv.linked side best
          have hexact := hinv.level side best
          rw [hqueue] at hlinked hexact
          have hself : slab.setQuantity slot (slab slot).quantity = slab :=
            Function.update_eq_self slot slab
          have hsplit : queues side best = [] ++ slot :: rest := hqueue
          let removed := levelRemove slab (book.sideLevels side best) (some slot)
          have hresult : (popBestHead slab book side).2 =
              OrderBook.detach slab book side best (book.sideLevels side best) slot
                (removed.1 slot).status := by
            have hstatus : removed.1.setStatus slot (removed.1 slot).status = removed.1 :=
              Function.update_eq_self slot removed.1
            simp only [popBestHead, hcursor, hlinked.levelDequeueHead_eq,
              OrderBook.detach, removed] at hstatus ⊢
            rw [hstatus]
          rw [hresult]
          have hinv' := hinv.detach hsplit (slab slot).quantity
            (book.sideLevels side best) rfl rfl rfl (by rw [hself]; exact hexact)
            (removed.1 slot).status
          rw [hself] at hinv'
          exact ⟨_, hinv'⟩

theorem add (hinv : BookInvariant slab book queues)
    (hvalid : book.grid.isValidPrice (slab slot).price = true)
    (hquantity : 0 < (slab slot).quantity) (hfresh : ¬ InBook slab book slot)
    (hnew : book.findOrder (slab slot).orderId = none)
    (hroom : LevelHasRoom slab book slot) :
    ∃ queues', BookInvariant (addOrder slab book (some slot)).1
      (addOrder slab book (some slot)).2 queues' := by
  have hnotQueued : ∀ side j, slot ∉ queues side j := by
    intro side j hslot
    exact hfresh (hinv.inBook_iff.mpr ⟨side, j, hslot⟩)
  have hremaining : 0 < (slab slot).remaining := UInt32.lt_iff_toNat_lt.mp hquantity
  have hrelinked := hinv.toBookShape.addOrder_relinked hvalid rfl rfl
  refine ⟨_, { hinv.toBookShape.addOrder hvalid rfl rfl hnotQueued,
    BookExact.addOrder hinv.toBookShape hinv.toBookExact hinv.positive hvalid rfl rfl
      hremaining (hroom _ (hinv.linked _ _).forward) hnew with positive := ?_ }⟩
  intro side' j other hother
  have hmem : other = slot ∨ other ∈ queues side' j := by
    by_cases hsame : side' = (slab slot).side.bookSide ∧
        j = book.grid.tickToIndex (slab slot).price
    · obtain ⟨rfl, rfl⟩ := hsame
      rw [Queues.set_same] at hother
      rcases List.mem_append.mp hother with hold | hlast
      · exact Or.inr hold
      · exact Or.inl (List.mem_singleton.mp hlast)
    · rw [Queues.set_of_ne _ _ hsame] at hother
      exact Or.inr hother
  unfold Order.remaining
  rw [hrelinked.quantity other]
  rcases hmem with rfl | hold
  · exact hremaining
  · exact hinv.positive side' j other hold

theorem prepare (hinv : BookInvariant slab book queues)
    (hslot : ∀ side i, slot ∉ queues side i) (order : Order) :
    BookInvariant (Function.update slab slot order) book queues := by
  have hsame : ∀ side i, ∀ other ∈ queues side i,
      Function.update slab slot order other = slab other := by
    intro side i other hother
    apply Function.update_of_ne
    rintro rfl
    exact hslot side i hother
  refine { hinv.toBookShape.congr_of_mem hsame with
    positive := ?_, level := ?_, complete := ?_ }
  · intro side i other hother
    rw [hsame side i other hother]
    exact hinv.positive side i other hother
  · intro side i
    apply (hinv.level side i).congr
    intro other hother
    rw [hsame side i other hother]
  · intro side i other hother
    rw [hsame side i other hother]
    exact hinv.complete side i other hother

end BookInvariant

theorem bookInvariant_of_empty (slab : Slab) {book : OrderBook}
    (hlevels : ∀ side i, book.sideLevels side i = emptyLevel (book.grid.indexToPrice i))
    (hbest : ∀ side, book.bestIdx side = none) (hindex : book.orderIndex = ∅) :
    BookInvariant slab book (fun _ _ => []) where
  linked side i := by
    rw [hlevels]
    exact ⟨rfl, rfl⟩
  placed side i slot hslot := by simp at hslot
  priced side i := by
    rw [hlevels]
    rfl
  best side := by
    rw [hbest]
    exact fun _ => rfl
  indexed id slot hfound := by
    simp [findOrder, OrderIndex.find, hindex] at hfound
  positive side i slot hslot := by simp at hslot
  level side i := by
    rw [hlevels]
    exact ⟨rfl, rfl⟩
  complete side i slot hslot := by simp at hslot

theorem bookInvariant_new (slab : Slab) (instrumentId : InstrumentId)
    (grid : PriceGrid) :
    BookInvariant slab (OrderBook.new instrumentId grid) (fun _ _ => []) := by
  apply bookInvariant_of_empty
  · intro side i
    cases side <;> rfl
  · intro side
    cases side <;> rfl
  · rfl

theorem bookInvariant_clear (slab : Slab) {book : OrderBook}
    (hpriced : ∀ side i, (book.sideLevels side i).price = book.grid.indexToPrice i) :
    BookInvariant slab book.clear (fun _ _ => []) := by
  apply bookInvariant_of_empty
  · intro side i
    have hprice := hpriced side i
    cases side <;> simp [OrderBook.clear, sideLevels] at hprice ⊢ <;> rw [hprice]
  · intro side
    cases side <;> rfl
  · rfl

theorem bookInvariant_step {slab : Slab} {book : OrderBook} {queues : Queues}
    (hinv : BookInvariant slab book queues) (op : BookOp)
    (hallowed : op.Allowed slab book) :
    ∃ queues', BookInvariant (op.apply slab book).1 (op.apply slab book).2 queues' := by
  cases op with
  | prepare slot order =>
      refine ⟨queues, hinv.prepare ?_ order⟩
      intro side i hslot
      exact hallowed (hinv.inBook_iff.mpr ⟨side, i, hslot⟩)
  | add slot =>
      obtain ⟨_, hvalid, hquantity, hfresh, hnew, hroom⟩ := hallowed
      exact hinv.add hvalid hquantity hfresh hnew hroom
  | cancelId id =>
      simp only [BookOp.apply, cancelOrderById]
      cases hfound : book.orderIndex.find id with
      | none => exact ⟨queues, hinv⟩
      | some slot =>
          obtain ⟨⟨side, i, hslot⟩, _⟩ := hinv.indexed id slot hfound
          obtain ⟨before, after, hqueue⟩ := List.append_of_mem hslot
          exact ⟨_, hinv.cancel hqueue⟩
  | cancel slot =>
      obtain ⟨side, i, before, after, hqueue⟩ := hinv.split_of_inBook hallowed
      exact ⟨_, hinv.cancel hqueue⟩
  | reduce slot newQty =>
      obtain ⟨side, i, before, after, hqueue⟩ := hinv.split_of_inBook hallowed.1
      exact hinv.reduce hqueue hallowed.2
  | fill slot fillQty =>
      obtain ⟨side, i, before, after, hqueue⟩ := hinv.split_of_inBook hallowed.1
      exact hinv.fill hqueue hallowed.2.2
  | popBid => exact hinv.pop .bid
  | popAsk => exact hinv.pop .ask
  | clear => exact ⟨_, bookInvariant_clear _ hinv.priced⟩

/-! ## What the operations leave alone -/

theorem detach_grid (slab : Slab) (book : OrderBook) (side : BookSide) (i : ℕ)
    (level : PriceLevel) (slot : Slot) (status : OrderStatus) :
    (detach slab book side i level slot status).2.grid = book.grid :=
  (BookShape.detach_book slab book side i level slot status).1

theorem popBestHead_grid (slab : Slab) (book : OrderBook) (side : BookSide) :
    (popBestHead slab book side).2.2.grid = book.grid := by
  unfold popBestHead
  cases book.bestIdx side with
  | none => rfl
  | some best =>
      simp only
      split
      · simp
      · simp only
        split_ifs <;> simp [advanceBestCursor]

theorem BookOp.apply_grid (slab : Slab) (book : OrderBook) (op : BookOp) :
    (op.apply slab book).2.grid = book.grid := by
  cases op with
  | prepare slot order => rfl
  | add slot =>
      simp only [apply, addOrder]
      split_ifs <;> simp
  | cancelId id =>
      simp only [apply, cancelOrderById]
      cases book.orderIndex.find id with
      | none => rfl
      | some slot =>
          simp only [cancelOrder]
          split_ifs
          · rfl
          · exact detach_grid _ _ _ _ _ _ _
  | cancel slot =>
      simp only [apply, cancelOrder]
      split_ifs
      · rfl
      · exact detach_grid _ _ _ _ _ _ _
  | reduce slot newQty =>
      simp only [apply, reduceOrderQty]
      split_ifs
      · rfl
      · exact detach_grid _ _ _ _ _ _ _
      · simp
  | fill slot fillQty =>
      simp only [apply, fillRestingOrder]
      split_ifs
      · rfl
      · exact detach_grid _ _ _ _ _ _ _
      · simp
  | popBid => exact popBestHead_grid slab book .bid
  | popAsk => exact popBestHead_grid slab book .ask
  | clear => rfl

theorem detach_terms (slab : Slab) (book : OrderBook) (side : BookSide) (i : ℕ)
    (level : PriceLevel) (slot : Slot) (status : OrderStatus) (other : Slot) :
    ((detach slab book side i level slot status).1 other).terms = (slab other).terms := by
  simp only [detach, Slab.terms_setStatus, Queue.levelRemove_terms]

theorem cancelOrder_terms (slab : Slab) (book : OrderBook) (slot other : Slot) :
    ((cancelOrder slab book (some slot)).1 other).terms = (slab other).terms := by
  simp only [cancelOrder]
  split_ifs
  · rfl
  · exact detach_terms _ _ _ _ _ _ _ _

theorem popBestHead_terms (slab : Slab) (book : OrderBook) (side : BookSide) (other : Slot) :
    ((popBestHead slab book side).2.1 other).terms = (slab other).terms := by
  unfold popBestHead
  cases book.bestIdx side with
  | none => rfl
  | some best =>
      have hterms := Queue.levelDequeueHead_terms slab (book.sideLevels side best) other
      simp only
      split <;> rename_i hdequeued <;> rw [hdequeued] at hterms <;> exact hterms

/-- Only the caller writes id, price and side of an order. -/
theorem BookOp.apply_terms (slab : Slab) (book : OrderBook) (op : BookOp) (other : Slot)
    (hkept : ∀ order, op ≠ .prepare other order) :
    ((op.apply slab book).1 other).terms = (slab other).terms := by
  cases op with
  | prepare slot order =>
      have hne : other ≠ slot := by
        rintro rfl
        exact hkept order rfl
      simp [apply, hne]
  | add slot =>
      simp only [apply, addOrder]
      split_ifs
      · rfl
      · exact Queue.levelEnqueueTail_terms _ _ _ _
  | cancelId id =>
      simp only [apply, cancelOrderById]
      cases book.orderIndex.find id with
      | none => rfl
      | some slot => exact cancelOrder_terms _ _ _ _
  | cancel slot => exact cancelOrder_terms _ _ _ _
  | reduce slot newQty =>
      simp only [apply, reduceOrderQty, levelReduceQty]
      split_ifs
      · rfl
      all_goals simp [detach_terms]
  | fill slot fillQty =>
      simp only [apply, fillRestingOrder]
      split_ifs <;> simp [detach_terms]
  | popBid => exact popBestHead_terms slab book .bid other
  | popAsk => exact popBestHead_terms slab book .ask other
  | clear => rfl

theorem OrderIndex.find_of_erase {index : OrderIndex} {id id' : OrderId} {slot : Slot}
    (hfound : OrderIndex.find (index.erase id') id = some slot) : index.find id = some slot := by
  by_cases hsame : id = id'
  · rw [hsame, OrderIndex.find_erase_self] at hfound
    exact absurd hfound (by simp)
  · rwa [OrderIndex.find_erase_of_ne _ _ _ hsame] at hfound

theorem detach_find {slab : Slab} {book : OrderBook} {side : BookSide} {i : ℕ}
    {level : PriceLevel} {slot : Slot} {status : OrderStatus} {id : OrderId} {found : Slot}
    (hfound : (detach slab book side i level slot status).2.findOrder id = some found) :
    book.findOrder id = some found := by
  obtain ⟨_, _, _, hindex, _⟩ := BookShape.detach_book slab book side i level slot status
  unfold findOrder at hfound
  rw [hindex] at hfound
  exact OrderIndex.find_of_erase hfound

theorem cancelOrder_find {slab : Slab} {book : OrderBook} {slot : Slot} {id : OrderId}
    {found : Slot} (hfound : (cancelOrder slab book (some slot)).2.findOrder id = some found) :
    book.findOrder id = some found := by
  simp only [cancelOrder] at hfound
  split_ifs at hfound
  · exact hfound
  · exact detach_find hfound

theorem popBestHead_find {slab : Slab} {book : OrderBook} {side : BookSide} {id : OrderId}
    {found : Slot} (hfound : (popBestHead slab book side).2.2.findOrder id = some found) :
    book.findOrder id = some found := by
  unfold popBestHead at hfound
  cases hcursor : book.bestIdx side with
  | none =>
      rw [hcursor] at hfound
      exact hfound
  | some best =>
      rw [hcursor] at hfound
      simp only at hfound
      split at hfound
      · simpa [findOrder] using hfound
      · apply OrderIndex.find_of_erase
        simp only at hfound
        split_ifs at hfound <;> simpa [findOrder, advanceBestCursor] using hfound

/-- Only `add_order` brings an order into the index. -/
theorem BookOp.find_of_apply {slab : Slab} {book : OrderBook} {op : BookOp} {id : OrderId}
    {found : Slot} (hfound : (op.apply slab book).2.findOrder id = some found) :
    book.findOrder id = some found ∨ op = .add found := by
  cases op with
  | prepare slot order => exact Or.inl hfound
  | add slot =>
      by_cases hsame : found = slot
      · exact Or.inr (by rw [hsame])
      · left
        simp only [apply, addOrder] at hfound
        split_ifs at hfound with hvalid
        · exact hfound
        · simp only [findOrder, orderIndex_setBestIdx, orderIndex_setLevel,
            OrderIndex.emplace] at hfound
          split_ifs at hfound
          · exact hfound
          · by_cases hid : id = ((levelEnqueueTail slab
                (book.sideLevels (slab slot).side.bookSide
                  (book.grid.tickToIndex (slab slot).price)) (some slot)).1 slot).orderId
            · rw [hid, OrderIndex.find, AList.lookup_insert, Option.some.injEq] at hfound
              exact absurd hfound.symm hsame
            · rwa [OrderIndex.find, AList.lookup_insert_ne hid] at hfound
  | cancelId id' =>
      left
      simp only [apply, cancelOrderById] at hfound
      cases hslot : book.orderIndex.find id' with
      | none =>
          rw [hslot] at hfound
          exact hfound
      | some slot =>
          rw [hslot] at hfound
          exact cancelOrder_find hfound
  | cancel slot => exact Or.inl (cancelOrder_find hfound)
  | reduce slot newQty =>
      left
      simp only [apply, reduceOrderQty] at hfound
      split_ifs at hfound
      · exact hfound
      · exact detach_find hfound
      · simpa [findOrder] using hfound
  | fill slot fillQty =>
      left
      simp only [apply, fillRestingOrder] at hfound
      split_ifs at hfound
      · exact hfound
      · exact detach_find hfound
      · simpa [findOrder] using hfound
  | popBid => exact Or.inl (popBestHead_find hfound)
  | popAsk => exact Or.inl (popBestHead_find hfound)
  | clear => simp [apply, OrderBook.clear, findOrder, OrderIndex.find] at hfound

/-! ## The invariant of every run -/

theorem BookRun.bookInvariant {instrumentId : InstrumentId} {grid : PriceGrid}
    {slab : Slab} {book : OrderBook} (hrun : BookRun instrumentId grid slab book) :
    book.grid = grid ∧ ∃ queues, BookInvariant slab book queues := by
  induction hrun with
  | start slab => exact ⟨rfl, _, bookInvariant_new slab instrumentId grid⟩
  | step op _ hallowed _ ih =>
      obtain ⟨hgrid, queues, hinv⟩ := ih
      refine ⟨?_, bookInvariant_step hinv op hallowed⟩
      rw [BookOp.apply_grid]
      exact hgrid

/-- What the index names is a buy or a sell order. -/
theorem BookRun.sided {instrumentId : InstrumentId} {grid : PriceGrid} {slab : Slab}
    {book : OrderBook} (hrun : BookRun instrumentId grid slab book) {id : OrderId}
    {slot : Slot} (hfound : book.findOrder id = some slot) :
    (slab slot).isBuy = true ∨ (slab slot).isSell = true := by
  induction hrun generalizing id slot with
  | start slab => simp [OrderBook.new, findOrder, OrderIndex.find] at hfound
  | @step slab book op hrun hallowed hsided ih =>
      have hside : (slab slot).isBuy = true ∨ (slab slot).isSell = true := by
        rcases BookOp.find_of_apply hfound with hbefore | rfl
        · exact ih hbefore
        · exact Bool.or_eq_true_iff.mp hsided
      have hkept : ∀ order, op ≠ .prepare slot order := by
        rintro order rfl
        obtain ⟨_, queues, hinv⟩ := hrun.bookInvariant
        exact hallowed (hinv.inBook_iff.mpr (hinv.indexed id slot hfound).1)
      have hsame : ((op.apply slab book).1 slot).side = (slab slot).side :=
        congrArg Order.Terms.side (BookOp.apply_terms slab book op slot hkept)
      unfold Order.isBuy Order.isSell at hside ⊢
      rw [hsame]
      exact hside

/-- The representation invariant of a book, field by field. -/
structure RepresentationInvariant (grid : PriceGrid) (slab : Slab) (book : OrderBook)
    (queues : Queues) : Prop where
  reached : ∀ side i, Chain slab.nextOf (book.sideLevels side i).head (queues side i)
  acyclic : ∀ side i, (queues side i).Nodup
  head_prev : ∀ side i slot, (book.sideLevels side i).head = some slot →
    (slab slot).prev = none
  tail_last : ∀ side i, (book.sideLevels side i).tail = (queues side i).getLast?
  tail_next : ∀ side i slot, (book.sideLevels side i).tail = some slot →
    (slab slot).next = none
  inverse : ∀ side i, ∀ slot ∈ queues side i, ∀ other ∈ queues side i,
    (slab slot).next = some other ↔ (slab other).prev = some slot
  empty_ends : ∀ side i, (book.sideLevels side i).head = none ↔
    (book.sideLevels side i).tail = none
  order_count : ∀ side i,
    (book.sideLevels side i).orderCount.toNat = (queues side i).length
  total_qty : ∀ side i,
    (book.sideLevels side i).totalQty.toNat = restingQty slab (queues side i)
  in_range : ∀ side i, queues side i ≠ [] → i < grid.numLevels
  bid_side : ∀ i, ∀ slot ∈ queues .bid i, (slab slot).side = .buy
  ask_side : ∀ i, ∀ slot ∈ queues .ask i, (slab slot).side = .sell
  price : ∀ side i, ∀ slot ∈ queues side i,
    (slab slot).price = grid.minPrice + i * grid.tickSize
  quantity_pos : ∀ side i, ∀ slot ∈ queues side i, 0 < (slab slot).quantity
  best_bid_none : book.bestBidIdx = none ↔ ∀ i, queues .bid i = []
  best_bid : ∀ best, book.bestBidIdx = some best →
    queues .bid best ≠ [] ∧ ∀ i, queues .bid i ≠ [] → i ≤ best
  best_ask_none : book.bestAskIdx = none ↔ ∀ i, queues .ask i = []
  best_ask : ∀ best, book.bestAskIdx = some best →
    queues .ask best ≠ [] ∧ ∀ i, queues .ask i ≠ [] → best ≤ i
  index_exact : ∀ id slot, book.findOrder id = some slot ↔
    (∃ side i, slot ∈ queues side i) ∧ (slab slot).orderId = id
  index_size : book.liveOrderCount = (restingSlots queues grid.numLevels).length

theorem isBest_none_iff {side : BookSide} {queues : ℕ → List Slot} {best : Option ℕ}
    (hbest : IsBest side queues best) : best = none ↔ ∀ i, queues i = [] := by
  cases best with
  | none => exact ⟨fun _ => hbest, fun _ => rfl⟩
  | some best =>
      simp only [reduceCtorEq, false_iff]
      intro hempty
      exact hbest.1 (hempty best)

theorem BookInvariant.representationInvariant {slab : Slab} {book : OrderBook}
    {queues : Queues} (hinv : BookInvariant slab book queues)
    (hsided : ∀ id slot, book.findOrder id = some slot →
      (slab slot).isBuy = true ∨ (slab slot).isSell = true) :
    RepresentationInvariant book.grid slab book queues where
  reached side i := (hinv.linked side i).forward
  acyclic side i := (hinv.linked side i).nodup
  head_prev side i slot hhead := DoublyLinked.prev_head (hinv.linked side i) hhead
  tail_last side i := DoublyLinked.tail_eq (hinv.linked side i)
  tail_next side i slot htail := DoublyLinked.next_tail (hinv.linked side i) htail
  inverse side i slot hslot other hother :=
    DoublyLinked.next_eq_some_iff (hinv.linked side i) hslot hother
  empty_ends side i := DoublyLinked.head_eq_none_iff (hinv.linked side i)
  order_count side i := (hinv.level side i).count
  total_qty side i := (hinv.level side i).total
  in_range side i hne := hinv.toLevelsRep.range hne
  bid_side i slot hslot := by
    have hside := (hinv.placed .bid i slot hslot).side_eq
    cases hvalue : (slab slot).side <;> simp_all [Side.bookSide]
  ask_side i slot hslot := by
    have hside := (hinv.placed .ask i slot hslot).side_eq
    rcases hsided _ slot (hinv.complete .ask i slot hslot) with hbuy | hsell
    · rw [show (slab slot).side = .buy from of_decide_eq_true hbuy] at hside
      exact absurd hside (by decide)
    · exact of_decide_eq_true hsell
  price side i slot hslot := (hinv.placed side i slot hslot).price_eq
  quantity_pos side i slot hslot :=
    UInt32.lt_iff_toNat_lt.mpr (hinv.positive side i slot hslot)
  best_bid_none := isBest_none_iff (hinv.best .bid)
  best_bid best hcursor := by
    have hbest := hinv.best .bid
    rw [show book.bestIdx .bid = some best from hcursor] at hbest
    exact ⟨hbest.1, fun i hi => not_lt.mp (hbest.2 i hi)⟩
  best_ask_none := isBest_none_iff (hinv.best .ask)
  best_ask best hcursor := by
    have hbest := hinv.best .ask
    rw [show book.bestIdx .ask = some best from hcursor] at hbest
    exact ⟨hbest.1, fun i hi => not_lt.mp (hbest.2 i hi)⟩
  index_exact id slot := by
    constructor
    · exact hinv.indexed id slot
    · rintro ⟨⟨side, i, hslot⟩, rfl⟩
      exact hinv.complete side i slot hslot
  index_size := liveOrderCount_eq hinv.toBookShape hinv.complete

/-- After every operation of every run the book satisfies its representation
invariant. -/
theorem bookRun_representationInvariant {instrumentId : InstrumentId}
    {grid : PriceGrid} {slab : Slab} {book : OrderBook}
    (hrun : BookRun instrumentId grid slab book) :
    ∃ queues, RepresentationInvariant grid slab book queues := by
  obtain ⟨hgrid, queues, hinv⟩ := hrun.bookInvariant
  refine ⟨queues, ?_⟩
  rw [← hgrid]
  exact hinv.representationInvariant fun _ _ hfound => hrun.sided hfound

/-! ## Runs from lists of operations -/

/-- What an operation expects of its caller, tested on the book. -/
def BookOp.accepted (slab : Slab) (book : OrderBook) : BookOp → Bool
  | .prepare slot _ => book.findOrder (slab slot).orderId ≠ some slot
  | .add slot =>
      (slab slot).isActive && book.grid.isValidPrice (slab slot).price &&
        0 < (slab slot).quantity && book.findOrder (slab slot).orderId = none &&
        (book.levelAt (slab slot).side.bookSide (slab slot).price).totalQty.toNat +
          (slab slot).remaining < 2 ^ 32
  | .cancelId _ => true
  | .cancel slot => book.findOrder (slab slot).orderId = some slot
  | .reduce slot newQty =>
      book.findOrder (slab slot).orderId = some slot && newQty ≤ (slab slot).quantity
  | .fill slot fillQty =>
      book.findOrder (slab slot).orderId = some slot && 0 < fillQty &&
        fillQty ≤ (slab slot).quantity
  | .popBid => true
  | .popAsk => true
  | .clear => true

namespace BookInvariant

variable {slab : Slab} {book : OrderBook} {queues : Queues} {slot : Slot}

theorem inBook_iff_find (hinv : BookInvariant slab book queues) :
    InBook slab book slot ↔ book.findOrder (slab slot).orderId = some slot := by
  rw [hinv.inBook_iff]
  constructor
  · rintro ⟨side, i, hslot⟩
    exact hinv.complete side i slot hslot
  · intro hfound
    exact (hinv.indexed _ slot hfound).1

theorem levelHasRoom_iff (hinv : BookInvariant slab book queues) (slot : Slot) :
    LevelHasRoom slab book slot ↔
      (book.levelAt (slab slot).side.bookSide (slab slot).price).totalQty.toNat +
        (slab slot).remaining < 2 ^ 32 := by
  have hlevel : book.levelAt (slab slot).side.bookSide (slab slot).price =
      book.sideLevels (slab slot).side.bookSide (book.grid.tickToIndex (slab slot).price) := by
    cases (slab slot).side.bookSide <;> rfl
  have hlinked := hinv.linked (slab slot).side.bookSide
    (book.grid.tickToIndex (slab slot).price)
  rw [hlevel, (hinv.level _ _).total]
  constructor
  · intro hroom
    exact hroom _ hlinked.forward
  · intro hlt slots hchain
    rw [hchain.unique hlinked.forward]
    exact hlt

/-- The index and the cached totals tell a caller whether an operation is allowed. -/
theorem allowed_iff (hinv : BookInvariant slab book queues) (op : BookOp) :
    op.Allowed slab book ↔ op.accepted slab book = true := by
  cases op with
  | prepare slot order => simp [BookOp.Allowed, BookOp.accepted, hinv.inBook_iff_find]
  | add slot =>
      simp only [BookOp.Allowed, BookOp.accepted, hinv.inBook_iff_find, hinv.levelHasRoom_iff,
        Bool.and_eq_true, decide_eq_true_eq]
      constructor
      · rintro ⟨hactive, hvalid, hquantity, _, hnew, hroom⟩
        exact ⟨⟨⟨⟨hactive, hvalid⟩, hquantity⟩, hnew⟩, hroom⟩
      · rintro ⟨⟨⟨⟨hactive, hvalid⟩, hquantity⟩, hnew⟩, hroom⟩
        exact ⟨hactive, hvalid, hquantity, by simp [hnew], hnew, hroom⟩
  | cancelId id => simp [BookOp.Allowed, BookOp.accepted]
  | cancel slot => simp [BookOp.Allowed, BookOp.accepted, hinv.inBook_iff_find]
  | reduce slot newQty => simp [BookOp.Allowed, BookOp.accepted, hinv.inBook_iff_find]
  | fill slot fillQty =>
      simp [BookOp.Allowed, BookOp.accepted, hinv.inBook_iff_find, and_assoc]
  | popBid => simp [BookOp.Allowed, BookOp.accepted]
  | popAsk => simp [BookOp.Allowed, BookOp.accepted]
  | clear => simp [BookOp.Allowed, BookOp.accepted]

end BookInvariant

/-- Operations one after another. -/
def BookOp.applyAll (state : Slab × OrderBook) (ops : List BookOp) : Slab × OrderBook :=
  ops.foldl (fun state op => op.apply state.1 state.2) state

/-- Every operation passes a test when its turn comes. -/
def BookOp.all (test : Slab → OrderBook → BookOp → Bool) : Slab × OrderBook → List BookOp → Bool
  | _, [] => true
  | state, op :: ops =>
      test state.1 state.2 op && BookOp.all test (op.apply state.1 state.2) ops

theorem BookRun.applyAll {instrumentId : InstrumentId} {grid : PriceGrid}
    {state : Slab × OrderBook} (hrun : BookRun instrumentId grid state.1 state.2)
    (ops : List BookOp)
    (hall : BookOp.all (fun slab book op => op.accepted slab book && op.sided slab) state ops =
      true) :
    BookRun instrumentId grid (BookOp.applyAll state ops).1 (BookOp.applyAll state ops).2 := by
  induction ops generalizing state with
  | nil => exact hrun
  | cons op ops ih =>
      simp only [BookOp.all, Bool.and_eq_true] at hall
      rcases hall with ⟨⟨haccepted, hsided⟩, hrest⟩
      obtain ⟨_, queues, hinv⟩ := hrun.bookInvariant
      have hallowed := (hinv.allowed_iff op).mpr haccepted
      exact ih (hrun.step op hallowed hsided) hrest

/-- A grid of eleven prices. -/
def sampleGrid : PriceGrid where
  minPrice := 100
  maxPrice := 110
  tickSize := 1
  min_lt_max := by decide
  tick_pos := by decide

/-- An order is written into a slot and added. -/
def prepareAndAdd (slot : Slot) (orderId : OrderId) (side : Side) (price : Price)
    (quantity : Quantity) : List BookOp :=
  [.prepare slot
      { Order.reset with orderId := orderId, side := side, price := price, quantity := quantity },
    .add slot]

def sampleStart : Slab × OrderBook := (fun _ => Order.zeroed, OrderBook.new 1 sampleGrid)

/-- Four bids join one level.  One is cancelled, one is reduced and then popped, and one is
filled in part. -/
def sampleOps : List BookOp :=
  prepareAndAdd 0 1 .buy 105 10 ++ prepareAndAdd 1 2 .buy 105 20 ++
    prepareAndAdd 2 3 .buy 105 30 ++ prepareAndAdd 3 4 .buy 105 40 ++
    prepareAndAdd 4 5 .sell 108 50 ++ [.cancelId 2, .reduce 0 7, .fill 2 12, .popBid]

theorem bookRun_representationInvariant_sample :
    ((BookOp.applyAll sampleStart sampleOps).2.bidLevelAt 105).orderCount = 2 ∧
      (BookOp.applyAll sampleStart sampleOps).2.liveOrderCount = 3 ∧
      ∃ queues, RepresentationInvariant sampleGrid (BookOp.applyAll sampleStart sampleOps).1
        (BookOp.applyAll sampleStart sampleOps).2 queues := by
  have hrun : BookRun 1 sampleGrid sampleStart.1 sampleStart.2 := .start _
  refine ⟨by decide +kernel, by decide +kernel, ?_⟩
  exact bookRun_representationInvariant (hrun.applyAll sampleOps (by decide +kernel))

end NanoMatch
