import NanoMatch.BookPriority

/-!
# A book refines its priority lists

Every operation of a book answers what the priority lists answer and leaves the lists
which they become, so that a caller who sees the answers and the queries alone cannot
tell the book from its two lists.
-/

namespace NanoMatch

open OrderBook PriorityLevels

/-! ## Queries -/

section Queries

variable {slab : Slab} {book : OrderBook} {queues : Queues} {side : BookSide}

theorem LevelsRep.mem_listed {grid : PriceGrid} {levels : BookSide → ℕ → PriceLevel}
    (hlevels : LevelsRep slab grid levels queues) {order : RestingOrder} :
    order ∈ listed grid slab queues side ↔
      ∃ i, ∃ slot ∈ queues side i, (slab slot).view = order := by
  unfold listed inOrder viewed
  rw [List.mem_flatMap]
  constructor
  · rintro ⟨i, _, horder⟩
    rcases List.mem_map.mp horder with ⟨slot, hslot, hview⟩
    exact ⟨i, slot, hslot, hview⟩
  · rintro ⟨i, slot, hslot, hview⟩
    have hrange := hlevels.range (List.ne_nil_of_mem hslot)
    exact ⟨i, side.mem_levels.mpr hrange, List.mem_map.mpr ⟨slot, hslot, hview⟩⟩

theorem BookInvariant.find_listed (hinv : BookInvariant slab book queues) (id : OrderId) :
    (listed book.grid slab queues).find id =
      (book.findOrder id).map fun slot => (slab slot).view := by
  have hmem : ∀ order, order ∈ listed book.grid slab queues .bid ++
      listed book.grid slab queues .ask ↔
        ∃ side i, ∃ slot ∈ queues side i, (slab slot).view = order := by
    intro order
    rw [List.mem_append, hinv.toLevelsRep.mem_listed, hinv.toLevelsRep.mem_listed]
    constructor
    · rintro (hbid | hask)
      · exact ⟨.bid, hbid⟩
      · exact ⟨.ask, hask⟩
    · rintro ⟨side, hside⟩
      cases side with
      | bid => exact Or.inl hside
      | ask => exact Or.inr hside
  unfold PriorityBook.find
  cases hfound : book.findOrder id with
  | none =>
      rw [Option.map_none, List.find?_eq_none]
      intro order horder hid
      rcases (hmem order).mp horder with ⟨side, i, slot, hslot, rfl⟩
      have hindexed := hinv.complete side i slot hslot
      rw [show (slab slot).orderId = id from of_decide_eq_true hid, hfound] at hindexed
      exact absurd hindexed (by simp)
  | some slot =>
      obtain ⟨⟨side, i, hslot⟩, hid⟩ := hinv.indexed id slot hfound
      have hlisted := (hmem (slab slot).view).mpr ⟨side, i, slot, hslot, rfl⟩
      rw [Option.map_some]
      cases hfirst : List.find? (fun order : RestingOrder => decide (order.orderId = id))
          (listed book.grid slab queues .bid ++ listed book.grid slab queues .ask) with
      | none =>
          rw [List.find?_eq_none] at hfirst
          exact absurd (decide_eq_true hid) (hfirst _ hlisted)
      | some order =>
          -- no other order has this id
          rcases (hmem order).mp (List.mem_of_find?_eq_some hfirst) with
            ⟨side', j, other, hother, rfl⟩
          have hsame : (slab other).orderId = (slab slot).orderId := by
            have hfits := List.find?_some hfirst
            rw [hid]
            exact of_decide_eq_true hfits
          rw [hinv.unique_id hslot hother hsame]

theorem BookSide.levels_perm (side : BookSide) (n : ℕ) : (side.levels n).Perm (List.range n) := by
  cases side with
  | bid => exact List.reverse_perm _
  | ask => exact List.Perm.refl _

/-- A total over the orders of a side, level by level. -/
theorem sum_listed (grid : PriceGrid) (slab : Slab) (queues : Queues) (side : BookSide)
    (size : RestingOrder → ℕ) :
    ((listed grid slab queues side).map size).sum =
      ((List.range grid.numLevels).map
        fun i => ((viewed slab queues side i).map size).sum).sum := by
  rw [listed, sum_inOrder]
  exact ((side.levels_perm grid.numLevels).map _).sum_eq

/-- The cursor of a side and the head of its list. -/
theorem BookInvariant.cursor_cases (hinv : BookInvariant slab book queues) (side : BookSide) :
    book.bestIdx side = none ∧ listed book.grid slab queues side = [] ∨
      ∃ best order rest, book.bestIdx side = some best ∧
        listed book.grid slab queues side = order :: rest ∧
        order.price = book.grid.indexToPrice best := by
  have hbest := hinv.best side
  cases hcursor : book.bestIdx side with
  | none =>
      rw [hcursor] at hbest
      refine Or.inl ⟨rfl, List.flatMap_eq_nil_iff.mpr ?_⟩
      intro i _
      rw [viewed, hbest i]
      rfl
  | some best =>
      rw [hcursor] at hbest
      cases hqueue : queues side best with
      | nil => exact absurd hqueue hbest.1
      | cons slot rest =>
          have hhead := (hinv.listed_pop hcursor hqueue (fun _ => rfl) (fun _ => rfl)).1
          refine Or.inr ⟨best, _, _, rfl, hhead, ?_⟩
          apply (hinv.placed side best slot _).price_eq
          rw [hqueue]
          simp

theorem sideLevels_levelAt (book : OrderBook) (side : BookSide) (i : ℕ) :
    book.levelAt side (book.grid.indexToPrice i) = book.sideLevels side i := by
  cases side <;> simp [OrderBook.levelAt, OrderBook.bidLevelAt, OrderBook.askLevelAt,
    OrderBook.sideLevels]

theorem BookInvariant.filter_listed (hinv : BookInvariant slab book queues) (side : BookSide)
    {i : ℕ} (hi : i < book.grid.numLevels) :
    (listed book.grid slab queues side).filter
      (fun order => order.price = book.grid.indexToPrice i) = viewed slab queues side i :=
  (hinv.toLevelsRep.ranked side).filter_key (side.mem_levels.mpr hi)

theorem range_split {k n : ℕ} (hle : k ≤ n) :
    List.range n = List.range k ++ List.range' k (n - k) := by
  rw [List.range_eq_range', List.range_eq_range']
  have happend := List.range'_append_1 (s := 0) (m := k) (n := n - k)
  rw [Nat.zero_add, Nat.add_sub_cancel' hle] at happend
  exact happend.symm

theorem filter_le_range {k n : ℕ} (hle : k ≤ n) :
    ((List.range n).filter fun i => decide (k ≤ i)) = List.range' k (n - k) := by
  rw [range_split hle, List.filter_append, List.filter_eq_nil_iff.mpr, List.nil_append,
    List.filter_eq_self.mpr]
  · intro i hi
    exact decide_eq_true (List.mem_range'_1.mp hi).1
  · intro i hi
    simpa using List.mem_range.mp hi

theorem filter_range_le {k n : ℕ} (hlt : k < n) :
    ((List.range n).filter fun i => decide (i ≤ k)) = List.range (k + 1) := by
  rw [range_split hlt, List.filter_append, List.filter_eq_self.mpr, List.filter_eq_nil_iff.mpr,
    List.append_nil]
  · intro i hi
    have hbeyond := (List.mem_range'_1.mp hi).1
    simp
    omega
  · intro i hi
    have hwithin := List.mem_range.mp hi
    simp
    omega

theorem sum_map_filter {ι : Type*} {p : ι → Bool} {f : ι → ℕ} {list : List ι}
    (hzero : ∀ i, p i = false → f i = 0) : ((list.filter p).map f).sum = (list.map f).sum := by
  induction list with
  | nil => rfl
  | cons i list ih =>
      cases hp : p i with
      | false => rw [List.filter_cons_of_neg (by simp [hp]), ih, List.map_cons, List.sum_cons,
          hzero i hp, Nat.zero_add]
      | true => rw [List.filter_cons_of_pos hp, List.map_cons, List.map_cons, List.sum_cons,
          List.sum_cons, ih]

/-- The index is not in front of the cursor. -/
def OrderBook.inSweep (book : OrderBook) (side : BookSide) (i : ℕ) : Bool :=
  (book.bestIdx side).any fun best =>
    !side.beats (book.grid.indexToPrice i) (book.grid.indexToPrice best)

theorem BookInvariant.sweepSpan_eq (hinv : BookInvariant slab book queues) (side : BookSide) :
    book.sweepSpan side =
      ((List.range book.grid.numLevels).filter (book.inSweep side)).map
        (book.sideLevels side) := by
  have hbest := hinv.best side
  cases hcursor : book.bestIdx side with
  | none =>
      have hnone : book.inSweep side = fun _ => false := by
        funext i
        simp [OrderBook.inSweep, hcursor]
      rw [hnone, List.filter_eq_nil_iff.mpr (by simp), List.map_nil]
      cases side with
      | ask => simp only [OrderBook.sweepSpan, OrderBook.askSweepSpan,
          show book.bestAskIdx = none from hcursor]
      | bid => simp only [OrderBook.sweepSpan, OrderBook.bidSweepSpan,
          show book.bestBidIdx = none from hcursor]
  | some best =>
      rw [hcursor] at hbest
      have hrange := hinv.toLevelsRep.range hbest.1
      cases side with
      | ask =>
          have hsame : book.inSweep .ask = fun i => decide (best ≤ i) := by
            funext i
            simp [OrderBook.inSweep, hcursor, BookSide.beats, book.grid.indexToPrice_lt_iff,
              ← decide_not]
          rw [hsame, filter_le_range hrange.le]
          simp only [OrderBook.sweepSpan, OrderBook.askSweepSpan,
            show book.bestAskIdx = some best from hcursor]
          rfl
      | bid =>
          have hsame : book.inSweep .bid = fun i => decide (i ≤ best) := by
            funext i
            simp [OrderBook.inSweep, hcursor, BookSide.beats, book.grid.indexToPrice_lt_iff,
              ← decide_not]
          rw [hsame, filter_range_le hrange]
          simp only [OrderBook.sweepSpan, OrderBook.bidSweepSpan,
            show book.bestBidIdx = some best from hcursor]
          rfl

/-- The levels in front of the cursor are empty. -/
theorem BookInvariant.queue_of_not_inSweep (hinv : BookInvariant slab book queues)
    {i : ℕ} (hfront : book.inSweep side i = false) : queues side i = [] := by
  have hbest := hinv.best side
  unfold OrderBook.inSweep at hfront
  cases hcursor : book.bestIdx side with
  | none =>
      rw [hcursor] at hbest
      exact hbest i
  | some best =>
      rw [hcursor] at hbest hfront
      rw [Option.any_some, Bool.not_eq_false', side.beats_index] at hfront
      by_contra hne
      exact hbest.2 i hne hfront

theorem BookInvariant.sweepSpan_sum (hinv : BookInvariant slab book queues) (side : BookSide) :
    ((book.sweepSpan side).map fun level => level.totalQty.toNat).sum =
      ((List.range book.grid.numLevels).map fun i => restingQty slab (queues side i)).sum := by
  have htotal : ∀ i, (book.sideLevels side i).totalQty.toNat = restingQty slab (queues side i) :=
    fun i => (hinv.level side i).total
  rw [hinv.sweepSpan_eq, List.map_map]
  simp only [Function.comp_def, htotal]
  apply sum_map_filter
  intro i hfront
  rw [hinv.queue_of_not_inSweep hfront]
  rfl

/-- The cached total and count of a level are those of the orders at its price. -/
theorem BookInvariant.level_listed (hinv : BookInvariant slab book queues) (side : BookSide)
    {i : ℕ} (hi : i < book.grid.numLevels) :
    (book.sideLevels side i).totalQty.toNat =
        (((listed book.grid slab queues side).filter
          fun order => order.price = book.grid.indexToPrice i).map RestingOrder.remaining).sum ∧
      (book.sideLevels side i).orderCount.toNat =
        (listed book.grid slab queues side).countP
          fun order => order.price = book.grid.indexToPrice i := by
  rw [List.countP_eq_length_filter, hinv.filter_listed side hi, (hinv.level side i).total,
    (hinv.level side i).count]
  simp [viewed, restingQty, Order.view, Function.comp_def]

theorem BookInvariant.sweepPrices (hinv : BookInvariant slab book queues) (side : BookSide) :
    (book.sweepSpan side).map PriceLevel.price =
      ((List.range book.grid.numLevels).map book.grid.indexToPrice).filter fun price =>
        (listed book.grid slab queues side).head?.any fun best =>
          !side.beats price best.price := by
  have hpriced : ∀ i, (book.sideLevels side i).price = book.grid.indexToPrice i :=
    hinv.priced side
  have hhead : book.inSweep side = fun i =>
      (listed book.grid slab queues side).head?.any fun best =>
        !side.beats (book.grid.indexToPrice i) best.price := by
    funext i
    unfold OrderBook.inSweep
    rcases hinv.cursor_cases side with ⟨hcursor, hnil⟩ | ⟨best, order, rest, hcursor, hlist, hprice⟩
    · rw [hcursor, hnil]
      rfl
    · rw [hcursor, hlist, List.head?_cons, Option.any_some, Option.any_some, hprice]
  rw [hinv.sweepSpan_eq, List.map_map, List.filter_map, hhead]
  simp only [Function.comp_def, hpriced]

theorem BookInvariant.quotes (hinv : BookInvariant slab book queues) :
    Quotes slab book (listed book.grid slab queues) := by
  have hside : ∀ side, (book.bestIdx side).isSome =
      !(listed book.grid slab queues side).isEmpty := by
    intro side
    rcases hinv.cursor_cases side with ⟨hcursor, hnil⟩ | ⟨best, order, rest, hcursor, hlist, _⟩
    · rw [hcursor, hnil]
      rfl
    · rw [hcursor, hlist]
      rfl
  have hlength : ∀ side, (listed book.grid slab queues side).length =
      ((List.range book.grid.numLevels).flatMap (queues side)).length := by
    intro side
    have hsum := sum_listed book.grid slab queues side (fun _ => 1)
    rw [List.length_flatMap]
    simpa [viewed, Function.comp_def] using hsum
  constructor
  · intro side
    unfold OrderBook.bestPrice OrderBook.bestLevel
    rcases hinv.cursor_cases side with ⟨hcursor, hnil⟩ | ⟨best, order, rest, hcursor, hlist, hprice⟩
    · rw [hcursor, hnil]
      rfl
    · rw [hcursor, hlist]
      exact (hinv.priced side best).trans hprice.symm
  · exact hside .bid
  · exact hside .ask
  · have hbid : book.hasBids = !(listed book.grid slab queues .bid).isEmpty := hside .bid
    have hask : book.hasAsks = !(listed book.grid slab queues .ask).isEmpty := hside .ask
    rw [OrderBook.isEmpty, hbid, hask, Bool.not_not, Bool.not_not]
  · rw [liveOrderCount_eq hinv.toBookShape hinv.complete, hlength, hlength]
    exact List.length_append
  · intro id
    exact (hinv.find_listed id).symm
  · intro id
    rw [hinv.find_listed, Option.isSome_map]
    unfold OrderBook.hasOrder OrderBook.findOrder OrderIndex.find
    rw [Bool.eq_iff_iff, decide_eq_true_iff, AList.lookup_isSome]
  · intro side price hvalid
    obtain ⟨i, hi, rfl⟩ := (book.grid.isValidPrice_iff price).mp hvalid
    rw [sideLevels_levelAt]
    exact (hinv.level_listed side hi).1
  · intro side price hvalid
    obtain ⟨i, hi, rfl⟩ := (book.grid.isValidPrice_iff price).mp hvalid
    rw [sideLevels_levelAt]
    exact (hinv.level_listed side hi).2
  · exact hinv.sweepPrices
  · intro side level hlevel
    rw [hinv.sweepSpan_eq] at hlevel
    rcases List.mem_map.mp hlevel with ⟨i, hi, rfl⟩
    rw [hinv.priced side i]
    exact hinv.level_listed side (List.mem_range.mp (List.mem_filter.mp hi).1)
  · intro side
    rw [hinv.sweepSpan_sum, sum_listed]
    simp [viewed, restingQty, Order.view, Function.comp_def]

end Queries

/-! ## Operations -/

theorem PriorityBook.amend_of_find_none {orders : PriorityBook} {id : OrderId}
    (hnone : orders.find id = none) (change : ℕ → ℕ) : orders.amend id change = orders := by
  unfold PriorityBook.find at hnone
  rw [List.find?_eq_none] at hnone
  have hsame : ∀ list, list ⊆ orders .bid ++ orders .ask →
      list.filterMap (PriorityBook.amended id change) = list := by
    intro list hsubset
    have hkept : list.filterMap (PriorityBook.amended id change) = list.filterMap some := by
      apply List.filterMap_congr
      intro order horder
      have hid := hnone order (hsubset horder)
      exact if_neg (of_decide_eq_false (Bool.eq_false_iff.mpr hid))
    rw [hkept, List.filterMap_some]
  funext side
  cases side with
  | bid => exact hsame _ (List.subset_append_left _ _)
  | ask => exact hsame _ (List.subset_append_right _ _)

section Operations

variable {slab : Slab} {book : OrderBook} {queues : Queues} {side : BookSide} {slot : Slot}

/-- The book after an operation, with its lists and the answer. -/
structure Performs (op : BookOp) (slab : Slab) (book : OrderBook) (queues queues' : Queues) :
    Prop where
  invariant : BookInvariant (op.apply slab book).1 (op.apply slab book).2 queues'
  lists : ∀ request, op.request slab = some request →
    (listed book.grid slab queues).step request =
      (op.answer slab book, listed book.grid (op.apply slab book).1 queues')
  silent : op.request slab = none →
    listed book.grid (op.apply slab book).1 queues' = listed book.grid slab queues

theorem Performs.answered {op : BookOp} {queues' : Queues} {request : PriorityOp}
    (hrequest : op.request slab = some request)
    (hinv : BookInvariant (op.apply slab book).1 (op.apply slab book).2 queues')
    (hstep : (listed book.grid slab queues).step request =
      (op.answer slab book, listed book.grid (op.apply slab book).1 queues')) :
    Performs op slab book queues queues' := by
  refine ⟨hinv, ?_, ?_⟩
  · intro other hother
    rw [hrequest, Option.some.injEq] at hother
    rw [← hother]
    exact hstep
  · intro hnone
    rw [hrequest] at hnone
    exact absurd hnone (by simp)

theorem BookInvariant.performs_prepare (hinv : BookInvariant slab book queues)
    (hfree : ¬ InBook slab book slot) (order : Order) :
    Performs (.prepare slot order) slab book queues queues := by
  have hslot : ∀ side i, slot ∉ queues side i := by
    intro side i hslot
    exact hfree (hinv.inBook_iff.mpr ⟨side, i, hslot⟩)
  refine ⟨hinv.prepare hslot order, fun _ hnone => absurd hnone (by simp [BookOp.request]), ?_⟩
  intro _
  funext side
  apply inOrder_congr
  intro i _
  apply List.map_congr_left
  intro other hother
  have hne : other ≠ slot := by
    rintro rfl
    exact hslot side i hother
  simp [BookOp.apply, hne]

theorem BookInvariant.performs_add (hinv : BookInvariant slab book queues)
    (hallowed : (BookOp.add slot).Allowed slab book) :
    ∃ queues', Performs (.add slot) slab book queues queues' := by
  obtain ⟨_, hvalid, hquantity, hfree, hnew, hroom⟩ := hallowed
  have hfresh : ∀ side i, slot ∉ queues side i := by
    intro side i hslot
    exact hfree (hinv.inBook_iff.mpr ⟨side, i, hslot⟩)
  have hrelinked := hinv.toBookShape.addOrder_relinked hvalid rfl rfl
  have hadded := BookInvariant.of_shape (hinv.add hvalid hquantity hfree hnew hroom)
    (hinv.toBookShape.addOrder hvalid rfl rfl hfresh)
  have hlisted := hinv.listed_add hvalid hrelinked.terms hrelinked.quantity rfl rfl
  exact ⟨_, .answered rfl hadded (Prod.ext rfl hlisted.symm)⟩

/-- The book after the order of a slot is amended, by whatever operation. -/
theorem BookInvariant.cancelOrder_amends (hinv : BookInvariant slab book queues)
    (hslot : InBook slab book slot) :
    ∃ queues', BookInvariant (cancelOrder slab book (some slot)).1
        (cancelOrder slab book (some slot)).2 queues' ∧
      listed book.grid (cancelOrder slab book (some slot)).1 queues' =
        (listed book.grid slab queues).amend (slab slot).orderId fun _ => 0 := by
  obtain ⟨side, i, before, after, hqueue⟩ := hinv.split_of_inBook hslot
  obtain ⟨_, hrelinked, _, _⟩ := hinv.toBookRep.cancelOrder hqueue
  refine ⟨_, hinv.cancel hqueue, ?_⟩
  exact hinv.listed_amend hqueue hrelinked.terms (fun other _ => hrelinked.quantity other)
    (fun hne => absurd rfl hne) rfl

theorem BookInvariant.performs_cancel (hinv : BookInvariant slab book queues)
    (hslot : InBook slab book slot) :
    ∃ queues', Performs (.cancel slot) slab book queues queues' := by
  obtain ⟨queues', hinv', hlisted⟩ := hinv.cancelOrder_amends hslot
  exact ⟨queues', .answered rfl hinv' (Prod.ext rfl hlisted.symm)⟩

theorem BookInvariant.performs_cancelId (hinv : BookInvariant slab book queues) (id : OrderId) :
    ∃ queues', Performs (.cancelId id) slab book queues queues' := by
  have hfind := hinv.find_listed id
  cases hfound : book.orderIndex.find id with
  | none =>
      have hnone : (listed book.grid slab queues).find id = none := by
        rw [hfind, OrderBook.findOrder, hfound]
        rfl
      have hresult : cancelOrderById slab book id = (false, slab, book) := by
        simp only [cancelOrderById, hfound]
      refine ⟨queues, .answered rfl ?_ ?_⟩
      · simp only [BookOp.apply, hresult]
        exact hinv
      · simp only [PriorityBook.step, BookOp.answer, BookOp.apply, hresult, hnone,
          PriorityBook.amend_of_find_none hnone]
        rfl
  | some slot =>
      obtain ⟨⟨side, i, hslot⟩, hid⟩ := hinv.indexed id slot hfound
      obtain ⟨queues', hinv', hlisted⟩ :=
        hinv.cancelOrder_amends (hinv.inBook_iff.mpr ⟨side, i, hslot⟩)
      have hresult : cancelOrderById slab book id =
          (true, cancelOrder slab book (some slot)) := by
        simp only [cancelOrderById, hfound]
      have hsome : ((listed book.grid slab queues).find id).isSome = true := by
        rw [hfind, OrderBook.findOrder, hfound]
        rfl
      refine ⟨queues', .answered rfl ?_ ?_⟩
      · simp only [BookOp.apply, hresult]
        exact hinv'
      · simp only [PriorityBook.step, BookOp.answer, BookOp.apply, hresult, hsome, hlisted, hid]

/-- A fill amends the order, and so does everything which is a fill up to the status. -/
theorem BookInvariant.filled_amends (hinv : BookInvariant slab book queues) {i : ℕ}
    {before after : List Slot} (hqueue : queues side i = before ++ slot :: after)
    {fillQty : Quantity} (hfill : fillQty ≤ (slab slot).quantity)
    {result : Bool × Slab × OrderBook}
    (hfilled : BookRep.Filled slab book queues side i before slot after fillQty result)
    (change : ℕ → ℕ)
    (hchange : change (slab slot).remaining = (slab slot).remaining - fillQty.toNat) :
    listed book.grid result.2.1 (if result.1 then queues.set side i (before ++ after) else queues) =
      (listed book.grid slab queues).amend (slab slot).orderId change := by
  have hle := UInt32.le_iff_toNat_le.mp hfill
  have hdone : result.1 = true ↔ change (slab slot).remaining = 0 := by
    rw [hfilled.done_iff, hchange, ← UInt32.toNat_inj]
    unfold Order.remaining
    omega
  apply hinv.listed_amend hqueue hfilled.terms
  · intro other hne
    rw [hfilled.quantity, if_neg hne]
  · intro _
    rw [hchange]
    unfold Order.remaining
    rw [hfilled.quantity, if_pos rfl, UInt32.toNat_sub_of_le _ _ hfill]
  · by_cases hzero : change (slab slot).remaining = 0
    · rw [if_pos hzero, if_pos (hdone.mpr hzero)]
    · rw [if_neg hzero, if_neg (fun htrue => hzero (hdone.mp htrue))]

theorem BookInvariant.performs_fill (hinv : BookInvariant slab book queues) {fillQty : Quantity}
    (hslot : InBook slab book slot) (hfill : fillQty ≤ (slab slot).quantity) :
    ∃ queues', Performs (.fill slot fillQty) slab book queues queues' := by
  obtain ⟨side, i, before, after, hqueue⟩ := hinv.split_of_inBook hslot
  have hfilled := hinv.toBookRep.fillRestingOrder hqueue hfill
  refine ⟨_, .answered rfl (.of_shape (hinv.fill hqueue hfill) hfilled.rep.toBookShape) ?_⟩
  have hlisted := hinv.filled_amends hqueue hfill hfilled
    (fun remaining => remaining - fillQty.toNat) rfl
  have hmem : slot ∈ queues side i := by
    rw [hqueue]
    simp
  have hfind := hinv.find_listed (slab slot).orderId
  rw [hinv.complete side i slot hmem] at hfind
  have hanswer : decide ((((listed book.grid slab queues).find (slab slot).orderId).map
      RestingOrder.remaining) = some fillQty.toNat) =
        (fillRestingOrder slab book (some slot) fillQty).1 := by
    rw [Bool.eq_iff_iff, decide_eq_true_iff, hfilled.done_iff, ← UInt32.toNat_inj, hfind,
      Option.map_some, Option.map_some, Option.some.injEq]
    exact eq_comm
  simp only [PriorityBook.step, BookOp.answer, BookOp.apply]
  rw [hanswer, hlisted]

theorem listed_setStatus (grid : PriceGrid) (slab : Slab) (queues : Queues) (slot : Slot)
    (status : OrderStatus) :
    listed grid (slab.setStatus slot status) queues = listed grid slab queues := by
  funext side
  apply inOrder_congr
  intro i _
  apply List.map_congr_left
  intro other _
  exact Order.view_congr (slab.terms_setStatus slot other status)
    (slab.quantity_setStatus slot other status)

theorem BookInvariant.performs_reduce (hinv : BookInvariant slab book queues) {newQty : Quantity}
    (hslot : InBook slab book slot) (hnew : newQty ≤ (slab slot).quantity) :
    ∃ queues', Performs (.reduce slot newQty) slab book queues queues' := by
  obtain ⟨side, i, before, after, hqueue⟩ := hinv.split_of_inBook hslot
  obtain ⟨status, hreduced⟩ := hinv.reduceOrderQty_eq hqueue hnew
  have hdelta : (slab slot).quantity - newQty ≤ (slab slot).quantity := by
    rw [UInt32.le_iff_toNat_le, UInt32.toNat_sub_of_le _ _ hnew]
    omega
  have hfilled := hinv.toBookRep.fillRestingOrder hqueue hdelta
  have hleft : newQty.toNat =
      (slab slot).remaining - ((slab slot).quantity - newQty).toNat := by
    have hle := UInt32.le_iff_toNat_le.mp hnew
    unfold Order.remaining
    rw [UInt32.toNat_sub_of_le _ _ hnew]
    omega
  have hlisted := hinv.filled_amends hqueue hdelta hfilled (fun _ => newQty.toNat) hleft
  have hreduce := hinv.reduce hqueue hnew
  rw [hreduced] at hreduce
  have hinv' := BookInvariant.of_shape hreduce (hfilled.rep.toBookShape.setStatus slot status)
  generalize fillRestingOrder slab book (some slot) ((slab slot).quantity - newQty) = result
    at hreduced hlisted hinv'
  refine ⟨if result.1 then queues.set side i (before ++ after) else queues,
    .answered rfl ?_ ?_⟩
  · simp only [BookOp.apply, hreduced]
    exact hinv'
  · simp only [PriorityBook.step, BookOp.answer, BookOp.apply, hreduced, listed_setStatus]
    rw [hlisted]

theorem BookInvariant.performs_pop (hinv : BookInvariant slab book queues) (side : BookSide) :
    ∃ queues', BookInvariant (popBestHead slab book side).2.1
        (popBestHead slab book side).2.2 queues' ∧
      (listed book.grid slab queues).step (.pop side) =
        (.popped (poppedView (popBestHead slab book side)),
          listed book.grid (popBestHead slab book side).2.1 queues') := by
  have hbest := hinv.best side
  cases hcursor : book.bestIdx side with
  | none =>
      rw [hcursor] at hbest
      have hresult : popBestHead slab book side = (none, slab, book) := by
        simp only [popBestHead, hcursor]
      have hnil : listed book.grid slab queues side = [] := by
        apply List.flatMap_eq_nil_iff.mpr
        intro i _
        rw [viewed, hbest i]
        rfl
      refine ⟨queues, ?_, ?_⟩
      · rw [hresult]
        exact hinv
      · simp only [PriorityBook.step, hresult, hnil]
        have hsame := Function.update_eq_self side (listed book.grid slab queues)
        rw [hnil] at hsame
        exact Prod.ext rfl hsame
  | some best =>
      rw [hcursor] at hbest
      cases hqueue : queues side best with
      | nil => exact absurd hqueue hbest.1
      | cons slot rest =>
          obtain ⟨status, hpopped⟩ := hinv.popBestHead_eq hcursor hqueue
          have hsplit : queues side best = [] ++ slot :: rest := hqueue
          obtain ⟨_, hrelinked, _, _⟩ := hinv.toBookRep.cancelOrder hsplit
          obtain ⟨hhead, hothers⟩ := hinv.listed_pop hcursor hqueue hrelinked.terms
            hrelinked.quantity
          have hcancelled := hinv.cancel hsplit
          refine ⟨queues.set side best rest, ?_, ?_⟩
          · rw [hpopped]
            exact hcancelled.setStatus slot status
          · simp only [PriorityBook.step, hpopped, poppedView, listed_setStatus, hhead,
              List.head?_cons, List.tail_cons, Option.map_some]
            have hview : ((cancelOrder slab book (some slot)).1.setStatus slot status slot).view =
                ((cancelOrder slab book (some slot)).1 slot).view :=
              Order.view_congr (Slab.terms_setStatus _ slot slot status)
                (Slab.quantity_setStatus _ slot slot status)
            have hlists : Function.update (listed book.grid slab queues) side
                (listed book.grid (cancelOrder slab book (some slot)).1
                  (queues.set side best rest) side) =
                listed book.grid (cancelOrder slab book (some slot)).1
                  (queues.set side best rest) := by
              funext side'
              by_cases hsame : side' = side
              · rw [hsame, Function.update_self]
              · rw [Function.update_of_ne hsame]
                exact (hothers side' hsame).symm
            rw [hview, hlists]

theorem BookInvariant.performs_clear (hinv : BookInvariant slab book queues) :
    Performs .clear slab book queues fun _ _ => [] := by
  have hempty : listed book.grid slab (fun _ _ => []) = PriorityBook.empty := by
    funext side
    exact List.flatMap_eq_nil_iff.mpr fun _ _ => rfl
  exact .answered rfl (bookInvariant_clear _ hinv.priced) (Prod.ext rfl hempty.symm)

/-- Every operation on the book is its request on the lists. -/
theorem BookInvariant.performs (hinv : BookInvariant slab book queues) (op : BookOp)
    (hallowed : op.Allowed slab book) : ∃ queues', Performs op slab book queues queues' := by
  cases op with
  | prepare slot order => exact ⟨queues, hinv.performs_prepare hallowed order⟩
  | add slot => exact hinv.performs_add hallowed
  | cancelId id => exact hinv.performs_cancelId id
  | cancel slot => exact hinv.performs_cancel hallowed
  | reduce slot newQty => exact hinv.performs_reduce hallowed.1 hallowed.2
  | fill slot fillQty => exact hinv.performs_fill hallowed.1 hallowed.2.2
  | popBid =>
      obtain ⟨queues', hinv', hstep⟩ := hinv.performs_pop .bid
      exact ⟨queues', .answered rfl hinv' hstep⟩
  | popAsk =>
      obtain ⟨queues', hinv', hstep⟩ := hinv.performs_pop .ask
      exact ⟨queues', .answered rfl hinv' hstep⟩
  | clear => exact ⟨_, hinv.performs_clear⟩

end Operations

/-! ## Runs -/

/-- A run of public operations, with the requests and answers so far. -/
inductive ObservedRun (instrumentId : InstrumentId) (grid : PriceGrid) :
    List PriorityOp → List Answer → Slab → OrderBook → Prop
  | start (slab : Slab) :
      ObservedRun instrumentId grid [] [] slab (OrderBook.new instrumentId grid)
  | silent {requests : List PriorityOp} {answers : List Answer} {slab : Slab}
      {book : OrderBook} (op : BookOp)
      (hrun : ObservedRun instrumentId grid requests answers slab book)
      (hallowed : op.Allowed slab book) (hsilent : op.request slab = none) :
      ObservedRun instrumentId grid requests answers (op.apply slab book).1
        (op.apply slab book).2
  | request {requests : List PriorityOp} {answers : List Answer} {slab : Slab}
      {book : OrderBook} (op : BookOp) (request : PriorityOp)
      (hrun : ObservedRun instrumentId grid requests answers slab book)
      (hallowed : op.Allowed slab book) (hrequest : op.request slab = some request) :
      ObservedRun instrumentId grid (requests ++ [request])
        (answers ++ [op.answer slab book]) (op.apply slab book).1 (op.apply slab book).2

theorem PriorityBook.run_snoc (orders : PriorityBook) (requests : List PriorityOp)
    (request : PriorityOp) :
    orders.run (requests ++ [request]) =
      ((orders.run requests).1 ++ [((orders.run requests).2.step request).1],
        ((orders.run requests).2.step request).2) := by
  simp [PriorityBook.run]

theorem ObservedRun.lists {instrumentId : InstrumentId} {grid : PriceGrid}
    {requests : List PriorityOp} {answers : List Answer} {slab : Slab} {book : OrderBook}
    (hrun : ObservedRun instrumentId grid requests answers slab book) :
    book.grid = grid ∧ ∃ queues, BookInvariant slab book queues ∧
      PriorityBook.empty.run requests = (answers, listed grid slab queues) := by
  induction hrun with
  | start slab =>
      refine ⟨rfl, _, bookInvariant_new slab instrumentId grid, ?_⟩
      have hempty : listed grid slab (fun _ _ => []) = PriorityBook.empty := by
        funext side
        exact List.flatMap_eq_nil_iff.mpr fun _ _ => rfl
      rw [hempty]
      rfl
  | silent op _ hallowed hsilent ih =>
      obtain ⟨hgrid, queues, hinv, hlists⟩ := ih
      obtain ⟨queues', hperforms⟩ := hinv.performs op hallowed
      refine ⟨(BookOp.apply_grid _ _ op).trans hgrid, queues', hperforms.invariant, ?_⟩
      have hsame := hperforms.silent hsilent
      rw [hgrid] at hsame
      rw [hlists, hsame]
  | request op request _ hallowed hrequest ih =>
      obtain ⟨hgrid, queues, hinv, hlists⟩ := ih
      obtain ⟨queues', hperforms⟩ := hinv.performs op hallowed
      refine ⟨(BookOp.apply_grid _ _ op).trans hgrid, queues', hperforms.invariant, ?_⟩
      have hstep := hperforms.lists request hrequest
      rw [hgrid] at hstep
      rw [PriorityBook.run_snoc, hlists, hstep]

/-- The requests of operations which are made one after another. -/
def BookOp.requests : Slab × OrderBook → List BookOp → List PriorityOp
  | _, [] => []
  | state, op :: ops =>
      (op.request state.1).toList ++ BookOp.requests (op.apply state.1 state.2) ops

def BookOp.answers : Slab × OrderBook → List BookOp → List Answer
  | _, [] => []
  | state, op :: ops =>
      ((op.request state.1).toList.map fun _ => op.answer state.1 state.2) ++
        BookOp.answers (op.apply state.1 state.2) ops

theorem ObservedRun.applyAll {instrumentId : InstrumentId} {grid : PriceGrid}
    {requests : List PriorityOp} {answers : List Answer} {state : Slab × OrderBook}
    (hrun : ObservedRun instrumentId grid requests answers state.1 state.2) (ops : List BookOp)
    (hall : BookOp.all BookOp.accepted state ops = true) :
    ObservedRun instrumentId grid (requests ++ BookOp.requests state ops)
      (answers ++ BookOp.answers state ops) (BookOp.applyAll state ops).1
      (BookOp.applyAll state ops).2 := by
  induction ops generalizing requests answers state with
  | nil =>
      rw [BookOp.requests, BookOp.answers, List.append_nil, List.append_nil]
      exact hrun
  | cons op ops ih =>
      simp only [BookOp.all, Bool.and_eq_true] at hall
      obtain ⟨_, queues, hinv, _⟩ := hrun.lists
      have hallowed := (hinv.allowed_iff op).mpr hall.1
      unfold BookOp.requests BookOp.answers
      rw [← List.append_assoc, ← List.append_assoc]
      apply ih _ hall.2
      cases hrequest : op.request state.1 with
      | none =>
          simp only [Option.toList_none, List.map_nil, List.append_nil]
          exact .silent op hrun hallowed hrequest
      | some request => exact .request op request hrun hallowed hrequest

/-- In every run of the public operations of a book, each used as the book expects it, every
answer is the answer of the priority lists, every query can be answered from them, and
no order stands behind a worse one. -/
theorem observedRun_refines {instrumentId : InstrumentId} {grid : PriceGrid}
    {requests : List PriorityOp} {answers : List Answer} {slab : Slab} {book : OrderBook}
    (hrun : ObservedRun instrumentId grid requests answers slab book) :
    (PriorityBook.empty.run requests).1 = answers ∧
      Quotes slab book (PriorityBook.empty.run requests).2 ∧
      ∀ side, ((PriorityBook.empty.run requests).2 side).Pairwise fun first second =>
        ¬ side.beats second.price first.price = true := by
  obtain ⟨hgrid, queues, hinv, hlists⟩ := hrun.lists
  rw [hlists, ← hgrid]
  exact ⟨rfl, hinv.quotes, fun side => (hinv.toLevelsRep.ranked side).pairwise_inOrder⟩

/-- What `sampleOps` asks of the lists. -/
def sampleRequests : List PriorityOp :=
  [.add .bid ⟨1, 105, 10⟩, .add .bid ⟨2, 105, 20⟩, .add .bid ⟨3, 105, 30⟩, .add .bid ⟨4, 105, 40⟩,
    .add .ask ⟨5, 108, 50⟩, .cancel 2, .reduce 1 7, .fill 3 12, .pop .bid]

theorem observedRun_refines_sample :
    (PriorityBook.empty.run sampleRequests).1 =
        [.done, .done, .done, .done, .done, .found true, .done, .filled false,
          .popped (some ⟨1, 105, 7⟩)] ∧
      (PriorityBook.empty.run sampleRequests).2 .bid = [⟨3, 105, 18⟩, ⟨4, 105, 40⟩] ∧
      Quotes (BookOp.applyAll sampleStart sampleOps).1 (BookOp.applyAll sampleStart sampleOps).2
        (PriorityBook.empty.run sampleRequests).2 := by
  have hstart : ObservedRun 1 sampleGrid [] [] sampleStart.1 sampleStart.2 := .start _
  have hrequests : BookOp.requests sampleStart sampleOps = sampleRequests := by decide +kernel
  have hrun := hstart.applyAll sampleOps (by decide +kernel)
  rw [List.nil_append, List.nil_append, hrequests] at hrun
  refine ⟨by decide +kernel, by decide +kernel, ?_⟩
  exact (observedRun_refines hrun).2.1

end NanoMatch
