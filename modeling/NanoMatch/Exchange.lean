import NanoMatch.Cancellable

/-!
# A naive exchange

The reference machine for the matching engine.  Its book is, for each
instrument and side, the list of resting orders in arrival order.  An incoming
order trades with the crossing orders of the other side, best price first and
earliest arrival first within a price.  There are no levels, cursors, cached
totals, index or slots.

The lemmas below describe the two changes of such a list, a trade and a
removal, price by price.
-/

namespace NanoMatch

structure RestingOrder where
  orderId : OrderId
  price : Price
  remaining : ℕ
  deriving DecidableEq, Repr

/-- A report without its timestamp. -/
structure Execution where
  kind : ExecKind
  orderId : OrderId
  counterpartOrderId : OrderId
  execPrice : Price
  execQuantity : ℕ
  leavesQuantity : ℕ
  deriving DecidableEq, Repr

structure Exchange where
  capacity : ℕ
  instruments : Finset InstrumentId
  book : InstrumentId → BookSide → List RestingOrder
  reports : List Execution

/-- The first price is strictly better than the second for the orders of a
side. -/
def BookSide.beats : BookSide → Price → Price → Bool
  | .bid, price, other => decide (other < price)
  | .ask, price, other => decide (price < other)

namespace Exchange

def new (capacity : ℕ) (listings : List (InstrumentId × PriceGrid)) : Exchange where
  capacity := capacity
  instruments := (listings.map Prod.fst).toFinset
  book := fun _ _ => []
  reports := []

/-- The number of resting orders over all books. -/
def resting (x : Exchange) : ℕ :=
  ∑ instrumentId ∈ x.instruments,
    ((x.book instrumentId .bid).length + (x.book instrumentId .ask).length)

def post (x : Exchange) (report : Execution) : Exchange :=
  { x with reports := x.reports ++ [report] }

def setBook (x : Exchange) (instrumentId : InstrumentId) (side : BookSide)
    (orders : List RestingOrder) : Exchange :=
  { x with
    book := Function.update x.book instrumentId
      (Function.update (x.book instrumentId) side orders) }

/-! ## Matching -/

/-- The earliest order which no other order beats. -/
def bestMaker (side : BookSide) (orders : List RestingOrder) : Option RestingOrder :=
  orders.find? fun order => orders.all fun other => !side.beats other.price order.price

/-- The list after `maker`, at its first occurrence, has traded `quantity`. -/
def debit (maker : RestingOrder) (quantity : ℕ) : List RestingOrder → List RestingOrder
  | [] => []
  | order :: orders =>
      if order = maker then
        if maker.remaining = quantity then orders
        else { maker with remaining := maker.remaining - quantity } :: orders
      else order :: debit maker quantity orders

def makerExecution (maker : RestingOrder) (takerId : OrderId) (quantity : ℕ) : Execution where
  kind := if maker.remaining = quantity then .fill else .partialFill
  orderId := maker.orderId
  counterpartOrderId := takerId
  execPrice := maker.price
  execQuantity := quantity
  leavesQuantity := maker.remaining - quantity

def takerExecution (maker : RestingOrder) (takerId : OrderId) (quantity remaining : ℕ) :
    Execution where
  kind := if remaining = quantity then .fill else .partialFill
  orderId := takerId
  counterpartOrderId := maker.orderId
  execPrice := maker.price
  execQuantity := quantity
  leavesQuantity := remaining - quantity

/-- Trade with one maker after the other.  A trade removes its maker or fills
the taker, so there are at most as many trades as resting orders. -/
def matchTaker (side : BookSide) (accepts : Price → Bool) (takerId : OrderId) :
    ℕ → List RestingOrder → ℕ → List RestingOrder × ℕ × List Execution
  | 0, orders, remaining => (orders, remaining, [])
  | bound + 1, orders, remaining =>
      if remaining = 0 then (orders, remaining, [])
      else
        match bestMaker side (orders.filter fun order => accepts order.price) with
        | none => (orders, remaining, [])
        | some maker =>
            let quantity := min maker.remaining remaining
            let result := matchTaker side accepts takerId bound
              (debit maker quantity orders) (remaining - quantity)
            (result.1, result.2.1,
              makerExecution maker takerId quantity ::
                takerExecution maker takerId quantity remaining :: result.2.2)

/-- Match the order of a message; also returns its residual. -/
def trade (x : Exchange) (msg : InboundOrderMsg) : Exchange × ℕ :=
  let makers := x.book msg.instrumentId msg.makerSide
  let result := matchTaker msg.makerSide msg.accepts msg.orderId makers.length makers
    msg.quantity.toNat
  ({ x.setBook msg.instrumentId msg.makerSide result.1 with
      reports := x.reports ++ result.2.2 }, result.2.1)

def crossingQty (x : Exchange) (msg : InboundOrderMsg) : ℕ :=
  (((x.book msg.instrumentId msg.makerSide).filter fun order => msg.accepts order.price).map
    RestingOrder.remaining).sum

/-! ## Messages -/

def reject (x : Exchange) (msg : InboundOrderMsg) : Exchange :=
  x.post
    { kind := .reject
      orderId := msg.orderId
      counterpartOrderId := 0
      execPrice := 0
      execQuantity := 0
      leavesQuantity := msg.quantity.toNat }

def cancelAck (x : Exchange) (orderId : OrderId) (leaves : ℕ) : Exchange :=
  x.post
    { kind := .cancelAck
      orderId := orderId
      counterpartOrderId := 0
      execPrice := 0
      execQuantity := 0
      leavesQuantity := leaves }

def rest (x : Exchange) (msg : InboundOrderMsg) (remaining : ℕ) : Exchange :=
  let side := msg.orderSide.bookSide
  x.setBook msg.instrumentId side
    (x.book msg.instrumentId side ++ [⟨msg.orderId, msg.price, remaining⟩])

def newOrder (x : Exchange) (msg : InboundOrderMsg) : Exchange :=
  if msg.instrumentId ∉ x.instruments ∨ x.resting = x.capacity then x.reject msg
  else
    match msg.orderType with
    | .limit =>
        let (traded, residual) := x.trade msg
        if residual = 0 then traded else traded.rest msg residual
    | .market | .ioc =>
        let (traded, residual) := x.trade msg
        if residual = 0 then traded else traded.cancelAck msg.orderId residual
    | .fok =>
        if x.crossingQty msg < msg.quantity.toNat then x.reject msg else (x.trade msg).1
    | .raw _ => x

/-- Remove the order with this id from one side and acknowledge it. -/
def remove (x : Exchange) (instrumentId : InstrumentId) (side : BookSide)
    (order : RestingOrder) : Exchange :=
  (x.setBook instrumentId side
    ((x.book instrumentId side).eraseP fun other => other.orderId = order.orderId)).cancelAck
      order.orderId order.remaining

def cancel (x : Exchange) (msg : InboundOrderMsg) : Exchange :=
  match (x.book msg.instrumentId .bid).find? fun order => order.orderId = msg.orderId with
  | some order => x.remove msg.instrumentId .bid order
  | none =>
      match (x.book msg.instrumentId .ask).find? fun order => order.orderId = msg.orderId with
      | some order => x.remove msg.instrumentId .ask order
      | none => x

def submit (x : Exchange) (msg : InboundOrderMsg) : Exchange :=
  match msg.kind with
  | .newOrder => x.newOrder msg
  | .cancel => x.cancel msg
  | _ => x

def run (x : Exchange) (msgs : List InboundOrderMsg) : Exchange := msgs.foldl submit x

/-! ## The list of one side, price by price -/

section Lists

variable {orders : List RestingOrder} {maker : RestingOrder} {side : BookSide}

/-- The orders at one price. -/
def atPrice (orders : List RestingOrder) (price : Price) : List RestingOrder :=
  orders.filter fun order => order.price = price

theorem mem_atPrice {price : Price} {order : RestingOrder} :
    order ∈ atPrice orders price ↔ order ∈ orders ∧ order.price = price := by
  simp [atPrice]

theorem atPrice_append (first second : List RestingOrder) (price : Price) :
    atPrice (first ++ second) price = atPrice first price ++ atPrice second price := by
  simp [atPrice]

theorem bestMaker_eq {accepts : Price → Bool} (behind : List RestingOrder)
    (hqueue : atPrice orders maker.price = maker :: behind)
    (hbest : ∀ order ∈ orders, order.price = maker.price ∨
      side.beats maker.price order.price = true)
    (hasymm : ∀ price, side.beats maker.price price = true →
      side.beats price maker.price = false)
    (hirrefl : side.beats maker.price maker.price = false)
    (haccepts : accepts maker.price = true) :
    bestMaker side (orders.filter fun order => accepts order.price) = some maker := by
  have hmaker : maker ∈ orders.filter fun order => accepts order.price := by
    have hmem : maker ∈ atPrice orders maker.price := by
      rw [hqueue]
      simp
    exact List.mem_filter.mpr ⟨(mem_atPrice.mp hmem).1, haccepts⟩
  have hsame : ∀ order ∈ orders.filter fun order => accepts order.price,
      ((orders.filter fun order => accepts order.price).all fun other =>
        !side.beats other.price order.price) = decide (order.price = maker.price) := by
    intro order horder
    rcases hbest order (List.mem_filter.mp horder).1 with heq | hbeaten
    · rw [heq, decide_eq_true rfl, List.all_eq_true]
      intro other hother
      rcases hbest other (List.mem_filter.mp hother).1 with hequal | hworse
      · rw [hequal, hirrefl]
        rfl
      · rw [hasymm _ hworse]
        rfl
    · have hne : order.price ≠ maker.price := by
        intro heq
        rw [heq, hirrefl] at hbeaten
        exact absurd hbeaten (by simp)
      rw [decide_eq_false hne, List.all_eq_false]
      exact ⟨maker, hmaker, by simp [hbeaten]⟩
  unfold bestMaker
  rw [List.find?_congr hsame, ← List.head?_filter, List.filter_filter]
  have hfilter : (orders.filter fun order =>
      decide (order.price = maker.price) && accepts order.price) =
        atPrice orders maker.price := by
    apply List.filter_congr
    intro order _
    by_cases heq : order.price = maker.price
    · simp [heq, haccepts]
    · simp [heq]
  rw [hfilter, hqueue]
  rfl

theorem atPrice_debit_same (maker : RestingOrder) (quantity : ℕ)
    (orders : List RestingOrder) :
    atPrice (debit maker quantity orders) maker.price =
      debit maker quantity (atPrice orders maker.price) := by
  induction orders with
  | nil => rfl
  | cons order orders ih =>
      by_cases hsame : order = maker
      · subst hsame
        by_cases hdone : order.remaining = quantity
        · simp [atPrice, debit, hdone]
        · simp [atPrice, debit, hdone]
      · by_cases hprice : order.price = maker.price
        · simp only [atPrice, debit, hsame, if_false, hprice, decide_true,
            List.filter_cons_of_pos] at ih ⊢
          rw [ih]
        · simp only [atPrice, debit, hsame, if_false] at ih ⊢
          rw [List.filter_cons_of_neg (by simpa using hprice),
            List.filter_cons_of_neg (by simpa using hprice), ih]

theorem atPrice_debit_other {price : Price} (hne : price ≠ maker.price) (quantity : ℕ)
    (orders : List RestingOrder) :
    atPrice (debit maker quantity orders) price = atPrice orders price := by
  induction orders with
  | nil => rfl
  | cons order orders ih =>
      by_cases hsame : order = maker
      · subst hsame
        by_cases hdone : order.remaining = quantity
        · simp [atPrice, debit, hdone, hne.symm]
        · simp [atPrice, debit, hdone, hne.symm]
      · simp only [atPrice, debit, hsame, if_false, List.filter_cons] at ih ⊢
        rw [ih]

theorem price_of_mem_debit {quantity : ℕ} {order : RestingOrder}
    (horder : order ∈ debit maker quantity orders) :
    ∃ old ∈ orders, old.price = order.price := by
  have hmem : order ∈ atPrice (debit maker quantity orders) order.price :=
    mem_atPrice.mpr ⟨horder, rfl⟩
  by_cases hprice : order.price = maker.price
  · by_cases hnone : maker ∈ orders
    · exact ⟨maker, hnone, hprice.symm⟩
    · have hkept : debit maker quantity orders = orders := by
        clear horder hmem
        induction orders with
        | nil => rfl
        | cons first orders ih =>
            have hfirst : first ≠ maker := fun heq => hnone (by simp [heq])
            simp only [debit, hfirst, if_false]
            rw [ih (fun hmem => hnone (by simp [hmem]))]
      rw [hkept] at horder
      exact ⟨order, horder, rfl⟩
  · rw [atPrice_debit_other hprice] at hmem
    exact ⟨order, (mem_atPrice.mp hmem).1, rfl⟩

theorem length_debit (hmaker : maker ∈ orders) (quantity : ℕ) :
    (debit maker quantity orders).length + (if maker.remaining = quantity then 1 else 0) =
      orders.length := by
  induction orders with
  | nil => exact absurd hmaker (by simp)
  | cons order orders ih =>
      by_cases hsame : order = maker
      · subst hsame
        by_cases hdone : order.remaining = quantity
        · simp [debit, hdone]
        · simp [debit, hdone]
      · have hrest : maker ∈ orders := by
          rcases List.mem_cons.mp hmaker with heq | hmem
          · exact absurd heq.symm hsame
          · exact hmem
        have hlength := ih hrest
        simp only [debit, hsame, if_false, List.length_cons]
        omega

theorem matchTaker_stopped {accepts : Price → Bool} {takerId : OrderId} {remaining : ℕ}
    (hstopped : remaining = 0 ∨ ∀ order ∈ orders, accepts order.price = false) (bound : ℕ) :
    matchTaker side accepts takerId bound orders remaining = (orders, remaining, []) := by
  cases bound with
  | zero => rfl
  | succ bound =>
      unfold matchTaker
      by_cases hzero : remaining = 0
      · rw [if_pos hzero]
      · have hnone : (orders.filter fun order => accepts order.price) = [] := by
          rw [List.filter_eq_nil_iff]
          intro order horder
          simp [hstopped.resolve_left hzero order horder]
        rw [if_neg hzero, hnone]
        rfl

theorem matchTaker_trade {accepts : Price → Bool} {takerId : OrderId} {remaining quantity : ℕ}
    (hremaining : remaining ≠ 0)
    (hbest : bestMaker side (orders.filter fun order => accepts order.price) = some maker)
    (hquantity : quantity = min maker.remaining remaining) (bound : ℕ) :
    let result := matchTaker side accepts takerId bound (debit maker quantity orders)
      (remaining - quantity)
    matchTaker side accepts takerId (bound + 1) orders remaining =
      (result.1, result.2.1, makerExecution maker takerId quantity ::
        takerExecution maker takerId quantity remaining :: result.2.2) := by
  subst hquantity
  intro result
  rw [matchTaker, if_neg hremaining, hbest]

theorem sum_remaining_eq {prices : ℕ → Price} (hinjective : Function.Injective prices)
    {n : ℕ} (hpriced : ∀ order ∈ orders, ∃ i < n, order.price = prices i) :
    (orders.map RestingOrder.remaining).sum =
      ∑ i ∈ Finset.range n, ((atPrice orders (prices i)).map RestingOrder.remaining).sum := by
  induction orders with
  | nil => simp [atPrice]
  | cons order orders ih =>
      rcases hpriced order (by simp) with ⟨level, hlevel, hprice⟩
      have hsplit : ∀ i, ((atPrice (order :: orders) (prices i)).map
          RestingOrder.remaining).sum =
            (if level = i then order.remaining else 0) +
              ((atPrice orders (prices i)).map RestingOrder.remaining).sum := by
        intro i
        by_cases hsame : level = i
        · subst hsame
          simp [atPrice, hprice]
        · have hne : order.price ≠ prices i := by
            rw [hprice]
            exact fun heq => hsame (hinjective heq)
          simp [atPrice, hne, hsame]
      simp only [hsplit, Finset.sum_add_distrib, Finset.sum_ite_eq, Finset.mem_range, hlevel,
        if_true, List.map_cons, List.sum_cons]
      rw [ih (fun other hother => hpriced other (by simp [hother]))]

section Erase

variable {matching : RestingOrder → Bool} {price : Price}

theorem atPrice_eraseP_other {other : Price} (hne : other ≠ price)
    (hprice : ∀ order ∈ orders, matching order = true → order.price = price) :
    atPrice (orders.eraseP matching) other = atPrice orders other := by
  induction orders with
  | nil => rfl
  | cons order orders ih =>
      have hrest := ih (fun kept hkept => hprice kept (by simp [hkept]))
      by_cases hmatch : matching order = true
      · have hother : order.price ≠ other := by
          rw [hprice order (by simp) hmatch]
          exact hne.symm
        simp [atPrice, hmatch, hother]
      · simp only [atPrice, List.eraseP_cons_of_neg hmatch, List.filter_cons] at hrest ⊢
        rw [hrest]

theorem atPrice_eraseP_same
    (hprice : ∀ order ∈ orders, matching order = true → order.price = price) :
    atPrice (orders.eraseP matching) price = (atPrice orders price).eraseP matching := by
  induction orders with
  | nil => rfl
  | cons order orders ih =>
      have hrest := ih (fun kept hkept => hprice kept (by simp [hkept]))
      by_cases hmatch : matching order = true
      · simp [atPrice, hmatch, hprice order (by simp) hmatch]
      · by_cases hsame : order.price = price
        · simp only [atPrice, List.eraseP_cons_of_neg hmatch] at hrest ⊢
          rw [List.filter_cons_of_pos (by simpa using hsame),
            List.filter_cons_of_pos (by simpa using hsame),
            List.eraseP_cons_of_neg hmatch, hrest]
        · simp only [atPrice, List.eraseP_cons_of_neg hmatch] at hrest ⊢
          rw [List.filter_cons_of_neg (by simpa using hsame),
            List.filter_cons_of_neg (by simpa using hsame), hrest]

end Erase

end Lists

theorem resting_setBook (x : Exchange) {instrumentId : InstrumentId}
    (hlisted : instrumentId ∈ x.instruments) (side : BookSide) (orders : List RestingOrder) :
    (x.setBook instrumentId side orders).resting + (x.book instrumentId side).length =
      x.resting + orders.length := by
  have hbefore := Finset.add_sum_erase x.instruments
    (fun other => (x.book other .bid).length + (x.book other .ask).length) hlisted
  have hafter := Finset.add_sum_erase x.instruments
    (fun other => ((x.setBook instrumentId side orders).book other .bid).length +
      ((x.setBook instrumentId side orders).book other .ask).length) hlisted
  have hothers : ∑ other ∈ x.instruments.erase instrumentId,
      (((x.setBook instrumentId side orders).book other .bid).length +
        ((x.setBook instrumentId side orders).book other .ask).length) =
      ∑ other ∈ x.instruments.erase instrumentId,
        ((x.book other .bid).length + (x.book other .ask).length) := by
    apply Finset.sum_congr rfl
    intro other hother
    simp [setBook, Function.update_of_ne (Finset.ne_of_mem_erase hother)]
  rw [hothers] at hafter
  unfold resting
  change (∑ other ∈ x.instruments, _) + _ = _
  rw [← hbefore, ← hafter]
  cases side <;> simp [setBook] <;> omega

end Exchange

end NanoMatch
