import NanoMatch.OrderOutcome

/-!
# Fill-or-kill orders

Acceptance is decided by a scan over level indices, execution by comparing
prices.  A fill-or-kill order is all or nothing exactly when its quantity does
not lie between what the sweep can reach and what the scan adds up.

Where the cached totals are exact and do not wrap, the scan adds up the crossing
quantity and possibly one level too many: a buy below the lowest price counts the
lowest level, and a sell between two ticks counts the level below its price.
-/

namespace NanoMatch

open OrderBook

namespace Engine

/-- The order was rejected, and no book and no resting order changed. -/
def Killed (engine : Engine) (msg : InboundOrderMsg) (after : Engine) : Prop :=
  (∃ timestampNs, after.outbound =
      engine.outbound ++ [rejectReport msg.orderId msg.quantity timestampNs]) ∧
    after.books = engine.books ∧
    ∀ instrumentId side i, ∀ slot ∈ engine.queue instrumentId side i,
      after.slab slot = engine.slab slot

/-- The whole quantity was executed at the limit or better. -/
def FilledWhole (engine : Engine) (msg : InboundOrderMsg) (after : Engine) : Prop :=
  executedQty (engine.postedFor after) = msg.quantity.toNat ∧
    ∀ report ∈ engine.postedFor after, report.orderId = msg.orderId ∧
      if msg.orderSide = .buy then report.execPrice ≤ msg.price
      else msg.price ≤ report.execPrice

def AllOrNothing (engine : Engine) (msg : InboundOrderMsg) : Prop :=
  engine.Killed msg (engine.dispatch msg) ∨ engine.FilledWhole msg (engine.dispatch msg)

/-- The scan accepts an order which the sweep cannot fill. -/
def Overcounted (engine : Engine) (msg : InboundOrderMsg) : Prop :=
  engine.pool.freelistHead ≠ none ∧ engine.Feasible msg ∧
    engine.crossingQuantity msg < msg.quantity.toNat

/-- The cached totals of the scanned side are exact and fit into 32 bits. -/
def ScanExact (engine : Engine) (msg : InboundOrderMsg) : Prop :=
  ∀ book, engine.books msg.instrumentId = some book →
    (∀ i, (book.sideLevels msg.makerSide i).totalQty.toNat =
      restingQty engine.slab (engine.queue msg.instrumentId msg.makerSide i)) ∧
    ∑ i ∈ Finset.range book.grid.numLevels,
      restingQty engine.slab (engine.queue msg.instrumentId msg.makerSide i) < 2 ^ 32

/-- The resting quantity at the one level the scan counts by mistake. -/
def miscounted (engine : Engine) (msg : InboundOrderMsg) : ℕ :=
  match engine.books msg.instrumentId with
  | none => 0
  | some book =>
      if msg.orderSide = .buy then
        if msg.price < book.grid.minPrice then
          restingQty engine.slab (engine.queue msg.instrumentId .ask 0)
        else 0
      else if book.grid.minPrice < msg.price ∧ msg.price ≤ book.grid.maxPrice ∧
          book.grid.isValidPrice msg.price = false then
        restingQty engine.slab
          (engine.queue msg.instrumentId .bid (book.grid.tickToIndex msg.price))
      else 0

end Engine

/-! ## All or nothing -/

section AllOrNothing

variable {msg : InboundOrderMsg} {s s' : Snapshot}

variable {slot : Slot} {s₀ s₁ : Snapshot} {timestampNs : UInt64} {book : OrderBook}

theorem Posted.killed
    (hposted : Posted [rejectReport msg.orderId msg.quantity timestampNs] 1 s s') :
    s.engine.Killed msg s'.engine := by
  refine ⟨⟨timestampNs, hposted.outbound_eq⟩, hposted.books_eq, ?_⟩
  intro _ _ _ slot _
  unfold Engine.slab
  rw [hposted.pool_eq]

theorem Admitted.killed (hadmitted : Admitted msg slot s s₀)
    (hposted : Posted [rejectReport msg.orderId msg.quantity timestampNs] 1 s₀ s₁)
    (hreleased : Released slot s₁ s') : s.engine.Killed msg s'.engine := by
  refine ⟨⟨timestampNs, ?_⟩, ?_, ?_⟩
  · rw [hreleased.outbound_eq, hposted.outbound_eq, hadmitted.outbound_eq]
  · rw [hreleased.books_eq, hposted.books_eq, hadmitted.books_eq]
  · intro instrumentId side i other hother
    rw [s.rep.queue_eq, ← hadmitted.queues_eq] at hother
    have hne := Snapshot.ne_of_isLoose hadmitted.loose hother
    have hpool : s₁.slab = s₀.slab := by
      unfold Snapshot.slab Engine.slab
      rw [hposted.pool_eq]
    have hkept := hreleased.others other hne
    rw [hpool, hadmitted.others other hne] at hkept
    exact hkept

theorem Snapshot.not_overcounted_of_refused
    (hwhy : s.engine.books msg.instrumentId = none ∨ s.free = []) :
    ¬ s.engine.Overcounted msg := by
  intro hover
  rcases hover with ⟨hfree, ⟨book, hbook, _⟩, _⟩
  rcases hwhy with hunlisted | hexhausted
  · rw [hunlisted] at hbook
    exact absurd hbook (by simp)
  · rw [s.freelistHead_eq, hexhausted] at hfree
    exact absurd rfl hfree

theorem not_overcounted_of_short {engine : Engine}
    (hbook : engine.books msg.instrumentId = some book)
    (hshort : book.availableQuantityAtOrBetter msg.orderSide msg.price < msg.quantity) :
    ¬ engine.Overcounted msg := by
  intro hover
  rcases hover with ⟨_, ⟨book', hbook', henough⟩, _⟩
  rw [hbook, Option.some.injEq] at hbook'
  subst hbook'
  exact henough hshort

theorem Admitted.filledWhole_iff (hadmitted : Admitted msg slot s s₀)
    (htype : msg.orderType = .fok)
    (hswept : Swept msg.instrumentId slot msg.accepts s₀ s₁)
    (hreleased : Released slot s₁ s') :
    ¬ s.engine.Killed msg s'.engine ∧
      (s.engine.FilledWhole msg s'.engine ↔ (s₁.slab slot).remaining = 0) := by
  rcases hadmitted.exists_takers hswept with ⟨fills, hfills, htakers, hexecuted⟩
  have houtbound := hreleased.outbound_eq.trans htakers
  have hposted : s.engine.postedFor s'.engine = fills.map Prod.snd := by
    rw [postedFor_of_outbound houtbound]
    have hown := ownReports_pairReports fills []
      (fun pair hpair => (hfills.trades pair hpair).1)
    simpa [ownReports] using hown
  have hprices : ∀ report ∈ s.engine.postedFor s'.engine,
      report.orderId = msg.orderId ∧
        if msg.orderSide = .buy then report.execPrice ≤ msg.price
        else msg.price ≤ report.execPrice := by
    intro report hreport
    rw [hposted] at hreport
    rcases List.mem_map.mp hreport with ⟨pair, hpair, rfl⟩
    have hid := hfills.ids pair hpair
    rw [hadmitted.order] at hid
    refine ⟨hid, ?_⟩
    have hok := hfills.prices pair hpair
    simp only [InboundOrderMsg.accepts, htype] at hok
    split_ifs at hok ⊢ with hbuy
    · exact of_decide_eq_true hok
    · exact of_decide_eq_true hok
  constructor
  · intro hkilled
    rcases hkilled with ⟨⟨timestampNs, hreject⟩, _⟩
    rw [houtbound] at hreject
    have hpairs := List.append_cancel_left hreject
    cases fills with
    | nil => exact absurd hpairs (by simp [pairReports])
    | cons pair fills => exact absurd hpairs (by simp [pairReports])
  · unfold Engine.FilledWhole
    rw [and_iff_left hprices, hposted]
    omega

theorem Admitted.overcounted_iff_residual (hadmitted : Admitted msg slot s s₀)
    (hbook : s.engine.books msg.instrumentId = some book)
    (hswept : Swept msg.instrumentId slot msg.accepts s₀ s₁)
    (henough : ¬ book.availableQuantityAtOrBetter msg.orderSide msg.price < msg.quantity) :
    s.engine.Overcounted msg ↔ (s₁.slab slot).remaining ≠ 0 := by
  have hresidual := hadmitted.residual_eq hbook hswept
  have hfree : s.engine.pool.freelistHead ≠ none := by
    simp [hadmitted.freelistHead_eq]
  have hfeasible : s.engine.Feasible msg := ⟨book, hbook, henough⟩
  unfold Engine.Overcounted
  rw [and_iff_right hfree, and_iff_right hfeasible, hresidual]
  omega

theorem NewOrderStep.allOrNothing_iff (hstep : NewOrderStep msg s s')
    (htype : msg.orderType = .fok) :
    s.engine.Killed msg s'.engine ∨ s.engine.FilledWhole msg s'.engine ↔
      ¬ s.engine.Overcounted msg := by
  cases hstep with
  | refused timestampNs hwhy hposted =>
      exact iff_of_true (Or.inl hposted.killed) (Snapshot.not_overcounted_of_refused hwhy)
  | rejected slot book s₀ s₁ timestampNs hbook hadmitted hwhy hposted hreleased =>
      rcases hwhy with ⟨byte, hraw⟩ | ⟨_, hshort⟩
      · rw [htype] at hraw
        exact absurd hraw (by simp)
      · exact iff_of_true (Or.inl (hadmitted.killed hposted hreleased))
          (not_overcounted_of_short hbook hshort)
  | completed slot book s₀ s₁ hbook hadmitted hswept hwhy hreleased =>
      have henough : ¬ book.availableQuantityAtOrBetter msg.orderSide msg.price <
          msg.quantity := by
        rcases hwhy with ⟨hother, _⟩ | ⟨_, henough⟩
        · rw [htype] at hother
          simp at hother
        · exact henough
      rcases hadmitted.filledWhole_iff htype hswept hreleased with ⟨hkilled, hwhole⟩
      rw [or_iff_right hkilled, hwhole,
        hadmitted.overcounted_iff_residual hbook hswept henough, not_not]
  | acked slot book s₀ s₁ s₂ timestampNs hbook hadmitted hswept hother =>
      rw [htype] at hother
      simp at hother
  | rested slot book s₀ s₁ hbook hadmitted hswept hother =>
      rw [htype] at hother
      simp at hother
  | lost slot book s₀ hbook hadmitted hswept hother =>
      rw [htype] at hother
      simp at hother

theorem Snapshot.allOrNothing_iff (s : Snapshot) (hkind : msg.kind = .newOrder)
    (htype : msg.orderType = .fok) :
    s.engine.AllOrNothing msg ↔ ¬ s.engine.Overcounted msg := by
  rcases s.handleNewOrder_step msg with ⟨s', hengine, hstep⟩
  unfold Engine.AllOrNothing
  rw [Engine.dispatch, hkind]
  simp only [← hengine]
  exact hstep.allOrNothing_iff htype

end AllOrNothing

/-! ## What the scan adds up -/

/-- The accumulator of the scan has 32 bits and wraps. -/
theorem sumLevels_toNat (levels : ℕ → PriceLevel) (i count : ℕ) (total : Quantity) :
    (sumLevels levels i count total).toNat =
      (total.toNat + ∑ k ∈ Finset.range count, (levels (i + k)).totalQty.toNat) %
        2 ^ 32 := by
  induction count generalizing i total with
  | zero =>
      have hlt := total.toNat_lt
      simp only [sumLevels, Finset.range_zero, Finset.sum_empty, Nat.add_zero]
      exact (Nat.mod_eq_of_lt hlt).symm
  | succ count ih =>
      have hshift : ∑ k ∈ Finset.range count, (levels (i + 1 + k)).totalQty.toNat =
          ∑ k ∈ Finset.range count, (levels (i + (k + 1))).totalQty.toNat := by
        apply Finset.sum_congr rfl
        intro k _
        rw [show i + 1 + k = i + (k + 1) by omega]
      rw [Finset.sum_range_succ']
      simp only [Nat.add_zero]
      unfold sumLevels
      rw [ih, UInt32.toNat_add, hshift, Nat.mod_add_mod]
      congr 1
      omega

section Scan

variable {n bottom top : ℕ} {totals : ℕ → ℕ}

theorem sum_Ico_eq_sum_range (htop : top ≤ n) :
    ∑ i ∈ Finset.Ico bottom top, totals i =
      ∑ i ∈ Finset.range n, if bottom ≤ i ∧ i < top then totals i else 0 := by
  rw [← Finset.sum_filter]
  apply Finset.sum_congr _ (fun _ _ => rfl)
  ext i
  simp only [Finset.mem_Ico, Finset.mem_filter, Finset.mem_range]
  omega

theorem scan_toNat {levels : ℕ → PriceLevel}
    (hexact : ∀ i, (levels i).totalQty.toNat = totals i) (htop : top ≤ n) :
    (sumLevels levels bottom (top - bottom) 0).toNat =
      (∑ i ∈ Finset.range n, if bottom ≤ i ∧ i < top then totals i else 0) % 2 ^ 32 := by
  have hsum : ∑ k ∈ Finset.range (top - bottom), (levels (bottom + k)).totalQty.toNat =
      ∑ i ∈ Finset.range n, if bottom ≤ i ∧ i < top then totals i else 0 := by
    rw [← sum_Ico_eq_sum_range htop, Finset.sum_Ico_eq_sum_range]
    simp only [hexact]
  rw [sumLevels_toNat, hsum]
  simp

theorem sum_range_congr_of_zero {f g : ℕ → Prop} [DecidablePred f] [DecidablePred g]
    (hsame : ∀ i < n, totals i ≠ 0 → (f i ↔ g i)) :
    ∑ i ∈ Finset.range n, (if f i then totals i else 0) =
      ∑ i ∈ Finset.range n, if g i then totals i else 0 := by
  apply Finset.sum_congr rfl
  intro i hi
  by_cases hzero : totals i = 0
  · simp [hzero]
  · have hiff := hsame i (Finset.mem_range.mp hi) hzero
    simp only [hiff]

end Scan

/-- All orders of a level pass the price check or none does. -/
theorem BookShape.restingQty_filter {slab : Slab} {book : OrderBook} {queues : Queues}
    (hshape : BookShape slab book queues) (side : BookSide) (i : ℕ)
    (priceOk : Price → Bool) :
    restingQty slab ((queues side i).filter fun slot => priceOk (slab slot).price) =
      if priceOk (book.grid.indexToPrice i) = true then restingQty slab (queues side i)
      else 0 := by
  have hprice : ∀ slot ∈ queues side i, (slab slot).price = book.grid.indexToPrice i :=
    fun slot hslot => (hshape.placed side i slot hslot).price_eq
  split_ifs with hok
  · rw [List.filter_eq_self.mpr]
    intro slot hslot
    rw [hprice slot hslot]
    exact hok
  · rw [List.filter_eq_nil_iff.mpr]
    · rfl
    · intro slot hslot
      rw [hprice slot hslot]
      exact hok

theorem Snapshot.crossing_eq_sum (s : Snapshot) {instrumentId : InstrumentId}
    {book : OrderBook} (hbook : s.engine.books instrumentId = some book) (side : BookSide)
    (n : ℕ) (priceOk : Price → Bool) :
    s.crossing instrumentId side n priceOk =
      ∑ i ∈ Finset.range n, if priceOk (book.grid.indexToPrice i) = true then
        restingQty s.slab (s.queues instrumentId side i) else 0 := by
  apply Finset.sum_congr rfl
  intro i _
  exact (s.rep.bookRep _ book hbook).toBookShape.restingQty_filter side i priceOk

section ScanResult

variable {slab : Slab} {book : OrderBook} {queues : Queues}

theorem restingQty_ne_zero {slots : List Slot} (hne : restingQty slab slots ≠ 0) :
    slots ≠ [] := by
  intro hempty
  rw [hempty] at hne
  exact hne rfl

/-- The last level counted for a buy. -/
def OrderBook.scanTop (book : OrderBook) (price : Price) : ℕ :=
  if book.grid.maxPrice ≤ price then book.grid.numLevels - 1
  else if price < book.grid.minPrice then 0
  else book.grid.tickToIndex price

/-- The first level counted for a sell. -/
def OrderBook.scanBottom (book : OrderBook) (price : Price) : ℕ :=
  if price ≤ book.grid.minPrice then 0
  else if book.grid.maxPrice < price then book.grid.numLevels
  else book.grid.tickToIndex price

theorem PriceGrid.numLevels_pos (grid : PriceGrid) : 0 < grid.numLevels := by
  unfold PriceGrid.numLevels
  omega

theorem OrderBook.scanTop_lt (book : OrderBook) (price : Price) :
    book.scanTop price < book.grid.numLevels := by
  have hpos := book.grid.numLevels_pos
  unfold OrderBook.scanTop
  split_ifs with hmax hmin
  · omega
  · exact hpos
  · rw [PriceGrid.lt_numLevels_iff]
    have hle := (book.grid.le_tickToIndex_iff (not_lt.mp hmin) _).mp
      (le_refl (book.grid.tickToIndex price))
    linarith

/-- The scan of this side counts the level. -/
def OrderBook.Scans (book : OrderBook) (side : Side) (limit : Price) (i : ℕ) : Prop :=
  if side = .buy then i ≤ book.scanTop limit else book.scanBottom limit ≤ i

instance (book : OrderBook) (side : Side) (limit : Price) :
    DecidablePred (book.Scans side limit) :=
  fun _ => inferInstanceAs (Decidable (if side = .buy then _ else _))

theorem BookShape.available_buy (hshape : BookShape slab book queues)
    (hexact : ∀ i, (book.sideLevels .ask i).totalQty.toNat = restingQty slab (queues .ask i))
    (price : Price) :
    (book.availableQuantityAtOrBetter .buy price).toNat =
      (∑ i ∈ Finset.range book.grid.numLevels,
        if i ≤ book.scanTop price then restingQty slab (queues .ask i) else 0) %
          2 ^ 32 := by
  have hbest := hshape.best .ask
  have htop := book.scanTop_lt price
  unfold OrderBook.availableQuantityAtOrBetter
  rw [if_pos rfl]
  cases hcursor : book.bestAskIdx with
  | none =>
      have hnone : book.bestIdx .ask = none := hcursor
      rw [hnone] at hbest
      rw [Finset.sum_eq_zero]
      · rfl
      · intro i _
        rw [hbest i]
        simp
  | some best =>
      have hsome : book.bestIdx .ask = some best := hcursor
      rw [hsome] at hbest
      change (if book.scanTop price < best then 0
        else sumLevels (book.sideLevels .ask) best
          (book.scanTop price + 1 - best) 0).toNat = _
      have habove : ∀ i, restingQty slab (queues .ask i) ≠ 0 → best ≤ i := by
        intro i hi
        have hworse := hbest.2 i (restingQty_ne_zero hi)
        simp only [BookSide.Better] at hworse
        omega
      split_ifs with hshort
      · rw [Finset.sum_eq_zero]
        · rfl
        · intro i _
          by_cases hzero : restingQty slab (queues .ask i) = 0
          · simp [hzero]
          · have hle := habove i hzero
            rw [if_neg (by omega)]
      · rw [scan_toNat hexact (by omega : book.scanTop price + 1 ≤ book.grid.numLevels)]
        congr 1
        apply sum_range_congr_of_zero
        intro i _ hne
        have hle := habove i hne
        omega

theorem BookShape.available_sell (hshape : BookShape slab book queues)
    (hexact : ∀ i, (book.sideLevels .bid i).totalQty.toNat = restingQty slab (queues .bid i))
    {side : Side} (hside : side ≠ .buy) (price : Price) :
    (book.availableQuantityAtOrBetter side price).toNat =
      (∑ i ∈ Finset.range book.grid.numLevels,
        if book.scanBottom price ≤ i then restingQty slab (queues .bid i) else 0) %
          2 ^ 32 := by
  have hbest := hshape.best .bid
  unfold OrderBook.availableQuantityAtOrBetter
  rw [if_neg hside]
  cases hcursor : book.bestBidIdx with
  | none =>
      have hnone : book.bestIdx .bid = none := hcursor
      rw [hnone] at hbest
      rw [Finset.sum_eq_zero]
      · rfl
      · intro i _
        rw [hbest i]
        simp
  | some best =>
      have hsome : book.bestIdx .bid = some best := hcursor
      rw [hsome] at hbest
      change (if best < book.scanBottom price then 0
        else sumLevels (book.sideLevels .bid) (book.scanBottom price)
          (best + 1 - book.scanBottom price) 0).toNat = _
      have hbelow : ∀ i, restingQty slab (queues .bid i) ≠ 0 → i ≤ best := by
        intro i hi
        have hworse := hbest.2 i (restingQty_ne_zero hi)
        simp only [BookSide.Better] at hworse
        omega
      have hrange : best < book.grid.numLevels := by
        rcases List.exists_mem_of_ne_nil _ hbest.1 with ⟨slot, hslot⟩
        exact (hshape.placed _ _ _ hslot).range
      split_ifs with hshort
      · rw [Finset.sum_eq_zero]
        · rfl
        · intro i _
          by_cases hzero : restingQty slab (queues .bid i) = 0
          · simp [hzero]
          · have hle := hbelow i hzero
            rw [if_neg (by omega)]
      · rw [scan_toNat hexact (by omega : best + 1 ≤ book.grid.numLevels)]
        congr 1
        apply sum_range_congr_of_zero
        intro i _ hne
        have hle := hbelow i hne
        omega

theorem Side.opposite_of_ne_buy {side : Side} (hsell : side ≠ .buy) :
    side.bookSide.opposite = .bid := by
  cases side with
  | buy => exact absurd rfl hsell
  | sell => rfl
  | raw byte => rfl

/-- The scan adds up the levels it counts modulo 2^32. -/
theorem BookShape.available_eq (hshape : BookShape slab book queues) (side : Side)
    (hexact : ∀ i, (book.sideLevels side.bookSide.opposite i).totalQty.toNat =
      restingQty slab (queues side.bookSide.opposite i)) (limit : Price) :
    (book.availableQuantityAtOrBetter side limit).toNat =
      (∑ i ∈ Finset.range book.grid.numLevels, if book.Scans side limit i then
        restingQty slab (queues side.bookSide.opposite i) else 0) % 2 ^ 32 := by
  by_cases hbuy : side = .buy
  · subst hbuy
    simp only [OrderBook.Scans, if_true]
    exact hshape.available_buy hexact limit
  · rw [Side.opposite_of_ne_buy hbuy] at hexact ⊢
    simp only [OrderBook.Scans, hbuy, if_false]
    exact hshape.available_sell hexact hbuy limit

end ScanResult

theorem sum_range_add_extra {n extra : ℕ} {totals : ℕ → ℕ} {f g : ℕ → Prop}
    [DecidablePred f] [DecidablePred g] (hextra : extra < n) (hnot : ¬ g extra)
    (hsame : ∀ i < n, f i ↔ g i ∨ i = extra) :
    ∑ i ∈ Finset.range n, (if f i then totals i else 0) =
      ∑ i ∈ Finset.range n, (if g i then totals i else 0) + totals extra := by
  symm
  apply sum_range_debit hextra
  · intro i hi hne
    have hiff := hsame i hi
    simp only [hne, or_false] at hiff
    simp only [hiff]
  · have hiff := hsame extra hextra
    simp only [or_true, iff_true] at hiff
    simp [hiff, hnot]

/-! ## The scan and the sweep -/

section Compare

variable (grid : PriceGrid) {price : Price}

theorem PriceGrid.minPrice_le_indexToPrice (i : ℕ) : grid.minPrice ≤ grid.indexToPrice i := by
  have hle := (grid.indexToPrice_le_iff 0 i).mpr (Nat.zero_le i)
  simpa [PriceGrid.indexToPrice] using hle

/-- From the price of a valid order up, or strictly above the level below it. -/
theorem PriceGrid.tickToIndex_le_iff (hmin : grid.minPrice ≤ price) (i : ℕ) :
    grid.tickToIndex price ≤ i ↔
      price ≤ grid.indexToPrice i ∨
        i = grid.tickToIndex price ∧ grid.indexToPrice i ≠ price := by
  have hfloor := (grid.le_tickToIndex_iff hmin (grid.tickToIndex price)).mp le_rfl
  have habove : ∀ j, grid.tickToIndex price < j → price < grid.indexToPrice j := by
    intro j hj
    by_contra hle
    have := (grid.le_tickToIndex_iff hmin j).mpr (not_lt.mp hle)
    omega
  constructor
  · intro hle
    rcases Nat.eq_or_lt_of_le hle with heq | hlt
    · by_cases hprice : grid.indexToPrice i = price
      · exact Or.inl hprice.ge
      · exact Or.inr ⟨heq.symm, hprice⟩
    · exact Or.inl (habove i hlt).le
  · intro hcases
    rcases hcases with hprice | ⟨rfl, _⟩
    · exact (grid.indexToPrice_le_iff _ _).mp (hfloor.trans hprice)
    · exact le_rfl

end Compare

/-- The order of this side may trade at the price. -/
def Side.crosses (side : Side) (limit price : Price) : Bool :=
  if side = .buy then decide (price ≤ limit) else decide (limit ≤ price)

/-- The quantity of the one level the scan counts although its price does not
cross the limit. -/
def OrderBook.excess (book : OrderBook) (side : Side) (limit : Price)
    (totals : ℕ → ℕ) : ℕ :=
  if side = .buy then
    if limit < book.grid.minPrice then totals 0 else 0
  else if book.grid.minPrice < limit ∧ limit ≤ book.grid.maxPrice ∧
      book.grid.isValidPrice limit = false then
    totals (book.grid.tickToIndex limit)
  else 0

namespace OrderBook

variable (book : OrderBook) (limit : Price) (totals : ℕ → ℕ)

theorem scanned_buy :
    ∑ i ∈ Finset.range book.grid.numLevels,
        (if i ≤ book.scanTop limit then totals i else 0) =
      ∑ i ∈ Finset.range book.grid.numLevels,
        (if book.grid.indexToPrice i ≤ limit then totals i else 0) +
          if limit < book.grid.minPrice then totals 0 else 0 := by
  by_cases hbelow : limit < book.grid.minPrice
  · have htop : book.scanTop limit = 0 := by
      have hmax := book.grid.min_lt_max
      unfold scanTop
      rw [if_neg (by linarith), if_pos hbelow]
    rw [htop, if_pos hbelow]
    apply sum_range_add_extra book.grid.numLevels_pos
    · have hmin := book.grid.minPrice_le_indexToPrice 0
      linarith
    · intro i _
      have hmin := book.grid.minPrice_le_indexToPrice i
      constructor
      · intro hzero
        exact Or.inr (by omega)
      · intro hcases
        rcases hcases with hprice | hzero
        · linarith
        · omega
  · rw [if_neg hbelow, Nat.add_zero]
    apply sum_range_congr_of_zero
    intro i hi _
    unfold scanTop
    split_ifs with hmax
    · have hprice := (book.grid.lt_numLevels_iff i).mp hi
      constructor
      · intro _
        linarith
      · intro _
        omega
    · exact book.grid.le_tickToIndex_iff (not_lt.mp hbelow) i

/-- A limit inside the range.  Off the ticks the scan starts one level too low. -/
theorem scanned_sell_inside (hmin : book.grid.minPrice < limit)
    (hmax : limit ≤ book.grid.maxPrice) :
    ∑ i ∈ Finset.range book.grid.numLevels,
        (if book.grid.tickToIndex limit ≤ i then totals i else 0) =
      ∑ i ∈ Finset.range book.grid.numLevels,
        (if limit ≤ book.grid.indexToPrice i then totals i else 0) +
          if book.grid.isValidPrice limit = false then
            totals (book.grid.tickToIndex limit)
          else 0 := by
  have hfloor := (book.grid.le_tickToIndex_iff hmin.le
    (book.grid.tickToIndex limit)).mp le_rfl
  have hlt : book.grid.tickToIndex limit < book.grid.numLevels := by
    rw [PriceGrid.lt_numLevels_iff]
    linarith
  cases hvalid : book.grid.isValidPrice limit with
  | true =>
      rw [if_neg (by simp), Nat.add_zero]
      apply sum_range_congr_of_zero
      intro i _ _
      rw [book.grid.tickToIndex_le_iff hmin.le i]
      have hprice := (book.grid.tickToIndex_lt_numLevels hvalid).2
      constructor
      · intro hcases
        rcases hcases with hle | ⟨rfl, hne⟩
        · exact hle
        · exact absurd hprice.symm hne
      · exact Or.inl
  | false =>
      have hne : book.grid.indexToPrice (book.grid.tickToIndex limit) ≠ limit := by
        intro heq
        have := book.grid.isValidPrice_indexToPrice hlt
        rw [heq, hvalid] at this
        exact absurd this (by simp)
      rw [if_pos rfl]
      apply sum_range_add_extra hlt
      · intro hle
        exact hne (le_antisymm hfloor hle)
      · intro i _
        rw [book.grid.tickToIndex_le_iff hmin.le i]
        constructor
        · intro hcases
          rcases hcases with hle | ⟨heq, _⟩
          · exact Or.inl hle
          · exact Or.inr heq
        · intro hcases
          rcases hcases with hle | heq
          · exact Or.inl hle
          · rw [heq]
            exact Or.inr ⟨rfl, hne⟩

theorem scanned_sell :
    ∑ i ∈ Finset.range book.grid.numLevels,
        (if book.scanBottom limit ≤ i then totals i else 0) =
      ∑ i ∈ Finset.range book.grid.numLevels,
        (if limit ≤ book.grid.indexToPrice i then totals i else 0) +
          if book.grid.minPrice < limit ∧ limit ≤ book.grid.maxPrice ∧
              book.grid.isValidPrice limit = false then
            totals (book.grid.tickToIndex limit)
          else 0 := by
  by_cases hinside : book.grid.minPrice < limit ∧ limit ≤ book.grid.maxPrice
  · have hbottom : book.scanBottom limit = book.grid.tickToIndex limit := by
      unfold scanBottom
      rw [if_neg (not_le.mpr hinside.1), if_neg (not_lt.mpr hinside.2)]
    rw [hbottom, book.scanned_sell_inside limit totals hinside.1 hinside.2]
    simp only [hinside.1, hinside.2, true_and]
  · rw [if_neg (fun hall => hinside ⟨hall.1, hall.2.1⟩), Nat.add_zero]
    apply sum_range_congr_of_zero
    intro i hi _
    have hmin := book.grid.minPrice_le_indexToPrice i
    have hmax := (book.grid.lt_numLevels_iff i).mp hi
    unfold scanBottom
    split_ifs with hlow hhigh
    · constructor
      · intro _
        linarith
      · intro _
        omega
    · constructor
      · intro hle
        omega
      · intro hle
        linarith
    · exact absurd ⟨not_le.mp hlow, not_lt.mp hhigh⟩ hinside

/-- The counted levels are the crossing ones and possibly one more. -/
theorem scanned_eq (side : Side) :
    ∑ i ∈ Finset.range book.grid.numLevels,
        (if book.Scans side limit i then totals i else 0) =
      ∑ i ∈ Finset.range book.grid.numLevels,
        (if side.crosses limit (book.grid.indexToPrice i) = true then totals i else 0) +
          book.excess side limit totals := by
  by_cases hbuy : side = .buy
  · simp only [Scans, Side.crosses, excess, hbuy, if_true, decide_eq_true_eq]
    exact book.scanned_buy limit totals
  · simp only [Scans, Side.crosses, excess, hbuy, if_false, decide_eq_true_eq]
    exact book.scanned_sell limit totals

end OrderBook

namespace Snapshot

variable (s : Snapshot) {msg : InboundOrderMsg} {book : OrderBook}

theorem scan_eq (hbook : s.engine.books msg.instrumentId = some book)
    (htype : msg.orderType = .fok) (hexact : s.engine.ScanExact msg) :
    (book.availableQuantityAtOrBetter msg.orderSide msg.price).toNat =
      s.engine.crossingQuantity msg + s.engine.miscounted msg := by
  have hrep : BookRep s.slab book (s.queues msg.instrumentId) := s.rep.bookRep _ book hbook
  rcases hexact book hbook with ⟨htotals, hfits⟩
  rw [s.rep.queue_eq] at htotals hfits
  have haccepts : msg.accepts = msg.orderSide.crosses msg.price := by
    funext price
    simp only [InboundOrderMsg.accepts, htype, Side.crosses]
  have hmiscounted : s.engine.miscounted msg = book.excess msg.orderSide msg.price
      (fun i => restingQty s.slab (s.queues msg.instrumentId msg.makerSide i)) := by
    simp only [Engine.miscounted, hbook, OrderBook.excess, s.rep.queue_eq]
    by_cases hbuy : msg.orderSide = .buy
    · simp only [hbuy, if_true, InboundOrderMsg.makerSide]
      rfl
    · simp only [hbuy, if_false, InboundOrderMsg.makerSide, Side.opposite_of_ne_buy hbuy]
      rfl
  have hscanned := book.scanned_eq msg.price
    (fun i => restingQty s.slab (s.queues msg.instrumentId msg.makerSide i)) msg.orderSide
  have hbound : ∑ i ∈ Finset.range book.grid.numLevels,
      (if book.Scans msg.orderSide msg.price i then
        restingQty s.slab (s.queues msg.instrumentId msg.makerSide i) else 0) ≤
      ∑ i ∈ Finset.range book.grid.numLevels,
        restingQty s.slab (s.queues msg.instrumentId msg.makerSide i) := by
    apply Finset.sum_le_sum
    intro i _
    split_ifs <;> omega
  rw [hrep.toBookShape.available_eq msg.orderSide htotals, Nat.mod_eq_of_lt,
    s.crossingQuantity_eq msg hbook, s.crossing_eq_sum hbook, hmiscounted, haccepts]
  · exact hscanned
  · exact hbound.trans_lt hfits

/-- With exact totals only the miscounted level can make the scan accept too
much. -/
theorem overcounted_iff (htype : msg.orderType = .fok) (hexact : s.engine.ScanExact msg) :
    s.engine.Overcounted msg ↔
      s.engine.pool.freelistHead ≠ none ∧ s.engine.books msg.instrumentId ≠ none ∧
        s.engine.crossingQuantity msg < msg.quantity.toNat ∧
        msg.quantity.toNat ≤ s.engine.crossingQuantity msg + s.engine.miscounted msg := by
  unfold Engine.Overcounted Engine.Feasible
  cases hbook : s.engine.books msg.instrumentId with
  | none => simp
  | some book =>
      have hscan : (book.availableQuantityAtOrBetter msg.orderSide msg.price).toNat =
          s.engine.crossingQuantity msg + s.engine.miscounted msg :=
        s.scan_eq hbook htype hexact
      have hfeasible : (∃ found, some book = some found ∧
          ¬ found.availableQuantityAtOrBetter msg.orderSide msg.price < msg.quantity) ↔
          msg.quantity.toNat ≤ s.engine.crossingQuantity msg + s.engine.miscounted msg := by
        simp only [Option.some.injEq, exists_eq_left']
        rw [UInt32.lt_iff_toNat_lt, hscan, not_lt]
      rw [hfeasible]
      simp only [ne_eq, reduceCtorEq, not_false_eq_true, true_and]
      tauto

end Snapshot

/-- A fill-or-kill order is all or nothing exactly when the scan does not accept
more than the sweep can fill.  With exact totals this leaves the two kinds of
price at which the scan counts a level too many. -/
theorem fok_allOrNothing_iff (capacity : ℕ) (clock : ℕ → UInt64)
    (listings : List (InstrumentId × PriceGrid)) (events : List Engine.Event)
    (msg : InboundOrderMsg) (engine : Engine)
    (hengine : engine = (Engine.listed capacity clock listings).run events)
    (hkind : msg.kind = .newOrder) (htype : msg.orderType = .fok) :
    (engine.AllOrNothing msg ↔ ¬ engine.Overcounted msg) ∧
      (engine.ScanExact msg →
        (engine.Overcounted msg ↔
          engine.pool.freelistHead ≠ none ∧ engine.books msg.instrumentId ≠ none ∧
            engine.crossingQuantity msg < msg.quantity.toNat ∧
            msg.quantity.toNat ≤ engine.crossingQuantity msg + engine.miscounted msg)) := by
  rcases exists_snapshot capacity clock listings events with ⟨s, hsnapshot⟩
  rw [hengine, ← hsnapshot]
  exact ⟨s.allOrNothing_iff hkind htype, s.overcounted_iff htype⟩

/-- The sample engine with an ask of 5 at the lowest price. -/
def sampleAsk : Engine := sampleEngine.run [.message (sampleOrder 1 0 1 100 5)]

theorem fok_allOrNothing_iff_sample :
    (sampleOrder 0 3 2 100 5).orderType = .fok ∧
      sampleAsk.AllOrNothing (sampleOrder 0 3 2 100 5) := by
  refine ⟨rfl, (fok_allOrNothing_iff 4 (fun _ => 0) [(0, sampleGrid)]
    [.message (sampleOrder 1 0 1 100 5)] _ sampleAsk rfl rfl rfl).1.mpr ?_⟩
  intro hover
  have hless := hover.2.2
  have hcrossing : sampleAsk.crossingQuantity (sampleOrder 0 3 2 100 5) = 5 := by decide
  rw [hcrossing] at hless
  exact absurd hless (by decide)

/-- A buy at 99 is accepted on the strength of the ask at 100 and then executes
nothing. -/
theorem fok_accepted_and_unfilled :
    (sampleOrder 0 3 2 99 5).kind = .newOrder ∧ (sampleOrder 0 3 2 99 5).orderType = .fok ∧
      0 < (sampleOrder 0 3 2 99 5).quantity.toNat ∧
      (∀ side, ∑ i ∈ Finset.range sampleGrid.numLevels,
        restingQty sampleAsk.slab (sampleAsk.queue 0 side i) < 2 ^ 32) ∧
      ¬ sampleAsk.AllOrNothing (sampleOrder 0 3 2 99 5) := by
  have hsilent : (sampleAsk.dispatch (sampleOrder 0 3 2 99 5)).outbound = [] := by decide
  have hbefore : sampleAsk.outbound = [] := by decide
  refine ⟨rfl, rfl, by decide, ?_, ?_⟩
  · intro side
    cases side <;> decide
  · intro hall
    rcases hall with ⟨⟨timestampNs, hreject⟩, _⟩ | ⟨hexecuted, _⟩
    · rw [hsilent, hbefore] at hreject
      exact absurd hreject (by simp)
    · unfold Engine.postedFor at hexecuted
      rw [hsilent, hbefore] at hexecuted
      exact absurd hexecuted (by decide)

end NanoMatch
