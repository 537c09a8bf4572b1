import NanoMatch.EngineRuns

/-!
# What a sweep executes

A trade takes the same quantity from the incoming order and from the resting
quantity its price check accepts.  A stopped sweep has used up one of the two,
so it executes their minimum.  The reports of a sweep are maker/taker pairs,
and the taker reports account for exactly the executed quantity.
-/

namespace NanoMatch

open OrderBook

/-- The resting quantity of one side at accepted prices, below level `n`. -/
def Snapshot.crossing (s : Snapshot) (instrumentId : InstrumentId) (side : BookSide)
    (n : ℕ) (priceOk : Price → Bool) : ℕ :=
  ∑ i ∈ Finset.range n, restingQty s.slab
    ((s.queues instrumentId side i).filter fun slot => priceOk (s.slab slot).price)

theorem sum_range_debit {n level debit : ℕ} {f g : ℕ → ℕ} (hlevel : level < n)
    (hother : ∀ i < n, i ≠ level → g i = f i) (hat : g level + debit = f level) :
    ∑ i ∈ Finset.range n, g i + debit = ∑ i ∈ Finset.range n, f i := by
  have hmem : level ∈ Finset.range n := Finset.mem_range.mpr hlevel
  have hrest : ∑ i ∈ (Finset.range n).erase level, g i =
      ∑ i ∈ (Finset.range n).erase level, f i := by
    apply Finset.sum_congr rfl
    intro i hi
    exact hother i (Finset.mem_range.mp (Finset.mem_of_mem_erase hi))
      (Finset.ne_of_mem_erase hi)
  rw [← Finset.add_sum_erase _ g hmem, ← Finset.add_sum_erase _ f hmem, hrest]
  omega

namespace Traded

variable {s s' : Snapshot} {instrumentId : InstrumentId} {agg maker : Slot} {level : ℕ}
  {behind : List Slot} {priceOk : Price → Bool}

theorem remaining_other (htraded : Traded instrumentId agg maker level behind s s')
    {slot : Slot} (hmaker : slot ≠ maker) (hagg : slot ≠ agg) :
    (s'.slab slot).remaining = (s.slab slot).remaining := by
  rw [htraded.remaining_eq slot, if_neg]
  simp [hmaker, hagg]

theorem maker_notMem_tail (htraded : Traded instrumentId agg maker level behind s s') :
    maker ∉ behind := by
  rcases s.rep.listed_of_mem htraded.maker_mem with ⟨book, hbook⟩
  have hnodup := ((s.rep.bookRep _ book hbook).linked (s.makerSide agg) level).nodup
  rw [htraded.queue_eq] at hnodup
  exact (List.nodup_cons.mp hnodup).1

theorem queue_level (htraded : Traded instrumentId agg maker level behind s s') :
    s'.queues instrumentId (s.makerSide agg) level =
      if (s'.slab maker).quantity = 0 then behind else maker :: behind := by
  rw [htraded.queues']
  split_ifs with hdone
  · rw [Function.update_self, Queues.set_same]
  · exact htraded.queue_eq

theorem queue_other (htraded : Traded instrumentId agg maker level behind s s')
    {instrumentId' : InstrumentId} {side : BookSide} {i : ℕ}
    (hne : ¬ (instrumentId' = instrumentId ∧ side = s.makerSide agg ∧ i = level)) :
    s'.queues instrumentId' side i = s.queues instrumentId' side i := by
  rw [htraded.queues']
  split_ifs with hdone
  · rw [Queues.update_set, if_neg hne]
  · rfl

theorem filter_eq (htraded : Traded instrumentId agg maker level behind s s')
    (slots : List Slot) :
    (slots.filter fun slot => priceOk (s'.slab slot).price) =
      slots.filter fun slot => priceOk (s.slab slot).price := by
  simp only [htraded.price_eq]

theorem restingQty_other (htraded : Traded instrumentId agg maker level behind s s')
    {slots : List Slot} (hmaker : maker ∉ slots) (hagg : agg ∉ slots) :
    restingQty s'.slab slots = restingQty s.slab slots := by
  unfold restingQty
  congr 1
  apply List.map_congr_left
  intro slot hslot
  apply htraded.remaining_other
  · exact fun heq => hmaker (heq ▸ hslot)
  · exact fun heq => hagg (heq ▸ hslot)

theorem crossing_eq (htraded : Traded instrumentId agg maker level behind s s')
    (hloose : s.IsLoose agg) (hok : priceOk (s.slab maker).price = true) {n : ℕ}
    (hlevel : level < n) :
    s'.crossing instrumentId (s.makerSide agg) n priceOk +
        min (s.slab maker).remaining (s.slab agg).remaining =
      s.crossing instrumentId (s.makerSide agg) n priceOk := by
  have hmem := htraded.maker_mem
  have htail := htraded.maker_notMem_tail
  have haggTail : agg ∉ behind := by
    intro hagg
    apply hloose.notQueued instrumentId (s.makerSide agg) level
    rw [htraded.queue_eq]
    simp [hagg]
  unfold Snapshot.crossing
  apply sum_range_debit hlevel
  · intro i _ hne
    have hkept := htraded.queue_other
      (fun hlevel => hne hlevel.2.2 : ¬ (instrumentId = instrumentId ∧
        s.makerSide agg = s.makerSide agg ∧ i = level))
    rw [hkept, htraded.filter_eq]
    apply htraded.restingQty_other
    · intro hmaker
      have hother := (List.mem_filter.mp hmaker).1
      exact hne (s.rep.queue_unique hmem hother).2.2
    · intro hagg
      exact hloose.notQueued _ _ _ (List.mem_filter.mp hagg).1
  · have hbehind : restingQty s'.slab
        (behind.filter fun slot => priceOk (s.slab slot).price) =
          restingQty s.slab (behind.filter fun slot => priceOk (s.slab slot).price) := by
      apply htraded.restingQty_other
      · exact fun hmaker => htail (List.mem_filter.mp hmaker).1
      · exact fun hagg => haggTail (List.mem_filter.mp hagg).1
    have hremaining := htraded.remaining_eq maker
    rw [if_pos (Or.inl rfl)] at hremaining
    have hdone := htraded.done_iff
    have haccepted : ((maker :: behind).filter fun slot => priceOk (s.slab slot).price) =
        maker :: behind.filter fun slot => priceOk (s.slab slot).price := by
      simp [hok]
    rw [htraded.queue_level, htraded.queue_eq, htraded.filter_eq, haccepted, restingQty_cons]
    by_cases hzero : (s'.slab maker).quantity = 0
    · rw [if_pos hzero, hbehind]
      have hle := hdone.mp hzero
      omega
    · rw [if_neg hzero, haccepted, restingQty_cons, hbehind, hremaining]
      have hlt : ¬ (s.slab maker).remaining ≤ (s.slab agg).remaining :=
        fun hle => hzero (hdone.mpr hle)
      omega

theorem level_lt (htraded : Traded instrumentId agg maker level behind s s')
    {book : OrderBook} (hbook : s.engine.books instrumentId = some book) :
    level < book.grid.numLevels :=
  ((s.rep.bookRep _ book hbook).placed _ _ _ htraded.maker_mem).range

end Traded

namespace Swept

variable {s s' : Snapshot} {instrumentId : InstrumentId} {agg : Slot}
  {priceOk : Price → Bool}

/-- The incoming order and the crossing quantity lose the same amount. -/
theorem crossing_balance (hswept : Swept instrumentId agg priceOk s s')
    (hloose : s.IsLoose agg) {book : OrderBook}
    (hbook : s.engine.books instrumentId = some book) :
    (s'.slab agg).remaining +
        s.crossing instrumentId (s.makerSide agg) book.grid.numLevels priceOk =
      (s.slab agg).remaining +
        s'.crossing instrumentId (s.makerSide agg) book.grid.numLevels priceOk ∧
      (s'.slab agg).remaining ≤ (s.slab agg).remaining := by
  have hinvariant := hswept.induction
    (fun t => t.IsLoose agg ∧ t.makerSide agg = s.makerSide agg ∧
      (∃ book', t.engine.books instrumentId = some book' ∧ book'.grid = book.grid) ∧
      (t.slab agg).remaining +
          s.crossing instrumentId (s.makerSide agg) book.grid.numLevels priceOk =
        (s.slab agg).remaining +
          t.crossing instrumentId (s.makerSide agg) book.grid.numLevels priceOk ∧
      (t.slab agg).remaining ≤ (s.slab agg).remaining)
    ⟨hloose, rfl, ⟨book, hbook, rfl⟩, rfl, le_rfl⟩ ?_
  · exact hinvariant.2.2.2
  · intro t t' maker level behind htraded hok ih
    rcases ih with ⟨hloose, hside, ⟨old, hold, hgrid⟩, hbalance, hle⟩
    have hcrossing := htraded.crossing_eq hloose hok (htraded.level_lt hold)
    have hremaining := htraded.remaining_eq agg
    rw [if_pos (Or.inr rfl)] at hremaining
    rw [hside, hgrid] at hcrossing
    refine ⟨htraded.isLoose hloose, htraded.makerSide_eq.trans hside, ?_, ?_, ?_⟩
    · rcases htraded.books with ⟨old', new, hold', hnew, hgrid', _⟩
      rw [hold, Option.some.injEq] at hold'
      subst hold'
      exact ⟨new, by rw [hnew, Function.update_self], hgrid'.trans hgrid⟩
    · omega
    · omega

/-- A sweep executes as much as both sides allow. -/
theorem remaining_eq (hswept : Swept instrumentId agg priceOk s s')
    (hloose : s.IsLoose agg) {book : OrderBook}
    (hbook : s.engine.books instrumentId = some book) :
    (s'.slab agg).remaining = (s.slab agg).remaining -
      s.crossing instrumentId (s.makerSide agg) book.grid.numLevels priceOk := by
  rcases hswept.crossing_balance hloose hbook with ⟨hbalance, hle⟩
  rcases hswept.stopped with hzero | hclear
  · omega
  · have hnothing : s'.crossing instrumentId (s.makerSide agg) book.grid.numLevels
        priceOk = 0 := by
      unfold Snapshot.crossing
      apply Finset.sum_eq_zero
      intro i _
      rw [List.filter_eq_nil_iff.mpr]
      · rfl
      · intro slot hslot
        rw [← hswept.makerSide_eq] at hslot
        simp [hclear i slot hslot]
    omega

end Swept

/-! ## Reports -/

namespace ExecutionReport

/-- A `Fill` or `PartialFill`. -/
def isTrade (report : ExecutionReport) : Bool :=
  report.kind = .fill || report.kind = .partialFill

/-- A report after which nothing more is executed. -/
def isTerminal (report : ExecutionReport) : Bool :=
  report.kind = .fill || report.kind = .cancelAck || report.kind = .reject

end ExecutionReport

/-- The executed quantity of a list of reports. -/
def executedQty (reports : List ExecutionReport) : ℕ :=
  ((reports.filter ExecutionReport.isTrade).map fun report => report.execQuantity.toNat).sum

/-- The reports posted for the submitted order in one dispatch.  A sweep posts
the maker report before the taker report of each trade. -/
def ownReports : List ExecutionReport → List ExecutionReport
  | [] => []
  | [report] => [report]
  | first :: second :: reports =>
      if first.isTrade then second :: ownReports reports
      else first :: ownReports (second :: reports)

abbrev TradePair := ExecutionReport × ExecutionReport

def pairReports (fills : List TradePair) : List ExecutionReport :=
  fills.flatMap fun pair => [pair.1, pair.2]

/-- What the reports of a sweep say. -/
structure SweepReports (agg : Slot) (priceOk : Price → Bool) (s s' : Snapshot)
    (fills : List TradePair) : Prop where
  outbound_eq : s'.engine.outbound = s.engine.outbound ++ pairReports fills
  trades : ∀ pair ∈ fills, pair.1.isTrade = true ∧ pair.2.isTrade = true
  ids : ∀ pair ∈ fills, pair.2.orderId = (s.slab agg).orderId
  prices : ∀ pair ∈ fills, priceOk pair.2.execPrice = true
  executed : (fills.map fun pair => pair.2.execQuantity.toNat).sum +
    (s'.slab agg).remaining = (s.slab agg).remaining
  started : fills ≠ [] → 0 < (s.slab agg).remaining
  last : ∀ pair, fills.getLast? = some pair →
    pair.2.leavesQuantity = (s'.slab agg).quantity ∧
      pair.2.kind = if (s'.slab agg).quantity = 0 then .fill else .partialFill

theorem tradeReports_eq_pair (maker taker maker' taker' : Order) (fill : Quantity)
    (timestamps : UInt64 × UInt64) :
    ∃ pair : TradePair,
      tradeReports maker taker maker' taker' fill timestamps = [pair.1, pair.2] ∧
        pair.1.isTrade = true ∧ pair.2.isTrade = true ∧ pair.2.orderId = taker.orderId ∧
        pair.2.execPrice = maker.price ∧ pair.2.execQuantity = fill ∧
        pair.2.leavesQuantity = taker'.quantity ∧
        pair.2.kind = if taker'.quantity = 0 then .fill else .partialFill := by
  refine ⟨(_, _), rfl, ?_, ?_, rfl, rfl, rfl, rfl, rfl⟩
  · unfold ExecutionReport.isTrade
    split_ifs <;> rfl
  · unfold ExecutionReport.isTrade
    split_ifs <;> rfl

theorem Swept.exists_reports {s s' : Snapshot} {instrumentId : InstrumentId} {agg : Slot}
    {priceOk : Price → Bool} (hswept : Swept instrumentId agg priceOk s s') :
    ∃ fills, SweepReports agg priceOk s s' fills ∧
      (s'.slab agg).orderId = (s.slab agg).orderId := by
  apply hswept.induction (fun t => ∃ fills, SweepReports agg priceOk s t fills ∧
    (t.slab agg).orderId = (s.slab agg).orderId)
  · refine ⟨[], ⟨?_, ?_, ?_, ?_, ?_, ?_, ?_⟩, rfl⟩
    · simp [pairReports]
    all_goals simp
  · intro t t' maker level behind htraded hok ih
    rcases ih with ⟨fills, hfills, hid⟩
    rcases tradeReports_eq_pair (t.slab maker) (t.slab agg) (t'.slab maker) (t'.slab agg)
      (Engine.fillQuantity (t.slab maker) (t.slab agg))
      (t.engine.clock t.engine.clockReads, t.engine.clock (t.engine.clockReads + 1)) with
      ⟨pair, hpair, hmakerTrade, htakerTrade, htakerId, hprice, hquantity, hleaves, hkind⟩
    refine ⟨fills ++ [pair], ⟨?_, ?_, ?_, ?_, ?_, ?_, ?_⟩, (htraded.orderId_eq agg).trans hid⟩
    · rw [htraded.outbound, hpair, hfills.outbound_eq]
      simp [pairReports]
    · intro other hother
      rcases List.mem_append.mp hother with hold | hnew
      · exact hfills.trades other hold
      · rw [List.mem_singleton.mp hnew]
        exact ⟨hmakerTrade, htakerTrade⟩
    · intro other hother
      rcases List.mem_append.mp hother with hold | hnew
      · exact hfills.ids other hold
      · rw [List.mem_singleton.mp hnew, htakerId, hid]
    · intro other hother
      rcases List.mem_append.mp hother with hold | hnew
      · exact hfills.prices other hold
      · rw [List.mem_singleton.mp hnew, hprice]
        exact hok
    · have hexecuted := hfills.executed
      have hremaining := htraded.remaining_eq agg
      rw [if_pos (Or.inr rfl)] at hremaining
      have hfill := Engine.fillQuantity_toNat (t.slab maker) (t.slab agg)
      rw [← hquantity] at hfill
      rw [List.map_append, List.sum_append]
      simp only [List.map_cons, List.map_nil, List.sum_cons, List.sum_nil]
      omega
    · intro _
      have hexecuted := hfills.executed
      have hunfilled := htraded.unfilled
      omega
    · intro other hother
      rw [List.getLast?_append] at hother
      simp only [List.getLast?_singleton, Option.some_or, Option.some.injEq] at hother
      subst hother
      exact ⟨hleaves, hkind⟩

theorem ownReports_pairReports (fills : List TradePair) (rest : List ExecutionReport)
    (htrades : ∀ pair ∈ fills, pair.1.isTrade = true) :
    ownReports (pairReports fills ++ rest) = fills.map Prod.snd ++ ownReports rest := by
  induction fills with
  | nil => rfl
  | cons pair fills ih =>
      have hfirst := htrades pair (by simp)
      have htail := ih (fun other hother => htrades other (by simp [hother]))
      simp only [pairReports, List.flatMap_cons, List.cons_append, List.nil_append,
        ownReports, hfirst, if_true, List.map_cons]
      rw [← htail]
      rfl

theorem executedQty_takers {agg : Slot} {priceOk : Price → Bool} {s s' : Snapshot}
    {fills : List TradePair} (hfills : SweepReports agg priceOk s s' fills) :
    executedQty (fills.map Prod.snd) + (s'.slab agg).remaining =
      (s.slab agg).remaining := by
  have hall : (fills.map Prod.snd).filter ExecutionReport.isTrade = fills.map Prod.snd := by
    apply List.filter_eq_self.mpr
    intro report hreport
    rcases List.mem_map.mp hreport with ⟨pair, hpair, rfl⟩
    exact (hfills.trades pair hpair).2
  unfold executedQty
  rw [hall, List.map_map]
  exact hfills.executed

end NanoMatch
