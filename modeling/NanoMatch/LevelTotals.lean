import NanoMatch.Cancellable
import NanoMatch.ExchangeRuns
import NanoMatch.FeasibilityScan

/-!
# Level totals

A level caches the total quantity of its queue in 32 bits.  The addition on
entry and the subtraction of a fill are unchecked, the subtraction on removal
saturates.  As long as no order comes to rest where the true sum leaves 32 bits,
the cached values are the true ones: no operation wraps and the saturating
branches are not taken.  The first order which breaks this makes its level
inexact, since no 32-bit value is the true sum any more.
-/

namespace NanoMatch

open OrderBook

def Snapshot.LevelsExact (s : Snapshot) : Prop :=
  ∀ instrumentId book, s.engine.books instrumentId = some book →
    ∀ side i, (book.aggregates side i).Exact s.slab (s.queues instrumentId side i)

namespace Snapshot.LevelsExact

variable {s s' : Snapshot} {msg : InboundOrderMsg} {instrumentId : InstrumentId}

theorem of_same (hexact : s.LevelsExact) (hbooks : s'.engine.books = s.engine.books)
    (hqueues : s'.queues = s.queues)
    (hquantity : ∀ instrumentId side i, ∀ slot ∈ s.queues instrumentId side i,
      (s'.slab slot).quantity = (s.slab slot).quantity) : s'.LevelsExact := by
  intro instrumentId book hbook side i
  rw [hbooks] at hbook
  rw [hqueues]
  exact (hexact instrumentId book hbook side i).congr (hquantity instrumentId side i)

theorem admitted (hexact : s.LevelsExact) {slot : Slot} (hadmitted : Admitted msg slot s s') :
    s'.LevelsExact := by
  apply hexact.of_same hadmitted.books_eq hadmitted.queues_eq
  intro instrumentId side i other hother
  rw [← hadmitted.queues_eq] at hother
  rw [hadmitted.others other (Snapshot.ne_of_isLoose hadmitted.loose hother)]

theorem posted (hexact : s.LevelsExact) {reports : List ExecutionReport} {count : ℕ}
    (hposted : Posted reports count s s') : s'.LevelsExact := by
  apply hexact.of_same hposted.books_eq hposted.queues_eq
  intro _ _ _ other _
  unfold Snapshot.slab Engine.slab
  rw [hposted.pool_eq]

theorem released (hexact : s.LevelsExact) {slot : Slot} (hreleased : Released slot s s') :
    s'.LevelsExact := by
  apply hexact.of_same hreleased.books_eq hreleased.queues_eq
  intro _ _ _ other _
  exact hreleased.quantity other

/-- One book has new aggregates at one level. -/
theorem of_set (hexact : s.LevelsExact) {book book' : OrderBook} {side : BookSide}
    {level : ℕ} {cached : Aggregates} (hbook : s.engine.books instrumentId = some book)
    (hbooks : s'.engine.books = Function.update s.engine.books instrumentId (some book'))
    (hset : book.AggregatesSet book' side level cached)
    (hlevel : cached.Exact s'.slab (s'.queues instrumentId side level))
    (hothers : ∀ instrumentId' side' i,
      ¬ (instrumentId' = instrumentId ∧ side' = side ∧ i = level) →
        s'.queues instrumentId' side' i = s.queues instrumentId' side' i ∧
          ∀ slot ∈ s.queues instrumentId' side' i,
            (s'.slab slot).quantity = (s.slab slot).quantity) : s'.LevelsExact := by
  intro instrumentId' found hfound side' i
  rw [hbooks] at hfound
  by_cases hsame : instrumentId' = instrumentId
  · subst hsame
    rw [Function.update_self, Option.some.injEq] at hfound
    rw [← hfound, hset side' i]
    split_ifs with hat
    · rcases hat with ⟨rfl, rfl⟩
      exact hlevel
    · rcases hothers instrumentId' side' i (fun hall => hat hall.2) with ⟨hqueue, hquantity⟩
      rw [hqueue]
      exact (hexact instrumentId' book hbook side' i).congr hquantity
  · rw [Function.update_of_ne hsame] at hfound
    rcases hothers instrumentId' side' i (fun hall => hsame hall.1) with ⟨hqueue, hquantity⟩
    rw [hqueue]
    exact (hexact instrumentId' found hfound side' i).congr hquantity

theorem rested (hexact : s.LevelsExact) {slot : Slot} {level : ℕ}
    (hrested : Rested instrumentId slot level s s')
    (hbound : restingQty s.slab (s.queues instrumentId (s.slab slot).side.bookSide level) +
      (s.slab slot).remaining < 2 ^ 32) : s'.LevelsExact := by
  rcases hrested.books with ⟨book, book', hbook, hbooks, _⟩
  have hbook' : s'.engine.books instrumentId = some book' := by
    rw [hbooks, Function.update_self]
  apply hexact.of_set hbook hbooks (hrested.aggregates book book' hbook hbook')
  · rw [hrested.queues_eq, Function.update_self, Queues.set_same]
    have hadded := (hexact instrumentId book hbook (s.slab slot).side.bookSide level).added
      ((s.rep.bookRep _ book hbook).positive _ _) hrested.unfilled hbound
    exact hadded.congr (fun other _ => hrested.quantity other)
  · intro instrumentId' side i hne
    refine ⟨?_, fun other _ => hrested.quantity other⟩
    rw [hrested.queue_apply, if_neg hne]

theorem removed (hexact : s.LevelsExact) {slot : Slot} {side : BookSide} {level : ℕ}
    {before after : List Slot}
    (hremoved : Removed instrumentId slot side level before after s s') :
    s'.LevelsExact := by
  rcases hremoved.books with ⟨book, book', hbook, hbooks, _⟩
  have hbook' : s'.engine.books instrumentId = some book' := by
    rw [hbooks, Function.update_self]
  apply hexact.of_set hbook hbooks (hremoved.aggregates book book' hbook hbook')
  · rw [hremoved.queues_eq, Function.update_self, Queues.set_same]
    have hlevel := hexact instrumentId book hbook side level
    rw [hremoved.queue_eq] at hlevel
    exact hlevel.removed.congr (fun other _ => hremoved.quantity other)
  · intro instrumentId' side' i hne
    refine ⟨?_, fun other _ => hremoved.quantity other⟩
    rw [hremoved.queue_apply, if_neg hne]

/-- A fill takes at most the quantity of the head, which its level has. -/
theorem traded_level {cached : Aggregates} {agg maker : Slot} {level : ℕ}
    {behind : List Slot} (htraded : Traded instrumentId agg maker level behind s s')
    (hloose : s.IsLoose agg) (hcached : cached.Exact s.slab (maker :: behind)) :
    (cached.filled (Engine.fillQuantity (s.slab maker) (s.slab agg))
      (decide ((s'.slab maker).quantity = 0))).Exact s'.slab
        (if (s'.slab maker).quantity = 0 then behind else maker :: behind) := by
  have hmiddle : cached.Exact s.slab ([] ++ maker :: behind) := hcached
  have hcovered := hmiddle.quantity_le_total
  have hfill := Engine.fillQuantity_le_rest (s.slab maker) (s.slab agg)
  have hbehind : restingQty s'.slab behind = restingQty s.slab behind := by
    apply htraded.restingQty_other htraded.maker_notMem_tail
    intro hagg
    apply hloose.notQueued instrumentId (s.makerSide agg) level
    rw [htraded.queue_eq]
    simp [hagg]
  have hremaining := htraded.remaining_eq maker
  rw [if_pos (Or.inl rfl)] at hremaining
  have hquantity := Engine.fillQuantity_toNat (s.slab maker) (s.slab agg)
  have hsum := hcached.1
  rw [restingQty_cons] at hsum
  have hdebited : (⟨cached.totalQty - Engine.fillQuantity (s.slab maker) (s.slab agg),
      cached.orderCount⟩ : Aggregates).Exact s'.slab ([] ++ maker :: behind) := by
    refine ⟨?_, hcached.2⟩
    rw [List.nil_append, restingQty_cons, hbehind, hremaining,
      UInt32.toNat_sub_of_le _ _ (UInt32.le_trans hfill hcovered), hquantity, hsum]
    omega
  unfold Aggregates.filled
  by_cases hdone : (s'.slab maker).quantity = 0
  · simp only [hdone, decide_true, if_true]
    have hremoved := hdebited.removed
    rw [hdone] at hremoved
    exact hremoved
  · simp only [hdone, decide_false, if_false]
    exact hdebited

theorem traded (hexact : s.LevelsExact) {agg maker : Slot} {level : ℕ} {behind : List Slot}
    (htraded : Traded instrumentId agg maker level behind s s') (hloose : s.IsLoose agg) :
    s'.LevelsExact := by
  rcases htraded.books with ⟨book, book', hbook, hbooks, _⟩
  have hbook' : s'.engine.books instrumentId = some book' := by
    rw [hbooks, Function.update_self]
  apply hexact.of_set hbook hbooks (htraded.aggregates book book' hbook hbook')
  · rw [htraded.queue_level]
    have hlevel := hexact instrumentId book hbook (s.makerSide agg) level
    rw [htraded.queue_eq] at hlevel
    exact traded_level htraded hloose hlevel
  · intro instrumentId' side i hne
    refine ⟨htraded.queue_other hne, ?_⟩
    intro slot hslot
    rw [htraded.quantity slot, if_neg]
    rintro (rfl | rfl)
    · exact hne (s.rep.queue_unique htraded.maker_mem hslot)
    · exact hloose.notQueued _ _ _ hslot

theorem keptByPhases (instrumentId : InstrumentId) :
    KeptByPhases instrumentId Snapshot.LevelsExact where
  posted hposted hexact := hexact.posted hposted
  admitted hadmitted hexact := hexact.admitted hadmitted
  traded htraded hloose hexact := hexact.traded htraded hloose
  released hreleased hexact := hexact.released hreleased
  removed hremoved hexact := hexact.removed hremoved

theorem of_empty (hqueues : s.queues = fun _ _ _ => [])
    (hcached : ∀ instrumentId book, s.engine.books instrumentId = some book →
      ∀ side i, book.aggregates side i = ⟨0, 0⟩) : s.LevelsExact := by
  intro instrumentId book hbook side i
  rw [hcached instrumentId book hbook side i, hqueues]
  exact ⟨rfl, rfl⟩

end Snapshot.LevelsExact

/-! ## Messages -/

/-- An order which will rest leaves the true sum of its level in 32 bits. -/
def Engine.FitsLevel (engine : Engine) (msg : InboundOrderMsg) : Prop :=
  engine.WillRest msg →
    ∀ book, engine.books msg.instrumentId = some book →
      restingQty engine.slab (engine.queue msg.instrumentId msg.orderSide.bookSide
          (book.grid.tickToIndex msg.price)) +
        (msg.quantity.toNat - engine.crossingQuantity msg) < 2 ^ 32

section Messages

variable {s s' : Snapshot} {msg : InboundOrderMsg}

theorem BookSide.ne_opposite (side : BookSide) : side ≠ side.opposite := by
  cases side <;> simp [BookSide.opposite]

/-- The sweep leaves the own side of the order alone. -/
theorem Admitted.ownSide_eq {slot : Slot} {s₀ s₁ : Snapshot}
    (hadmitted : Admitted msg slot s s₀)
    (hswept : Swept msg.instrumentId slot msg.accepts s₀ s₁) (level : ℕ) :
    s₁.queues msg.instrumentId msg.orderSide.bookSide level =
        s.queues msg.instrumentId msg.orderSide.bookSide level ∧
      restingQty s₁.slab (s₁.queues msg.instrumentId msg.orderSide.bookSide level) =
        restingQty s.slab (s.queues msg.instrumentId msg.orderSide.bookSide level) := by
  have hframe := hswept.frame hadmitted.loose
  have hne : ¬ (msg.instrumentId = msg.instrumentId ∧
      msg.orderSide.bookSide = s₀.makerSide slot) := by
    rw [hadmitted.makerSide_eq]
    exact fun hall => BookSide.ne_opposite _ hall.2
  have hqueue : s₁.queues msg.instrumentId msg.orderSide.bookSide level =
      s.queues msg.instrumentId msg.orderSide.bookSide level := by
    rw [hframe.queues _ _ hne, hadmitted.queues_eq]
  refine ⟨hqueue, ?_⟩
  rw [hqueue]
  unfold restingQty
  congr 1
  apply List.map_congr_left
  intro other hother
  rw [← hadmitted.queues_eq] at hother
  have hview := congrArg RestingOrder.remaining
    (hframe.views _ _ hne level other hother)
  have hkept := hadmitted.others other (Snapshot.ne_of_isLoose hadmitted.loose hother)
  rw [hkept] at hview
  exact hview

theorem Snapshot.LevelsExact.message (hexact : s.LevelsExact)
    (hfits : s.engine.FitsLevel msg) (hstep : MessageStep msg s s') : s'.LevelsExact := by
  apply (keptByPhases msg.instrumentId).message hstep _ hexact
  intro slot book s₀ s₁ t hkind hrests hswept
  have hrest := hrests.admitted.willRest hkind hrests.listed hrests.swept hrests.limit
    hrests.valid hrests.rested.unfilled
  have hbound := hfits hrest book hrests.listed
  rw [s.rep.queue_eq] at hbound
  apply hswept.rested hrests.rested
  rw [(hrests.admitted.swept_terms hrests.swept).2.2.2,
    (hrests.admitted.ownSide_eq hrests.swept _).2,
    hrests.admitted.residual_eq hrests.listed hrests.swept]
  exact hbound

/-- The condition is necessary: a cached total is below 2^32. -/
theorem MessageStep.fitsLevel (hstep : MessageStep msg s s') (hexact' : s'.LevelsExact) :
    s.engine.FitsLevel msg := by
  intro hrest book hbook
  rcases hrest with ⟨hkind, htype, hfree, ⟨found, hfound, hvalid⟩, hmore⟩
  rw [hbook, Option.some.injEq] at hfound
  subst hfound
  rcases hstep.newOrder_step hkind with ⟨s₁, hstep, hcounted⟩
  rcases hstep.residual_cases htype hfree hbook hmore with
    ⟨slot, s₀, s₂, hadmitted, hswept, ⟨_, hrested⟩ | ⟨hinvalid, _⟩⟩
  · rcases hrested.books with ⟨old, new, _, hbooks, _⟩
    have hnew : s'.engine.books msg.instrumentId = some new := by
      rw [hcounted.books_eq, hbooks, Function.update_self]
    have htotal := (hexact' msg.instrumentId new hnew msg.orderSide.bookSide
      (book.grid.tickToIndex msg.price)).1
    have hlt := (new.aggregates msg.orderSide.bookSide
      (book.grid.tickToIndex msg.price)).totalQty.toNat_lt
    have hside := (hadmitted.swept_terms hswept).2.2.2
    have hquantity : ∀ other, (s'.slab other).quantity = (s₂.slab other).quantity := by
      intro other
      rw [← hrested.quantity other]
      unfold Snapshot.slab Engine.slab
      rw [hcounted.pool_eq]
    rw [hcounted.queues_eq, hrested.queues_eq, Function.update_self, hside, Queues.set_same,
      restingQty_congr (fun other _ => hquantity other), restingQty_append,
      (hadmitted.ownSide_eq hswept _).2] at htotal
    simp only [restingQty_cons, restingQty_nil, hadmitted.residual_eq hbook hswept] at htotal
    rw [s.rep.queue_eq]
    change restingQty s.slab _ + _ < _
    omega
  · rw [hvalid] at hinvalid
    exact absurd hinvalid (by simp)

end Messages

/-! ## Runs -/

/-- The cached values are the true ones.  So the whole quantity of a queued order,
or a part of it, can be taken from the total of its level without wrapping or
saturating, and one from its count. -/
structure TotalsExact (engine : Engine) : Prop where
  exact : ∀ instrumentId book, engine.books instrumentId = some book →
    ∀ side i, LevelExact engine.slab (book.sideLevels side i)
      (engine.queue instrumentId side i)
  covered : ∀ instrumentId book, engine.books instrumentId = some book →
    ∀ side i, ∀ slot ∈ engine.queue instrumentId side i,
      (engine.slab slot).quantity ≤ (book.sideLevels side i).totalQty ∧
        1 ≤ (book.sideLevels side i).orderCount

/-- The totals are exact now and after every iteration of the sweep of whichever
order comes next. -/
structure TotalsKept (engine : Engine) : Prop where
  now : TotalsExact engine
  sweeping : ∀ (msg : InboundOrderMsg) (slot : Slot) (pool : OrderPool),
    engine.books msg.instrumentId ≠ none → engine.pool.acquire = some (slot, pool) →
      ∀ iterations, TotalsExact (Engine.sweepFuel msg.instrumentId slot msg.accepts iterations
        (engine.admitOrder msg slot pool))

/-- The unchecked addition of an order which will rest does not wrap. -/
def Engine.AddsExactly (engine : Engine) (msg : InboundOrderMsg) : Prop :=
  engine.WillRest msg →
    ∀ book, engine.books msg.instrumentId = some book →
      (book.sideLevels msg.orderSide.bookSide
          (book.grid.tickToIndex msg.price)).totalQty.toNat +
        (msg.quantity.toNat - engine.crossingQuantity msg) < 2 ^ 32

theorem Snapshot.totalsExact_iff (s : Snapshot) : TotalsExact s.engine ↔ s.LevelsExact := by
  constructor
  · intro htotals instrumentId book hbook side i
    rw [← s.rep.queue_eq]
    exact (htotals.exact instrumentId book hbook side i).aggregates
  · intro hexact
    constructor
    · intro instrumentId book hbook side i
      have hlevel := hexact instrumentId book hbook side i
      rw [s.rep.queue_eq]
      exact ⟨hlevel.1, hlevel.2⟩
    · intro instrumentId book hbook side i slot hslot
      have hlevel := hexact instrumentId book hbook side i
      rw [s.rep.queue_eq] at hslot
      rcases List.append_of_mem hslot with ⟨before, after, hqueue⟩
      rw [hqueue] at hlevel
      exact ⟨hlevel.quantity_le_total, hlevel.one_le_count⟩

theorem Admitted.priceCheck {msg : InboundOrderMsg} {slot : Slot} {s s₀ : Snapshot}
    (hadmitted : Admitted msg slot s s₀) :
    PriceCheck (s₀.makerSide slot) msg.accepts := by
  by_cases htype : msg.orderType = .market
  · intro _ _ _ _
    simp [InboundOrderMsg.accepts, htype]
  · have hcheck := priceCheck_limitOk (s₀.slab slot)
    rw [hadmitted.order, Engine.limitOk_populated _ htype, ← hadmitted.order] at hcheck
    exact hcheck

theorem Snapshot.LevelsExact.totalsKept {s : Snapshot} (hexact : s.LevelsExact) :
    TotalsKept s.engine := by
  refine ⟨s.totalsExact_iff.mpr hexact, ?_⟩
  intro msg slot pool hlisted hacquire iterations
  cases hbook : s.engine.books msg.instrumentId with
  | none => exact absurd hbook hlisted
  | some book =>
      rcases s.admitted_of_acquire msg hacquire with ⟨s₀, hengine, hadmitted⟩
      rw [← hadmitted.books_eq] at hbook
      rcases Snapshot.sweepFuel_spec iterations hadmitted.loose hbook
        hadmitted.priceCheck with ⟨s', hengine', htrades, _⟩
      rw [← hengine, ← hengine', Snapshot.totalsExact_iff]
      exact (Snapshot.LevelsExact.keptByPhases _).trades hadmitted.loose htrades
        (hexact.admitted hadmitted)

theorem Initial.levelsExact {capacity : ℕ} {clock : ℕ → UInt64}
    {listings : List (InstrumentId × PriceGrid)} {s : Snapshot}
    (hs : Initial listings capacity clock s) : s.LevelsExact := by
  apply Snapshot.LevelsExact.of_empty hs.queues_eq
  intro instrumentId book hbook
  rw [hs.engine_eq] at hbook
  rcases Engine.listed_book hbook with ⟨grid, rfl⟩
  intro side i
  cases side <;> rfl

section Runs

variable (capacity : ℕ) (clock : ℕ → UInt64) (listings : List (InstrumentId × PriceGrid))

theorem exists_levelsExact (msgs : List InboundOrderMsg)
    (hfits : ∀ before msg after, msgs = before ++ msg :: after →
      ((Engine.listed capacity clock listings).runMessages before).FitsLevel msg)
    {before after : List InboundOrderMsg} (hsplit : msgs = before ++ after) :
    ∃ s : Snapshot,
      s.engine = (Engine.listed capacity clock listings).runMessages before ∧
        s.LevelsExact := by
  have hinvariant := runMessages_induction capacity clock listings
    (fun history s => ∀ rest, msgs = history ++ rest → s.LevelsExact)
    (fun s hs _ _ => hs.levelsExact) ?_ before
  · rcases hinvariant with ⟨s, hengine, hexact⟩
    exact ⟨s, hengine, hexact after hsplit⟩
  · intro history msg s s' hengine hexact hstep rest hsplit
    have hsplit' : msgs = history ++ msg :: rest := by simp [hsplit]
    have hmsg := hfits history msg rest hsplit'
    rw [← hengine] at hmsg
    exact (hexact _ hsplit').message hmsg hstep

/-- The cached totals are exact, in every state of a run and inside every sweep,
and no addition wraps, exactly when every order which comes to rest fits its
level. -/
theorem run_totalsKept_iff (msgs : List InboundOrderMsg) :
    ((∀ before after, msgs = before ++ after →
        TotalsKept ((Engine.listed capacity clock listings).runMessages before)) ∧
      ∀ before msg after, msgs = before ++ msg :: after →
        ((Engine.listed capacity clock listings).runMessages before).AddsExactly msg) ↔
      ∀ before msg after, msgs = before ++ msg :: after →
        ((Engine.listed capacity clock listings).runMessages before).FitsLevel msg := by
  constructor
  · intro hall before msg after hsplit
    rcases exists_snapshot_messages capacity clock listings before with ⟨s, hengine⟩
    rcases s.submit_step msg with ⟨s', hengine', hstep⟩
    have hafter := (hall.1 (before ++ [msg]) after (by simp [hsplit])).now
    have hrun : (Engine.listed capacity clock listings).runMessages (before ++ [msg]) =
        s'.engine := by
      rw [hengine', hengine]
      simp [Engine.runMessages]
    rw [hrun, s'.totalsExact_iff] at hafter
    rw [← hengine]
    exact hstep.fitsLevel hafter
  · intro hfits
    constructor
    · intro before after hsplit
      rcases exists_levelsExact capacity clock listings msgs hfits hsplit with
        ⟨s, hengine, hexact⟩
      rw [← hengine]
      exact hexact.totalsKept
    · intro before msg after hsplit hrest book hbook
      rcases exists_levelsExact capacity clock listings msgs hfits hsplit with
        ⟨s, hengine, hexact⟩
      have hbound := hfits before msg after hsplit hrest book hbook
      rw [← hengine] at hbook hbound
      rw [← hengine, (s.totalsExact_iff.mpr hexact |>.exact _ book hbook _ _).total]
      exact hbound

end Runs

/-- Two bids of 2^31 at one price: the true sum is 2^32 and the cached total is
zero. -/
theorem total_wraps :
    ¬ TotalsKept (sampleEngine.runMessages
      [sampleOrder 0 0 1 104 2147483648, sampleOrder 0 0 2 104 2147483648]) := by
  intro hkept
  generalize hengine : sampleEngine.runMessages
    [sampleOrder 0 0 1 104 2147483648, sampleOrder 0 0 2 104 2147483648] = engine at hkept
  have hcached : (engine.books 0).map (fun book => (book.sideLevels .bid 4).totalQty) =
      some 0 := by
    rw [← hengine]
    decide
  have hsum : restingQty engine.slab (engine.queue 0 .bid 4) = 2 ^ 32 := by
    rw [← hengine]
    decide
  cases hbook : engine.books 0 with
  | none =>
      rw [hbook] at hcached
      exact absurd hcached (by simp)
  | some book =>
      have htotal := (hkept.now.exact 0 book hbook .bid 4).total
      rw [hbook] at hcached
      simp only [Option.map_some, Option.some.injEq] at hcached
      rw [hcached, hsum] at htotal
      exact absurd htotal (by decide)

/-! ## The feasibility scan -/

/-- The quantity of all orders of the other side whose price crosses the limit. -/
def OrderBook.crossingTotal (slab : Slab) (book : OrderBook) (queues : Queues)
    (side : Side) (limit : Price) : ℕ :=
  ∑ i ∈ Finset.range book.grid.numLevels, restingQty slab
    ((queues side.bookSide.opposite i).filter fun slot =>
      side.crosses limit (slab slot).price)

/-- The scan finds exactly the crossing quantity, and in every engine which holds
the book a sweep with this limit fills what the scan found, up to the quantity of
its order. -/
structure ScanFinds (slab : Slab) (book : OrderBook) (queues : Queues) (side : Side)
    (limit : Price) : Prop where
  found : (book.availableQuantityAtOrBetter side limit).toNat =
    book.crossingTotal slab queues side limit
  filled : ∀ (s : Snapshot) (instrumentId : InstrumentId) (agg : Slot),
    s.engine.books instrumentId = some book → s.queues instrumentId = queues →
    (∀ side' i, ∀ slot ∈ queues side' i, s.slab slot = slab slot) →
    s.IsLoose agg → (s.slab agg).side = side → (s.slab agg).price = limit →
      ((s.engine.doSweep instrumentId agg (side.crosses limit)).slab agg).remaining +
          min (s.slab agg).remaining (book.availableQuantityAtOrBetter side limit).toNat =
        (s.slab agg).remaining

section Scan

variable {slab : Slab} {book : OrderBook} {queues : Queues}

theorem BookShape.crossingTotal_eq (hshape : BookShape slab book queues) (side : Side)
    (limit : Price) :
    book.crossingTotal slab queues side limit =
      ∑ i ∈ Finset.range book.grid.numLevels,
        if side.crosses limit (book.grid.indexToPrice i) = true then
          restingQty slab (queues side.bookSide.opposite i) else 0 := by
  apply Finset.sum_congr rfl
  intro i _
  exact hshape.restingQty_filter _ i (side.crosses limit)

theorem OrderBook.excess_of_valid (book : OrderBook) (side : Side) {limit : Price}
    (hvalid : book.grid.isValidPrice limit = true) (totals : ℕ → ℕ) :
    book.excess side limit totals = 0 := by
  have hprice := (book.grid.tickToIndex_lt_numLevels hvalid).2
  have hmin := book.grid.minPrice_le_indexToPrice (book.grid.tickToIndex limit)
  unfold OrderBook.excess
  split_ifs with hbuy hlow hinside
  · rw [← hprice] at hmin
    exact absurd hlow (not_lt.mpr hmin)
  · rfl
  · rw [hvalid] at hinside
    exact absurd hinside.2.2 (by simp)
  · rfl

theorem BookShape.available_of_valid (hshape : BookShape slab book queues)
    (hexact : ∀ side i, (book.sideLevels side i).totalQty.toNat =
      restingQty slab (queues side i)) (side : Side) {limit : Price}
    (hvalid : book.grid.isValidPrice limit = true) :
    (book.availableQuantityAtOrBetter side limit).toNat =
      book.crossingTotal slab queues side limit % 2 ^ 32 := by
  rw [hshape.available_eq side (hexact _) limit, book.scanned_eq limit _ side,
    book.excess_of_valid side hvalid, Nat.add_zero, hshape.crossingTotal_eq side limit]

theorem Engine.limitOk_eq (order : Order) :
    Engine.limitOk order = order.side.crosses order.price := by
  funext price
  unfold Engine.limitOk Order.isBuy Side.crosses
  by_cases hbuy : order.side = .buy <;> simp [hbuy]

/-- A sweep fills as much as both its order and the crossing quantity allow. -/
theorem Snapshot.doSweep_fills {s : Snapshot} {instrumentId : InstrumentId} {agg : Slot}
    (hbook : s.engine.books instrumentId = some book)
    (hqueues : s.queues instrumentId = queues)
    (hslab : ∀ side i, ∀ slot ∈ queues side i, s.slab slot = slab slot)
    (hloose : s.IsLoose agg) :
    ((s.engine.doSweep instrumentId agg
        ((s.slab agg).side.crosses (s.slab agg).price)).slab agg).remaining =
      (s.slab agg).remaining -
        book.crossingTotal slab queues (s.slab agg).side (s.slab agg).price := by
  rcases Snapshot.sweepLimit_exit hloose hbook with ⟨s', hengine, hswept⟩
  have hremaining := hswept.remaining_eq hloose hbook
  rw [Engine.limitOk_eq] at hremaining
  have hcrossing : s.crossing instrumentId (s.makerSide agg) book.grid.numLevels
      ((s.slab agg).side.crosses (s.slab agg).price) =
        book.crossingTotal slab queues (s.slab agg).side (s.slab agg).price := by
    unfold Snapshot.crossing OrderBook.crossingTotal
    apply Finset.sum_congr rfl
    intro i _
    rw [hqueues]
    have hfilter : ((queues (s.makerSide agg) i).filter fun slot =>
        (s.slab agg).side.crosses (s.slab agg).price (s.slab slot).price) =
          (queues (s.makerSide agg) i).filter fun slot =>
            (s.slab agg).side.crosses (s.slab agg).price (slab slot).price := by
      apply List.filter_congr
      intro slot hslot
      rw [hslab _ _ slot hslot]
    rw [hfilter]
    apply restingQty_congr
    intro slot hslot
    rw [hslab _ _ slot (List.mem_of_mem_filter hslot)]
  rw [hcrossing] at hremaining
  unfold Engine.sweepLimit at hengine
  change s'.engine = s.engine.doSweep instrumentId agg (Engine.limitOk (s.slab agg)) at hengine
  rw [Engine.limitOk_eq] at hengine
  rw [← hengine]
  exact hremaining

/-- With exact totals the scan is exact at a valid price exactly when the crossing
quantity fits into its 32-bit accumulator. -/
theorem scanFinds_iff (hrep : BookRep slab book queues)
    (hexact : ∀ side i, (book.sideLevels side i).totalQty.toNat =
      restingQty slab (queues side i)) (side : Side) (limit : Price)
    (hvalid : book.grid.isValidPrice limit = true) :
    ScanFinds slab book queues side limit ↔
      book.crossingTotal slab queues side limit < 2 ^ 32 := by
  have havailable := hrep.toBookShape.available_of_valid hexact side hvalid
  constructor
  · intro hfinds
    rw [← hfinds.found, havailable]
    exact Nat.mod_lt _ (by norm_num)
  · intro hfits
    rw [Nat.mod_eq_of_lt hfits] at havailable
    refine ⟨havailable, ?_⟩
    intro s instrumentId agg hbook hqueues hslab hloose hside hprice
    have hfills := Snapshot.doSweep_fills hbook hqueues hslab hloose
    rw [hside, hprice] at hfills
    rw [hfills, havailable]
    omega

end Scan

/-- Sell orders of 2^31 at 100, 101 and so on. -/
def wideSlab : Slab := fun slot =>
  { Order.reset with
    orderId := UInt64.ofNat slot
    price := 100 + slot
    quantity := 2147483648
    side := .sell }

def wideFirst : Slab × OrderBook := addOrder wideSlab (OrderBook.new 1 sampleGrid) (some 0)

/-- A book with two asks of 2^31. -/
def wideBook : Slab × OrderBook := addOrder wideFirst.1 wideFirst.2 (some 1)

def wideQueues : Queues :=
  Queues.set (Queues.set (fun _ _ => []) .ask 0 [0]) .ask 1 [1]

theorem wideBook_exact : BookRep wideBook.1 wideBook.2 wideQueues ∧
    ∀ side i, (wideBook.2.sideLevels side i).totalQty.toNat =
      restingQty wideBook.1 (wideQueues side i) := by
  have hempty := bookInvariant_new wideSlab 1 sampleGrid
  have hrep : BookRep wideFirst.1 wideFirst.2 (Queues.set (fun _ _ => []) .ask 0 [0]) :=
    hempty.toBookRep.addOrder (by decide) (by decide) (by decide) (by simp) (by decide)
  have hexact : BookExact wideFirst.1 wideFirst.2 (Queues.set (fun _ _ => []) .ask 0 [0]) :=
    hempty.toBookExact.addOrder hempty.toBookShape hempty.positive (by decide) (by decide)
      (by decide) (by decide) (by decide) (by decide)
  have hnotQueued : ∀ side i, 1 ∉ Queues.set (fun _ _ => []) .ask 0 [0] side i := by
    intro side i
    by_cases hlevel : side = .ask ∧ i = 0
    · rw [hlevel.1, hlevel.2]
      decide
    · rw [Queues.set_of_ne _ _ hlevel]
      simp
  constructor
  · exact hrep.addOrder (by decide) (by decide) (by decide) hnotQueued (by decide)
  · have hall : BookExact wideBook.1 wideBook.2 wideQueues :=
      hexact.addOrder hrep.toBookShape hrep.positive (by decide) (by decide)
        (by decide) (by decide) (by decide) (by decide)
    exact fun side i => (hall.level side i).total

/-- A buy limited to 100 crosses one of the two asks. -/
theorem scanFinds_iff_one_level : wideBook.2.grid.isValidPrice 100 = true ∧
    ScanFinds wideBook.1 wideBook.2 wideQueues .buy 100 :=
  ⟨by decide, (scanFinds_iff wideBook_exact.1 wideBook_exact.2 .buy 100 (by decide)).mpr
    (by decide)⟩

/-- A buy limited to 101 crosses both: their sum is 2^32 and the scan finds
nothing. -/
theorem scan_wraps : BookRep wideBook.1 wideBook.2 wideQueues ∧
    (∀ side i, (wideBook.2.sideLevels side i).totalQty.toNat =
      restingQty wideBook.1 (wideQueues side i)) ∧
    wideBook.2.grid.isValidPrice 101 = true ∧
    ¬ ScanFinds wideBook.1 wideBook.2 wideQueues .buy 101 := by
  refine ⟨wideBook_exact.1, wideBook_exact.2, by decide, ?_⟩
  intro hfinds
  have hfound := hfinds.found
  revert hfound
  decide

end NanoMatch
