import NanoMatch.PoolAccounting

/-!
# The sweep ends

The loop of the sweep has no counter.  It ends because every resting order has a
positive quantity and the level behind a cursor is never empty: then each iteration
trades at least one unit and either takes the head out of the book or fills the
incoming order.  Both are invariants of the representation, so they hold at every
iteration, whatever messages came before.

The number of iterations is therefore at most the number of orders resting on the
other side.  All but the last of the orders which are traded with are gone.
-/

namespace NanoMatch

open OrderBook

/-! ## The loop -/

namespace Engine

/-- The tests of the loop pass and its body is entered with the best level. -/
structure Enters (engine : Engine) (instrumentId : InstrumentId) (agg : Slot)
    (priceOk : Price → Bool) (book : OrderBook) (best : PriceLevel) : Prop where
  book_eq : engine.books instrumentId = some book
  unfilled : 0 < (engine.slab agg).quantity
  best_eq : book.bestLevel (engine.slab agg).side.bookSide.opposite = some best
  accepted : priceOk best.price = true

/-- The order is in a queue of the book or in its index. -/
def HoldsOrder (engine : Engine) (instrumentId : InstrumentId) (slot : Slot) : Prop :=
  slot ∈ engine.restingOn instrumentId .bid ++ engine.restingOn instrumentId .ask ∨
    ∃ book orderId, engine.books instrumentId = some book ∧
      book.findOrder orderId = some slot

/-- A positive quantity changes hands between the order of `maker` and the order of `agg`,
and the two reports of the trade carry it. -/
structure Executes (maker agg : Slot) (fill : Quantity) (before after : Engine) : Prop where
  distinct : maker ≠ agg
  positive : 1 ≤ fill
  maker_left : (after.slab maker).quantity.toNat + fill.toNat =
    (before.slab maker).quantity.toNat
  agg_left : (after.slab agg).quantity.toNat + fill.toNat = (before.slab agg).quantity.toNat
  others_left : ∀ slot, slot ≠ maker → slot ≠ agg →
    (after.slab slot).quantity = (before.slab slot).quantity
  reported : ∃ makerReport aggReport,
    after.outbound = before.outbound ++ [makerReport, aggReport] ∧
    makerReport.orderId = (before.slab maker).orderId ∧
    aggReport.orderId = (before.slab agg).orderId ∧
    makerReport.execQuantity = fill ∧ aggReport.execQuantity = fill ∧
    makerReport.leavesQuantity = (after.slab maker).quantity ∧
    aggReport.leavesQuantity = (after.slab agg).quantity

/-- The body executes a positive quantity against the head of the best level, and then the
head is gone or the incoming order is filled. -/
def TradesWithHead (engine : Engine) (instrumentId : InstrumentId) (agg : Slot)
    (priceOk : Price → Bool) : Prop :=
  ∀ book best, engine.Enters instrumentId agg priceOk book best →
    ∃ maker, best.head = some maker ∧ 0 < (engine.slab maker).quantity ∧
      engine.sweepStep instrumentId agg priceOk =
        some (engine.trade instrumentId book agg maker) ∧
      Executes maker agg (fillQuantity (engine.slab maker) (engine.slab agg)) engine
        (engine.trade instrumentId book agg maker) ∧
      (¬ (engine.trade instrumentId book agg maker).HoldsOrder instrumentId maker ∨
        ((engine.trade instrumentId book agg maker).slab agg).quantity = 0)

/-- The head of the best level on the other side. -/
def bestMaker (engine : Engine) (instrumentId : InstrumentId) (agg : Slot) : Option Slot :=
  (engine.books instrumentId).bind fun book =>
    (book.bestLevel (engine.slab agg).side.bookSide.opposite).bind PriceLevel.head

/-- The loop makes `count` iterations and is left. -/
structure SweepEnds (engine : Engine) (instrumentId : InstrumentId) (agg : Slot)
    (priceOk : Price → Bool) (count : ℕ) : Prop where
  entered : ∀ k < count, ∃ book best,
    (sweepFuel instrumentId agg priceOk k engine).Enters instrumentId agg priceOk book best
  left : ∀ book best, ¬ (sweepFuel instrumentId agg priceOk count engine).Enters
    instrumentId agg priceOk book best
  result : ∀ fuel, (engine.slab agg).quantity.toNat ≤ fuel →
    sweepFuel instrumentId agg priceOk fuel engine =
      sweepFuel instrumentId agg priceOk count engine
  count_le : count ≤
    (engine.restingOn instrumentId (engine.slab agg).side.bookSide.opposite).length
  gone : ∀ k, k + 1 < count → ∀ maker,
    (sweepFuel instrumentId agg priceOk k engine).bestMaker instrumentId agg = some maker →
      ¬ (sweepFuel instrumentId agg priceOk count engine).HoldsOrder instrumentId maker
  lastPartial : ∀ slot,
    (sweepFuel instrumentId agg priceOk count engine).HoldsOrder instrumentId slot →
    ((sweepFuel instrumentId agg priceOk count engine).slab slot).quantity ≠
      (engine.slab slot).quantity →
    ∃ k, k + 1 = count ∧
      (sweepFuel instrumentId agg priceOk k engine).bestMaker instrumentId agg = some slot

end Engine

/-! ## One iteration -/

section Iteration

variable {s s' : Snapshot} {instrumentId : InstrumentId} {agg maker : Slot} {level : ℕ}
  {behind : List Slot} {priceOk : Price → Bool} {book : OrderBook} {best : PriceLevel}

/-- What the index names is queued. -/
theorem Snapshot.holdsOrder_iff (s : Snapshot) (instrumentId : InstrumentId) (slot : Slot) :
    s.engine.HoldsOrder instrumentId slot ↔ ∃ side i, slot ∈ s.queues instrumentId side i := by
  unfold Engine.HoldsOrder
  rw [s.mem_restingOn]
  constructor
  · rintro (hqueued | ⟨book, orderId, hbook, hindexed⟩)
    · exact hqueued
    · exact ((s.rep.bookRep _ book hbook).indexed orderId slot hindexed).1
  · exact Or.inl

theorem Traded.maker_gone (htraded : Traded instrumentId agg maker level behind s s')
    (hdone : (s'.slab maker).quantity = 0) : ¬ s'.engine.HoldsOrder instrumentId maker := by
  rw [s'.holdsOrder_iff]
  rintro ⟨side, i, hmaker⟩
  rcases htraded.books with ⟨book, _, hbook, _⟩
  rw [htraded.queues', if_pos hdone] at hmaker
  exact Snapshot.maker_notMem_behind hbook htraded.queue_eq _ _ _ hmaker

theorem Traded.agg_filled (htraded : Traded instrumentId agg maker level behind s s')
    (hleft : (s'.slab maker).quantity ≠ 0) : (s'.slab agg).remaining = 0 := by
  rw [ne_eq, htraded.done_iff] at hleft
  rw [htraded.remaining_eq agg, if_pos (Or.inr rfl)]
  omega

/-- A head which is taken out is missing on its side. -/
theorem Traded.restingOn_lt (htraded : Traded instrumentId agg maker level behind s s')
    (hdone : (s'.slab maker).quantity = 0) :
    (s'.engine.restingOn instrumentId (s.makerSide agg)).length <
      (s.engine.restingOn instrumentId (s.makerSide agg)).length := by
  have hgone : maker ∉ s'.engine.restingOn instrumentId (s.makerSide agg) := by
    rw [s'.mem_restingOn_side]
    rintro ⟨i, hmaker⟩
    exact htraded.maker_gone hdone ((s'.holdsOrder_iff _ _).mpr ⟨_, i, hmaker⟩)
  have hnodup : (maker :: s'.engine.restingOn instrumentId (s.makerSide agg)).Nodup :=
    List.nodup_cons.mpr ⟨hgone, s'.nodup_restingOn_side _ _⟩
  have hsubset : maker :: s'.engine.restingOn instrumentId (s.makerSide agg) ⊆
      s.engine.restingOn instrumentId (s.makerSide agg) := by
    intro slot hslot
    rw [s.mem_restingOn_side]
    rcases List.mem_cons.mp hslot with rfl | hslot
    · exact ⟨level, htraded.maker_mem⟩
    · rw [s'.mem_restingOn_side] at hslot
      rcases hslot with ⟨i, hslot⟩
      exact ⟨i, htraded.queue_subset hslot⟩
  simpa using (List.subperm_of_subset hnodup hsubset).length_le

/-- An iteration trades with the head of the best level. -/
theorem Engine.Enters.traded (henters : s.engine.Enters instrumentId agg priceOk book best)
    (hloose : s.IsLoose agg) :
    ∃ maker level behind s', best.head = some maker ∧
      s'.engine = s.engine.trade instrumentId book agg maker ∧
      s.engine.sweepStep instrumentId agg priceOk = some s'.engine ∧
      s.engine.bestMaker instrumentId agg = some maker ∧
      Traded instrumentId agg maker level behind s s' ∧ s'.IsLoose agg := by
  rcases Snapshot.bestLevel_some henters.book_eq henters.best_eq with
    ⟨level, maker, behind, hqueue, hhead, _, hbest⟩
  rcases Snapshot.exists_traded hloose henters.book_eq (Quantity.pos_iff.mp henters.unfilled)
    hqueue hbest with ⟨s', hengine, htraded, hloose'⟩
  refine ⟨maker, level, behind, s', hhead, hengine, ?_, ?_, htraded, hloose'⟩
  · simp [Engine.sweepStep, henters.book_eq, Quantity.ne_zero_of_pos henters.unfilled,
      henters.best_eq, henters.accepted, hhead, hengine]
  · simp [Engine.bestMaker, henters.book_eq, henters.best_eq, hhead]

theorem Traded.executes (htraded : Traded instrumentId agg maker level behind s s')
    (hloose : s.IsLoose agg) :
    Engine.Executes maker agg (Engine.fillQuantity (s.slab maker) (s.slab agg)) s.engine
      s'.engine := by
  have hmaker := htraded.maker_pos
  have hagg := htraded.unfilled
  have hfill := Engine.fillQuantity_toNat (s.slab maker) (s.slab agg)
  have hmakerLeft := htraded.remaining_eq maker
  rw [if_pos (Or.inl rfl)] at hmakerLeft
  have haggLeft := htraded.remaining_eq agg
  rw [if_pos (Or.inr rfl)] at haggLeft
  constructor
  · rintro rfl
    exact hloose.notQueued _ _ _ htraded.maker_mem
  · rw [UInt32.le_iff_toNat_le]
    change 1 ≤ (Engine.fillQuantity (s.slab maker) (s.slab agg)).toNat
    omega
  · change (s'.slab maker).remaining + _ = (s.slab maker).remaining
    omega
  · change (s'.slab agg).remaining + _ = (s.slab agg).remaining
    omega
  · intro slot hnotMaker hnotAgg
    exact UInt32.toNat_inj.mp (htraded.remaining_other hnotMaker hnotAgg)
  · exact ⟨_, _, htraded.outbound, rfl, rfl, rfl, rfl, rfl, rfl⟩

/-- The body never meets an empty level or an order without quantity. -/
theorem Snapshot.tradesWithHead (hloose : s.IsLoose agg) :
    s.engine.TradesWithHead instrumentId agg priceOk := by
  intro book best henters
  rcases henters.traded hloose with
    ⟨maker, level, behind, s', hhead, hengine, hstep, _, htraded, _⟩
  rw [hengine] at hstep
  refine ⟨maker, hhead, Quantity.pos_iff.mpr htraded.maker_pos, hstep, ?_, ?_⟩
  · rw [← hengine]
    exact htraded.executes hloose
  · rw [← hengine]
    by_cases hdone : (s'.slab maker).quantity = 0
    · exact Or.inl (htraded.maker_gone hdone)
    · exact Or.inr (UInt32.toNat_inj.mp (htraded.agg_filled hdone))

end Iteration

/-! ## The whole loop -/

namespace Engine

variable {engine next : Engine} {instrumentId : InstrumentId} {agg : Slot}
  {priceOk : Price → Bool}

theorem sweepStep_eq_none
    (hleft : ∀ book best, ¬ engine.Enters instrumentId agg priceOk book best) :
    engine.sweepStep instrumentId agg priceOk = none := by
  unfold sweepStep
  cases hbook : engine.books instrumentId with
  | none => rfl
  | some book =>
      by_cases hfilled : (engine.slab agg).quantity = 0
      · simp only [if_pos hfilled]
      · simp only [if_neg hfilled]
        cases hbest : book.bestLevel (engine.slab agg).side.bookSide.opposite with
        | none => rfl
        | some best =>
            have hrefused : priceOk best.price = false := by
              by_contra haccepted
              exact hleft book best ⟨hbook, UInt32.pos_iff_ne_zero.mpr hfilled, hbest,
                by simpa using haccepted⟩
            simp [hrefused]

theorem sweepFuel_of_left
    (hleft : ∀ book best, ¬ engine.Enters instrumentId agg priceOk book best) (fuel : ℕ) :
    sweepFuel instrumentId agg priceOk fuel engine = engine := by
  cases fuel with
  | zero => rfl
  | succ fuel =>
      unfold sweepFuel
      rw [sweepStep_eq_none hleft]

theorem sweepFuel_succ (hstep : engine.sweepStep instrumentId agg priceOk = some next)
    (fuel : ℕ) :
    sweepFuel instrumentId agg priceOk (fuel + 1) engine =
      sweepFuel instrumentId agg priceOk fuel next := by
  rw [sweepFuel, hstep]

end Engine

section Loop

variable {s s' : Snapshot} {instrumentId : InstrumentId} {agg maker : Slot} {level : ℕ}
  {behind : List Slot} {priceOk : Price → Bool} {book : OrderBook} {best : PriceLevel}

theorem Traded.holdsOrder (htraded : Traded instrumentId agg maker level behind s s')
    {slot : Slot} (hslot : s'.engine.HoldsOrder instrumentId slot) :
    s.engine.HoldsOrder instrumentId slot := by
  rw [s'.holdsOrder_iff] at hslot
  rcases hslot with ⟨side, i, hslot⟩
  exact (s.holdsOrder_iff _ _).mpr ⟨side, i, htraded.queue_subset hslot⟩

/-- After any number of iterations the incoming order is in no book, and the book holds
no order it did not hold before. -/
theorem Snapshot.exists_sweepFuel (fuel : ℕ) (hloose : s.IsLoose agg) :
    ∃ t : Snapshot, t.engine = Engine.sweepFuel instrumentId agg priceOk fuel s.engine ∧
      t.IsLoose agg ∧
      ∀ slot, t.engine.HoldsOrder instrumentId slot →
        s.engine.HoldsOrder instrumentId slot := by
  induction fuel generalizing s with
  | zero => exact ⟨s, rfl, hloose, fun _ hslot => hslot⟩
  | succ fuel ih =>
      by_cases henters : ∃ book best, s.engine.Enters instrumentId agg priceOk book best
      · rcases henters with ⟨book, best, henters⟩
        rcases henters.traded hloose with
          ⟨maker, level, behind, s', _, _, hstep, _, htraded, hloose'⟩
        rcases ih hloose' with ⟨t, hengine, hloose'', hheld⟩
        refine ⟨t, ?_, hloose'', fun slot hslot => htraded.holdsOrder (hheld slot hslot)⟩
        rw [hengine, Engine.sweepFuel_succ hstep]
      · push Not at henters
        exact ⟨s, (Engine.sweepFuel_of_left henters _).symm, hloose, fun _ hslot => hslot⟩

theorem Snapshot.sweepEnds_left
    (hleft : ∀ book best, ¬ s.engine.Enters instrumentId agg priceOk book best) :
    s.engine.SweepEnds instrumentId agg priceOk 0 where
  entered k hk := absurd hk (Nat.not_lt_zero k)
  left := hleft
  result fuel _ := Engine.sweepFuel_of_left hleft fuel
  count_le := Nat.zero_le _
  gone _ hk := absurd hk (Nat.not_lt_zero _)
  lastPartial _ _ hchanged := absurd rfl hchanged

/-- An order which stays after a trade was the last one. -/
theorem Traded.count_eq_zero (htraded : Traded instrumentId agg maker level behind s s')
    {count : ℕ} (hends : s'.engine.SweepEnds instrumentId agg priceOk count)
    (hleft : (s'.slab maker).quantity ≠ 0) : count = 0 := by
  by_contra hmore
  rcases hends.entered 0 (Nat.pos_of_ne_zero hmore) with ⟨book, best, henters⟩
  have hunfilled := Quantity.pos_iff.mp henters.unfilled
  have hfilled := htraded.agg_filled hleft
  change 0 < (s'.slab agg).remaining at hunfilled
  omega

theorem Traded.count_lt (htraded : Traded instrumentId agg maker level behind s s')
    {count : ℕ} (hends : s'.engine.SweepEnds instrumentId agg priceOk count) :
    count < (s.engine.restingOn instrumentId (s.makerSide agg)).length := by
  by_cases hdone : (s'.slab maker).quantity = 0
  · have hcount : count ≤ (s'.engine.restingOn instrumentId (s'.makerSide agg)).length :=
      hends.count_le
    rw [htraded.makerSide_eq] at hcount
    exact lt_of_le_of_lt hcount (htraded.restingOn_lt hdone)
  · rw [htraded.count_eq_zero hends hdone]
    exact List.length_pos_of_mem (s.mem_restingOn_side.mpr ⟨level, htraded.maker_mem⟩)

/-- An order which the rest of the loop does not touch but which has changed is the one
of this trade, and there was no further trade. -/
theorem Traded.eq_maker (htraded : Traded instrumentId agg maker level behind s s')
    (hloose : s.IsLoose agg) {count : ℕ}
    (hends : s'.engine.SweepEnds instrumentId agg priceOk count) {slot : Slot}
    (hheld : (Engine.sweepFuel instrumentId agg priceOk count s'.engine).HoldsOrder
      instrumentId slot)
    (hchanged : (s'.slab slot).quantity ≠ (s.slab slot).quantity) :
    slot = maker ∧ count = 0 := by
  rcases Snapshot.exists_sweepFuel count (htraded.isLoose hloose) with
    ⟨t, hengine, hloose', hbefore⟩
  rw [← hengine] at hheld
  have hnotAgg : slot ≠ agg := by
    rintro rfl
    rcases (t.holdsOrder_iff _ _).mp hheld with ⟨side, i, hqueued⟩
    exact hloose'.notQueued _ _ _ hqueued
  rw [htraded.quantity] at hchanged
  have hmaker : slot = maker := by
    by_contra hother
    exact hchanged (if_neg (by simp [hother, hnotAgg]))
  subst hmaker
  refine ⟨rfl, htraded.count_eq_zero hends fun hdone => ?_⟩
  exact htraded.maker_gone hdone (hbefore slot hheld)

/-- One iteration in front of the others. -/
theorem Engine.Enters.sweepEnds
    (henters : s.engine.Enters instrumentId agg priceOk book best) (hloose : s.IsLoose agg)
    (hstep : s.engine.sweepStep instrumentId agg priceOk = some s'.engine)
    (hmaker : s.engine.bestMaker instrumentId agg = some maker)
    (htraded : Traded instrumentId agg maker level behind s s') {count : ℕ}
    (hends : s'.engine.SweepEnds instrumentId agg priceOk count) :
    s.engine.SweepEnds instrumentId agg priceOk (count + 1) := by
  have hfuel := Engine.sweepFuel_succ hstep
  constructor
  · intro k hk
    cases k with
    | zero => exact ⟨book, best, henters⟩
    | succ k =>
        rw [hfuel]
        exact hends.entered k (Nat.succ_lt_succ_iff.mp hk)
  · rw [hfuel]
    exact hends.left
  · intro fuel hle
    have hless := lt_of_lt_of_le htraded.agg_remaining_lt hle
    cases fuel with
    | zero => exact absurd hless (Nat.not_lt_zero _)
    | succ fuel =>
        rw [hfuel, hfuel]
        exact hends.result fuel (Nat.lt_succ_iff.mp hless)
  · exact htraded.count_lt hends
  · intro k hk other hother
    rw [hfuel]
    cases k with
    | zero =>
        rw [Engine.sweepFuel, hmaker, Option.some.injEq] at hother
        subst hother
        have hdone : (s'.slab maker).quantity = 0 := by
          by_contra hleft
          have hzero := htraded.count_eq_zero hends hleft
          omega
        rcases Snapshot.exists_sweepFuel count (htraded.isLoose hloose) with
          ⟨t, hengine, _, hbefore⟩
        rw [← hengine]
        exact fun hheld => htraded.maker_gone hdone (hbefore maker hheld)
    | succ k =>
        rw [hfuel] at hother
        exact hends.gone k (Nat.succ_lt_succ_iff.mp hk) other hother
  · intro slot hheld hchanged
    rw [hfuel] at hheld hchanged
    by_cases hlater : ((Engine.sweepFuel instrumentId agg priceOk count s'.engine).slab
        slot).quantity = (s'.slab slot).quantity
    · rw [hlater] at hchanged
      rcases htraded.eq_maker hloose hends hheld hchanged with ⟨rfl, rfl⟩
      exact ⟨0, rfl, hmaker⟩
    · rcases hends.lastPartial slot hheld hlater with ⟨k, hk, hlast⟩
      refine ⟨k + 1, by rw [hk], ?_⟩
      rw [hfuel]
      exact hlast

/-- The loop is left after finitely many iterations, by induction on the open quantity. -/
theorem Snapshot.sweepEnds (hloose : s.IsLoose agg) (instrumentId : InstrumentId)
    (priceOk : Price → Bool) :
    ∃ count, s.engine.SweepEnds instrumentId agg priceOk count := by
  induction hopen : (s.slab agg).remaining using Nat.strong_induction_on generalizing s with
  | _ remaining ih =>
      by_cases henters : ∃ book best, s.engine.Enters instrumentId agg priceOk book best
      · rcases henters with ⟨book, best, henters⟩
        rcases henters.traded hloose with
          ⟨maker, level, behind, s', _, _, hstep, hmaker, htraded, hloose'⟩
        have hless := htraded.agg_remaining_lt
        rw [hopen] at hless
        rcases ih _ hless hloose' rfl with ⟨count, hends⟩
        exact ⟨count + 1, henters.sweepEnds hloose hstep hmaker htraded hends⟩
      · push Not at henters
        exact ⟨0, Snapshot.sweepEnds_left henters⟩

end Loop

/-- Whatever came before, the sweep of an incoming order executes a positive quantity against
the head of the best level in every iteration, ends after at most as many iterations as
there are orders on the other side, and leaves at most the last of them partially
filled. -/
theorem sweep_terminates (capacity : ℕ) (clock : ℕ → UInt64)
    (listings : List (InstrumentId × PriceGrid)) (events : List Engine.Event)
    (msg : InboundOrderMsg) (priceOk : Price → Bool) (engine start : Engine) (slot : Slot)
    (pool : OrderPool)
    (hengine : engine = (Engine.listed capacity clock listings).run events)
    (hacquire : engine.pool.acquire = some (slot, pool))
    (hstart : start = engine.admitOrder msg slot pool) :
    (∀ iterations, (Engine.sweepFuel msg.instrumentId slot priceOk iterations
      start).TradesWithHead msg.instrumentId slot priceOk) ∧
    ∃ count, start.SweepEnds msg.instrumentId slot priceOk count := by
  rcases exists_snapshot capacity clock listings events with ⟨s, hs⟩
  rw [← hengine] at hs
  subst hs
  rcases s.admitted_of_acquire msg hacquire with ⟨s₀, hs₀, hadmitted⟩
  rw [← hs₀] at hstart
  subst hstart
  refine ⟨fun iterations => ?_, Snapshot.sweepEnds hadmitted.loose _ _⟩
  rcases Snapshot.exists_sweepFuel iterations hadmitted.loose with ⟨t, ht, hloose, _⟩
  rw [← ht]
  exact Snapshot.tradesWithHead hloose

/-- Two asks of 3 and 5 are resting. -/
def twoAsks : Engine :=
  sampleEngine.run [.message (sampleOrder 1 0 1 100 3), .message (sampleOrder 1 0 2 100 5)]

/-- A market buy of 6 arrives. -/
def buyArrived : Engine :=
  twoAsks.admitOrder (sampleOrder 0 1 3 0 6) 2 (twoAsks.pool.popped 2)

/-- It takes all of the first ask and 3 of the second. -/
theorem sweep_terminates_two_asks :
    twoAsks.pool.acquire = some (2, twoAsks.pool.popped 2) ∧
      (Engine.sweepFuel 0 2 (fun _ => true) 6 buyArrived).outbound.map
        ExecutionReport.execQuantity = [3, 3, 3, 3] ∧
      (∀ iterations, (Engine.sweepFuel 0 2 (fun _ => true) iterations
        buyArrived).TradesWithHead 0 2 (fun _ => true)) ∧
      ∃ count, buyArrived.SweepEnds 0 2 (fun _ => true) count := by
  refine ⟨rfl, by decide, ?_⟩
  exact sweep_terminates 4 (fun _ => 0) [(0, sampleGrid)]
    [.message (sampleOrder 1 0 1 100 3), .message (sampleOrder 1 0 2 100 5)]
    (sampleOrder 0 1 3 0 6) (fun _ => true) twoAsks buyArrived 2 (twoAsks.pool.popped 2)
    rfl rfl rfl

end NanoMatch
