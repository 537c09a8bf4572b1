import NanoMatch.EngineRuns

/-!
# No book is crossed or locked

An order only rests after its sweep has stopped with a residual, which means
that no order on the other side passes its price check.  The check of the sweep
and the strict order of resting prices are two sides of the same comparison.
Every other phase removes orders or leaves the queues alone.
-/

namespace NanoMatch

open OrderBook

/-- Every resting bid is strictly below every resting ask of the same book. -/
def Snapshot.Uncrossed (s : Snapshot) : Prop :=
  ∀ instrumentId i j, ∀ bid ∈ s.queues instrumentId .bid i,
    ∀ ask ∈ s.queues instrumentId .ask j, (s.slab bid).price < (s.slab ask).price

namespace Snapshot.Uncrossed

variable {s s' : Snapshot} {msg : InboundOrderMsg}

theorem of_subset (huncrossed : s.Uncrossed)
    (hqueues : ∀ instrumentId side i, ∀ slot ∈ s'.queues instrumentId side i,
      slot ∈ s.queues instrumentId side i ∧ (s'.slab slot).price = (s.slab slot).price) :
    s'.Uncrossed := by
  intro instrumentId i j bid hbid ask hask
  rcases hqueues _ _ _ bid hbid with ⟨hbidOld, hbidPrice⟩
  rcases hqueues _ _ _ ask hask with ⟨haskOld, haskPrice⟩
  rw [hbidPrice, haskPrice]
  exact huncrossed _ _ _ bid hbidOld ask haskOld

theorem admitted (huncrossed : s.Uncrossed) {slot : Slot}
    (hadmitted : Admitted msg slot s s') : s'.Uncrossed := by
  apply huncrossed.of_subset
  intro instrumentId side i other hother
  have hne : other ≠ slot := Snapshot.ne_of_isLoose hadmitted.loose hother
  rw [hadmitted.queues_eq] at hother
  rw [hadmitted.others other hne]
  exact ⟨hother, rfl⟩

theorem posted (huncrossed : s.Uncrossed) {reports : List ExecutionReport} {count : ℕ}
    (hposted : Posted reports count s s') : s'.Uncrossed := by
  apply huncrossed.of_subset
  intro instrumentId side i other hother
  rw [hposted.queues_eq] at hother
  unfold Snapshot.slab Engine.slab
  rw [hposted.pool_eq]
  exact ⟨hother, rfl⟩

theorem released (huncrossed : s.Uncrossed) {slot : Slot}
    (hreleased : Released slot s s') : s'.Uncrossed := by
  apply huncrossed.of_subset
  intro instrumentId side i other hother
  rw [hreleased.queues_eq] at hother
  exact ⟨hother, congrArg Order.Terms.price (hreleased.terms other)⟩

theorem traded (huncrossed : s.Uncrossed) {instrumentId : InstrumentId} {agg maker : Slot}
    {level : ℕ} {behind : List Slot}
    (htraded : Traded instrumentId agg maker level behind s s') : s'.Uncrossed := by
  apply huncrossed.of_subset
  intro instrumentId' side i other hother
  exact ⟨htraded.queue_subset hother, htraded.price_eq other⟩

theorem removed (huncrossed : s.Uncrossed) {instrumentId : InstrumentId} {slot : Slot}
    {side : BookSide} {level : ℕ} {before after : List Slot}
    (hremoved : Removed instrumentId slot side level before after s s') :
    s'.Uncrossed := by
  apply huncrossed.of_subset
  intro instrumentId' side' i other hother
  refine ⟨?_, congrArg Order.Terms.price (hremoved.terms other)⟩
  exact hremoved.queue_subset hother

/-- The residual of a stopped sweep can rest. -/
theorem rested (huncrossed : s.Uncrossed) {slot : Slot} {level : ℕ}
    (hlimit : msg.orderType = .limit) (hside : (s.slab slot).side = msg.orderSide)
    (hprice : (s.slab slot).price = msg.price)
    (hstopped : Stopped msg.instrumentId slot msg.accepts s)
    (hrested : Rested msg.instrumentId slot level s s') : s'.Uncrossed := by
  have hclear : ∀ i, ∀ other ∈ s.queues msg.instrumentId (s.makerSide slot) i,
      msg.accepts (s.slab other).price = false := by
    rcases hstopped with hzero | hclear
    · have hunfilled := hrested.unfilled
      omega
    · exact hclear
  unfold Snapshot.makerSide at hclear
  rw [hside] at hclear
  have hkept : ∀ other, (s'.slab other).price = (s.slab other).price :=
    fun other => congrArg Order.Terms.price (hrested.terms other)
  intro instrumentId i j bid hbid ask hask
  rw [hkept bid, hkept ask]
  rcases hrested.mem_cases hbid with hbid | ⟨rfl, rfl, hbidSide, _⟩
  · rcases hrested.mem_cases hask with hask | ⟨rfl, rfl, haskSide, _⟩
    · exact huncrossed _ _ _ bid hbid ask hask
    · -- The new ask met no bid at or above its price.
      rw [hside] at haskSide
      have hnotBuy : msg.orderSide ≠ .buy := by
        intro hbuy
        rw [hbuy] at haskSide
        exact absurd haskSide (by simp [Side.bookSide])
      rw [haskSide] at hclear
      have hfree := hclear i bid hbid
      simp only [InboundOrderMsg.accepts, hlimit, if_neg hnotBuy, decide_eq_false_iff_not,
        not_le] at hfree
      rw [hprice]
      exact hfree
  · rcases hrested.mem_cases hask with hask | ⟨_, _, haskSide, _⟩
    · -- The new bid met no ask at or below its price.
      rw [hside] at hbidSide
      have hbuy : msg.orderSide = .buy := by
        cases hcase : msg.orderSide with
        | buy => rfl
        | sell => rw [hcase] at hbidSide; exact absurd hbidSide (by simp [Side.bookSide])
        | raw byte => rw [hcase] at hbidSide; exact absurd hbidSide (by simp [Side.bookSide])
      rw [hbidSide] at hclear
      have hfree := hclear j ask hask
      simp only [InboundOrderMsg.accepts, hlimit, if_pos hbuy, decide_eq_false_iff_not,
        not_le] at hfree
      rw [hprice]
      exact hfree
    · rw [hbidSide] at haskSide
      exact absurd haskSide (by simp)

theorem keptByPhases (instrumentId : InstrumentId) :
    KeptByPhases instrumentId Uncrossed where
  posted hposted huncrossed := huncrossed.posted hposted
  admitted hadmitted huncrossed := huncrossed.admitted hadmitted
  traded htraded _ huncrossed := huncrossed.traded htraded
  released hreleased huncrossed := huncrossed.released hreleased
  removed hremoved huncrossed := huncrossed.removed hremoved

theorem message (huncrossed : s.Uncrossed) (hstep : MessageStep msg s s') :
    s'.Uncrossed := by
  apply (keptByPhases msg.instrumentId).message hstep _ huncrossed
  intro slot book s₀ s₁ t _ hrests hswept
  rcases hrests.admitted.swept_terms hrests.swept with ⟨_, hprice, _, hside⟩
  exact hswept.rested hrests.limit hside hprice hrests.swept.stopped hrests.rested

theorem of_empty (hqueues : s.queues = fun _ _ _ => []) : s.Uncrossed := by
  intro instrumentId i j bid hbid
  rw [hqueues] at hbid
  exact absurd hbid (by simp)

theorem event (huncrossed : s.Uncrossed) {event : Engine.Event}
    (hstep : EventStep event s s') : s'.Uncrossed := by
  cases hstep with
  | message hstep => exact huncrossed.message hstep
  | reset hstep => exact of_empty hstep.queues_eq

end Snapshot.Uncrossed

/-! ## The observable statement -/

structure NeverCrossed (engine : Engine) : Prop where
  resting : ∀ instrumentId i j, ∀ bid ∈ engine.queue instrumentId .bid i,
    ∀ ask ∈ engine.queue instrumentId .ask j,
      (engine.slab bid).price < (engine.slab ask).price
  best : ∀ instrumentId book, engine.books instrumentId = some book →
    book.bestBidIdx ≠ none → book.bestAskIdx ≠ none →
      book.bestPrice .bid < book.bestPrice .ask

theorem Snapshot.exists_mem_bestPrice (s : Snapshot) {instrumentId : InstrumentId}
    {book : OrderBook} (hbook : s.engine.books instrumentId = some book) (side : BookSide)
    (hcursor : book.bestIdx side ≠ none) :
    ∃ i, ∃ slot ∈ s.queues instrumentId side i,
      (s.slab slot).price = book.bestPrice side := by
  have hrep := s.rep.bookRep _ book hbook
  have hbest := hrep.best side
  cases hcase : book.bestIdx side with
  | none => exact absurd hcase hcursor
  | some best =>
      rw [hcase] at hbest
      rcases List.exists_mem_of_ne_nil _ hbest.1 with ⟨slot, hslot⟩
      refine ⟨best, slot, hslot, ?_⟩
      rw [Snapshot.price_of_mem hbook hslot]
      simp [OrderBook.bestPrice, OrderBook.bestLevel, hcase, hrep.priced]

theorem Snapshot.Uncrossed.neverCrossed {s : Snapshot} (huncrossed : s.Uncrossed) :
    NeverCrossed s.engine := by
  constructor
  · rw [s.rep.queue_eq]
    exact huncrossed
  · intro instrumentId book hbook hbids hasks
    rcases s.exists_mem_bestPrice hbook .bid hbids with ⟨i, bid, hbid, hbidPrice⟩
    rcases s.exists_mem_bestPrice hbook .ask hasks with ⟨j, ask, hask, haskPrice⟩
    rw [← hbidPrice, ← haskPrice]
    exact huncrossed _ _ _ bid hbid ask hask

theorem run_neverCrossed (capacity : ℕ) (clock : ℕ → UInt64)
    (listings : List (InstrumentId × PriceGrid)) (events : List Engine.Event) :
    NeverCrossed ((Engine.listed capacity clock listings).run events) := by
  rcases run_induction capacity clock listings (fun _ s => s.Uncrossed)
    (fun _ hs => Snapshot.Uncrossed.of_empty hs.queues_eq)
    (fun _ _ _ _ _ huncrossed hstep => huncrossed.event hstep) events with
    ⟨s, hengine, huncrossed⟩
  rw [← hengine]
  exact huncrossed.neverCrossed

end NanoMatch
