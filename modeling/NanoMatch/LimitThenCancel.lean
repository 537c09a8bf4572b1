import NanoMatch.LevelTotals
import NanoMatch.OrderTypes

/-!
# Immediate-or-cancel as a limit order and its cancellation

A limit order which is cancelled at once leaves what an IOC order leaves.  On the way
its residual joins the tail of a level, enters the index and may move a cursor; the
cancellation takes all of this back.  The two caches of the level come back as well,
unless one of them wraps in between.  The total is kept from wrapping by the quantity
of the order, the count by the size of the pool: it never exceeds the number of queued
orders.
-/

namespace NanoMatch

open OrderBook

/-! ## The cached count -/

/-- The cached count of a level is at most the length of its queue. -/
def Snapshot.CountsBounded (s : Snapshot) (instrumentId : InstrumentId) : Prop :=
  ∀ side i cached, s.aggregates instrumentId side i = some cached →
    cached.orderCount.toNat ≤ (s.queues instrumentId side i).length

namespace Aggregates

theorem added_orderCount_le (cached : Aggregates) (quantity : Quantity) :
    (cached.added quantity).orderCount.toNat ≤ cached.orderCount.toNat + 1 := by
  unfold added
  rw [UInt32.toNat_add]
  exact Nat.mod_le _ _

theorem removed_orderCount (cached : Aggregates) (quantity : Quantity) :
    (cached.removed quantity).orderCount.toNat = cached.orderCount.toNat - 1 := by
  unfold removed
  by_cases hsome : 1 ≤ cached.orderCount
  · simp only [if_pos hsome]
    rw [UInt32.toNat_sub_of_le _ _ hsome]
    rfl
  · simp only [if_neg hsome]
    rw [UInt32.le_iff_toNat_le] at hsome
    have hzero : cached.orderCount.toNat < 1 := not_le.mp hsome
    rw [Nat.sub_eq_zero_of_le hzero.le]
    rfl

theorem filled_orderCount (cached : Aggregates) (fill : Quantity) (done : Bool) :
    (cached.filled fill done).orderCount.toNat =
      if done = true then cached.orderCount.toNat - 1 else cached.orderCount.toNat := by
  unfold filled
  split_ifs
  · rw [removed_orderCount]
  · rfl

/-- What was added is taken back, if neither cache wraps. -/
theorem removed_added {cached : Aggregates} {quantity : Quantity}
    (htotal : cached.totalQty.toNat + quantity.toNat < 2 ^ 32)
    (hcount : cached.orderCount.toNat + 1 < 2 ^ 32) :
    (cached.added quantity).removed quantity = cached := by
  have hsum : (cached.totalQty + quantity).toNat = cached.totalQty.toNat + quantity.toNat := by
    rw [UInt32.toNat_add, Nat.mod_eq_of_lt htotal]
  have hnext : (cached.orderCount + 1).toNat = cached.orderCount.toNat + 1 := by
    rw [UInt32.toNat_add]
    exact Nat.mod_eq_of_lt hcount
  have hcovered : quantity ≤ cached.totalQty + quantity := by
    rw [UInt32.le_iff_toNat_le, hsum]
    exact Nat.le_add_left _ _
  have hsome : 1 ≤ cached.orderCount + 1 := by
    rw [UInt32.le_iff_toNat_le, hnext]
    exact Nat.le_add_left _ _
  unfold added removed
  simp only [if_pos hcovered, if_pos hsome, UInt32.add_sub_cancel]

end Aggregates

namespace Snapshot.CountsBounded

variable {s s' : Snapshot} {instrumentId : InstrumentId} {msg : InboundOrderMsg} {slot : Slot}

theorem of_mirrors (hbounded : s.CountsBounded instrumentId)
    (hmirrors : Mirrors instrumentId s s') : s'.CountsBounded instrumentId := by
  intro side i cached hcached
  have hlength := congrArg List.length (congrFun (congrFun hmirrors.orders side) i)
  unfold Snapshot.orders at hlength
  rw [List.length_map, List.length_map] at hlength
  rw [hmirrors.aggregates] at hcached
  rw [hlength]
  exact hbounded side i cached hcached

/-- A step which changes one level. -/
theorem of_level (hbounded : s.CountsBounded instrumentId) {side : BookSide} {level : ℕ}
    {update : Aggregates → Aggregates}
    (haggregates : ∀ side' i, s'.aggregates instrumentId side' i =
      if side' = side ∧ i = level then (s.aggregates instrumentId side level).map update
      else s.aggregates instrumentId side' i)
    (hlevel : ∀ cached : Aggregates,
      cached.orderCount.toNat ≤ (s.queues instrumentId side level).length →
        (update cached).orderCount.toNat ≤ (s'.queues instrumentId side level).length)
    (hothers : ∀ side' i, ¬ (side' = side ∧ i = level) →
      s'.queues instrumentId side' i = s.queues instrumentId side' i) :
    s'.CountsBounded instrumentId := by
  intro side' i cached hcached
  rw [haggregates] at hcached
  split_ifs at hcached with hat
  · rcases hat with ⟨rfl, rfl⟩
    rcases Option.map_eq_some_iff.mp hcached with ⟨old, hold, rfl⟩
    exact hlevel old (hbounded side' i old hold)
  · rw [hothers side' i hat]
    exact hbounded side' i cached hcached

theorem traded (hbounded : s.CountsBounded instrumentId) {agg maker : Slot} {level : ℕ}
    {behind : List Slot} (htraded : Traded instrumentId agg maker level behind s s') :
    s'.CountsBounded instrumentId := by
  apply hbounded.of_level htraded.aggregates_eq
  · intro cached hcached
    rw [Aggregates.filled_orderCount, htraded.queue_level]
    rw [htraded.queue_eq, List.length_cons] at hcached
    by_cases hdone : (s'.slab maker).quantity = 0
    · simp only [hdone, decide_true, if_true]
      omega
    · simp only [hdone, decide_false, Bool.false_eq_true, if_false, List.length_cons]
      exact hcached
  · intro side i hne
    exact htraded.queue_other fun hall => hne hall.2

theorem rested (hbounded : s.CountsBounded instrumentId) {level : ℕ}
    (hrested : Rested instrumentId slot level s s') : s'.CountsBounded instrumentId := by
  apply hbounded.of_level hrested.aggregates_eq
  · intro cached hcached
    have hadded := cached.added_orderCount_le (s.slab slot).quantity
    rw [hrested.queues_eq, Function.update_self, Queues.set_same, List.length_append]
    simp only [List.length_singleton]
    omega
  · intro side i hne
    rw [hrested.queue_apply, if_neg fun hall => hne hall.2]

theorem removed (hbounded : s.CountsBounded instrumentId) {side : BookSide} {level : ℕ}
    {before after : List Slot}
    (hremoved : Removed instrumentId slot side level before after s s') :
    s'.CountsBounded instrumentId := by
  apply hbounded.of_level hremoved.aggregates_eq
  · intro cached hcached
    rw [hremoved.queue_eq, List.length_append, List.length_cons] at hcached
    rw [Aggregates.removed_orderCount, hremoved.queues_eq, Function.update_self,
      Queues.set_same, List.length_append]
    omega
  · intro side' i hne
    rw [hremoved.queue_apply, if_neg fun hall => hne hall.2]

theorem keptByPhases (instrumentId : InstrumentId) :
    KeptByPhases instrumentId (fun s => s.CountsBounded instrumentId) where
  posted hposted hbounded := hbounded.of_mirrors (hposted.mirrors _)
  admitted hadmitted hbounded := hbounded.of_mirrors (hadmitted.mirrors _)
  traded htraded _ hbounded := hbounded.traded htraded
  released hreleased hbounded := hbounded.of_mirrors (hreleased.mirrors _)
  removed hremoved hbounded := hbounded.removed hremoved

theorem message (hbounded : s.CountsBounded instrumentId) (hstep : MessageStep msg s s') :
    s'.CountsBounded instrumentId := by
  by_cases hsame : instrumentId = msg.instrumentId
  · subst hsame
    apply (keptByPhases msg.instrumentId).message hstep _ hbounded
    intro slot book s₀ s₁ t _ hrests hswept
    exact hswept.rested hrests.rested
  · exact hbounded.of_mirrors (hstep.mirrors_other hsame)

theorem of_blank (hblank : s.Blank) (instrumentId : InstrumentId) :
    s.CountsBounded instrumentId := by
  intro side i cached hcached
  rw [hblank.aggregates_eq] at hcached
  rcases Option.map_eq_some_iff.mp hcached with ⟨_, _, rfl⟩
  exact Nat.zero_le _

/-- In every state of a run. -/
theorem exists_run (capacity : ℕ) (clock : ℕ → UInt64)
    (listings : List (InstrumentId × PriceGrid)) (events : List Engine.Event) :
    ∃ s : Snapshot, s.engine = (Engine.listed capacity clock listings).run events ∧
      s.engine.pool.capacity = capacity ∧ ∀ instrumentId, s.CountsBounded instrumentId := by
  rcases Snapshot.exists_initial capacity clock listings with ⟨s₀, hs₀⟩
  rcases Snapshot.exists_run (fun s => ∀ instrumentId, s.CountsBounded instrumentId)
    (fun _ _ _ hbounded hstep instrumentId => (hbounded instrumentId).message hstep)
    (fun _ hblank => of_blank hblank) events s₀ (of_blank hs₀.isBlank) with
    ⟨s, hrun, hlayout, hbounded⟩
  refine ⟨s, ?_, ?_, hbounded⟩
  · rw [hrun, hs₀.engine_eq]
  · rw [hlayout.capacity, hs₀.capacity_eq]

end Snapshot.CountsBounded

/-- A slot outside the queues leaves less than the pool for each of them. -/
theorem Snapshot.length_queue_lt {s : Snapshot} {slot : Slot} (hloose : s.IsLoose slot)
    (instrumentId : InstrumentId) (side : BookSide) (i : ℕ) :
    (s.queues instrumentId side i).length < s.engine.pool.capacity := by
  cases hbook : s.engine.books instrumentId with
  | none =>
      rw [s.rep.unlisted instrumentId hbook]
      exact Nat.zero_lt_of_lt hloose.bound
  | some book =>
      have hnodup : (slot :: s.queues instrumentId side i).Nodup :=
        List.nodup_cons.mpr ⟨hloose.notQueued instrumentId side i,
          ((s.rep.bookRep _ book hbook).linked side i).nodup⟩
      have hsubset : slot :: s.queues instrumentId side i ⊆
          List.range s.engine.pool.capacity := by
        intro other hother
        rcases List.mem_cons.mp hother with rfl | hqueued
        · exact List.mem_range.mpr hloose.bound
        · exact List.mem_range.mpr (s.rep.bound _ _ _ _ hqueued)
      simpa using (List.subperm_of_subset hnodup hsubset).length_le

/-! ## Resting and taken back -/

section TakenBack

variable {s s₁ s₂ : Snapshot} {instrumentId : InstrumentId} {slot : Slot} {level level' : ℕ}
  {side : BookSide} {before after : List Slot}

/-- The order is at the tail of its level, and nowhere else. -/
theorem Rested.place (hrested : Rested instrumentId slot level s s₁)
    (hremoved : Removed instrumentId slot side level' before after s₁ s₂) :
    side = (s.slab slot).side.bookSide ∧ level' = level ∧
      before = s.queues instrumentId (s.slab slot).side.bookSide level ∧ after = [] := by
  rcases s₁.rep.queue_unique hrested.slot_mem hremoved.slot_mem with ⟨_, hside, hlevel⟩
  have hqueue := hremoved.queue_eq
  rw [hside, hlevel, hrested.queues_eq, Function.update_self, Queues.set_same] at hqueue
  have hnotQueued := hrested.loose.notQueued instrumentId (s.slab slot).side.bookSide level
  rcases (List.append_cons_inj_of_notMem hnotQueued List.not_mem_nil).mp hqueue with
    ⟨hbefore, _, hafter⟩
  exact ⟨hside, hlevel, hbefore.symm, hafter.symm⟩

theorem Rested.sameSlots_removed (hrested : Rested instrumentId slot level s s₁)
    (hremoved : Removed instrumentId slot side level' before after s₁ s₂) :
    SameSlots s s₂ := by
  rcases hrested.place hremoved with ⟨hside, hlevel, hbefore, hafter⟩
  subst hside hlevel hbefore hafter
  refine ⟨?_, by rw [hremoved.free_eq, hrested.free_eq]⟩
  funext instrumentId' side i
  rw [hremoved.queue_apply, hrested.queue_apply, List.append_nil]
  split_ifs with hat
  · rw [hat.1, hat.2.1, hat.2.2]
  · rfl

/-- The index forgets the id again. -/
theorem Rested.findOrder_removed (hrested : Rested instrumentId slot level s s₁)
    (hremoved : Removed instrumentId slot side level' before after s₁ s₂)
    (hfresh : s.findOrder instrumentId (s.slab slot).orderId = none) (id : OrderId) :
    s₂.findOrder instrumentId id = s.findOrder instrumentId id := by
  have hid : (s₁.slab slot).orderId = (s.slab slot).orderId :=
    congrArg Order.Terms.orderId (hrested.terms slot)
  rcases hremoved.books with ⟨book, book', hbook, hbooks, _, hindex⟩
  rw [Snapshot.findOrder_erase hbook hbooks hindex, hid, hrested.findOrder_eq]
  by_cases hsame : id = (s.slab slot).orderId
  · rw [if_pos hsame, hsame, hfresh]
  · rw [if_neg hsame, if_neg (fun hall => hsame hall.1)]

/-- Neither cache of the level wraps when the order joins it. -/
def Snapshot.HasRoom (s : Snapshot) (instrumentId : InstrumentId) (slot : Slot) (level : ℕ) :
    Prop :=
  ∀ cached, s.aggregates instrumentId (s.slab slot).side.bookSide level = some cached →
    cached.totalQty.toNat + (s.slab slot).remaining < 2 ^ 32 ∧
      cached.orderCount.toNat + 1 < 2 ^ 32

theorem Rested.aggregates_removed (hrested : Rested instrumentId slot level s s₁)
    (hremoved : Removed instrumentId slot side level' before after s₁ s₂)
    (hroom : s.HasRoom instrumentId slot level) :
    s₂.aggregates instrumentId = s.aggregates instrumentId := by
  rcases hrested.place hremoved with ⟨hside, hlevel, _⟩
  funext side' i
  rw [hremoved.aggregates_eq, hrested.aggregates_eq, hrested.aggregates_eq, hside, hlevel]
  simp only [and_self, if_true]
  split_ifs with hat
  · rw [hat.1, hat.2, hrested.quantity slot]
    cases hcached : s.aggregates instrumentId (s.slab slot).side.bookSide level with
    | none => rfl
    | some cached =>
        rcases hroom cached hcached with ⟨htotal, hcount⟩
        rw [Option.map_some, Option.map_some, Aggregates.removed_added htotal hcount]
  · rfl

/-- The cancellation takes back what the order did to the book. -/
theorem Rested.mirrors_removed (hrested : Rested instrumentId slot level s s₁)
    (hremoved : Removed instrumentId slot side level' before after s₁ s₂)
    (hfresh : s.findOrder instrumentId (s.slab slot).orderId = none)
    (hroom : s.HasRoom instrumentId slot level) : Mirrors instrumentId s s₂ := by
  refine ⟨?_, ?_, hrested.aggregates_removed hremoved hroom⟩
  · rw [(SameLayout.removed hremoved).grids, (SameLayout.rested hrested).grids]
  · funext side' i
    unfold Snapshot.orders
    rw [(hrested.sameSlots_removed hremoved).queues]
    apply List.map_congr_left
    intro other _
    apply Snapshot.orderView_congr
    · rw [hremoved.terms, hrested.terms]
    · rw [hremoved.quantity, hrested.quantity]
    · exact hrested.findOrder_removed hremoved hfresh _

end TakenBack

/-! ## The two ways -/

namespace InboundOrderMsg

def asIoc (msg : InboundOrderMsg) : InboundOrderMsg :=
  { msg with kind := .newOrder, type := 2 }

def asLimit (msg : InboundOrderMsg) : InboundOrderMsg :=
  { msg with kind := .newOrder, type := 0 }

/-- The cancellation of the order of the message. -/
def asCancel (msg : InboundOrderMsg) : InboundOrderMsg :=
  { msg with kind := .cancel }

end InboundOrderMsg

/-- No order with the id of the message rests in its book. -/
def Engine.NotResting (engine : Engine) (msg : InboundOrderMsg) : Prop :=
  ∀ slot ∈ engine.restingOn msg.instrumentId .bid ++ engine.restingOn msg.instrumentId .ask,
    (engine.slab slot).orderId ≠ msg.orderId

section Ways

variable {s s₀ s₁ a b c : Snapshot} {msg : InboundOrderMsg} {book : OrderBook} {slot : Slot}

/-- The id is not in the index while the order is swept. -/
theorem Admitted.findOrder_eq_none (hadmitted : Admitted msg slot s s₀) {priceOk : Price → Bool}
    (hswept : Swept msg.instrumentId slot priceOk s₀ s₁) (hnew : s.engine.NotResting msg) :
    s₁.findOrder msg.instrumentId msg.orderId = none := by
  cases hfound : s₁.findOrder msg.instrumentId msg.orderId with
  | none => rfl
  | some other =>
      rcases Snapshot.mem_of_findOrder hfound with ⟨⟨side, i, hother⟩, hid⟩
      have hbefore := hswept.queue_subset hother
      have hsame := hadmitted.others other (Snapshot.ne_of_isLoose hadmitted.loose hbefore)
      rw [hadmitted.queues_eq] at hbefore
      apply absurd _ (hnew other (s.mem_restingOn.mpr ⟨side, i, hbefore⟩))
      have hterms := hswept.terms other
      rw [hsame] at hterms
      rw [← hid]
      exact (congrArg Order.Terms.orderId hterms).symm

/-- The sweep leaves the caches of the own side alone. -/
theorem Swept.aggregates_own {instrumentId : InstrumentId} {priceOk : Price → Bool}
    (hswept : Swept instrumentId slot priceOk s s₁) {side : BookSide}
    (hside : side ≠ s.makerSide slot) (i : ℕ) :
    s₁.aggregates instrumentId side i = s.aggregates instrumentId side i := by
  have hall := hswept.induction
    (fun t => t.makerSide slot = s.makerSide slot ∧
      t.aggregates instrumentId side i = s.aggregates instrumentId side i) ⟨rfl, rfl⟩ ?_
  · exact hall.2
  · intro t t' maker level behind htraded _ ih
    refine ⟨htraded.makerSide_eq.trans ih.1, ?_⟩
    rw [htraded.aggregates_eq, if_neg, ih.2]
    rw [ih.1]
    exact fun hall => hside hall.1

theorem Admitted.hasRoom (hadmitted : Admitted msg slot s s₀)
    (hswept : Swept msg.instrumentId slot msg.accepts s₀ s₁)
    (hbook : s.engine.books msg.instrumentId = some book)
    (hcapacity : s.engine.pool.capacity < 2 ^ 32) (hbounded : s.CountsBounded msg.instrumentId)
    {level : ℕ} (hfits : (book.sideLevels msg.orderSide.bookSide level).totalQty.toNat +
      msg.quantity.toNat < 2 ^ 32) :
    s₁.HasRoom msg.instrumentId slot level := by
  intro cached hcached
  have hside := (hadmitted.swept_terms hswept).2.2.2
  have hbounded₁ := (Snapshot.CountsBounded.keptByPhases _).swept hadmitted hswept hbounded
  have hcount := hbounded₁ _ _ _ hcached
  have hlength := Snapshot.length_queue_lt hswept.loose msg.instrumentId
    (s₁.slab slot).side.bookSide level
  have hresidual := hadmitted.residual_eq hbook hswept
  have howner : msg.orderSide.bookSide ≠ s₀.makerSide slot := by
    rw [hadmitted.makerSide_eq]
    exact BookSide.ne_opposite _
  rw [hside, hswept.aggregates_own howner, (hadmitted.mirrors _).aggregates,
    Snapshot.aggregates_eq hbook, Option.some.injEq] at hcached
  have htotal : cached.totalQty =
      (book.sideLevels msg.orderSide.bookSide level).totalQty := by
    rw [← hcached]
    rfl
  have hpool : s₁.engine.pool.capacity = s.engine.pool.capacity :=
    ((SameLayout.admitted hadmitted).trans (SameLayout.swept hswept)).capacity
  constructor
  · rw [htotal]
    omega
  · omega

/-- A limit order on the grid has been filled or comes to rest. -/
theorem NewOrderStep.limit (hstep : NewOrderStep msg s b) (htype : msg.orderType = .limit)
    (hbook : s.engine.books msg.instrumentId = some book) (hfree : s.free ≠ [])
    (hvalid : book.grid.isValidPrice msg.price = true) :
    ∃ slot s₀ s₁, Admitted msg slot s s₀ ∧ Swept msg.instrumentId slot msg.accepts s₀ s₁ ∧
      ((s₁.slab slot).quantity = 0 ∧ Ends msg book.grid slot s₁ b .released ∨
        (s₁.slab slot).quantity ≠ 0 ∧
          Rested msg.instrumentId slot (book.grid.tickToIndex msg.price) s₁ b) := by
  rcases hstep.swept (Or.inl htype) hbook hfree with ⟨slot, s₀, s₁, hadmitted, hswept, hends⟩
  refine ⟨slot, s₀, s₁, hadmitted, hswept, ?_⟩
  by_cases hfilled : (s₁.slab slot).quantity = 0
  · rw [hfilled, InboundOrderMsg.fate, if_pos rfl] at hends
    exact Or.inl ⟨hfilled, hends⟩
  · rw [InboundOrderMsg.fate_limit _ hfilled htype, if_pos hvalid] at hends
    exact Or.inr ⟨hfilled, hends⟩

theorem CancelStep.eq_of_notFound (hstep : CancelStep msg s s₁)
    (hnone : s.findOrder msg.instrumentId msg.orderId = none) : s₁ = s := by
  cases hstep with
  | ignored hsame => exact hsame
  | cancelled slot book side level before after s₁ s₂ _ hbook hfound =>
      rw [Snapshot.findOrder_eq hbook, hfound] at hnone
      exact absurd hnone (by simp)

theorem CancelStep.of_found (hstep : CancelStep msg s s₁)
    (hfound : s.findOrder msg.instrumentId msg.orderId = some slot) :
    ∃ side level before after s₂ s₃ timestampNs,
      Removed msg.instrumentId slot side level before after s s₂ ∧
        Posted [cancelAckReport msg.orderId (s.slab slot).quantity timestampNs] 0 s₂ s₃ ∧
        Released slot s₃ s₁ := by
  cases hstep with
  | ignored _ hwhy =>
      unfold Snapshot.findOrder at hfound
      rcases Option.bind_eq_some_iff.mp hfound with ⟨book, hbook, hindexed⟩
      rw [hwhy book hbook] at hindexed
      exact absurd hindexed (by simp)
  | cancelled other book side level before after s₂ s₃ timestampNs hbook hfound' _ hremoved
      hposted hreleased =>
      rw [Snapshot.findOrder_eq hbook, hfound', Option.some.injEq] at hfound
      subst hfound
      exact ⟨side, level, before, after, s₂, s₃, timestampNs, hremoved, hposted, hreleased⟩

/-- The residual of the limit order is acknowledged and given back by the cancellation. -/
theorem AlignedSweeps.cancelled {t₀ a₁ b₁ : Snapshot} {level : ℕ} {grid : PriceGrid}
    (ioc cancel : InboundOrderMsg)
    (hstate : AlignedSweeps cancel.instrumentId slot s₀ t₀ a₁ b₁)
    (hends : Ends ioc grid slot a₁ a .acked)
    (hrested : Rested cancel.instrumentId slot level b₁ b) (hcancel : CancelStep cancel b c)
    (hid : ioc.orderId = cancel.orderId) (hslot : (b₁.slab slot).orderId = cancel.orderId)
    (hfresh : b₁.findOrder cancel.instrumentId cancel.orderId = none)
    (hroom : b₁.HasRoom cancel.instrumentId slot level) :
    InStep cancel.instrumentId s₀ t₀ a c ∧ SameSlots a c := by
  rw [← hslot] at hfresh
  have hfound : b.findOrder cancel.instrumentId cancel.orderId = some slot := by
    rw [← hslot, hrested.findOrder_eq, if_pos ⟨rfl, hfresh⟩]
  rcases hcancel.of_found hfound with
    ⟨side, level', before, after, b₂, b₃, timestampNs', hremoved, hposted', hreleased'⟩
  rcases hends with ⟨a₂, timestampNs, hposted, hreleased⟩
  have hslots := hrested.sameSlots_removed hremoved
  have hback : InStep cancel.instrumentId s₀ t₀ a₁ b₂ := by
    apply hstate.inStep.quiet (Mirrors.refl _ a₁)
      (hrested.mirrors_removed hremoved hfresh hroom) rfl
    · rw [hremoved.outbound_eq, hrested.outbound_eq]
    · rw [hslots.free, Nat.add_comm]
  have hslots' : SameSlots a₁ b₂ :=
    ⟨hslots.queues.trans hstate.slots.queues, hslots.free.trans hstate.slots.free⟩
  refine ⟨(hback.posted hposted hposted' ?_).released hreleased hreleased',
    (hslots'.posted hposted hposted').released hreleased hreleased'⟩
  rw [hrested.quantity, hstate.taker.quantity, hid]
  rfl

theorem Snapshot.sameOutcome_limitThenCancel (s : Snapshot) (msg : InboundOrderMsg)
    (hcapacity : s.engine.pool.capacity < 2 ^ 32) (hbounded : s.CountsBounded msg.instrumentId)
    (hbook : s.engine.books msg.instrumentId = some book) (hfree : s.free ≠ [])
    (hvalid : book.grid.isValidPrice msg.price = true) (hnew : s.engine.NotResting msg)
    (hfits : (book.sideLevels msg.orderSide.bookSide
      (book.grid.tickToIndex msg.price)).totalQty.toNat + msg.quantity.toNat < 2 ^ 32) :
    s.engine.SameOutcome (s.engine.dispatch msg.asIoc)
      ((s.engine.dispatch msg.asLimit).dispatch msg.asCancel) := by
  rcases s.handleNewOrder_step msg.asIoc with ⟨a, hengine, ha⟩
  rcases s.handleNewOrder_step msg.asLimit with ⟨b, hengine', hb⟩
  rcases b.handleCancel_step msg.asCancel with ⟨c, hengine'', hc⟩
  have hioc : s.engine.dispatch msg.asIoc = a.engine := hengine.symm
  have hlimit : (s.engine.dispatch msg.asLimit).dispatch msg.asCancel = c.engine := by
    rw [hengine'', hengine']
    rfl
  rw [hioc, hlimit]
  rcases ha.immediate (Or.inr rfl) hbook hfree with
    ⟨slot, a₀, a₁, fate, hadmitted, hswept, hends, hfate⟩
  rcases hb.limit rfl hbook hfree hvalid with
    ⟨slot', b₀, b₁, hadmitted', hswept', hends'⟩
  rcases hadmitted.alignedSweeps hadmitted' rfl rfl rfl msg.instrumentId with ⟨rfl, hstate⟩
  have hstate' := hswept.aligned hswept' hstate fun _ _ _ _ => rfl
  have hnone := hadmitted'.findOrder_eq_none hswept' hnew
  have hend : InStep msg.instrumentId s s a c ∧ SameSlots a c := by
    rcases hends' with ⟨hfilled, hreleased⟩ | ⟨hunfilled, hrested⟩
    · -- Nothing rests, so the cancellation finds nothing.
      rw [hstate'.taker.quantity] at hfilled
      rw [if_pos hfilled] at hfate
      subst hfate
      have hends'' := hstate'.ends hends hreleased rfl (Or.inl rfl)
      have hmirrors : Mirrors msg.instrumentId b₁ b := Released.mirrors hreleased _
      have hsame := hmirrors.findOrder_isSome msg.orderId
      rw [show b₁.findOrder msg.instrumentId msg.orderId = none from hnone] at hsame
      have hgone : b.findOrder msg.instrumentId msg.orderId = none := by simpa using hsame
      rw [hc.eq_of_notFound hgone]
      exact hends''
    · -- The residual rests and is taken back.
      rw [hstate'.taker.quantity] at hunfilled
      rw [if_neg hunfilled] at hfate
      subst hfate
      exact hstate'.cancelled msg.asIoc msg.asCancel hends hrested hc rfl
        (hadmitted'.swept_terms hswept').1 hnone
        (hadmitted'.hasRoom hswept' hbook hcapacity hbounded hfits)
  apply hend.1.sameOutcome hend.2
  intro other hne
  exact ((ha.mirrors_other hne).symm.trans (hb.mirrors_other hne)).trans
    (hc.mirrors_other hne)

end Ways

/-- An IOC order leaves the reports, the book and the free list which a limit order and its
cancellation leave.  The pool of the engine has a million slots. -/
theorem ioc_eq_limit_then_cancel (capacity : ℕ) (clock : ℕ → UInt64)
    (listings : List (InstrumentId × PriceGrid)) (events : List Engine.Event)
    (msg : InboundOrderMsg) (engine : Engine) (book : OrderBook)
    (hcapacity : capacity < 2 ^ 32)
    (hengine : engine = (Engine.listed capacity clock listings).run events)
    (hbook : engine.books msg.instrumentId = some book)
    (hfree : engine.pool.freelistHead ≠ none)
    (hvalid : book.grid.isValidPrice msg.price = true) (hnew : engine.NotResting msg)
    (hfits : (book.sideLevels msg.orderSide.bookSide
      (book.grid.tickToIndex msg.price)).totalQty.toNat + msg.quantity.toNat < 2 ^ 32) :
    engine.SameOutcome (engine.dispatch msg.asIoc)
      ((engine.dispatch msg.asLimit).dispatch msg.asCancel) := by
  rcases Snapshot.CountsBounded.exists_run capacity clock listings events with
    ⟨s, hs, hpool, hbounded⟩
  rw [← hengine] at hs
  subst hs
  rw [ne_eq, s.freelistHead_eq, List.head?_eq_none_iff] at hfree
  rw [← hpool] at hcapacity
  exact s.sameOutcome_limitThenCancel msg hcapacity (hbounded _) hbook hfree hvalid hnew hfits

/-- A bid of 5 joins a bid of 3 at the same price and leaves again. -/
theorem ioc_eq_limit_then_cancel_joined :
    sampleGrid.isValidPrice 104 = true ∧
      (sampleEngine.run [.message (sampleOrder 0 0 1 104 3)]).SameOutcome
        ((sampleEngine.run [.message (sampleOrder 0 0 1 104 3)]).dispatch
          (sampleOrder 0 2 2 104 5))
        (((sampleEngine.run [.message (sampleOrder 0 0 1 104 3)]).dispatch
          (sampleOrder 0 0 2 104 5)).dispatch
            { sampleOrder 0 0 2 104 5 with kind := .cancel }) := by
  refine ⟨by decide, ?_⟩
  exact ioc_eq_limit_then_cancel 4 (fun _ => 0) [(0, sampleGrid)]
    [.message (sampleOrder 0 0 1 104 3)] (sampleOrder 0 0 2 104 5) _
    (((sampleEngine.run [.message (sampleOrder 0 0 1 104 3)]).books 0).get (by decide))
    (by decide) rfl (Option.some_get _).symm (by decide) (by decide)
    (by unfold Engine.NotResting; decide) (by decide)

end NanoMatch
