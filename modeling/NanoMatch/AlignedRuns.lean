import NanoMatch.ScheduleIndependence

/-!
# Runs on the same slots

Two snapshots which mirror each other may keep their orders in different slots.  Here
they keep them in the same ones: the queues and the free lists are equal, slot by
slot, and so are the entries of the index.  A message which is processed in both takes
the same slot and gives the same slots back, in the same order.

A reset empties the queues and puts the free list into the order it has after
construction.  What the slots still hold does not show, since a slot is filled in
before it is queued.
-/

namespace NanoMatch

open OrderBook

/-- The same queues and the same free list. -/
structure SameSlots (s t : Snapshot) : Prop where
  queues : t.queues = s.queues
  free : t.free = s.free

namespace SameSlots

variable {s t s' t' : Snapshot} {instrumentId : InstrumentId} {msg msg' : InboundOrderMsg}
  {slot slot' : Slot}

theorem orderView_eq (hslots : SameSlots s t) (hmirrors : Mirrors instrumentId s t)
    {side : BookSide} {i : ℕ} (hslot : slot ∈ s.queues instrumentId side i) :
    t.orderView instrumentId slot = s.orderView instrumentId slot := by
  have horders := congrFun (congrFun hmirrors.orders side) i
  unfold Snapshot.orders at horders
  rw [hslots.queues] at horders
  exact List.map_inj_left.mp horders slot hslot

/-- The index names the same slots. -/
theorem findOrder_eq (hslots : SameSlots s t) (hmirrors : Mirrors instrumentId s t)
    (id : OrderId) : t.findOrder instrumentId id = s.findOrder instrumentId id := by
  cases hfound : s.findOrder instrumentId id with
  | none =>
      have hsame := hmirrors.findOrder_isSome id
      rw [hfound] at hsame
      simpa using hsame
  | some slot =>
      rcases Snapshot.mem_of_findOrder hfound with ⟨⟨side, i, hslot⟩, hid⟩
      have hview := hslots.orderView_eq hmirrors hslot
      have hid' : (t.slab slot).orderId = id := (congrArg OrderView.orderId hview).trans hid
      have hindexed := congrArg OrderView.indexed hview
      unfold Snapshot.orderView at hindexed
      simp only [hid, hid', hfound, decide_true] at hindexed
      exact of_decide_eq_true hindexed

theorem posted (hslots : SameSlots s t) {reports reports' : List ExecutionReport}
    {count count' : ℕ} (hs : Posted reports count s s') (ht : Posted reports' count' t t') :
    SameSlots s' t' :=
  ⟨by rw [hs.queues_eq, ht.queues_eq, hslots.queues],
    by rw [hs.free_eq, ht.free_eq, hslots.free]⟩

/-- Both messages are given the first free slot. -/
theorem admitted (hslots : SameSlots s t) (hs : Admitted msg slot s s')
    (ht : Admitted msg' slot' t t') : slot' = slot ∧ SameSlots s' t' := by
  have hfree := hslots.free
  rw [hs.free_eq, ht.free_eq] at hfree
  rcases List.cons.inj hfree with ⟨hslot, hrest⟩
  refine ⟨hslot, ?_, hrest⟩
  rw [hs.queues_eq, ht.queues_eq, hslots.queues]

theorem released (hslots : SameSlots s t) (hs : Released slot s s') (ht : Released slot t t') :
    SameSlots s' t' :=
  ⟨by rw [hs.queues_eq, ht.queues_eq, hslots.queues],
    by rw [hs.free_eq, ht.free_eq, hslots.free]⟩

theorem rested (hslots : SameSlots s t) {level : ℕ}
    (hside : (t.slab slot).side = (s.slab slot).side)
    (hs : Rested instrumentId slot level s s') (ht : Rested instrumentId slot level t t') :
    SameSlots s' t' :=
  ⟨by rw [hs.queues_eq, ht.queues_eq, hslots.queues, hside],
    by rw [hs.free_eq, ht.free_eq, hslots.free]⟩

/-- The slot has one place in the queues. -/
theorem removed (hslots : SameSlots s t) {side side' : BookSide} {level level' : ℕ}
    {before after before' after' : List Slot}
    (hs : Removed instrumentId slot side level before after s s')
    (ht : Removed instrumentId slot side' level' before' after' t t') : SameSlots s' t' := by
  have hslot := hs.slot_mem
  have hslot' := ht.slot_mem
  rw [hslots.queues] at hslot'
  rcases s.rep.queue_unique hslot hslot' with ⟨_, rfl, rfl⟩
  have hqueue := ht.queue_eq
  rw [hslots.queues, hs.queue_eq] at hqueue
  rcases s.rep.listed_of_mem hslot with ⟨book, hbook⟩
  have hnodup := ((s.rep.bookRep _ book hbook).linked side' level').nodup
  rw [hs.queue_eq] at hnodup
  have hfresh := not_mem_of_nodup_middle hnodup
  rw [List.mem_append, not_or] at hfresh
  rcases (List.append_cons_inj_of_notMem hfresh.1 hfresh.2).mp hqueue with
    ⟨hbefore, _, hafter⟩
  refine ⟨?_, ?_⟩
  · rw [hs.queues_eq, ht.queues_eq, hslots.queues, hbefore, hafter]
  · rw [hs.free_eq, ht.free_eq, hslots.free]

end SameSlots

/-! ## Sweeps -/

/-- Two sweeps for orders in the same slot, whose limits may differ. -/
structure AlignedSweeps (instrumentId : InstrumentId) (agg : Slot) (s₀ t₀ s t : Snapshot) :
    Prop where
  inStep : InStep instrumentId s₀ t₀ s t
  slots : SameSlots s t
  taker : AlikeTaker agg agg s t

section Sweeps

variable {instrumentId : InstrumentId} {s t s' t' s₀ t₀ : Snapshot} {agg maker maker' : Slot}
  {level level' : ℕ} {behind behind' : List Slot}

/-- Both sweeps trade with the same slot. -/
theorem AlignedSweeps.traded (hstate : AlignedSweeps instrumentId agg s₀ t₀ s t)
    (hs : Traded instrumentId agg maker level behind s s')
    (ht : Traded instrumentId agg maker' level' behind' t t') :
    AlignedSweeps instrumentId agg s₀ t₀ s' t' := by
  have hmirrors := hstate.inStep.mirrors
  have hlevel := hs.level_eq ht hmirrors hstate.taker
  have hside := hstate.taker.makerSide_eq
  have hqueue := ht.queue_eq
  rw [hstate.slots.queues, hside, hlevel, hs.queue_eq] at hqueue
  rcases List.cons.inj hqueue with ⟨rfl, rfl⟩
  have hafter := (hs.quantities_eq ht hmirrors hstate.taker).1
  refine ⟨hstate.inStep.traded hstate.taker hs ht, ⟨?_, ?_⟩,
    hs.alikeTaker ht hmirrors hstate.taker⟩
  · rw [hs.queues', ht.queues', hafter, hstate.slots.queues, hside, hlevel]
  · rw [hs.free', ht.free', hafter, hstate.slots.free]

/-- The limits accept the same resting orders, as far as there is something to trade. -/
def AgreeOn (instrumentId : InstrumentId) (agg : Slot) (priceOk priceOk' : Price → Bool)
    (s : Snapshot) : Prop :=
  (s.slab agg).remaining ≠ 0 → ∀ i, ∀ slot ∈ s.queues instrumentId (s.makerSide agg) i,
    priceOk' (s.slab slot).price = priceOk (s.slab slot).price

theorem AgreeOn.traded {priceOk priceOk' : Price → Bool}
    (hagree : AgreeOn instrumentId agg priceOk priceOk' s)
    (hs : Traded instrumentId agg maker level behind s s') :
    AgreeOn instrumentId agg priceOk priceOk' s' := by
  intro _ i slot hslot
  have hunfilled := hs.unfilled
  rw [hs.makerSide_eq] at hslot
  rw [hs.price_eq]
  exact hagree (by omega) i slot (hs.queue_subset hslot)

theorem Swept.aligned {priceOk priceOk' : Price → Bool}
    (hs : Swept instrumentId agg priceOk s s') (ht : Swept instrumentId agg priceOk' t t')
    (hstate : AlignedSweeps instrumentId agg s₀ t₀ s t)
    (hagree : AgreeOn instrumentId agg priceOk priceOk' s) :
    AlignedSweeps instrumentId agg s₀ t₀ s' t' := by
  have hend : AlignedSweeps instrumentId agg s₀ t₀ s' t' ∧
      AgreeOn instrumentId agg priceOk priceOk' s' := by
    apply LockStep.reaches _ _ _ _ hs.trades hs.stopped ht.trades ht.stopped
      (And.intro hstate hagree)
    · rintro s s' t t' ⟨hstate, hagree⟩ ⟨maker, level, behind, hs, _⟩
        ⟨maker', level', behind', ht, _⟩
      exact ⟨hstate.traded hs ht, hagree.traded hs⟩
    · rintro s t ⟨hstate, hagree⟩
      exact stopped_iff hstate.inStep.mirrors hstate.taker hagree
    · exact fun _ _ hstep => SweepStep.not_stopped hstep
    · exact fun _ _ hstep => SweepStep.not_stopped hstep
  exact hend.1

end Sweeps

/-! ## Messages -/

section Messages

variable {s t s' t' s₀ t₀ : Snapshot} {msg : InboundOrderMsg} {slot : Slot}

theorem SameSlots.ends (hslots : SameSlots s t) {grid : PriceGrid} {fate : Fate}
    (hside : (t.slab slot).side = (s.slab slot).side)
    (hs : Ends msg grid slot s s' fate) (ht : Ends msg grid slot t t' fate) :
    SameSlots s' t' := by
  cases fate with
  | released => exact hslots.released hs ht
  | acked =>
      rcases hs with ⟨s₁, _, hposted, hreleased⟩
      rcases ht with ⟨t₁, _, hposted', hreleased'⟩
      exact (hslots.posted hposted hposted').released hreleased hreleased'
  | rested => exact hslots.rested hside hs ht
  | lost =>
      rw [show s' = s from hs, show t' = t from ht]
      exact hslots

theorem SameSlots.newOrder (hslots : SameSlots s t) (hmirrors : Mirrors msg.instrumentId s t)
    (hs : NewOrderStep msg s s') (ht : NewOrderStep msg t t') : SameSlots s' t' := by
  rcases hs.pairedPhases ht hmirrors (fun _ => by rw [hslots.free]) with
    ⟨_, _, hposted, hposted'⟩ | ⟨slot, slot', s₁, t₁, hadmitted, hadmitted', hphases⟩
  · exact hslots.posted hposted hposted'
  · have hstate := (InStep.start hmirrors).admitted hadmitted hadmitted'
    rcases hslots.admitted hadmitted hadmitted' with ⟨rfl, hslots'⟩
    rcases hphases with ⟨s₂, t₂, _, _, ⟨hposted, hreleased⟩, hposted', hreleased'⟩ |
      ⟨grid, s₂, t₂, ⟨hswept, hends⟩, hswept', hends'⟩
    · exact (hslots'.posted hposted hposted').released hreleased hreleased'
    · have hswept₂ := hswept.aligned hswept' ⟨hstate.inStep, hslots', hstate.taker.alike⟩
        (fun _ _ _ _ => rfl)
      rw [hswept₂.taker.quantity] at hends'
      exact hswept₂.slots.ends hswept₂.taker.side hends hends'

theorem SameSlots.cancel (hslots : SameSlots s t) (hmirrors : Mirrors msg.instrumentId s t)
    (hs : CancelStep msg s s') (ht : CancelStep msg t t') : SameSlots s' t' := by
  rcases hs.pairedPhases ht hmirrors with ⟨hnothing, hnothing'⟩ |
    ⟨slot, slot', side, side', level, level', before, before', after, after', s₁, s₂, t₁, t₂, _,
      _, hfound, hfound', ⟨hremoved, hposted, hreleased⟩, hremoved', hposted', hreleased'⟩
  · rw [hnothing, hnothing']
    exact hslots
  · rw [hslots.findOrder_eq hmirrors, hfound, Option.some.injEq] at hfound'
    subst hfound'
    exact ((hslots.removed hremoved hremoved').posted hposted hposted').released hreleased
      hreleased'

theorem SameSlots.message (hslots : SameSlots s t) (hmirrors : Mirrors msg.instrumentId s t)
    (hs : MessageStep msg s s') (ht : MessageStep msg t t') : SameSlots s' t' := by
  cases hs with
  | newOrder s₁ hkind hs hcounted =>
      rcases ht.newOrder_step hkind with ⟨t₁, ht, hcounted'⟩
      exact (hslots.newOrder hmirrors hs ht).posted hcounted hcounted'
  | cancel s₁ hkind hs hcounted =>
      cases ht with
      | newOrder t₁ hkind' ht hcounted' => simp [hkind'] at hkind
      | cancel t₁ _ ht hcounted' => exact (hslots.cancel hmirrors hs ht).posted hcounted hcounted'
      | ignored byte hkind' hcounted' => simp [hkind'] at hkind
  | ignored byte hkind hcounted =>
      cases ht with
      | newOrder t₁ hkind' ht hcounted' =>
          rw [hkind] at hkind'
          exact absurd hkind' (by simp)
      | cancel t₁ hkind' ht hcounted' => simp [hkind] at hkind'
      | ignored byte' _ hcounted' => exact hslots.posted hcounted hcounted'

end Messages

/-! ## What can be told apart -/

/-- The same books and the same free list, whatever the unused slots hold. -/
structure Engine.SameState (engine engine' : Engine) : Prop where
  contents : ∀ instrumentId, engine'.contents instrumentId = engine.contents instrumentId
  queues : engine'.queue = engine.queue
  index : ∀ instrumentId id,
    (engine'.books instrumentId).map (fun book => book.findOrder id) =
      (engine.books instrumentId).map (fun book => book.findOrder id)
  freeSlots : engine'.pool.freeSlots = engine.pool.freeSlots
  nextSlot : engine'.pool.acquire.map Prod.fst = engine.pool.acquire.map Prod.fst

/-- The reports posted since an earlier state, without their timestamps. -/
def Engine.postedViews (before after : Engine) : List Execution :=
  (after.outbound.drop before.outbound.length).map ExecutionReport.view

theorem Snapshot.nextSlot_eq (s : Snapshot) :
    s.engine.pool.acquire.map Prod.fst = s.free.head? := by
  rw [← s.freelistHead_eq]
  unfold OrderPool.acquire
  cases s.engine.pool.freelistHead <;> rfl

theorem SameSlots.sameState {s t : Snapshot} (hslots : SameSlots s t)
    (hmirrors : ∀ instrumentId, Mirrors instrumentId s t) : s.engine.SameState t.engine where
  contents instrumentId := (hmirrors instrumentId).contents_eq
  queues := by rw [s.rep.queue_eq, t.rep.queue_eq, hslots.queues]
  index instrumentId id := by
    cases hbook : s.engine.books instrumentId with
    | none => rw [(hmirrors instrumentId).unlisted.mpr hbook]
    | some book =>
        rcases (hmirrors instrumentId).listed hbook with ⟨book', hbook'⟩
        have hfound := hslots.findOrder_eq (hmirrors instrumentId) id
        rw [Snapshot.findOrder_eq hbook, Snapshot.findOrder_eq hbook'] at hfound
        rw [hbook', Option.map_some, Option.map_some, hfound]
  freeSlots := by rw [s.rep.freeSlots_eq, t.rep.freeSlots_eq, hslots.free]
  nextSlot := by rw [s.nextSlot_eq, t.nextSlot_eq, hslots.free]

/-! ## Whole runs -/

/-- The runs from `s₀` to `s` and from `t₀` to `t` have posted the same reports and are
now on the same slots. -/
structure Aligned (s₀ t₀ s t : Snapshot) : Prop where
  mirrors : ∀ instrumentId, Mirrors instrumentId s t
  reports : ∃ posted : List Execution,
    s.engine.outbound.map ExecutionReport.view =
        s₀.engine.outbound.map ExecutionReport.view ++ posted ∧
      t.engine.outbound.map ExecutionReport.view =
        t₀.engine.outbound.map ExecutionReport.view ++ posted
  slots : SameSlots s t

namespace Aligned

variable {s₀ t₀ s t s' t' : Snapshot} {msg : InboundOrderMsg}

theorem message (haligned : Aligned s₀ t₀ s t) (hs : MessageStep msg s s')
    (ht : MessageStep msg t t') : Aligned s₀ t₀ s' t' := by
  have hstep := hs.inStep ht (haligned.mirrors msg.instrumentId)
    fun _ _ => by rw [haligned.slots.free]
  refine ⟨fun instrumentId => ?_, ?_,
    haligned.slots.message (haligned.mirrors msg.instrumentId) hs ht⟩
  · by_cases heq : instrumentId = msg.instrumentId
    · rw [heq]
      exact hstep.mirrors
    · exact ((hs.mirrors_other heq).symm.trans (haligned.mirrors instrumentId)).trans
        (ht.mirrors_other heq)
  · rcases haligned.reports with ⟨posted, hposted, hposted'⟩
    rcases hstep.reports with ⟨next, hnext, hnext'⟩
    refine ⟨posted ++ next, ?_, ?_⟩
    · rw [hnext, hposted, List.append_assoc]
    · rw [hnext', hposted', List.append_assoc]

theorem runMessages (haligned : Aligned s₀ t₀ s t) (msgs : List InboundOrderMsg) :
    ∃ s' t', s'.engine = s.engine.runMessages msgs ∧ t'.engine = t.engine.runMessages msgs ∧
      Aligned s₀ t₀ s' t' := by
  induction msgs generalizing s t with
  | nil => exact ⟨s, t, rfl, rfl, haligned⟩
  | cons msg msgs ih =>
      rcases s.submit_step msg with ⟨s₁, hengine, hs⟩
      rcases t.submit_step msg with ⟨t₁, hengine', ht⟩
      rcases ih (haligned.message hs ht) with ⟨s', t', hrun, hrun', haligned'⟩
      refine ⟨s', t', ?_, ?_, haligned'⟩
      · rw [hrun, hengine]
        rfl
      · rw [hrun', hengine']
        rfl

theorem postedViews_eq (haligned : Aligned s t s' t') :
    t.engine.postedViews t'.engine = s.engine.postedViews s'.engine := by
  rcases haligned.reports with ⟨posted, hposted, hposted'⟩
  unfold Engine.postedViews
  rw [List.map_drop, List.map_drop, hposted, hposted', List.drop_left' (by simp),
    List.drop_left' (by simp)]

end Aligned

/-! ## Reset -/

section Reset

variable {s s' t : Snapshot}

theorem SameLayout.reset (hengine : s'.engine = s.engine.resetState) : SameLayout s s' where
  capacity := by
    rw [hengine]
    exact OrderPool.buildFreelist_capacity _
  grids := by
    funext instrumentId
    unfold Snapshot.gridOf
    rw [hengine]
    change ((s.engine.books instrumentId).map OrderBook.clear).map OrderBook.grid = _
    rw [Option.map_map]
    rfl

/-- No order rests and every level is as it was constructed. -/
structure Snapshot.Blank (s : Snapshot) : Prop where
  queues_eq : s.queues = fun _ _ _ => []
  free_eq : s.free = List.range s.engine.pool.capacity
  levels : ∀ instrumentId book, s.engine.books instrumentId = some book →
    ∀ side i, book.aggregates side i = ⟨0, 0⟩

theorem Snapshot.Blank.aggregates_eq (hblank : s.Blank) (instrumentId : InstrumentId)
    (side : BookSide) (i : ℕ) :
    s.aggregates instrumentId side i = (s.gridOf instrumentId).map fun _ => ⟨0, 0⟩ := by
  cases hbook : s.engine.books instrumentId with
  | none => simp [Snapshot.aggregates, Snapshot.gridOf, hbook]
  | some book =>
      rw [Snapshot.aggregates_eq hbook, Snapshot.gridOf_eq hbook,
        hblank.levels instrumentId book hbook]
      rfl

theorem Snapshot.Blank.aligned (hs : s.Blank) (ht : t.Blank) (hlayout : SameLayout s t) :
    Aligned s t s t where
  mirrors instrumentId :=
    { grid := congrFun hlayout.grids instrumentId
      orders := by
        unfold Snapshot.orders
        rw [hs.queues_eq, ht.queues_eq]
        rfl
      aggregates := by
        funext side i
        rw [hs.aggregates_eq, ht.aggregates_eq, hlayout.grids] }
  reports := ⟨[], by simp, by simp⟩
  slots := ⟨by rw [hs.queues_eq, ht.queues_eq], by
    rw [hs.free_eq, ht.free_eq, hlayout.capacity]⟩

theorem Initial.isBlank {capacity : ℕ} {clock : ℕ → UInt64}
    {listings : List (InstrumentId × PriceGrid)} (hs : Initial listings capacity clock s) :
    s.Blank where
  queues_eq := hs.queues_eq
  free_eq := by rw [hs.free_eq, hs.capacity_eq]
  levels := by
    intro instrumentId book hbook side i
    rw [hs.engine_eq] at hbook
    rcases Engine.listed_book hbook with ⟨grid, rfl⟩
    cases side <;> rfl

theorem Snapshot.exists_reset (s : Snapshot) :
    ∃ s', s'.engine = s.engine.resetState ∧ s'.Blank ∧ SameLayout s s' := by
  rcases s.event_step .reset with ⟨s', hengine, hevent⟩
  have hlayout := SameLayout.reset hengine
  refine ⟨s', hengine, ?_, hlayout⟩
  cases hevent with
  | reset hstep =>
      refine ⟨hstep.queues_eq, by rw [hstep.free_eq, hlayout.capacity], ?_⟩
      intro instrumentId book hbook side i
      rw [hstep.books_eq] at hbook
      rcases Option.map_eq_some_iff.mp hbook with ⟨old, _, rfl⟩
      cases side <;> rfl

/-- What messages preserve and what holds of blank books holds along every run. -/
theorem Snapshot.exists_run (motive : Snapshot → Prop)
    (hmessage : ∀ msg s s', motive s → MessageStep msg s s' → motive s')
    (hblank : ∀ s, s.Blank → motive s) (events : List Engine.Event) (s : Snapshot)
    (hfirst : motive s) :
    ∃ s', s'.engine = s.engine.run events ∧ SameLayout s s' ∧ motive s' := by
  induction events generalizing s with
  | nil => exact ⟨s, rfl, SameLayout.refl s, hfirst⟩
  | cons event events ih =>
      have hnext : ∃ s₁, s₁.engine = s.engine.step event ∧ SameLayout s s₁ ∧ motive s₁ := by
        cases event with
        | message msg =>
            rcases s.submit_step msg with ⟨s₁, hengine, hstep⟩
            exact ⟨s₁, hengine, SameLayout.message hstep, hmessage msg s s₁ hfirst hstep⟩
        | reset =>
            rcases s.exists_reset with ⟨s₁, hengine, hcleared, hlayout⟩
            exact ⟨s₁, hengine, hlayout, hblank s₁ hcleared⟩
      rcases hnext with ⟨s₁, hengine, hlayout, hkept⟩
      rcases ih s₁ hkept with ⟨s', hrun, hlayout', hkept'⟩
      refine ⟨s', ?_, hlayout.trans hlayout', hkept'⟩
      rw [hrun, hengine]
      rfl

end Reset

/-- After a reset every sequence of messages is answered and leaves the books and the
free list as on a new engine. -/
theorem reset_as_new (capacity : ℕ) (clock clock' : ℕ → UInt64)
    (listings : List (InstrumentId × PriceGrid)) (events : List Engine.Event)
    (msgs : List InboundOrderMsg) :
    ((Engine.listed capacity clock listings).run events).resetState.postedViews
        (((Engine.listed capacity clock listings).run events).resetState.runMessages msgs) =
      (Engine.listed capacity clock' listings).postedViews
        ((Engine.listed capacity clock' listings).runMessages msgs) ∧
    ((Engine.listed capacity clock' listings).runMessages msgs).SameState
      (((Engine.listed capacity clock listings).run events).resetState.runMessages msgs) := by
  rcases Snapshot.exists_initial capacity clock listings with ⟨s₀, hs₀⟩
  rcases Snapshot.exists_initial capacity clock' listings with ⟨t, ht⟩
  rcases Snapshot.exists_run (fun _ => True) (fun _ _ _ _ _ => trivial) (fun _ _ => trivial)
    events s₀ trivial with ⟨s₁, hrun, hlayout₁, _⟩
  rcases s₁.exists_reset with ⟨s, hreset, hblank, hlayout⟩
  have hfresh : SameLayout t s₀ := by
    refine ⟨by rw [hs₀.capacity_eq, ht.capacity_eq], ?_⟩
    funext instrumentId
    exact (ht.mirrors hs₀ instrumentId).grid
  have haligned := ht.isBlank.aligned hblank ((hfresh.trans hlayout₁).trans hlayout)
  rcases haligned.runMessages msgs with ⟨t', s', hengine', hengine, hend⟩
  have hposted := hend.postedViews_eq
  have hstate := hend.slots.sameState hend.mirrors
  rw [hengine, hengine', hreset, hrun, hs₀.engine_eq, ht.engine_eq] at hposted
  rw [hengine, hengine', hreset, hrun, hs₀.engine_eq, ht.engine_eq] at hstate
  exact ⟨hposted, hstate⟩

end NanoMatch
