import NanoMatch.EngineSteps

/-!
# Runs of the engine

Every message and every reset leads from one snapshot to another, so a run of
any length has a snapshot at each of its states.  The two induction rules pass
the history along, since some invariants speak about all messages so far.  The
first consequence is that no slot is ever used twice.
-/

namespace NanoMatch

open IntrusiveList OrderBook

/-- Every way a message can be processed, with the message counted at the
end. -/
inductive MessageStep (msg : InboundOrderMsg) (s s' : Snapshot) : Prop
  | newOrder (s₁ : Snapshot) (hkind : msg.kind = .newOrder)
      (hstep : NewOrderStep msg s s₁) (hcounted : Posted [] 0 s₁ s')
  | cancel (s₁ : Snapshot) (hkind : msg.kind = .cancel ∨ msg.kind = .modify)
      (hstep : CancelStep msg s s₁) (hcounted : Posted [] 0 s₁ s')
  | ignored (byte : UInt8) (hkind : msg.kind = .raw byte) (hcounted : Posted [] 0 s s')

/-- `reset_state` empties every book and rebuilds the free list. -/
structure ResetStep (s s' : Snapshot) : Prop where
  queues_eq : s'.queues = fun _ _ _ => []
  free_eq : s'.free = List.range s.engine.pool.capacity
  books_eq : s'.engine.books = fun instrumentId =>
    (s.engine.books instrumentId).map OrderBook.clear

/-- The snapshot of a fresh engine with its instruments. -/
structure Initial (listings : List (InstrumentId × PriceGrid)) (capacity : ℕ)
    (clock : ℕ → UInt64) (s : Snapshot) : Prop where
  engine_eq : s.engine = Engine.listed capacity clock listings
  queues_eq : s.queues = fun _ _ _ => []
  free_eq : s.free = List.range capacity

inductive EventStep : Engine.Event → Snapshot → Snapshot → Prop
  | message {msg : InboundOrderMsg} {s s' : Snapshot} (hstep : MessageStep msg s s') :
      EventStep (.message msg) s s'
  | reset {s s' : Snapshot} (hstep : ResetStep s s') : EventStep .reset s s'

namespace Snapshot

variable (s : Snapshot)

theorem submit_step (msg : InboundOrderMsg) :
    ∃ s' : Snapshot, s'.engine = s.engine.submit msg ∧ MessageStep msg s s' := by
  have hcount : ∀ s₁ : Snapshot, s₁.engine = s.engine.dispatch msg →
      ∃ s' : Snapshot, s'.engine = s.engine.submit msg ∧ Posted [] 0 s₁ s' := by
    intro s₁ hengine
    rcases s₁.exists_posted
      { s₁.engine with ordersProcessed := s₁.engine.ordersProcessed + 1 } [] 0
      rfl rfl rfl (by simp) rfl rfl with ⟨s', hengine', hposted⟩
    refine ⟨s', ?_, hposted⟩
    rw [hengine', hengine]
    rfl
  cases hkind : msg.kind with
  | newOrder =>
      rcases s.handleNewOrder_step msg with ⟨s₁, hengine, hstep⟩
      rcases hcount s₁ (by rw [hengine, Engine.dispatch, hkind]) with ⟨s', hengine', hcounted⟩
      exact ⟨s', hengine', .newOrder s₁ hkind hstep hcounted⟩
  | cancel =>
      rcases s.handleCancel_step msg with ⟨s₁, hengine, hstep⟩
      rcases hcount s₁ (by rw [hengine, Engine.dispatch, hkind]) with ⟨s', hengine', hcounted⟩
      exact ⟨s', hengine', .cancel s₁ (Or.inl hkind) hstep hcounted⟩
  | modify =>
      rcases s.handleCancel_step msg with ⟨s₁, hengine, hstep⟩
      rcases hcount s₁ (by rw [hengine, Engine.dispatch, hkind]) with ⟨s', hengine', hcounted⟩
      exact ⟨s', hengine', .cancel s₁ (Or.inr hkind) hstep hcounted⟩
  | raw byte =>
      rcases hcount s (by rw [Engine.dispatch, hkind]) with ⟨s', hengine', hcounted⟩
      exact ⟨s', hengine', .ignored byte hkind hcounted⟩

theorem event_step (event : Engine.Event) :
    ∃ s' : Snapshot, s'.engine = s.engine.step event ∧ EventStep event s s' := by
  cases event with
  | message msg =>
      rcases s.submit_step msg with ⟨s', hengine, hstep⟩
      exact ⟨s', hengine, .message hstep⟩
  | reset => exact ⟨⟨_, _, _, s.rep.resetState⟩, rfl, .reset ⟨rfl, rfl, rfl⟩⟩

theorem exists_initial (capacity : ℕ) (clock : ℕ → UInt64)
    (listings : List (InstrumentId × PriceGrid)) :
    ∃ s : Snapshot, Initial listings capacity clock s :=
  ⟨⟨_, _, _, EngineRep.listed capacity clock listings⟩, rfl, rfl, rfl⟩

end Snapshot

/-! ## Invariants of a message -/

/-- The residual of a limit order joins its level. -/
structure ComesToRest (msg : InboundOrderMsg) (slot : Slot) (book : OrderBook)
    (s s₀ s₁ s' : Snapshot) : Prop where
  listed : s.engine.books msg.instrumentId = some book
  admitted : Admitted msg slot s s₀
  swept : Swept msg.instrumentId slot msg.accepts s₀ s₁
  limit : msg.orderType = .limit
  valid : book.grid.isValidPrice msg.price = true
  rested : Rested msg.instrumentId slot (book.grid.tickToIndex msg.price) s₁ s'

/-- Every phase but the last of a resting order keeps the motive. -/
structure KeptByPhases (instrumentId : InstrumentId) (motive : Snapshot → Prop) : Prop where
  posted : ∀ {reports : List ExecutionReport} {count : ℕ} {s s' : Snapshot},
    Posted reports count s s' → motive s → motive s'
  admitted : ∀ {msg : InboundOrderMsg} {slot : Slot} {s s' : Snapshot},
    Admitted msg slot s s' → motive s → motive s'
  traded : ∀ {agg maker : Slot} {level : ℕ} {behind : List Slot} {s s' : Snapshot},
    Traded instrumentId agg maker level behind s s' → s.IsLoose agg → motive s → motive s'
  released : ∀ {slot : Slot} {s s' : Snapshot}, Released slot s s' → motive s → motive s'
  removed : ∀ {slot : Slot} {side : BookSide} {level : ℕ} {before after : List Slot}
    {s s' : Snapshot}, Removed instrumentId slot side level before after s s' →
      motive s → motive s'

namespace KeptByPhases

variable {motive : Snapshot → Prop} {msg : InboundOrderMsg} {s s' : Snapshot}

theorem trades {instrumentId : InstrumentId} (hkept : KeptByPhases instrumentId motive)
    {agg : Slot} {priceOk : Price → Bool} (hloose : s.IsLoose agg)
    (htrades : Relation.ReflTransGen (SweepStep instrumentId agg priceOk) s s')
    (hfirst : motive s) : motive s' := by
  have hall := sweep_induction htrades (fun t => motive t ∧ t.IsLoose agg)
    ⟨hfirst, hloose⟩ ?_
  · exact hall.1
  · intro t t' maker level behind htraded _ ih
    exact ⟨hkept.traded htraded ih.2 ih.1, htraded.isLoose ih.2⟩

theorem swept (hkept : KeptByPhases msg.instrumentId motive) {slot : Slot} {s₀ s₁ : Snapshot}
    (hadmitted : Admitted msg slot s s₀)
    (hswept : Swept msg.instrumentId slot msg.accepts s₀ s₁) (hfirst : motive s) :
    motive s₁ :=
  hkept.trades hadmitted.loose hswept.trades (hkept.admitted hadmitted hfirst)

theorem newOrder (hkept : KeptByPhases msg.instrumentId motive)
    (hstep : NewOrderStep msg s s')
    (hrests : ∀ slot book s₀ s₁, ComesToRest msg slot book s s₀ s₁ s' →
      motive s₁ → motive s') (hfirst : motive s) : motive s' := by
  cases hstep with
  | refused _ _ hposted => exact hkept.posted hposted hfirst
  | rejected slot book s₀ s₁ _ _ hadmitted _ hposted hreleased =>
      exact hkept.released hreleased
        (hkept.posted hposted (hkept.admitted hadmitted hfirst))
  | completed slot book s₀ s₁ _ hadmitted hswept _ hreleased =>
      exact hkept.released hreleased (hkept.swept hadmitted hswept hfirst)
  | acked slot book s₀ s₁ s₂ _ _ hadmitted hswept _ _ hposted hreleased =>
      exact hkept.released hreleased
        (hkept.posted hposted (hkept.swept hadmitted hswept hfirst))
  | rested slot book s₀ s₁ hbook hadmitted hswept htype hvalid hrested =>
      exact hrests slot book s₀ s₁ ⟨hbook, hadmitted, hswept, htype, hvalid, hrested⟩
        (hkept.swept hadmitted hswept hfirst)
  | lost slot book s₀ _ hadmitted hswept => exact hkept.swept hadmitted hswept hfirst

theorem cancel (hkept : KeptByPhases msg.instrumentId motive) (hstep : CancelStep msg s s')
    (hfirst : motive s) : motive s' := by
  cases hstep with
  | ignored hsame =>
      rw [hsame]
      exact hfirst
  | cancelled slot book side level before after s₁ s₂ _ _ _ _ hremoved hposted hreleased =>
      exact hkept.released hreleased (hkept.posted hposted (hkept.removed hremoved hfirst))

/-- A message keeps what every phase keeps. -/
theorem message (hkept : KeptByPhases msg.instrumentId motive) (hstep : MessageStep msg s s')
    (hrests : ∀ slot book s₀ s₁ t, msg.kind = .newOrder →
      ComesToRest msg slot book s s₀ s₁ t → motive s₁ → motive t)
    (hfirst : motive s) : motive s' := by
  cases hstep with
  | newOrder s₁ hkind hstep hcounted =>
      apply hkept.posted hcounted
      exact hkept.newOrder hstep
        (fun slot book s₀ s₂ => hrests slot book s₀ s₂ s₁ hkind) hfirst
  | cancel s₁ _ hstep hcounted => exact hkept.posted hcounted (hkept.cancel hstep hfirst)
  | ignored _ _ hcounted => exact hkept.posted hcounted hfirst

end KeptByPhases

/-! ## The first state -/

theorem Engine.addInstrument_reports (engine : Engine) (listing : InstrumentId × PriceGrid) :
    (engine.addInstrument listing).outbound = engine.outbound ∧
      (engine.addInstrument listing).fillsExecuted = engine.fillsExecuted ∧
      (engine.addInstrument listing).ordersRejected = engine.ordersRejected ∧
      (engine.addInstrument listing).pool = engine.pool := by
  unfold Engine.addInstrument
  cases engine.books listing.1 <;> exact ⟨rfl, rfl, rfl, rfl⟩

theorem Initial.reports {listings : List (InstrumentId × PriceGrid)} {capacity : ℕ}
    {clock : ℕ → UInt64} {s : Snapshot} (hs : Initial listings capacity clock s) :
    s.engine.outbound = [] ∧ s.engine.fillsExecuted = 0 ∧ s.engine.ordersRejected = 0 ∧
      s.engine.pool = OrderPool.new capacity := by
  rw [hs.engine_eq]
  unfold Engine.listed
  have hnew : (Engine.new capacity clock).outbound = [] ∧
      (Engine.new capacity clock).fillsExecuted = 0 ∧
      (Engine.new capacity clock).ordersRejected = 0 ∧
      (Engine.new capacity clock).pool = OrderPool.new capacity := ⟨rfl, rfl, rfl, rfl⟩
  generalize Engine.new capacity clock = engine at hnew
  clear hs
  induction listings generalizing engine with
  | nil => exact hnew
  | cons listing listings ih =>
      apply ih
      rcases engine.addInstrument_reports listing with ⟨houtbound, hfills, hrejects, hpool⟩
      rw [houtbound, hfills, hrejects, hpool]
      exact hnew

theorem Initial.capacity_eq {listings : List (InstrumentId × PriceGrid)} {capacity : ℕ}
    {clock : ℕ → UInt64} {s : Snapshot} (hs : Initial listings capacity clock s) :
    s.engine.pool.capacity = capacity := by
  rw [hs.reports.2.2.2]
  exact OrderPool.buildFreelist_capacity _

def Snapshot.gridOf (s : Snapshot) (instrumentId : InstrumentId) : Option PriceGrid :=
  (s.engine.books instrumentId).map OrderBook.grid

theorem Snapshot.gridOf_eq {s : Snapshot} {instrumentId : InstrumentId} {book : OrderBook}
    (hbook : s.engine.books instrumentId = some book) :
    s.gridOf instrumentId = some book.grid := by
  simp [Snapshot.gridOf, hbook]

theorem Snapshot.gridOf_of_update {s s' : Snapshot} {instrumentId : InstrumentId}
    {book book' : OrderBook}
    (hbook : s.engine.books instrumentId = some book)
    (hbooks : s'.engine.books = Function.update s.engine.books instrumentId (some book'))
    (hgrid : book'.grid = book.grid) : s'.gridOf = s.gridOf := by
  funext other
  unfold Snapshot.gridOf
  rw [hbooks]
  by_cases hsame : other = instrumentId
  · subst hsame
    simp [hbook, hgrid]
  · rw [Function.update_of_ne hsame]

/-- What no message changes: the size of the pool and the grids of the books. -/
structure SameLayout (s s' : Snapshot) : Prop where
  capacity : s'.engine.pool.capacity = s.engine.pool.capacity
  grids : s'.gridOf = s.gridOf

namespace SameLayout

variable {s s' s'' : Snapshot} {msg : InboundOrderMsg} {slot : Slot}
  {instrumentId : InstrumentId}

theorem refl (s : Snapshot) : SameLayout s s :=
  ⟨rfl, rfl⟩

theorem trans (hfirst : SameLayout s s') (hsecond : SameLayout s' s'') : SameLayout s s'' :=
  ⟨hsecond.capacity.trans hfirst.capacity, hsecond.grids.trans hfirst.grids⟩

theorem of_books (hcapacity : s'.engine.pool.capacity = s.engine.pool.capacity)
    (hbooks : s'.engine.books = s.engine.books) : SameLayout s s' := by
  refine ⟨hcapacity, ?_⟩
  unfold Snapshot.gridOf
  rw [hbooks]

theorem posted {reports : List ExecutionReport} {count : ℕ}
    (hposted : Posted reports count s s') : SameLayout s s' :=
  of_books (by rw [hposted.pool_eq]) hposted.books_eq

theorem admitted (hadmitted : Admitted msg slot s s') : SameLayout s s' :=
  of_books hadmitted.capacity_eq hadmitted.books_eq

theorem released (hreleased : Released slot s s') : SameLayout s s' :=
  of_books hreleased.capacity_eq hreleased.books_eq

theorem traded {maker : Slot} {level : ℕ} {behind : List Slot}
    (htraded : Traded instrumentId slot maker level behind s s') : SameLayout s s' := by
  rcases htraded.books with ⟨book, book', hbook, hbooks, hgrid, _⟩
  exact ⟨htraded.capacity, Snapshot.gridOf_of_update hbook hbooks hgrid⟩

theorem swept {priceOk : Price → Bool} (hswept : Swept instrumentId slot priceOk s s') :
    SameLayout s s' := by
  apply hswept.induction (SameLayout s) (refl s)
  intro t t' maker level behind htraded _ ih
  exact ih.trans (traded htraded)

theorem rested {level : ℕ} (hrested : Rested instrumentId slot level s s') :
    SameLayout s s' := by
  rcases hrested.books with ⟨book, book', hbook, hbooks, _, hgrid, _⟩
  exact ⟨hrested.capacity_eq, Snapshot.gridOf_of_update hbook hbooks hgrid⟩

theorem removed {side : BookSide} {level : ℕ} {before after : List Slot}
    (hremoved : Removed instrumentId slot side level before after s s') : SameLayout s s' := by
  rcases hremoved.books with ⟨book, book', hbook, hbooks, hgrid, _⟩
  exact ⟨hremoved.capacity_eq, Snapshot.gridOf_of_update hbook hbooks hgrid⟩

theorem keptByPhases (s : Snapshot) (instrumentId : InstrumentId) :
    KeptByPhases instrumentId (SameLayout s) where
  posted hposted hlayout := hlayout.trans (posted hposted)
  admitted hadmitted hlayout := hlayout.trans (admitted hadmitted)
  traded htraded _ hlayout := hlayout.trans (traded htraded)
  released hreleased hlayout := hlayout.trans (released hreleased)
  removed hremoved hlayout := hlayout.trans (removed hremoved)

theorem message (hstep : MessageStep msg s s') : SameLayout s s' := by
  apply (keptByPhases s msg.instrumentId).message hstep _ (refl s)
  intro slot book s₀ s₁ t _ hrests hlayout
  exact hlayout.trans (rested hrests.rested)

end SameLayout

theorem Engine.listed_books_ne_none (capacity : ℕ) (clock : ℕ → UInt64)
    (listings : List (InstrumentId × PriceGrid)) (instrumentId : InstrumentId) :
    (Engine.listed capacity clock listings).books instrumentId ≠ none ↔
      instrumentId ∈ listings.map Prod.fst := by
  have hfold : ∀ engine : Engine,
      (listings.foldl Engine.addInstrument engine).books instrumentId ≠ none ↔
        engine.books instrumentId ≠ none ∨ instrumentId ∈ listings.map Prod.fst := by
    induction listings with
    | nil => simp
    | cons listing listings ih =>
        intro engine
        have hadd : (engine.addInstrument listing).books instrumentId ≠ none ↔
            engine.books instrumentId ≠ none ∨ instrumentId = listing.1 := by
          unfold Engine.addInstrument
          by_cases hsame : instrumentId = listing.1
          · subst hsame
            cases hbook : engine.books listing.1 <;> simp [hbook]
          · cases engine.books listing.1 <;> simp [hsame]
        rw [List.foldl_cons, ih, hadd, List.map_cons, List.mem_cons, or_assoc]
  have hnew : (Engine.new capacity clock).books instrumentId = none := rfl
  unfold Engine.listed
  rw [hfold, hnew]
  simp

theorem Engine.listed_book {capacity : ℕ} {clock : ℕ → UInt64}
    {listings : List (InstrumentId × PriceGrid)} {instrumentId : InstrumentId}
    {book : OrderBook}
    (hbook : (Engine.listed capacity clock listings).books instrumentId = some book) :
    ∃ grid, book = OrderBook.new instrumentId grid := by
  have hfold : ∀ engine : Engine,
      (∀ book, engine.books instrumentId = some book →
        ∃ grid, book = OrderBook.new instrumentId grid) →
      ∀ book, (listings.foldl Engine.addInstrument engine).books instrumentId = some book →
        ∃ grid, book = OrderBook.new instrumentId grid := by
    clear hbook
    induction listings with
    | nil => exact fun engine hengine => hengine
    | cons listing listings ih =>
        intro engine hengine
        apply ih
        intro book hbook
        cases hlisted : engine.books listing.1 with
        | some old =>
            simp only [Engine.addInstrument, hlisted] at hbook
            exact hengine book hbook
        | none =>
            simp only [Engine.addInstrument, hlisted] at hbook
            by_cases hsame : instrumentId = listing.1
            · subst hsame
              rw [Function.update_self, Option.some.injEq] at hbook
              exact ⟨listing.2, hbook.symm⟩
            · rw [Function.update_of_ne hsame] at hbook
              exact hengine book hbook
  exact hfold (Engine.new capacity clock) (fun _ hnone => absurd hnone (by simp [Engine.new]))
    book hbook

section Induction

variable (capacity : ℕ) (clock : ℕ → UInt64) (listings : List (InstrumentId × PriceGrid))

/-- Invariants of runs with resets. -/
theorem run_induction (motive : List Engine.Event → Snapshot → Prop)
    (hinitial : ∀ s, Initial listings capacity clock s → motive [] s)
    (hstep : ∀ history event s s',
      s.engine = (Engine.listed capacity clock listings).run history →
      motive history s → EventStep event s s' → motive (history ++ [event]) s')
    (events : List Engine.Event) :
    ∃ s : Snapshot, s.engine = (Engine.listed capacity clock listings).run events ∧
      motive events s := by
  induction events using List.reverseRecOn with
  | nil =>
      rcases Snapshot.exists_initial capacity clock listings with ⟨s, hs⟩
      exact ⟨s, hs.engine_eq, hinitial s hs⟩
  | append_singleton events event ih =>
      rcases ih with ⟨s, hengine, hmotive⟩
      rcases s.event_step event with ⟨s', hengine', hevent⟩
      refine ⟨s', ?_, hstep events event s s' hengine hmotive hevent⟩
      rw [hengine', hengine]
      simp [Engine.run]

theorem runMessages_induction (motive : List InboundOrderMsg → Snapshot → Prop)
    (hinitial : ∀ s, Initial listings capacity clock s → motive [] s)
    (hstep : ∀ history msg s s',
      s.engine = (Engine.listed capacity clock listings).runMessages history →
      motive history s → MessageStep msg s s' → motive (history ++ [msg]) s')
    (msgs : List InboundOrderMsg) :
    ∃ s : Snapshot,
      s.engine = (Engine.listed capacity clock listings).runMessages msgs ∧
        motive msgs s := by
  induction msgs using List.reverseRecOn with
  | nil =>
      rcases Snapshot.exists_initial capacity clock listings with ⟨s, hs⟩
      exact ⟨s, hs.engine_eq, hinitial s hs⟩
  | append_singleton msgs msg ih =>
      rcases ih with ⟨s, hengine, hmotive⟩
      rcases s.submit_step msg with ⟨s', hengine', hmessage⟩
      refine ⟨s', ?_, hstep msgs msg s s' hengine hmotive hmessage⟩
      rw [hengine', hengine]
      simp [Engine.runMessages]

theorem exists_snapshot (events : List Engine.Event) :
    ∃ s : Snapshot, s.engine = (Engine.listed capacity clock listings).run events := by
  rcases run_induction capacity clock listings (fun _ _ => True) (fun _ _ => trivial)
    (fun _ _ _ _ _ _ _ => trivial) events with ⟨s, hengine, _⟩
  exact ⟨s, hengine⟩

theorem exists_snapshot_messages (msgs : List InboundOrderMsg) :
    ∃ s : Snapshot,
      s.engine = (Engine.listed capacity clock listings).runMessages msgs := by
  rcases runMessages_induction capacity clock listings (fun _ _ => True)
    (fun _ _ => trivial) (fun _ _ _ _ _ _ _ => trivial) msgs with ⟨s, hengine, _⟩
  exact ⟨s, hengine⟩

end Induction

/-! ## A small engine for concrete runs -/

/-- One instrument with prices from 100 to 110. -/
def sampleEngine : Engine := Engine.listed 4 (fun _ => 0) [(0, sampleGrid)]

def sampleOrder (side type : UInt8) (orderId : OrderId) (price : Price)
    (quantity : Quantity) : InboundOrderMsg where
  kind := .newOrder
  orderId := orderId
  price := price
  quantity := quantity
  instrumentId := 0
  clientId := 1
  side := side
  type := type

/-! ## No slot is used twice -/

structure Separation (engine : Engine) : Prop where
  free_chain : Chain engine.slab.nextOf engine.pool.freelistHead engine.pool.freeSlots
  free_nodup : engine.pool.freeSlots.Nodup
  free_length : engine.pool.freeSlots.length = engine.pool.freeCount
  queue_linked : ∀ instrumentId book, engine.books instrumentId = some book →
    ∀ side i, Queue engine.slab (book.sideLevels side i) (engine.queue instrumentId side i)
  free_notQueued : ∀ slot ∈ engine.pool.freeSlots, ∀ instrumentId side i,
    slot ∉ engine.queue instrumentId side i
  queue_nodup : ∀ instrumentId side i, (engine.queue instrumentId side i).Nodup
  queue_unique : ∀ slot instrumentId side i instrumentId' side' i',
    slot ∈ engine.queue instrumentId side i → slot ∈ engine.queue instrumentId' side' i' →
      instrumentId' = instrumentId ∧ side' = side ∧ i' = i
  indexed : ∀ instrumentId book, engine.books instrumentId = some book →
    ∀ id slot, book.findOrder id = some slot →
      (∃ side i, slot ∈ engine.queue instrumentId side i) ∧ (engine.slab slot).orderId = id
  releases : ∀ call ∈ engine.releases, call.Sound

theorem EngineRep.separation {engine : Engine} {queues : InstrumentId → Queues}
    {free : List Slot} (hrep : EngineRep engine queues free) : Separation engine := by
  have hfree := hrep.freeSlots_eq
  have hqueue := hrep.queue_eq
  constructor
  · rw [hfree]
    exact hrep.freeList.chain
  · rw [hfree]
    exact hrep.freeList.nodup
  · rw [hfree]
    exact hrep.freeList.count
  · intro instrumentId book hbook
    rw [hqueue]
    exact (hrep.bookRep _ book hbook).linked
  · intro slot hslot instrumentId side i hmem
    rw [hfree] at hslot
    rw [hqueue] at hmem
    exact hrep.separate _ _ _ _ hmem hslot
  · intro instrumentId side i
    rw [hqueue]
    cases hbook : engine.books instrumentId with
    | none =>
        rw [hrep.unlisted _ hbook]
        exact List.nodup_nil
    | some book => exact ((hrep.bookRep _ book hbook).linked side i).nodup
  · intro slot instrumentId side i instrumentId' side' i' hslot hslot'
    rw [hqueue] at hslot hslot'
    exact hrep.queue_unique hslot hslot'
  · intro instrumentId book hbook
    rw [hqueue]
    exact (hrep.bookRep _ book hbook).indexed
  · exact hrep.sound

theorem run_separation (capacity : ℕ) (clock : ℕ → UInt64)
    (listings : List (InstrumentId × PriceGrid)) (events : List Engine.Event) :
    Separation ((Engine.listed capacity clock listings).run events) := by
  rcases exists_snapshot capacity clock listings events with ⟨s, hengine⟩
  rw [← hengine]
  exact s.rep.separation

end NanoMatch
