import NanoMatch.OrderOutcome

/-!
# Slots in use

Between two messages every slot of the pool is free, queued or lost.  The pool
reports as used what is not free, so its count is the number of resting orders
exactly when no slot is lost.  The only message which loses a slot is a limit
order off the grid with a residual: `add_order` refuses it silently and nobody
releases it.
-/

namespace NanoMatch

open OrderBook

/-- All orders in the level queues of the given instruments. -/
def Engine.resting (engine : Engine) (instruments : List InstrumentId) : List Slot :=
  instruments.flatMap fun instrumentId =>
    engine.restingOn instrumentId .bid ++ engine.restingOn instrumentId .ask

/-- The pool counts exactly the resting orders, so it refuses an order only
when all its slots hold one. -/
structure PoolExact (capacity : ℕ) (instruments : List InstrumentId) (engine : Engine) :
    Prop where
  used : engine.pool.usedCount = (engine.resting instruments).length
  exhausted : ∀ msg : InboundOrderMsg, msg.kind = .newOrder →
    engine.books msg.instrumentId ≠ none → engine.pool.acquire = none →
      (engine.resting instruments).length = capacity

/-- The order of the message will keep its slot without resting. -/
def Engine.LosesSlot (engine : Engine) (msg : InboundOrderMsg) : Prop :=
  msg.kind = .newOrder ∧ msg.orderType = .limit ∧ engine.pool.freelistHead ≠ none ∧
    (∃ book, engine.books msg.instrumentId = some book ∧
      book.grid.isValidPrice msg.price = false) ∧
    engine.crossingQuantity msg < msg.quantity.toNat

/-! ## Counting -/

namespace Snapshot

variable (s : Snapshot) {instruments : List InstrumentId}

def NoneLost : Prop := ∀ slot, ¬ s.IsLoose slot

/-- The listed instruments are exactly those of the list. -/
def Lists (instruments : List InstrumentId) : Prop :=
  ∀ instrumentId, s.engine.books instrumentId ≠ none ↔ instrumentId ∈ instruments

theorem mem_restingOn {instrumentId : InstrumentId} {slot : Slot} :
    slot ∈ s.engine.restingOn instrumentId .bid ++ s.engine.restingOn instrumentId .ask ↔
      ∃ side i, slot ∈ s.queues instrumentId side i := by
  unfold Engine.restingOn
  cases hbook : s.engine.books instrumentId with
  | none => simp [s.rep.unlisted instrumentId hbook]
  | some book =>
      rw [s.rep.queue_eq]
      exact mem_restingSlots (s.rep.bookRep _ book hbook).toBookShape

theorem nodup_restingOn (instrumentId : InstrumentId) :
    (s.engine.restingOn instrumentId .bid ++ s.engine.restingOn instrumentId .ask).Nodup := by
  unfold Engine.restingOn
  cases hbook : s.engine.books instrumentId with
  | none => simp
  | some book =>
      rw [s.rep.queue_eq]
      exact nodup_restingSlots (s.rep.bookRep _ book hbook).toBookShape _

theorem mem_restingOn_side {instrumentId : InstrumentId} {side : BookSide} {slot : Slot} :
    slot ∈ s.engine.restingOn instrumentId side ↔ ∃ i, slot ∈ s.queues instrumentId side i := by
  unfold Engine.restingOn
  cases hbook : s.engine.books instrumentId with
  | none => simp [s.rep.unlisted instrumentId hbook]
  | some book =>
      simp only [List.mem_flatMap, List.mem_range, s.rep.queue_eq]
      constructor
      · rintro ⟨i, _, hslot⟩
        exact ⟨i, hslot⟩
      · rintro ⟨i, hslot⟩
        exact ⟨i, ((s.rep.bookRep _ book hbook).placed side i slot hslot).range, hslot⟩

theorem nodup_restingOn_side (instrumentId : InstrumentId) (side : BookSide) :
    (s.engine.restingOn instrumentId side).Nodup := by
  have hnodup := s.nodup_restingOn instrumentId
  cases side with
  | bid => exact hnodup.of_append_left
  | ask => exact hnodup.of_append_right

theorem mem_resting (hlists : s.Lists instruments) {slot : Slot} :
    slot ∈ s.engine.resting instruments ↔
      ∃ instrumentId side i, slot ∈ s.queues instrumentId side i := by
  unfold Engine.resting
  rw [List.mem_flatMap]
  constructor
  · rintro ⟨instrumentId, _, hslot⟩
    exact ⟨instrumentId, s.mem_restingOn.mp hslot⟩
  · rintro ⟨instrumentId, side, i, hslot⟩
    rcases s.rep.listed_of_mem hslot with ⟨book, hbook⟩
    refine ⟨instrumentId, (hlists instrumentId).mp (by simp [hbook]), ?_⟩
    exact s.mem_restingOn.mpr ⟨side, i, hslot⟩

theorem nodup_resting (hnodup : instruments.Nodup) :
    (s.engine.resting instruments).Nodup := by
  unfold Engine.resting
  rw [List.nodup_flatMap]
  refine ⟨fun instrumentId _ => s.nodup_restingOn instrumentId, ?_⟩
  apply hnodup.imp
  intro instrumentId instrumentId' hne slot hslot hslot'
  rcases s.mem_restingOn.mp hslot with ⟨side, i, hmem⟩
  rcases s.mem_restingOn.mp hslot' with ⟨side', i', hmem'⟩
  exact hne (s.rep.queue_unique hmem hmem').1.symm

/-- Free and resting slots are different slots of the pool, and they are all of
them when none is lost. -/
theorem accounting (hnodup : instruments.Nodup) (hlists : s.Lists instruments) :
    s.free.length + (s.engine.resting instruments).length ≤ s.engine.pool.capacity ∧
      (s.free.length + (s.engine.resting instruments).length = s.engine.pool.capacity ↔
        s.NoneLost) := by
  have hdistinct : (s.free ++ s.engine.resting instruments).Nodup := by
    rw [List.nodup_append]
    refine ⟨s.rep.freeList.nodup, s.nodup_resting hnodup, ?_⟩
    intro slot hfree other hresting heq
    subst heq
    rcases (s.mem_resting hlists).mp hresting with ⟨instrumentId, side, i, hmem⟩
    exact s.rep.separate _ _ _ _ hmem hfree
  have hsubset : s.free ++ s.engine.resting instruments ⊆
      List.range s.engine.pool.capacity := by
    intro slot hslot
    rw [List.mem_range]
    rcases List.mem_append.mp hslot with hfree | hresting
    · exact s.rep.freeList.bound slot hfree
    · rcases (s.mem_resting hlists).mp hresting with ⟨instrumentId, side, i, hmem⟩
      exact s.rep.bound _ _ _ _ hmem
  have hsubperm := List.subperm_of_subset hdistinct hsubset
  rw [← List.length_append]
  refine ⟨by simpa using hsubperm.length_le, ?_⟩
  constructor
  · intro hlength slot hloose
    have hperm := hsubperm.perm_of_length_le (by simp [hlength])
    have hmem := hperm.mem_iff.mpr (List.mem_range.mpr hloose.bound)
    rcases List.mem_append.mp hmem with hfree | hresting
    · exact hloose.notFree hfree
    · rcases (s.mem_resting hlists).mp hresting with ⟨instrumentId, side, i, hqueued⟩
      exact hloose.notQueued _ _ _ hqueued
  · intro hnone
    have hcovered : List.range s.engine.pool.capacity ⊆
        s.free ++ s.engine.resting instruments := by
      intro slot hslot
      by_contra hnot
      rw [List.mem_append, s.mem_resting hlists, not_or] at hnot
      refine hnone slot ⟨List.mem_range.mp hslot, hnot.1, ?_⟩
      intro instrumentId side i hqueued
      exact hnot.2 ⟨instrumentId, side, i, hqueued⟩
    have hle := (List.subperm_of_subset List.nodup_range hcovered).length_le
    have hge := hsubperm.length_le
    simp only [List.length_range] at hle hge
    omega

theorem poolExact_iff (hnodup : instruments.Nodup) (hlists : s.Lists instruments) :
    PoolExact s.engine.pool.capacity instruments s.engine ↔ s.NoneLost := by
  rcases s.accounting hnodup hlists with ⟨hle, hiff⟩
  have hcount := s.rep.freeList.count
  have hfree := s.rep.freeList.length_le
  rw [← hiff]
  constructor
  · intro hexact
    have hused := hexact.used
    unfold OrderPool.usedCount at hused
    omega
  · intro hall
    constructor
    · unfold OrderPool.usedCount
      omega
    · intro msg _ _ hnone
      rw [s.rep.freeList.acquire_eq_none_iff] at hnone
      rw [hnone, List.length_nil] at hall
      omega

end Snapshot

/-! ## What each phase does to the lost slots -/

section Phases

variable {s s' : Snapshot} {msg : InboundOrderMsg} {slot other : Slot}
  {instrumentId : InstrumentId}

theorem Admitted.isLoose_cases (hadmitted : Admitted msg slot s s')
    (hother : s'.IsLoose other) : other = slot ∨ s.IsLoose other := by
  by_cases hsame : other = slot
  · exact Or.inl hsame
  · right
    refine ⟨?_, ?_, ?_⟩
    · rw [← hadmitted.capacity_eq]
      exact hother.bound
    · rw [hadmitted.free_eq, List.mem_cons, not_or]
      exact ⟨hsame, hother.notFree⟩
    · rw [← hadmitted.queues_eq]
      exact hother.notQueued

theorem Posted.isLoose_of {reports : List ExecutionReport} {count : ℕ}
    (hposted : Posted reports count s s') (hother : s'.IsLoose other) : s.IsLoose other := by
  unfold Snapshot.IsLoose at hother ⊢
  rw [hposted.pool_eq, hposted.queues_eq, hposted.free_eq] at hother
  exact hother

theorem Released.isLoose_cases (hreleased : Released slot s s')
    (hother : s'.IsLoose other) : s.IsLoose other ∧ other ≠ slot := by
  have hfree := hother.notFree
  rw [hreleased.free_eq, List.mem_cons, not_or] at hfree
  refine ⟨⟨?_, hfree.2, ?_⟩, hfree.1⟩
  · rw [← hreleased.capacity_eq]
    exact hother.bound
  · rw [← hreleased.queues_eq]
    exact hother.notQueued

theorem Traded.isLoose_of {agg maker : Slot} {level : ℕ} {behind : List Slot}
    (htraded : Traded instrumentId agg maker level behind s s')
    (hother : s'.IsLoose other) : s.IsLoose other := by
  have hnotMaker : other ≠ maker := by
    intro heq
    subst heq
    have hfree := hother.notFree
    have hqueued := hother.notQueued instrumentId (s.makerSide agg) level
    rw [htraded.free'] at hfree
    rw [htraded.queue_level] at hqueued
    split_ifs at hfree hqueued with hdone
    · exact hfree (by simp)
    · exact hqueued (by simp)
  refine ⟨?_, ?_, ?_⟩
  · rw [← htraded.capacity]
    exact hother.bound
  · have hfree := hother.notFree
    rw [htraded.free'] at hfree
    split_ifs at hfree with hdone
    · exact fun hmem => hfree (by simp [hmem])
    · exact hfree
  · intro instrumentId' side i hmem
    apply hother.notQueued instrumentId' side i
    by_cases hlevel : instrumentId' = instrumentId ∧ side = s.makerSide agg ∧ i = level
    · rcases hlevel with ⟨rfl, rfl, rfl⟩
      rw [htraded.queue_eq] at hmem
      rw [htraded.queue_level]
      rcases List.mem_cons.mp hmem with heq | hbehind
      · exact absurd heq hnotMaker
      · split_ifs <;> simp [hbehind]
    · rw [htraded.queue_other hlevel]
      exact hmem

theorem Swept.isLoose_of {agg : Slot} {priceOk : Price → Bool}
    (hswept : Swept instrumentId agg priceOk s s') (hother : s'.IsLoose other) :
    s.IsLoose other := by
  have hall := hswept.induction (fun t => t.IsLoose other → s.IsLoose other) id ?_
  · exact hall hother
  · intro t t' maker level behind htraded _ ih hloose
    exact ih (htraded.isLoose_of hloose)

theorem Rested.isLoose_cases {level : ℕ} (hrested : Rested instrumentId slot level s s')
    (hother : s'.IsLoose other) : s.IsLoose other ∧ other ≠ slot := by
  refine ⟨⟨?_, ?_, ?_⟩, ?_⟩
  · rw [← hrested.capacity_eq]
    exact hother.bound
  · rw [← hrested.free_eq]
    exact hother.notFree
  · intro instrumentId' side i hmem
    exact hother.notQueued _ _ _ (hrested.mem_of_mem hmem)
  · intro heq
    subst heq
    exact hother.notQueued _ _ _ hrested.slot_mem

theorem Removed.isLoose_cases {side : BookSide} {level : ℕ} {before after : List Slot}
    (hremoved : Removed instrumentId slot side level before after s s')
    (hother : s'.IsLoose other) : other = slot ∨ s.IsLoose other := by
  by_cases hsame : other = slot
  · exact Or.inl hsame
  · right
    refine ⟨?_, ?_, ?_⟩
    · rw [← hremoved.capacity_eq]
      exact hother.bound
    · rw [← hremoved.free_eq]
      exact hother.notFree
    · intro instrumentId' side' i hmem
      apply hother.notQueued instrumentId' side' i
      rw [hremoved.queue_apply]
      split_ifs with hat
      · rcases hat with ⟨rfl, rfl, rfl⟩
        rw [hremoved.queue_eq] at hmem
        simpa [hsame] using hmem
      · exact hmem

end Phases

/-! ## Messages -/

section Messages

variable {s s' : Snapshot} {msg : InboundOrderMsg}

theorem Admitted.losesSlot {slot : Slot} {s₀ s₁ : Snapshot} {book : OrderBook}
    (hadmitted : Admitted msg slot s s₀) (hkind : msg.kind = .newOrder)
    (hbook : s.engine.books msg.instrumentId = some book)
    (hswept : Swept msg.instrumentId slot msg.accepts s₀ s₁)
    (htype : msg.orderType = .limit) (hresidual : 0 < (s₁.slab slot).remaining)
    (hinvalid : book.grid.isValidPrice msg.price = false) : s.engine.LosesSlot msg := by
  refine ⟨hkind, htype, ?_, ⟨book, hbook, hinvalid⟩, ?_⟩
  · simp [hadmitted.freelistHead_eq]
  · rw [hadmitted.residual_eq hbook hswept] at hresidual
    omega

namespace Snapshot.NoneLost

theorem admitted (hnone : s.NoneLost) {slot other : Slot} (hadmitted : Admitted msg slot s s')
    (hother : s'.IsLoose other) : other = slot := by
  rcases hadmitted.isLoose_cases hother with hsame | hlost
  · exact hsame
  · exact absurd hlost (hnone other)

theorem posted (hnone : s.NoneLost) {reports : List ExecutionReport} {count : ℕ}
    (hposted : Posted reports count s s') : s'.NoneLost :=
  fun _ hloose => hnone _ (hposted.isLoose_of hloose)

theorem released {slot : Slot} (hreleased : Released slot s s')
    (hall : ∀ other, s.IsLoose other → other = slot) : s'.NoneLost := by
  intro other hother
  rcases hreleased.isLoose_cases hother with ⟨hloose, hne⟩
  exact hne (hall other hloose)

theorem newOrder (hnone : s.NoneLost) (hkind : msg.kind = .newOrder)
    (hkept : ¬ s.engine.LosesSlot msg) (hstep : NewOrderStep msg s s') : s'.NoneLost := by
  cases hstep with
  | refused _ _ hposted => exact hnone.posted hposted
  | rejected slot book s₀ s₁ _ _ hadmitted _ hposted hreleased =>
      exact released hreleased
        (fun _ hloose => hnone.admitted hadmitted (hposted.isLoose_of hloose))
  | completed slot book s₀ s₁ _ hadmitted hswept _ hreleased =>
      exact released hreleased
        (fun _ hloose => hnone.admitted hadmitted (hswept.isLoose_of hloose))
  | acked slot book s₀ s₁ s₂ _ _ hadmitted hswept _ _ hposted hreleased =>
      exact released hreleased (fun _ hloose =>
        hnone.admitted hadmitted (hswept.isLoose_of (hposted.isLoose_of hloose)))
  | rested slot book s₀ s₁ _ hadmitted hswept _ _ hrested =>
      intro other hother
      rcases hrested.isLoose_cases hother with ⟨hloose, hne⟩
      exact hne (hnone.admitted hadmitted (hswept.isLoose_of hloose))
  | lost slot book s₀ hbook hadmitted hswept htype hresidual hinvalid =>
      exact absurd (hadmitted.losesSlot hkind hbook hswept htype hresidual hinvalid) hkept

theorem cancel (hnone : s.NoneLost) (hstep : CancelStep msg s s') : s'.NoneLost := by
  cases hstep with
  | ignored hsame =>
      rw [hsame]
      exact hnone
  | cancelled slot book side level before after s₁ s₂ _ _ _ _ hremoved hposted hreleased =>
      apply released hreleased
      intro other hloose
      rcases hremoved.isLoose_cases (hposted.isLoose_of hloose) with hsame | hlost
      · exact hsame
      · exact absurd hlost (hnone other)

theorem message (hnone : s.NoneLost) (hkept : ¬ s.engine.LosesSlot msg)
    (hstep : MessageStep msg s s') : s'.NoneLost := by
  cases hstep with
  | newOrder s₁ hkind hstep hcounted =>
      exact (hnone.newOrder hkind hkept hstep).posted hcounted
  | cancel s₁ _ hstep hcounted => exact (hnone.cancel hstep).posted hcounted
  | ignored _ _ hcounted => exact hnone.posted hcounted

end Snapshot.NoneLost

/-- The slot of such an order is lost. -/
theorem MessageStep.not_noneLost (hloses : s.engine.LosesSlot msg)
    (hstep : MessageStep msg s s') : ¬ s'.NoneLost := by
  rcases hloses with ⟨hkind, htype, hfree, ⟨book, hbook, hinvalid⟩, hmore⟩
  rcases hstep.newOrder_step hkind with ⟨s₁, hstep, hcounted⟩
  rcases hstep.residual_cases htype hfree hbook hmore with
    ⟨slot, s₀, s₂, _, hswept, ⟨hvalid, _⟩ | ⟨_, hsame⟩⟩
  · rw [hvalid] at hinvalid
    exact absurd hinvalid (by simp)
  · intro hnone
    apply hnone slot
    unfold Snapshot.IsLoose
    rw [hcounted.pool_eq, hcounted.queues_eq, hcounted.free_eq, hsame]
    exact hswept.loose

end Messages

/-! ## Runs -/

theorem Snapshot.Lists.layout {s s' : Snapshot} {instruments : List InstrumentId}
    (hlists : s.Lists instruments) (hlayout : SameLayout s s') : s'.Lists instruments := by
  intro instrumentId
  have hgrid := congrFun hlayout.grids instrumentId
  unfold Snapshot.gridOf at hgrid
  rw [← hlists instrumentId]
  apply not_congr
  rw [← Option.map_eq_none_iff, hgrid, Option.map_eq_none_iff]

namespace Initial

variable {capacity : ℕ} {clock : ℕ → UInt64} {listings : List (InstrumentId × PriceGrid)}
  {s : Snapshot}

theorem lists (hs : Initial listings capacity clock s) :
    s.Lists (listings.map Prod.fst).dedup := by
  intro instrumentId
  rw [hs.engine_eq, Engine.listed_books_ne_none, List.mem_dedup]

theorem noneLost (hs : Initial listings capacity clock s) : s.NoneLost := by
  intro slot hloose
  apply hloose.notFree
  rw [hs.free_eq, List.mem_range, ← hs.capacity_eq]
  exact hloose.bound

end Initial

theorem exists_layout (capacity : ℕ) (clock : ℕ → UInt64)
    (listings : List (InstrumentId × PriceGrid)) (msgs : List InboundOrderMsg) :
    ∃ s : Snapshot,
      s.engine = (Engine.listed capacity clock listings).runMessages msgs ∧
        s.engine.pool.capacity = capacity ∧ s.Lists (listings.map Prod.fst).dedup := by
  apply runMessages_induction capacity clock listings
    (fun _ s => s.engine.pool.capacity = capacity ∧ s.Lists (listings.map Prod.fst).dedup)
  · exact fun s hs => ⟨hs.capacity_eq, hs.lists⟩
  · intro _ _ s s' _ hlayout hstep
    have hsame := SameLayout.message hstep
    exact ⟨hsame.capacity.trans hlayout.1, hlayout.2.layout hsame⟩

/-- The pool is exact in every state of a run exactly when no message of the run
loses its slot. -/
theorem run_poolExact_iff (capacity : ℕ) (clock : ℕ → UInt64)
    (listings : List (InstrumentId × PriceGrid)) (msgs : List InboundOrderMsg) :
    (∀ before after, msgs = before ++ after →
        PoolExact capacity (listings.map Prod.fst).dedup
          ((Engine.listed capacity clock listings).runMessages before)) ↔
      ∀ before msg after, msgs = before ++ msg :: after →
        ¬ ((Engine.listed capacity clock listings).runMessages before).LosesSlot msg := by
  constructor
  · intro hall before msg after hsplit hloses
    rcases exists_layout capacity clock listings before with ⟨s, hengine, hcapacity, hlists⟩
    rcases s.submit_step msg with ⟨s', hengine', hstep⟩
    have hlayout := SameLayout.message hstep
    have hexact := hall (before ++ [msg]) after (by simp [hsplit])
    have hrun : (Engine.listed capacity clock listings).runMessages (before ++ [msg]) =
        s'.engine := by
      rw [hengine', hengine]
      simp [Engine.runMessages]
    rw [hrun, ← hcapacity, ← hlayout.capacity] at hexact
    rw [← hengine] at hloses
    apply hstep.not_noneLost hloses
    exact (s'.poolExact_iff (List.nodup_dedup _) (hlists.layout hlayout)).mp hexact
  · intro hkept before after hsplit
    have hinvariant := runMessages_induction capacity clock listings
      (fun history s => ∀ rest, msgs = history ++ rest →
        s.engine.pool.capacity = capacity ∧ s.Lists (listings.map Prod.fst).dedup ∧
          s.NoneLost)
      ?_ ?_ before
    · rcases hinvariant with ⟨s, hengine, hmotive⟩
      rcases hmotive after hsplit with ⟨hcapacity, hlists, hnone⟩
      have hexact := (s.poolExact_iff (List.nodup_dedup _) hlists).mpr hnone
      rw [hcapacity, hengine] at hexact
      exact hexact
    · intro s hs _ _
      exact ⟨hs.capacity_eq, hs.lists, hs.noneLost⟩
    · intro history msg s s' hengine hmotive hstep rest hsplit
      have hsplit' : msgs = history ++ msg :: rest := by simp [hsplit]
      rcases hmotive _ hsplit' with ⟨hcapacity, hlists, hnone⟩
      have hlayout := SameLayout.message hstep
      have hmsg := hkept history msg rest hsplit'
      rw [← hengine] at hmsg
      exact ⟨hlayout.capacity.trans hcapacity, hlists.layout hlayout,
        hnone.message hmsg hstep⟩

/-- A limit buy of 5 at 95, below the grid: one slot is used and no order
rests. -/
theorem slot_lost_off_grid :
    ¬ PoolExact 4 [0] (sampleEngine.runMessages [sampleOrder 0 0 1 95 5]) := by
  intro hexact
  have hused := hexact.used
  revert hused
  decide

end NanoMatch
