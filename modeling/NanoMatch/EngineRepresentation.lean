import NanoMatch.MatchingEngine
import NanoMatch.OrderBookRuns

/-!
# What an engine represents

`EngineRep engine queues free` ties the pool, the books and the record of
released slots to the free list and to the queues of all instruments.  The
free list and the queues share the `next` field, so the relation also says
that they have no slot in common.  A queued slot carries the instrument of its
book, which keeps the queues of different books apart.

Each step of the engine changes this relation in one of four ways: it writes a
book back, releases a slot which is nowhere, fills a slot which is nowhere, or
starts afresh.
-/

namespace NanoMatch

open IntrusiveList OrderBook

/-- The slot is neither free nor queued. -/
structure Loose (capacity : ℕ) (queues : InstrumentId → Queues) (free : List Slot)
    (slot : Slot) : Prop where
  bound : slot < capacity
  notFree : slot ∉ free
  notQueued : ∀ instrumentId side i, slot ∉ queues instrumentId side i

/-- The released slot was neither free nor queued at the call. -/
def ReleaseCall.Sound (call : ReleaseCall) : Prop :=
  Loose call.pool.capacity (levelQueue call.pool call.books) call.pool.freeSlots call.slot

structure EngineRep (engine : Engine) (queues : InstrumentId → Queues)
    (free : List Slot) : Prop where
  freeList : OrderPool.FreeList engine.pool free
  bookRep : ∀ instrumentId book, engine.books instrumentId = some book →
    BookRep engine.slab book (queues instrumentId)
  unlisted : ∀ instrumentId, engine.books instrumentId = none →
    ∀ side i, queues instrumentId side i = []
  owned : ∀ instrumentId side i, ∀ slot ∈ queues instrumentId side i,
    (engine.slab slot).instrumentId = instrumentId
  bound : ∀ instrumentId side i, ∀ slot ∈ queues instrumentId side i,
    slot < engine.pool.capacity
  separate : ∀ instrumentId side i, ∀ slot ∈ queues instrumentId side i, slot ∉ free
  sound : ∀ call ∈ engine.releases, call.Sound

namespace EngineRep

variable {engine next : Engine} {queues : InstrumentId → Queues} {free : List Slot}
  {instrumentId : InstrumentId} {book : OrderBook} {slot : Slot}

theorem listed_of_mem (hrep : EngineRep engine queues free) {side : BookSide} {i : ℕ}
    (hslot : slot ∈ queues instrumentId side i) :
    ∃ book, engine.books instrumentId = some book := by
  cases hbook : engine.books instrumentId with
  | none =>
      rw [hrep.unlisted instrumentId hbook side i] at hslot
      exact absurd hslot (by simp)
  | some book => exact ⟨book, rfl⟩

theorem queue_unique (hrep : EngineRep engine queues free)
    {instrumentId' : InstrumentId} {side side' : BookSide} {i i' : ℕ}
    (hslot : slot ∈ queues instrumentId side i)
    (hslot' : slot ∈ queues instrumentId' side' i') :
    instrumentId' = instrumentId ∧ side' = side ∧ i' = i := by
  have howner := hrep.owned _ _ _ _ hslot
  have howner' := hrep.owned _ _ _ _ hslot'
  obtain rfl : instrumentId' = instrumentId := howner'.symm.trans howner
  obtain ⟨book, hbook⟩ := hrep.listed_of_mem hslot
  exact ⟨rfl, (hrep.bookRep _ book hbook).toLevelsRep.level_unique hslot hslot'⟩

theorem queue_length_le (hrep : EngineRep engine queues free)
    (hbook : engine.books instrumentId = some book) (side : BookSide) (i : ℕ) :
    (queues instrumentId side i).length ≤ engine.pool.capacity := by
  have hsubset : queues instrumentId side i ⊆ List.range engine.pool.capacity := by
    intro slot hslot
    exact List.mem_range.mpr (hrep.bound _ _ _ slot hslot)
  have hnodup := ((hrep.bookRep _ book hbook).linked side i).nodup
  simpa using (List.subperm_of_subset hnodup hsubset).length_le

theorem queue_eq (hrep : EngineRep engine queues free) : engine.queue = queues := by
  funext instrumentId side i
  cases hbook : engine.books instrumentId with
  | none =>
      rw [hrep.unlisted instrumentId hbook side i]
      simp [Engine.queue, levelQueue, hbook]
  | some book =>
      have hlinked := (hrep.bookRep _ book hbook).linked side i
      have hwalk := hlinked.forward.walk_eq (hrep.queue_length_le hbook side i)
      simp only [Engine.queue, levelQueue, hbook]
      exact hwalk

theorem freeSlots_eq (hrep : EngineRep engine queues free) :
    engine.pool.freeSlots = free :=
  hrep.freeList.freeSlots_eq

theorem congr (hrep : EngineRep engine queues free) (hpool : next.pool = engine.pool)
    (hbooks : next.books = engine.books) (hreleases : next.releases = engine.releases) :
    EngineRep next queues free := by
  have hslab : next.slab = engine.slab := by
    unfold Engine.slab
    rw [hpool]
  constructor
  · rw [hpool]
    exact hrep.freeList
  · rw [hbooks, hslab]
    exact hrep.bookRep
  · rw [hbooks]
    exact hrep.unlisted
  · rw [hslab]
    exact hrep.owned
  · rw [hpool]
    exact hrep.bound
  · exact hrep.separate
  · rw [hreleases]
    exact hrep.sound

theorem setSlab (hrep : EngineRep engine queues free)
    (hloose : Loose engine.pool.capacity queues free slot) {slab : Slab}
    (hsame : ∀ other, other ≠ slot → slab other = engine.slab other) :
    EngineRep (engine.setSlab slab) queues free := by
  have hqueued : ∀ instrumentId side i, ∀ other ∈ queues instrumentId side i,
      slab other = engine.slab other := by
    intro instrumentId side i other hother
    apply hsame
    rintro rfl
    exact hloose.notQueued _ _ _ hother
  constructor
  · apply hrep.freeList.congr_storage
    intro other hother
    apply hsame
    rintro rfl
    exact hloose.notFree hother
  · intro instrumentId book hbook
    exact (hrep.bookRep instrumentId book hbook).congr_of_mem (hqueued instrumentId)
  · exact hrep.unlisted
  · intro instrumentId side i other hother
    have howner := hrep.owned _ _ _ _ hother
    rw [← hqueued _ _ _ other hother] at howner
    exact howner
  · exact hrep.bound
  · exact hrep.separate
  · exact hrep.sound

theorem mem_update_queues {queues : InstrumentId → Queues} {queues' : Queues}
    {instrumentId instrumentId' : InstrumentId} {side : BookSide} {i : ℕ} {slot : Slot}
    (hslot : slot ∈ Function.update queues instrumentId queues' instrumentId' side i) :
    instrumentId' = instrumentId ∧ slot ∈ queues' side i ∨
      slot ∈ queues instrumentId' side i := by
  by_cases hsame : instrumentId' = instrumentId
  · subst hsame
    rw [Function.update_self] at hslot
    exact Or.inl ⟨rfl, hslot⟩
  · rw [Function.update_of_ne hsame] at hslot
    exact Or.inr hslot

/-- Writing one book back.  Its new queues may hold its old slots and one slot
which was nowhere. -/
theorem setBook (hrep : EngineRep engine queues free)
    (hbook : engine.books instrumentId = some book) (state : Slab × OrderBook)
    {queues' : Queues} (hstate : BookRep state.1 state.2 queues')
    (hqueues : ∀ side i, ∀ slot ∈ queues' side i,
      (∃ side i, slot ∈ queues instrumentId side i) ∨
        Loose engine.pool.capacity queues free slot ∧
          (engine.slab slot).instrumentId = instrumentId)
    (hterms : ∀ slot, (state.1 slot).terms = (engine.slab slot).terms)
    (hframe : ∀ slot, (∀ side i, slot ∉ queues instrumentId side i) →
      (∀ side i, slot ∉ queues' side i) → state.1 slot = engine.slab slot) :
    EngineRep (engine.setBook instrumentId state)
      (Function.update queues instrumentId queues') free := by
  have hfree : ∀ side i, ∀ slot ∈ queues' side i, slot ∉ free := by
    intro side i slot hslot
    rcases hqueues side i slot hslot with ⟨side', i', hold⟩ | hloose
    · exact hrep.separate _ _ _ _ hold
    · exact hloose.1.notFree
  have howner : ∀ side i, ∀ slot ∈ queues' side i,
      (engine.slab slot).instrumentId = instrumentId := by
    intro side i slot hslot
    rcases hqueues side i slot hslot with ⟨side', i', hold⟩ | hloose
    · exact hrep.owned _ _ _ _ hold
    · exact hloose.2
  have hother : ∀ instrumentId', instrumentId' ≠ instrumentId → ∀ side i,
      ∀ slot ∈ queues instrumentId' side i, state.1 slot = engine.slab slot := by
    intro instrumentId' hne side i slot hslot
    have hownerOther := hrep.owned _ _ _ _ hslot
    apply hframe
    · intro side' i' hmem
      exact hne (hownerOther.symm.trans (hrep.owned _ _ _ _ hmem))
    · intro side' i' hmem
      exact hne (hownerOther.symm.trans (howner _ _ _ hmem))
  have hownerKept : ∀ slot, (state.1 slot).instrumentId = (engine.slab slot).instrumentId :=
    fun slot => congrArg Order.Terms.instrumentId (hterms slot)
  constructor
  · apply hrep.freeList.congr_storage
    intro slot hslot
    apply hframe
    · intro side i hmem
      exact hrep.separate _ _ _ _ hmem hslot
    · intro side i hmem
      exact hfree _ _ _ hmem hslot
  · intro instrumentId' book' hbook'
    by_cases hsame : instrumentId' = instrumentId
    · subst hsame
      simp only [Engine.setBook, Function.update_self, Option.some.injEq] at hbook'
      subst hbook'
      rw [Function.update_self]
      exact hstate
    · simp only [Engine.setBook, Function.update_of_ne hsame] at hbook'
      rw [Function.update_of_ne hsame]
      exact (hrep.bookRep _ _ hbook').congr_of_mem (hother _ hsame)
  · intro instrumentId' hbook'
    by_cases hsame : instrumentId' = instrumentId
    · subst hsame
      simp [Engine.setBook] at hbook'
    · simp only [Engine.setBook, Function.update_of_ne hsame] at hbook'
      rw [Function.update_of_ne hsame]
      exact hrep.unlisted _ hbook'
  · intro instrumentId' side i slot hslot
    change (state.1 slot).instrumentId = instrumentId'
    rw [hownerKept slot]
    rcases mem_update_queues hslot with ⟨rfl, hnew⟩ | hold
    · exact howner _ _ _ hnew
    · exact hrep.owned _ _ _ _ hold
  · intro instrumentId' side i slot hslot
    rcases mem_update_queues hslot with ⟨rfl, hnew⟩ | hold
    · rcases hqueues side i slot hnew with ⟨side', i', hold⟩ | hloose
      · exact hrep.bound _ _ _ _ hold
      · exact hloose.1.bound
    · exact hrep.bound _ _ _ _ hold
  · intro instrumentId' side i slot hslot
    rcases mem_update_queues hslot with ⟨rfl, hnew⟩ | hold
    · exact hfree _ _ _ hnew
    · exact hrep.separate _ _ _ _ hold
  · exact hrep.sound

theorem release (hrep : EngineRep engine queues free)
    (hloose : Loose engine.pool.capacity queues free slot) :
    EngineRep (engine.release slot) queues (slot :: free) := by
  have hkept : ∀ other, other ≠ slot → (engine.release slot).slab other = engine.slab other := by
    intro other hne
    simp [Engine.release, Engine.slab, OrderPool.release, Slab.setPrev, Slab.setNext, hne]
  have hqueued : ∀ instrumentId side i, ∀ other ∈ queues instrumentId side i,
      (engine.release slot).slab other = engine.slab other := by
    intro instrumentId side i other hother
    apply hkept
    rintro rfl
    exact hloose.notQueued _ _ _ hother
  constructor
  · exact hrep.freeList.release hloose.notFree hloose.bound
  · intro instrumentId book hbook
    exact (hrep.bookRep instrumentId book hbook).congr_of_mem (hqueued instrumentId)
  · exact hrep.unlisted
  · intro instrumentId side i other hother
    rw [hqueued _ _ _ _ hother]
    exact hrep.owned _ _ _ _ hother
  · exact hrep.bound
  · intro instrumentId side i other hother hmem
    rcases List.mem_cons.mp hmem with rfl | hmem
    · exact hloose.notQueued _ _ _ hother
    · exact hrep.separate _ _ _ _ hother hmem
  · intro call hcall
    simp only [Engine.release, List.mem_append, List.mem_singleton] at hcall
    rcases hcall with hcall | rfl
    · exact hrep.sound call hcall
    · unfold ReleaseCall.Sound
      change Loose engine.pool.capacity engine.queue engine.pool.freeSlots slot
      rw [hrep.queue_eq, hrep.freeSlots_eq]
      exact hloose

theorem admitOrder (hrep : EngineRep engine queues (slot :: free)) (msg : InboundOrderMsg) :
    EngineRep (engine.admitOrder msg slot (engine.pool.popped slot)) queues free ∧
      Loose engine.pool.capacity queues free slot := by
  have hqueued : ∀ instrumentId side i, slot ∉ queues instrumentId side i := by
    intro instrumentId side i hmem
    exact hrep.separate _ _ _ _ hmem (by simp)
  have hnodup := List.nodup_cons.mp hrep.freeList.nodup
  have hloose : Loose engine.pool.capacity queues free slot :=
    ⟨hrep.freeList.bound slot (by simp), hnodup.1, hqueued⟩
  have hkept : ∀ other, other ≠ slot →
      (engine.admitOrder msg slot (engine.pool.popped slot)).slab other = engine.slab other := by
    intro other hne
    simp [Engine.admitOrder, Engine.slab, OrderPool.popped, hne]
  have hsame : ∀ instrumentId side i, ∀ other ∈ queues instrumentId side i,
      (engine.admitOrder msg slot (engine.pool.popped slot)).slab other = engine.slab other := by
    intro instrumentId side i other hother
    apply hkept
    rintro rfl
    exact hqueued _ _ _ hother
  refine ⟨?_, hloose⟩
  constructor
  · apply hrep.freeList.popped.congr_storage
    intro other hother
    apply Function.update_of_ne
    rintro rfl
    exact hnodup.1 hother
  · intro instrumentId book hbook
    exact (hrep.bookRep instrumentId book hbook).congr_of_mem (hsame instrumentId)
  · exact hrep.unlisted
  · intro instrumentId side i other hother
    rw [hsame _ _ _ _ hother]
    exact hrep.owned _ _ _ _ hother
  · exact hrep.bound
  · intro instrumentId side i other hother hmem
    exact hrep.separate _ _ _ _ hother (by simp [hmem])
  · exact hrep.sound

theorem resetState (hrep : EngineRep engine queues free) :
    EngineRep engine.resetState (fun _ _ _ => []) (List.range engine.pool.capacity) := by
  constructor
  · exact OrderPool.buildFreelist_freeList engine.pool
  · intro instrumentId book hbook
    simp only [Engine.resetState, Option.map_eq_some_iff] at hbook
    rcases hbook with ⟨old, hold, hclear⟩
    subst hclear
    exact (bookInvariant_clear _ (hrep.bookRep _ old hold).priced).toBookRep
  · exact fun _ _ _ _ => rfl
  · exact fun _ _ _ _ hslot => absurd hslot (by simp)
  · exact fun _ _ _ _ hslot => absurd hslot (by simp)
  · exact fun _ _ _ _ hslot => absurd hslot (by simp)
  · exact hrep.sound

theorem addInstrument (hrep : EngineRep engine (fun _ _ _ => []) free)
    (listing : InstrumentId × PriceGrid) :
    EngineRep (engine.addInstrument listing) (fun _ _ _ => []) free := by
  cases hbook : engine.books listing.1 with
  | some book =>
      simpa [Engine.addInstrument, hbook] using hrep
  | none =>
      simp only [Engine.addInstrument, hbook]
      constructor
      · exact hrep.freeList
      · intro instrumentId book hlisted
        by_cases hsame : instrumentId = listing.1
        · subst hsame
          simp only [Function.update_self, Option.some.injEq] at hlisted
          subst hlisted
          exact (bookInvariant_new _ _ _).toBookRep
        · simp only [Function.update_of_ne hsame] at hlisted
          exact hrep.bookRep _ _ hlisted
      · exact fun _ _ _ _ => rfl
      · exact hrep.owned
      · exact hrep.bound
      · exact hrep.separate
      · exact hrep.sound

theorem new (capacity : ℕ) (clock : ℕ → UInt64) :
    EngineRep (Engine.new capacity clock) (fun _ _ _ => []) (List.range capacity) := by
  constructor
  · exact OrderPool.new_freeList capacity
  · exact fun _ _ hbook => absurd hbook (by simp [Engine.new])
  · exact fun _ _ _ _ => rfl
  · exact fun _ _ _ _ hslot => absurd hslot (by simp)
  · exact fun _ _ _ _ hslot => absurd hslot (by simp)
  · exact fun _ _ _ _ hslot => absurd hslot (by simp)
  · exact fun _ hcall => absurd hcall (by simp [Engine.new])

theorem listed (capacity : ℕ) (clock : ℕ → UInt64)
    (listings : List (InstrumentId × PriceGrid)) :
    EngineRep (Engine.listed capacity clock listings) (fun _ _ _ => [])
      (List.range capacity) := by
  unfold Engine.listed
  have hnew := new capacity clock
  generalize Engine.new capacity clock = engine at hnew
  induction listings generalizing engine with
  | nil => exact hnew
  | cons listing listings ih => exact ih _ (hnew.addInstrument listing)

end EngineRep

end NanoMatch
