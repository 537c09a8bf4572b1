import NanoMatch.MirroredSteps
import Mathlib.Data.Finset.Card

/-!
# Instruments do not interfere

The books share one pool, so the run of all messages and the run of the messages of
one instrument use different slots.  They mirror each other at that instrument as
long as no order is refused for want of a slot.  The shorter run cannot run out of
slots where the longer one does not: a slot which is taken carries the instrument of
its order, whether the order rests or has lost its way back, and each instrument
takes as many slots in both runs.
-/

namespace NanoMatch

open OrderBook

/-! ## Slots by instrument -/

/-- The number of slots which are not free and belong to an instrument. -/
def occupiedBy (capacity : ℕ) (free : List Slot) (owner : Slot → InstrumentId)
    (instrumentId : InstrumentId) : ℕ :=
  ((Finset.range capacity).filter fun slot => slot ∉ free ∧ owner slot = instrumentId).card

section Occupied

variable {capacity : ℕ} {free : List Slot} {owner owner' : Slot → InstrumentId}
  {instrumentId : InstrumentId} {slot : Slot}

theorem occupiedBy_congr (howner : ∀ slot, slot ∉ free → owner' slot = owner slot) :
    occupiedBy capacity free owner' instrumentId = occupiedBy capacity free owner instrumentId := by
  unfold occupiedBy
  congr 1
  apply Finset.filter_congr
  intro slot _
  apply and_congr_right
  intro hslot
  rw [howner slot hslot]

/-- A slot leaves the free list. -/
theorem occupiedBy_cons (hlt : slot < capacity) (hfresh : slot ∉ free) :
    occupiedBy capacity free owner instrumentId =
      occupiedBy capacity (slot :: free) owner instrumentId +
        if owner slot = instrumentId then 1 else 0 := by
  unfold occupiedBy
  by_cases howner : owner slot = instrumentId
  · have hinsert : ((Finset.range capacity).filter fun other =>
        other ∉ free ∧ owner other = instrumentId) =
        insert slot ((Finset.range capacity).filter fun other =>
          other ∉ slot :: free ∧ owner other = instrumentId) := by
      ext other
      simp only [Finset.mem_filter, Finset.mem_range, Finset.mem_insert, List.mem_cons, not_or]
      by_cases hsame : other = slot
      · subst hsame
        simp [hlt, hfresh, howner]
      · simp [hsame]
    rw [if_pos howner, hinsert, Finset.card_insert_of_notMem]
    simp
  · rw [if_neg howner, Nat.add_zero]
    congr 1
    apply Finset.filter_congr
    intro other _
    simp only [List.mem_cons, not_or]
    by_cases hsame : other = slot
    · subst hsame
      simp [howner]
    · simp [hsame]

theorem length_add_occupiedBy_le (hnodup : free.Nodup) (hbound : ∀ slot ∈ free, slot < capacity) :
    free.length + occupiedBy capacity free owner instrumentId ≤ capacity := by
  have hdisjoint : Disjoint free.toFinset ((Finset.range capacity).filter fun slot =>
      slot ∉ free ∧ owner slot = instrumentId) := by
    rw [Finset.disjoint_left]
    intro slot hslot hother
    exact (Finset.mem_filter.mp hother).2.1 (List.mem_toFinset.mp hslot)
  have hsubset : free.toFinset ∪ ((Finset.range capacity).filter fun slot =>
      slot ∉ free ∧ owner slot = instrumentId) ⊆ Finset.range capacity := by
    intro slot hslot
    rcases Finset.mem_union.mp hslot with hfree | htaken
    · exact Finset.mem_range.mpr (hbound slot (List.mem_toFinset.mp hfree))
    · exact (Finset.mem_filter.mp htaken).1
  have hcard := Finset.card_le_card hsubset
  rw [Finset.card_union_of_disjoint hdisjoint, List.toFinset_card_of_nodup hnodup,
    Finset.card_range] at hcard
  exact hcard

end Occupied

def Snapshot.occupied (s : Snapshot) (instrumentId : InstrumentId) : ℕ :=
  occupiedBy s.engine.pool.capacity s.free (fun slot => (s.slab slot).instrumentId) instrumentId

/-- All slots taken or given back belong to one instrument. -/
structure TakesOwn (instrumentId : InstrumentId) (s s' : Snapshot) : Prop where
  own : s'.free.length + s'.occupied instrumentId = s.free.length + s.occupied instrumentId
  others : ∀ other, other ≠ instrumentId → s'.occupied other = s.occupied other

namespace TakesOwn

variable {instrumentId : InstrumentId} {s s' s'' : Snapshot} {msg : InboundOrderMsg}
  {slot agg maker : Slot} {level : ℕ} {behind : List Slot}

theorem refl (instrumentId : InstrumentId) (s : Snapshot) : TakesOwn instrumentId s s :=
  ⟨rfl, fun _ _ => rfl⟩

theorem trans (hfirst : TakesOwn instrumentId s s') (hsecond : TakesOwn instrumentId s' s'') :
    TakesOwn instrumentId s s'' :=
  ⟨hsecond.own.trans hfirst.own,
    fun other hne => (hsecond.others other hne).trans (hfirst.others other hne)⟩

theorem owner_eq (hterms : (s'.slab slot).terms = (s.slab slot).terms) :
    (s'.slab slot).instrumentId = (s.slab slot).instrumentId :=
  congrArg Order.Terms.instrumentId hterms

theorem of_same (hcapacity : s'.engine.pool.capacity = s.engine.pool.capacity)
    (hfree : s'.free = s.free) (hterms : ∀ slot, (s'.slab slot).terms = (s.slab slot).terms) :
    TakesOwn instrumentId s s' := by
  have hoccupied : ∀ other, s'.occupied other = s.occupied other := by
    intro other
    unfold Snapshot.occupied
    rw [hcapacity, hfree]
    exact occupiedBy_congr (fun slot _ => owner_eq (hterms slot))
  refine ⟨?_, fun other _ => hoccupied other⟩
  rw [hfree, hoccupied]

/-- A slot of the instrument goes back to the free list. -/
theorem given (hcapacity : s'.engine.pool.capacity = s.engine.pool.capacity)
    (hfree : s'.free = slot :: s.free) (hlt : slot < s.engine.pool.capacity)
    (hfresh : slot ∉ s.free) (howner : (s.slab slot).instrumentId = instrumentId)
    (hterms : ∀ other, (s'.slab other).terms = (s.slab other).terms) :
    TakesOwn instrumentId s s' := by
  have hoccupied : ∀ other, s.occupied other =
      s'.occupied other + if instrumentId = other then 1 else 0 := by
    intro other
    unfold Snapshot.occupied
    rw [hcapacity, hfree, occupiedBy_cons hlt hfresh, howner]
    congr 1
    exact (occupiedBy_congr (fun slot _ => owner_eq (hterms slot))).symm
  constructor
  · rw [hoccupied instrumentId, if_pos rfl, hfree, List.length_cons]
    omega
  · intro other hne
    rw [hoccupied other, if_neg hne.symm, Nat.add_zero]

theorem admitted (hadmitted : Admitted msg slot s s') : TakesOwn msg.instrumentId s s' := by
  have howner : (s'.slab slot).instrumentId = msg.instrumentId := by
    rw [hadmitted.order]
    rfl
  have hoccupied : ∀ other, s'.occupied other =
      s.occupied other + if msg.instrumentId = other then 1 else 0 := by
    intro other
    unfold Snapshot.occupied
    rw [occupiedBy_cons hadmitted.loose.bound hadmitted.loose.notFree, howner,
      hadmitted.capacity_eq, hadmitted.free_eq]
    congr 1
    apply occupiedBy_congr
    intro other hother
    rw [hadmitted.others other (fun heq => hother (heq ▸ List.mem_cons_self))]
  constructor
  · rw [hoccupied, if_pos rfl, hadmitted.free_eq, List.length_cons]
    omega
  · intro other hne
    rw [hoccupied, if_neg hne.symm, Nat.add_zero]

theorem posted {reports : List ExecutionReport} {count : ℕ}
    (hposted : Posted reports count s s') : TakesOwn instrumentId s s' := by
  apply of_same (by rw [hposted.pool_eq]) hposted.free_eq
  intro slot
  unfold Snapshot.slab Engine.slab
  rw [hposted.pool_eq]

theorem released (hreleased : Released slot s s')
    (howner : (s.slab slot).instrumentId = instrumentId) : TakesOwn instrumentId s s' :=
  given hreleased.capacity_eq hreleased.free_eq hreleased.loose.bound hreleased.loose.notFree
    howner hreleased.terms

theorem traded (htraded : Traded instrumentId agg maker level behind s s') :
    TakesOwn instrumentId s s' := by
  have hfree := htraded.free'
  split_ifs at hfree with hdone
  · exact given htraded.capacity hfree (s.rep.bound _ _ _ _ htraded.maker_mem)
      (s.rep.separate _ _ _ _ htraded.maker_mem) (s.rep.owned _ _ _ _ htraded.maker_mem)
      htraded.terms
  · exact of_same htraded.capacity hfree htraded.terms

theorem swept {priceOk : Price → Bool} (hswept : Swept instrumentId agg priceOk s s') :
    TakesOwn instrumentId s s' := by
  apply hswept.induction (TakesOwn instrumentId s) (refl instrumentId s)
  intro t t' maker level behind htraded _ ih
  exact ih.trans (traded htraded)

theorem ends {grid : PriceGrid} {fate : Fate} (hends : Ends msg grid slot s s' fate)
    (howner : (s.slab slot).instrumentId = msg.instrumentId) :
    TakesOwn msg.instrumentId s s' := by
  cases fate with
  | released => exact released hends howner
  | acked =>
      rcases hends with ⟨s₁, _, hposted, hreleased⟩
      apply (posted hposted).trans (released hreleased _)
      unfold Snapshot.slab Engine.slab at howner ⊢
      rw [hposted.pool_eq]
      exact howner
  | rested =>
      have hrested : Rested _ _ _ s s' := hends
      exact of_same hrested.capacity_eq hrested.free_eq hrested.terms
  | lost =>
      rw [show s' = s from hends]
      exact refl _ s

theorem newOrder (hstep : NewOrderStep msg s s') : TakesOwn msg.instrumentId s s' := by
  rcases hstep.phases with ⟨_, _, hposted⟩ | ⟨slot, book, s₁, _, hadmitted, hphases⟩
  · exact posted hposted
  · have howner : (s₁.slab slot).instrumentId = msg.instrumentId := by
      rw [hadmitted.order]
      rfl
    rcases hphases with ⟨_, s₂, _, hposted, hreleased⟩ | ⟨_, s₂, hswept, hends⟩
    · apply ((admitted hadmitted).trans (posted hposted)).trans (released hreleased _)
      unfold Snapshot.slab Engine.slab at howner ⊢
      rw [hposted.pool_eq]
      exact howner
    · apply ((admitted hadmitted).trans (swept hswept)).trans (ends hends _)
      rw [owner_eq (hswept.terms slot)]
      exact howner

theorem cancel (hstep : CancelStep msg s s') : TakesOwn msg.instrumentId s s' := by
  cases hstep with
  | ignored hsame =>
      rw [hsame]
      exact refl _ s
  | cancelled slot book side level before after s₁ s₂ _ _ _ _ hremoved hposted hreleased =>
      have hkept : TakesOwn msg.instrumentId s s₁ :=
        of_same hremoved.capacity_eq hremoved.free_eq hremoved.terms
      apply (hkept.trans (posted hposted)).trans (released hreleased _)
      have hslab : s₂.slab = s₁.slab := by
        unfold Snapshot.slab Engine.slab
        rw [hposted.pool_eq]
      rw [hslab, owner_eq (hremoved.terms slot)]
      exact s.rep.owned _ _ _ _ hremoved.slot_mem

/-- A message takes and gives back slots of its own instrument. -/
theorem message (hstep : MessageStep msg s s') : TakesOwn msg.instrumentId s s' := by
  cases hstep with
  | newOrder s₁ _ hstep hcounted => exact (newOrder hstep).trans (posted hcounted)
  | cancel s₁ _ hstep hcounted => exact (cancel hstep).trans (posted hcounted)
  | ignored _ _ hcounted => exact posted hcounted

end TakesOwn

/-! ## Runs -/

namespace Engine

/-- The message is a new order which needs a slot when there is none. -/
def exhausts (engine : Engine) (msg : InboundOrderMsg) : Bool :=
  decide (msg.kind = .newOrder) && (engine.books msg.instrumentId).isSome &&
    engine.pool.acquire.isNone

/-- No order of the run is refused for want of a slot. -/
def neverExhausts : Engine → List InboundOrderMsg → Bool
  | _, [] => true
  | engine, msg :: msgs => !engine.exhausts msg && (engine.submit msg).neverExhausts msgs

/-- The messages of a run, each with the reports it posts, timestamps aside. -/
def posted : Engine → List InboundOrderMsg → List (InboundOrderMsg × List Execution)
  | _, [] => []
  | engine, msg :: msgs =>
      (msg, ((engine.submit msg).outbound.drop engine.outbound.length).map ExecutionReport.view) ::
        (engine.submit msg).posted msgs

end Engine

/-- The messages for one instrument. -/
def InboundOrderMsg.isFor (instrumentId : InstrumentId) (msg : InboundOrderMsg) : Bool :=
  decide (msg.instrumentId = instrumentId)

/-- A run of all messages and a run of the messages of one instrument. -/
structure Isolated (instrumentId : InstrumentId) (s t : Snapshot) : Prop where
  mirrors : Mirrors instrumentId s t
  occupied : s.occupied instrumentId = t.occupied instrumentId
  capacity : s.engine.pool.capacity = t.engine.pool.capacity
  own : t.free.length + t.occupied instrumentId = t.engine.pool.capacity

namespace Isolated

variable {instrumentId : InstrumentId} {s t s' t' : Snapshot} {msg : InboundOrderMsg}

/-- The shorter run has at least as many slots left. -/
theorem free_le (hisolated : Isolated instrumentId s t) : s.free.length ≤ t.free.length := by
  have hle : s.free.length + s.occupied instrumentId ≤ s.engine.pool.capacity :=
    length_add_occupiedBy_le s.rep.freeList.nodup s.rep.freeList.bound
  have hoccupied := hisolated.occupied
  have hcapacity := hisolated.capacity
  have hown := hisolated.own
  omega

theorem other (hisolated : Isolated instrumentId s t) (hstep : MessageStep msg s s')
    (hne : msg.instrumentId ≠ instrumentId) : Isolated instrumentId s' t where
  mirrors := (hstep.mirrors_other hne.symm).symm.trans hisolated.mirrors
  occupied := ((TakesOwn.message hstep).others _ hne.symm).trans hisolated.occupied
  capacity := (SameLayout.message hstep).capacity.trans hisolated.capacity
  own := hisolated.own

theorem inStep (hisolated : Isolated msg.instrumentId s t) (hs : MessageStep msg s s')
    (ht : MessageStep msg t t') (hslots : s.engine.exhausts msg = false) :
    InStep msg.instrumentId s t s' t' := by
  apply hs.inStep ht hisolated.mirrors
  intro hkind hlisted
  have hfree : s.free ≠ [] := by
    intro hnil
    have hexhausted := s.rep.freeList.acquire_eq_none_iff.mpr hnil
    simp [Engine.exhausts, hkind, hexhausted] at hslots
    exact hlisted hslots
  have hle := hisolated.free_le
  have hpos := List.length_pos_iff.mpr hfree
  have hfree' : t.free ≠ [] := List.length_pos_iff.mp (by omega)
  simp [hfree, hfree']

theorem both (hisolated : Isolated msg.instrumentId s t) (hs : MessageStep msg s s')
    (ht : MessageStep msg t t') (hslots : s.engine.exhausts msg = false) :
    Isolated msg.instrumentId s' t' := by
  have hstep := hisolated.inStep hs ht hslots
  have hown := (TakesOwn.message hs).own
  have hown' := (TakesOwn.message ht).own
  have hfree := hstep.free
  have hoccupied := hisolated.occupied
  have hall := hisolated.own
  have hcapacity := (SameLayout.message hs).capacity
  have hcapacity' := (SameLayout.message ht).capacity
  have hsame := hisolated.capacity
  refine ⟨hstep.mirrors, ?_, ?_, ?_⟩ <;> omega

/-- The two runs post the same reports for the instrument and end with the same book. -/
theorem run (hisolated : Isolated instrumentId s t) (msgs : List InboundOrderMsg)
    (hslots : s.engine.neverExhausts msgs = true) :
    (s.engine.posted msgs).filter (fun entry => entry.1.isFor instrumentId) =
        t.engine.posted (msgs.filter fun msg => msg.isFor instrumentId) ∧
      (s.engine.runMessages msgs).contents instrumentId =
        (t.engine.runMessages (msgs.filter fun msg => msg.isFor instrumentId)).contents
          instrumentId := by
  induction msgs generalizing s t with
  | nil => exact ⟨rfl, hisolated.mirrors.contents_eq.symm⟩
  | cons msg msgs ih =>
      simp only [Engine.neverExhausts, Bool.and_eq_true, Bool.not_eq_true'] at hslots
      rcases s.submit_step msg with ⟨s', hengine, hs⟩
      rw [← hengine] at hslots
      by_cases hfor : msg.instrumentId = instrumentId
      · subst hfor
        have hpick : msg.isFor msg.instrumentId = true := decide_eq_true rfl
        rcases t.submit_step msg with ⟨t', hengine', ht⟩
        have hreports := (hisolated.inStep hs ht hslots.1).posted_eq
        rcases ih (hisolated.both hs ht hslots.1) hslots.2 with ⟨hposted, hcontents⟩
        rw [hengine, hengine'] at hreports hposted hcontents
        constructor
        · rw [List.filter_cons_of_pos hpick]
          simp only [Engine.posted, List.filter_cons, hpick, if_true]
          rw [hposted, hreports]
        · rw [List.filter_cons_of_pos hpick]
          exact hcontents
      · have hskip : ¬ msg.isFor instrumentId = true := by
          simpa [InboundOrderMsg.isFor] using hfor
        rcases ih (hisolated.other hs hfor) hslots.2 with ⟨hposted, hcontents⟩
        rw [hengine] at hposted hcontents
        constructor
        · rw [List.filter_cons_of_neg hskip]
          simp only [Engine.posted, List.filter_cons, hskip, if_false, Bool.false_eq_true]
          exact hposted
        · rw [List.filter_cons_of_neg hskip]
          exact hcontents

end Isolated

/-! ## Fresh engines -/

theorem Engine.listed_books_clock (capacity : ℕ) (clock clock' : ℕ → UInt64)
    (listings : List (InstrumentId × PriceGrid)) :
    (Engine.listed capacity clock' listings).books =
      (Engine.listed capacity clock listings).books := by
  have hfold : ∀ engine engine' : Engine, engine'.books = engine.books →
      (listings.foldl Engine.addInstrument engine').books =
        (listings.foldl Engine.addInstrument engine).books := by
    induction listings with
    | nil => exact fun _ _ hbooks => hbooks
    | cons listing listings ih =>
        intro engine engine' hbooks
        apply ih
        unfold Engine.addInstrument
        rw [hbooks]
        cases engine.books listing.1 with
        | none => rfl
        | some book => exact hbooks
  exact hfold _ _ rfl

section Fresh

variable {capacity : ℕ} {clock clock' : ℕ → UInt64} {listings : List (InstrumentId × PriceGrid)}
  {s t : Snapshot}

theorem Initial.mirrors (hs : Initial listings capacity clock s)
    (ht : Initial listings capacity clock' t) (instrumentId : InstrumentId) :
    Mirrors instrumentId s t := by
  apply Mirrors.of_same
  · rw [hs.engine_eq, ht.engine_eq, Engine.listed_books_clock]
  · rw [hs.queues_eq, ht.queues_eq]
  · intro side i slot hslot
    rw [hs.queues_eq] at hslot
    exact absurd hslot (by simp)
  · intro side i slot hslot
    rw [hs.queues_eq] at hslot
    exact absurd hslot (by simp)

theorem Initial.occupied_eq (hs : Initial listings capacity clock s)
    (instrumentId : InstrumentId) : s.occupied instrumentId = 0 := by
  unfold Snapshot.occupied occupiedBy
  rw [hs.free_eq, hs.capacity_eq, Finset.card_eq_zero, Finset.filter_eq_empty_iff]
  intro slot hslot hall
  exact hall.1 (List.mem_range.mpr (Finset.mem_range.mp hslot))

theorem Initial.isolated (hs : Initial listings capacity clock s)
    (ht : Initial listings capacity clock' t) (instrumentId : InstrumentId) :
    Isolated instrumentId s t where
  mirrors := hs.mirrors ht instrumentId
  occupied := by rw [hs.occupied_eq, ht.occupied_eq]
  capacity := by rw [hs.capacity_eq, ht.capacity_eq]
  own := by rw [ht.occupied_eq, ht.free_eq, List.length_range, ht.capacity_eq, Nat.add_zero]

end Fresh

theorem isolated_run (capacity : ℕ) (clock clock' : ℕ → UInt64)
    (listings : List (InstrumentId × PriceGrid)) (msgs : List InboundOrderMsg)
    (hslots : (Engine.listed capacity clock listings).neverExhausts msgs = true)
    (instrumentId : InstrumentId) :
    ((Engine.listed capacity clock listings).posted msgs).filter
          (fun entry => entry.1.isFor instrumentId) =
        (Engine.listed capacity clock' listings).posted
          (msgs.filter fun msg => msg.isFor instrumentId) ∧
      ((Engine.listed capacity clock listings).runMessages msgs).contents instrumentId =
        ((Engine.listed capacity clock' listings).runMessages
          (msgs.filter fun msg => msg.isFor instrumentId)).contents instrumentId := by
  rcases Snapshot.exists_initial capacity clock listings with ⟨s, hs⟩
  rcases Snapshot.exists_initial capacity clock' listings with ⟨t, ht⟩
  rw [← hs.engine_eq] at hslots ⊢
  rw [← ht.engine_eq]
  exact (hs.isolated ht instrumentId).run msgs hslots

/-! ## Two adjacent messages -/

theorem Engine.posted_fst (engine : Engine) (msgs : List InboundOrderMsg) :
    (engine.posted msgs).map Prod.fst = msgs := by
  induction msgs generalizing engine with
  | nil => rfl
  | cons msg msgs ih =>
      rw [Engine.posted, List.map_cons, ih]

section Entries

variable {reports reports' : List (InboundOrderMsg × List Execution)}

/-- The reports of a run are known from the reports for each instrument. -/
theorem eq_of_isFor_eq (hmsgs : reports.map Prod.fst = reports'.map Prod.fst)
    (hsame : ∀ instrumentId, reports.filter (fun entry => entry.1.isFor instrumentId) =
      reports'.filter fun entry => entry.1.isFor instrumentId) : reports = reports' := by
  induction reports generalizing reports' with
  | nil => exact (List.map_eq_nil_iff.mp hmsgs.symm).symm
  | cons entry reports ih =>
      cases reports' with
      | nil => exact absurd hmsgs (by simp)
      | cons entry' reports' =>
          simp only [List.map_cons, List.cons.injEq] at hmsgs
          have hhead : entry = entry' := by
            have hown := hsame entry.1.instrumentId
            simp only [List.filter_cons, InboundOrderMsg.isFor, ← hmsgs.1, decide_true,
              if_true, List.cons.injEq] at hown
            exact hown.1
          subst hhead
          rw [ih hmsgs.2 ?_]
          intro instrumentId
          have hall := hsame instrumentId
          rw [List.filter_cons, List.filter_cons] at hall
          split at hall
          · exact (List.cons.inj hall).2
          · exact hall

end Entries

/-- Two neighbours can change places where only one of them is picked. -/
theorem filter_swap {α : Type*} {pick : α → Bool} {a b : α} (hone : pick a = true → pick b = false)
    (before after : List α) :
    (before ++ a :: b :: after).filter pick = (before ++ b :: a :: after).filter pick := by
  rw [List.filter_append, List.filter_append]
  cases ha : pick a with
  | true => simp [ha, hone ha]
  | false => simp [List.filter_cons, ha]

theorem InboundOrderMsg.isFor_other {a b : InboundOrderMsg} (hne : a.instrumentId ≠ b.instrumentId)
    (instrumentId : InstrumentId) (hfor : a.isFor instrumentId = true) :
    b.isFor instrumentId = false := by
  have ha : a.instrumentId = instrumentId := of_decide_eq_true hfor
  exact decide_eq_false fun hb => hne (ha.trans hb.symm)

section Adjacent

variable {capacity : ℕ} {clock clock' : ℕ → UInt64} {listings : List (InstrumentId × PriceGrid)}
  {before after : List InboundOrderMsg} {a b : InboundOrderMsg}

theorem swap_contents (hne : a.instrumentId ≠ b.instrumentId)
    (hslots : (Engine.listed capacity clock listings).neverExhausts
      (before ++ a :: b :: after) = true)
    (hslots' : (Engine.listed capacity clock' listings).neverExhausts
      (before ++ b :: a :: after) = true) (instrumentId : InstrumentId) :
    ((Engine.listed capacity clock listings).runMessages
          (before ++ a :: b :: after)).contents instrumentId =
      ((Engine.listed capacity clock' listings).runMessages
          (before ++ b :: a :: after)).contents instrumentId := by
  rw [(isolated_run capacity clock clock _ _ hslots instrumentId).2,
    (isolated_run capacity clock' clock _ _ hslots' instrumentId).2,
    filter_swap (InboundOrderMsg.isFor_other hne instrumentId)]

/-- The two messages change places, each with its reports. -/
theorem swap_posted (hne : a.instrumentId ≠ b.instrumentId)
    (hslots : (Engine.listed capacity clock listings).neverExhausts
      (before ++ a :: b :: after) = true)
    (hslots' : (Engine.listed capacity clock' listings).neverExhausts
      (before ++ b :: a :: after) = true) :
    ∃ head tail first second,
      (Engine.listed capacity clock listings).posted (before ++ a :: b :: after) =
          head ++ (a, first) :: (b, second) :: tail ∧
        (Engine.listed capacity clock' listings).posted (before ++ b :: a :: after) =
          head ++ (b, second) :: (a, first) :: tail := by
  have hmsgs := (Engine.listed capacity clock' listings).posted_fst (before ++ b :: a :: after)
  rcases List.map_eq_append_iff.mp hmsgs with ⟨head, rest, hreports, hhead, hrest⟩
  rcases List.map_eq_cons_iff.mp hrest with ⟨second, rest, rfl, hb, hrest⟩
  rcases List.map_eq_cons_iff.mp hrest with ⟨first, tail, rfl, ha, htail⟩
  subst ha hb
  refine ⟨head, tail, first.2, second.2, ?_, hreports⟩
  apply eq_of_isFor_eq
  · rw [Engine.posted_fst, ← hhead, ← htail]
    simp
  · intro instrumentId
    have hone := InboundOrderMsg.isFor_other hne instrumentId
    rw [(isolated_run capacity clock clock _ _ hslots instrumentId).1, filter_swap hone,
      ← (isolated_run capacity clock' clock _ _ hslots' instrumentId).1, hreports]
    symm
    apply filter_swap
    exact hone

end Adjacent

/-- The reports of the messages for an instrument and the book of the instrument are
those of the run of these messages alone, and two neighbours for different
instruments can change places. -/
theorem run_isolated (capacity : ℕ) (clock clock' : ℕ → UInt64)
    (listings : List (InstrumentId × PriceGrid)) :
    (∀ msgs, (Engine.listed capacity clock listings).neverExhausts msgs = true →
      ∀ instrumentId,
        ((Engine.listed capacity clock listings).posted msgs).filter
              (fun entry => entry.1.isFor instrumentId) =
            (Engine.listed capacity clock' listings).posted
              (msgs.filter fun msg => msg.isFor instrumentId) ∧
          ((Engine.listed capacity clock listings).runMessages msgs).contents instrumentId =
            ((Engine.listed capacity clock' listings).runMessages
              (msgs.filter fun msg => msg.isFor instrumentId)).contents instrumentId) ∧
      ∀ before after a b, a.instrumentId ≠ b.instrumentId →
        (Engine.listed capacity clock listings).neverExhausts (before ++ a :: b :: after) = true →
        (Engine.listed capacity clock' listings).neverExhausts (before ++ b :: a :: after) = true →
        (∀ instrumentId,
          ((Engine.listed capacity clock listings).runMessages
                (before ++ a :: b :: after)).contents instrumentId =
            ((Engine.listed capacity clock' listings).runMessages
                (before ++ b :: a :: after)).contents instrumentId) ∧
          ∃ head tail first second,
            (Engine.listed capacity clock listings).posted (before ++ a :: b :: after) =
                head ++ (a, first) :: (b, second) :: tail ∧
              (Engine.listed capacity clock' listings).posted (before ++ b :: a :: after) =
                head ++ (b, second) :: (a, first) :: tail := by
  refine ⟨isolated_run capacity clock clock' listings, ?_⟩
  intro before after a b hne hslots hslots'
  exact ⟨swap_contents hne hslots hslots', swap_posted hne hslots hslots'⟩

/-- An ask for one instrument, a bid for another, and a bid which trades with the ask. -/
def sampleInterleaving : List InboundOrderMsg :=
  [sampleOrder 1 0 1 104 5, { sampleOrder 0 0 1 103 7 with instrumentId := 1 },
    sampleOrder 0 0 2 105 3]

theorem run_isolated_sampleInterleaving :
    let engine := Engine.listed 4 (fun _ => 0) [(0, sampleGrid), (1, sampleGrid)]
    engine.neverExhausts sampleInterleaving = true ∧
      (engine.posted sampleInterleaving).filter (fun entry => entry.1.isFor 0) =
        engine.posted [sampleOrder 1 0 1 104 5, sampleOrder 0 0 2 105 3] ∧
      (engine.runMessages sampleInterleaving).contents 1 =
        (engine.runMessages
          [sampleOrder 1 0 1 104 5, sampleOrder 0 0 2 105 3,
            { sampleOrder 0 0 1 103 7 with instrumentId := 1 }]).contents 1 := by
  intro engine
  have hslots : engine.neverExhausts sampleInterleaving = true := by decide
  have hslots' : engine.neverExhausts
      [sampleOrder 1 0 1 104 5, sampleOrder 0 0 2 105 3,
        { sampleOrder 0 0 1 103 7 with instrumentId := 1 }] = true := by decide
  have hrun := run_isolated 4 (fun _ => 0) (fun _ => 0) [(0, sampleGrid), (1, sampleGrid)]
  refine ⟨hslots, (hrun.1 _ hslots 0).1, ?_⟩
  exact (hrun.2 [sampleOrder 1 0 1 104 5] [] _ _ (by decide) hslots hslots').1 1

end NanoMatch
