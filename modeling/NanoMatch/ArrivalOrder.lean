import NanoMatch.EngineWrites
import NanoMatch.OrderOutcome

/-!
# Arrival order and timestamps

An order is stamped when it is admitted and carries its ticket, the fields which only the
admission writes, to its removal.  Every level queue lists the tickets of its orders in
the order of their arrival since the last reset, so with a clock which does not run
backwards the queues and the report stream are ordered by their timestamps.
-/

namespace NanoMatch

open OrderBook

/-! ## Tickets -/

/-- The order without the fields which the book writes after the admission. -/
def Order.ticket (order : Order) : Order :=
  { order with quantity := 0, status := .new, next := none, prev := none }

theorem Order.eq_of_ticket {order order' : Order} (hticket : order.ticket = order'.ticket) :
    order.type = order'.type ∧ order.origQuantity = order'.origQuantity := by
  have htype := congrArg Order.type hticket
  have horiginal := congrArg Order.origQuantity hticket
  exact ⟨htype, horiginal⟩

namespace Slab

variable (slab : Slab) (slot other : Slot) (link : Option Slot)

@[simp] theorem ticket_setNext :
    (slab.setNext slot link other).ticket = (slab other).ticket := by
  by_cases hnode : other = slot <;> simp [setNext, Order.ticket, Function.update, hnode]

@[simp] theorem ticket_setPrev :
    (slab.setPrev slot link other).ticket = (slab other).ticket := by
  by_cases hnode : other = slot <;> simp [setPrev, Order.ticket, Function.update, hnode]

@[simp] theorem ticket_setQuantity (quantity : Quantity) :
    (slab.setQuantity slot quantity other).ticket = (slab other).ticket := by
  by_cases hnode : other = slot <;> simp [setQuantity, Order.ticket, Function.update, hnode]

@[simp] theorem ticket_setStatus (status : OrderStatus) :
    (slab.setStatus slot status other).ticket = (slab other).ticket := by
  by_cases hnode : other = slot <;> simp [setStatus, Order.ticket, Function.update, hnode]

end Slab

section Book

variable (slab : Slab) (book : OrderBook) (level : PriceLevel) (slot other : Slot)

@[simp] theorem ticket_linkForward (prev link : Option Slot) :
    ((linkForward slab level prev link).1 other).ticket = (slab other).ticket := by
  cases prev <;> simp [linkForward]

@[simp] theorem ticket_linkBackward (next link : Option Slot) :
    ((linkBackward slab level next link).1 other).ticket = (slab other).ticket := by
  cases next <;> simp [linkBackward]

@[simp] theorem ticket_detach (side : BookSide) (idx : ℕ) (status : OrderStatus) :
    ((detach slab book side idx level slot status).1 other).ticket = (slab other).ticket := by
  simp [detach, levelRemove]

theorem ticket_cancelOrder :
    ((cancelOrder slab book (some slot)).1 other).ticket = (slab other).ticket := by
  unfold cancelOrder
  simp only
  split_ifs
  · rfl
  · simp

theorem ticket_addOrder :
    ((addOrder slab book (some slot)).1 other).ticket = (slab other).ticket := by
  unfold addOrder
  simp only
  split_ifs
  · rfl
  · simp [levelEnqueueTail]

theorem ticket_fillRestingOrder (fillQty : Quantity) :
    ((fillRestingOrder slab book (some slot) fillQty).2.1 other).ticket =
      (slab other).ticket := by
  unfold fillRestingOrder
  simp only
  split_ifs <;> simp

end Book

namespace Engine

theorem Write.ticket {engine engine' : Engine} (hwrite : Write engine engine') (slot : Slot) :
    (engine'.slab slot).ticket = (engine.slab slot).ticket := by
  cases hwrite with
  | cancelled instrumentId book cancelled => exact ticket_cancelOrder _ book cancelled slot
  | added instrumentId book added => exact ticket_addOrder _ book added slot
  | filled instrumentId book agg rest quantity fillQty =>
      have hfilled := ticket_fillRestingOrder (engine.slab.setQuantity agg quantity) book rest
        slot fillQty
      exact hfilled.trans (Slab.ticket_setQuantity _ agg slot quantity)
  | posted => rfl
  | released released => simp [release, slab, OrderPool.release]
  | rejected => rfl

theorem Writes.ticket {engine engine' : Engine} (hwrites : Writes engine engine')
    (slot : Slot) : (engine'.slab slot).ticket = (engine.slab slot).ticket := by
  induction hwrites with
  | refl => rfl
  | tail _ hwrite ih => exact (hwrite.ticket slot).trans ih

/-- What the dispatch of a message admits. -/
def arrival (engine : Engine) (msg : InboundOrderMsg) : List Order :=
  if msg.kind = .newOrder ∧ (engine.books msg.instrumentId).isSome ∧
      engine.pool.acquire.isSome then
    [(populated msg engine.nowNs).ticket]
  else []

/-- The engine with the tickets admitted since the last reset. -/
def stepArrivals (state : Engine × List Order) : Event → Engine × List Order
  | .message msg => (state.1.submit msg, state.2 ++ state.1.arrival msg)
  | .reset => (state.1.resetState, [])

def arrivals (engine : Engine) (events : List Event) : List Order :=
  (events.foldl stepArrivals (engine, [])).2

theorem stepArrivals_run (engine : Engine) (events : List Event) :
    (events.foldl stepArrivals (engine, [])).1 = engine.run events := by
  induction events using List.reverseRecOn with
  | nil => rfl
  | append_singleton events event ih =>
      have hrun : engine.run (events ++ [event]) = (engine.run events).step event := by
        simp [run]
      rw [hrun, ← ih, List.foldl_append]
      cases event <;> rfl

theorem arrivals_message (engine : Engine) (events : List Event) (msg : InboundOrderMsg) :
    engine.arrivals (events ++ [.message msg]) =
      engine.arrivals events ++ (engine.run events).arrival msg := by
  rw [← stepArrivals_run, arrivals, List.foldl_append]
  rfl

theorem arrivals_reset (engine : Engine) (events : List Event) :
    engine.arrivals (events ++ [.reset]) = [] := by
  rw [arrivals, List.foldl_append]
  rfl

/-- An admitted order is written into the first free slot. -/
theorem ticket_admitted {engine : Engine} {msg : InboundOrderMsg} {book : OrderBook}
    {slot : Slot} {pool : OrderPool} (hkind : msg.kind = .newOrder)
    (hbook : engine.books msg.instrumentId = some book)
    (hacquire : engine.pool.acquire = some (slot, pool)) :
    ((engine.submit msg).slab slot).ticket = (populated msg engine.nowNs).ticket := by
  have hdispatch : engine.dispatch msg =
      (engine.admitOrder msg slot pool).matchOrder msg.instrumentId book slot := by
    simp only [dispatch, hkind, handleNewOrder, hbook, hacquire]
  change ((engine.dispatch msg).slab slot).ticket = _
  rw [hdispatch, (Writes.matchOrder _ _ book slot).ticket slot]
  simp [admitOrder, slab]

/-- The slots which were not free keep their tickets. -/
theorem ticket_kept (engine : Engine) (msg : InboundOrderMsg) {slot : Slot}
    (hused : engine.pool.freelistHead ≠ some slot) :
    ((engine.submit msg).slab slot).ticket = (engine.slab slot).ticket := by
  change ((engine.dispatch msg).slab slot).ticket = _
  rcases Writes.dispatch engine msg with hwrites | ⟨head, pool, hacquire, hwrites⟩
  · exact hwrites.ticket slot
  · rw [hwrites.ticket slot]
    unfold OrderPool.acquire at hacquire
    cases hhead : engine.pool.freelistHead with
    | none => simp [hhead] at hacquire
    | some first =>
        rw [hhead, Option.some.injEq, Prod.mk.injEq] at hacquire
        rcases hacquire with ⟨rfl, rfl⟩
        have hne : slot ≠ first := by
          rintro rfl
          exact hused hhead
        simp [admitOrder, slab, OrderPool.popped, hne]

end Engine

/-! ## Queues along a message -/

/-- Orders may have left the queues or traded, and nothing else happened to the queues. -/
structure Thinned (s s' : Snapshot) : Prop where
  queue : ∀ instrumentId side i,
    (s'.queues instrumentId side i).Sublist (s.queues instrumentId side i)
  remaining : ∀ instrumentId side i, ∀ slot ∈ s'.queues instrumentId side i,
    (s'.slab slot).remaining ≤ (s.slab slot).remaining

namespace Thinned

variable {s s₁ s' : Snapshot} {msg : InboundOrderMsg} {slot : Slot}

theorem refl (s : Snapshot) : Thinned s s :=
  ⟨fun _ _ _ => List.Sublist.refl _, fun _ _ _ _ _ => le_rfl⟩

theorem trans (hfirst : Thinned s s₁) (hsecond : Thinned s₁ s') : Thinned s s' where
  queue instrumentId side i :=
    (hsecond.queue instrumentId side i).trans (hfirst.queue instrumentId side i)
  remaining instrumentId side i slot hslot :=
    (hsecond.remaining instrumentId side i slot hslot).trans
      (hfirst.remaining instrumentId side i slot
        ((hsecond.queue instrumentId side i).subset hslot))

theorem of_same (hqueues : s'.queues = s.queues)
    (hquantity : ∀ instrumentId side i, ∀ slot ∈ s'.queues instrumentId side i,
      (s'.slab slot).quantity = (s.slab slot).quantity) : Thinned s s' := by
  constructor
  · intro instrumentId side i
    rw [hqueues]
  · intro instrumentId side i slot hslot
    unfold Order.remaining
    rw [hquantity instrumentId side i slot hslot]

theorem posted {reports : List ExecutionReport} {count : ℕ}
    (hposted : Posted reports count s s') : Thinned s s' := by
  apply of_same hposted.queues_eq
  intro _ _ _ slot _
  unfold Snapshot.slab Engine.slab
  rw [hposted.pool_eq]

theorem admitted (hadmitted : Admitted msg slot s s') : Thinned s s' := by
  apply of_same hadmitted.queues_eq
  intro instrumentId side i other hother
  rw [hadmitted.others other (Snapshot.ne_of_isLoose hadmitted.loose hother)]

theorem released (hreleased : Released slot s s') : Thinned s s' := by
  apply of_same hreleased.queues_eq
  intro _ _ _ other _
  exact hreleased.quantity other

theorem removed {instrumentId : InstrumentId} {side : BookSide} {level : ℕ}
    {before after : List Slot}
    (hremoved : Removed instrumentId slot side level before after s s') : Thinned s s' := by
  constructor
  · intro instrumentId' side' i
    rw [hremoved.queue_apply]
    split_ifs with hat
    · rcases hat with ⟨rfl, rfl, rfl⟩
      rw [hremoved.queue_eq]
      exact List.Sublist.append_left (List.sublist_cons_self _ _) _
    · exact List.Sublist.refl _
  · intro _ _ _ other _
    unfold Order.remaining
    rw [hremoved.quantity other]

theorem traded {instrumentId : InstrumentId} {agg maker : Slot} {level : ℕ}
    {behind : List Slot} (htraded : Traded instrumentId agg maker level behind s s') :
    Thinned s s' := by
  constructor
  · intro instrumentId' side i
    by_cases hat : instrumentId' = instrumentId ∧ side = s.makerSide agg ∧ i = level
    · rcases hat with ⟨rfl, rfl, rfl⟩
      rw [htraded.queue_level, htraded.queue_eq]
      split_ifs
      · exact List.sublist_cons_self _ _
      · exact List.Sublist.refl _
    · rw [htraded.queue_other hat]
  · intro _ _ _ slot _
    rw [htraded.remaining_eq slot]
    split_ifs
    · exact Nat.sub_le _ _
    · exact le_rfl

theorem keptByPhases (s : Snapshot) (instrumentId : InstrumentId) :
    KeptByPhases instrumentId (Thinned s) where
  posted hposted hthinned := hthinned.trans (posted hposted)
  admitted hadmitted hthinned := hthinned.trans (admitted hadmitted)
  traded htraded _ hthinned := hthinned.trans (traded htraded)
  released hreleased hthinned := hthinned.trans (released hreleased)
  removed hremoved hthinned := hthinned.trans (removed hremoved)

end Thinned

/-- A message thins the queues, and may append its own order at the end. -/
theorem MessageStep.thinned_or_rests {msg : InboundOrderMsg} {s s' : Snapshot}
    (hstep : MessageStep msg s s') :
    Thinned s s' ∨ ∃ slot book s₀ s₁ t, msg.kind = .newOrder ∧
      ComesToRest msg slot book s s₀ s₁ t ∧ Thinned s s₁ ∧ Thinned t s' := by
  have hkept := Thinned.keptByPhases s msg.instrumentId
  have hfirst := Thinned.refl s
  cases hstep with
  | newOrder t hkind hstep hcounted =>
      have hend : Thinned s t → Thinned s s' := hkept.posted hcounted
      cases hstep with
      | rested slot book s₀ s₁ hbook hadmitted hswept htype hvalid hrested =>
          have hrests : ComesToRest msg slot book s s₀ s₁ t :=
            ⟨hbook, hadmitted, hswept, htype, hvalid, hrested⟩
          exact Or.inr ⟨slot, book, s₀, s₁, t, hkind, hrests,
            hkept.swept hadmitted hswept hfirst, Thinned.posted hcounted⟩
      | refused _ _ hposted => exact Or.inl (hend (hkept.posted hposted hfirst))
      | rejected slot book s₀ s₁ _ _ hadmitted _ hposted hreleased =>
          have hposted := hkept.posted hposted (hkept.admitted hadmitted hfirst)
          exact Or.inl (hend (hkept.released hreleased hposted))
      | completed slot book s₀ s₁ _ hadmitted hswept _ hreleased =>
          have hswept := hkept.swept hadmitted hswept hfirst
          exact Or.inl (hend (hkept.released hreleased hswept))
      | acked slot book s₀ s₁ s₂ _ _ hadmitted hswept _ _ hposted hreleased =>
          have hposted := hkept.posted hposted (hkept.swept hadmitted hswept hfirst)
          exact Or.inl (hend (hkept.released hreleased hposted))
      | lost slot book s₀ _ hadmitted hswept =>
          exact Or.inl (hend (hkept.swept hadmitted hswept hfirst))
  | cancel t _ hstep hcounted =>
      exact Or.inl (hkept.posted hcounted (hkept.cancel hstep hfirst))
  | ignored _ _ hcounted => exact Or.inl (hkept.posted hcounted hfirst)

/-- The queues after a message: what is left of the queues before, then at most the order
which the message admitted. -/
structure Grown (msg : InboundOrderMsg) (rested : List Slot) (s s' : Snapshot) : Prop where
  queue : ∀ instrumentId side i,
    (s'.queues instrumentId side i).Sublist (s.queues instrumentId side i ++ rested)
  remaining : ∀ instrumentId side i, ∀ slot ∈ s'.queues instrumentId side i,
    slot ∈ s.queues instrumentId side i ∧ (s'.slab slot).remaining ≤ (s.slab slot).remaining ∨
      slot ∈ rested ∧ (s'.slab slot).remaining ≤ msg.quantity.toNat
  admitted : ∀ slot ∈ rested, msg.kind = .newOrder ∧ msg.orderType = .limit ∧
    (∃ book, s.engine.books msg.instrumentId = some book) ∧
    s.engine.pool.freelistHead = some slot
  single : rested.length ≤ 1

theorem Thinned.grown {s s' : Snapshot} (hthinned : Thinned s s') (msg : InboundOrderMsg) :
    Grown msg [] s s' where
  queue instrumentId side i := by
    rw [List.append_nil]
    exact hthinned.queue instrumentId side i
  remaining instrumentId side i slot hslot :=
    Or.inl ⟨(hthinned.queue instrumentId side i).subset hslot,
      hthinned.remaining instrumentId side i slot hslot⟩
  admitted slot hslot := absurd hslot (List.not_mem_nil)
  single := Nat.zero_le 1

theorem ComesToRest.grown {msg : InboundOrderMsg} {slot : Slot} {book : OrderBook}
    {s s₀ s₁ t s' : Snapshot} (hrests : ComesToRest msg slot book s s₀ s₁ t)
    (hkind : msg.kind = .newOrder) (hbefore : Thinned s s₁) (hafter : Thinned t s') :
    Grown msg [slot] s s' where
  queue instrumentId side i := by
    apply (hafter.queue instrumentId side i).trans
    rw [hrests.rested.queue_apply]
    split_ifs with hat
    · rcases hat with ⟨rfl, rfl, rfl⟩
      exact (hbefore.queue _ _ _).append_right [slot]
    · exact (hbefore.queue _ _ _).trans (List.sublist_append_left _ _)
  remaining instrumentId side i other hother := by
    have hremaining : (s'.slab other).remaining ≤ (s₁.slab other).remaining := by
      have hle := hafter.remaining instrumentId side i other hother
      unfold Order.remaining at hle ⊢
      rwa [hrests.rested.quantity other] at hle
    have hmem := (hafter.queue instrumentId side i).subset hother
    rcases hrests.rested.mem_cases hmem with hold | ⟨rfl, _⟩
    · have hle := hbefore.remaining instrumentId side i other hold
      exact Or.inl ⟨(hbefore.queue instrumentId side i).subset hold, hremaining.trans hle⟩
    · have hresidual := hrests.admitted.residual_eq hrests.listed hrests.swept
      refine Or.inr ⟨List.mem_singleton_self _, hremaining.trans ?_⟩
      rw [hresidual]
      exact Nat.sub_le _ _
  admitted other hother := by
    rw [List.mem_singleton] at hother
    subst hother
    exact ⟨hkind, hrests.limit, ⟨book, hrests.listed⟩, hrests.admitted.freelistHead_eq⟩
  single := le_rfl

theorem MessageStep.exists_grown {msg : InboundOrderMsg} {s s' : Snapshot}
    (hstep : MessageStep msg s s') : ∃ rested, Grown msg rested s s' := by
  rcases hstep.thinned_or_rests with hthinned | ⟨slot, book, s₀, s₁, t, hkind, hrests,
    hbefore, hafter⟩
  · exact ⟨[], hthinned.grown msg⟩
  · exact ⟨[slot], hrests.grown hkind hbefore hafter⟩

/-! ## Runs -/

/-- Every level queue holds orders in the order of their arrival, each a limit order with a
part of its quantity left. -/
structure InArrivalOrder (arrivals : List Order) (engine : Engine) : Prop where
  queue : ∀ instrumentId side i,
    ((engine.queue instrumentId side i).map fun slot => (engine.slab slot).ticket).Sublist
      arrivals
  resting : ∀ instrumentId side i, ∀ slot ∈ engine.queue instrumentId side i,
    (engine.slab slot).type = .limit ∧ 0 < (engine.slab slot).remaining ∧
      (engine.slab slot).remaining ≤ (engine.slab slot).origQuantity.toNat

section Message

variable {msg : InboundOrderMsg} {s s' : Snapshot} {rested : List Slot}

/-- A queued slot is not the next one to be handed out. -/
theorem Snapshot.freelistHead_ne (s : Snapshot) {instrumentId : InstrumentId} {side : BookSide}
    {i : ℕ} {slot : Slot} (hslot : slot ∈ s.queues instrumentId side i) :
    s.engine.pool.freelistHead ≠ some slot := by
  intro hhead
  rw [s.freelistHead_eq] at hhead
  exact s.rep.separate _ _ _ _ hslot (List.mem_of_head? hhead)

theorem Snapshot.ticket_queued (hengine : s'.engine = s.engine.submit msg)
    {instrumentId : InstrumentId} {side : BookSide} {i : ℕ} {slot : Slot}
    (hslot : slot ∈ s.queues instrumentId side i) :
    (s'.slab slot).ticket = (s.slab slot).ticket := by
  unfold Snapshot.slab
  rw [hengine]
  exact Engine.ticket_kept s.engine msg (s.freelistHead_ne hslot)

theorem Grown.ticket_rested (hgrown : Grown msg rested s s')
    (hengine : s'.engine = s.engine.submit msg) {slot : Slot} (hslot : slot ∈ rested) :
    (s'.slab slot).ticket = (Engine.populated msg s.engine.nowNs).ticket := by
  rcases hgrown.admitted slot hslot with ⟨hkind, _, ⟨book, hbook⟩, hhead⟩
  have hacquire : s.engine.pool.acquire = some (slot, s.engine.pool.popped slot) := by
    rw [OrderPool.acquire, hhead]
  unfold Snapshot.slab
  rw [hengine]
  exact Engine.ticket_admitted hkind hbook hacquire

theorem Grown.arrival_eq (hgrown : Grown msg rested s s') (hrested : rested ≠ []) :
    s.engine.arrival msg = [(Engine.populated msg s.engine.nowNs).ticket] := by
  rcases List.exists_mem_of_ne_nil rested hrested with ⟨slot, hslot⟩
  rcases hgrown.admitted slot hslot with ⟨hkind, _, ⟨book, hbook⟩, hhead⟩
  simp [Engine.arrival, hkind, hbook, OrderPool.acquire, hhead]

/-- The tickets of the rested order are those of the arrival. -/
theorem Grown.tickets (hgrown : Grown msg rested s s')
    (hengine : s'.engine = s.engine.submit msg) :
    (rested.map fun slot => (s'.slab slot).ticket).Sublist (s.engine.arrival msg) := by
  by_cases hempty : rested = []
  · rw [hempty]
    exact List.nil_sublist _
  · rcases List.length_eq_one_iff.mp (le_antisymm hgrown.single
      (List.length_pos_iff.mpr hempty)) with ⟨slot, rfl⟩
    rw [hgrown.arrival_eq hempty]
    simp only [List.map_cons, List.map_nil,
      hgrown.ticket_rested hengine (List.mem_singleton_self slot)]
    exact List.Sublist.refl _

theorem InArrivalOrder.message {arrivals : List Order}
    (horder : InArrivalOrder arrivals s.engine) (hengine : s'.engine = s.engine.submit msg)
    (hstep : MessageStep msg s s') :
    InArrivalOrder (arrivals ++ s.engine.arrival msg) s'.engine := by
  rcases hstep.exists_grown with ⟨rested, hgrown⟩
  constructor
  · intro instrumentId side i
    have hqueue := horder.queue instrumentId side i
    rw [s.rep.queue_eq] at hqueue
    rw [s'.rep.queue_eq]
    have hkept : ((s.queues instrumentId side i).map fun slot => (s'.slab slot).ticket) =
        (s.queues instrumentId side i).map fun slot => (s.slab slot).ticket := by
      apply List.map_congr_left
      intro slot hslot
      exact Snapshot.ticket_queued hengine hslot
    have hgrow := (hgrown.queue instrumentId side i).map fun slot => (s'.slab slot).ticket
    rw [List.map_append, hkept] at hgrow
    exact hgrow.trans (hqueue.append (hgrown.tickets hengine))
  · intro instrumentId side i slot hslot
    rw [s'.rep.queue_eq] at hslot
    rcases s'.rep.listed_of_mem hslot with ⟨book, hbook⟩
    have hpos := (s'.rep.bookRep _ book hbook).positive _ _ slot hslot
    rcases hgrown.remaining instrumentId side i slot hslot with ⟨hold, hle⟩ | ⟨hnew, hle⟩
    · rcases Order.eq_of_ticket (Snapshot.ticket_queued hengine hold) with
        ⟨htypes, horiginals⟩
      rw [← s.rep.queue_eq] at hold
      rcases horder.resting instrumentId side i slot hold with ⟨htype, _, hmost⟩
      refine ⟨htypes.trans htype, hpos, ?_⟩
      change _ ≤ (s'.slab slot).origQuantity.toNat
      rw [horiginals]
      exact hle.trans hmost
    · rcases Order.eq_of_ticket (hgrown.ticket_rested hengine hnew) with
        ⟨htypes, horiginals⟩
      refine ⟨htypes.trans (hgrown.admitted slot hnew).2.1, hpos, ?_⟩
      change _ ≤ (s'.slab slot).origQuantity.toNat
      rw [horiginals]
      exact hle

theorem InArrivalOrder.of_empty {arrivals : List Order} (hqueues : s.queues = fun _ _ _ => []) :
    InArrivalOrder arrivals s.engine := by
  constructor
  · intro instrumentId side i
    rw [s.rep.queue_eq, hqueues]
    exact List.nil_sublist _
  · intro instrumentId side i slot hslot
    rw [s.rep.queue_eq, hqueues] at hslot
    exact absurd hslot List.not_mem_nil

end Message

section Runs

variable (capacity : ℕ) (clock : ℕ → UInt64) (listings : List (InstrumentId × PriceGrid))

theorem exists_inArrivalOrder (events : List Engine.Event) :
    ∃ s : Snapshot, s.engine = (Engine.listed capacity clock listings).run events ∧
      InArrivalOrder ((Engine.listed capacity clock listings).arrivals events) s.engine := by
  induction events using List.reverseRecOn with
  | nil =>
      rcases Snapshot.exists_initial capacity clock listings with ⟨s, hs⟩
      exact ⟨s, hs.engine_eq, InArrivalOrder.of_empty hs.queues_eq⟩
  | append_singleton events event ih =>
      rcases ih with ⟨s, hengine, horder⟩
      rcases s.event_step event with ⟨s', hengine', hevent⟩
      refine ⟨s', ?_, ?_⟩
      · rw [hengine', hengine]
        simp [Engine.run]
      · cases hevent with
        | message hstep =>
            rw [Engine.arrivals_message, ← hengine]
            exact horder.message hengine' hstep
        | reset hstep => exact InArrivalOrder.of_empty hstep.queues_eq

/-- In every run each level queue lists its orders in the order in which their messages
arrived, and every one still carries what its message and the clock said. -/
theorem run_inArrivalOrder (events : List Engine.Event) :
    InArrivalOrder ((Engine.listed capacity clock listings).arrivals events)
      ((Engine.listed capacity clock listings).run events) := by
  rcases exists_inArrivalOrder capacity clock listings events with ⟨s, hengine, horder⟩
  rw [← hengine]
  exact horder

end Runs

/-! ## The clock -/

/-- The reports of an engine with this clock are in the order of their timestamps, and none
is from the future. -/
structure ReportsTimed (clock : ℕ → UInt64) (engine : Engine) : Prop where
  clock_eq : engine.clock = clock
  sorted : engine.outbound.Pairwise fun report later => report.timestampNs ≤ later.timestampNs
  past : ∀ report ∈ engine.outbound, report.timestampNs ≤ engine.nowNs

/-- The same for the tickets of the arrived orders. -/
structure ArrivalsTimed (arrivals : List Order) (engine : Engine) : Prop where
  sorted : arrivals.Pairwise fun ticket later => ticket.timestampNs ≤ later.timestampNs
  past : ∀ ticket ∈ arrivals, ticket.timestampNs ≤ engine.nowNs

section Clock

variable {clock : ℕ → UInt64} {engine engine' : Engine}
  (hclock : ∀ first later, first ≤ later → clock first ≤ clock later)

include hclock

theorem ReportsTimed.post (htimed : ReportsTimed clock engine) {report : ExecutionReport}
    (hstamp : report.timestampNs = engine.nowNs) : ReportsTimed clock (engine.post report) := by
  have hnow : engine.nowNs ≤ (engine.post report).nowNs := by
    unfold Engine.nowNs Engine.post
    rw [htimed.clock_eq]
    exact hclock _ _ (Nat.le_succ _)
  constructor
  · exact htimed.clock_eq
  · apply List.pairwise_append.mpr
    refine ⟨htimed.sorted, List.pairwise_singleton _ _, ?_⟩
    intro earlier hearlier last hlast
    rw [List.mem_singleton] at hlast
    rw [hlast, hstamp]
    exact htimed.past earlier hearlier
  · intro earlier hearlier
    rcases List.mem_append.mp hearlier with hold | hnew
    · exact UInt64.le_trans (htimed.past earlier hold) hnow
    · rw [List.mem_singleton] at hnew
      rw [hnew, hstamp]
      exact hnow

theorem Engine.Write.reportsTimed (hwrite : Engine.Write engine engine')
    (htimed : ReportsTimed clock engine) :
    ReportsTimed clock engine' ∧ engine.clockReads ≤ engine'.clockReads := by
  have hsame : ReportsTimed clock engine := htimed
  rcases htimed with ⟨hclocks, hsorted, hpast⟩
  cases hwrite with
  | cancelled => exact ⟨⟨hclocks, hsorted, hpast⟩, le_rfl⟩
  | added => exact ⟨⟨hclocks, hsorted, hpast⟩, le_rfl⟩
  | filled => exact ⟨⟨hclocks, hsorted, hpast⟩, le_rfl⟩
  | posted => exact ⟨hsame.post hclock rfl, Nat.le_succ _⟩
  | released => exact ⟨⟨hclocks, hsorted, hpast⟩, le_rfl⟩
  | rejected => exact ⟨⟨hclocks, hsorted, hpast⟩, le_rfl⟩

theorem Engine.Writes.reportsTimed (hwrites : Engine.Writes engine engine')
    (htimed : ReportsTimed clock engine) :
    ReportsTimed clock engine' ∧ engine.clockReads ≤ engine'.clockReads := by
  induction hwrites with
  | refl => exact ⟨htimed, le_rfl⟩
  | tail _ hwrite ih =>
      have hnext := hwrite.reportsTimed hclock ih.1
      exact ⟨hnext.1, ih.2.trans hnext.2⟩

theorem ReportsTimed.submit (htimed : ReportsTimed clock engine) (msg : InboundOrderMsg) :
    ReportsTimed clock (engine.submit msg) ∧
      engine.clockReads ≤ (engine.submit msg).clockReads := by
  have hdispatch : ReportsTimed clock (engine.dispatch msg) ∧
      engine.clockReads ≤ (engine.dispatch msg).clockReads := by
    rcases Engine.Writes.dispatch engine msg with hwrites | ⟨slot, pool, _, hwrites⟩
    · exact hwrites.reportsTimed hclock htimed
    · have hadmitted : ReportsTimed clock (engine.admitOrder msg slot pool) := by
        refine ⟨htimed.clock_eq, htimed.sorted, ?_⟩
        intro report hreport
        apply UInt64.le_trans (htimed.past report hreport)
        unfold Engine.nowNs Engine.admitOrder
        rw [htimed.clock_eq]
        exact hclock _ _ (Nat.le_succ _)
      have hafter := hwrites.reportsTimed hclock hadmitted
      exact ⟨hafter.1, (Nat.le_succ _).trans hafter.2⟩
  exact ⟨⟨hdispatch.1.clock_eq, hdispatch.1.sorted, hdispatch.1.past⟩, hdispatch.2⟩

theorem ArrivalsTimed.submit {arrivals : List Order} (harrivals : ArrivalsTimed arrivals engine)
    (htimed : ReportsTimed clock engine) (msg : InboundOrderMsg) :
    ArrivalsTimed (arrivals ++ engine.arrival msg) (engine.submit msg) := by
  have hnow : engine.nowNs ≤ (engine.submit msg).nowNs := by
    rcases htimed.submit hclock msg with ⟨hafter, hreads⟩
    unfold Engine.nowNs
    rw [htimed.clock_eq, hafter.clock_eq]
    exact hclock _ _ hreads
  have hstamp : ∀ ticket ∈ engine.arrival msg, ticket.timestampNs = engine.nowNs := by
    intro ticket hticket
    unfold Engine.arrival at hticket
    split_ifs at hticket
    · rw [List.mem_singleton] at hticket
      rw [hticket]
      rfl
    · exact absurd hticket List.not_mem_nil
  have hsingle : (engine.arrival msg).Pairwise
      fun ticket later => ticket.timestampNs ≤ later.timestampNs := by
    unfold Engine.arrival
    split_ifs
    · exact List.pairwise_singleton _ _
    · exact List.Pairwise.nil
  constructor
  · apply List.pairwise_append.mpr
    refine ⟨harrivals.sorted, hsingle, ?_⟩
    intro earlier hearlier ticket hticket
    rw [hstamp ticket hticket]
    exact harrivals.past earlier hearlier
  · intro ticket hticket
    rcases List.mem_append.mp hticket with hold | hnew
    · exact UInt64.le_trans (harrivals.past ticket hold) hnow
    · rw [hstamp ticket hnew]
      exact hnow

end Clock

/-- The reports and every level queue are in the order of their timestamps. -/
structure InTimeOrder (engine : Engine) : Prop where
  reports : engine.outbound.Pairwise fun report later => report.timestampNs ≤ later.timestampNs
  queues : ∀ instrumentId side i, (engine.queue instrumentId side i).Pairwise
    fun slot later => (engine.slab slot).timestampNs ≤ (engine.slab later).timestampNs
  past : ∀ instrumentId side i, ∀ slot ∈ engine.queue instrumentId side i,
    (engine.slab slot).timestampNs ≤ engine.nowNs

theorem InArrivalOrder.inTimeOrder {clock : ℕ → UInt64} {arrivals : List Order}
    {engine : Engine} (horder : InArrivalOrder arrivals engine)
    (hreports : ReportsTimed clock engine) (harrivals : ArrivalsTimed arrivals engine) :
    InTimeOrder engine := by
  refine ⟨hreports.sorted, ?_, ?_⟩
  · intro instrumentId side i
    have hsorted := harrivals.sorted.sublist (horder.queue instrumentId side i)
    rw [List.pairwise_map] at hsorted
    exact hsorted
  · intro instrumentId side i slot hslot
    have hticket : (engine.slab slot).ticket ∈ arrivals :=
      (horder.queue instrumentId side i).subset (List.mem_map_of_mem hslot)
    exact harrivals.past (engine.slab slot).ticket hticket

theorem Engine.clock_listed (capacity : ℕ) (clock : ℕ → UInt64)
    (listings : List (InstrumentId × PriceGrid)) :
    (Engine.listed capacity clock listings).clock = clock := by
  unfold Engine.listed
  have hnew : (Engine.new capacity clock).clock = clock := rfl
  generalize Engine.new capacity clock = engine at hnew
  induction listings generalizing engine with
  | nil => exact hnew
  | cons listing listings ih =>
      apply ih
      unfold Engine.addInstrument
      cases engine.books listing.1 <;> exact hnew

section Runs

variable (capacity : ℕ) (clock : ℕ → UInt64) (listings : List (InstrumentId × PriceGrid))
  (hclock : ∀ first later, first ≤ later → clock first ≤ clock later)

include hclock

theorem run_timed (events : List Engine.Event) :
    ReportsTimed clock ((Engine.listed capacity clock listings).run events) ∧
      ArrivalsTimed ((Engine.listed capacity clock listings).arrivals events)
        ((Engine.listed capacity clock listings).run events) := by
  have hempty : ∀ engine : Engine, ArrivalsTimed [] engine := fun engine =>
    ⟨List.Pairwise.nil, fun _ hticket => absurd hticket List.not_mem_nil⟩
  induction events using List.reverseRecOn with
  | nil =>
      rcases Snapshot.exists_initial capacity clock listings with ⟨s, hs⟩
      have hnone := hs.reports.1
      rw [hs.engine_eq] at hnone
      refine ⟨⟨Engine.clock_listed capacity clock listings, ?_, ?_⟩, hempty _⟩
      · simp [Engine.run, hnone]
      · simp [Engine.run, hnone]
  | append_singleton events event ih =>
      rcases ih with ⟨hreports, harrivals⟩
      have hrun : (Engine.listed capacity clock listings).run (events ++ [event]) =
          ((Engine.listed capacity clock listings).run events).step event := by
        simp [Engine.run]
      rw [hrun]
      cases event with
      | message msg =>
          rw [Engine.arrivals_message]
          exact ⟨(hreports.submit hclock msg).1, harrivals.submit hclock hreports msg⟩
      | reset =>
          rw [Engine.arrivals_reset]
          exact ⟨⟨hreports.clock_eq, hreports.sorted, hreports.past⟩, hempty _⟩

/-- With a clock which does not run backwards, every run keeps the reports and the level
queues in the order of their timestamps. -/
theorem run_inTimeOrder (events : List Engine.Event) :
    InTimeOrder ((Engine.listed capacity clock listings).run events) := by
  rcases exists_inArrivalOrder capacity clock listings events with ⟨s, hengine, horder⟩
  rcases run_timed capacity clock listings hclock events with ⟨hreports, harrivals⟩
  rw [hengine] at horder
  exact horder.inTimeOrder hreports harrivals

end Runs

/-- A clock which ticks once. -/
def lateClock (reading : ℕ) : UInt64 := if reading = 0 then 10 else 20

def twoBids : Engine :=
  (Engine.listed 4 lateClock [(0, sampleGrid)]).run
    [.message (sampleOrder 0 0 1 104 5), .message (sampleOrder 0 0 2 104 5)]

theorem run_inTimeOrder_two_bids :
    (twoBids.queue 0 .bid 4).map (fun slot => (twoBids.slab slot).timestampNs) = [10, 20] ∧
      InTimeOrder twoBids := by
  refine ⟨by decide, ?_⟩
  apply run_inTimeOrder
  intro first later hle
  unfold lateClock
  split_ifs with hfirst hlater
  · exact UInt64.le_refl _
  · decide
  · omega
  · exact UInt64.le_refl _

end NanoMatch
