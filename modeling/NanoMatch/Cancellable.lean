import NanoMatch.OrderOutcome

/-!
# Cancellation by id

The order index is keyed by the client's order id alone, and `emplace` keeps an
entry which is already there.  A resting order is found under its own id as long
as no order comes to rest under an id which another order of the same book
still carries.  This condition is also necessary: the first order which breaks
it cannot be cancelled.
-/

namespace NanoMatch

open OrderBook

/-- Every resting order is found under its own id. -/
def Snapshot.Complete (s : Snapshot) : Prop :=
  ∀ instrumentId book, s.engine.books instrumentId = some book →
    ∀ side i, ∀ slot ∈ s.queues instrumentId side i,
      book.findOrder (s.slab slot).orderId = some slot

namespace Snapshot.Complete

variable {s s' : Snapshot} {msg : InboundOrderMsg}

theorem slot_unique (hcomplete : s.Complete) {instrumentId : InstrumentId}
    {side side' : BookSide} {i j : ℕ} {slot other : Slot}
    (hslot : slot ∈ s.queues instrumentId side i)
    (hother : other ∈ s.queues instrumentId side' j)
    (hid : (s.slab other).orderId = (s.slab slot).orderId) : other = slot := by
  rcases s.rep.listed_of_mem hslot with ⟨book, hbook⟩
  have hfound := hcomplete _ book hbook _ _ slot hslot
  rw [← hid, hcomplete _ book hbook _ _ other hother] at hfound
  exact Option.some.inj hfound

theorem of_same (hcomplete : s.Complete) (hbooks : s'.engine.books = s.engine.books)
    (hqueues : s'.queues = s.queues)
    (hids : ∀ instrumentId side i, ∀ slot ∈ s'.queues instrumentId side i,
      (s'.slab slot).orderId = (s.slab slot).orderId) : s'.Complete := by
  intro instrumentId book hbook side i slot hslot
  rw [hids _ _ _ slot hslot]
  rw [hbooks] at hbook
  rw [hqueues] at hslot
  exact hcomplete _ book hbook _ _ slot hslot

theorem admitted (hcomplete : s.Complete) {slot : Slot}
    (hadmitted : Admitted msg slot s s') : s'.Complete := by
  apply hcomplete.of_same hadmitted.books_eq hadmitted.queues_eq
  intro instrumentId side i other hother
  rw [hadmitted.others other (Snapshot.ne_of_isLoose hadmitted.loose hother)]

theorem posted (hcomplete : s.Complete) {reports : List ExecutionReport} {count : ℕ}
    (hposted : Posted reports count s s') : s'.Complete := by
  apply hcomplete.of_same hposted.books_eq hposted.queues_eq
  intro _ _ _ other _
  unfold Snapshot.slab Engine.slab
  rw [hposted.pool_eq]

theorem released (hcomplete : s.Complete) {slot : Slot}
    (hreleased : Released slot s s') : s'.Complete := by
  apply hcomplete.of_same hreleased.books_eq hreleased.queues_eq
  intro _ _ _ other _
  exact congrArg Order.Terms.orderId (hreleased.terms other)

/-- One book is written back. -/
theorem of_book (hcomplete : s.Complete) {instrumentId : InstrumentId} {book' : OrderBook}
    (hbooks : s'.engine.books = Function.update s.engine.books instrumentId (some book'))
    (hids : ∀ slot, (s'.slab slot).orderId = (s.slab slot).orderId)
    (hown : ∀ side i, ∀ slot ∈ s'.queues instrumentId side i,
      book'.findOrder (s.slab slot).orderId = some slot)
    (hothers : ∀ instrumentId', instrumentId' ≠ instrumentId → ∀ side i,
      ∀ slot ∈ s'.queues instrumentId' side i, slot ∈ s.queues instrumentId' side i) :
    s'.Complete := by
  intro instrumentId' found hfound side i slot hslot
  rw [hids slot]
  rw [hbooks] at hfound
  by_cases hsame : instrumentId' = instrumentId
  · subst hsame
    rw [Function.update_self, Option.some.injEq] at hfound
    rw [← hfound]
    exact hown side i slot hslot
  · rw [Function.update_of_ne hsame] at hfound
    exact hcomplete _ found hfound _ _ slot (hothers _ hsame side i slot hslot)

theorem erased (hcomplete : s.Complete) {instrumentId : InstrumentId} {book book' : OrderBook}
    {slot : Slot} {side : BookSide} {level : ℕ}
    (hslot : slot ∈ s.queues instrumentId side level)
    (hbook : s.engine.books instrumentId = some book)
    (hbooks : s'.engine.books = Function.update s.engine.books instrumentId (some book'))
    (hindex : book'.orderIndex = book.orderIndex.erase (s.slab slot).orderId)
    (hids : ∀ other, (s'.slab other).orderId = (s.slab other).orderId)
    (hsubset : ∀ instrumentId' side' i, ∀ other ∈ s'.queues instrumentId' side' i,
      other ∈ s.queues instrumentId' side' i ∧ other ≠ slot) : s'.Complete := by
  apply hcomplete.of_book hbooks hids
  · intro side' i other hother
    rcases hsubset _ _ _ other hother with ⟨hold, hne⟩
    have hid : (s.slab other).orderId ≠ (s.slab slot).orderId :=
      fun heq => hne (hcomplete.slot_unique hslot hold heq)
    unfold OrderBook.findOrder
    rw [hindex, OrderIndex.find_erase_of_ne _ _ _ hid]
    exact hcomplete _ book hbook _ _ other hold
  · exact fun _ _ _ _ other hother => (hsubset _ _ _ other hother).1

theorem traded (hcomplete : s.Complete) {instrumentId : InstrumentId} {agg maker : Slot}
    {level : ℕ} {behind : List Slot}
    (htraded : Traded instrumentId agg maker level behind s s') : s'.Complete := by
  rcases htraded.books with ⟨book, book', hbook, hbooks, _, hindex⟩
  by_cases hdone : (s'.slab maker).quantity = 0
  · rw [if_pos hdone] at hindex
    apply hcomplete.erased htraded.maker_mem hbook hbooks hindex htraded.orderId_eq
    intro instrumentId' side i other hother
    refine ⟨htraded.queue_subset hother, ?_⟩
    intro heq
    subst heq
    have hqueues := htraded.queues'
    rw [if_pos hdone] at hqueues
    rw [hqueues] at hother
    exact Snapshot.maker_notMem_behind hbook htraded.queue_eq _ _ _ hother
  · rw [if_neg hdone] at hindex
    have hqueues := htraded.queues'
    rw [if_neg hdone] at hqueues
    apply hcomplete.of_book hbooks htraded.orderId_eq
    · intro side i slot hslot
      rw [hqueues] at hslot
      unfold OrderBook.findOrder
      rw [hindex]
      exact hcomplete _ book hbook _ _ slot hslot
    · exact fun _ _ _ _ _ hslot => htraded.queue_subset hslot

theorem removed (hcomplete : s.Complete) {instrumentId : InstrumentId} {slot : Slot}
    {side : BookSide} {level : ℕ} {before after : List Slot}
    (hremoved : Removed instrumentId slot side level before after s s') : s'.Complete := by
  rcases hremoved.books with ⟨book, book', hbook, hbooks, _, hindex⟩
  apply hcomplete.erased hremoved.slot_mem hbook hbooks hindex
    (fun other => congrArg Order.Terms.orderId (hremoved.terms other))
  intro instrumentId' side' i other hother
  refine ⟨hremoved.queue_subset hother, ?_⟩
  intro heq
  subst heq
  exact hremoved.loose.notQueued _ _ _ hother

/-- An order rests under an id which no order of its book carries. -/
theorem rested (hcomplete : s.Complete) {instrumentId : InstrumentId} {slot : Slot}
    {level : ℕ} (hrested : Rested instrumentId slot level s s')
    (hfresh : ∀ side i, ∀ other ∈ s.queues instrumentId side i,
      (s.slab other).orderId ≠ (s.slab slot).orderId) : s'.Complete := by
  rcases hrested.books with ⟨book, book', hbook, hbooks, _, _, hindex⟩
  have hnew : (s.slab slot).orderId ∉ book.orderIndex := by
    intro hmem
    cases hfound : book.findOrder (s.slab slot).orderId with
    | none => exact (OrderIndex.find_eq_none_iff _ _).mp hfound hmem
    | some other =>
        rcases (s.rep.bookRep _ book hbook).indexed _ _ hfound with ⟨⟨side, i, hother⟩, hid⟩
        exact hfresh side i other hother hid
  rw [if_neg hnew] at hindex
  apply hcomplete.of_book hbooks
    (fun other => congrArg Order.Terms.orderId (hrested.terms other))
  · intro side i other hother
    unfold OrderBook.findOrder OrderIndex.find
    rw [hindex]
    rcases hrested.mem_cases hother with hold | ⟨rfl, _⟩
    · rw [AList.lookup_insert_ne (hfresh _ _ other hold)]
      exact hcomplete _ book hbook _ _ other hold
    · exact AList.lookup_insert _
  · intro instrumentId' hne side i other hother
    rcases hrested.mem_cases hother with hold | ⟨_, heq, _⟩
    · exact hold
    · exact absurd heq hne

theorem of_empty (hqueues : s.queues = fun _ _ _ => []) : s.Complete := by
  intro instrumentId book _ side i slot hslot
  rw [hqueues] at hslot
  exact absurd hslot (by simp)

end Snapshot.Complete

/-! ## The condition on a message -/

/-- The order of the message will come to rest: it is a limit order on the grid
which is larger than what it can trade with. -/
def Engine.WillRest (engine : Engine) (msg : InboundOrderMsg) : Prop :=
  msg.kind = .newOrder ∧ msg.orderType = .limit ∧ engine.pool.freelistHead ≠ none ∧
    (∃ book, engine.books msg.instrumentId = some book ∧
      book.grid.isValidPrice msg.price = true) ∧
    engine.crossingQuantity msg < msg.quantity.toNat

/-- An order which will rest shares its id only with orders it trades away. -/
def Engine.FreshId (engine : Engine) (msg : InboundOrderMsg) : Prop :=
  engine.WillRest msg →
    ∀ side i, ∀ slot ∈ engine.queue msg.instrumentId side i,
      (engine.slab slot).orderId = msg.orderId →
        side = msg.makerSide ∧ msg.accepts (engine.slab slot).price = true

theorem Swept.queue_subset {s s' : Snapshot} {instrumentId : InstrumentId} {agg : Slot}
    {priceOk : Price → Bool} (hswept : Swept instrumentId agg priceOk s s')
    {instrumentId' : InstrumentId} {side : BookSide} {i : ℕ} {slot : Slot}
    (hslot : slot ∈ s'.queues instrumentId' side i) :
    slot ∈ s.queues instrumentId' side i := by
  have hall := hswept.induction
    (fun t => ∀ slot ∈ t.queues instrumentId' side i, slot ∈ s.queues instrumentId' side i)
    (fun _ hmem => hmem) ?_
  · exact hall slot hslot
  · intro t t' _ _ _ htraded _ ih other hother
    exact ih other (htraded.queue_subset hother)

theorem Swept.kept {s s' : Snapshot} {instrumentId : InstrumentId} {agg : Slot}
    {priceOk : Price → Bool} (hswept : Swept instrumentId agg priceOk s s')
    {side : BookSide} {i : ℕ} {slot : Slot} (hslot : slot ∈ s.queues instrumentId side i)
    (hnot : ¬ (side = s.makerSide agg ∧ priceOk (s.slab slot).price = true)) :
    slot ∈ s'.queues instrumentId side i := by
  have hall := hswept.induction
    (fun t => slot ∈ t.queues instrumentId side i ∧
      (t.slab slot).price = (s.slab slot).price ∧ t.makerSide agg = s.makerSide agg)
    ⟨hslot, rfl, rfl⟩ ?_
  · exact hall.1
  · intro t t' maker level behind htraded hok ih
    rcases ih with ⟨hmem, hprice, hside⟩
    refine ⟨?_, (htraded.price_eq slot).trans hprice, htraded.makerSide_eq.trans hside⟩
    by_cases hlevel : side = t.makerSide agg ∧ i = level
    · rcases hlevel with ⟨hsideEq, rfl⟩
      have hne : slot ≠ maker := by
        intro heq
        subst heq
        apply hnot
        rw [← hprice]
        exact ⟨hsideEq.trans hside, hok⟩
      subst hsideEq
      rw [htraded.queue_eq] at hmem
      rw [htraded.queue_level]
      rcases List.mem_cons.mp hmem with heq | htail
      · exact absurd heq hne
      · split_ifs <;> simp [htail]
    · rw [htraded.queue_other (fun hall => hlevel hall.2)]
      exact hmem

section Step

variable {msg : InboundOrderMsg} {s s' : Snapshot}

theorem Admitted.willRest {slot : Slot} {s₀ s₁ : Snapshot} {book : OrderBook}
    (hadmitted : Admitted msg slot s s₀) (hkind : msg.kind = .newOrder)
    (hbook : s.engine.books msg.instrumentId = some book)
    (hswept : Swept msg.instrumentId slot msg.accepts s₀ s₁)
    (htype : msg.orderType = .limit)
    (hvalid : book.grid.isValidPrice msg.price = true)
    (hunfilled : 0 < (s₁.slab slot).remaining) : s.engine.WillRest msg := by
  refine ⟨hkind, htype, ?_, ⟨book, hbook, hvalid⟩, ?_⟩
  · simp [hadmitted.freelistHead_eq]
  · rw [hadmitted.residual_eq hbook hswept] at hunfilled
    omega

theorem Admitted.fresh_after_sweep {slot : Slot} {s₀ s₁ : Snapshot}
    (hadmitted : Admitted msg slot s s₀)
    (hswept : Swept msg.instrumentId slot msg.accepts s₀ s₁)
    (hunfilled : 0 < (s₁.slab slot).remaining) (hrest : s.engine.WillRest msg)
    (hfresh : s.engine.FreshId msg) {side : BookSide} {i : ℕ} {other : Slot}
    (hother : other ∈ s₁.queues msg.instrumentId side i) :
    (s₁.slab other).orderId ≠ (s₁.slab slot).orderId := by
  intro hid
  rw [(hadmitted.swept_terms hswept).1] at hid
  have hold₀ := hswept.queue_subset hother
  have hsame := hadmitted.others other (Snapshot.ne_of_isLoose hadmitted.loose hold₀)
  have hterms := hswept.terms other
  rw [hsame] at hterms
  have hold : other ∈ s.engine.queue msg.instrumentId side i := by
    rw [s.rep.queue_eq, ← hadmitted.queues_eq]
    exact hold₀
  have hidOld : (s.slab other).orderId = msg.orderId :=
    (congrArg Order.Terms.orderId hterms).symm.trans hid
  rcases hfresh hrest side i other hold hidOld with ⟨hside, hok⟩
  rcases hswept.stopped with hzero | hclear
  · omega
  · rw [hswept.makerSide_eq, hadmitted.makerSide_eq, ← hside] at hclear
    have hrejected := hclear i other hother
    rw [show (s₁.slab other).price = (s.slab other).price from
      congrArg Order.Terms.price hterms] at hrejected
    change msg.accepts (s.slab other).price = true at hok
    rw [hrejected] at hok
    exact absurd hok (by simp)

theorem Snapshot.Complete.keptByPhases (instrumentId : InstrumentId) :
    KeptByPhases instrumentId Snapshot.Complete where
  posted hposted hcomplete := hcomplete.posted hposted
  admitted hadmitted hcomplete := hcomplete.admitted hadmitted
  traded htraded _ hcomplete := hcomplete.traded htraded
  released hreleased hcomplete := hcomplete.released hreleased
  removed hremoved hcomplete := hcomplete.removed hremoved

theorem Snapshot.Complete.message (hcomplete : s.Complete)
    (hfresh : s.engine.FreshId msg) (hstep : MessageStep msg s s') : s'.Complete := by
  apply (keptByPhases msg.instrumentId).message hstep _ hcomplete
  intro slot book s₀ s₁ t hkind hrests hswept
  have hunfilled := hrests.rested.unfilled
  have hrest := hrests.admitted.willRest hkind hrests.listed hrests.swept hrests.limit
    hrests.valid hunfilled
  apply hswept.rested hrests.rested
  intro side i other hother
  exact hrests.admitted.fresh_after_sweep hrests.swept hunfilled hrest hfresh hother

/-- The condition is necessary: two orders of one book cannot both be found
under one id. -/
theorem MessageStep.freshId (hstep : MessageStep msg s s') (hcomplete' : s'.Complete) :
    s.engine.FreshId msg := by
  intro hrest side i other hother hid
  rcases hrest with ⟨hkind, htype, hfree, ⟨book, hbook, hvalid⟩, hmore⟩
  rw [s.rep.queue_eq] at hother
  by_contra hnot
  rcases hstep.newOrder_step hkind with ⟨s₁, hstep, hcounted⟩
  have hcomplete : s₁.Complete := by
    intro instrumentId found hfound side i slot hslot
    rw [← hcounted.books_eq] at hfound
    rw [← hcounted.queues_eq] at hslot
    have hid := hcomplete' _ found hfound _ _ slot hslot
    unfold Snapshot.slab Engine.slab at hid
    rw [hcounted.pool_eq] at hid
    exact hid
  rcases hstep.residual_cases htype hfree hbook hmore with
    ⟨slot, s₀, s₂, hadmitted, hswept, ⟨_, hrested⟩ | ⟨hinvalid, _⟩⟩
  · have hother₀ : other ∈ s₀.queues msg.instrumentId side i := by
      rw [hadmitted.queues_eq]
      exact hother
    have hsame := hadmitted.others other
      (Snapshot.ne_of_isLoose hadmitted.loose hother₀)
    have hkept : other ∈ s₂.queues msg.instrumentId side i := by
      apply hswept.kept hother₀
      rw [hadmitted.makerSide_eq, hsame]
      exact hnot
    have hne : other ≠ slot := Snapshot.ne_of_isLoose hswept.loose hkept
    have hother₁ := hrested.mem_of_mem hkept
    have hids : (s₁.slab other).orderId = (s₁.slab slot).orderId := by
      have hotherId := congrArg Order.Terms.orderId
        ((hrested.terms other).trans (hswept.terms other))
      have hslotId := congrArg Order.Terms.orderId (hrested.terms slot)
      rw [hsame] at hotherId
      exact (hotherId.trans hid).trans
        (hslotId.trans (hadmitted.swept_terms hswept).1).symm
    exact hne (hcomplete.slot_unique hrested.slot_mem hother₁ hids)
  · rw [hvalid] at hinvalid
    exact absurd hinvalid (by simp)

end Step

/-! ## The observable statement -/

/-- A cancellation by id removes exactly this order and acknowledges what was
left of it. -/
structure CancelRemoves (engine : Engine) (msg : InboundOrderMsg) (slot : Slot) : Prop where
  queues : ∀ instrumentId side i, (engine.dispatch msg).queue instrumentId side i =
    (engine.queue instrumentId side i).erase slot
  orders : ∀ other, ((engine.dispatch msg).slab other).terms = (engine.slab other).terms ∧
    ((engine.dispatch msg).slab other).quantity = (engine.slab other).quantity
  ack : ∃ timestampNs, (engine.dispatch msg).outbound = engine.outbound ++
    [cancelAckReport msg.orderId (engine.slab slot).quantity timestampNs]

structure Cancellable (engine : Engine) : Prop where
  found : ∀ instrumentId book, engine.books instrumentId = some book →
    ∀ side i, ∀ slot ∈ engine.queue instrumentId side i,
      book.findOrder (engine.slab slot).orderId = some slot
  cancel : ∀ instrumentId side i, ∀ slot ∈ engine.queue instrumentId side i,
    ∀ msg : InboundOrderMsg, msg.kind = .cancel → msg.instrumentId = instrumentId →
      msg.orderId = (engine.slab slot).orderId → CancelRemoves engine msg slot
  count : ∀ instrumentId book, engine.books instrumentId = some book →
    book.liveOrderCount = (engine.restingOn instrumentId .bid).length +
      (engine.restingOn instrumentId .ask).length

namespace Snapshot.Complete

variable {s : Snapshot}

theorem cancelRemoves (hcomplete : s.Complete) {instrumentId : InstrumentId}
    {side : BookSide} {i : ℕ} {slot : Slot} (hslot : slot ∈ s.queues instrumentId side i)
    {msg : InboundOrderMsg} (hkind : msg.kind = .cancel)
    (hinstrument : msg.instrumentId = instrumentId)
    (hid : msg.orderId = (s.slab slot).orderId) : CancelRemoves s.engine msg slot := by
  subst hinstrument
  rcases s.rep.listed_of_mem hslot with ⟨book, hbook⟩
  have hfound := hcomplete _ book hbook _ _ slot hslot
  rw [← hid] at hfound
  rcases s.handleCancel_step msg with ⟨s', hengine, hstep⟩
  have hdispatch : s.engine.dispatch msg = s'.engine := by
    rw [Engine.dispatch, hkind, hengine]
  cases hstep with
  | ignored _ hwhy =>
      rw [hwhy book hbook] at hfound
      exact absurd hfound (by simp)
  | cancelled slot' book' side' level before after s₁ s₂ timestampNs hbook' hfound' hid'
      hremoved hposted hreleased =>
      rw [hbook, Option.some.injEq] at hbook'
      subst hbook'
      rw [hfound, Option.some.injEq] at hfound'
      subst hfound'
      have hqueues : s'.queues = s₁.queues :=
        hreleased.queues_eq.trans hposted.queues_eq
      have hslab : s₂.slab = s₁.slab := by
        unfold Snapshot.slab Engine.slab
        rw [hposted.pool_eq]
      constructor
      · intro instrumentId' side'' j
        rw [hdispatch, s'.rep.queue_eq, s.rep.queue_eq, hqueues, hremoved.queues_eq]
        by_cases hlevel : instrumentId' = msg.instrumentId ∧ side'' = side' ∧ j = level
        · rcases hlevel with ⟨rfl, rfl, rfl⟩
          have hnodup := ((s.rep.bookRep _ book hbook).linked side'' j).nodup
          rw [hremoved.queue_eq] at hnodup
          have hbefore : slot ∉ before := by
            intro hmem
            exact not_mem_of_nodup_middle hnodup (List.mem_append_left _ hmem)
          rw [Function.update_self, Queues.set_same, hremoved.queue_eq,
            List.erase_append_right _ hbefore, List.erase_cons_head]
        · have hnot : slot ∉ s.queues instrumentId' side'' j := by
            intro hmem
            exact hlevel (s.rep.queue_unique hremoved.slot_mem hmem)
          rw [List.erase_of_not_mem hnot, Queues.update_set, if_neg hlevel]
      · intro other
        rw [hdispatch]
        have hterms := (hreleased.terms other).trans (by rw [hslab, hremoved.terms other])
        have hquantity := (hreleased.quantity other).trans
          (by rw [hslab, hremoved.quantity other])
        exact ⟨hterms, hquantity⟩
      · refine ⟨timestampNs, ?_⟩
        rw [hdispatch, hreleased.outbound_eq, hposted.outbound_eq, hremoved.outbound_eq]
        rfl

theorem cancellable (hcomplete : s.Complete) : Cancellable s.engine := by
  constructor
  · intro instrumentId book hbook
    rw [s.rep.queue_eq]
    exact hcomplete instrumentId book hbook
  · intro instrumentId side i slot hslot msg hkind hinstrument hid
    rw [s.rep.queue_eq] at hslot
    exact hcomplete.cancelRemoves hslot hkind hinstrument hid
  · intro instrumentId book hbook
    have hcount := liveOrderCount_eq (s.rep.bookRep _ book hbook).toBookShape
      (hcomplete instrumentId book hbook)
    rw [hcount]
    unfold restingSlots Engine.restingOn
    rw [hbook, s.rep.queue_eq, List.length_append]

end Snapshot.Complete

theorem Cancellable.complete {s : Snapshot} (hcancellable : Cancellable s.engine) :
    s.Complete := by
  intro instrumentId book hbook side i slot hslot
  rw [← s.rep.queue_eq] at hslot
  exact hcancellable.found _ book hbook _ _ slot hslot

/-- Every resting order stays cancellable, in every state of a run, exactly when
every order which comes to rest has a fresh id. -/
theorem run_cancellable_iff (capacity : ℕ) (clock : ℕ → UInt64)
    (listings : List (InstrumentId × PriceGrid)) (msgs : List InboundOrderMsg) :
    (∀ before after, msgs = before ++ after →
        Cancellable ((Engine.listed capacity clock listings).runMessages before)) ↔
      ∀ before msg after, msgs = before ++ msg :: after →
        ((Engine.listed capacity clock listings).runMessages before).FreshId msg := by
  constructor
  · intro hall before msg after hsplit
    rcases exists_snapshot_messages capacity clock listings before with ⟨s, hengine⟩
    rcases s.submit_step msg with ⟨s', hengine', hstep⟩
    have hafter := hall (before ++ [msg]) after (by simp [hsplit])
    have hrun : (Engine.listed capacity clock listings).runMessages (before ++ [msg]) =
        s'.engine := by
      rw [hengine', hengine]
      simp [Engine.runMessages]
    rw [hrun] at hafter
    rw [← hengine]
    exact hstep.freshId hafter.complete
  · intro hfresh before after hsplit
    have hinvariant := runMessages_induction capacity clock listings
      (fun history s => ∀ rest, msgs = history ++ rest → s.Complete)
      (fun s hs _ _ => Snapshot.Complete.of_empty hs.queues_eq) ?_ before
    · rcases hinvariant with ⟨s, hengine, hcomplete⟩
      rw [← hengine]
      exact (hcomplete after hsplit).cancellable
    · intro history msg s s' hengine hcomplete hstep rest hsplit
      have hsplit' : msgs = history ++ msg :: rest := by simp [hsplit]
      have hid := hfresh history msg rest hsplit'
      rw [← hengine] at hid
      exact (hcomplete _ hsplit').message hid hstep

/-- Two bids under the id 1: the index still holds the first one, so the second
is not found. -/
theorem second_order_not_found :
    ¬ Cancellable (sampleEngine.runMessages
      [sampleOrder 0 0 1 104 5, sampleOrder 0 0 1 103 5]) := by
  generalize hengine : sampleEngine.runMessages
    [sampleOrder 0 0 1 104 5, sampleOrder 0 0 1 103 5] = engine
  have hqueued : 1 ∈ engine.queue 0 .bid 3 := by
    rw [← hengine]
    decide
  have hindex : (engine.books 0).map (fun book => book.findOrder (engine.slab 1).orderId) =
      some (some 0) := by
    rw [← hengine]
    decide
  intro hcancellable
  cases hbook : engine.books 0 with
  | none =>
      rw [hbook] at hindex
      exact absurd hindex (by simp)
  | some book =>
      have hfound := hcancellable.found 0 book hbook .bid 3 1 hqueued
      rw [hbook] at hindex
      simp [hfound] at hindex

end NanoMatch
