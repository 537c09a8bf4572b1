import NanoMatch.OrderBookOperations

/-!
# Exact aggregates and a complete index

`BookExact` adds to the representation of a book that the cached totals and
counts are the true ones and that every resting order is found under its own
id.  Both are kept by every mutator as long as no level total reaches `2^32`
and no two resting orders share an id.  The three removal paths subtract the
quantity in different ways; `detach_exact` covers them by speaking about the
level handed to the splice-out.
-/

namespace NanoMatch

open IntrusiveList

/-- The true resting quantity of a queue. -/
def restingQty (slab : Slab) (slots : List Slot) : ℕ :=
  (slots.map fun slot => (slab slot).remaining).sum

structure LevelExact (slab : Slab) (level : PriceLevel) (slots : List Slot) : Prop where
  total : level.totalQty.toNat = restingQty slab slots
  count : level.orderCount.toNat = slots.length

structure BookExact (slab : Slab) (book : OrderBook) (queues : Queues) : Prop where
  level : ∀ side i, LevelExact slab (book.sideLevels side i) (queues side i)
  complete : ∀ side i, ∀ slot ∈ queues side i,
    book.findOrder (slab slot).orderId = some slot

section Quantities

variable {slab slab' : Slab} {slots before after : List Slot} {slot : Slot}

@[simp] theorem restingQty_nil (slab : Slab) : restingQty slab [] = 0 := rfl

@[simp] theorem restingQty_cons (slab : Slab) (slot : Slot) (slots : List Slot) :
    restingQty slab (slot :: slots) = (slab slot).remaining + restingQty slab slots := by
  simp [restingQty]

@[simp] theorem restingQty_append (slab : Slab) (slots slots' : List Slot) :
    restingQty slab (slots ++ slots') = restingQty slab slots + restingQty slab slots' := by
  simp [restingQty]

theorem restingQty_congr
    (hsame : ∀ slot ∈ slots, (slab' slot).quantity = (slab slot).quantity) :
    restingQty slab' slots = restingQty slab slots := by
  unfold restingQty
  congr 1
  apply List.map_congr_left
  intro slot hslot
  simp [Order.remaining, hsame slot hslot]

theorem remaining_setQuantity_of_ne {other : Slot} (hne : other ≠ slot)
    (quantity : Quantity) :
    (slab.setQuantity slot quantity other).remaining = (slab other).remaining := by
  simp [Order.remaining, hne]

theorem remaining_setQuantity_self (slab : Slab) (slot : Slot) (quantity : Quantity) :
    (slab.setQuantity slot quantity slot).remaining = quantity.toNat := by
  simp [Order.remaining]

theorem restingQty_setQuantity_of_notMem (hslot : slot ∉ slots) (quantity : Quantity) :
    restingQty (slab.setQuantity slot quantity) slots = restingQty slab slots := by
  apply restingQty_congr
  intro other hother
  have hne : other ≠ slot := by
    rintro rfl
    exact hslot hother
  simp [hne]

theorem length_le_restingQty (hpositive : ∀ slot ∈ slots, 0 < (slab slot).remaining) :
    slots.length ≤ restingQty slab slots := by
  induction slots with
  | nil => simp
  | cons slot slots ih =>
      have hhead := hpositive slot (by simp)
      have htail := ih (fun other hother => hpositive other (by simp [hother]))
      simp only [List.length_cons, restingQty_cons]
      omega

theorem not_mem_of_nodup_middle (hnodup : (before ++ slot :: after).Nodup) :
    slot ∉ before ++ after := by
  have hperm : (before ++ slot :: after).Perm (slot :: (before ++ after)) :=
    List.perm_middle
  exact (List.nodup_cons.mp (hperm.nodup_iff.mp hnodup)).1

theorem restingQty_setQuantity_middle (hnodup : (before ++ slot :: after).Nodup)
    (quantity : Quantity) :
    restingQty (slab.setQuantity slot quantity) (before ++ slot :: after) =
      restingQty slab (before ++ after) + quantity.toNat := by
  have hrest : restingQty (slab.setQuantity slot quantity) (before ++ after) =
      restingQty slab (before ++ after) :=
    restingQty_setQuantity_of_notMem (not_mem_of_nodup_middle hnodup) quantity
  simp only [restingQty_append, restingQty_cons, remaining_setQuantity_self] at hrest ⊢
  omega

end Quantities

/-- The cached aggregates are those of the queue. -/
def Aggregates.Exact (slab : Slab) (cached : Aggregates) (slots : List Slot) : Prop :=
  cached.totalQty.toNat = restingQty slab slots ∧ cached.orderCount.toNat = slots.length

namespace Aggregates.Exact

variable {slab slab' : Slab} {cached : Aggregates} {slots before after : List Slot}
  {slot : Slot}

theorem congr (hexact : cached.Exact slab slots)
    (hsame : ∀ slot ∈ slots, (slab' slot).quantity = (slab slot).quantity) :
    cached.Exact slab' slots :=
  ⟨hexact.1.trans (restingQty_congr hsame).symm, hexact.2⟩

theorem quantity_le_total (hexact : cached.Exact slab (before ++ slot :: after)) :
    (slab slot).quantity ≤ cached.totalQty := by
  have hsum := hexact.1
  simp only [restingQty_append, restingQty_cons, Order.remaining] at hsum
  rw [UInt32.le_iff_toNat_le]
  omega

theorem one_le_count (hexact : cached.Exact slab (before ++ slot :: after)) :
    1 ≤ cached.orderCount := by
  have hlength := hexact.2
  simp only [List.length_append, List.length_cons] at hlength
  rw [UInt32.le_iff_toNat_le]
  simp
  omega

/-- The guarded decrements of a splice-out are exact. -/
theorem removed (hexact : cached.Exact slab (before ++ slot :: after)) :
    (cached.removed (slab slot).quantity).Exact slab (before ++ after) := by
  have htotal := hexact.quantity_le_total
  have hcount := hexact.one_le_count
  have hsum := hexact.1
  have hlength := hexact.2
  simp only [restingQty_append, restingQty_cons, Order.remaining] at hsum
  simp only [List.length_append, List.length_cons] at hlength
  unfold Aggregates.removed
  constructor
  · simp only [htotal, if_true, restingQty_append]
    rw [UInt32.toNat_sub_of_le _ _ htotal]
    omega
  · simp only [hcount, if_true, List.length_append]
    rw [UInt32.toNat_sub_of_le _ _ hcount]
    simp
    omega

theorem added (hexact : cached.Exact slab slots)
    (hpositive : ∀ slot ∈ slots, 0 < (slab slot).remaining)
    (hslot : 0 < (slab slot).remaining)
    (hbound : restingQty slab slots + (slab slot).remaining < 2 ^ 32) :
    (cached.added (slab slot).quantity).Exact slab (slots ++ [slot]) := by
  have hsum := hexact.1
  have hlength := hexact.2
  have hle := length_le_restingQty hpositive
  unfold Aggregates.added
  constructor
  · rw [UInt32.toNat_add, hsum]
    simp only [restingQty_append, restingQty_cons, restingQty_nil, Order.remaining]
      at hbound ⊢
    rw [Nat.mod_eq_of_lt hbound]
    omega
  · rw [UInt32.toNat_add, hlength]
    simp only [List.length_append, List.length_singleton, UInt32.toNat_one]
    apply Nat.mod_eq_of_lt
    omega

end Aggregates.Exact

namespace LevelExact

variable {slab slab' : Slab} {level : PriceLevel} {slots before after : List Slot}
  {slot : Slot}

theorem congr (hexact : LevelExact slab level slots)
    (hsame : ∀ slot ∈ slots, (slab' slot).quantity = (slab slot).quantity) :
    LevelExact slab' level slots where
  total := hexact.total.trans (restingQty_congr hsame).symm
  count := hexact.count

theorem aggregates (hexact : LevelExact slab level slots) :
    Aggregates.Exact slab ⟨level.totalQty, level.orderCount⟩ slots :=
  ⟨hexact.total, hexact.count⟩

theorem levelRemove (hexact : LevelExact slab level (before ++ slot :: after)) :
    LevelExact slab (levelRemove slab level (some slot)).2 (before ++ after) := by
  obtain ⟨_, htotal, hcount⟩ := Queue.levelRemove_aggregates slab level slot
  have hremoved := hexact.aggregates.removed
  constructor
  · rw [htotal]
    exact hremoved.1
  · rw [hcount]
    exact hremoved.2

theorem debit (hexact : LevelExact slab level (before ++ slot :: after))
    (hnodup : (before ++ slot :: after).Nodup) {taken : Quantity}
    (htaken : taken ≤ (slab slot).quantity) {level' : PriceLevel}
    (htotal : level'.totalQty = level.totalQty - taken)
    (hcount : level'.orderCount = level.orderCount) :
    LevelExact (slab.setQuantity slot ((slab slot).quantity - taken)) level'
      (before ++ slot :: after) := by
  have hle := UInt32.le_trans htaken hexact.aggregates.quantity_le_total
  have hsum := hexact.total
  constructor
  · rw [htotal, UInt32.toNat_sub_of_le _ _ hle, hsum,
      restingQty_setQuantity_middle hnodup, UInt32.toNat_sub_of_le _ _ htaken]
    rw [UInt32.le_iff_toNat_le] at htaken
    simp only [restingQty_append, restingQty_cons, Order.remaining]
    omega
  · rw [hcount]
    exact hexact.count

theorem levelEnqueueTail (hexact : LevelExact slab level slots)
    (hpositive : ∀ slot ∈ slots, 0 < (slab slot).remaining)
    (hslot : 0 < (slab slot).remaining)
    (hbound : restingQty slab slots + (slab slot).remaining < 2 ^ 32) :
    LevelExact slab (levelEnqueueTail slab level (some slot)).2 (slots ++ [slot]) := by
  obtain ⟨_, htotal, hcount⟩ := Queue.levelEnqueueTail_aggregates slab level slot
  have hadded := hexact.aggregates.added hpositive hslot hbound
  constructor
  · rw [htotal]
    exact hadded.1
  · rw [hcount]
    exact hadded.2

end LevelExact

namespace BookExact

open OrderBook

variable {slab : Slab} {book : OrderBook} {queues : Queues} {side : BookSide}
  {i : ℕ} {slot : Slot} {before after : List Slot} {level : PriceLevel}

theorem detach (hshape : BookShape slab book queues)
    (hqueue : queues side i = before ++ slot :: after)
    (hlinked : Queue slab level (before ++ slot :: after))
    (hlevel : LevelExact slab level (before ++ slot :: after))
    (hothers : ∀ side' j, ¬ (side' = side ∧ j = i) →
      LevelExact slab (book.sideLevels side' j) (queues side' j))
    (hcomplete : ∀ side' j, ∀ other ∈ queues side' j,
      book.findOrder (slab other).orderId = some other)
    (status : OrderStatus) :
    BookExact (detach slab book side i level slot status).1
      (detach slab book side i level slot status).2
      (queues.set side i (before ++ after)) := by
  obtain ⟨_, _, hlevels, hindex, _⟩ :=
    BookShape.detach_book slab book side i level slot status
  have hrelinked := BookShape.detach_relinked hlinked book side i status
  have hslot : slot ∈ queues side i := by
    rw [hqueue]
    simp
  constructor
  · intro side' j
    rw [hlevels]
    by_cases hsame : side' = side ∧ j = i
    · obtain ⟨rfl, rfl⟩ := hsame
      rw [sideLevels_setLevel_same, Queues.set_same]
      exact hlevel.levelRemove.congr (fun other _ => hrelinked.quantity other)
    · rw [sideLevels_setLevel_of_ne _ _ _ _ _ _ hsame, Queues.set_of_ne _ _ hsame]
      exact (hothers side' j hsame).congr (fun other _ => hrelinked.quantity other)
  · intro side' j other hother
    have hmem := (hshape.mem_splice_iff hqueue).mp hother
    have hid : ∀ other, ((OrderBook.detach slab book side i level slot status).1
        other).orderId = (slab other).orderId := by
      intro other
      exact congrArg Order.Terms.orderId (hrelinked.terms other)
    have hidSlot : ((levelRemove slab level (some slot)).1 slot).orderId =
        (slab slot).orderId :=
      congrArg Order.Terms.orderId (hlinked.levelRemove_relinked.terms slot)
    have hne : (slab other).orderId ≠ (slab slot).orderId := by
      intro heq
      have hfound := hcomplete side i slot hslot
      rw [← heq, hcomplete side' j other hmem.1] at hfound
      exact hmem.2 (by simpa using hfound)
    unfold findOrder
    rw [hid, hindex, hidSlot, OrderIndex.find_erase_of_ne _ _ _ hne]
    exact hcomplete side' j other hmem.1

theorem addOrder (hshape : BookShape slab book queues)
    (hexact : BookExact slab book queues)
    (hpositive : ∀ side' j, ∀ other ∈ queues side' j, 0 < (slab other).remaining)
    (hvalid : book.grid.isValidPrice (slab slot).price = true)
    (hindex : book.grid.tickToIndex (slab slot).price = i)
    (hside : (slab slot).side.bookSide = side)
    (hquantity : 0 < (slab slot).remaining)
    (hbound : restingQty slab (queues side i) + (slab slot).remaining < 2 ^ 32)
    (hnew : book.findOrder (slab slot).orderId = none) :
    BookExact (addOrder slab book (some slot)).1 (addOrder slab book (some slot)).2
      (queues.set side i (queues side i ++ [slot])) := by
  obtain ⟨hslab, _, _, hlevels, horderIndex, _⟩ :=
    BookShape.addOrder_valid slab book slot hvalid hindex hside
  have hrelinked := hshape.addOrder_relinked hvalid hindex hside
  have hid : ∀ other, ((OrderBook.addOrder slab book (some slot)).1 other).orderId =
      (slab other).orderId := by
    intro other
    exact congrArg Order.Terms.orderId (hrelinked.terms other)
  constructor
  · intro side' j
    rw [hlevels]
    by_cases hsame : side' = side ∧ j = i
    · obtain ⟨rfl, rfl⟩ := hsame
      rw [sideLevels_setLevel_same, Queues.set_same]
      exact ((hexact.level side' j).levelEnqueueTail (hpositive side' j) hquantity
        hbound).congr (fun other _ => hrelinked.quantity other)
    · rw [sideLevels_setLevel_of_ne _ _ _ _ _ _ hsame, Queues.set_of_ne _ _ hsame]
      exact (hexact.level side' j).congr (fun other _ => hrelinked.quantity other)
  · intro side' j other hother
    have hmem : (side' = side ∧ j = i ∧ other = slot) ∨ other ∈ queues side' j := by
      by_cases hsame : side' = side ∧ j = i
      · obtain ⟨rfl, rfl⟩ := hsame
        rw [Queues.set_same] at hother
        rcases List.mem_append.mp hother with hold | hlast
        · exact Or.inr hold
        · exact Or.inl ⟨rfl, rfl, List.mem_singleton.mp hlast⟩
      · rw [Queues.set_of_ne _ _ hsame] at hother
        exact Or.inr hother
    unfold findOrder
    rw [horderIndex, ← hslab]
    rcases hmem with ⟨_, _, rfl⟩ | hold
    · apply OrderIndex.find_emplace_self
      rw [hid]
      exact (OrderIndex.find_eq_none_iff _ _).mp hnew
    · have hfound := hexact.complete side' j other hold
      rw [hid, OrderIndex.find_emplace_of_ne]
      · exact hfound
      · rw [hid]
        intro heq
        rw [heq, hnew] at hfound
        simp at hfound

end BookExact

/-! ## The size of a complete index -/

/-- All resting slots of a book with `n` levels. -/
def restingSlots (queues : Queues) (n : ℕ) : List Slot :=
  (List.range n).flatMap (queues .bid) ++ (List.range n).flatMap (queues .ask)

section IndexSize

variable {slab : Slab} {book : OrderBook} {queues : Queues} {slot : Slot}

theorem mem_restingSlots (hshape : BookShape slab book queues) :
    slot ∈ restingSlots queues book.grid.numLevels ↔ ∃ side i, slot ∈ queues side i := by
  unfold restingSlots
  simp only [List.mem_append, List.mem_flatMap, List.mem_range]
  constructor
  · rintro (⟨i, _, hslot⟩ | ⟨i, _, hslot⟩)
    · exact ⟨.bid, i, hslot⟩
    · exact ⟨.ask, i, hslot⟩
  · rintro ⟨side, i, hslot⟩
    have hrange := (hshape.placed side i slot hslot).range
    cases side with
    | bid => exact Or.inl ⟨i, hrange, hslot⟩
    | ask => exact Or.inr ⟨i, hrange, hslot⟩

theorem nodup_flatMap_queues (hshape : BookShape slab book queues) (side : BookSide)
    (n : ℕ) : ((List.range n).flatMap (queues side)).Nodup := by
  rw [List.nodup_flatMap]
  constructor
  · intro i _
    exact (hshape.linked side i).nodup
  · apply List.nodup_range.imp
    intro i j hne slot hi hj
    exact hne (hshape.level_unique hi hj).2.symm

theorem nodup_restingSlots (hshape : BookShape slab book queues) (n : ℕ) :
    (restingSlots queues n).Nodup := by
  unfold restingSlots
  rw [List.nodup_append]
  refine ⟨nodup_flatMap_queues hshape .bid n, nodup_flatMap_queues hshape .ask n, ?_⟩
  intro slot hbid other hask heq
  subst heq
  obtain ⟨i, _, hi⟩ := List.mem_flatMap.mp hbid
  obtain ⟨j, _, hj⟩ := List.mem_flatMap.mp hask
  have hside := (hshape.level_unique hi hj).1
  simp at hside

theorem liveOrderCount_eq (hshape : BookShape slab book queues)
    (hcomplete : ∀ side i, ∀ slot ∈ queues side i,
      book.findOrder (slab slot).orderId = some slot) :
    book.liveOrderCount = (restingSlots queues book.grid.numLevels).length := by
  have hkeys : ∀ id, id ∈ book.orderIndex.keys ↔
      id ∈ (restingSlots queues book.grid.numLevels).map
        (fun slot => (slab slot).orderId) := by
    intro id
    constructor
    · intro hid
      cases hfound : book.findOrder id with
      | none =>
          exact absurd hid ((OrderIndex.find_eq_none_iff _ _).mp hfound)
      | some slot =>
          obtain ⟨hresting, horder⟩ := hshape.indexed id slot hfound
          exact List.mem_map.mpr
            ⟨slot, (mem_restingSlots hshape).mpr hresting, horder⟩
    · intro hid
      obtain ⟨slot, hslot, rfl⟩ := List.mem_map.mp hid
      obtain ⟨side, i, hresting⟩ := (mem_restingSlots hshape).mp hslot
      by_contra hnot
      have hfound := hcomplete side i slot hresting
      have hnone := (OrderIndex.find_eq_none_iff _ _).mpr hnot
      rw [show book.findOrder (slab slot).orderId = none from hnone] at hfound
      simp at hfound
  have hnodup : ((restingSlots queues book.grid.numLevels).map
      (fun slot => (slab slot).orderId)).Nodup := by
    apply (List.nodup_map_iff_inj_on (nodup_restingSlots hshape _)).mpr
    intro slot hslot other hother heq
    obtain ⟨side, i, hresting⟩ := (mem_restingSlots hshape).mp hslot
    obtain ⟨side', j, hresting'⟩ := (mem_restingSlots hshape).mp hother
    have hfound := hcomplete side i slot hresting
    rw [heq, hcomplete side' j other hresting'] at hfound
    exact (Option.some.inj hfound).symm
  have hperm := (List.perm_ext_iff_of_nodup book.orderIndex.keys_nodup hnodup).mpr hkeys
  have hlength := hperm.length_eq
  rw [List.length_map] at hlength
  exact hlength

end IndexSize

end NanoMatch
