import NanoMatch.IntrusiveList
import NanoMatch.Order

/-!
# Price levels

A `PriceLevel` heads an intrusive queue of resting orders and caches its
total quantity and its length.  The operations work on the slab and the level
together.  `Queue slab level slots` says that the queue of the level is
exactly `slots`; each operation has one lemma for the queue, one for the part
of the slab it leaves alone, and one for the cached aggregates.
-/

namespace NanoMatch

open IntrusiveList

structure PriceLevel where
  head : Option Slot
  tail : Option Slot
  price : Price
  totalQty : Quantity
  orderCount : UInt32
  deriving DecidableEq, Repr

def levelEmpty (level : PriceLevel) : Bool := level.head.isNone

/-- `o->prev->next = link`, or `head = link` when there is no predecessor. -/
def linkForward (slab : Slab) (level : PriceLevel) (prev link : Option Slot) :
    Slab × PriceLevel :=
  match prev with
  | some prev => (slab.setNext prev link, level)
  | none => (slab, { level with head := link })

/-- `o->next->prev = link`, or `tail = link` when there is no successor. -/
def linkBackward (slab : Slab) (level : PriceLevel) (next link : Option Slot) :
    Slab × PriceLevel :=
  match next with
  | some next => (slab.setPrev next link, level)
  | none => (slab, { level with tail := link })

/-- The guarded decrements of both aggregates. -/
def PriceLevel.discount (level : PriceLevel) (quantity : Quantity) : PriceLevel :=
  { level with
    totalQty := if quantity ≤ level.totalQty then level.totalQty - quantity else 0
    orderCount := if 1 ≤ level.orderCount then level.orderCount - 1 else 0 }

def levelEnqueueTail (slab : Slab) (level : PriceLevel) (order : Option Slot) :
    Slab × PriceLevel :=
  match order with
  | none => (slab, level)
  | some slot =>
      let slab := (slab.setNext slot none).setPrev slot level.tail
      let (slab, level) := linkForward slab level level.tail (some slot)
      (slab,
        { level with
          tail := some slot
          totalQty := level.totalQty + (slab slot).quantity
          orderCount := level.orderCount + 1 })

def levelDequeueHead (slab : Slab) (level : PriceLevel) :
    Option Slot × Slab × PriceLevel :=
  match level.head with
  | none => (none, slab, level)
  | some slot =>
      let level := { level with head := (slab slot).next }
      let (slab, level) := linkBackward slab level level.head none
      let level := level.discount (slab slot).quantity
      (some slot, (slab.setNext slot none).setPrev slot none, level)

def levelRemove (slab : Slab) (level : PriceLevel) (order : Option Slot) :
    Slab × PriceLevel :=
  match order with
  | none => (slab, level)
  | some slot =>
      let (slab, level) := linkForward slab level (slab slot).prev (slab slot).next
      let (slab, level) := linkBackward slab level (slab slot).next (slab slot).prev
      let level := level.discount (slab slot).quantity
      ((slab.setNext slot none).setPrev slot none, level)

def levelReduceQty (slab : Slab) (level : PriceLevel) (order : Option Slot)
    (delta : Quantity) : Slab × PriceLevel :=
  match order with
  | none => (slab, level)
  | some slot =>
      let quantity := (slab slot).quantity
      (slab.setQuantity slot (if delta ≤ quantity then quantity - delta else 0),
        { level with
          totalQty := if delta ≤ level.totalQty then level.totalQty - delta else 0 })

/-- The queue of `level` is exactly `slots`. -/
def Queue (slab : Slab) (level : PriceLevel) (slots : List Slot) : Prop :=
  DoublyLinked slab.nextOf slab.prevOf level.head level.tail slots

/-- The slabs differ at most in the links and the status of `slots`. -/
structure Relinked (slots : List Slot) (slab slab' : Slab) : Prop where
  outside : ∀ slot, slot ∉ slots → slab' slot = slab slot
  terms : ∀ slot, (slab' slot).terms = (slab slot).terms
  quantity : ∀ slot, (slab' slot).quantity = (slab slot).quantity

namespace Relinked

variable {slab slab' slab'' : Slab} {slots : List Slot}

theorem trans (hfirst : Relinked slots slab slab')
    (hsecond : Relinked slots slab' slab'') : Relinked slots slab slab'' where
  outside slot hslot := (hsecond.outside slot hslot).trans (hfirst.outside slot hslot)
  terms slot := (hsecond.terms slot).trans (hfirst.terms slot)
  quantity slot := (hsecond.quantity slot).trans (hfirst.quantity slot)

theorem setNext (slab : Slab) {slot : Slot} (hslot : slot ∈ slots)
    (link : Option Slot) : Relinked slots slab (slab.setNext slot link) where
  outside other hother := by
    apply Function.update_of_ne
    rintro rfl
    exact hother hslot
  terms other := by simp
  quantity other := by simp

theorem setPrev (slab : Slab) {slot : Slot} (hslot : slot ∈ slots)
    (link : Option Slot) : Relinked slots slab (slab.setPrev slot link) where
  outside other hother := by
    apply Function.update_of_ne
    rintro rfl
    exact hother hslot
  terms other := by simp
  quantity other := by simp

theorem setStatus (slab : Slab) {slot : Slot} (hslot : slot ∈ slots)
    (status : OrderStatus) : Relinked slots slab (slab.setStatus slot status) where
  outside other hother := by
    apply Function.update_of_ne
    rintro rfl
    exact hother hslot
  terms other := by simp
  quantity other := by simp

theorem linkForward (slab : Slab) (level : PriceLevel) {prev : Option Slot}
    (hprev : ∀ slot, prev = some slot → slot ∈ slots) (link : Option Slot) :
    Relinked slots slab (linkForward slab level prev link).1 := by
  cases prev with
  | none => exact ⟨fun _ _ => rfl, fun _ => rfl, fun _ => rfl⟩
  | some slot => exact setNext slab (hprev slot rfl) link

theorem linkBackward (slab : Slab) (level : PriceLevel) {next : Option Slot}
    (hnext : ∀ slot, next = some slot → slot ∈ slots) (link : Option Slot) :
    Relinked slots slab (linkBackward slab level next link).1 := by
  cases next with
  | none => exact ⟨fun _ _ => rfl, fun _ => rfl, fun _ => rfl⟩
  | some slot => exact setPrev slab (hnext slot rfl) link

end Relinked

namespace Queue

variable {slab slab' : Slab} {level : PriceLevel} {slots before after : List Slot}
  {slot : Slot}

theorem nodup (hqueue : Queue slab level slots) : slots.Nodup :=
  DoublyLinked.nodup hqueue

theorem levelEmpty_iff (hqueue : Queue slab level slots) :
    levelEmpty level = true ↔ slots = [] := by
  unfold levelEmpty
  rw [DoublyLinked.head_eq hqueue]
  cases slots <;> simp

theorem congr (hqueue : Queue slab level slots)
    (hsame : ∀ slot ∈ slots, slab' slot = slab slot) :
    Queue slab' level slots := by
  apply DoublyLinked.congr hqueue
  · intro slot hslot
    simp [Slab.nextOf, hsame slot hslot]
  · intro slot hslot
    simp [Slab.prevOf, hsame slot hslot]

theorem linkForward_eq (slab : Slab) (level : PriceLevel) (prev link : Option Slot) :
    (linkForward slab level prev link).1.nextOf =
        (redirect slab.nextOf level.head prev link).1 ∧
      (linkForward slab level prev link).1.prevOf = slab.prevOf ∧
      (linkForward slab level prev link).2 =
        { level with head := (redirect slab.nextOf level.head prev link).2 } := by
  cases prev <;> simp [linkForward, redirect]

theorem linkBackward_eq (slab : Slab) (level : PriceLevel) (next link : Option Slot) :
    (linkBackward slab level next link).1.prevOf =
        (redirect slab.prevOf level.tail next link).1 ∧
      (linkBackward slab level next link).1.nextOf = slab.nextOf ∧
      (linkBackward slab level next link).2 =
        { level with tail := (redirect slab.prevOf level.tail next link).2 } := by
  cases next <;> simp [linkBackward, redirect]

theorem linkForward_self
    (hqueue : Queue slab level (before ++ slot :: after)) :
    ((linkForward slab level (slab slot).prev (slab slot).next).1 slot).next =
        (slab slot).next ∧
      ((linkForward slab level (slab slot).prev (slab slot).next).1 slot).prev =
        (slab slot).prev := by
  obtain ⟨hnext, hprev, _⟩ :=
    linkForward_eq slab level (slab slot).prev (slab slot).next
  refine ⟨?_, congrFun hprev slot⟩
  have heq := congrFun hnext slot
  rw [redirect_fst_of_notMem] at heq
  · exact heq
  · intro hself
    have hlast : before.getLast? = some slot := by
      rw [← DoublyLinked.prev_eq hqueue]
      exact hself
    have hmem : slot ∈ before := List.mem_of_getLast? hlast
    exact (List.nodup_append.mp hqueue.nodup).2.2 slot hmem slot (by simp) rfl

/-- Splicing a queued order out of its level, whether it stands at the head,
at the tail or between two others. -/
theorem levelRemove
    (hqueue : Queue slab level (before ++ slot :: after)) :
    Queue (levelRemove slab level (some slot)).1
      (levelRemove slab level (some slot)).2 (before ++ after) := by
  have hnotMem : slot ∉ before ++ after := by
    have hnodup := hqueue.nodup
    have hperm : (before ++ slot :: after).Perm (slot :: (before ++ after)) :=
      List.perm_middle
    exact (List.nodup_cons.mp (hperm.nodup_iff.mp hnodup)).1
  have hsplice := DoublyLinked.splice hqueue
  obtain ⟨hselfNext, hselfPrev⟩ := hqueue.linkForward_self
  obtain ⟨hnext, hprev, hlevel⟩ :=
    linkForward_eq slab level (slab slot).prev (slab slot).next
  set front := linkForward slab level (slab slot).prev (slab slot).next
  obtain ⟨hprev', hnext', hlevel'⟩ :=
    linkBackward_eq front.1 front.2 (front.1 slot).next (front.1 slot).prev
  set back := linkBackward front.1 front.2 (front.1 slot).next (front.1 slot).prev
  have hresult : NanoMatch.levelRemove slab level (some slot) =
      ((back.1.setNext slot none).setPrev slot none,
        back.2.discount (back.1 slot).quantity) := rfl
  rw [hresult]
  unfold Queue
  simp only [Slab.nextOf_setPrev, Slab.nextOf_setNext, Slab.prevOf_setPrev,
    Slab.prevOf_setNext, PriceLevel.discount]
  apply DoublyLinked.update_of_notMem _ hnotMem
  rw [hnext', hprev', hlevel', hselfNext, hselfPrev, hnext, hprev, hlevel]
  exact hsplice

theorem levelEnqueueTail
    (hqueue : Queue slab level slots) (hslot : slot ∉ slots) :
    Queue (levelEnqueueTail slab level (some slot)).1
      (levelEnqueueTail slab level (some slot)).2 (slots ++ [slot]) := by
  have happend := DoublyLinked.append hqueue hslot
  obtain ⟨hnext, hprev, hlevel⟩ :=
    linkForward_eq ((slab.setNext slot none).setPrev slot level.tail) level
      level.tail (some slot)
  set front := linkForward ((slab.setNext slot none).setPrev slot level.tail)
    level level.tail (some slot)
  have hresult : NanoMatch.levelEnqueueTail slab level (some slot) =
      (front.1,
        { front.2 with
          tail := some slot
          totalQty := front.2.totalQty + (front.1 slot).quantity
          orderCount := front.2.orderCount + 1 }) := rfl
  rw [hresult]
  unfold Queue
  simp only [hnext, hprev, hlevel, Slab.nextOf_setPrev, Slab.nextOf_setNext,
    Slab.prevOf_setPrev, Slab.prevOf_setNext]
  exact happend

theorem levelRemove_relinked
    (hqueue : Queue slab level (before ++ slot :: after)) :
    Relinked (before ++ slot :: after) slab
      (NanoMatch.levelRemove slab level (some slot)).1 := by
  have hself : slot ∈ before ++ slot :: after := by simp
  have hprev : ∀ other, (slab slot).prev = some other →
      other ∈ before ++ slot :: after := by
    intro other hother
    have hlast := DoublyLinked.prev_eq hqueue
    rw [show slab.prevOf slot = some other from hother] at hlast
    simp [List.mem_of_getLast? hlast.symm]
  have hnext : ∀ other, ((linkForward slab level (slab slot).prev
      (slab slot).next).1 slot).next = some other →
      other ∈ before ++ slot :: after := by
    intro other hother
    rw [hqueue.linkForward_self.1] at hother
    have hfirst := DoublyLinked.next_eq hqueue
    rw [show slab.nextOf slot = some other from hother] at hfirst
    simp [List.mem_of_head? hfirst.symm]
  have hfront := Relinked.linkForward slab level hprev (slab slot).next
  have hback := Relinked.linkBackward
    (linkForward slab level (slab slot).prev (slab slot).next).1
    (linkForward slab level (slab slot).prev (slab slot).next).2 hnext
    ((linkForward slab level (slab slot).prev (slab slot).next).1 slot).prev
  exact ((hfront.trans hback).trans (Relinked.setNext _ hself none)).trans
    (Relinked.setPrev _ hself none)

theorem levelEnqueueTail_relinked (hqueue : Queue slab level slots) (slot : Slot) :
    Relinked (slot :: slots) slab
      (NanoMatch.levelEnqueueTail slab level (some slot)).1 := by
  have hself : slot ∈ slot :: slots := by simp
  have htail : ∀ other, level.tail = some other → other ∈ slot :: slots := by
    intro other hother
    have hlast := DoublyLinked.tail_eq hqueue
    rw [hother] at hlast
    simp [List.mem_of_getLast? hlast.symm]
  exact ((Relinked.setNext slab hself none).trans
    (Relinked.setPrev _ hself level.tail)).trans
    (Relinked.linkForward _ level htail (some slot))

theorem linkForward_quantity (slab : Slab) (level : PriceLevel)
    (prev link : Option Slot) (slot : Slot) :
    ((linkForward slab level prev link).1 slot).quantity = (slab slot).quantity := by
  cases prev <;> simp [linkForward]

theorem linkBackward_quantity (slab : Slab) (level : PriceLevel)
    (next link : Option Slot) (slot : Slot) :
    ((linkBackward slab level next link).1 slot).quantity = (slab slot).quantity := by
  cases next <;> simp [linkBackward]

theorem linkForward_terms (slab : Slab) (level : PriceLevel) (prev link : Option Slot)
    (slot : Slot) :
    ((linkForward slab level prev link).1 slot).terms = (slab slot).terms := by
  cases prev <;> simp [linkForward]

theorem linkBackward_terms (slab : Slab) (level : PriceLevel) (next link : Option Slot)
    (slot : Slot) :
    ((linkBackward slab level next link).1 slot).terms = (slab slot).terms := by
  cases next <;> simp [linkBackward]

theorem levelRemove_terms (slab : Slab) (level : PriceLevel) (slot other : Slot) :
    ((NanoMatch.levelRemove slab level (some slot)).1 other).terms = (slab other).terms := by
  simp only [NanoMatch.levelRemove, Slab.terms_setPrev, Slab.terms_setNext,
    linkBackward_terms, linkForward_terms]

theorem levelEnqueueTail_terms (slab : Slab) (level : PriceLevel) (slot other : Slot) :
    ((NanoMatch.levelEnqueueTail slab level (some slot)).1 other).terms =
      (slab other).terms := by
  simp only [NanoMatch.levelEnqueueTail, linkForward_terms, Slab.terms_setPrev,
    Slab.terms_setNext]

theorem levelDequeueHead_terms (slab : Slab) (level : PriceLevel) (other : Slot) :
    ((levelDequeueHead slab level).2.1 other).terms = (slab other).terms := by
  unfold levelDequeueHead
  cases level.head with
  | none => rfl
  | some slot => simp only [Slab.terms_setPrev, Slab.terms_setNext, linkBackward_terms]

theorem levelRemove_aggregates (slab : Slab) (level : PriceLevel) (slot : Slot) :
    (NanoMatch.levelRemove slab level (some slot)).2.price = level.price ∧
      (NanoMatch.levelRemove slab level (some slot)).2.totalQty =
        (level.discount (slab slot).quantity).totalQty ∧
      (NanoMatch.levelRemove slab level (some slot)).2.orderCount =
        (level.discount (slab slot).quantity).orderCount := by
  simp only [NanoMatch.levelRemove, PriceLevel.discount, linkBackward_quantity,
    linkForward_quantity, (linkForward_eq _ _ _ _).2.2, (linkBackward_eq _ _ _ _).2.2,
    and_self]

theorem levelEnqueueTail_aggregates (slab : Slab) (level : PriceLevel) (slot : Slot) :
    (NanoMatch.levelEnqueueTail slab level (some slot)).2.price = level.price ∧
      (NanoMatch.levelEnqueueTail slab level (some slot)).2.totalQty =
        level.totalQty + (slab slot).quantity ∧
      (NanoMatch.levelEnqueueTail slab level (some slot)).2.orderCount =
        level.orderCount + 1 := by
  simp only [NanoMatch.levelEnqueueTail, linkForward_quantity,
    (linkForward_eq _ _ _ _).2.2, Slab.quantity_setPrev, Slab.quantity_setNext,
    and_self]

theorem levelDequeueHead_eq
    (hqueue : Queue slab level (slot :: slots)) :
    levelDequeueHead slab level =
      (some slot, NanoMatch.levelRemove slab level (some slot)) := by
  have hhead : level.head = some slot := DoublyLinked.head_eq hqueue
  have hqueue' : Queue slab level ([] ++ slot :: slots) := hqueue
  have hprev : (slab slot).prev = none := DoublyLinked.prev_eq hqueue'
  simp only [levelDequeueHead, hhead, NanoMatch.levelRemove, hprev, linkForward]

end Queue

end NanoMatch
