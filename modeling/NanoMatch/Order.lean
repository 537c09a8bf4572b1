import Mathlib.Tactic

/-!
# Orders and the slab they live in

The enumerations, the `Order` record and the memory of the engine.  An
`Order*` is an optional slot of the pool's slab, and the slab is a total
function from slots to orders.  A byte cast into an `enum class` may name no
enumerator, so `Side` and `OrderType` carry such bytes explicitly.

Prices are integers: the source subtracts a price only after it has been
compared with both ends of the grid, so the difference does not overflow.
Quantities are unsigned 32-bit words with wrapping arithmetic.
-/

namespace NanoMatch

abbrev OrderId := UInt64
abbrev InstrumentId := UInt32
abbrev Quantity := UInt32
abbrev Price := ℤ

/-- Position of an `Order` in the slab of the pool. -/
abbrev Slot := ℕ

/-- `Side`; `raw` is a byte which names no enumerator. -/
inductive Side where
  | buy
  | sell
  | raw (byte : UInt8)
  deriving DecidableEq, Repr

/-- The cast `static_cast<Side>(byte)`. -/
def Side.ofByte (byte : UInt8) : Side :=
  if byte = 0 then .buy else if byte = 1 then .sell else .raw byte

/-- `OrderType`; `raw` is a byte which names no enumerator. -/
inductive OrderType where
  | limit
  | market
  | ioc
  | fok
  | raw (byte : UInt8)
  deriving DecidableEq, Repr

/-- The cast `static_cast<OrderType>(byte)`. -/
def OrderType.ofByte (byte : UInt8) : OrderType :=
  if byte = 0 then .limit
  else if byte = 1 then .market
  else if byte = 2 then .ioc
  else if byte = 3 then .fok
  else .raw byte

inductive OrderStatus where
  | new
  | partialFilled
  | filled
  | cancelled
  | rejected
  deriving DecidableEq, Repr

def kInvalidOrderId : OrderId := 0
def kInvalidInstrumentId : InstrumentId := 0xFFFFFFFF
def kInvalidPrice : Price := -2 ^ 63

/-- One slot of the slab.  `next` threads the level queues and the free
list alike. -/
structure Order where
  orderId : OrderId
  price : Price
  timestampNs : UInt64
  quantity : Quantity
  origQuantity : Quantity
  instrumentId : InstrumentId
  side : Side
  type : OrderType
  status : OrderStatus
  next : Option Slot
  prev : Option Slot
  clientId : UInt64
  deriving DecidableEq, Repr

theorem Quantity.sub_pos {quantity taken : Quantity} (hle : taken ≤ quantity)
    (hne : taken ≠ quantity) : 0 < quantity - taken := by
  have hsub := UInt32.toNat_sub_of_le _ _ hle
  have hneNat : taken.toNat ≠ quantity.toNat := fun h => hne (UInt32.toNat_inj.mp h)
  rw [UInt32.le_iff_toNat_le] at hle
  rw [UInt32.lt_iff_toNat_lt, hsub]
  simp only [UInt32.toNat_zero]
  omega

theorem Quantity.ne_zero_of_pos {quantity : Quantity} (hpos : 0 < quantity) :
    quantity ≠ 0 := by
  rintro rfl
  exact absurd hpos (by decide)

namespace Order

def isBuy (order : Order) : Bool := order.side = .buy

def isSell (order : Order) : Bool := order.side = .sell

def isActive (order : Order) : Bool :=
  order.status = .new || order.status = .partialFilled

/-- `Order::reset`. -/
def reset : Order where
  orderId := kInvalidOrderId
  price := kInvalidPrice
  timestampNs := 0
  quantity := 0
  origQuantity := 0
  instrumentId := kInvalidInstrumentId
  side := .buy
  type := .limit
  status := .new
  next := none
  prev := none
  clientId := 0

/-- The content of freshly mapped, zero-filled storage. -/
def zeroed : Order :=
  { reset with price := 0, instrumentId := 0 }

/-- The fields an order keeps from its submission to its removal. -/
structure Terms where
  orderId : OrderId
  price : Price
  instrumentId : InstrumentId
  side : Side
  deriving DecidableEq, Repr

def terms (order : Order) : Terms where
  orderId := order.orderId
  price := order.price
  instrumentId := order.instrumentId
  side := order.side

/-- Remaining quantity as a natural number. -/
def remaining (order : Order) : ℕ := order.quantity.toNat

end Order

/-- The storage of the pool. -/
abbrev Slab := Slot → Order

namespace Slab

def nextOf (slab : Slab) (slot : Slot) : Option Slot := (slab slot).next
def prevOf (slab : Slab) (slot : Slot) : Option Slot := (slab slot).prev

def setNext (slab : Slab) (slot : Slot) (link : Option Slot) : Slab :=
  Function.update slab slot { slab slot with next := link }

def setPrev (slab : Slab) (slot : Slot) (link : Option Slot) : Slab :=
  Function.update slab slot { slab slot with prev := link }

def setQuantity (slab : Slab) (slot : Slot) (quantity : Quantity) : Slab :=
  Function.update slab slot { slab slot with quantity := quantity }

def setStatus (slab : Slab) (slot : Slot) (status : OrderStatus) : Slab :=
  Function.update slab slot { slab slot with status := status }

section Updates

variable (slab : Slab) (slot other : Slot) (link : Option Slot)

@[simp] theorem nextOf_setNext :
    (slab.setNext slot link).nextOf = Function.update slab.nextOf slot link := by
  funext node
  by_cases hnode : node = slot <;> simp [nextOf, setNext, Function.update, hnode]

@[simp] theorem prevOf_setNext :
    (slab.setNext slot link).prevOf = slab.prevOf := by
  funext node
  by_cases hnode : node = slot <;> simp [prevOf, setNext, Function.update, hnode]

@[simp] theorem nextOf_setPrev :
    (slab.setPrev slot link).nextOf = slab.nextOf := by
  funext node
  by_cases hnode : node = slot <;> simp [nextOf, setPrev, Function.update, hnode]

@[simp] theorem prevOf_setPrev :
    (slab.setPrev slot link).prevOf = Function.update slab.prevOf slot link := by
  funext node
  by_cases hnode : node = slot <;> simp [prevOf, setPrev, Function.update, hnode]

@[simp] theorem nextOf_setQuantity (quantity : Quantity) :
    (slab.setQuantity slot quantity).nextOf = slab.nextOf := by
  funext node
  by_cases hnode : node = slot <;> simp [nextOf, setQuantity, Function.update, hnode]

@[simp] theorem prevOf_setQuantity (quantity : Quantity) :
    (slab.setQuantity slot quantity).prevOf = slab.prevOf := by
  funext node
  by_cases hnode : node = slot <;> simp [prevOf, setQuantity, Function.update, hnode]

@[simp] theorem nextOf_setStatus (status : OrderStatus) :
    (slab.setStatus slot status).nextOf = slab.nextOf := by
  funext node
  by_cases hnode : node = slot <;> simp [nextOf, setStatus, Function.update, hnode]

@[simp] theorem prevOf_setStatus (status : OrderStatus) :
    (slab.setStatus slot status).prevOf = slab.prevOf := by
  funext node
  by_cases hnode : node = slot <;> simp [prevOf, setStatus, Function.update, hnode]

@[simp] theorem terms_setNext :
    (slab.setNext slot link other).terms = (slab other).terms := by
  by_cases hnode : other = slot <;> simp [setNext, Order.terms, Function.update, hnode]

@[simp] theorem terms_setPrev :
    (slab.setPrev slot link other).terms = (slab other).terms := by
  by_cases hnode : other = slot <;> simp [setPrev, Order.terms, Function.update, hnode]

@[simp] theorem terms_setQuantity (quantity : Quantity) :
    (slab.setQuantity slot quantity other).terms = (slab other).terms := by
  by_cases hnode : other = slot <;> simp [setQuantity, Order.terms, Function.update, hnode]

@[simp] theorem terms_setStatus (status : OrderStatus) :
    (slab.setStatus slot status other).terms = (slab other).terms := by
  by_cases hnode : other = slot <;> simp [setStatus, Order.terms, Function.update, hnode]

@[simp] theorem quantity_setNext :
    (slab.setNext slot link other).quantity = (slab other).quantity := by
  by_cases hnode : other = slot <;> simp [setNext, Function.update, hnode]

@[simp] theorem quantity_setPrev :
    (slab.setPrev slot link other).quantity = (slab other).quantity := by
  by_cases hnode : other = slot <;> simp [setPrev, Function.update, hnode]

@[simp] theorem quantity_setStatus (status : OrderStatus) :
    (slab.setStatus slot status other).quantity = (slab other).quantity := by
  by_cases hnode : other = slot <;> simp [setStatus, Function.update, hnode]

@[simp] theorem quantity_setQuantity (quantity : Quantity) :
    (slab.setQuantity slot quantity other).quantity =
      if other = slot then quantity else (slab other).quantity := by
  by_cases hnode : other = slot <;> simp [setQuantity, Function.update, hnode]

end Updates

end Slab

end NanoMatch
