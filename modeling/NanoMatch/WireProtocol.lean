import NanoMatch.LittleEndian
import NanoMatch.MatchingEngine

/-!
# The inbound wire format

The packed little-endian structures of the protocol, as they are copied out of a
receive buffer and as a client writes them, and the inbound message each of them
stands for.
-/

namespace NanoMatch

open LittleEndian

/-- The first four bytes of every message. -/
structure WireHeader where
  msgType : UInt16
  msgLen : UInt16
  deriving DecidableEq, Repr

/-- `WireNewOrder` after its header; `pad` holds the two bytes of padding. -/
structure WireNewOrder where
  instrumentId : InstrumentId
  orderId : OrderId
  clientId : UInt64
  price : Int64
  quantity : Quantity
  side : UInt8
  orderType : UInt8
  pad : UInt16
  deriving DecidableEq

/-- `WireCancelOrder` after its header. -/
structure WireCancelOrder where
  instrumentId : InstrumentId
  orderId : OrderId
  deriving DecidableEq

/-- `sizeof(WireHeader)`. -/
def WireHeader.size : ℕ := 4

/-- `sizeof(WireNewOrder)`. -/
def WireNewOrder.size : ℕ := 40

/-- `sizeof(WireCancelOrder)`. -/
def WireCancelOrder.size : ℕ := 16

/-! ## Reading -/

def WireHeader.read (bytes : List UInt8) : WireHeader where
  msgType := UInt16.ofNat (field bytes 0 2)
  msgLen := UInt16.ofNat (field bytes 2 2)

def WireNewOrder.read (bytes : List UInt8) : WireNewOrder where
  instrumentId := UInt32.ofNat (field bytes 4 4)
  orderId := UInt64.ofNat (field bytes 8 8)
  clientId := UInt64.ofNat (field bytes 16 8)
  price := (UInt64.ofNat (field bytes 24 8)).toInt64
  quantity := UInt32.ofNat (field bytes 32 4)
  side := UInt8.ofNat (field bytes 36 1)
  orderType := UInt8.ofNat (field bytes 37 1)
  pad := UInt16.ofNat (field bytes 38 2)

def WireCancelOrder.read (bytes : List UInt8) : WireCancelOrder where
  instrumentId := UInt32.ofNat (field bytes 4 4)
  orderId := UInt64.ofNat (field bytes 8 8)

/-! ## Writing -/

def WireHeader.bytes (header : WireHeader) : List UInt8 :=
  toBytes 2 header.msgType.toNat ++ toBytes 2 header.msgLen.toNat

def WireNewOrder.bytes (wire : WireNewOrder) : List UInt8 :=
  WireHeader.bytes ⟨1, 40⟩ ++ toBytes 4 wire.instrumentId.toNat ++
    toBytes 8 wire.orderId.toNat ++ toBytes 8 wire.clientId.toNat ++
    toBytes 8 wire.price.toUInt64.toNat ++ toBytes 4 wire.quantity.toNat ++
    toBytes 1 wire.side.toNat ++ toBytes 1 wire.orderType.toNat ++ toBytes 2 wire.pad.toNat

def WireCancelOrder.bytes (wire : WireCancelOrder) : List UInt8 :=
  WireHeader.bytes ⟨2, 16⟩ ++ toBytes 4 wire.instrumentId.toNat ++
    toBytes 8 wire.orderId.toNat

/-! ## Messages -/

def WireNewOrder.message (wire : WireNewOrder) : InboundOrderMsg where
  kind := .newOrder
  orderId := wire.orderId
  price := wire.price.toInt
  quantity := wire.quantity
  instrumentId := wire.instrumentId
  clientId := wire.clientId
  side := wire.side
  type := wire.orderType

def WireCancelOrder.message (wire : WireCancelOrder) : InboundOrderMsg where
  kind := .cancel
  orderId := wire.orderId
  price := 0
  quantity := 0
  instrumentId := wire.instrumentId
  clientId := 0
  side := 0
  type := 0

/-- A valid inbound message on the wire. -/
inductive WireMessage where
  | newOrder (wire : WireNewOrder)
  | cancelOrder (wire : WireCancelOrder)
  deriving DecidableEq

namespace WireMessage

def bytes : WireMessage → List UInt8
  | .newOrder wire => wire.bytes
  | .cancelOrder wire => wire.bytes

def message : WireMessage → InboundOrderMsg
  | .newOrder wire => wire.message
  | .cancelOrder wire => wire.message

def header : WireMessage → WireHeader
  | .newOrder _ => ⟨1, 40⟩
  | .cancelOrder _ => ⟨2, 16⟩

end WireMessage

/-- The bytes of several messages, one after the other. -/
def streamBytes (wires : List WireMessage) : List UInt8 := wires.flatMap WireMessage.bytes

/-! ## Round trips -/

theorem WireHeader.read_bytes (header : WireHeader) (rest : List UInt8) :
    WireHeader.read (header.bytes ++ rest) = header := by
  simp [WireHeader.read, WireHeader.bytes, field_first, field_later]

theorem WireNewOrder.read_bytes (wire : WireNewOrder) (rest : List UInt8) :
    WireNewOrder.read (wire.bytes ++ rest) = wire := by
  simp [WireNewOrder.read, WireNewOrder.bytes, WireHeader.bytes, field_first, field_later]

theorem WireCancelOrder.read_bytes (wire : WireCancelOrder) (rest : List UInt8) :
    WireCancelOrder.read (wire.bytes ++ rest) = wire := by
  simp [WireCancelOrder.read, WireCancelOrder.bytes, WireHeader.bytes, field_first, field_later]

theorem toNat_msgType (bytes : List UInt8) :
    (WireHeader.read bytes).msgType.toNat = field bytes 0 2 := by
  have hlt := field_lt bytes 0 2
  simp [WireHeader.read]
  omega

theorem toNat_msgLen (bytes : List UInt8) :
    (WireHeader.read bytes).msgLen.toNat = field bytes 2 2 := by
  have hlt := field_lt bytes 2 2
  simp [WireHeader.read]
  omega

/-- The length of the shortest frame a message is parsed from. -/
def InboundOrderMsg.wireSize (msg : InboundOrderMsg) : ℕ :=
  if msg.kind = .newOrder then WireNewOrder.size else WireCancelOrder.size

theorem InboundOrderMsg.header_le_wireSize (msg : InboundOrderMsg) :
    WireHeader.size ≤ msg.wireSize := by
  unfold InboundOrderMsg.wireSize
  split_ifs <;> decide

theorem WireMessage.msgLen_eq (wire : WireMessage) :
    wire.header.msgLen.toNat = wire.message.wireSize := by
  cases wire <;> rfl

theorem WireMessage.length_bytes (wire : WireMessage) :
    wire.bytes.length = wire.message.wireSize := by
  rw [← wire.msgLen_eq]
  cases wire <;>
    simp [WireMessage.bytes, WireMessage.header, WireNewOrder.bytes, WireCancelOrder.bytes,
      WireHeader.bytes]

theorem WireMessage.read_header (wire : WireMessage) (rest : List UInt8) :
    WireHeader.read (wire.bytes ++ rest) = wire.header := by
  cases wire <;>
    simp only [WireMessage.bytes, WireMessage.header, WireNewOrder.bytes, WireCancelOrder.bytes,
      List.append_assoc, WireHeader.read_bytes]

end NanoMatch
