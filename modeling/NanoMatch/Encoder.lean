import NanoMatch.WireProtocol

/-!
# The outbound wire format

`WireExecReport`, the encoder which fills it from an execution report, and the
decoder of a client.  The decoder looks at the type and at the size of the buffer; it
reads neither the length field nor the padding.
-/

namespace NanoMatch

open LittleEndian

/-- `WireExecReport` after its header; the padding is always zero. -/
structure WireExecReport where
  kind : UInt8
  orderId : OrderId
  counterpartOrderId : OrderId
  execPrice : Int64
  execQuantity : Quantity
  leavesQuantity : Quantity
  timestampNs : UInt64
  deriving DecidableEq

/-- `sizeof(WireExecReport)`. -/
def WireExecReport.size : ℕ := 48

def WireExecReport.bytes (wire : WireExecReport) : List UInt8 :=
  WireHeader.bytes ⟨16, 48⟩ ++ toBytes 1 wire.kind.toNat ++ toBytes 3 0 ++
    toBytes 8 wire.orderId.toNat ++ toBytes 8 wire.counterpartOrderId.toNat ++
    toBytes 8 wire.execPrice.toUInt64.toNat ++ toBytes 4 wire.execQuantity.toNat ++
    toBytes 4 wire.leavesQuantity.toNat ++ toBytes 8 wire.timestampNs.toNat

def WireExecReport.read (bytes : List UInt8) : WireExecReport where
  kind := UInt8.ofNat (field bytes 4 1)
  orderId := UInt64.ofNat (field bytes 8 8)
  counterpartOrderId := UInt64.ofNat (field bytes 16 8)
  execPrice := (UInt64.ofNat (field bytes 24 8)).toInt64
  execQuantity := UInt32.ofNat (field bytes 32 4)
  leavesQuantity := UInt32.ofNat (field bytes 36 4)
  timestampNs := UInt64.ofNat (field bytes 40 8)

/-- The cast `static_cast<uint8_t>(kind)`. -/
def ExecKind.byte : ExecKind → UInt8
  | .fill => 0
  | .partialFill => 1
  | .cancelAck => 2
  | .reject => 3
  | .raw byte => byte

/-- The cast `static_cast<ExecutionReport::Kind>(byte)`. -/
def ExecKind.ofByte (byte : UInt8) : ExecKind :=
  if byte = 0 then .fill
  else if byte = 1 then .partialFill
  else if byte = 2 then .cancelAck
  else if byte = 3 then .reject
  else .raw byte

namespace Encoder

def wireExecReport (report : ExecutionReport) : WireExecReport where
  kind := report.kind.byte
  orderId := report.orderId
  counterpartOrderId := report.counterpartOrderId
  execPrice := Int64.ofInt report.execPrice
  execQuantity := report.execQuantity
  leavesQuantity := report.leavesQuantity
  timestampNs := report.timestampNs

/-- The bytes `encode_exec_report` writes into its buffer. -/
def encodeExecReport (report : ExecutionReport) : List UInt8 := (wireExecReport report).bytes

/-- The report `decode_exec_report` writes into `out`, if it returns `true`. -/
def decodeExecReport (data : List UInt8) : Option ExecutionReport :=
  if data.length < WireExecReport.size then none
  else
    let wire := WireExecReport.read data
    if (WireHeader.read data).msgType ≠ 16 then none
    else some
      { kind := ExecKind.ofByte wire.kind
        orderId := wire.orderId
        counterpartOrderId := wire.counterpartOrderId
        execPrice := wire.execPrice.toInt
        execQuantity := wire.execQuantity
        leavesQuantity := wire.leavesQuantity
        timestampNs := wire.timestampNs }

theorem length_encodeExecReport (report : ExecutionReport) :
    (encodeExecReport report).length = WireExecReport.size := by
  simp [encodeExecReport, WireExecReport.bytes, WireHeader.bytes, WireExecReport.size]

end Encoder

/-! ## Round trips -/

@[simp] theorem ExecKind.byte_ofByte (byte : UInt8) : (ExecKind.ofByte byte).byte = byte := by
  unfold ExecKind.ofByte
  split_ifs with hfill hpartial hack hreject
  · exact hfill.symm
  · exact hpartial.symm
  · exact hack.symm
  · exact hreject.symm
  · rfl

theorem WireExecReport.read_bytes (wire : WireExecReport) (rest : List UInt8) :
    WireExecReport.read (wire.bytes ++ rest) = wire := by
  simp [WireExecReport.read, WireExecReport.bytes, WireHeader.bytes, field_first, field_later]

theorem WireExecReport.read_header (wire : WireExecReport) (rest : List UInt8) :
    WireHeader.read (wire.bytes ++ rest) = ⟨16, 48⟩ := by
  simp only [WireExecReport.bytes, List.append_assoc, WireHeader.read_bytes]

/-- The bytes of a record are those it was read from, if its header and its padding
are as the encoder writes them. -/
theorem WireExecReport.bytes_read {data : List UInt8} (hlength : WireExecReport.size ≤ data.length)
    (htype : field data 0 2 = 16) (hlen : field data 2 2 = 48) (hpad : field data 5 3 = 0) :
    (WireExecReport.read data).bytes = data.take WireExecReport.size := by
  unfold WireExecReport.size at hlength ⊢
  have hkind := field_lt data 4 1
  have horder := field_lt data 8 8
  have hcounterpart := field_lt data 16 8
  have hprice := field_lt data 24 8
  have hquantity := field_lt data 32 4
  have hleaves := field_lt data 36 4
  have htimestamp := field_lt data 40 8
  norm_num at hkind horder hcounterpart hprice hquantity hleaves htimestamp
  have hheader : WireHeader.bytes ⟨16, 48⟩ =
      toBytes 2 (field data 0 2) ++ toBytes 2 (field data 2 2) := by
    rw [htype, hlen]
    rfl
  have hfields : (WireExecReport.read data).bytes =
      toBytes 2 (field data 0 2) ++ toBytes 2 (field data 2 2) ++ toBytes 1 (field data 4 1) ++
        toBytes 3 (field data 5 3) ++ toBytes 8 (field data 8 8) ++ toBytes 8 (field data 16 8) ++
        toBytes 8 (field data 24 8) ++ toBytes 4 (field data 32 4) ++
        toBytes 4 (field data 36 4) ++ toBytes 8 (field data 40 8) := by
    unfold WireExecReport.bytes WireExecReport.read
    rw [hheader, hpad]
    simp only [UInt64.toUInt64_toInt64, UInt64.toNat_ofNat', UInt32.toNat_ofNat',
      UInt8.toNat_ofNat']
    simp (disch := omega) only [Nat.mod_eq_of_lt]
  have hsplit : data.take 48 =
      data.take (0 + 2 + 2 + 1 + 3 + 8 + 8 + 8 + 4 + 4 + 8) := by norm_num
  rw [hfields, hsplit]
  simp (disch := omega) only [toBytes_field, List.take_add, List.take_zero, List.nil_append]

namespace Encoder

theorem wireExecReport_decoded (wire : WireExecReport) :
    wireExecReport
      { kind := ExecKind.ofByte wire.kind
        orderId := wire.orderId
        counterpartOrderId := wire.counterpartOrderId
        execPrice := wire.execPrice.toInt
        execQuantity := wire.execQuantity
        leavesQuantity := wire.leavesQuantity
        timestampNs := wire.timestampNs } = wire := by
  simp [wireExecReport]

/-- Every report of the machine is read back from the bytes it is written as, whatever
follows them.  Conversely a buffer which is accepted starts with the bytes of the
report read from it, if its length field is 48 and its padding is zero. -/
theorem execReport_roundTrip :
    (∀ (kind : UInt8) (price : Int64) (report : ExecutionReport) (trailing : List UInt8),
      decodeExecReport
          (encodeExecReport
            { report with kind := ExecKind.ofByte kind, execPrice := price.toInt } ++ trailing) =
        some { report with kind := ExecKind.ofByte kind, execPrice := price.toInt }) ∧
      ∀ (data : List UInt8) (report : ExecutionReport), decodeExecReport data = some report →
        (WireHeader.read data).msgLen = 48 → (data.drop 5).take 3 = [0, 0, 0] →
        encodeExecReport report = data.take WireExecReport.size := by
  constructor
  · intro kind price report trailing
    unfold decodeExecReport
    rw [if_neg (by rw [List.length_append, length_encodeExecReport]; omega)]
    simp only [encodeExecReport, WireExecReport.read_bytes, WireExecReport.read_header]
    simp [wireExecReport]
  · intro data report hdecoded hlen hpad
    unfold decodeExecReport at hdecoded
    split_ifs at hdecoded with hshort htype
    have htype' : (WireHeader.read data).msgType = 16 := not_not.mp htype
    have hpads : field data 5 3 = 0 := by
      unfold field
      rw [hpad]
      rfl
    have hread := WireExecReport.bytes_read (not_lt.mp hshort)
      (by rw [← toNat_msgType, htype']; rfl) (by rw [← toNat_msgLen, hlen]; rfl) hpads
    simp only [Option.some.injEq] at hdecoded
    rw [← hdecoded, encodeExecReport, wireExecReport_decoded]
    exact hread

/-- A negative price, a kind byte without an enumerator and a byte behind the report. -/
theorem execReport_roundTrip_raw :
    decodeExecReport (encodeExecReport ⟨.raw 9, 1, 2, -5, 3, 4, 6⟩ ++ [255]) =
        some ⟨.raw 9, 1, 2, -5, 3, 4, 6⟩ ∧
      encodeExecReport ⟨.raw 9, 1, 2, -5, 3, 4, 6⟩ =
        (encodeExecReport ⟨.raw 9, 1, 2, -5, 3, 4, 6⟩ ++ [255]).take WireExecReport.size := by
  have hdecoded : decodeExecReport (encodeExecReport ⟨.raw 9, 1, 2, -5, 3, 4, 6⟩ ++ [255]) =
      some ⟨.raw 9, 1, 2, -5, 3, 4, 6⟩ :=
    execReport_roundTrip.1 9 (-5) ⟨.raw 9, 1, 2, -5, 3, 4, 6⟩ [255]
  exact ⟨hdecoded, execReport_roundTrip.2 _ _ hdecoded (by decide) (by decide)⟩

end Encoder

end NanoMatch
