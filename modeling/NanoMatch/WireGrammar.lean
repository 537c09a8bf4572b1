import NanoMatch.Decoder
import NanoMatch.Framing

/-!
# The grammar of a span

A span is in one way a run of complete frames and a rest.  The decoder pushes the
messages of these frames, in their order and nothing else, whatever the lengths
and types in the headers say.

The decoder of the previous file works on the bytes which are left.  Here its
pointer is an offset into the span, and a copy which would touch a byte at or
beyond the end of the span fails, as does a loop which uses up its bound.  Neither
ever happens.
-/

namespace NanoMatch

open LittleEndian

/-! ## Reads inside the span -/

namespace Decoder

/-- `memcpy` of `size` bytes from `ptr = data + offset`. -/
def copyAt (span : List UInt8) (offset size : ℕ) : Option (List UInt8) :=
  if offset + size ≤ span.length then some ((span.drop offset).take size) else none

def parseNewOrderAt (span : List UInt8) (offset : ℕ) (len : UInt16) :
    Option (Option InboundOrderMsg) :=
  if len.toNat < WireNewOrder.size then some none
  else (copyAt span offset WireNewOrder.size).map fun data =>
    some (WireNewOrder.read data).message

def parseCancelOrderAt (span : List UInt8) (offset : ℕ) (len : UInt16) :
    Option (Option InboundOrderMsg) :=
  if len.toNat < WireCancelOrder.size then some none
  else (copyAt span offset WireCancelOrder.size).map fun data =>
    some (WireCancelOrder.read data).message

def parseFrameAt (decoder : Decoder) (span : List UInt8) (hdr : WireHeader) (offset : ℕ) :
    Option (Decoder × Option InboundOrderMsg) :=
  if hdr.msgType = 1 then (parseNewOrderAt span offset hdr.msgLen).map (decoder, ·)
  else if hdr.msgType = 2 then (parseCancelOrderAt span offset hdr.msgLen).map (decoder, ·)
  else some (decoder.countError, none)

/-- The loop with its pointer at `offset`. -/
def decodeLoopAt (span : List UInt8) : ℕ → Decoder × ℕ → ℕ → Option (Decoder × ℕ)
  | 0, state, offset => if offset + WireHeader.size ≤ span.length then none else some state
  | bound + 1, (decoder, count), offset =>
      if offset + WireHeader.size ≤ span.length then do
        let hdr := WireHeader.read (← copyAt span offset WireHeader.size)
        if hdr.msgLen.toNat < WireHeader.size ∨ span.length - offset < hdr.msgLen.toNat then
          some (decoder.countError, count)
        else
          let (decoder, msg) ← decoder.parseFrameAt span hdr offset
          decodeLoopAt span bound (decoder.accept count msg) (offset + hdr.msgLen.toNat)
      else some (decoder, count)

def decodeSpanAt (decoder : Decoder) (span : List UInt8) : Option (Decoder × ℕ) :=
  let decoder := { decoder with spansSeen := decoder.spansSeen + 1 }
  if span = [] then some (decoder, 0) else decodeLoopAt span span.length (decoder, 0) 0

theorem copyAt_eq {span : List UInt8} {offset size : ℕ}
    (hinside : offset + size ≤ span.length) :
    copyAt span offset size = some ((span.drop offset).take size) := by
  unfold copyAt
  rw [if_pos hinside]

theorem header_copy (span : List UInt8) (offset : ℕ) :
    WireHeader.read ((span.drop offset).take WireHeader.size) =
      WireHeader.read (span.drop offset) := by
  unfold WireHeader.read WireHeader.size
  simp (disch := norm_num) only [field_take]

theorem newOrder_copy (span : List UInt8) (offset : ℕ) :
    WireNewOrder.read ((span.drop offset).take WireNewOrder.size) =
      WireNewOrder.read (span.drop offset) := by
  unfold WireNewOrder.read WireNewOrder.size
  simp (disch := norm_num) only [field_take]

theorem cancelOrder_copy (span : List UInt8) (offset : ℕ) :
    WireCancelOrder.read ((span.drop offset).take WireCancelOrder.size) =
      WireCancelOrder.read (span.drop offset) := by
  unfold WireCancelOrder.read WireCancelOrder.size
  simp (disch := norm_num) only [field_take]

/-- A frame which fits is parsed from its own bytes. -/
theorem parseFrameAt_eq (decoder : Decoder) (span : List UInt8) (hdr : WireHeader)
    {offset : ℕ} (hoffset : offset ≤ span.length)
    (hfits : hdr.msgLen.toNat ≤ span.length - offset) :
    decoder.parseFrameAt span hdr offset =
      some (decoder.parseFrame hdr (span.drop offset)) := by
  unfold parseFrameAt parseFrame parseNewOrderAt parseNewOrder parseCancelOrderAt
    parseCancelOrder
  split_ifs with hnew hshort hcancel hshort
  · rfl
  · rw [copyAt_eq (by omega), Option.map_some, Option.map_some, newOrder_copy]
  · rfl
  · rw [copyAt_eq (by omega), Option.map_some, Option.map_some, cancelOrder_copy]
  · rfl

/-- No copy leaves the span, and the bound is never what ends the loop. -/
theorem decodeLoopAt_eq (span : List UInt8) (bound : ℕ) (state : Decoder × ℕ) {offset : ℕ}
    (hoffset : offset ≤ span.length) (hbound : span.length - offset ≤ bound) :
    decodeLoopAt span bound state offset =
      some (decodeLoop bound state (span.drop offset)) := by
  induction bound generalizing state offset with
  | zero =>
      unfold decodeLoopAt decodeLoop
      rw [if_neg]
      unfold WireHeader.size
      omega
  | succ bound ih =>
      rcases state with ⟨decoder, count⟩
      rw [decodeLoopAt, decodeLoop, List.length_drop]
      by_cases hheader : offset + WireHeader.size ≤ span.length
      · rw [if_pos hheader, if_neg (by omega), copyAt_eq hheader]
        simp only [Option.bind_eq_bind, Option.bind_some, header_copy]
        generalize WireHeader.read (span.drop offset) = hdr
        split_ifs with hcorrupt
        · rfl
        · rw [not_or, not_lt, not_lt] at hcorrupt
          unfold WireHeader.size at hcorrupt
          rw [parseFrameAt_eq decoder span hdr hoffset hcorrupt.2]
          simp only [Option.bind_some]
          rw [ih _ (by omega) (by omega), List.drop_drop]
      · rw [if_neg hheader, if_pos (by omega)]

theorem decodeSpanAt_eq (decoder : Decoder) (span : List UInt8) :
    decoder.decodeSpanAt span = some (decoder.decodeSpan span) := by
  unfold decodeSpanAt decodeSpan
  split_ifs with hempty
  · rfl
  · rw [decodeLoopAt_eq span _ _ (Nat.zero_le _) (by simp), List.drop_zero]

end Decoder

/-! ## Frames -/

/-- A complete frame: the length in its header is its own length. -/
def IsWireFrame (bytes : List UInt8) : Prop :=
  WireHeader.size ≤ bytes.length ∧ field bytes 2 2 = bytes.length

/-- No complete frame stands at the front. -/
def IsWireRest (bytes : List UInt8) : Prop :=
  bytes.length < WireHeader.size ∨ field bytes 2 2 < WireHeader.size ∨
    bytes.length < field bytes 2 2

structure WireSplit (span : List UInt8) (frames : List (List UInt8)) (rest : List UInt8) :
    Prop where
  span_eq : span = frames.flatten ++ rest
  complete : ∀ frame ∈ frames, IsWireFrame frame
  rest : IsWireRest rest

/-- The message a frame stands for, field by field. -/
def frameMessage (frame : List UInt8) : Option InboundOrderMsg :=
  if field frame 0 2 = 1 ∧ 40 ≤ frame.length then
    some
      { kind := .newOrder
        orderId := UInt64.ofNat (field frame 8 8)
        price := signed 8 (field frame 24 8)
        quantity := UInt32.ofNat (field frame 32 4)
        instrumentId := UInt32.ofNat (field frame 4 4)
        clientId := UInt64.ofNat (field frame 16 8)
        side := UInt8.ofNat (field frame 36 1)
        type := UInt8.ofNat (field frame 37 1) }
  else if field frame 0 2 = 2 ∧ 16 ≤ frame.length then
    some
      { kind := .cancel
        orderId := UInt64.ofNat (field frame 8 8)
        price := 0
        quantity := 0
        instrumentId := UInt32.ofNat (field frame 4 4)
        clientId := 0
        side := 0
        type := 0 }
  else none

/-- The length field of the header, if a frame of that length is there. -/
def wireFraming : Framing UInt8 where
  next bytes :=
    if bytes.length < WireHeader.size ∨ field bytes 2 2 < WireHeader.size ∨
      bytes.length < field bytes 2 2 then none else some (field bytes 2 2)
  bounds := by
    intro stream n hnext
    split_ifs at hnext with hrest
    rw [Option.some.injEq] at hnext
    unfold WireHeader.size at hrest
    omega
  front := by
    intro stream n hnext rest
    split_ifs at hnext with hrest
    rw [Option.some.injEq] at hnext
    unfold WireHeader.size at hrest
    have hlength : (stream.take n).length = n := by
      rw [List.length_take]
      omega
    have hfield : field (stream.take n ++ rest) 2 2 = n := by
      rw [field_append rest (by omega), field_take stream (by omega)]
      exact hnext
    rw [hfield, if_neg]
    rw [List.length_append, hlength]
    unfold WireHeader.size
    omega

theorem isWireFrame_iff (frame : List UInt8) :
    IsWireFrame frame ↔ wireFraming.IsFrame frame := by
  unfold IsWireFrame Framing.IsFrame wireFraming
  simp only
  constructor
  · intro hframe
    rw [hframe.2, if_neg]
    omega
  · intro hnext
    split_ifs at hnext with hrest
    rw [Option.some.injEq] at hnext
    exact ⟨by omega, hnext⟩

theorem isWireRest_iff (rest : List UInt8) : IsWireRest rest ↔ wireFraming.next rest = none := by
  unfold IsWireRest wireFraming
  simp only [ite_eq_left_iff, reduceCtorEq, imp_false, not_not]

theorem wireSplit_iff (span : List UInt8) (frames : List (List UInt8)) (rest : List UInt8) :
    WireSplit span frames rest ↔ wireFraming.Splits span frames rest := by
  constructor
  · intro hsplit
    refine ⟨hsplit.span_eq, ?_, (isWireRest_iff rest).mp hsplit.rest⟩
    intro frame hframe
    exact (isWireFrame_iff frame).mp (hsplit.complete frame hframe)
  · intro hsplits
    refine ⟨hsplits.stream_eq, ?_, (isWireRest_iff rest).mpr hsplits.stuck⟩
    intro frame hframe
    exact (isWireFrame_iff frame).mpr (hsplits.isFrame frame hframe)

/-! ## Decoding frame by frame -/

theorem toInt_price {n : ℕ} (hlt : n < 256 ^ 8) :
    (UInt64.ofNat n).toInt64.toInt = signed 8 n := by
  have hbits : (UInt64.ofNat n).toInt64.toInt = (BitVec.ofNat 64 n).toInt := rfl
  have hmod : n % 2 ^ 64 = n := Nat.mod_eq_of_lt (by norm_num at hlt ⊢; exact hlt)
  rw [hbits, BitVec.toInt_eq_toNat_cond, BitVec.toNat_ofNat, hmod]
  unfold signed
  norm_num

theorem WireNewOrder.read_append {frame : List UInt8} (rest : List UInt8)
    (hlength : WireNewOrder.size ≤ frame.length) :
    WireNewOrder.read (frame ++ rest) = WireNewOrder.read frame := by
  unfold WireNewOrder.size at hlength
  unfold WireNewOrder.read
  simp (disch := omega) only [field_append]

theorem WireCancelOrder.read_append {frame : List UInt8} (rest : List UInt8)
    (hlength : WireCancelOrder.size ≤ frame.length) :
    WireCancelOrder.read (frame ++ rest) = WireCancelOrder.read frame := by
  unfold WireCancelOrder.size at hlength
  unfold WireCancelOrder.read
  simp (disch := omega) only [field_append]

theorem WireNewOrder.message_read (bytes : List UInt8) :
    (WireNewOrder.read bytes).message.price = signed 8 (field bytes 24 8) :=
  toInt_price (field_lt bytes 24 8)

namespace Decoder

variable {frame : List UInt8}

theorem parseFrame_frame (decoder : Decoder) (hframe : IsWireFrame frame)
    (rest : List UInt8) :
    (decoder.parseFrame (WireHeader.read (frame ++ rest)) (frame ++ rest)).2 =
      frameMessage frame := by
  have hheader := hframe.1
  unfold WireHeader.size at hheader
  have htype : (WireHeader.read (frame ++ rest)).msgType.toNat = field frame 0 2 := by
    rw [toNat_msgType, field_append rest (by omega)]
  have hlen : (WireHeader.read (frame ++ rest)).msgLen.toNat = frame.length := by
    rw [toNat_msgLen, field_append rest (by omega), hframe.2]
  have hnew : (WireHeader.read (frame ++ rest)).msgType = 1 ↔ field frame 0 2 = 1 := by
    rw [← htype, ← UInt16.toNat_inj]
    rfl
  have hcancel : (WireHeader.read (frame ++ rest)).msgType = 2 ↔ field frame 0 2 = 2 := by
    rw [← htype, ← UInt16.toNat_inj]
    rfl
  unfold parseFrame parseNewOrder parseCancelOrder frameMessage
  simp only [hnew, hcancel, hlen]
  by_cases hone : field frame 0 2 = 1
  · by_cases hshort : frame.length < WireNewOrder.size
    · have hlong : ¬ 40 ≤ frame.length := not_le.mpr hshort
      simp [hone, hshort, hlong]
    · have hlong : 40 ≤ frame.length := not_lt.mp hshort
      simp only [hone, hshort, hlong, and_self, if_true, if_false,
        WireNewOrder.read_append rest (not_lt.mp hshort), Option.some.injEq]
      rw [← WireNewOrder.message_read]
      rfl
  · by_cases htwo : field frame 0 2 = 2
    · by_cases hshort : frame.length < WireCancelOrder.size
      · have hlong : ¬ 16 ≤ frame.length := not_le.mpr hshort
        simp [htwo, hshort, hlong]
      · have hlong : 16 ≤ frame.length := not_lt.mp hshort
        simp only [htwo, hshort, hlong, WireCancelOrder.read_append rest (not_lt.mp hshort)]
        rfl
    · simp [hone, htwo]

theorem accept_spec (decoder : Decoder) (count : ℕ) (msg : Option InboundOrderMsg) :
    (decoder.accept count msg).1.inbound = decoder.inbound ++ msg.toList ∧
      (decoder.accept count msg).2 = count + msg.toList.length := by
  cases msg <;> simp [accept]

/-- One iteration of the loop takes one frame. -/
theorem decodeLoop_isFrame (bound : ℕ) (decoder : Decoder) (count : ℕ)
    (hframe : IsWireFrame frame) (rest : List UInt8) :
    ∃ state : Decoder × ℕ,
      decodeLoop (bound + 1) (decoder, count) (frame ++ rest) = decodeLoop bound state rest ∧
        state.1.inbound = decoder.inbound ++ (frameMessage frame).toList ∧
        state.2 = count + (frameMessage frame).toList.length := by
  have hheader := hframe.1
  have hlen : (WireHeader.read (frame ++ rest)).msgLen.toNat = frame.length := by
    unfold WireHeader.size at hheader
    rw [toNat_msgLen, field_append rest (by omega), hframe.2]
  have hmessage := decoder.parseFrame_frame hframe rest
  have hinbound := decoder.parseFrame_inbound (WireHeader.read (frame ++ rest)) (frame ++ rest)
  refine ⟨(decoder.parseFrame (WireHeader.read (frame ++ rest)) (frame ++ rest)).1.accept count
    (frameMessage frame), ?_, ?_, ?_⟩
  · rw [decodeLoop, if_neg (by rw [List.length_append]; omega)]
    simp only [hlen, List.drop_left, hmessage]
    rw [if_neg]
    rw [List.length_append]
    omega
  · rw [(accept_spec _ _ _).1, hinbound]
  · exact (accept_spec _ _ _).2

/-- The loop pushes the messages of the frames and ends at the rest. -/
theorem decodeLoop_splits {span rest : List UInt8} {frames : List (List UInt8)}
    (hsplit : WireSplit span frames rest) (bound : ℕ) (hbound : span.length ≤ bound)
    (decoder : Decoder) (count : ℕ) :
    (decodeLoop bound (decoder, count) span).1.inbound =
        decoder.inbound ++ frames.filterMap frameMessage ∧
      (decodeLoop bound (decoder, count) span).2 =
        count + (frames.filterMap frameMessage).length := by
  induction frames generalizing span bound decoder count with
  | nil =>
      have hspan := hsplit.span_eq
      have hrest := hsplit.rest
      rw [List.flatten_nil, List.nil_append] at hspan
      subst hspan
      cases bound with
      | zero => simp [decodeLoop]
      | succ bound =>
          rw [decodeLoop]
          simp only [toNat_msgLen]
          split_ifs with hshort hcorrupt
          · simp
          · simp [countError]
          · rcases hrest with hheader | hlength
            · exact absurd hheader hshort
            · exact absurd hlength hcorrupt
  | cons frame frames ih =>
      have hframe := hsplit.complete frame (by simp)
      have hspan := hsplit.span_eq
      rw [List.flatten_cons, List.append_assoc] at hspan
      have htail : WireSplit (frames.flatten ++ rest) frames rest :=
        ⟨rfl, fun other hother => hsplit.complete other (by simp [hother]), hsplit.rest⟩
      have hheader := hframe.1
      unfold WireHeader.size at hheader
      rw [hspan, List.length_append] at hbound
      cases bound with
      | zero => omega
      | succ bound =>
          rcases decodeLoop_isFrame bound decoder count hframe (frames.flatten ++ rest) with
            ⟨⟨next, count'⟩, hloop, hinbound, hcount⟩
          have hstep := ih htail bound (by omega) next count'
          simp only at hinbound hcount
          rw [hspan, hloop, hstep.1, hstep.2, hinbound, hcount]
          cases hmessage : frameMessage frame <;> simp [hmessage]
          omega

theorem decodeSpan_splits {span rest : List UInt8} {frames : List (List UInt8)}
    (hsplit : WireSplit span frames rest) (decoder : Decoder) :
    (decoder.decodeSpan span).1.inbound =
        decoder.inbound ++ frames.filterMap frameMessage ∧
      (decoder.decodeSpan span).2 = (frames.filterMap frameMessage).length := by
  rw [decodeSpan_eq]
  have hloop := decodeLoop_splits hsplit span.length le_rfl
    { decoder with spansSeen := decoder.spansSeen + 1 } 0
  rw [Nat.zero_add] at hloop
  exact hloop

end Decoder

theorem WireMessage.isWireFrame (wire : WireMessage) : IsWireFrame wire.bytes := by
  have hlen := toNat_msgLen (wire.bytes ++ [])
  rw [wire.read_header, wire.msgLen_eq, List.append_nil] at hlen
  unfold IsWireFrame
  rw [← hlen, wire.length_bytes]
  exact ⟨wire.message.header_le_wireSize, rfl⟩

theorem WireMessage.frameMessage_bytes (wire : WireMessage) :
    frameMessage wire.bytes = some wire.message := by
  have hparsed := Decoder.new.parseFrame_frame wire.isWireFrame []
  rw [wire.read_header, Decoder.parseFrame_message] at hparsed
  exact hparsed.symm

theorem streamBytes_splits (wires : List WireMessage) :
    WireSplit (streamBytes wires) (wires.map WireMessage.bytes) [] := by
  refine ⟨?_, ?_, Or.inl (by decide)⟩
  · rw [List.append_nil]
    rfl
  · intro frame hframe
    rcases List.mem_map.mp hframe with ⟨wire, _, rfl⟩
    exact wire.isWireFrame

/-- The decoder accepts exactly the wire grammar: the split of a span into frames
and rest is unique, the walk ends without a read outside the span, and it pushes
and counts the messages of the frames.  A stream of messages gives them back. -/
theorem decodeSpan_grammar (decoder : Decoder) (span : List UInt8) :
    (∃! parts : List (List UInt8) × List UInt8, WireSplit span parts.1 parts.2) ∧
      (∀ frames rest, WireSplit span frames rest →
        ∃ next, decoder.decodeSpanAt span =
            some (next, (frames.filterMap frameMessage).length) ∧
          next.inbound = decoder.inbound ++ frames.filterMap frameMessage) ∧
      ∀ wires : List WireMessage, ∃ next,
        decoder.decodeSpanAt (streamBytes wires) = some (next, wires.length) ∧
          next.inbound = decoder.inbound ++ wires.map WireMessage.message := by
  have hdecoded : ∀ span frames rest, WireSplit span frames rest →
      ∃ next, decoder.decodeSpanAt span = some (next, (frames.filterMap frameMessage).length) ∧
        next.inbound = decoder.inbound ++ frames.filterMap frameMessage := by
    intro span frames rest hsplit
    rcases Decoder.decodeSpan_splits hsplit decoder with ⟨hinbound, hcount⟩
    refine ⟨(decoder.decodeSpan span).1, ?_, hinbound⟩
    rw [decoder.decodeSpanAt_eq, ← hcount]
  refine ⟨?_, hdecoded span, ?_⟩
  · rcases wireFraming.exists_splits span with ⟨frames, rest, hsplits⟩
    refine ⟨(frames, rest), (wireSplit_iff _ _ _).mpr hsplits, ?_⟩
    rintro ⟨frames', rest'⟩ hsplit'
    rcases hsplits.unique ((wireSplit_iff _ _ _).mp hsplit') with ⟨hframes, hrest⟩
    exact Prod.ext hframes hrest
  · intro wires
    have hmessages : (wires.map WireMessage.bytes).filterMap frameMessage =
        wires.map WireMessage.message := by
      rw [List.filterMap_map]
      have hsome : frameMessage ∘ WireMessage.bytes =
          fun wire => some (WireMessage.message wire) := by
        funext wire
        exact wire.frameMessage_bytes
      rw [hsome, List.filterMap_eq_map']
    have hstream := hdecoded _ _ _ (streamBytes_splits wires)
    rw [hmessages, List.length_map] at hstream
    exact hstream

end NanoMatch
