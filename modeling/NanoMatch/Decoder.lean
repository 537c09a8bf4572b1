import NanoMatch.WireProtocol

/-!
# The decoder

`decode_span` walks over the frames of one span.  A frame whose length field is
too small or reaches beyond the span ends the walk: the remainder of the span is
abandoned as corrupt, and nothing is carried over to the next span.  The
messages of a stream therefore arrive exactly when every cut of the stream into
spans lies between two frames.  One direction is a round trip; the other counts
bytes, since a decoder which loses a part of a frame has too few bytes left for
the messages it should push.
-/

namespace NanoMatch

open LittleEndian

/-- The counters of the decoder and everything it has pushed to the
`InboundQueue`; a full queue only makes it wait. -/
structure Decoder where
  decodedCount : ℕ
  errorCount : ℕ
  spansSeen : ℕ
  inbound : List InboundOrderMsg

namespace Decoder

def new : Decoder where
  decodedCount := 0
  errorCount := 0
  spansSeen := 0
  inbound := []

def parseNewOrder (data : List UInt8) (len : UInt16) : Option InboundOrderMsg :=
  if len.toNat < WireNewOrder.size then none else some (WireNewOrder.read data).message

def parseCancelOrder (data : List UInt8) (len : UInt16) : Option InboundOrderMsg :=
  if len.toNat < WireCancelOrder.size then none else some (WireCancelOrder.read data).message

def countError (decoder : Decoder) : Decoder :=
  { decoder with errorCount := decoder.errorCount + 1 }

/-- The `switch` over the type of a frame which fits. -/
def parseFrame (decoder : Decoder) (hdr : WireHeader) (ptr : List UInt8) :
    Decoder × Option InboundOrderMsg :=
  if hdr.msgType = 1 then (decoder, parseNewOrder ptr hdr.msgLen)
  else if hdr.msgType = 2 then (decoder, parseCancelOrder ptr hdr.msgLen)
  else (decoder.countError, none)

/-- Push and count the message if there is one. -/
def accept (decoder : Decoder) (count : ℕ) : Option InboundOrderMsg → Decoder × ℕ
  | none => (decoder, count)
  | some msg =>
      ({ decoder with
          decodedCount := decoder.decodedCount + 1
          inbound := decoder.inbound ++ [msg] }, count + 1)

/-- The loop over the bytes from `ptr` to the end of the span.  A frame has at
least four bytes, so the length of the span bounds the number of iterations. -/
def decodeLoop : ℕ → Decoder × ℕ → List UInt8 → Decoder × ℕ
  | 0, state, _ => state
  | bound + 1, (decoder, count), ptr =>
      if ptr.length < WireHeader.size then (decoder, count)
      else
        let hdr := WireHeader.read ptr
        if hdr.msgLen.toNat < WireHeader.size ∨ ptr.length < hdr.msgLen.toNat then
          (decoder.countError, count)
        else
          let (decoder, msg) := decoder.parseFrame hdr ptr
          decodeLoop bound (decoder.accept count msg) (ptr.drop hdr.msgLen.toNat)

/-- `decode_span`, with the number of messages it returns. -/
def decodeSpan (decoder : Decoder) (span : List UInt8) : Decoder × ℕ :=
  let decoder := { decoder with spansSeen := decoder.spansSeen + 1 }
  if span = [] then (decoder, 0) else decodeLoop span.length (decoder, 0) span

def decodeSpans (decoder : Decoder) (spans : List (List UInt8)) : Decoder :=
  spans.foldl (fun decoder span => (decoder.decodeSpan span).1) decoder

/-! ## Whole frames -/

theorem parseFrame_message (decoder : Decoder) (wire : WireMessage) (rest : List UInt8) :
    decoder.parseFrame wire.header (wire.bytes ++ rest) = (decoder, some wire.message) := by
  cases wire with
  | newOrder wire =>
      simp [parseFrame, WireMessage.header, WireMessage.bytes, WireMessage.message,
        parseNewOrder, WireNewOrder.size, WireNewOrder.read_bytes]
  | cancelOrder wire =>
      simp [parseFrame, WireMessage.header, WireMessage.bytes, WireMessage.message,
        parseCancelOrder, WireCancelOrder.size, WireCancelOrder.read_bytes]

theorem decodeLoop_frame (bound : ℕ) (decoder : Decoder) (count : ℕ) (wire : WireMessage)
    (rest : List UInt8) :
    decodeLoop (bound + 1) (decoder, count) (wire.bytes ++ rest) =
      decodeLoop bound (decoder.accept count (some wire.message)) rest := by
  have hlength := wire.length_bytes
  have hheader := wire.message.header_le_wireSize
  rw [decodeLoop]
  simp only [WireMessage.read_header, parseFrame_message, wire.msgLen_eq, List.length_append]
  rw [if_neg (by omega), if_neg (by omega), List.drop_left' hlength]

theorem decodeLoop_stream (decoder : Decoder) (count : ℕ) (wires : List WireMessage)
    {bound : ℕ} (hbound : (streamBytes wires).length ≤ bound) :
    (decodeLoop bound (decoder, count) (streamBytes wires)).1.inbound =
      decoder.inbound ++ wires.map WireMessage.message := by
  induction wires generalizing decoder count bound with
  | nil => cases bound <;> simp [decodeLoop, streamBytes, WireHeader.size]
  | cons wire wires ih =>
      have hsplit : streamBytes (wire :: wires) = wire.bytes ++ streamBytes wires := rfl
      have hlength := wire.length_bytes
      have hheader := wire.message.header_le_wireSize
      rw [hsplit, List.length_append] at hbound
      cases bound with
      | zero =>
          unfold WireHeader.size at hheader
          omega
      | succ bound =>
          unfold WireHeader.size at hheader
          rw [hsplit, decodeLoop_frame]
          unfold accept
          rw [ih _ _ (by omega)]
          simp

/-- The early return for a span without data is what the loop does anyway. -/
theorem decodeSpan_eq (decoder : Decoder) (span : List UInt8) :
    decoder.decodeSpan span = decodeLoop span.length
      ({ decoder with spansSeen := decoder.spansSeen + 1 }, 0) span := by
  unfold decodeSpan
  split_ifs with hempty
  · subst hempty
    rfl
  · rfl

theorem decodeSpan_stream (decoder : Decoder) (wires : List WireMessage) :
    (decoder.decodeSpan (streamBytes wires)).1.inbound =
      decoder.inbound ++ wires.map WireMessage.message := by
  rw [decodeSpan_eq]
  exact decodeLoop_stream _ 0 wires le_rfl

theorem decodeSpans_streams (decoder : Decoder) (groups : List (List WireMessage)) :
    (decoder.decodeSpans (groups.map streamBytes)).inbound =
      decoder.inbound ++ groups.flatten.map WireMessage.message := by
  induction groups generalizing decoder with
  | nil => simp [decodeSpans]
  | cons group groups ih =>
      have hstep : decoder.decodeSpans ((group :: groups).map streamBytes) =
          (decoder.decodeSpan (streamBytes group)).1.decodeSpans (groups.map streamBytes) := rfl
      rw [hstep, ih, decodeSpan_stream]
      simp

/-! ## Counting bytes -/

def wireSizes (msgs : List InboundOrderMsg) : ℕ := (msgs.map InboundOrderMsg.wireSize).sum

theorem wireSizes_append (first second : List InboundOrderMsg) :
    wireSizes (first ++ second) = wireSizes first + wireSizes second := by
  simp [wireSizes]

theorem length_streamBytes (wires : List WireMessage) :
    (streamBytes wires).length = wireSizes (wires.map WireMessage.message) := by
  induction wires with
  | nil => rfl
  | cons wire wires ih =>
      have hlength := wire.length_bytes
      simp only [streamBytes, List.flatMap_cons, List.length_append] at ih ⊢
      simp only [wireSizes, List.map_cons, List.sum_cons] at ih ⊢
      omega

theorem parseFrame_wireSize {decoder : Decoder} {hdr : WireHeader} {ptr : List UInt8}
    {msg : InboundOrderMsg} (hparsed : (decoder.parseFrame hdr ptr).2 = some msg) :
    msg.wireSize ≤ hdr.msgLen.toNat := by
  unfold parseFrame parseNewOrder parseCancelOrder at hparsed
  split_ifs at hparsed with hnew hshort hcancel hshort
  · simp only [Option.some.injEq] at hparsed
    rw [← hparsed]
    exact not_lt.mp hshort
  · simp only [Option.some.injEq] at hparsed
    rw [← hparsed]
    exact not_lt.mp hshort

theorem parseFrame_inbound (decoder : Decoder) (hdr : WireHeader) (ptr : List UInt8) :
    (decoder.parseFrame hdr ptr).1.inbound = decoder.inbound := by
  unfold parseFrame
  split_ifs <;> rfl

theorem decodeLoop_wireSizes (bound : ℕ) (state : Decoder × ℕ) (ptr : List UInt8) :
    ∃ msgs, (decodeLoop bound state ptr).1.inbound = state.1.inbound ++ msgs ∧
      wireSizes msgs ≤ ptr.length := by
  induction bound generalizing state ptr with
  | zero => exact ⟨[], by simp [decodeLoop], Nat.zero_le _⟩
  | succ bound ih =>
      rcases state with ⟨decoder, count⟩
      rw [decodeLoop]
      simp only
      split_ifs with hshort hcorrupt
      · exact ⟨[], by simp, Nat.zero_le _⟩
      · exact ⟨[], by simp [countError], Nat.zero_le _⟩
      · have hinbound := decoder.parseFrame_inbound (WireHeader.read ptr) ptr
        rcases ih ((decoder.parseFrame (WireHeader.read ptr) ptr).1.accept count
          (decoder.parseFrame (WireHeader.read ptr) ptr).2)
          (ptr.drop (WireHeader.read ptr).msgLen.toNat) with ⟨msgs, hmsgs, hsizes⟩
        rw [List.length_drop] at hsizes
        cases hparsed : (decoder.parseFrame (WireHeader.read ptr) ptr).2 with
        | none =>
            rw [hparsed] at hmsgs
            refine ⟨msgs, ?_, by omega⟩
            rw [hmsgs]
            simp [accept, hinbound]
        | some msg =>
            have hsize := parseFrame_wireSize hparsed
            rw [hparsed] at hmsgs
            refine ⟨msg :: msgs, ?_, ?_⟩
            · rw [hmsgs]
              simp [accept, hinbound]
            · simp only [wireSizes, List.map_cons, List.sum_cons] at hsizes ⊢
              omega

theorem decodeSpan_wireSizes (decoder : Decoder) (span : List UInt8) :
    ∃ msgs, (decoder.decodeSpan span).1.inbound = decoder.inbound ++ msgs ∧
      wireSizes msgs ≤ span.length := by
  rw [decodeSpan_eq]
  exact decodeLoop_wireSizes _ _ span

theorem decodeSpans_wireSizes (decoder : Decoder) (spans : List (List UInt8)) :
    ∃ msgs, (decoder.decodeSpans spans).inbound = decoder.inbound ++ msgs ∧
      wireSizes msgs ≤ spans.flatten.length := by
  induction spans generalizing decoder with
  | nil => exact ⟨[], by simp [decodeSpans], Nat.zero_le _⟩
  | cons span spans ih =>
      rcases decoder.decodeSpan_wireSizes span with ⟨first, hfirst, hfirstSize⟩
      rcases ih (decoder.decodeSpan span).1 with ⟨second, hsecond, hsecondSize⟩
      refine ⟨first ++ second, ?_, ?_⟩
      · change ((decoder.decodeSpan span).1.decodeSpans spans).inbound = _
        rw [hsecond, hfirst, List.append_assoc]
      · rw [wireSizes_append, List.flatten_cons, List.length_append]
        omega

/-- A decoder which has pushed every message of the stream has not lost a byte,
so every span holds whole frames. -/
theorem exists_groups (decoder : Decoder) (spans : List (List UInt8))
    (wires : List WireMessage) (hstream : spans.flatten = streamBytes wires)
    (hdecoded : (decoder.decodeSpans spans).inbound =
      decoder.inbound ++ wires.map WireMessage.message) :
    ∃ groups : List (List WireMessage), groups.flatten = wires ∧
      spans = groups.map streamBytes := by
  induction spans generalizing decoder wires with
  | nil =>
      refine ⟨[], ?_, rfl⟩
      have hlength := length_streamBytes wires
      rw [← hstream] at hlength
      cases wires with
      | nil => rfl
      | cons wire wires =>
          have hheader := wire.message.header_le_wireSize
          simp only [List.flatten_nil, List.length_nil, wireSizes, List.map_cons,
            List.sum_cons, WireHeader.size] at hlength hheader
          omega
  | cons span spans ih =>
      rcases decoder.decodeSpan_wireSizes span with ⟨first, hfirst, hfirstSize⟩
      rcases (decoder.decodeSpan span).1.decodeSpans_wireSizes spans with
        ⟨second, hsecond, hsecondSize⟩
      have hall : ((decoder.decodeSpan span).1.decodeSpans spans).inbound =
          decoder.inbound ++ wires.map WireMessage.message := hdecoded
      rw [hsecond, hfirst, List.append_assoc, List.append_cancel_left_eq] at hall
      rcases List.map_eq_append_iff.mp hall.symm with ⟨group, rest, hwires, hgroup, hrest⟩
      subst hwires
      have hgroupLength := length_streamBytes group
      have hrestLength := length_streamBytes rest
      rw [hgroup] at hgroupLength
      rw [hrest] at hrestLength
      have hsplit : span ++ spans.flatten = streamBytes group ++ streamBytes rest := by
        rw [← List.flatten_cons, hstream]
        simp [streamBytes]
      have htotal := congrArg List.length hsplit
      rw [List.length_append, List.length_append] at htotal
      rcases List.append_inj hsplit (by omega) with ⟨hspan, hspans⟩
      rw [← hrest] at hsecond
      rcases ih (decoder.decodeSpan span).1 rest hspans hsecond with ⟨groups, hflat, hmap⟩
      exact ⟨group :: groups, by rw [List.flatten_cons, hflat], by rw [hspan, hmap]; rfl⟩

end Decoder

/-- The spans of a stream give back its messages in order exactly when every span
holds whole frames. -/
theorem decodeSpans_eq_iff (wires : List WireMessage) (spans : List (List UInt8))
    (hstream : spans.flatten = streamBytes wires) :
    (Decoder.new.decodeSpans spans).inbound = wires.map WireMessage.message ↔
      ∃ groups : List (List WireMessage), groups.flatten = wires ∧
        spans = groups.map streamBytes := by
  constructor
  · intro hdecoded
    exact Decoder.exists_groups Decoder.new spans wires hstream (by rw [hdecoded]; rfl)
  · rintro ⟨groups, hflat, rfl⟩
    rw [Decoder.decodeSpans_streams, hflat]
    rfl

/-- A new order and two cancellations. -/
def sampleWires : List WireMessage :=
  [.newOrder ⟨0, 1, 7, 104, 5, 0, 0, 0⟩, .cancelOrder ⟨0, 1⟩, .cancelOrder ⟨0, 2⟩]

theorem decodeSpans_eq_iff_sample :
    (Decoder.new.decodeSpans
      [(streamBytes sampleWires).take 56, (streamBytes sampleWires).drop 56]).inbound =
        sampleWires.map WireMessage.message := by
  rw [decodeSpans_eq_iff sampleWires _ (by simp)]
  refine ⟨[sampleWires.take 2, sampleWires.drop 2], by simp, ?_⟩
  decide

/-- The same stream cut inside its first frame: the first span is abandoned, and
so is the second, whose first bytes are no header. -/
theorem cut_frame_lost :
    [(streamBytes sampleWires).take 20, (streamBytes sampleWires).drop 20].flatten =
        streamBytes sampleWires ∧
      (∀ span ∈ [(streamBytes sampleWires).take 20, (streamBytes sampleWires).drop 20],
        span ≠ []) ∧
      (Decoder.new.decodeSpans
        [(streamBytes sampleWires).take 20, (streamBytes sampleWires).drop 20]).inbound ≠
          sampleWires.map WireMessage.message := by
  refine ⟨by simp, by decide, by decide⟩

end NanoMatch
