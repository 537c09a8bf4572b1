import NanoMatch.Decoder

/-!
# Counted headers

The loop of `decode_span` as a walk over the headers it examines.  A header which
passes the check of its length and names a known type, but whose frame is too short
for that type, is counted neither as decoded nor as an error: the parser returns
`false` and nobody looks at the reason.
-/

namespace NanoMatch

namespace Decoder

/-- The length in the header is too small or reaches beyond the span. -/
def isCorrupt (ptr : List UInt8) : Bool :=
  decide ((WireHeader.read ptr).msgLen.toNat < WireHeader.size ∨
    ptr.length < (WireHeader.read ptr).msgLen.toNat)

/-- A frame of a known type which is too short for it. -/
def isTruncated (ptr : List UInt8) : Bool :=
  !isCorrupt ptr &&
    (decide ((WireHeader.read ptr).msgType = 1 ∧
        (WireHeader.read ptr).msgLen.toNat < WireNewOrder.size) ||
      decide ((WireHeader.read ptr).msgType = 2 ∧
        (WireHeader.read ptr).msgLen.toNat < WireCancelOrder.size))

/-- The body of the loop for the header at `ptr`. -/
def examineHeader (decoder : Decoder) (ptr : List UInt8) : Decoder :=
  if isCorrupt ptr then decoder.countError
  else
    let (decoder, msg) := decoder.parseFrame (WireHeader.read ptr) ptr
    (decoder.accept 0 msg).1

/-- The headers the loop examines, each with the bytes behind it. -/
def headersFrom : ℕ → List UInt8 → List (List UInt8)
  | 0, _ => []
  | bound + 1, ptr =>
      if ptr.length < WireHeader.size then []
      else if isCorrupt ptr then [ptr]
      else ptr :: headersFrom bound (ptr.drop (WireHeader.read ptr).msgLen.toNat)

/-- The headers `decode_span` examines. -/
def headersExamined (span : List UInt8) : List (List UInt8) := headersFrom span.length span

theorem accept_fst (decoder : Decoder) (count count' : ℕ) (msg : Option InboundOrderMsg) :
    (decoder.accept count msg).1 = (decoder.accept count' msg).1 := by
  cases msg <;> rfl

/-- The loop does what it does for each header, one after the other. -/
theorem decodeLoop_eq_foldl (bound : ℕ) (state : Decoder × ℕ) (ptr : List UInt8) :
    (decodeLoop bound state ptr).1 = (headersFrom bound ptr).foldl examineHeader state.1 := by
  induction bound generalizing state ptr with
  | zero => rfl
  | succ bound ih =>
      rcases state with ⟨decoder, count⟩
      rw [decodeLoop, headersFrom]
      simp only
      by_cases hshort : ptr.length < WireHeader.size
      · rw [if_pos hshort, if_pos hshort]
        rfl
      · rw [if_neg hshort, if_neg hshort]
        by_cases hcorrupt : (WireHeader.read ptr).msgLen.toNat < WireHeader.size ∨
            ptr.length < (WireHeader.read ptr).msgLen.toNat
        · have hflag : isCorrupt ptr = true := decide_eq_true hcorrupt
          rw [if_pos hcorrupt, if_pos hflag, List.foldl_cons, examineHeader, if_pos hflag]
          rfl
        · have hflag : ¬ isCorrupt ptr = true := by simpa [isCorrupt] using hcorrupt
          rw [if_neg hcorrupt, if_neg hflag, List.foldl_cons, examineHeader, if_neg hflag,
            ih, accept_fst _ count 0]

theorem decodeSpan_eq_foldl (decoder : Decoder) (span : List UInt8) :
    (decoder.decodeSpan span).1 = (headersExamined span).foldl examineHeader
      { decoder with spansSeen := decoder.spansSeen + 1 } := by
  rw [decodeSpan_eq]
  exact decodeLoop_eq_foldl _ _ _

/-! ## One header -/

/-- Exactly one of the two counters goes up, and it goes up by one. -/
def CountsOne (before after : Decoder) : Prop :=
  (after.decodedCount = before.decodedCount + 1 ∧ after.errorCount = before.errorCount) ∨
    (after.decodedCount = before.decodedCount ∧ after.errorCount = before.errorCount + 1)

theorem examineHeader_truncated (decoder : Decoder) {ptr : List UInt8}
    (htruncated : isTruncated ptr = true) : decoder.examineHeader ptr = decoder := by
  simp only [isTruncated, Bool.and_eq_true, Bool.not_eq_true', Bool.or_eq_true,
    decide_eq_true_eq] at htruncated
  rcases htruncated with ⟨hcorrupt, ⟨htype, hlen⟩ | ⟨htype, hlen⟩⟩
  · simp [examineHeader, hcorrupt, parseFrame, htype, parseNewOrder, hlen, accept]
  · simp [examineHeader, hcorrupt, parseFrame, htype, parseCancelOrder, hlen, accept]

theorem examineHeader_countsOne (decoder : Decoder) {ptr : List UInt8}
    (hwhole : isTruncated ptr = false) : CountsOne decoder (decoder.examineHeader ptr) := by
  unfold CountsOne examineHeader
  by_cases hcorrupt : isCorrupt ptr = true
  · simp [hcorrupt, countError]
  · by_cases hnew : (WireHeader.read ptr).msgType = 1
    · have hlen : ¬ (WireHeader.read ptr).msgLen.toNat < WireNewOrder.size := by
        intro hshort
        simp [isTruncated, hcorrupt, hnew, hshort] at hwhole
      simp [hcorrupt, parseFrame, hnew, parseNewOrder, hlen, accept]
    · by_cases hcancel : (WireHeader.read ptr).msgType = 2
      · have hlen : ¬ (WireHeader.read ptr).msgLen.toNat < WireCancelOrder.size := by
          intro hshort
          simp [isTruncated, hcorrupt, hcancel, hshort] at hwhole
        simp [hcorrupt, parseFrame, hcancel, parseCancelOrder, hlen, accept]
      · simp [hcorrupt, parseFrame, hnew, hcancel, accept, countError]

theorem countsOne_iff (decoder : Decoder) (ptr : List UInt8) :
    CountsOne decoder (decoder.examineHeader ptr) ↔ isTruncated ptr = false := by
  constructor
  · intro hcounts
    by_contra htruncated
    rw [Bool.not_eq_false] at htruncated
    rw [examineHeader_truncated decoder htruncated] at hcounts
    unfold CountsOne at hcounts
    omega
  · exact examineHeader_countsOne decoder

/-- A header adds to `decoded_count_` what it adds to the queue. -/
theorem examineHeader_inbound (decoder : Decoder) (ptr : List UInt8) :
    (decoder.examineHeader ptr).decodedCount + decoder.inbound.length =
      decoder.decodedCount + (decoder.examineHeader ptr).inbound.length := by
  unfold examineHeader parseFrame
  split_ifs
  · simp [countError]
  · cases parseNewOrder ptr (WireHeader.read ptr).msgLen <;> simp [accept]
    omega
  · cases parseCancelOrder ptr (WireHeader.read ptr).msgLen <;> simp [accept]
    omega
  · simp [accept, countError]

/-! ## Sequences of spans -/

/-- The headers examined in a sequence of spans. -/
def headersOf (spans : List (List UInt8)) : List (List UInt8) := spans.flatMap headersExamined

/-- The sum of the counters misses the truncated headers, and only these. -/
theorem foldl_counts (headers : List (List UInt8)) (decoder : Decoder) :
    (headers.foldl examineHeader decoder).decodedCount +
        (headers.foldl examineHeader decoder).errorCount + headers.countP isTruncated =
      decoder.decodedCount + decoder.errorCount + headers.length := by
  induction headers generalizing decoder with
  | nil => rfl
  | cons ptr headers ih =>
      have hrest := ih (decoder.examineHeader ptr)
      rw [List.foldl_cons, List.countP_cons, List.length_cons]
      cases htruncated : isTruncated ptr with
      | true =>
          rw [examineHeader_truncated decoder htruncated] at hrest ⊢
          simp only [if_true]
          omega
      | false =>
          have hone := examineHeader_countsOne decoder htruncated
          unfold CountsOne at hone
          simp only [Bool.false_eq_true, if_false]
          omega

theorem foldl_inbound (headers : List (List UInt8)) (decoder : Decoder) :
    (headers.foldl examineHeader decoder).decodedCount + decoder.inbound.length =
      decoder.decodedCount + (headers.foldl examineHeader decoder).inbound.length := by
  induction headers generalizing decoder with
  | nil => rfl
  | cons ptr headers ih =>
      have hrest := ih (decoder.examineHeader ptr)
      have hone := examineHeader_inbound decoder ptr
      rw [List.foldl_cons]
      omega

theorem decodeSpans_counts (spans : List (List UInt8)) (decoder : Decoder) :
    (decoder.decodeSpans spans).decodedCount + (decoder.decodeSpans spans).errorCount +
        (headersOf spans).countP isTruncated =
      decoder.decodedCount + decoder.errorCount + (headersOf spans).length := by
  induction spans generalizing decoder with
  | nil => rfl
  | cons span spans ih =>
      have hspan := foldl_counts (headersExamined span)
        { decoder with spansSeen := decoder.spansSeen + 1 }
      rw [← decodeSpan_eq_foldl] at hspan
      have hrest := ih (decoder.decodeSpan span).1
      have hstep : decoder.decodeSpans (span :: spans) =
          (decoder.decodeSpan span).1.decodeSpans spans := rfl
      have hheaders : headersOf (span :: spans) = headersExamined span ++ headersOf spans := rfl
      rw [hstep, hheaders, List.countP_append, List.length_append]
      simp only at hspan
      omega

theorem decodeSpans_inbound (spans : List (List UInt8)) (decoder : Decoder) :
    (decoder.decodeSpans spans).decodedCount + decoder.inbound.length =
      decoder.decodedCount + (decoder.decodeSpans spans).inbound.length := by
  induction spans generalizing decoder with
  | nil => rfl
  | cons span spans ih =>
      have hspan := foldl_inbound (headersExamined span)
        { decoder with spansSeen := decoder.spansSeen + 1 }
      rw [← decodeSpan_eq_foldl] at hspan
      have hrest := ih (decoder.decodeSpan span).1
      have hstep : decoder.decodeSpans (span :: spans) =
          (decoder.decodeSpan span).1.decodeSpans spans := rfl
      rw [hstep]
      simp only at hspan
      omega

end Decoder

/-- Every header moves exactly one counter, the counters add up to the headers and
`decoded_count()` to the queued messages, exactly when no header is truncated. -/
theorem decodeSpans_counted_iff (spans : List (List UInt8)) :
    ((∀ ptr ∈ Decoder.headersOf spans, ∀ decoder : Decoder,
        Decoder.CountsOne decoder (decoder.examineHeader ptr)) ∧
      (Decoder.new.decodeSpans spans).decodedCount +
          (Decoder.new.decodeSpans spans).errorCount = (Decoder.headersOf spans).length ∧
      (Decoder.new.decodeSpans spans).decodedCount =
          (Decoder.new.decodeSpans spans).inbound.length) ↔
      ∀ ptr ∈ Decoder.headersOf spans, Decoder.isTruncated ptr = false := by
  have hcounts := Decoder.decodeSpans_counts spans Decoder.new
  have hinbound := Decoder.decodeSpans_inbound spans Decoder.new
  simp only [Decoder.new, List.length_nil, Nat.zero_add, Nat.add_zero] at hcounts hinbound
  constructor
  · rintro ⟨hone, -, -⟩ ptr hptr
    exact (Decoder.countsOne_iff Decoder.new ptr).mp (hone ptr hptr Decoder.new)
  · intro hwhole
    refine ⟨fun ptr hptr decoder => Decoder.examineHeader_countsOne decoder (hwhole ptr hptr),
      ?_, hinbound⟩
    have hzero : (Decoder.headersOf spans).countP Decoder.isTruncated = 0 := by
      rw [List.countP_eq_zero]
      intro ptr hptr
      rw [hwhole ptr hptr]
      decide
    rw [hzero] at hcounts
    exact hcounts

/-- A header which says `NewOrder` and four bytes moves neither counter. -/
theorem truncated_header_uncounted :
    Decoder.headersOf [[1, 0, 4, 0]] = [[1, 0, 4, 0]] ∧
      (Decoder.new.decodeSpans [[1, 0, 4, 0]]).decodedCount = 0 ∧
      (Decoder.new.decodeSpans [[1, 0, 4, 0]]).errorCount = 0 ∧
      ¬ Decoder.CountsOne Decoder.new (Decoder.new.examineHeader [1, 0, 4, 0]) := by
  refine ⟨by decide, by decide, by decide, ?_⟩
  rw [Decoder.countsOne_iff]
  decide

end NanoMatch
