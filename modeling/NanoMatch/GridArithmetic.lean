import NanoMatch.OrderBook
import NanoMatch.CheckedInt64

/-!
# Price arithmetic in 64 bits

The functions of the price grid once more, with every subtraction, multiplication
and addition checked and the conversions between `Price` and `std::size_t` written
out.  On a grid which the constructor accepts each of them has a value, and it is the
one of the unchecked function: the range checks of `is_valid_price` come before its
subtraction, and an index below `num_levels()` never leads beyond `max_price`.
-/

namespace NanoMatch

open CheckedInt64

namespace PriceGrid

/-- The asserts of the constructor, in their order. -/
def constructorAsserts (minPrice maxPrice tickSize : Price) : Option Bool :=
  if minPrice < maxPrice ∧ 0 < tickSize then do
    let span ← sub maxPrice minPrice
    let rest ← rem span tickSize
    return decide (rest = 0)
  else some false

/-- Three 64-bit values which pass the asserts. -/
structure Accepted (grid : PriceGrid) : Prop where
  min_fits : Fits grid.minPrice
  max_fits : Fits grid.maxPrice
  tick_fits : Fits grid.tickSize
  asserted : constructorAsserts grid.minPrice grid.maxPrice grid.tickSize = some true

def numLevelsForChecked (mn mx tick : Price) : Option ℕ := do
  let span ← sub mx mn
  let count ← div span tick
  return (toSize count + 1) % 2 ^ 64

variable (grid : PriceGrid)

/-- The fill loop over `count` levels from `i`. -/
def fillLoop : ℕ → ℕ → (ℕ → PriceLevel) × (ℕ → PriceLevel) →
    Option ((ℕ → PriceLevel) × (ℕ → PriceLevel))
  | _, 0, levels => some levels
  | i, count + 1, (bidLevels, askLevels) => do
      let offset ← mul (ofSize i) grid.tickSize
      let p ← add grid.minPrice offset
      fillLoop (i + 1) count
        (Function.update bidLevels i { bidLevels i with price := p },
          Function.update askLevels i { askLevels i with price := p })

/-- The level arrays as the constructor resizes and fills them. -/
def constructedLevels : Option ((ℕ → PriceLevel) × (ℕ → PriceLevel)) := do
  let n ← numLevelsForChecked grid.minPrice grid.maxPrice grid.tickSize
  grid.fillLoop 0 n (fun _ => OrderBook.emptyLevel 0, fun _ => OrderBook.emptyLevel 0)

def isValidPriceChecked (p : Price) : Option Bool :=
  if grid.minPrice ≤ p then
    if p ≤ grid.maxPrice then do
      let distance ← sub p grid.minPrice
      let rest ← rem distance grid.tickSize
      return decide (rest = 0)
    else some false
  else some false

def tickToIndexChecked (p : Price) : Option ℕ := do
  let distance ← sub p grid.minPrice
  let index ← div distance grid.tickSize
  return toSize index

def indexToPriceChecked (idx : ℕ) : Option Price := do
  let offset ← mul (ofSize idx) grid.tickSize
  add grid.minPrice offset

end PriceGrid

/-- The scan of `available_quantity_at_or_better` with a checked choice of the index. -/
def OrderBook.availableQuantityChecked (book : OrderBook) (aggSide : Side)
    (limitPrice : Price) : Option Quantity :=
  if aggSide = .buy then
    match book.bestAskIdx with
    | none => some 0
    | some best => do
        let toIdx ←
          if book.grid.maxPrice ≤ limitPrice then some (book.grid.numLevels - 1)
          else if limitPrice < book.grid.minPrice then some 0
          else book.grid.tickToIndexChecked limitPrice
        return if toIdx < best then 0
          else sumLevels book.askLevels best (toIdx + 1 - best) 0
  else
    match book.bestBidIdx with
    | none => some 0
    | some best => do
        let fromIdx ←
          if limitPrice ≤ book.grid.minPrice then some 0
          else if book.grid.maxPrice < limitPrice then some book.grid.numLevels
          else book.grid.tickToIndexChecked limitPrice
        return if best < fromIdx then 0
          else sumLevels book.bidLevels fromIdx (best + 1 - fromIdx) 0

namespace PriceGrid

/-! ## Nothing overflows -/

section Accepted

variable {grid : PriceGrid} (haccepted : grid.Accepted)

include haccepted

theorem Accepted.span_fits : Fits (grid.maxPrice - grid.minPrice) := by
  have hasserted := haccepted.asserted
  unfold constructorAsserts at hasserted
  rw [if_pos ⟨grid.min_lt_max, grid.tick_pos⟩] at hasserted
  cases hspan : sub grid.maxPrice grid.minPrice with
  | none =>
      rw [hspan] at hasserted
      simp at hasserted
  | some span => exact (checked_isSome hspan).1

/-- The distance of a price of the range to the minimum. -/
theorem Accepted.distance_fits {price : Price} (hmin : grid.minPrice ≤ price)
    (hmax : price ≤ grid.maxPrice) : Fits (price - grid.minPrice) :=
  Fits.between fits_zero haccepted.span_fits (by linarith) (by linarith)

theorem Accepted.tickToIndexChecked_eq {price : Price} (hmin : grid.minPrice ≤ price)
    (hmax : price ≤ grid.maxPrice) :
    grid.tickToIndexChecked price = some (grid.tickToIndex price) := by
  have hfits := haccepted.distance_fits hmin hmax
  have hnonneg : 0 ≤ price - grid.minPrice := by linarith
  have hsub : sub price grid.minPrice = some (price - grid.minPrice) := checked_eq_some hfits
  unfold tickToIndexChecked tickToIndex
  rw [hsub, Option.bind_eq_bind, Option.bind_some, div_eq_some hfits hnonneg grid.tick_pos,
    Option.bind_some, toSize_of_nonneg (hfits.tdiv hnonneg grid.tick_pos)
      (Int.tdiv_nonneg hnonneg grid.tick_pos.le)]
  rfl

theorem Accepted.isValidPriceChecked_eq (price : Price) :
    grid.isValidPriceChecked price = some (grid.isValidPrice price) := by
  unfold isValidPriceChecked isValidPrice
  by_cases hmin : grid.minPrice ≤ price
  · by_cases hmax : price ≤ grid.maxPrice
    · have hfits := haccepted.distance_fits hmin hmax
      have hsub : sub price grid.minPrice = some (price - grid.minPrice) := checked_eq_some hfits
      rw [if_pos hmin, if_pos hmax, hsub, Option.bind_eq_bind, Option.bind_some,
        rem_eq_some hfits (by linarith) grid.tick_pos]
      simp [hmin, hmax]
    · simp [hmin, hmax]
  · simp [hmin]

/-- The index, the offset and the price of a level all fit. -/
theorem Accepted.level_fits {i : ℕ} (hi : i < grid.numLevels) :
    Fits (i : ℤ) ∧ Fits ((i : ℤ) * grid.tickSize) ∧ Fits (grid.indexToPrice i) := by
  have hmax := (grid.lt_numLevels_iff i).mp hi
  have hcast : (0 : ℤ) ≤ i := Int.natCast_nonneg i
  have htick : 1 ≤ grid.tickSize := grid.tick_pos
  have hoffset : 0 ≤ (i : ℤ) * grid.tickSize := mul_nonneg hcast grid.tick_pos.le
  have hindex : (i : ℤ) ≤ i * grid.tickSize := le_mul_of_one_le_right hcast htick
  unfold indexToPrice at hmax ⊢
  have hoffsetFits : Fits ((i : ℤ) * grid.tickSize) :=
    Fits.between fits_zero haccepted.span_fits hoffset (by linarith)
  exact ⟨Fits.between fits_zero hoffsetFits hcast hindex, hoffsetFits,
    Fits.between haccepted.min_fits haccepted.max_fits (by linarith) hmax⟩

theorem Accepted.indexToPriceChecked_eq {i : ℕ} (hi : i < grid.numLevels) :
    grid.indexToPriceChecked i = some (grid.indexToPrice i) := by
  obtain ⟨hindex, hoffset, hprice⟩ := haccepted.level_fits hi
  have hmul : mul i grid.tickSize = some (i * grid.tickSize) := checked_eq_some hoffset
  unfold indexToPriceChecked
  rw [ofSize_of_fits hindex, hmul, Option.bind_eq_bind, Option.bind_some]
  exact checked_eq_some hprice

theorem Accepted.numLevelsForChecked_eq :
    numLevelsForChecked grid.minPrice grid.maxPrice grid.tickSize = some grid.numLevels := by
  have hnonneg : 0 ≤ grid.maxPrice - grid.minPrice := by linarith [grid.min_lt_max]
  have hfits := haccepted.span_fits.tdiv hnonneg grid.tick_pos
  have hlt : ((grid.maxPrice - grid.minPrice).tdiv grid.tickSize).toNat + 1 < 2 ^ 64 := by
    have hupper := hfits.2
    omega
  have hsub : sub grid.maxPrice grid.minPrice = some (grid.maxPrice - grid.minPrice) :=
    checked_eq_some haccepted.span_fits
  unfold numLevelsForChecked numLevels
  rw [hsub, Option.bind_eq_bind, Option.bind_some, div_eq_some haccepted.span_fits hnonneg
      grid.tick_pos, Option.bind_some,
    toSize_of_nonneg hfits (Int.tdiv_nonneg hnonneg grid.tick_pos.le), Nat.mod_eq_of_lt hlt]
  rfl

/-- The fill loop sets the prices of its levels and nothing else. -/
theorem Accepted.fillLoop_eq (count i : ℕ) (levels : (ℕ → PriceLevel) × (ℕ → PriceLevel))
    (hcount : i + count ≤ grid.numLevels) :
    ∃ filled, grid.fillLoop i count levels = some filled ∧
      ∀ j, filled.1 j = (if i ≤ j ∧ j < i + count then
          { levels.1 j with price := grid.indexToPrice j } else levels.1 j) ∧
        filled.2 j = (if i ≤ j ∧ j < i + count then
          { levels.2 j with price := grid.indexToPrice j } else levels.2 j) := by
  induction count generalizing i levels with
  | zero =>
      refine ⟨levels, rfl, fun j => ?_⟩
      rw [if_neg (by omega), if_neg (by omega)]
      exact ⟨rfl, rfl⟩
  | succ count ih =>
      rcases levels with ⟨bidLevels, askLevels⟩
      have hprice := haccepted.indexToPriceChecked_eq (i := i) (by omega)
      unfold indexToPriceChecked at hprice
      rcases ih (i + 1) (Function.update bidLevels i
          { bidLevels i with price := grid.indexToPrice i },
        Function.update askLevels i { askLevels i with price := grid.indexToPrice i })
        (by omega) with ⟨filled, hfilled, hlevels⟩
      refine ⟨filled, ?_, fun j => ?_⟩
      · rw [fillLoop, ← hfilled]
        cases hoffset : mul (ofSize i) grid.tickSize with
        | none => simp [hoffset] at hprice
        | some offset =>
            rw [hoffset, Option.bind_eq_bind, Option.bind_some] at hprice
            simp [hprice]
      · have hj := hlevels j
        by_cases hji : j = i
        · subst hji
          rw [if_neg (by omega), if_neg (by omega)] at hj
          rw [if_pos (by omega), if_pos (by omega)]
          simpa using hj
        · simp only [Function.update_of_ne hji] at hj
          have hrange : (i + 1 ≤ j ∧ j < i + 1 + count) ↔ (i ≤ j ∧ j < i + (count + 1)) := by
            omega
          simpa only [hrange] using hj

theorem Accepted.constructedLevels_eq (instrumentId : InstrumentId) :
    ∃ filled, grid.constructedLevels = some filled ∧ ∀ i < grid.numLevels,
      filled.1 i = (OrderBook.new instrumentId grid).bidLevels i ∧
        filled.2 i = (OrderBook.new instrumentId grid).askLevels i := by
  rcases haccepted.fillLoop_eq grid.numLevels 0
    (fun _ => OrderBook.emptyLevel 0, fun _ => OrderBook.emptyLevel 0) (by omega) with
    ⟨filled, hfilled, hlevels⟩
  refine ⟨filled, ?_, fun i hi => ?_⟩
  · unfold constructedLevels
    rw [haccepted.numLevelsForChecked_eq]
    exact hfilled
  · have hrange : 0 ≤ i ∧ i < 0 + grid.numLevels := by omega
    have hlevel := hlevels i
    simp only [if_pos hrange] at hlevel
    exact hlevel

end Accepted

theorem Accepted.availableQuantityChecked_eq {book : OrderBook}
    (haccepted : book.grid.Accepted) (aggSide : Side) (limitPrice : Price) :
    book.availableQuantityChecked aggSide limitPrice =
      some (book.availableQuantityAtOrBetter aggSide limitPrice) := by
  unfold OrderBook.availableQuantityChecked OrderBook.availableQuantityAtOrBetter
  split_ifs with hside hmax hmin hmin hmax
  · cases book.bestAskIdx <;> rfl
  · cases book.bestAskIdx <;> rfl
  · rw [haccepted.tickToIndexChecked_eq (by linarith) (by linarith)]
    cases book.bestAskIdx <;> rfl
  · cases book.bestBidIdx <;> rfl
  · cases book.bestBidIdx <;> rfl
  · rw [haccepted.tickToIndexChecked_eq (by linarith) (by linarith)]
    cases book.bestBidIdx <;> rfl

/-! ## The isomorphism -/

theorem existsUnique_index_iff (grid : PriceGrid) (price : Price) :
    grid.isValidPrice price = true ↔
      ∃! i, i < grid.numLevels ∧ price = grid.indexToPrice i := by
  rw [isValidPrice_iff]
  constructor
  · rintro ⟨i, hi, hprice⟩
    refine ⟨i, ⟨hi, hprice⟩, ?_⟩
    rintro j ⟨-, hj⟩
    exact grid.indexToPrice_injective (hj.symm.trans hprice)
  · rintro ⟨i, ⟨hi, hprice⟩, -⟩
    exact ⟨i, hi, hprice⟩

end PriceGrid

/-- Valid prices are the prices of the levels, each of exactly one, in the order of the
levels, and no step of the arithmetic leaves the 64-bit range. -/
theorem priceGrid_orderIso (instrumentId : InstrumentId) (grid : PriceGrid)
    (haccepted : grid.Accepted) :
    (∀ price, Fits price →
      (grid.isValidPrice price = true ↔
        ∃! i, i < grid.numLevels ∧ price = grid.indexToPrice i) ∧
      ∀ i < grid.numLevels, price = grid.indexToPrice i →
        grid.tickToIndex price = i ∧
          ((OrderBook.new instrumentId grid).bidLevels i).price = price ∧
          ((OrderBook.new instrumentId grid).askLevels i).price = price) ∧
    (∀ i j, i < j → j < grid.numLevels → grid.indexToPrice i < grid.indexToPrice j) ∧
    PriceGrid.numLevelsForChecked grid.minPrice grid.maxPrice grid.tickSize =
      some grid.numLevels ∧
    (∃ filled, grid.constructedLevels = some filled ∧ ∀ i < grid.numLevels,
      filled.1 i = (OrderBook.new instrumentId grid).bidLevels i ∧
        filled.2 i = (OrderBook.new instrumentId grid).askLevels i) ∧
    (∀ price, Fits price → grid.isValidPriceChecked price = some (grid.isValidPrice price)) ∧
    (∀ price, grid.minPrice ≤ price → price ≤ grid.maxPrice →
      grid.tickToIndexChecked price = some (grid.tickToIndex price)) ∧
    (∀ i < grid.numLevels, grid.indexToPriceChecked i = some (grid.indexToPrice i)) ∧
    ∀ book : OrderBook, book.grid = grid → ∀ aggSide limitPrice, Fits limitPrice →
      book.availableQuantityChecked aggSide limitPrice =
        some (book.availableQuantityAtOrBetter aggSide limitPrice) := by
  refine ⟨fun price _ => ⟨grid.existsUnique_index_iff price, ?_⟩, ?_,
    haccepted.numLevelsForChecked_eq, haccepted.constructedLevels_eq instrumentId,
    fun price _ => haccepted.isValidPriceChecked_eq price,
    fun price hmin hmax => haccepted.tickToIndexChecked_eq hmin hmax,
    fun i hi => haccepted.indexToPriceChecked_eq hi, ?_⟩
  · rintro i - rfl
    exact ⟨grid.tickToIndex_indexToPrice i, rfl, rfl⟩
  · intro i j hij _
    exact (grid.indexToPrice_lt_iff i j).mpr hij
  · rintro book rfl aggSide limitPrice _
    exact haccepted.availableQuantityChecked_eq aggSide limitPrice

/-- The widest grid which starts at the lowest 64-bit price. -/
def lowestGrid : PriceGrid where
  minPrice := -2 ^ 63
  maxPrice := -1
  tickSize := 1
  min_lt_max := by decide
  tick_pos := Int.one_pos

theorem priceGrid_orderIso_lowest :
    lowestGrid.Accepted ∧
      lowestGrid.isValidPriceChecked (2 ^ 63 - 1) = some false ∧
      lowestGrid.isValidPriceChecked (-1) = some true := by
  have haccepted : lowestGrid.Accepted :=
    ⟨by decide, by decide, by decide, by decide⟩
  obtain ⟨-, -, -, -, hvalid, -⟩ := priceGrid_orderIso 0 lowestGrid haccepted
  refine ⟨haccepted, ?_, ?_⟩
  · rw [hvalid _ (by decide)]
    decide
  · rw [hvalid _ (by decide)]
    decide

end NanoMatch
