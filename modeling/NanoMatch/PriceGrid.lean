import NanoMatch.Order

/-!
# The price grid

Price-to-index arithmetic of a book.  Division and remainder truncate towards
zero as in the source; on the prices which pass the range checks the
difference to the minimum is non-negative and both are the Euclidean ones.
-/

namespace NanoMatch

/-- The prices of a book, with the constructor's first two asserts. -/
structure PriceGrid where
  minPrice : Price
  maxPrice : Price
  tickSize : Price
  min_lt_max : minPrice < maxPrice
  tick_pos : 0 < tickSize

namespace PriceGrid

def numLevels (grid : PriceGrid) : ℕ :=
  ((grid.maxPrice - grid.minPrice).tdiv grid.tickSize).toNat + 1

def tickToIndex (grid : PriceGrid) (price : Price) : ℕ :=
  ((price - grid.minPrice).tdiv grid.tickSize).toNat

def indexToPrice (grid : PriceGrid) (index : ℕ) : Price :=
  grid.minPrice + index * grid.tickSize

def isValidPrice (grid : PriceGrid) (price : Price) : Bool :=
  decide (grid.minPrice ≤ price) && decide (price ≤ grid.maxPrice) &&
    decide ((price - grid.minPrice).tmod grid.tickSize = 0)

variable (grid : PriceGrid)

theorem indexToPrice_lt_iff (i j : ℕ) :
    grid.indexToPrice i < grid.indexToPrice j ↔ i < j := by
  have htick := grid.tick_pos
  unfold indexToPrice
  constructor
  · intro hlt
    have hmul : (i : ℤ) * grid.tickSize < j * grid.tickSize := by linarith
    exact_mod_cast lt_of_mul_lt_mul_right hmul htick.le
  · intro hlt
    have hcast : (i : ℤ) < j := by exact_mod_cast hlt
    have hmul := mul_lt_mul_of_pos_right hcast htick
    linarith

theorem indexToPrice_le_iff (i j : ℕ) :
    grid.indexToPrice i ≤ grid.indexToPrice j ↔ i ≤ j := by
  rw [← not_lt, indexToPrice_lt_iff, not_lt]

theorem indexToPrice_injective : Function.Injective grid.indexToPrice := by
  intro i j heq
  have hij := (grid.indexToPrice_le_iff i j).mp heq.le
  have hji := (grid.indexToPrice_le_iff j i).mp heq.ge
  omega

theorem tickToIndex_of_le {price : Price} (hmin : grid.minPrice ≤ price) :
    grid.tickToIndex price = ((price - grid.minPrice) / grid.tickSize).toNat := by
  unfold tickToIndex
  rw [Int.tdiv_eq_ediv_of_nonneg (by linarith)]

/-- The index of a price at or above the minimum is the last level whose
price does not exceed it. -/
theorem le_tickToIndex_iff {price : Price} (hmin : grid.minPrice ≤ price) (i : ℕ) :
    i ≤ grid.tickToIndex price ↔ grid.indexToPrice i ≤ price := by
  have htick := grid.tick_pos
  have hnonneg : 0 ≤ (price - grid.minPrice) / grid.tickSize :=
    Int.ediv_nonneg (by linarith) htick.le
  rw [tickToIndex_of_le grid hmin, Int.le_toNat hnonneg,
    Int.le_ediv_iff_mul_le htick]
  unfold indexToPrice
  constructor <;> intro hle <;> linarith

@[simp] theorem tickToIndex_indexToPrice (i : ℕ) :
    grid.tickToIndex (grid.indexToPrice i) = i := by
  have hmin : grid.minPrice ≤ grid.indexToPrice i := by
    have hle := (grid.indexToPrice_le_iff 0 i).mpr (Nat.zero_le i)
    simpa [indexToPrice] using hle
  apply le_antisymm
  · have hle := (grid.le_tickToIndex_iff hmin _).mp le_rfl
    exact (grid.indexToPrice_le_iff _ _).mp hle
  · exact (grid.le_tickToIndex_iff hmin i).mpr le_rfl

theorem lt_numLevels_iff (i : ℕ) :
    i < grid.numLevels ↔ grid.indexToPrice i ≤ grid.maxPrice := by
  rw [← grid.le_tickToIndex_iff grid.min_lt_max.le]
  unfold numLevels tickToIndex
  omega

theorem isValidPrice_iff (price : Price) :
    grid.isValidPrice price = true ↔
      ∃ i < grid.numLevels, price = grid.indexToPrice i := by
  have htick := grid.tick_pos
  constructor
  · intro hvalid
    simp only [isValidPrice, Bool.and_eq_true, decide_eq_true_eq] at hvalid
    obtain ⟨⟨hmin, hmax⟩, hmod⟩ := hvalid
    have hdvd : grid.tickSize ∣ price - grid.minPrice :=
      Int.dvd_of_tmod_eq_zero hmod
    obtain ⟨ratio, hratio⟩ := hdvd
    have hnonneg : 0 ≤ ratio := by
      by_contra hneg
      have hmul : grid.tickSize * ratio < 0 :=
        mul_neg_of_pos_of_neg htick (by linarith)
      linarith
    have hprice : price = grid.indexToPrice ratio.toNat := by
      unfold indexToPrice
      rw [Int.toNat_of_nonneg hnonneg]
      linarith
    refine ⟨ratio.toNat, ?_, hprice⟩
    rw [lt_numLevels_iff, ← hprice]
    exact hmax
  · rintro ⟨i, hi, rfl⟩
    have hmax := (grid.lt_numLevels_iff i).mp hi
    have hmin : grid.minPrice ≤ grid.indexToPrice i := by
      have hle := (grid.indexToPrice_le_iff 0 i).mpr (Nat.zero_le i)
      simpa [indexToPrice] using hle
    have hmod : (grid.indexToPrice i - grid.minPrice).tmod grid.tickSize = 0 := by
      apply Int.tmod_eq_zero_of_dvd
      exact ⟨i, by unfold indexToPrice; ring⟩
    simp [isValidPrice, hmin, hmax, hmod]

theorem isValidPrice_indexToPrice {i : ℕ} (hi : i < grid.numLevels) :
    grid.isValidPrice (grid.indexToPrice i) = true :=
  (grid.isValidPrice_iff _).mpr ⟨i, hi, rfl⟩

theorem tickToIndex_lt_numLevels {price : Price}
    (hvalid : grid.isValidPrice price = true) :
    grid.tickToIndex price < grid.numLevels ∧
      price = grid.indexToPrice (grid.tickToIndex price) := by
  obtain ⟨i, hi, rfl⟩ := (grid.isValidPrice_iff price).mp hvalid
  simpa using hi

end PriceGrid

end NanoMatch
