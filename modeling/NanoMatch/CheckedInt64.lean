import Mathlib.Tactic

/-!
# Checked 64-bit arithmetic

Signed 64-bit operations which give `none` where the exact result does not fit, so
that an expression with a value is one in which nothing has overflowed.  Division
and remainder truncate towards zero.  The two conversions between signed and
unsigned words are the wrapping ones.
-/

namespace CheckedInt64

/-- The value of a signed 64-bit word. -/
def Fits (x : ℤ) : Prop := -2 ^ 63 ≤ x ∧ x < 2 ^ 63

instance : DecidablePred Fits := fun x =>
  inferInstanceAs (Decidable (-2 ^ 63 ≤ x ∧ x < 2 ^ 63))

def checked (x : ℤ) : Option ℤ := if Fits x then some x else none

def add (a b : ℤ) : Option ℤ := checked (a + b)

def sub (a b : ℤ) : Option ℤ := checked (a - b)

def mul (a b : ℤ) : Option ℤ := checked (a * b)

def div (a b : ℤ) : Option ℤ := if b = 0 then none else checked (a.tdiv b)

/-- A remainder is undefined where the quotient is. -/
def rem (a b : ℤ) : Option ℤ :=
  if b = 0 ∨ ¬ Fits (a.tdiv b) then none else some (a.tmod b)

/-- The conversion to an unsigned word. -/
def toSize (x : ℤ) : ℕ := (x % 2 ^ 64).toNat

/-- The conversion of an unsigned word. -/
def ofSize (i : ℕ) : ℤ := (i : ℤ).bmod (2 ^ 64)

theorem checked_eq_some {x : ℤ} (hfits : Fits x) : checked x = some x := if_pos hfits

theorem checked_isSome {x y : ℤ} (hsome : checked x = some y) : Fits x ∧ x = y := by
  unfold checked at hsome
  split_ifs at hsome with hfits
  exact ⟨hfits, Option.some.inj hsome⟩

/-- What lies between two values which fit, fits. -/
theorem Fits.between {low x high : ℤ} (hlow : Fits low) (hhigh : Fits high)
    (hle : low ≤ x) (hle' : x ≤ high) : Fits x := ⟨hlow.1.trans hle, hle'.trans_lt hhigh.2⟩

theorem fits_zero : Fits 0 := by decide

theorem Fits.tdiv {a b : ℤ} (hfits : Fits a) (ha : 0 ≤ a) (hb : 0 < b) : Fits (a.tdiv b) := by
  refine Fits.between fits_zero hfits (Int.tdiv_nonneg ha hb.le) ?_
  rw [Int.tdiv_eq_ediv_of_nonneg ha]
  exact Int.ediv_le_self b ha

theorem div_eq_some {a b : ℤ} (hfits : Fits a) (ha : 0 ≤ a) (hb : 0 < b) :
    div a b = some (a.tdiv b) := by
  unfold div
  rw [if_neg hb.ne', checked_eq_some (hfits.tdiv ha hb)]

theorem rem_eq_some {a b : ℤ} (hfits : Fits a) (ha : 0 ≤ a) (hb : 0 < b) :
    rem a b = some (a.tmod b) := by
  unfold rem
  rw [if_neg]
  rintro (hzero | hquot)
  · exact hb.ne' hzero
  · exact hquot (hfits.tdiv ha hb)

theorem toSize_of_nonneg {x : ℤ} (hfits : Fits x) (hx : 0 ≤ x) : toSize x = x.toNat := by
  unfold toSize
  rw [Int.emod_eq_of_lt hx (hfits.2.trans (by decide))]

theorem ofSize_of_fits {i : ℕ} (hfits : Fits i) : ofSize i = i := by
  unfold ofSize
  have hlt := hfits.2
  exact Int.bmod_eq_of_le (by omega) (by omega)

end CheckedInt64
