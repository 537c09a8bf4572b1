import Mathlib.Data.List.Basic
import Mathlib.Tactic

/-!
# Little-endian records

Unsigned numbers as bytes, least significant first, and records as runs of such
fields.  `field` reads a field at an offset, as a copy of the bytes into a packed
structure does.
-/

namespace LittleEndian

def toBytes : ℕ → ℕ → List UInt8
  | 0, _ => []
  | width + 1, n => UInt8.ofNat n :: toBytes width (n / 256)

def ofBytes : List UInt8 → ℕ
  | [] => 0
  | byte :: bytes => byte.toNat + 256 * ofBytes bytes

/-- The field of `width` bytes at `offset`. -/
def field (bytes : List UInt8) (offset width : ℕ) : ℕ :=
  ofBytes ((bytes.drop offset).take width)

@[simp] theorem length_toBytes (width n : ℕ) : (toBytes width n).length = width := by
  induction width generalizing n with
  | zero => rfl
  | succ width ih => simp [toBytes, ih]

theorem ofBytes_toBytes (width n : ℕ) : ofBytes (toBytes width n) = n % 256 ^ width := by
  induction width generalizing n with
  | zero => simp [toBytes, ofBytes, Nat.mod_one]
  | succ width ih =>
      have hbyte : (UInt8.ofNat n).toNat = n % 256 := UInt8.toNat_ofNat'
      rw [toBytes, ofBytes, ih, hbyte, pow_succ', Nat.mod_mul]

/-- Bytes are determined by their value. -/
theorem toBytes_ofBytes (bytes : List UInt8) : toBytes bytes.length (ofBytes bytes) = bytes := by
  induction bytes with
  | nil => rfl
  | cons byte bytes ih =>
      have hbyte : byte.toNat < 256 := byte.toNat_lt
      have hlow : UInt8.ofNat (byte.toNat + 256 * ofBytes bytes) = byte := by
        apply UInt8.toNat_inj.mp
        rw [UInt8.toNat_ofNat']
        omega
      have hhigh : (byte.toNat + 256 * ofBytes bytes) / 256 = ofBytes bytes := by omega
      rw [List.length_cons, toBytes, ofBytes, hlow, hhigh, ih]

section Field

variable {width : ℕ} {rest : List UInt8}

theorem field_first (n : ℕ) :
    field (toBytes width n ++ rest) 0 width = n % 256 ^ width := by
  unfold field
  rw [List.drop_zero, List.take_left' (length_toBytes width n), ofBytes_toBytes]

theorem field_later {offset width' : ℕ} (n : ℕ) (hoffset : width ≤ offset) :
    field (toBytes width n ++ rest) offset width' = field rest (offset - width) width' := by
  unfold field
  rw [List.drop_append, length_toBytes,
    List.drop_eq_nil_of_le (by rw [length_toBytes]; exact hoffset), List.nil_append]

theorem ofBytes_lt (bytes : List UInt8) : ofBytes bytes < 256 ^ bytes.length := by
  induction bytes with
  | nil => simp [ofBytes]
  | cons byte bytes ih =>
      have hbyte : byte.toNat < 256 := byte.toNat_lt
      rw [ofBytes, List.length_cons, pow_succ]
      omega

theorem field_lt (bytes : List UInt8) (offset width : ℕ) :
    field bytes offset width < 256 ^ width := by
  refine (ofBytes_lt _).trans_le (Nat.pow_le_pow_right (by norm_num) ?_)
  rw [List.length_take]
  exact min_le_left _ _

/-- A field depends on its own bytes only. -/
theorem field_append {bytes : List UInt8} (rest : List UInt8) {offset : ℕ}
    (hinside : offset + width ≤ bytes.length) :
    field (bytes ++ rest) offset width = field bytes offset width := by
  unfold field
  rw [List.drop_append_of_le_length (by omega), List.take_append_of_le_length]
  rw [List.length_drop]
  omega

theorem field_take (bytes : List UInt8) {offset size : ℕ} (hinside : offset + width ≤ size) :
    field (bytes.take size) offset width = field bytes offset width := by
  unfold field
  rw [List.drop_take, List.take_take, Nat.min_eq_left (by omega)]

theorem toBytes_field {bytes : List UInt8} {offset : ℕ}
    (hinside : offset + width ≤ bytes.length) :
    toBytes width (field bytes offset width) = (bytes.drop offset).take width := by
  have hlength : ((bytes.drop offset).take width).length = width := by
    rw [List.length_take, List.length_drop]
    omega
  have hbytes := toBytes_ofBytes ((bytes.drop offset).take width)
  rwa [hlength] at hbytes

end Field

/-- The value of `width` bytes in two's complement. -/
def signed (width n : ℕ) : ℤ := if 2 * n < 256 ^ width then n else n - 256 ^ width

end LittleEndian
