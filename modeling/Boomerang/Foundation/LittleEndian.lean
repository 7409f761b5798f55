import Mathlib.Data.UInt

/-!
# Little-endian numbers

Fixed-width little-endian byte strings and the numbers they denote. `toLE` is
`to_le_bytes` at a width given in bytes, `ofLE` is `from_le_bytes`.
-/

namespace Boomerang.Foundation

/-- The low `width` bytes of a number, least significant first. -/
def toLE : Nat → Nat → List UInt8
  | 0, _ => []
  | width + 1, value => UInt8.ofNat value :: toLE width (value / 256)

/-- The number a little-endian byte string denotes. -/
def ofLE : List UInt8 → Nat
  | [] => 0
  | byte :: rest => byte.toNat + 256 * ofLE rest

@[simp] theorem length_toLE (width value : Nat) : (toLE width value).length = width := by
  induction width generalizing value with
  | zero => rfl
  | succ width ih => simp [toLE, ih]

/-- A number that fits its width is read back exactly. -/
theorem ofLE_toLE {width value : Nat} (fits : value < 256 ^ width) :
    ofLE (toLE width value) = value := by
  induction width generalizing value with
  | zero =>
      have : value = 0 := by simpa using fits
      simp [toLE, ofLE, this]
  | succ width ih =>
      have tail : value / 256 < 256 ^ width := by
        rw [Nat.div_lt_iff_lt_mul (by decide)]
        simpa [Nat.pow_succ] using fits
      simp only [toLE, ofLE, ih tail, UInt8.toNat_ofNat']
      omega

/-- A byte string denotes a number below the range of its width. -/
theorem ofLE_lt (bytes : List UInt8) : ofLE bytes < 256 ^ bytes.length := by
  induction bytes with
  | nil => simp [ofLE]
  | cons byte rest ih =>
      have small := byte.toNat_lt
      simp only [ofLE, List.length_cons, Nat.pow_succ]
      omega

/-- Reading and writing back gives the same bytes. -/
theorem toLE_ofLE (bytes : List UInt8) : toLE bytes.length (ofLE bytes) = bytes := by
  induction bytes with
  | nil => rfl
  | cons byte rest ih =>
      have small : byte.toNat < 256 := byte.toNat_lt
      have head : UInt8.ofNat (byte.toNat + 256 * ofLE rest) = byte := by
        apply UInt8.toNat_inj.mp
        simp only [UInt8.toNat_ofNat']
        omega
      have tail : (byte.toNat + 256 * ofLE rest) / 256 = ofLE rest := by omega
      simp only [List.length_cons, ofLE, toLE, head, tail, ih]

/-- Byte strings of one length that denote the same number are equal. -/
theorem ofLE_injective {left right : List UInt8} (lengths : left.length = right.length)
    (same : ofLE left = ofLE right) : left = right := by
  rw [← toLE_ofLE left, ← toLE_ofLE right, lengths, same]

end Boomerang.Foundation
