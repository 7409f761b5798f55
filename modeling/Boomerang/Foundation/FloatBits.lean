import Mathlib.Data.List.Forall2

/-!
# Equality of floating-point numbers and of slices

A number is its bits: a sign, an exponent and a fraction. As numbers, the two zeros are
equal and what is not a number equals nothing, so equality of numbers is neither coarser nor
finer than equality of bits. Slices are compared item by item.
-/

namespace Boomerang.Foundation

/-- The bits of a number with an exponent and a fraction of given widths. -/
abbrev FloatBits (exponent fraction : Nat) : Type := BitVec (1 + exponent + fraction)

namespace FloatBits

variable {exponent fraction : Nat} {left middle right : FloatBits exponent fraction}

def exponentBits (bits : FloatBits exponent fraction) : BitVec exponent :=
  bits.extractLsb' fraction exponent

def fractionBits (bits : FloatBits exponent fraction) : BitVec fraction :=
  bits.extractLsb' 0 fraction

/-- No number. -/
def isNaN (bits : FloatBits exponent fraction) : Bool :=
  bits.exponentBits = BitVec.allOnes exponent && bits.fractionBits ≠ 0

/-- One of the two zeros. -/
def isZero (bits : FloatBits exponent fraction) : Bool :=
  bits.exponentBits = 0 && bits.fractionBits = 0

/-- Equality of numbers. -/
def ieeeEq (left right : FloatBits exponent fraction) : Bool :=
  !left.isNaN && !right.isNaN && (left = right || left.isZero && right.isZero)

/-- The same bits, or zeros. -/
def SameUpToSign (left right : FloatBits exponent fraction) : Prop :=
  left = right ∨ left.isZero = true ∧ right.isZero = true

theorem isNaN_of_isZero (zero : left.isZero = true) : left.isNaN = false := by
  rw [isZero, Bool.and_eq_true, decide_eq_true_eq, decide_eq_true_eq] at zero
  rw [isNaN, decide_eq_false (not_not.mpr zero.2), Bool.and_false]

theorem ieeeEq_eq_true : left.ieeeEq right = true ↔
    left.isNaN = false ∧ right.isNaN = false ∧ left.SameUpToSign right := by
  simp [ieeeEq, SameUpToSign, and_assoc]

theorem ieeeEq_self : left.ieeeEq left = true ↔ left.isNaN = false := by
  rw [ieeeEq_eq_true, SameUpToSign]
  exact ⟨And.left, fun number => ⟨number, number, Or.inl rfl⟩⟩

theorem SameUpToSign.symm (same : left.SameUpToSign right) : right.SameUpToSign left :=
  same.imp Eq.symm And.symm

theorem SameUpToSign.trans (first : left.SameUpToSign middle) (second : middle.SameUpToSign right) :
    left.SameUpToSign right := by
  rcases first with rfl | ⟨leftZero, middleZero⟩
  · exact second
  · rcases second with rfl | ⟨_, rightZero⟩
    · exact Or.inr ⟨leftZero, middleZero⟩
    · exact Or.inr ⟨leftZero, rightZero⟩

theorem ieeeEq_symm (same : left.ieeeEq right = true) : right.ieeeEq left = true := by
  obtain ⟨leftNumber, rightNumber, upToSign⟩ := ieeeEq_eq_true.mp same
  exact ieeeEq_eq_true.mpr ⟨rightNumber, leftNumber, upToSign.symm⟩

theorem ieeeEq_trans (first : left.ieeeEq middle = true) (second : middle.ieeeEq right = true) :
    left.ieeeEq right = true := by
  obtain ⟨leftNumber, _, before⟩ := ieeeEq_eq_true.mp first
  obtain ⟨_, rightNumber, after⟩ := ieeeEq_eq_true.mp second
  exact ieeeEq_eq_true.mpr ⟨leftNumber, rightNumber, before.trans after⟩

/-- Two numbers with the same bits up to the sign of zero are equal. -/
theorem ieeeEq_of_sameUpToSign (number : left.isNaN = false) (same : left.SameUpToSign right) :
    left.ieeeEq right = true := by
  refine ieeeEq_eq_true.mpr ⟨number, ?_, same⟩
  rcases same with rfl | ⟨_, zero⟩
  · exact number
  · exact isNaN_of_isZero zero

end FloatBits

section Elementwise

variable {Item : Type} {eq : Item → Item → Bool} {left middle right : List Item}

/-- Slices are equal where they have equal lengths and equal items. -/
theorem isEqv_eq_true : left.isEqv right eq = true ↔
    List.Forall₂ (fun here there => eq here there = true) left right := by
  induction left generalizing right with
  | nil =>
      cases right with
      | nil => simp
      | cons there right => simp
  | cons here left ih =>
      cases right with
      | nil => simp
      | cons there right =>
          rw [List.isEqv_cons_cons, Bool.and_eq_true, ih, List.forall₂_cons]

theorem isEqv_symm (symm : ∀ {here there}, eq here there = true → eq there here = true)
    (same : left.isEqv right eq = true) : right.isEqv left eq = true :=
  isEqv_eq_true.mpr ((isEqv_eq_true.mp same).flip.imp fun _ _ => symm)

theorem isEqv_trans
    (trans : ∀ {here there beyond}, eq here there = true → eq there beyond = true →
      eq here beyond = true)
    (first : left.isEqv middle eq = true) (second : middle.isEqv right eq = true) :
    left.isEqv right eq = true := by
  rw [isEqv_eq_true] at first second ⊢
  induction first generalizing right with
  | nil => exact second
  | cons head _ ih =>
      cases second with
      | cons next rest => exact .cons (trans head next) (ih rest)

end Elementwise

end Boomerang.Foundation
