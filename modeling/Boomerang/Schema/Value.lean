import Boomerang.Foundation.FloatBits
import Boomerang.Schema.Types

/-!
# Equality of values

A single float is compared by its bits, and the floats of an array as numbers. Equality of
values is symmetric and transitive; it is reflexive, and the same for arrays as for their
items, where an array holds no NaN and two arrays do not differ in the signs of zeros.
-/

namespace Boomerang

open Foundation

/-- A type with an equality that is an equivalence. -/
structure EqType where
  Carrier : Type
  eq : Carrier → Carrier → Bool
  equivalence : Equivalence fun left right => eq left right = true

/-- The types of other crates that values hold. -/
structure ForeignTypes where
  Decimal : EqType
  Json : EqType
  Uuid : EqType
  NaiveDateTime : EqType
  DateTimeUtc : EqType
  NaiveDate : EqType
  NaiveTime : EqType
  DateTimeFixed : EqType

/-- A type whose values are equal where they are the same. -/
def EqType.of (Carrier : Type) [DecidableEq Carrier] : EqType where
  Carrier := Carrier
  eq left right := left = right
  equivalence := by
    simp only [decide_eq_true_eq]
    exact eq_equivalence

/-- Numbers in the place of the types of other crates. -/
def plainTypes : ForeignTypes :=
  ⟨.of Nat, .of Nat, .of Nat, .of Nat, .of Nat, .of Nat, .of Nat, .of Nat⟩

/-- `f64`. -/
abbrev F64 : Type := FloatBits 11 52

/-- `CustomValue`. -/
structure CustomValue where
  name : Symbol
  value : String
deriving DecidableEq, Repr

/-- `Value`. -/
inductive Value (foreign : ForeignTypes) where
  | null
  | bool (value : Bool)
  | int (value : Int64)
  | float (value : F64)
  | decimal (value : foreign.Decimal.Carrier)
  | text (value : String)
  | blob (value : List UInt8)
  | json (value : foreign.Json.Carrier)
  | uuid (value : foreign.Uuid.Carrier)
  | timestamp (value : foreign.NaiveDateTime.Carrier)
  | timestampTz (value : foreign.DateTimeUtc.Carrier)
  | date (value : foreign.NaiveDate.Carrier)
  | time (value : foreign.NaiveTime.Carrier)
  | timeTz (value : foreign.DateTimeFixed.Carrier)
  | custom (value : CustomValue)
  | boolArray (values : List Bool)
  | intArray (values : List Int64)
  | floatArray (values : List F64)
  | decimalArray (values : List foreign.Decimal.Carrier)
  | textArray (values : List String)

namespace Value

variable {foreign : ForeignTypes}

/-- `Value::eq`. -/
def eq : Value foreign → Value foreign → Bool
  | null, null => true
  | bool a, bool b => a = b
  | int a, int b => a = b
  | float a, float b => a = b
  | decimal a, decimal b => foreign.Decimal.eq a b
  | text a, text b => a = b
  | blob a, blob b => a = b
  | json a, json b => foreign.Json.eq a b
  | uuid a, uuid b => foreign.Uuid.eq a b
  | timestamp a, timestamp b => foreign.NaiveDateTime.eq a b
  | timestampTz a, timestampTz b => foreign.DateTimeUtc.eq a b
  | date a, date b => foreign.NaiveDate.eq a b
  | time a, time b => foreign.NaiveTime.eq a b
  | timeTz a, timeTz b => foreign.DateTimeFixed.eq a b
  | custom a, custom b => a = b
  | boolArray a, boolArray b => a = b
  | intArray a, intArray b => a = b
  | floatArray a, floatArray b => a.isEqv b FloatBits.ieeeEq
  | decimalArray a, decimalArray b => a.isEqv b foreign.Decimal.eq
  | textArray a, textArray b => a = b
  | _, _ => false

/-- How two values of one kind are equal. -/
inductive Equal : Value foreign → Value foreign → Prop where
  | same {value} (plain : ∀ values, value ≠ .floatArray values) : Equal value value
  | decimal {a b} (equal : foreign.Decimal.eq a b = true) : Equal (.decimal a) (.decimal b)
  | json {a b} (equal : foreign.Json.eq a b = true) : Equal (.json a) (.json b)
  | uuid {a b} (equal : foreign.Uuid.eq a b = true) : Equal (.uuid a) (.uuid b)
  | timestamp {a b} (equal : foreign.NaiveDateTime.eq a b = true) :
      Equal (.timestamp a) (.timestamp b)
  | timestampTz {a b} (equal : foreign.DateTimeUtc.eq a b = true) :
      Equal (.timestampTz a) (.timestampTz b)
  | date {a b} (equal : foreign.NaiveDate.eq a b = true) : Equal (.date a) (.date b)
  | time {a b} (equal : foreign.NaiveTime.eq a b = true) : Equal (.time a) (.time b)
  | timeTz {a b} (equal : foreign.DateTimeFixed.eq a b = true) : Equal (.timeTz a) (.timeTz b)
  | floatArray {a b} (equal : a.isEqv b FloatBits.ieeeEq = true) :
      Equal (.floatArray a) (.floatArray b)
  | decimalArray {a b} (equal : a.isEqv b foreign.Decimal.eq = true) :
      Equal (.decimalArray a) (.decimalArray b)

theorem equal_of_eq {a b : Value foreign} (equal : a.eq b = true) : Equal a b := by
  unfold eq at equal
  split at equal
  all_goals first
    | cases equal; done
    | exact .same nofun
    | rw [of_decide_eq_true equal]; exact .same nofun
    | constructor; exact equal

/-- A value that is no array of floats equals itself. -/
theorem eq_self {a : Value foreign} (plain : ∀ values, a ≠ .floatArray values) :
    a.eq a = true := by
  cases a with
  | floatArray values => exact absurd rfl (plain values)
  | decimalArray values =>
      exact isEqv_eq_true.mpr (List.forall₂_same.mpr fun value _ =>
        foreign.Decimal.equivalence.refl value)
  | decimal value => exact foreign.Decimal.equivalence.refl value
  | json value => exact foreign.Json.equivalence.refl value
  | uuid value => exact foreign.Uuid.equivalence.refl value
  | timestamp value => exact foreign.NaiveDateTime.equivalence.refl value
  | timestampTz value => exact foreign.DateTimeUtc.equivalence.refl value
  | date value => exact foreign.NaiveDate.equivalence.refl value
  | time value => exact foreign.NaiveTime.equivalence.refl value
  | timeTz value => exact foreign.DateTimeFixed.equivalence.refl value
  | null => rfl
  | _ => exact decide_eq_true rfl

theorem eq_iff_equal {a b : Value foreign} : a.eq b = true ↔ Equal a b := by
  refine ⟨equal_of_eq, fun equal => ?_⟩
  cases equal with
  | same plain => exact eq_self plain
  | _ => assumption

theorem Equal.symm {a b : Value foreign} (equal : Equal a b) : Equal b a := by
  cases equal with
  | same plain => exact .same plain
  | decimal equal => exact .decimal (foreign.Decimal.equivalence.symm equal)
  | json equal => exact .json (foreign.Json.equivalence.symm equal)
  | uuid equal => exact .uuid (foreign.Uuid.equivalence.symm equal)
  | timestamp equal => exact .timestamp (foreign.NaiveDateTime.equivalence.symm equal)
  | timestampTz equal => exact .timestampTz (foreign.DateTimeUtc.equivalence.symm equal)
  | date equal => exact .date (foreign.NaiveDate.equivalence.symm equal)
  | time equal => exact .time (foreign.NaiveTime.equivalence.symm equal)
  | timeTz equal => exact .timeTz (foreign.DateTimeFixed.equivalence.symm equal)
  | floatArray equal => exact .floatArray (isEqv_symm FloatBits.ieeeEq_symm equal)
  | decimalArray equal =>
      exact .decimalArray (isEqv_symm (fun same => foreign.Decimal.equivalence.symm same) equal)

theorem Equal.trans {a b c : Value foreign} (first : Equal a b) (second : Equal b c) :
    Equal a c := by
  cases first with
  | same => exact second
  | decimal first =>
      cases second with
      | same => exact .decimal first
      | decimal second => exact .decimal (foreign.Decimal.equivalence.trans first second)
  | json first =>
      cases second with
      | same => exact .json first
      | json second => exact .json (foreign.Json.equivalence.trans first second)
  | uuid first =>
      cases second with
      | same => exact .uuid first
      | uuid second => exact .uuid (foreign.Uuid.equivalence.trans first second)
  | timestamp first =>
      cases second with
      | same => exact .timestamp first
      | timestamp second => exact .timestamp (foreign.NaiveDateTime.equivalence.trans first second)
  | timestampTz first =>
      cases second with
      | same => exact .timestampTz first
      | timestampTz second =>
        exact .timestampTz (foreign.DateTimeUtc.equivalence.trans first second)
  | date first =>
      cases second with
      | same => exact .date first
      | date second => exact .date (foreign.NaiveDate.equivalence.trans first second)
  | time first =>
      cases second with
      | same => exact .time first
      | time second => exact .time (foreign.NaiveTime.equivalence.trans first second)
  | timeTz first =>
      cases second with
      | same => exact .timeTz first
      | timeTz second => exact .timeTz (foreign.DateTimeFixed.equivalence.trans first second)
  | floatArray first =>
      cases second with
      | same => exact .floatArray first
      | floatArray second => exact .floatArray (isEqv_trans FloatBits.ieeeEq_trans first second)
  | decimalArray first =>
      cases second with
      | same => exact .decimalArray first
      | decimalArray second => exact .decimalArray (isEqv_trans
          (fun before after => foreign.Decimal.equivalence.trans before after) first second)

/-- An array of floats holds a NaN. -/
def HoldsNaN (value : Value foreign) : Prop :=
  ∃ values, value = .floatArray values ∧ ∃ bits ∈ values, bits.isNaN = true

/-- Two arrays of floats differ, and only in the signs of zeros. -/
def DifferInZeros (a b : Value foreign) : Prop :=
  ∃ left right, a = .floatArray left ∧ b = .floatArray right ∧ left ≠ right ∧
    List.Forall₂ FloatBits.SameUpToSign left right

/-- What is claimed of the equality of three values. -/
structure EqualityLaws (a b c : Value foreign) : Prop where
  refl : a.eq a = true
  symm : a.eq b = true → b.eq a = true
  trans : a.eq b = true → b.eq c = true → a.eq c = true
  elementwise : ∀ left right, a = .floatArray left → b = .floatArray right →
    (a.eq b = true ↔ left.length = right.length ∧ ∀ (index : Nat) here there,
      left[index]? = some here → right[index]? = some there →
        (float here : Value foreign).eq (float there) = true)

/-- Floats are equal one by one where they have the same bits. -/
theorem elementwise_iff_eq {left right : List F64} :
    (left.length = right.length ∧ ∀ (index : Nat) here there,
      left[index]? = some here → right[index]? = some there →
        (float here : Value foreign).eq (float there) = true) ↔ left = right := by
  constructor
  · rintro ⟨lengths, each⟩
    refine List.ext_getElem lengths fun index inLeft inRight => ?_
    exact of_decide_eq_true (each index _ _ (List.getElem?_eq_getElem inLeft)
      (List.getElem?_eq_getElem inRight))
  · rintro rfl
    refine ⟨rfl, fun index here there leftHere rightHere => ?_⟩
    cases leftHere.symm.trans rightHere
    exact decide_eq_true rfl

/-- The laws hold exactly where the first value is no array with a NaN, and the first two
are not arrays that differ in the signs of zeros. -/
theorem equalityLaws_iff (a b c : Value foreign) :
    EqualityLaws a b c ↔ ¬ HoldsNaN a ∧ ¬ DifferInZeros a b := by
  constructor
  · intro laws
    have numbers : ¬ HoldsNaN a := by
      rintro ⟨values, rfl, bits, member, noNumber⟩
      have each := List.forall₂_same.mp (isEqv_eq_true.mp laws.refl) bits member
      rw [FloatBits.ieeeEq_self, noNumber] at each
      cases each
    refine ⟨numbers, ?_⟩
    rintro ⟨left, right, rfl, rfl, differ, upToSign⟩
    have equal : left.isEqv right FloatBits.ieeeEq = true := by
      refine isEqv_eq_true.mpr ?_
      have both := (List.forall₂_iff_get.mp upToSign)
      refine List.forall₂_iff_get.mpr ⟨both.1, fun index inLeft inRight => ?_⟩
      refine FloatBits.ieeeEq_of_sameUpToSign ?_ (both.2 index inLeft inRight)
      refine Bool.eq_false_iff.mpr fun noNumber => numbers ⟨left, rfl, _, ?_, noNumber⟩
      exact List.get_mem left ⟨index, inLeft⟩
    exact differ (elementwise_iff_eq.mp ((laws.elementwise left right rfl rfl).mp equal))
  · rintro ⟨numbers, zeros⟩
    have itself : a.eq a = true := by
      by_cases floats : ∃ values, a = .floatArray values
      · obtain ⟨values, rfl⟩ := floats
        refine isEqv_eq_true.mpr (List.forall₂_same.mpr fun bits member => ?_)
        exact FloatBits.ieeeEq_self.mpr (Bool.eq_false_iff.mpr fun noNumber =>
          numbers ⟨values, rfl, bits, member, noNumber⟩)
      · exact eq_self fun values same => floats ⟨values, same⟩
    refine ⟨itself, ?_, ?_, ?_⟩
    · exact fun equal => eq_iff_equal.mpr (eq_iff_equal.mp equal).symm
    · exact fun first second =>
        eq_iff_equal.mpr ((eq_iff_equal.mp first).trans (eq_iff_equal.mp second))
    · rintro left right rfl rfl
      rw [elementwise_iff_eq]
      constructor
      · intro equal
        by_contra differ
        refine zeros ⟨left, right, rfl, rfl, differ, ?_⟩
        exact (isEqv_eq_true.mp equal).imp fun _ _ same => (FloatBits.ieeeEq_eq_true.mp same).2.2
      · rintro rfl
        exact itself

/-- An array with a NaN is not equal to itself, and two arrays of the two zeros are equal. -/
theorem not_equalityLaws_nan :
    (floatArray [0x7ff8000000000000] : Value plainTypes).eq (floatArray [0x7ff8000000000000]) =
        false ∧
      (floatArray [0] : Value plainTypes).eq (floatArray [0x8000000000000000]) = true ∧
      (float 0 : Value plainTypes).eq (float 0x8000000000000000) = false ∧
      ¬ ∀ a b c : Value plainTypes, EqualityLaws a b c := by
  refine ⟨by decide, by decide, by decide, fun laws => ?_⟩
  have itself := (laws (floatArray [0x7ff8000000000000]) null null).refl
  exact absurd itself (by decide)

end Value

end Boomerang
