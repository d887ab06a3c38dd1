import DocTable.Json.Number
import DocTable.Proofs.Double.Overflow

/-!
# Sums of numbers

Two integers have an exact sum if both and the sum are of the signed range. Any other sum is
that of the nearest doubles, so it is a double, and it is missing exactly if the exact values
of the numbers add up to more than a double can hold. No integer is large enough for that.
-/

namespace DocTable.Number

/-- The exact value. -/
def toRat : Number → ℚ
  | .integer value _ => value
  | .double value => value.toRat

/-- A sum that is not taken between integers of the signed range is that of doubles. -/
theorem add?_eq_double {left right : Number}
    (mixed : ∀ first second : Int, left.signed? = some first → right.signed? = some second →
      ¬(-0x8000000000000000 ≤ first + second ∧ first + second < 0x8000000000000000)) :
    left.add? right = (left.toDouble.add? right.toDouble).map .double := by
  rw [add?]
  split
  · next first second leftSigned rightSigned =>
      exact dif_neg (mixed first second leftSigned rightSigned)
  · rfl

/-- Integers of the signed range with a sum of that range are added exactly. -/
theorem add?_eq_integer {left right : Number} {first second : Int}
    (leftSigned : left.signed? = some first) (rightSigned : right.signed? = some second)
    (small : first + second < 0x8000000000000000)
    (sumRange : -0x8000000000000000 ≤ first + second ∧ first + second < 0x10000000000000000) :
    left.add? right = some (.integer (first + second) sumRange) := by
  simp [add?, leftSigned, rightSigned, small, sumRange.1]

theorem signed?_integer_eq_some_iff {value own : Int}
    {inRange : -0x8000000000000000 ≤ value ∧ value < 0x10000000000000000} :
    (integer value inRange).signed? = some own ↔ value = own ∧ value < 0x8000000000000000 := by
  rw [signed?]
  split
  · next signed => simp [signed]
  · next unsigned => simp [unsigned]

theorem abs_integer_le (value : Int)
    (inRange : -0x8000000000000000 ≤ value ∧ value < 0x10000000000000000) :
    |(integer value inRange).toRat| ≤ 2 ^ 64 ∧
      |(integer value inRange).toDouble.toRat| ≤ 2 ^ 64 := by
  have small : value.natAbs ≤ 0x10000000000000000 := by omega
  obtain ⟨rounded, found, -⟩ := Double.exists_ofInt? small
  have nearest : (integer value inRange).toDouble = rounded := by rw [toDouble, found]; rfl
  constructor
  · rw [toRat, ← Int.cast_abs, Int.abs_eq_natAbs]
    exact_mod_cast small
  · rw [nearest]
    exact Double.abs_toRat_ofInt? small found

theorem abs_toRat_le (number : Number) : |number.toRat| ≤ Double.greatest := by
  cases number with
  | integer value inRange => exact (abs_integer_le value inRange).1.trans Double.two_pow_le_greatest
  | double value => exact value.abs_toRat_le

theorem add?_integer_ne_none {left right : Number} {value : Int}
    {inRange : -0x8000000000000000 ≤ value ∧ value < 0x10000000000000000}
    (integral : left = .integer value inRange ∨ right = .integer value inRange) :
    left.add? right ≠ none ∧ |left.toRat + right.toRat| < Double.overflow := by
  obtain ⟨narrow, narrowDouble⟩ := abs_integer_le value inRange
  have exact : |left.toRat + right.toRat| < Double.overflow := by
    rcases integral with rfl | rfl
    · exact Double.abs_add_lt narrow right.abs_toRat_le
    · rw [add_comm]
      exact Double.abs_add_lt narrow left.abs_toRat_le
  refine ⟨?_, exact⟩
  by_cases inside : ∃ first second : Int, left.signed? = some first ∧ right.signed? = some second ∧
      -0x8000000000000000 ≤ first + second ∧ first + second < 0x8000000000000000
  · obtain ⟨first, second, leftSigned, rightSigned, inside⟩ := inside
    rw [add?_eq_integer leftSigned rightSigned inside.2 ⟨inside.1, by omega⟩]
    exact Option.some_ne_none _
  · have rounded : |left.toDouble.toRat + right.toDouble.toRat| < Double.overflow := by
      rcases integral with rfl | rfl
      · exact Double.abs_add_lt narrowDouble right.toDouble.abs_toRat_le
      · rw [add_comm]
        exact Double.abs_add_lt narrowDouble left.toDouble.abs_toRat_le
    rw [add?_eq_double fun first second leftSigned rightSigned inRange =>
      inside ⟨first, second, leftSigned, rightSigned, inRange⟩]
    simpa [Double.add?_eq_none_iff] using rounded

/-- Two numbers have no sum if and only if their exact values add up to the bound or more. -/
theorem add?_eq_none_iff (left right : Number) :
    left.add? right = none ↔ Double.overflow ≤ |left.toRat + right.toRat| := by
  have integral {value : Int}
      {inRange : -0x8000000000000000 ≤ value ∧ value < 0x10000000000000000}
      (integral : left = .integer value inRange ∨ right = .integer value inRange) :
      left.add? right = none ↔ Double.overflow ≤ |left.toRat + right.toRat| := by
    obtain ⟨found, below⟩ := add?_integer_ne_none integral
    exact iff_of_false found (not_le.2 below)
  match left, right with
  | .integer _ _, _ => exact integral (.inl rfl)
  | _, .integer _ _ => exact integral (.inr rfl)
  | .double first, .double second =>
      have mixed (own other : Int) : (Number.double first).signed? = some own →
          (Number.double second).signed? = some other →
          ¬(-0x8000000000000000 ≤ own + other ∧ own + other < 0x8000000000000000) := nofun
      rw [add?_eq_double mixed, Option.map_eq_none_iff, Double.add?_eq_none_iff]
      rfl

section Integers

variable {left right : Int}
variable (leftRange : -0x8000000000000000 ≤ left ∧ left < 0x10000000000000000)
variable (rightRange : -0x8000000000000000 ≤ right ∧ right < 0x10000000000000000)

/-- Two integers are added exactly if nothing leaves the signed range. -/
theorem add?_integer_of_signed (leftSigned : left < 0x8000000000000000)
    (rightSigned : right < 0x8000000000000000) (small : left + right < 0x8000000000000000)
    (sumRange : -0x8000000000000000 ≤ left + right ∧ left + right < 0x10000000000000000) :
    (integer left leftRange).add? (integer right rightRange) =
      some (.integer (left + right) sumRange) := by
  have signed {value : Int}
      {inRange : -0x8000000000000000 ≤ value ∧ value < 0x10000000000000000}
      (small : value < 0x8000000000000000) : (integer value inRange).signed? = some value :=
    signed?_integer_eq_some_iff.2 ⟨rfl, small⟩
  exact add?_eq_integer (signed leftSigned) (signed rightSigned) small sumRange

/-- Otherwise their sum is a double, that of the nearest doubles. -/
theorem exists_double_of_unsigned
    (unsigned : ¬(left < 0x8000000000000000 ∧ right < 0x8000000000000000 ∧
      -0x8000000000000000 ≤ left + right ∧ left + right < 0x8000000000000000)) :
    ∃ sum,
      (integer left leftRange).toDouble.add? (integer right rightRange).toDouble = some sum ∧
        (integer left leftRange).add? (integer right rightRange) = some (.double sum) := by
  have rounded : (integer left leftRange).add? (integer right rightRange) =
      ((integer left leftRange).toDouble.add? (integer right rightRange).toDouble).map .double := by
    apply add?_eq_double
    intro first second leftSigned rightSigned inside
    obtain ⟨rfl, leftSmall⟩ := signed?_integer_eq_some_iff.1 leftSigned
    obtain ⟨rfl, rightSmall⟩ := signed?_integer_eq_some_iff.1 rightSigned
    exact unsigned ⟨leftSmall, rightSmall, inside⟩
  have finite : (integer left leftRange).add? (integer right rightRange) ≠ none :=
    (add?_integer_ne_none (.inl rfl)).1
  obtain ⟨number, found⟩ := Option.ne_none_iff_exists'.1 finite
  obtain ⟨sum, added, same⟩ := Option.map_eq_some_iff.1 (rounded.symm.trans found)
  exact ⟨sum, added, found.trans (congrArg some same.symm)⟩

end Integers

end DocTable.Number
