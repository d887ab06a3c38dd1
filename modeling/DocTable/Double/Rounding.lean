import DocTable.Double.Basic

/-!
# Rounding to the nearest double

`Double.nearest?` rounds an exact quotient of natural numbers to the nearest double, a tie going
to the even significand. Every operation on doubles is the exact operation on quotients followed
by this one rounding; `none` says that the result is too large to be finite.
-/

namespace DocTable.Double

/-- The quotient rounded to the nearest natural number, a tie going to the even one. -/
def roundHalfEven (numerator denominator : Nat) : Nat :=
  let quotient := numerator / denominator
  let remainder := numerator % denominator
  if 2 * remainder < denominator then quotient
  else if denominator < 2 * remainder then quotient + 1
  else if quotient % 2 = 0 then quotient else quotient + 1

/-- Multiplies a quotient, given as a pair, by a power of two. -/
def scale (numerator denominator : Nat) (power : Int) : Nat × Nat :=
  (numerator <<< power.toNat, denominator <<< (-power).toNat)

/-- The binary exponent of a positive quotient: the greatest `e` with `2 ^ e` at most the
quotient. The bit lengths determine it up to one, and one comparison decides. -/
def binaryExponent (numerator denominator : Nat) : Int :=
  let guess : Int := (numerator.log2 : Int) - denominator.log2
  let (top, bottom) := scale numerator denominator (-guess)
  if bottom ≤ top then guess else guess - 1

/-- The double with the given significand and exponent, or `none` if it is not finite. A
significand of `2 ^ 53` carries into the exponent by itself. -/
def assemble? (negative : Bool) (significand : Nat) (exponent : Int) : Option Double :=
  let magnitude := (exponent + 1074).toNat * hiddenBit + significand
  if finite : magnitude < magnitudeBound then some ⟨negative, magnitude, finite⟩ else none

/-- The double nearest to a quotient with a positive denominator, under the given sign. -/
def nearest? (negative : Bool) (numerator denominator : Nat) : Option Double :=
  if numerator = 0 then some { zero with negative }
  else
    let exponent := max (-1074) (binaryExponent numerator denominator - 52)
    let (top, bottom) := scale numerator denominator (-exponent)
    assemble? negative (roundHalfEven top bottom) exponent

/-- The double nearest to a quotient times a power of two. -/
def nearestScaled? (negative : Bool) (numerator denominator : Nat) (power : Int) :
    Option Double :=
  let (top, bottom) := scale numerator denominator power
  nearest? negative top bottom

/-- The double nearest to an integer. -/
def ofInt? (value : Int) : Option Double :=
  nearest? (value < 0) value.natAbs 1

/-- The double nearest to the sum. A sum that is exactly zero is positive zero unless both
operands are negative. -/
def add? (left right : Double) : Option Double :=
  let exponent := min left.exponent right.exponent
  let scaled (value : Double) : Int :=
    let shifted : Int := value.significand <<< (value.exponent - exponent).toNat
    if value.negative then -shifted else shifted
  let sum := scaled left + scaled right
  if sum = 0 then nearest? (left.negative && right.negative) 0 1
  else nearestScaled? (sum < 0) sum.natAbs 1 exponent

/-- The double nearest to the product. -/
def multiply? (left right : Double) : Option Double :=
  nearestScaled? (left.negative != right.negative) (left.significand * right.significand) 1
    (left.exponent + right.exponent)

/-- The double nearest to the quotient by a nonzero value. -/
def divide? (left right : Double) : Option Double :=
  nearestScaled? (left.negative != right.negative) left.significand right.significand
    (left.exponent - right.exponent)

/-- The double nearest to a power of ten. -/
def powerOfTen? (power : Nat) : Option Double := nearest? false (Nat.pow 10 power) 1

/-- The rounded quotient is within half a unit of the exact one. -/
theorem roundHalfEven_near (numerator denominator : Nat) (positive : 0 < denominator) :
    2 * (roundHalfEven numerator denominator * denominator) ≤ 2 * numerator + denominator ∧
      2 * numerator ≤ 2 * (roundHalfEven numerator denominator * denominator) + denominator := by
  have split_numerator : denominator * (numerator / denominator) + numerator % denominator =
      numerator := Nat.div_add_mod numerator denominator
  have remainder_lt := Nat.mod_lt numerator positive
  simp only [roundHalfEven]
  generalize numerator / denominator = quotient at *
  generalize numerator % denominator = remainder at *
  have next : (quotient + 1) * denominator = denominator * quotient + denominator := by
    rw [Nat.add_mul, Nat.mul_comm]; simp
  have same : quotient * denominator = denominator * quotient := Nat.mul_comm ..
  generalize denominator * quotient = product at *
  split
  · omega
  · split
    · omega
    · split <;> omega

/-- An exact tie goes to the even neighbour. -/
example : roundHalfEven 5 2 = 2 ∧ roundHalfEven 7 2 = 4 ∧ roundHalfEven 8 3 = 3 := by decide

/-- The sum of the doubles nearest to a tenth and two tenths is the neighbour above the double
nearest to three tenths. -/
example : (do (← nearest? false 1 10).add? (← nearest? false 2 10)) =
    some ⟨false, 0x3FD3333333333334, by decide⟩ := by decide +kernel

end DocTable.Double
