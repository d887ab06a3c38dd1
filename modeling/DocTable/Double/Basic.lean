/-!
# Finite double-precision numbers

`Double` is a finite binary floating-point number with 53 significant bits, kept as a sign and a
magnitude. The magnitude is the number's place among the nonnegative finite values in ascending
order, so equality, order and the neighbours of a value are facts about natural numbers. No
arithmetic of the machine is involved anywhere.
-/

namespace DocTable

/-- The number of nonnegative finite values: their places run from zero below this bound. -/
def Double.magnitudeBound : Nat := 0x7FF0000000000000

/-- A finite binary floating-point number of double precision. Both zeros are values. -/
structure Double where
  /-- Whether the sign is negative, for a zero too. -/
  negative : Bool
  /-- The place of the absolute value among the nonnegative finite values. -/
  magnitude : Nat
  /-- The value is finite. -/
  magnitude_lt : magnitude < Double.magnitudeBound
deriving DecidableEq, Repr

namespace Double

/-- Positive zero. -/
def zero : Double := ⟨false, 0, by decide⟩

instance : Inhabited Double := ⟨zero⟩

/-- Whether the value is one of the two zeros. -/
def isZero (value : Double) : Bool := value.magnitude == 0

/-- The value with the other sign. -/
def negate (value : Double) : Double := { value with negative := !value.negative }

/-- The weight of the bit in front of the fraction field, which is not stored. -/
def hiddenBit : Nat := 0x10000000000000

/-- The biased exponent field: zero for the subnormal values. -/
def exponentField (value : Double) : Nat := value.magnitude / hiddenBit

/-- The natural number `m` such that the absolute value is `m * 2 ^ value.exponent`. -/
def significand (value : Double) : Nat :=
  if value.exponentField = 0 then value.magnitude
  else hiddenBit + value.magnitude % hiddenBit

/-- The power of two that scales the significand. -/
def exponent (value : Double) : Int :=
  if value.exponentField = 0 then -1074 else (value.exponentField : Int) - 1075

/-- The place in the total order: negative values first, and negative zero below positive zero. -/
def orderKey (value : Double) : Int :=
  if value.negative then -(value.magnitude : Int) - 1 else value.magnitude

/-- The total order, which tells the two zeros apart. -/
def compare (left right : Double) : Ordering := Ord.compare left.orderKey right.orderKey

/-- Numerical equality, for which the two zeros are equal. -/
def same (left right : Double) : Bool :=
  (left.isZero && right.isZero) || left == right

/-- The order key determines the value. -/
theorem orderKey_injective {left right : Double} (same : left.orderKey = right.orderKey) :
    left = right := by
  obtain ⟨leftNegative, leftMagnitude, _⟩ := left
  obtain ⟨rightNegative, rightMagnitude, _⟩ := right
  cases leftNegative <;> cases rightNegative <;> simp [orderKey] at same ⊢ <;> omega

@[simp] theorem same_self (value : Double) : value.same value = true := by
  simp [same]

end Double

end DocTable
