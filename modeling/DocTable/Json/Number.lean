import DocTable.Double.Rounding

/-!
# JSON numbers

A number is an integer of 64 bits, signed or unsigned, or a finite double. The two kinds are
different values even where they are numerically equal, but they are ordered together: two
integers of the signed range exactly, and any other pair as doubles.
-/

namespace DocTable

/-- A JSON number. -/
inductive Number where
  /-- An integer of the signed or the unsigned 64-bit range. -/
  | integer (value : Int) (inRange : -0x8000000000000000 ≤ value ∧ value < 0x10000000000000000)
  /-- A finite double. -/
  | double (value : Double)
deriving DecidableEq, Repr

namespace Number

/-- The integer as a number if it is in range. -/
def ofInt? (value : Int) : Option Number :=
  if inRange : -0x8000000000000000 ≤ value ∧ value < 0x10000000000000000 then
    some (.integer value inRange)
  else none

/-- The value if it is an integer of the signed range. -/
def signed? : Number → Option Int
  | .integer value _ => if value < 0x8000000000000000 then some value else none
  | .double _ => none

/-- The nearest double. Integers of the range are far below the greatest double, so the default
is never taken. -/
def toDouble : Number → Double
  | .integer value _ => (Double.ofInt? value).getD .zero
  | .double value => value

/-- Equality of values: the kinds agree, and so do the values. The two zeros among the doubles are
equal. -/
def same : Number → Number → Bool
  | .integer left _, .integer right _ => left == right
  | .double left, .double right => left.same right
  | _, _ => false

/-- The order for comparing and sorting: exact between integers of the signed range, otherwise
the total order of the nearest doubles. -/
def compare (left right : Number) : Ordering :=
  match left.signed?, right.signed? with
  | some leftValue, some rightValue => Ord.compare leftValue rightValue
  | _, _ => left.toDouble.compare right.toDouble

/-- The sum. It is an integer if both operands and the sum are in the signed range, and otherwise
the nearest double to the sum of the nearest doubles, or `none` if that is not finite. -/
def add? (left right : Number) : Option Number :=
  match left.signed?, right.signed? with
  | some leftValue, some rightValue =>
    let sum := leftValue + rightValue
    if inRange : -0x8000000000000000 ≤ sum ∧ sum < 0x8000000000000000 then
      some (.integer sum ⟨inRange.1, by omega⟩)
    else (left.toDouble.add? right.toDouble).map .double
  | _, _ => (left.toDouble.add? right.toDouble).map .double

@[simp] theorem same_self (value : Number) : value.same value = true := by
  cases value <;> simp [same]

end Number

end DocTable
