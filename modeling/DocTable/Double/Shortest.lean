import DocTable.Double.Basic

/-!
# Shortest decimals

The fewest decimal digits that identify a double: of all decimals that round to the value, one
with the least number of digits, and among those the nearest. The search tries grids of one to
seventeen digits and looks at the two neighbours of the exact value on each.
-/

namespace DocTable.Double

/-- A nonnegative decimal, `digits * 10 ^ exponent`. -/
structure Decimal where
  /-- The digits, read as one number. -/
  digits : Nat
  /-- The power of ten of the last digit. -/
  exponent : Int
deriving DecidableEq, Repr

/-- Which of two equally near decimals is taken. -/
inductive Tie where
  /-- The one whose last digit is even. -/
  | toEven
  /-- The greater one. -/
  | up
deriving DecidableEq, Repr

/-- The exact comparison of `left * 10 ^ ten` with `right * 2 ^ two`. -/
def compareScaled (left : Nat) (ten : Int) (right : Nat) (two : Int) : Ordering :=
  Ord.compare ((left * Nat.pow 10 ten.toNat) <<< (-two).toNat)
    ((right * Nat.pow 10 (-ten).toNat) <<< two.toNat)

/-- Whether the neighbour below the absolute value is only half as far away as the one above:
the value is a power of two and not among the least. -/
def narrowBelow (value : Double) : Bool :=
  value.magnitude % hiddenBit == 0 && 1 < value.exponentField

/-- Whether a decimal is among the reals that round to the absolute value: those from halfway to
the neighbour below up to halfway to the neighbour above, the ends included exactly when the
significand is even. -/
def readsBack (value : Double) (decimal : Decimal) : Bool :=
  let low := 4 * value.significand - if value.narrowBelow then 1 else 2
  let high := 4 * value.significand + 2
  let ends := value.significand % 2 == 0
  let fromLow := compareScaled decimal.digits decimal.exponent low (value.exponent - 2)
  let fromHigh := compareScaled decimal.digits decimal.exponent high (value.exponent - 2)
  (fromLow == .gt || (ends && fromLow == .eq)) && (fromHigh == .lt || (ends && fromHigh == .eq))

/-- The least `k` with the absolute value below `10 ^ k`, looked for upwards from an estimate that
is never too high. -/
def decimalScale (value : Double) : Int :=
  let below (k : Int) : Bool := compareScaled 1 k value.significand value.exponent == .gt
  let bits : Int := (value.significand.log2 : Int) + value.exponent
  let estimate : Int := Int.fdiv (bits * 30103) 100000 - 1
  ((List.range 5).map (estimate + ↑·)).find? below |>.getD (estimate + 5)

/-- The absolute value divided by `10 ^ ten`, rounded down. -/
def floorOnGrid (value : Double) (ten : Int) : Nat :=
  ((value.significand * Nat.pow 10 (-ten).toNat) <<< value.exponent.toNat) /
    (Nat.pow 10 ten.toNat <<< (-value.exponent).toNat)

/-- The better of the two neighbours of the absolute value on the grid of `10 ^ ten`, if one of
them reads back. -/
def candidate? (tie : Tie) (value : Double) (ten : Int) : Option Decimal :=
  let floor := value.floorOnGrid ten
  let below : Decimal := ⟨floor, ten⟩
  let above : Decimal := ⟨floor + 1, ten⟩
  match value.readsBack below, value.readsBack above with
  | false, false => none
  | true, false => some below
  | false, true => some above
  | true, true =>
    -- The midpoint of the two neighbours is `(2 * floor + 1) / 2` units of the grid.
    match compareScaled (2 * floor + 1) ten value.significand (value.exponent + 1) with
    | .lt => some above
    | .gt => some below
    | .eq => match tie with
      | .up => some above
      | .toEven => some (if floor % 2 = 0 then below else above)

/-- Moves trailing zeros of the digits into the exponent, at most as many as asked for. -/
def Decimal.strip : Nat → Decimal → Decimal
  | 0, decimal => decimal
  | count + 1, decimal =>
    if decimal.digits ≠ 0 ∧ decimal.digits % 10 = 0 then
      strip count ⟨decimal.digits / 10, decimal.exponent + 1⟩
    else decimal

/-- The exact decimal of the absolute value. -/
def exactDecimal (value : Double) : Decimal :=
  if 0 ≤ value.exponent then ⟨value.significand <<< value.exponent.toNat, 0⟩
  else ⟨value.significand * Nat.pow 5 (-value.exponent).toNat, value.exponent⟩

/-- The shortest decimal that reads back as the absolute value of a nonzero double. -/
def shortest (tie : Tie) (value : Double) : Decimal :=
  let scale := value.decimalScale
  let found := (List.range 17).findSome? fun (count : Nat) =>
    value.candidate? tie (scale - ((count : Int) + 1))
  (found.getD value.exactDecimal).strip 17

/-- The least positive value needs one digit. -/
example : (⟨false, 1, by decide⟩ : Double).shortest .toEven = ⟨5, -324⟩ := by decide +kernel

/-- A tie at the seventeenth digit. -/
example : (⟨false, 0x3E60000000000000, by decide⟩ : Double).shortest .toEven =
    ⟨29802322387695312, -24⟩ := by decide +kernel

example : (⟨false, 0x3E60000000000000, by decide⟩ : Double).shortest .up =
    ⟨29802322387695313, -24⟩ := by decide +kernel

end DocTable.Double
