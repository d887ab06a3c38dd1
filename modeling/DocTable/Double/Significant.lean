import DocTable.Double.Layout

/-!
# Doubles to fifteen significant digits

The text that a table gives to a double it stores in a column of texts: fifteen significant digits
without trailing zeros, always with a point, and with an exponent of at least two digits outside
the range from `0.0001` up to `10 ^ 15`.
-/

namespace DocTable.Double

/-- The absolute value divided by `10 ^ ten`, rounded to the nearest natural number, a half going
up. -/
def nearestOnGrid (value : Double) (ten : Int) : Nat :=
  let top := (value.significand * Nat.pow 10 (-ten).toNat) <<< value.exponent.toNat
  let bottom := Nat.pow 10 ten.toNat <<< (-value.exponent).toNat
  (2 * top + bottom) / (2 * bottom)

/-- The decimal nearest to the absolute value with the given number of significant digits and
without trailing zeros. -/
def toSignificant (count : Nat) (value : Double) : Decimal :=
  let ten := value.decimalScale - count
  Decimal.strip count ⟨value.nearestOnGrid ten, ten⟩

/-- The text of a double to fifteen significant digits. Zero has no sign. -/
def significantText (value : Double) : List Char :=
  if value.isZero then ['0', '.', '0']
  else
    let sign := if value.negative then ['-'] else []
    let decimal15 := value.toSignificant 15
    let digits := decimal decimal15.digits
    let leading : Int := decimal15.exponent + digits.length - 1
    if -4 ≤ leading ∧ leading ≤ 14 then sign ++ positional digits leading
    else
      let mark := if leading < 0 then '-' else '+'
      sign ++ digits.take 1 ++ fraction (digits.drop 1) ++ 'e' :: mark ::
        decimalPadded 2 leading.natAbs

/-- A tenth, which is not a finite sum of powers of two, is written with its one digit. -/
example : significantText ⟨false, 0x3FB999999999999A, by decide⟩ = "0.1".toList := by
  decide +kernel

example : significantText ⟨true, 0x4341C37937E08000, by decide⟩ = "-1.0e+16".toList := by
  decide +kernel

end DocTable.Double
