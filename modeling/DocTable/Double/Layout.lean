import DocTable.Double.Shortest
import DocTable.Text.Decimal

/-!
# The text of a double

The shortest decimal of a double is laid out either positionally or with one digit before the
point and an exponent. The decisions of a layout are the fields of `Layout`.
-/

namespace DocTable.Double

/-- The decisions with which a decimal is laid out. -/
structure Layout where
  /-- The least exponent of the leading digit that is written positionally. -/
  plainFrom : Int
  /-- The greatest exponent of the leading digit that is written positionally. -/
  plainTo : Int
  /-- Whether a positive exponent is written with a plus sign. -/
  exponentPlus : Bool
  /-- Which of two equally near decimals is taken. -/
  tie : Tie
deriving DecidableEq, Repr

/-- Digits behind a point, with a zero in place of none. -/
def fraction : List Char → List Char
  | [] => ['.', '0']
  | digits => '.' :: digits

/-- Digits whose leading one has the given exponent, written positionally with at least one digit
on each side of the point. -/
def positional (digits : List Char) (leading : Int) : List Char :=
  if leading < 0 then '0' :: '.' :: List.replicate (-leading - 1).toNat '0' ++ digits
  else
    let whole := leading.toNat + 1
    digits.take whole ++ List.replicate (whole - digits.length) '0' ++ fraction (digits.drop whole)

/-- Digits whose leading one has the given exponent, written with that exponent. -/
def scientific (exponentPlus : Bool) (digits : List Char) (leading : Int) : List Char :=
  let point := if digits.length ≤ 1 then [] else '.' :: digits.drop 1
  let plus := if exponentPlus && 0 ≤ leading then ['+'] else []
  digits.take 1 ++ point ++ 'e' :: plus ++ decimalInt leading

/-- The text of a double in the given layout. -/
def write (layout : Layout) (value : Double) : List Char :=
  let sign := if value.negative then ['-'] else []
  if value.isZero then sign ++ ['0', '.', '0']
  else
    let shortest := value.shortest layout.tie
    let digits := decimal shortest.digits
    let leading : Int := shortest.exponent + digits.length - 1
    if layout.plainFrom ≤ leading ∧ leading ≤ layout.plainTo then
      sign ++ positional digits leading
    else sign ++ scientific layout.exponentPlus digits leading

/-- Diagnostics write values from `0.0001` up to `10 ^ 16` positionally and any other with a bare
exponent. -/
def diagnosticLayout : Layout :=
  { plainFrom := -4, plainTo := 15, exponentPlus := false, tie := .up }

example : write diagnosticLayout ⟨true, 0, by decide⟩ = "-0.0".toList := by decide

example : write diagnosticLayout ⟨false, 0x4341C37937E08000, by decide⟩ = "1e16".toList := by
  decide +kernel

end DocTable.Double
