import DocTable.Double.Layout
import DocTable.Json.Number

/-!
# The text of a JSON number

Integers are written in decimal and doubles with their shortest digits. Reading keeps the kind: a
literal without fraction and exponent is an integer if it fits, and anything else is a double.

A literal is turned into a double in three roundings: its leading digits, as many as fit 64 bits,
are rounded to a double, which is then multiplied or divided by the double nearest to a power of
ten. Digits beyond those count as zeros.
-/

namespace DocTable.Number

/-- Numbers are written positionally from `0.00001` up to `10 ^ 16`, and any other with an
exponent that carries its sign. -/
def textLayout : Double.Layout :=
  { plainFrom := -5, plainTo := 15, exponentPlus := true, tie := .toEven }

/-- The text of a number. -/
def text : Number → List Char
  | .integer value _ => decimalInt value
  | .double value => value.write textLayout

/-- The parts of a number literal. -/
structure Literal where
  /-- Whether the literal begins with a minus sign. -/
  negative : Bool
  /-- The digits before the point. -/
  whole : List Char
  /-- The digits after the point, if there is one. -/
  fraction : Option (List Char)
  /-- The exponent, if there is one. -/
  exponent : Option Int
deriving DecidableEq, Repr

/-- Splits an exponent part, the text behind its mark, into a sign and digits. -/
def exponentOf? (text : List Char) : Option Int :=
  match text with
  | '+' :: digits => (decimalNumber? digits).map (·)
  | '-' :: digits => (decimalNumber? digits).map (-·)
  | digits => (decimalNumber? digits).map (·)

/-- The exponent part of a literal, which may be missing. -/
def exponentPart? : List Char → Option (Option Int)
  | [] => some none
  | mark :: rest => if mark = 'e' ∨ mark = 'E' then (exponentOf? rest).map some else none

/-- Splits a literal into its parts, or `none` if it is malformed. -/
def Literal.ofText? (text : List Char) : Option Literal :=
  let negative := text.head? == some '-'
  let unsigned := if negative then text.drop 1 else text
  let (whole, rest) := unsigned.span Char.isDigit
  if whole = [] ∨ (whole.head? = some '0' ∧ 1 < whole.length) then none
  else match rest with
    | '.' :: behind =>
      let (fraction, rest) := behind.span Char.isDigit
      if fraction = [] then none
      else (exponentPart? rest).map (⟨negative, whole, some fraction, ·⟩)
    | _ => (exponentPart? rest).map (⟨negative, whole, none, ·⟩)

/-- Appends digits to a number for as long as it fits 64 bits; the second part holds the digits
left over. -/
def absorb (value : Nat) : List Char → Nat × List Char
  | [] => (value, [])
  | digit :: rest =>
    let next := 10 * value + (digit.toNat - '0'.toNat)
    if next < 0x10000000000000000 then absorb next rest else (value, digit :: rest)

/-- The greatest power of ten that is a finite double. -/
def greatestPower : Nat := 308

/-- Divides by a power of ten, in steps of the greatest power that is a double. -/
def shrink (value : Double) (power : Nat) : Option Double :=
  if power ≤ greatestPower then do value.divide? (← Double.powerOfTen? power)
  else if value.isZero then some value
  else do
    let smaller ← value.divide? (← Double.powerOfTen? greatestPower)
    shrink smaller (power - greatestPower)
termination_by power
decreasing_by simp only [greatestPower] at *; omega

/-- Multiplies by a power of ten, or `none` if the product is not finite. -/
def grow (value : Double) (power : Nat) : Option Double :=
  if power ≤ greatestPower then do value.multiply? (← Double.powerOfTen? power)
  else if value.isZero then some value
  else none

/-- The double that a literal stands for, or `none` if it is too large. -/
def Literal.toDouble? (literal : Literal) : Option Double := do
  let (leading, dropped) := absorb 0 literal.whole
  let fraction := literal.fraction.getD []
  let (significand, unused) := absorb leading fraction
  let exponent : Int := literal.exponent.getD 0 + dropped.length - (fraction.length - unused.length)
  let rounded ← Double.ofInt? significand
  let scaled ←
    if 0 ≤ exponent then grow rounded exponent.toNat else shrink rounded (-exponent).toNat
  return if literal.negative then scaled.negate else scaled

/-- The number that a literal stands for. Minus zero is a double, and so are integers outside the
range. -/
def Literal.toNumber? (literal : Literal) : Option Number :=
  let value : Int := decimalValue literal.whole
  if literal.fraction.isNone && literal.exponent.isNone then
    if literal.negative then
      if value = 0 then literal.toDouble?.map .double
      else if value ≤ 0x8000000000000000 then ofInt? (-value)
      else literal.toDouble?.map .double
    else if value < 0x10000000000000000 then ofInt? value
    else literal.toDouble?.map .double
  else literal.toDouble?.map .double

/-- Reads the text of a number; `none` says that it is malformed or too large. -/
def ofText? (text : List Char) : Option Number := (Literal.ofText? text).bind Literal.toNumber?

end DocTable.Number
