/-!
# Decimal numerals

Natural numbers and integers as runs of decimal digits. Writing is the standard library's
`Nat.toDigits`; reading accumulates the digits from the left.
-/

namespace DocTable

/-- The decimal digits of a number, the most significant one first. -/
def decimal (value : Nat) : List Char := Nat.toDigits 10 value

/-- The decimal digits of an integer behind a minus sign if it is negative. -/
def decimalInt : Int → List Char
  | .ofNat value => decimal value
  | .negSucc value => '-' :: decimal (value + 1)

/-- The number that a run of decimal digits stands for. -/
def decimalValue (digits : List Char) : Nat := Nat.ofDigitChars 10 digits 0

/-- Reading the digits of a number gives the number back. -/
@[simp] theorem decimalValue_decimal (value : Nat) : decimalValue (decimal value) = value :=
  Nat.ofDigitChars_toDigits (by decide) (by decide)

/-- Every character of a numeral is a decimal digit. -/
theorem isDigit_of_mem_decimal {value : Nat} {char : Char} (member : char ∈ decimal value) :
    char.isDigit = true :=
  Nat.isDigit_of_mem_toDigits (by decide) (by decide) member

/-- The number that a nonempty run of decimal digits stands for, or `none` for any other text. -/
def decimalNumber? (text : List Char) : Option Nat :=
  if text ≠ [] ∧ text.all Char.isDigit then some (decimalValue text) else none

/-- The number below a power of two that a text stands for; a plus sign may stand in front of its
digits. -/
def unsignedNumber? (bits : Nat) (text : List Char) : Option Nat := do
  let digits := match text with
    | '+' :: digits => digits
    | digits => digits
  let value ← decimalNumber? digits
  if value < 1 <<< bits then some value else none

/-- The digits of a number, with zeros in front up to the given width. -/
def decimalPadded (width value : Nat) : List Char :=
  List.replicate (width - (decimal value).length) '0' ++ decimal value

/-- Zeros in front do not change the number. -/
@[simp] theorem decimalValue_decimalPadded (width value : Nat) :
    decimalValue (decimalPadded width value) = value := by
  have zeros (count : Nat) : Nat.ofDigitChars 10 (List.replicate count '0') 0 = 0 := by
    induction count with
    | zero => rfl
    | succ count ih => exact ih
  rw [decimalPadded, decimalValue, Nat.ofDigitChars_append, zeros]
  exact decimalValue_decimal value

/-- Different numbers have different digits, whatever their width is. -/
theorem decimalPadded_injective {width left right : Nat}
    (same : decimalPadded width left = decimalPadded width right) : left = right := by
  simpa using congrArg decimalValue same

end DocTable
