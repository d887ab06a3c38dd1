import DocTable.Double.Rounding
import DocTable.Text.Decimal
import DocTable.Text.Hex
import DocTable.Toml.Basic

/-!
# TOML literals

The values that are written as bare words: truth values, integers, floats, dates and times.
-/

namespace DocTable.Toml

/-- The digits of a numeral without the underscores, each of which must stand between two
digits. -/
def groupedDigits? (isDigit : Char → Bool) : List Char → Option (List Char)
  | [] => none
  | [char] => if isDigit char then some [char] else none
  | char :: '_' :: rest =>
    if isDigit char then (groupedDigits? isDigit rest).map (char :: ·) else none
  | char :: rest =>
    if isDigit char then (groupedDigits? isDigit rest).map (char :: ·) else none

/-- A text without the sign in front, and whether that is a minus sign. -/
def splitSign : List Char → Bool × List Char
  | '-' :: rest => (true, rest)
  | '+' :: rest => (false, rest)
  | text => (false, text)

/-- The digits of a whole number in decimal notation; only zero begins with a zero. -/
def wholeDigits? (text : List Char) : Option (List Char) := do
  let digits ← groupedDigits? Char.isDigit text
  if digits.head? = some '0' ∧ digits.length ≠ 1 then none else some digits

/-- The number that digits in a base stand for. -/
def numberInBase? (base : Nat) (text : List Char) : Option Nat := do
  let isDigit (char : Char) : Bool := (hexValue? char).any (· < base)
  let digits ← groupedDigits? isDigit text
  return digits.foldl (fun value char => base * value + (hexValue? char).getD 0) 0

/-- Reads an integer. -/
def integer? (text : List Char) : Option Int :=
  match text with
  | '0' :: 'x' :: digits => (numberInBase? 16 digits).map Int.ofNat
  | '0' :: 'o' :: digits => (numberInBase? 8 digits).map Int.ofNat
  | '0' :: 'b' :: digits => (numberInBase? 2 digits).map Int.ofNat
  | text => do
    let (negative, digits) := splitSign text
    let value : Int := decimalValue (← wholeDigits? digits)
    return if negative then -value else value

/-- The power of ten behind the mark of an exponent. -/
def power? (text : List Char) : Option Int := do
  let (negative, digits) := splitSign text
  let value : Int := decimalValue (← groupedDigits? Char.isDigit digits)
  return if negative then -value else value

/-- The digits of a float without its sign, and the power of ten of the last one. Behind the whole
part there is a fraction or an exponent or both. -/
def floatParts? (text : List Char) : Option (List Char × Int) := do
  let isMark (char : Char) : Bool := char == 'e' || char == 'E'
  let whole := text.takeWhile fun char => char != '.' && !isMark char
  let digits ← wholeDigits? whole
  match text.drop whole.length with
  | [] => none
  | '.' :: behind =>
    let fraction := behind.takeWhile (!isMark ·)
    let more ← groupedDigits? Char.isDigit fraction
    let power ← match behind.drop fraction.length with
      | [] => pure 0
      | _ :: exponent => power? exponent
    return (digits ++ more, power - more.length)
  | _ :: exponent => return (digits, ← power? exponent)

/-- Whether digits times a power of ten round to a finite double. Only in the neighbourhood of the
greatest double does this take an exact quotient. -/
def isFinite (digits : List Char) (power : Int) : Bool :=
  let value := decimalValue digits
  let magnitude : Int := (decimal value).length + power
  if value = 0 ∨ magnitude ≤ 300 then true
  else if 310 ≤ magnitude then false
  else (Double.nearest? false (value * Nat.pow 10 power.toNat) (Nat.pow 10 (-power).toNat)).isSome

/-- Reads a float. -/
def float? (text : List Char) : Option Toml :=
  let (_, unsigned) := splitSign text
  if unsigned = "inf".toList ∨ unsigned = "nan".toList then some (.float true)
  else (floatParts? unsigned).map fun (digits, power) => .float (isFinite digits power)

/-- The number of two decimal digits. -/
def twoDigits? (tens ones : Char) : Option Nat := decimalNumber? [tens, ones]

/-- The number of days of a month. -/
def daysOfMonth (year month : Nat) : Nat :=
  if month = 2 then
    if year % 4 = 0 ∧ (year % 100 ≠ 0 ∨ year % 400 = 0) then 29 else 28
  else if month ∈ [4, 6, 9, 11] then 30
  else 31

/-- What follows a full date at the front of a text. -/
def afterDate? : List Char → Option (List Char)
  | y1 :: y2 :: y3 :: y4 :: '-' :: m1 :: m2 :: '-' :: d1 :: d2 :: rest => do
    let year ← decimalNumber? [y1, y2, y3, y4]
    let month ← twoDigits? m1 m2
    let day ← twoDigits? d1 d2
    if 1 ≤ month ∧ month ≤ 12 ∧ 1 ≤ day ∧ day ≤ daysOfMonth year month then some rest else none
  | _ => none

/-- What follows the seconds of a time of day, if they are there, at the front of a text. -/
def afterSeconds? : List Char → Option (List Char)
  | ':' :: s1 :: s2 :: rest => do
    let second ← twoDigits? s1 s2
    if 60 < second then none
    else match rest with
      | '.' :: fraction =>
        if (fraction.takeWhile Char.isDigit).isEmpty then none
        else some (fraction.dropWhile Char.isDigit)
      | rest => some rest
  | ':' :: _ => none
  | rest => some rest

/-- What follows a time of day at the front of a text. -/
def afterTime? : List Char → Option (List Char)
  | h1 :: h2 :: ':' :: m1 :: m2 :: rest => do
    let hour ← twoDigits? h1 h2
    let minute ← twoDigits? m1 m2
    if hour < 24 ∧ minute < 60 then afterSeconds? rest else none
  | _ => none

/-- Whether a text is the offset of a time zone, or empty. -/
def isOffset : List Char → Bool
  | [] | ['Z'] | ['z'] => true
  | [sign, h1, h2, ':', m1, m2] =>
    (sign == '+' || sign == '-') && (twoDigits? h1 h2).any (· < 24) &&
      (twoDigits? m1 m2).any (· < 60)
  | _ => false

/-- Whether a text is a date, a time of day, or a date and a time. -/
def isDateTime (text : List Char) : Bool :=
  match afterDate? text with
  | some [] => true
  | some (separator :: rest) =>
    (separator == 'T' || separator == 't' || separator == ' ') && (afterTime? rest).any isOffset
  | none => afterTime? text == some []

/-- The value of a bare word. -/
def ofWord? (word : List Char) : Option Toml :=
  if word = "true".toList then some (.boolean true)
  else if word = "false".toList then some (.boolean false)
  else match integer? word with
    | some value => some (.integer value)
    | none => float? word <|> if isDateTime word then some .dateTime else none

example : integer? "1_000".toList = some 1000 ∧ integer? "-0x1".toList = none ∧
    integer? "0b101".toList = some 5 ∧ integer? "007".toList = none := by decide +kernel

example : floatParts? "6.02e+2_3".toList = some ("602".toList, 21) ∧
    floatParts? "1.".toList = none ∧ floatParts? "1e".toList = none := by decide +kernel

/-- The greatest double, and the least power of ten above it. -/
example : isFinite "17976931348623157".toList 292 = true ∧ isFinite "1".toList 309 = false := by
  decide +kernel

example : isDateTime "1979-05-27 07:32:00.5Z".toList = true ∧
    isDateTime "07:32".toList = true ∧ isDateTime "07:32Z".toList = false ∧
    isDateTime "2023-02-29".toList = false := by decide +kernel

end DocTable.Toml
