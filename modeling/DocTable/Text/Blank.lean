/-!
# Blank and control characters

Two classes of characters from the Unicode character database and the operation that depends on
the first of them, cutting blanks off both ends of a text.
-/

namespace DocTable

/-- Closed ranges of code points of the property `White_Space`, ascending and apart. -/
def blankRanges : List (Nat × Nat) :=
  [(0x09, 0x0D), (0x20, 0x20), (0x85, 0x85), (0xA0, 0xA0), (0x1680, 0x1680), (0x2000, 0x200A),
   (0x2028, 0x2029), (0x202F, 0x202F), (0x205F, 0x205F), (0x3000, 0x3000)]

/-- Whether the character has the property `White_Space`. -/
def isBlank (char : Char) : Bool :=
  blankRanges.any fun (first, last) => first ≤ char.toNat && char.toNat ≤ last

/-- Whether the character is a control character: general category `Cc`, which is fixed to these
two ranges. -/
def isControl (char : Char) : Bool :=
  char.toNat < 0x20 || (0x7F ≤ char.toNat && char.toNat < 0xA0)

/-- The table accepts only what it lists. -/
example : isBlank 'a' = false ∧ isBlank '\u200b' = false ∧ isBlank '\u00a0' = true := by decide

/-- The text without the blanks at its two ends. -/
def trimBlanks (text : List Char) : List Char :=
  ((text.dropWhile isBlank).reverse.dropWhile isBlank).reverse

end DocTable
