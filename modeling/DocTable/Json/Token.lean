import DocTable.Json.Numeral
import DocTable.Text.Hex

/-!
# Tokens of JSON text

`Token.scan?` splits a text into tokens, one character at a time. The scanner's state says what
the characters since the last token have been; whether the tokens make up a value is not its
concern.
-/

namespace DocTable.Json

/-- A token of JSON text. -/
inductive Token where
  | openArray
  | closeArray
  | openObject
  | closeObject
  | comma
  | colon
  | null
  | bool (value : Bool)
  | number (value : Number)
  | string (value : String)
deriving Repr

namespace Token

/-- What the scanner has read since the last token. Text that it collects is in reverse. -/
inductive Scanner where
  /-- Nothing but blanks. -/
  | between
  /-- The beginning of a number. -/
  | number (read : List Char)
  /-- The beginning of a word. -/
  | word (read : List Char)
  /-- The beginning of a string. -/
  | string (read : List Char)
  /-- The beginning of a string and a backslash. -/
  | escape (read : List Char)
  /-- The beginning of a string and some digits of a four-digit escape. The first half of a
  surrogate pair may stand before it. -/
  | unicode (read : List Char) (high : Option Nat) (digits : List Char)
  /-- The beginning of a string and the first half of a surrogate pair. -/
  | high (read : List Char) (high : Nat)
  /-- The same, and a backslash. -/
  | highEscape (read : List Char) (high : Nat)
deriving Repr

/-- The character that a letter stands for behind a backslash. -/
def unescape? : Char → Option Char
  | '"' => some '"'
  | '\\' => some '\\'
  | '/' => some '/'
  | 'b' => some '\x08'
  | 'f' => some '\x0c'
  | 'n' => some '\n'
  | 'r' => some '\r'
  | 't' => some '\t'
  | _ => none

/-- Whether the character can be part of a number. -/
def isNumberChar (char : Char) : Bool :=
  char.isDigit || char == '-' || char == '+' || char == '.' || char == 'e' || char == 'E'

/-- Whether the character separates tokens. -/
def isSpace (char : Char) : Bool :=
  char == ' ' || char == '\t' || char == '\n' || char == '\r'

/-- The token of a single character. -/
def ofChar? : Char → Option Token
  | '[' => some .openArray
  | ']' => some .closeArray
  | '{' => some .openObject
  | '}' => some .closeObject
  | ',' => some .comma
  | ':' => some .colon
  | _ => none

/-- The token of a word. -/
def ofWord? (word : List Char) : Option Token :=
  if word = ['n', 'u', 'l', 'l'] then some .null
  else if word = ['t', 'r', 'u', 'e'] then some (.bool true)
  else if word = ['f', 'a', 'l', 's', 'e'] then some (.bool false)
  else none

/-- One character after a complete token. -/
def start? (char : Char) : Option (List Token × Scanner) :=
  if isSpace char then some ([], .between)
  else if char = '"' then some ([], .string [])
  else if char = '-' ∨ char.isDigit then some ([], .number [char])
  else if char.isLower then some ([], .word [char])
  else (ofChar? char).map ([·], .between)

/-- The state after the four digits of an escape. A second half of a surrogate pair must follow a
first half and may stand nowhere else. -/
def codeUnit? (read : List Char) (high : Option Nat) (unit : Nat) : Option Scanner :=
  let isHigh := 0xD800 ≤ unit && unit < 0xDC00
  let isLow := 0xDC00 ≤ unit && unit < 0xE000
  match high with
  | none =>
    if isHigh then some (.high read unit)
    else if isLow then none
    else some (.string (Char.ofNat unit :: read))
  | some high =>
    if isLow then
      some (.string (Char.ofNat (0x10000 + (high - 0xD800) * 0x400 + (unit - 0xDC00)) :: read))
    else none

/-- One character of the text: the tokens that it completes and the state behind it. A character
that ends a number or a word is then read on its own. -/
def step? (scanner : Scanner) (char : Char) : Option (List Token × Scanner) :=
  match scanner with
  | .between => start? char
  | .number read =>
    if isNumberChar char then some ([], .number (char :: read))
    else do
      let value ← Number.ofText? read.reverse
      let (tokens, scanner) ← start? char
      return (.number value :: tokens, scanner)
  | .word read =>
    if char.isLower then some ([], .word (char :: read))
    else do
      let token ← ofWord? read.reverse
      let (tokens, scanner) ← start? char
      return (token :: tokens, scanner)
  | .string read =>
    if char = '"' then some ([.string (String.ofList read.reverse)], .between)
    else if char = '\\' then some ([], .escape read)
    else if char.toNat < 0x20 then none
    else some ([], .string (char :: read))
  | .escape read =>
    if char = 'u' then some ([], .unicode read none [])
    else (unescape? char).map fun char => ([], .string (char :: read))
  | .unicode read high digits =>
    if digits.length < 3 then
      if (hexValue? char).isSome then some ([], .unicode read high (char :: digits)) else none
    else do
      let unit ← hexNumber? (char :: digits).reverse
      let scanner ← codeUnit? read high unit
      return ([], scanner)
  | .high read high => if char = '\\' then some ([], .highEscape read high) else none
  | .highEscape read high =>
    if char = 'u' then some ([], .unicode read (some high) []) else none

/-- The tokens that the end of the text completes. -/
def finish? : Scanner → Option (List Token)
  | .between => some []
  | .number read => (Number.ofText? read.reverse).map ([.number ·])
  | .word read => (ofWord? read.reverse).map ([·])
  | _ => none

/-- The tokens of a text, read from the given state. -/
def scanFrom? (scanner : Scanner) : List Char → Option (List Token)
  | [] => finish? scanner
  | char :: rest => do
    let (tokens, scanner) ← step? scanner char
    let more ← scanFrom? scanner rest
    return tokens ++ more

/-- The tokens of a text, or `none` if it does not split into tokens. -/
def scan? (text : List Char) : Option (List Token) := scanFrom? .between text

end Token

end DocTable.Json
