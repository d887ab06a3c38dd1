import DocTable.Text.Hex
import DocTable.Text.Shapeless

/-!
# Texts in diagnostics

In a diagnostic a text stands between double quotes, and every character that could not be seen
there is escaped: quotes and backslashes, and what has no shape of its own.
-/

namespace DocTable

/-- A number in hexadecimal without leading zeros. -/
def shortHex (value : Nat) : List Char :=
  match (hexDigits 6 value).dropWhile (· == '0') with
  | [] => ['0']
  | digits => digits

/-- A character as it is written in a diagnostic. -/
def diagnosticChar (char : Char) : List Char :=
  if char = '"' then ['\\', '"']
  else if char = '\\' then ['\\', '\\']
  else if char = '\n' then ['\\', 'n']
  else if char = '\r' then ['\\', 'r']
  else if char = '\t' then ['\\', 't']
  else if char = '\x00' then ['\\', '0']
  else if isShapeless char then '\\' :: 'u' :: '\x7b' :: (shortHex char.toNat ++ ['\x7d'])
  else [char]

/-- A text as it is written in a diagnostic. -/
def diagnosticText (text : String) : String :=
  String.ofList ('"' :: (text.toList.flatMap diagnosticChar ++ ['"']))

end DocTable
