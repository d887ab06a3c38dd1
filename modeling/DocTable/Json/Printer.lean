import DocTable.Json.Basic
import DocTable.Json.Numeral
import DocTable.Text.Hex

/-!
# The text of JSON values

Compact text without blanks, object keys in order. Inside a string only the quote, the backslash
and the control characters below the space are escaped.
-/

namespace DocTable.Json

/-- The letter that stands for a character behind a backslash, if it has one. -/
def escapeLetter? : Char → Option Char
  | '"' => some '"'
  | '\\' => some '\\'
  | '\x08' => some 'b'
  | '\x0c' => some 'f'
  | '\n' => some 'n'
  | '\r' => some 'r'
  | '\t' => some 't'
  | _ => none

/-- A character as it is written inside a string. -/
def escapeChar (char : Char) : List Char :=
  match escapeLetter? char with
  | some letter => ['\\', letter]
  | none => if char.toNat < 0x20 then '\\' :: 'u' :: hexDigits 4 char.toNat else [char]

/-- A string between quotes. -/
def quoted (text : List Char) : List Char := '"' :: text.flatMap escapeChar ++ ['"']

mutual

/-- The compact text of a value, as a list of characters. -/
def chars : Json → List Char
  | .null => ['n', 'u', 'l', 'l']
  | .bool true => ['t', 'r', 'u', 'e']
  | .bool false => ['f', 'a', 'l', 's', 'e']
  | .number value => value.text
  | .string value => quoted value.toList
  | .array [] => ['[', ']']
  | .array (first :: rest) => '[' :: chars first ++ moreElements rest ++ [']']
  | .object ⟨[]⟩ => ['{', '}']
  | .object ⟨(key, value) :: rest⟩ =>
    '{' :: quoted key.toList ++ ':' :: chars value ++ moreEntries rest ++ ['}']

/-- Further elements of an array, each behind a comma. -/
def moreElements : List Json → List Char
  | [] => []
  | element :: rest => ',' :: chars element ++ moreElements rest

/-- Further entries of an object, each behind a comma. -/
def moreEntries : List (String × Json) → List Char
  | [] => []
  | (key, value) :: rest =>
    ',' :: quoted key.toList ++ ':' :: chars value ++ moreEntries rest

end

/-- The compact text of a value. -/
def text (value : Json) : String := String.ofList value.chars

instance : ToString Json := ⟨text⟩

end DocTable.Json

/-- The compact text of a document. -/
def DocTable.Document.text (document : DocTable.Document) : String :=
  (DocTable.Json.object document).text
