import DocTable.Text.Decimal
import DocTable.Text.Hex

/-!
# Tokens of TOML text

The scanner splits a text into strings, words, punctuation, blanks and line ends, one character at
a time, and drops comments. What a word means depends on where it stands, so words are left as
they are.
-/

namespace DocTable.Toml

/-- A token of TOML text. -/
inductive Token where
  /-- Letters, digits, signs, underscores and colons. -/
  | word (text : List Char)
  /-- A string; one over several lines cannot be a key. -/
  | string (value : String) (multiline : Bool)
  | dot
  | comma
  | equals
  | openBracket
  | closeBracket
  | openBrace
  | closeBrace
  /-- Spaces and tabs. -/
  | blank (text : List Char)
  | newline
deriving DecidableEq, Repr

namespace Token

/-- A string that is being read: its mark, whether it may have several lines, and its text so far
in reverse. -/
structure Quote where
  mark : Char
  multiline : Bool
  read : List Char
deriving Repr

/-- A quote with one more character. -/
def Quote.push (quote : Quote) (char : Char) : Quote := { quote with read := char :: quote.read }

/-- What the scanner has read since the last token. -/
inductive Scanner where
  /-- Nothing. -/
  | between
  /-- The beginning of a word, in reverse. -/
  | word (read : List Char)
  /-- Blanks, in reverse. -/
  | blank (read : List Char)
  /-- The beginning of a comment. -/
  | comment
  /-- A carriage return, behind which the line must end. -/
  | lineEnd
  /-- One mark, or two. -/
  | opening (mark : Char) (second : Bool)
  /-- The three marks in front of several lines, and perhaps a carriage return. -/
  | firstLine (mark : Char) (carriage : Bool)
  /-- The beginning of a string, with some marks at its end that may close it. -/
  | text (quote : Quote) (marks : Nat)
  /-- The beginning of a string and a backslash. -/
  | escape (quote : Quote)
  /-- The beginning of a string and some digits of an escape; so many of them are still missing. -/
  | code (quote : Quote) (missing : Nat) (digits : List Char)
  /-- The beginning of a string and a backslash behind which only blanks and line ends have come. -/
  | continuation (quote : Quote) (ended : Bool)
  /-- The same and a carriage return. -/
  | continuationLineEnd (quote : Quote)
  /-- The beginning of a string and a carriage return. -/
  | textLineEnd (quote : Quote)

/-- Whether the character can be part of a word. -/
def isWordChar (char : Char) : Bool :=
  char.isAlphanum || char == '_' || char == '-' || char == '+' || char == ':'

/-- Whether the character may not stand in strings and comments. -/
def isForbidden (char : Char) : Bool :=
  (char.toNat < 0x20 && char != '\t') || char.toNat == 0x7F

/-- The token of a single character. -/
def ofChar? : Char → Option Token
  | '.' => some .dot
  | ',' => some .comma
  | '=' => some .equals
  | '[' => some .openBracket
  | ']' => some .closeBracket
  | '\x7b' => some .openBrace
  | '\x7d' => some .closeBrace
  | '\n' => some .newline
  | _ => none

/-- One character after a complete token. -/
def start? (char : Char) : Option (List Token × Scanner) :=
  if char = ' ' ∨ char = '\t' then some ([], .blank [char])
  else if char = '#' then some ([], .comment)
  else if char = '\r' then some ([], .lineEnd)
  else if char = '"' ∨ char = '\'' then some ([], .opening char false)
  else if isWordChar char then some ([], .word [char])
  else (ofChar? char).map ([·], .between)

/-- One character after a token that has just been completed. -/
def startAfter? (token : Token) (char : Char) : Option (List Token × Scanner) := do
  let (tokens, scanner) ← start? char
  return (token :: tokens, scanner)

/-- The string that is closed by the last three of some marks. -/
def Quote.close (quote : Quote) (marks : Nat) : Token :=
  .string (String.ofList (List.replicate (marks - 3) quote.mark ++ quote.read).reverse)
    quote.multiline

/-- The character that a letter stands for behind a backslash. -/
def unescape? : Char → Option Char
  | '"' => some '"'
  | '\\' => some '\\'
  | 'b' => some '\x08'
  | 'e' => some '\x1b'
  | 'f' => some '\x0c'
  | 'n' => some '\n'
  | 'r' => some '\r'
  | 't' => some '\t'
  | _ => none

/-- One character of a string that does not belong to an escape. -/
def content? (quote : Quote) (char : Char) : Option (List Token × Scanner) :=
  if char = '\\' ∧ quote.mark = '"' then some ([], .escape quote)
  else if quote.multiline && char == '\n' then some ([], .text (quote.push char) 0)
  else if quote.multiline && char == '\r' then some ([], .textLineEnd quote)
  else if isForbidden char then none
  else some ([], .text (quote.push char) 0)

/-- One character of a string over several lines behind which some marks stand. -/
def contentAfterMarks? (quote : Quote) (marks : Nat) (char : Char) :
    Option (List Token × Scanner) :=
  if char = quote.mark then
    if marks = 4 then some ([quote.close 5], .between) else some ([], .text quote (marks + 1))
  else if 3 ≤ marks then startAfter? (quote.close marks) char
  else content? { quote with read := List.replicate marks quote.mark ++ quote.read } char

/-- One character behind a backslash. -/
def escaped? (quote : Quote) (char : Char) : Option (List Token × Scanner) :=
  if char = 'x' then some ([], .code quote 2 [])
  else if char = 'u' then some ([], .code quote 4 [])
  else if char = 'U' then some ([], .code quote 8 [])
  else if quote.multiline && (char == ' ' || char == '\t') then
    some ([], .continuation quote false)
  else if quote.multiline && char == '\r' then some ([], .continuationLineEnd quote)
  else if quote.multiline && char == '\n' then some ([], .continuation quote true)
  else (unescape? char).map fun char => ([], .text (quote.push char) 0)

/-- One digit of an escape. -/
def coded? (quote : Quote) (missing : Nat) (digits : List Char) : Option (List Token × Scanner) :=
  if missing = 0 then do
    let value ← hexNumber? digits.reverse
    if value < 0xD800 ∨ (0xDFFF < value ∧ value < 0x110000) then
      some ([], .text (quote.push (Char.ofNat value)) 0)
    else none
  else some ([], .code quote missing digits)

/-- Reads one character: the tokens that it completes and the state behind it. -/
def step? : Scanner → Char → Option (List Token × Scanner)
  | .between, char => start? char
  | .word read, char =>
    if isWordChar char then some ([], .word (char :: read))
    else startAfter? (.word read.reverse) char
  | .blank read, char =>
    if char = ' ' ∨ char = '\t' then some ([], .blank (char :: read))
    else startAfter? (.blank read.reverse) char
  | .comment, char =>
    if char = '\n' then some ([.newline], .between)
    else if char = '\r' then some ([], .lineEnd)
    else if isForbidden char then none
    else some ([], .comment)
  | .lineEnd, char => if char = '\n' then some ([.newline], .between) else none
  | .opening mark false, char =>
    if char = mark then some ([], .opening mark true) else content? ⟨mark, false, []⟩ char
  | .opening mark true, char =>
    if char = mark then some ([], .firstLine mark false)
    else startAfter? (.string "" false) char
  | .firstLine mark false, char =>
    if char = '\n' then some ([], .text ⟨mark, true, []⟩ 0)
    else if char = '\r' then some ([], .firstLine mark true)
    else contentAfterMarks? ⟨mark, true, []⟩ 0 char
  | .firstLine mark true, char =>
    if char = '\n' then some ([], .text ⟨mark, true, []⟩ 0) else none
  | .text quote marks, char =>
    if quote.multiline then contentAfterMarks? quote marks char
    else if char = quote.mark then some ([quote.close 3], .between)
    else content? quote char
  | .escape quote, char => escaped? quote char
  | .code quote missing digits, char =>
    if (hexValue? char).isSome then coded? quote (missing - 1) (char :: digits) else none
  | .continuation quote ended, char =>
    if char = '\n' then some ([], .continuation quote true)
    else if char = '\r' then some ([], .continuationLineEnd quote)
    else if char = ' ' ∨ char = '\t' then some ([], .continuation quote ended)
    else if ended then contentAfterMarks? quote 0 char
    else none
  | .continuationLineEnd quote, char =>
    if char = '\n' then some ([], .continuation quote true) else none
  | .textLineEnd quote, char =>
    if char = '\n' then some ([], .text ((quote.push '\r').push '\n') 0) else none

/-- The tokens that the end of the text completes. -/
def finish? : Scanner → Option (List Token)
  | .between | .comment => some []
  | .word read => some [.word read.reverse]
  | .blank read => some [.blank read.reverse]
  | .opening _ true => some [.string "" false]
  | .text quote marks => if 3 ≤ marks then some [quote.close marks] else none
  | _ => none

/-- The tokens of a text, read from the given state. -/
def scanFrom? (scanner : Scanner) : List Char → Option (List Token)
  | [] => finish? scanner
  | char :: rest => do
    let (tokens, scanner) ← step? scanner char
    let more ← scanFrom? scanner rest
    return tokens ++ more

/-- The tokens of a text, or `none` if it does not split into tokens. -/
def scan? (text : List Char) : Option (List Token) := scanFrom? .between text

end Token

end DocTable.Toml
