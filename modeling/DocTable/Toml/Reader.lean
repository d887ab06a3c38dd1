import DocTable.Toml.Literal
import DocTable.Toml.Token

/-!
# Reading TOML text

A text is a sequence of lines, each of which is empty, opens a table or assigns a value to a key.
`read?` yields the table of the whole text.
-/

namespace DocTable.Toml

/-- The tokens behind blanks. -/
def skipBlanks : List Token → List Token
  | .blank _ :: rest => skipBlanks rest
  | tokens => tokens

/-- The tokens behind blanks and line ends. -/
def skipLines : List Token → List Token
  | .blank _ :: rest => skipLines rest
  | .newline :: rest => skipLines rest
  | tokens => tokens

mutual

/-- A dotted key and the tokens behind it. -/
def readKey? : List Token → Option (List String × List Token)
  | .blank _ :: rest => readKey? rest
  | .word text :: rest =>
    if text.all fun char => char != '+' && char != ':' then
      readKeyRest? (String.ofList text) rest
    else none
  | .string value false :: rest => readKeyRest? value rest
  | _ => none
termination_by structural tokens => tokens

/-- What follows the first name of a dotted key. -/
def readKeyRest? (name : String) : List Token → Option (List String × List Token)
  | .blank _ :: rest => readKeyRest? name rest
  | .dot :: rest => (readKey? rest).map fun (names, rest) => (name :: names, rest)
  | tokens => some ([name], tokens)
termination_by structural tokens => tokens

end

/-- A bare word of a value, which may hold points, and the tokens behind it. -/
def readWord : List Token → List Char × List Token
  | .word text :: rest =>
    let (more, rest) := readWord rest
    (text ++ more, rest)
  | .dot :: rest =>
    let (more, rest) := readWord rest
    ('.' :: more, rest)
  | tokens => ([], tokens)

/-- The value of a bare word and the tokens behind it. A time may follow a date behind a space. -/
def readLiteral? (tokens : List Token) : Option (Toml × List Token) := do
  let (word, rest) := readWord tokens
  match afterDate? word, rest with
  | some [], .blank [' '] :: .word time :: others =>
    let (time, others) := readWord (.word time :: others)
    return (← ofWord? (word ++ ' ' :: time), others)
  | _, _ => return (← ofWord? word, rest)

/-- The greatest number of arrays and inline tables around a value, and of names in a key. -/
def maxDepth : Nat := 80

/-- A dotted key that is not too long and the tokens behind it. -/
def readPath? (tokens : List Token) : Option (List String × List Token) := do
  let (path, rest) ← readKey? tokens
  if path.length ≤ maxDepth then some (path, rest) else none

mutual

/-- A value and the tokens behind it. The value may hold `room` arrays and inline tables one inside
the other; the fuel bounds the number of values and separators. -/
def readValue? (fuel room : Nat) (tokens : List Token) : Option (Toml × List Token) :=
  match fuel, skipBlanks tokens with
  | 0, _ => none
  | _ + 1, .string value _ :: rest => some (.string value, rest)
  | fuel + 1, .openBracket :: rest =>
    if room = 0 then none else readElements? fuel (room - 1) [] (skipLines rest)
  | fuel + 1, .openBrace :: rest =>
    if room = 0 then none else readEntries? fuel (room - 1) ∅ (skipLines rest)
  | _ + 1, tokens => readLiteral? tokens
termination_by structural fuel

/-- The rest of an array behind some elements, which are in reverse. -/
def readElements? (fuel room : Nat) (before : List Toml) (tokens : List Token) :
    Option (Toml × List Token) :=
  match fuel, tokens with
  | 0, _ => none
  | _ + 1, .closeBracket :: rest => some (.array before.reverse, rest)
  | fuel + 1, tokens => do
    let (element, rest) ← readValue? fuel room tokens
    match skipLines rest with
    | .comma :: rest => readElements? fuel room (element :: before) (skipLines rest)
    | .closeBracket :: rest => some (.array (element :: before).reverse, rest)
    | _ => none
termination_by structural fuel

/-- The rest of an inline table behind some entries. Lines may end everywhere but within a key. -/
def readEntries? (fuel room : Nat) (before : Table) (tokens : List Token) :
    Option (Toml × List Token) :=
  match fuel, tokens with
  | 0, _ => none
  | _ + 1, .closeBrace :: rest => some (.table .inline before, rest)
  | fuel + 1, tokens => do
    let (path, rest) ← readPath? tokens
    let .equals :: rest := skipLines rest | none
    let (value, rest) ← readValue? fuel room (skipLines rest)
    let fields ← assign? path value .inline before
    match skipLines rest with
    | .comma :: rest => readEntries? fuel room fields (skipLines rest)
    | .closeBrace :: rest => some (.table .inline fields, rest)
    | _ => none
termination_by structural fuel

end

/-- A document that is being read, and the header of the table that is being written to. -/
structure Progress where
  document : Table
  header : List String

/-- A value and the tokens behind it; there is fuel enough for every token. -/
def readFirstValue? (tokens : List Token) : Option (Toml × List Token) :=
  readValue? (2 * tokens.length + 2) maxDepth tokens

/-- Reads a line with something on it. Nothing but blanks may follow. -/
def readLine? (progress : Progress) (line : List Token) : Option Progress :=
  match line with
  | .openBracket :: .openBracket :: rest => do
    let (path, rest) ← readPath? rest
    let .closeBracket :: .closeBracket :: rest := rest | none
    if skipBlanks rest ≠ [] then none
    else return ⟨← openElement? path progress.document, path⟩
  | .openBracket :: rest => do
    let (path, rest) ← readPath? rest
    let .closeBracket :: rest := rest | none
    if skipBlanks rest ≠ [] then none
    else return ⟨← openTable? path progress.document, path⟩
  | line => do
    let (path, rest) ← readPath? line
    let .equals :: rest := rest | none
    let (value, rest) ← readFirstValue? rest
    if skipBlanks rest ≠ [] then none
    else return ⟨← assignUnder? progress.header path value progress.document, progress.header⟩

/-- Splits tokens into lines. A line end between brackets or braces ends no line; the depth counts
those that are open. -/
def splitLines (depth : Nat) : List Token → List (List Token)
  | [] => [[]]
  | .newline :: rest =>
    if depth = 0 then [] :: splitLines 0 rest else consLine .newline (splitLines depth rest)
  | .openBracket :: rest => consLine .openBracket (splitLines (depth + 1) rest)
  | .openBrace :: rest => consLine .openBrace (splitLines (depth + 1) rest)
  | .closeBracket :: rest => consLine .closeBracket (splitLines (depth - 1) rest)
  | .closeBrace :: rest => consLine .closeBrace (splitLines (depth - 1) rest)
  | token :: rest => consLine token (splitLines depth rest)
where
  /-- Puts a token in front of the first line. -/
  consLine (token : Token) : List (List Token) → List (List Token)
    | [] => [[token]]
    | line :: lines => (token :: line) :: lines

/-- Reads the table of a text. A mark of the byte order may stand in front. -/
def read? (text : String) : Option Table := do
  let chars := match text.toList with
    | '\ufeff' :: rest => rest
    | chars => chars
  let tokens ← Token.scan? chars
  let lines := ((splitLines 0 tokens).map skipBlanks).filter (· ≠ [])
  return (← lines.foldlM readLine? ⟨∅, []⟩).document

end DocTable.Toml
