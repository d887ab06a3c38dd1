import DocTable.Json.Basic
import DocTable.Json.Token

/-!
# Reading JSON text

A machine reads the tokens of a text one at a time. Its state is what may follow, together with
the stack of the containers that are open; the number of open containers is limited.
-/

namespace DocTable.Json

/-- An open container with what has been read of it, waiting for the value that is being read. -/
inductive Frame where
  /-- An array with the elements so far in reverse. -/
  | element (before : List Json)
  /-- An object with the entries so far and the name of the value that is being read. -/
  | member (before : Fields Json) (key : String)

/-- What may follow, with the containers around it, the innermost first. -/
inductive Reader where
  /-- A value. -/
  | expectValue (stack : List Frame)
  /-- The first element of an array, or its end. -/
  | expectElement (stack : List Frame)
  /-- The first name of an object, or its end. -/
  | expectFirstKey (stack : List Frame)
  /-- A further name of an object. -/
  | expectKey (before : Fields Json) (stack : List Frame)
  /-- The colon behind a name. -/
  | expectColon (before : Fields Json) (key : String) (stack : List Frame)
  /-- Whatever follows the value that has just been read. -/
  | complete (value : Json) (stack : List Frame)

namespace Reader

/-- Reads the first token of a value. At most `limit` containers may be open. -/
def begin? (limit : Nat) (stack : List Frame) : Token → Option Reader
  | .null => some (.complete .null stack)
  | .bool value => some (.complete (.bool value) stack)
  | .number value => some (.complete (.number value) stack)
  | .string value => some (.complete (.string value) stack)
  | .openArray => if stack.length < limit then some (.expectElement stack) else none
  | .openObject => if stack.length < limit then some (.expectFirstKey stack) else none
  | _ => none

/-- Reads one token. -/
def step? (limit : Nat) : Reader → Token → Option Reader
  | .expectValue stack, token => begin? limit stack token
  | .expectElement stack, .closeArray => some (.complete (.array []) stack)
  | .expectElement stack, token => begin? limit (.element [] :: stack) token
  | .expectFirstKey stack, .closeObject => some (.complete (.object ∅) stack)
  | .expectFirstKey stack, .string key => some (.expectColon ∅ key stack)
  | .expectKey before stack, .string key => some (.expectColon before key stack)
  | .expectColon before key stack, .colon => some (.expectValue (.member before key :: stack))
  | .complete value (.element before :: stack), .comma =>
    some (.expectValue (.element (value :: before) :: stack))
  | .complete value (.element before :: stack), .closeArray =>
    some (.complete (.array (value :: before).reverse) stack)
  | .complete value (.member before key :: stack), .comma =>
    some (.expectKey (before.insert key value) stack)
  | .complete value (.member before key :: stack), .closeObject =>
    some (.complete (.object (before.insert key value)) stack)
  | _, _ => none

/-- The value that has been read, if nothing is missing. -/
def result? : Reader → Option Json
  | .complete value [] => some value
  | _ => none

end Reader

/-- The greatest number of containers that may be open in the text of a document. -/
def depthLimit : Nat := 127

/-- Reads a text that holds one value, nested at most `limit` deep. -/
def readWithin? (limit : Nat) (text : List Char) : Option Json := do
  let tokens ← Token.scan? text
  let reader ← tokens.foldlM (Reader.step? limit) (.expectValue [])
  reader.result?

/-- Reads a text that holds one value; `none` says that it is not the text of one. -/
def read? (text : String) : Option Json := readWithin? depthLimit text.toList

end DocTable.Json
