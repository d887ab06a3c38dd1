import DocTable.Sql.Dialect
import DocTable.Sql.Value
import DocTable.Text.Decimal
import DocTable.Text.Quoted

/-!
# Fragments of statements

The text of a statement is put together from pieces: code, quoted names, string constants and
parameters. Only at the end is the text written, and only then are the parameters numbered, from
left to right. So the text depends on the values of the parameters in no way, and the number of
placeholders is the number of parameters.
-/

namespace DocTable.Sql

/-- What a parameter stands for, which decides how its placeholder is written. -/
inductive Role where
  /-- A value of the engine. -/
  | plain
  /-- A JSON literal that is compared with a value extracted from a document. -/
  | literal
  /-- A whole document. -/
  | document
deriving DecidableEq, Repr

/-- A piece of a statement. -/
inductive Piece where
  /-- Keywords, names of functions, numbers and punctuation. -/
  | code (text : String)
  /-- The name of a table or a column, to be quoted. -/
  | identifier (name : String)
  /-- A string constant. -/
  | constant (text : String)
  /-- A bound value. -/
  | parameter (role : Role) (value : Value)
deriving DecidableEq, Repr

/-- A part of a statement. -/
abbrev Fragment : Type := List Piece

/-- A statement as it is handed to an engine. -/
structure Statement where
  sql : String
  parameters : List Value
deriving DecidableEq, Repr

namespace Dialect

/-- The mark around quoted names. -/
def identifierMark : Dialect → Char
  | .json .mysql => '\x60'
  | _ => '"'

/-- The placeholder of the parameter with the given number, which counts from one. -/
def placeholder (dialect : Dialect) (role : Role) (index : Nat) : List Char :=
  match dialect, role with
  | .json .mysql, .literal => "CAST(? AS JSON)".toList
  | .json .postgres, .plain => '$' :: decimal index
  | .json .postgres, _ => "CAST($".toList ++ decimal index ++ " AS JSONB)".toList
  | _, _ => ['?']

end Dialect

namespace Piece

/-- The value of a parameter. -/
def parameter? : Piece → Option Value
  | .parameter _ value => some value
  | _ => none

/-- The text of a piece; a parameter has the given number. -/
def chars (dialect : Dialect) (index : Nat) : Piece → List Char
  | .code text => text.toList
  | .identifier name => quoted dialect.identifierMark name.toList
  | .constant text => quoted '\'' text.toList
  | .parameter role _ => dialect.placeholder role index

end Piece

namespace Fragment

/-- The bound values in the order of their placeholders. -/
def parameters (fragment : Fragment) : List Value := fragment.filterMap Piece.parameter?

/-- The text of a fragment in front of which as many parameters stand as `bound` says. -/
def chars (dialect : Dialect) (bound : Nat) : Fragment → List Char
  | [] => []
  | piece :: rest =>
    piece.chars dialect (bound + 1) ++ chars dialect (bound + (parameters [piece]).length) rest

/-- The text of a fragment at the beginning of a statement. -/
def text (dialect : Dialect) (fragment : Fragment) : String :=
  String.ofList (chars dialect 0 fragment)

/-- The statement that a fragment is. -/
def statement (dialect : Dialect) (fragment : Fragment) : Statement where
  sql := fragment.text dialect
  parameters := fragment.parameters

@[simp] theorem parameters_append (first second : Fragment) :
    parameters (first ++ second) = parameters first ++ parameters second :=
  List.filterMap_append

/-- The second of two fragments goes on counting where the first one stopped. -/
theorem chars_append (dialect : Dialect) (bound : Nat) (first second : Fragment) :
    chars dialect bound (first ++ second) =
      chars dialect bound first ++ chars dialect (bound + (parameters first).length) second := by
  induction first generalizing bound with
  | nil => simp [chars, parameters]
  | cons piece rest ih =>
    have split : parameters (piece :: rest) = parameters [piece] ++ parameters rest :=
      parameters_append [piece] rest
    simp [chars, ih, split, Nat.add_assoc]

/-- Fragments with a text between them. -/
def separated (separator : String) (fragments : List Fragment) : Fragment :=
  List.intercalate [.code separator] fragments

/-- A fragment in parentheses. -/
def parenthesized (fragment : Fragment) : Fragment :=
  .code "(" :: (fragment ++ [.code ")"])

/-- The call of a function. -/
def call (name : String) (arguments : List Fragment) : Fragment :=
  .code name :: parenthesized (separated ", " arguments)

end Fragment

end DocTable.Sql
