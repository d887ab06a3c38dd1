import DocTable.Double.Layout

/-!
# SQL values

A value that crosses the border to an engine: a bound parameter or a column of a result.
-/

namespace DocTable.Sql

/-- A value bound to a statement or read from a row. -/
inductive Value where
  | null
  | integer (value : Int)
  | real (value : Double)
  | text (value : String)
  /-- Bytes that are not the encoding of a text. -/
  | blob (bytes : List UInt8)
deriving DecidableEq, Repr

namespace Value

/-- The text of a value in diagnostics, its kind around its content. -/
def diagnostic : Value → String
  | .null => "Null"
  | .integer value => s!"Integer({String.ofList (decimalInt value)})"
  | .real value => s!"Real({String.ofList (value.write Double.diagnosticLayout)})"
  | .text value => s!"Text({value})"
  | .blob bytes => s!"Blob({bytes.length})"

end Value

/-- A row of a result. -/
abbrev Row : Type := List Value

end DocTable.Sql
