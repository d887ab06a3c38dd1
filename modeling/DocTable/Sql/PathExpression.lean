import DocTable.Error
import DocTable.Filter.Condition
import DocTable.Json.Printer
import DocTable.Sql.Fragment

/-!
# Expressions over paths

How each dialect extracts the value at a path from a column of documents and how it tests that
value. A dialect without JSON functions has none of these.
-/

namespace DocTable.Sql

/-- The column that holds the documents. -/
def documentColumn : String := "document"

namespace JsonDialect

/-- A path in the notation of the JSON functions. No segment holds a character that would have to
be escaped in it. -/
def jsonPath (path : FieldPath) : Piece :=
  .constant (String.ofList ('$' :: path.segments.flatMap fun segment =>
    '.' :: '"' :: (segment.toList ++ ['"'])))

/-- The value at a path; no value at all where the path is missing. -/
def extraction (dialect : JsonDialect) (column : String) (path : FieldPath) : Fragment :=
  match dialect with
  | .sqlite => Fragment.call "json_extract" [[.identifier column], [jsonPath path]]
  | .mysql => Fragment.call "JSON_EXTRACT" [[.identifier column], [jsonPath path]]
  | .postgres => Fragment.parenthesized
      (.identifier column :: path.segments.flatMap fun segment =>
        [.code " -> ", .constant segment])

/-- The type of the value at a path, as a word. -/
def typeOf (dialect : JsonDialect) (column : String) (path : FieldPath) : Fragment :=
  match dialect with
  | .sqlite => Fragment.call "json_type" [[.identifier column], [jsonPath path]]
  | .mysql => Fragment.call "JSON_TYPE" [dialect.extraction column path]
  | .postgres => Fragment.call "jsonb_typeof" [dialect.extraction column path]

/-- The words for the types that a literal of some kind may be compared with. -/
def typeWords : JsonDialect → ScalarKind → List String
  | .sqlite, .number => ["integer", "real"]
  | .sqlite, .string => ["text"]
  | .sqlite, .bool => ["true", "false"]
  | .mysql, .number => ["INTEGER", "UNSIGNED INTEGER", "DOUBLE", "DECIMAL"]
  | .mysql, .string => ["STRING"]
  | .mysql, .bool => ["BOOLEAN"]
  | .postgres, .number => ["number"]
  | .postgres, .string => ["string"]
  | .postgres, .bool => ["boolean"]

/-- The test that the value at a path has the type of the literals of some kind. -/
def kindTest (dialect : JsonDialect) (column : String) (path : FieldPath) (kind : ScalarKind) :
    Fragment :=
  let words : List Fragment := (dialect.typeWords kind).map ([.constant ·])
  dialect.typeOf column path ++ match dialect with
    | .postgres => .code " = " :: Fragment.separated ", " words
    | _ => .code " IN " :: Fragment.parenthesized (Fragment.separated ", " words)

/-- The test that the value at a path is missing or null. -/
def nullTest (dialect : JsonDialect) (column : String) (path : FieldPath) : Fragment :=
  match dialect with
  | .sqlite => dialect.extraction column path ++ [.code " IS NULL"]
  | .mysql => absentAs "NULL"
  | .postgres => absentAs "null"
where
  /-- The test of the type's word, a missing value standing for null. -/
  absentAs (word : String) : Fragment :=
    Fragment.call "COALESCE" [dialect.typeOf column path, [.constant word]] ++
      [.code " = ", .constant word]

/-- The test that there is a value at a path, be it null. -/
def existenceTest (dialect : JsonDialect) (column : String) (path : FieldPath) : Fragment :=
  match dialect with
  | .sqlite => dialect.typeOf column path ++ [.code " IS NOT NULL"]
  | .mysql =>
    Fragment.call "JSON_CONTAINS_PATH" [[.identifier column], [.constant "one"], [jsonPath path]]
  | .postgres => dialect.extraction column path ++ [.code " IS NOT NULL"]

end JsonDialect

/-- A number as a value of the engine: an integer if it is in the signed range. -/
def Value.ofNumber (number : Number) : Value :=
  match number.signed? with
  | some value => .integer value
  | none => .real number.toDouble

/-- A scalar as a value of the engine; truth values are the integers one and zero. -/
def Value.ofScalar : Scalar → Value
  | .null => .null
  | .bool value => .integer (if value then 1 else 0)
  | .number number => .ofNumber number
  | .string value => .text value

namespace Dialect

/-- The bound value of a JSON literal: its JSON text where the engine compares JSON values. -/
def literalValue (dialect : Dialect) (literal : Scalar) : Value :=
  match dialect with
  | .json .mysql | .json .postgres => .text literal.toJson.text
  | .json .sqlite | .text => .ofScalar literal

/-- A JSON literal as a parameter. -/
def literal (dialect : Dialect) (literal : Scalar) : Piece :=
  .parameter .literal (dialect.literalValue literal)

/-- The part of the dialect that looks inside documents, if it can. -/
def json? : Dialect → Option JsonDialect
  | .json dialect => some dialect
  | .text => none

/-- The value at a path of the stored documents. -/
def extraction (dialect : Dialect) (path : FieldPath) : Except Error Fragment :=
  match dialect.json? with
  | some engine => pure (engine.extraction documentColumn path)
  | none => throw (.compilation (.noPaths dialect))

/-- A test of the stored documents, which a dialect without JSON functions cannot express. -/
def test (dialect : Dialect) (capability : Capability) (fragment : JsonDialect → Fragment) :
    Except Error Fragment :=
  match dialect.json? with
  | some engine => pure (fragment engine)
  | none => throw (.compilation (.unsupported dialect capability))

end Dialect

end DocTable.Sql
