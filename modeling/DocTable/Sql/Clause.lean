import DocTable.Document.Sorting
import DocTable.Sql.Predicate

/-!
# Clauses

The parts of statements that differ between the dialects apart from path expressions: the column
of documents as it is declared, read and patched, the order of rows and their slicing.
-/

namespace DocTable.Sql

namespace Dialect

/-- The declared type of the column of documents. -/
def columnType : Dialect → String
  | .json .sqlite | .text => "TEXT"
  | .json .mysql => "JSON"
  | .json .postgres => "JSONB"

/-- The stored documents, read as texts. -/
def documentText : Dialect → Fragment
  | .json .postgres => [.code "CAST(", .identifier documentColumn, .code " AS TEXT)"]
  | _ => [.identifier documentColumn]

/-- The name under which the engine exposes the order in which rows were inserted. -/
def insertionOrder? : Dialect → Option String
  | .json .sqlite => some "rowid"
  | _ => none

/-- An expression to order by. Missing values come first in ascending order and last in descending
order, which one dialect does only when told to. -/
def orderTerm (dialect : Dialect) (expression : Fragment) (order : SortOrder) : Fragment :=
  let direction := match dialect, order with
    | .json .postgres, .asc => " ASC NULLS FIRST"
    | .json .postgres, .desc => " DESC NULLS LAST"
    | _, .asc => " ASC"
    | _, .desc => " DESC"
  expression ++ [.code direction]

/-- The number that stands for no limit where an offset cannot stand without one. -/
def unlimited? : Dialect → Option String
  | .json .sqlite | .text => some "-1"
  | .json .mysql => some "18446744073709551615"
  | .json .postgres => none

/-- The slicing of the result; empty if there is neither a limit nor an offset. -/
def slice (dialect : Dialect) (limit offset : Option Fragment) : Fragment :=
  let limit : Option Fragment := match limit, offset with
    | none, some _ => dialect.unlimited?.map ([.code ·])
    | limit, _ => limit
  match limit, offset with
  | none, none => []
  | some limit, none => .code "LIMIT " :: limit
  | none, some offset => .code "OFFSET " :: offset
  | some limit, some offset => .code "LIMIT " :: limit ++ .code " OFFSET " :: offset

/-- The order of rows by some terms and then, where the engine exposes it, by insertion; empty if
there is nothing to order by. -/
def orderClause (dialect : Dialect) (terms : List SortTerm) : Except Error Fragment := do
  let keys ← terms.mapM fun (path, order) => do
    return dialect.orderTerm (← dialect.extraction path) order
  let last := dialect.insertionOrder?.map fun column => dialect.orderTerm [.code column] .asc
  let all := keys ++ last.toList
  return if all.isEmpty then [] else .code "ORDER BY " :: Fragment.separated ", " all

/-- The order of rows by sort keys; without any, no order is asked for. -/
def orderBy (dialect : Dialect) (keys : List SortKey) : Except Error Fragment :=
  if keys.isEmpty then pure [] else do dialect.orderClause (← sortTerms keys)

end Dialect

/-- A column of documents with a JSON object merged over each of them. -/
def JsonDialect.mergePatch (dialect : JsonDialect) (column : String) (patch : Fragment) :
    Fragment :=
  match dialect with
  | .sqlite => Fragment.call "json_patch" [[.identifier column], patch]
  | .mysql => Fragment.call "JSON_MERGE_PATCH" [[.identifier column], patch]
  | .postgres => .identifier column :: .code " || " :: patch

end DocTable.Sql
