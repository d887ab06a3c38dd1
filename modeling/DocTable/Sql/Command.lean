import DocTable.Sql.Clause

/-!
# Commands

What is asked of an engine about one table. A command is data, so that a table in memory can carry
it out, and it has a text in every dialect that can express it.
-/

namespace DocTable.Sql

/-- How a row that has been read is found again. -/
inductive RowKey where
  /-- By the id of its document. -/
  | id (id : String)
  /-- By its exact text. -/
  | text (stored : String)
deriving DecidableEq, Repr

/-- A command about one table. -/
inductive Command where
  /-- Creates the table unless it is there. -/
  | createTable
  /-- Removes the table if it is there. -/
  | dropTable
  /-- Reads the chosen documents. If an order is given, ties follow it in insertion order where the
  engine exposes that. -/
  | select (predicate : Predicate) (order : Option (List SortTerm)) (limit skip : Option Nat)
  /-- Counts the chosen documents. -/
  | count (predicate : Predicate)
  /-- Appends a document. -/
  | insert (text : String)
  /-- Writes a document over a row. -/
  | overwrite (key : RowKey) (text : String)
  /-- Merges an object over the document of a row. -/
  | patch (key : RowKey) (text : String)
  /-- Deletes a row. -/
  | delete (key : RowKey)
  /-- Deletes the chosen documents. -/
  | deleteWhere (predicate : Predicate)
deriving Repr

/-- The path of the id. -/
def idPath : FieldPath := FieldPath.ofName idField (by decide)

namespace RowKey

/-- The condition that a row is the one with the key. -/
def condition (dialect : Dialect) : RowKey → Except Error Fragment
  | .id value => do
    return (← dialect.extraction idPath) ++ [.code " = ", dialect.literal (.string value)]
  | .text stored =>
    pure [.identifier documentColumn, .code " = ", .parameter .plain (.text stored)]

end RowKey

/-- A count as a parameter. -/
def countParameter (count : Nat) : Except Error Fragment :=
  if count < 0x8000000000000000 then pure [.parameter .plain (.integer count)]
  else throw (.compilation (.countOutOfRange count))

/-- A fragment followed by a clause, if there is one. -/
def Fragment.followedBy (fragment clause : Fragment) : Fragment :=
  if clause.isEmpty then fragment else fragment ++ .code " " :: clause

namespace Command

/-- Whether the answer consists of rows. -/
def isQuery : Command → Bool
  | .select .. | .count _ => true
  | _ => false

/-- The text of a command about a table in a dialect. -/
def fragment (dialect : Dialect) (table : String) : Command → Except Error Fragment
  | .createTable => pure [.code "CREATE TABLE IF NOT EXISTS ", .identifier table, .code " (",
      .identifier documentColumn, .code s!" {dialect.columnType} NOT NULL)"]
  | .dropTable => pure [.code "DROP TABLE IF EXISTS ", .identifier table]
  | .select predicate order limit skip => do
    let rows : Fragment := .code "SELECT " :: dialect.documentText ++
      [.code " FROM ", .identifier table, .code " WHERE "] ++ (← predicate.fragment dialect)
    let order ← match order with
      | some terms => dialect.orderClause terms
      | none => pure []
    let limit ← limit.mapM countParameter
    let skip ← skip.mapM countParameter
    return Fragment.followedBy (Fragment.followedBy rows order) (dialect.slice limit skip)
  | .count predicate => do
    return [.code "SELECT COUNT(*) FROM ", .identifier table, .code " WHERE "] ++
      (← predicate.fragment dialect)
  | .insert text => pure [.code "INSERT INTO ", .identifier table, .code " (",
      .identifier documentColumn, .code ") VALUES (", .parameter .document (.text text),
      .code ")"]
  | .overwrite key text => do
    return [.code "UPDATE ", .identifier table, .code " SET ", .identifier documentColumn,
      .code " = ", .parameter .document (.text text), .code " WHERE "] ++
      (← key.condition dialect)
  | .patch key text =>
    match dialect.json? with
    | none => throw (.compilation (.noPaths dialect))
    | some engine => do
      let merged := engine.mergePatch documentColumn [.parameter .document (.text text)]
      return [.code "UPDATE ", .identifier table, .code " SET ", .identifier documentColumn,
        .code " = "] ++ merged ++ .code " WHERE " :: (← key.condition dialect)
  | .delete key => do
    return [.code "DELETE FROM ", .identifier table, .code " WHERE "] ++ (← key.condition dialect)
  | .deleteWhere predicate => do
    return [.code "DELETE FROM ", .identifier table, .code " WHERE "] ++
      (← predicate.fragment dialect)

/-- The statement of a command about a table in a dialect. -/
def statement (dialect : Dialect) (table : String) (command : Command) :
    Except Error Statement :=
  (·.statement dialect) <$> command.fragment dialect table

end Command

/-- A command about a table together with its text in the engine's dialect. -/
structure Call where
  table : String
  command : Command
  statement : Statement
deriving Repr

/-- The call that gives a command to an engine. -/
def Command.call (dialect : Dialect) (table : String) (command : Command) : Except Error Call := do
  return ⟨table, command, ← command.statement dialect table⟩

end DocTable.Sql
