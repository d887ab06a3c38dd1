import DocTable.Double.Significant
import DocTable.Json.MergePatch
import DocTable.Session
import DocTable.Sql.Evaluation

/-!
# Tables in memory

An engine that keeps its tables in memory and carries out commands as data, without reading their
text. A table is the list of its rows in insertion order. The one column of a table takes texts,
so a number is stored as its text; bytes stay bytes, are equal to no text, and are read as a text
where they are the encoding of one.
-/

namespace DocTable

/-- A table: its name and the stored values in insertion order. -/
structure MemoryTable where
  name : String
  rows : List Sql.Value
deriving DecidableEq, Repr

/-- The tables of a database. -/
structure MemoryStore where
  tables : List MemoryTable := []
deriving DecidableEq, Repr

namespace Sql.Value

/-- What a column of texts stores for a value. -/
def asStored : Value → Value
  | .integer value => .text (String.ofList (decimalInt value))
  | .real value => .text (String.ofList value.significantText)
  | other => other

/-- What is read for a stored value. -/
def asRead : Value → Value
  | .blob bytes =>
    match String.fromUTF8? ⟨bytes.toArray⟩ with
    | some read => .text read
    | none => .blob bytes
  | other => other

/-- The document that a stored value holds, if any. -/
def document? (value : Value) : Option Document :=
  match value.asRead with
  | .text raw => (Document.decode raw).toOption
  | _ => none

end Sql.Value

namespace Sql

/-- Whether a predicate chooses a row. A row without a document is chosen only by a constant. -/
def Predicate.choosesRow (predicate : Predicate) (stored : Value) : Bool :=
  match predicate with
  | .constant value => value
  | predicate => match stored.document? with
    | some document => predicate.chooses document
    | none => false

/-- Whether a key is that of a row. -/
def RowKey.isOf (key : RowKey) (stored : Value) : Bool :=
  match key with
  | .text raw => stored == .text raw
  | .id value => (stored.document?.bind Document.id?) == some value

end Sql

namespace MemoryStore

/-- Whether two names are those of the same table; the case of ASCII letters does not matter. -/
def sameName (left right : String) : Bool :=
  left.toList.map Char.toLower == right.toList.map Char.toLower

/-- Whether a name is reserved for the engine's own tables. -/
def isReserved (name : String) : Bool :=
  "sqlite_".toList.isPrefixOf (name.toList.map Char.toLower)

/-- The rows of a table, if there is one of the name. -/
def rows? (store : MemoryStore) (name : String) : Option (List Sql.Value) :=
  (store.tables.find? (sameName name ·.name)).map (·.rows)

/-- The store with other rows in a table. -/
def setRows (store : MemoryStore) (name : String) (rows : List Sql.Value) : MemoryStore :=
  ⟨store.tables.map fun table => if sameName name table.name then { table with rows } else table⟩

/-- The store with an empty table, unless there is one of the name. -/
def create (store : MemoryStore) (name : String) : MemoryStore :=
  match store.rows? name with
  | some _ => store
  | none => ⟨store.tables ++ [⟨name, []⟩]⟩

/-- The store without a table. -/
def drop (store : MemoryStore) (name : String) : MemoryStore :=
  ⟨store.tables.filter (!sameName name ·.name)⟩

/-- Appends a value to the rows of a table; null is refused. -/
def insert (rows : List Sql.Value) (value : Sql.Value) : Except Error (List Sql.Value) :=
  if value = .null then throw (.execution .nullDocument) else pure (rows ++ [value.asStored])

/-- Appends values to a table until one of them is refused; counts them if none is. -/
def insertValues (store : MemoryStore) (name : String) :
    List Sql.Value → Except Error Nat × MemoryStore
  | [] => (.ok 0, store)
  | value :: rest =>
    match store.rows? name with
    | none => (.error (.execution (.noTable name)), store)
    | some rows =>
      match insert rows value with
      | .error error => (.error error, store)
      | .ok rows =>
        let (count, store) := insertValues (store.setRows name rows) name rest
        (count.map (· + 1), store)

/-- The rows that a selection reads, in its order and sliced. -/
def select (rows : List Sql.Value) (predicate : Sql.Predicate) (order : Option (List SortTerm))
    (limit skip : Option Nat) : List Sql.Row :=
  let chosen := rows.filter predicate.choosesRow
  let sorted := match order with
    | some terms => stableSort (fun (left right : Sql.Value) =>
        Document.compareBy terms (left.document?.getD ∅) (right.document?.getD ∅)) chosen
    | none => chosen
  let rest := sorted.drop (skip.getD 0)
  let taken := match limit with
    | some limit => rest.take limit
    | none => rest
  taken.map fun row => [row.asRead]

/-- A stored value with an object merged over its document. -/
def patched (patch : String) (stored : Sql.Value) : Sql.Value :=
  match stored.document?, Json.read? patch with
  | some document, some patch => .text (Json.mergePatch (.object document) patch).text
  | _, _ => stored

/-- Changes the rows that pass a test and counts them. -/
def change (rows : List Sql.Value) (test : Sql.Value → Bool) (change : Sql.Value → Sql.Value) :
    Nat × List Sql.Value :=
  (rows.countP test, rows.map fun row => if test row then change row else row)

/-- Removes the rows that pass a test and counts them. -/
def remove (rows : List Sql.Value) (test : Sql.Value → Bool) : Nat × List Sql.Value :=
  (rows.countP test, rows.filter (!test ·))

/-- What a command about existing rows affects, and the rows it leaves. -/
def affect (rows : List Sql.Value) : Sql.Command → Except Error (Nat × List Sql.Value)
  | .insert text => do return (1, ← insert rows (.text text))
  | .overwrite key text => pure (change rows key.isOf fun _ => .text text)
  | .patch key text => pure (change rows key.isOf (patched text))
  | .delete key => pure (remove rows key.isOf)
  | .deleteWhere predicate => pure (remove rows predicate.choosesRow)
  | .createTable | .dropTable | .select .. | .count _ => pure (0, rows)

/-- Whether a name can stand in a statement: the text of a statement ends at a null character. -/
def isReadable (name : String) : Bool := !name.toList.contains '\x00'

/-- Answers a query. -/
def query (store : MemoryStore) (call : Sql.Call) : Except Error (List Sql.Row) := do
  if !isReadable call.table then throw (.execution .unreadable)
  match store.rows? call.table with
  | none => throw (.execution (.noTable call.table))
  | some rows =>
    match call.command with
    | .select predicate order limit skip => return select rows predicate order limit skip
    | .count predicate => return [[.integer (rows.countP predicate.choosesRow)]]
    | _ => return []

/-- Carries out a command that affects rows or tables. -/
def execute (store : MemoryStore) (call : Sql.Call) : Except Error (Nat × MemoryStore) := do
  if !isReadable call.table then throw (.execution .unreadable)
  match call.command with
  | .createTable =>
    if isReserved call.table then throw (.execution (.reservedName call.table))
    return (0, store.create call.table)
  | .dropTable => return (0, store.drop call.table)
  | command =>
    match store.rows? call.table with
    | none => throw (.execution (.noTable call.table))
    | some rows =>
      let (affected, rows) ← affect rows command
      return (affected, store.setRows call.table rows)

end MemoryStore

/-- An engine over tables in memory. A call that fails leaves them as they are. -/
def Engine.memory : Engine MemoryStore where
  query call store := (store.query call, store)
  execute call store :=
    match store.execute call with
    | .ok (affected, store) => (.ok affected, store)
    | .error error => (.error error, store)

end DocTable
