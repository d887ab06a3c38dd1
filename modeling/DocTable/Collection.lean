import DocTable.Cursor
import DocTable.Session
import DocTable.Text.Diagnostic
import DocTable.Update.Apply

/-!
# Collections

A collection is a table of documents. Every operation plans its statements before it makes a call,
so a malformed request never reaches the engine. An operation that writes several documents first
reads all matching rows and only then writes.
-/

namespace DocTable

/-- A table of documents. -/
structure Collection where
  name : String
  dialect : Sql.Dialect
deriving DecidableEq, Repr

/-- What an update or a replacement did. -/
structure UpdateReport where
  /-- How many documents matched the filter. -/
  matched : Nat
  /-- How many of them changed. -/
  modified : Nat
deriving DecidableEq, Repr

/-- The address of a stored row: its id if the dialect can look it up, and otherwise its text. -/
def StoredRow.key (dialect : Sql.Dialect) (row : StoredRow) : Sql.RowKey :=
  match dialect, row.document.id? with
  | .json _, some id => .id id
  | _, _ => .text row.raw

/-- The text of the fields of a merge that the engine can merge by itself: there are some, and
each value is a truth value, a number or a string. -/
def Update.patch? : Update → Option String
  | .merge fields =>
    if !fields.isEmpty && fields.entries.all fun (_, value) => isPlain value then some fields.text
    else none
  | .operators .. => none
where
  /-- Whether a merge of objects puts the value in place as it is. -/
  isPlain : Json → Bool
    | .bool _ | .number _ | .string _ => true
    | _ => false

namespace Collection

/-- Gives the engine a command that affects rows. -/
def execute (collection : Collection) (command : Sql.Command) : Session Nat := do
  .execute (← command.call collection.dialect collection.name) pure

/-- The collection of a name; its table is created unless it is there. -/
def create (dialect : Sql.Dialect) (name : String) : Session Collection := do
  let collection : Collection := ⟨name, dialect⟩
  let _ ← collection.execute .createTable
  return collection

/-- Removes the table. -/
def drop (collection : Collection) : Session Unit := do
  let _ ← collection.execute .dropTable

/-- The cursor over the documents that a filter chooses. -/
def find (collection : Collection) (filter : Filter) (options : FindOptions) : Session Cursor := do
  let plan ← FindPlan.build collection.dialect collection.name filter options
  .query plan.call fun rows => pure (Cursor.ofRows plan rows)

/-- The first document of a search, if there is one. -/
def findOne (collection : Collection) (filter : Filter) (options : FindOptions) :
    Session (Option Document) := do
  let cursor ← collection.find filter { options with limit := some 1 }
  match cursor.advance.1 with
  | some item => return some (← item)
  | none => return none

/-- The number in the first column of the first row; without one, or below zero, zero. -/
def countOfRows : List Sql.Row → Nat
  | (.integer count :: _) :: _ => count.toNat
  | _ => 0

/-- The number of documents that a filter chooses. -/
def count (collection : Collection) (filter : Filter) : Session Nat := do
  match ← filter.callWhere? collection.dialect collection.name .count with
  | some call => .query call fun rows => pure (countOfRows rows)
  | none => do
    let cursor ← collection.find filter {}
    return (← cursor.allRows).length

/-- Whether a stored document that can be read has the id. -/
def isTaken (collection : Collection) (id : String) : Session Bool := do
  let cursor ← collection.find (.declarative ⟨[(idField, .string id)]⟩) {}
  return cursor.drainRows.any (·.isOk)

/-- The document with an id in front, its own or a fresh one. -/
def stamp (document : Document) : Session (String × Document) := do
  match ← document.suppliedId? with
  | some id => return (id, document.withId id)
  | none => .freshId fun id => pure (id, document.withId id)

/-- Stores a document and returns its id. -/
def insertOne (collection : Collection) (document : Document) : Session String := do
  let (id, stamped) ← stamp document
  if ← collection.isTaken id then Session.fail (.duplicateId collection.name id)
  else do
    let _ ← collection.execute (.insert stamped.text)
    return id

/-- Stores documents in order until one of them fails. -/
def insertMany (collection : Collection) : List Document → Session (List String)
  | [] => return []
  | document :: rest => do
    let id ← collection.insertOne document
    return id :: (← collection.insertMany rest)

/-- The rows that a filter chooses, at most as many as the limit. -/
def snapshot (collection : Collection) (filter : Filter) (limit : Option Nat) :
    Session (List StoredRow) := do
  let cursor ← collection.find filter { limit }
  cursor.allRows

/-- Writes back the rows that a change modifies and counts them. -/
def writeBack (collection : Collection) (patch : Option String)
    (change : Document → Document × Bool) : List StoredRow → Session Nat
  | [] => return 0
  | row :: rest => do
    let (document, changed) := change row.document
    if changed then
      let _ ← collection.execute <| match patch, row.key collection.dialect with
        | some patch, .id id => .patch (.id id) patch
        | _, key => .overwrite key document.text
      return (← collection.writeBack patch change rest) + 1
    else collection.writeBack patch change rest

/-- Reads the rows that a filter chooses and then writes back those that a change modifies. -/
def changeChosen (collection : Collection) (filter : Filter) (limit : Option Nat)
    (patch : Option String) (change : Document → Document × Bool) : Session UpdateReport := do
  let rows ← collection.snapshot filter limit
  return ⟨rows.length, ← collection.writeBack patch change rows⟩

/-- Applies an update to the documents that a filter chooses, at most as many as the limit. -/
def update (collection : Collection) (filter : Filter) (update : Document)
    (limit : Option Nat) : Session UpdateReport := do
  let update ← Update.ofDocument update
  collection.changeChosen filter limit update.patch? update.apply

/-- Applies an update to the first document that a filter chooses. -/
def updateOne (collection : Collection) (filter : Filter) (update : Document) :
    Session UpdateReport := collection.update filter update (some 1)

/-- Applies an update to every document that a filter chooses. -/
def updateMany (collection : Collection) (filter : Filter) (update : Document) :
    Session UpdateReport := collection.update filter update none

/-- Puts a replacement in place of the documents that a filter chooses, at most as many as the
limit. Each keeps its id. -/
def replace (collection : Collection) (filter : Filter) (replacement : Document)
    (limit : Option Nat) : Session UpdateReport := do
  checkReplacement replacement
  if replacement.contains idField then Session.fail UpdateError.idReplaced
  else collection.changeChosen filter limit none replacement.replaceWith

/-- Puts a replacement in place of the first document that a filter chooses. -/
def replaceOne (collection : Collection) (filter : Filter) (replacement : Document) :
    Session UpdateReport := collection.replace filter replacement (some 1)

/-- Puts a replacement in place of every document that a filter chooses. -/
def replaceMany (collection : Collection) (filter : Filter) (replacement : Document) :
    Session UpdateReport := collection.replace filter replacement none

/-- Deletes rows one by one and counts how many the engine deleted. -/
def deleteRows (collection : Collection) : List StoredRow → Session Nat
  | [] => return 0
  | row :: rest => do
    let deleted ← collection.execute (.delete (row.key collection.dialect))
    return deleted + (← collection.deleteRows rest)

/-- Deletes the first document that a filter chooses. -/
def deleteOne (collection : Collection) (filter : Filter) : Session Nat := do
  collection.deleteRows (← collection.snapshot filter (some 1))

/-- Deletes every document that a filter chooses, in one statement if the engine can tell them. -/
def deleteMany (collection : Collection) (filter : Filter) : Session Nat := do
  match ← filter.callWhere? collection.dialect collection.name .deleteWhere with
  | some call => .execute call pure
  | none => collection.deleteRows (← collection.snapshot filter none)

/-- A collection in diagnostics. -/
def diagnostic (collection : Collection) : String :=
  s!"Collection \x7b name: {diagnosticText collection.name}, " ++
    s!"dialect: {collection.dialect.diagnosticName} \x7d"

end Collection

/-- A database in diagnostics, of which only the dialect is shown. -/
def databaseDiagnostic (dialect : Sql.Dialect) : String :=
  s!"Database \x7b dialect: {dialect.diagnosticName}, .. \x7d"

end DocTable
