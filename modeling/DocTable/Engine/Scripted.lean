import DocTable.Session

/-!
# Scripted engines

An engine that answers from a list of replies laid down beforehand. It stores nothing, so it shows
which calls an operation makes whatever the answers are.
-/

namespace DocTable

/-- A reply laid down beforehand. -/
inductive Reply where
  /-- The call fails. -/
  | error (message : String)
  /-- The rows of a query. -/
  | rows (rows : List Sql.Row)
  /-- The number of affected rows. -/
  | affected (count : Nat)
deriving Repr

/-- An engine that gives the replies one after the other. A reply of the other sort, or none, is no
rows and no affected row. -/
def Engine.scripted : Engine (List Reply) where
  query _ replies :=
    match replies with
    | [] => (.ok [], [])
    | .error message :: rest => (.error (.execution (.reported s!"scripted: {message}")), rest)
    | .rows rows :: rest => (.ok rows, rest)
    | .affected _ :: rest => (.ok [], rest)
  execute _ replies :=
    match replies with
    | [] => (.ok 0, [])
    | .error message :: rest => (.error (.execution (.reported s!"scripted: {message}")), rest)
    | .rows _ :: rest => (.ok 0, rest)
    | .affected count :: rest => (.ok count, rest)

end DocTable
