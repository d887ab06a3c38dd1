import DocTable.Sql.Predicate

/-!
# Statements written by hand

A draft holds the text of a statement and its parameters apart. Binding a value returns the
placeholder and leaves it to the writer where to put that; the numbers of the placeholders follow
the order of binding, so the text has to take them in this order.
-/

namespace DocTable.Sql

/-- A statement that is being written. -/
structure Draft where
  dialect : Dialect
  /-- The text so far. -/
  sql : String := ""
  /-- The values bound so far. -/
  parameters : List Value := []
deriving DecidableEq, Repr

namespace Draft

/-- Adds to the text. -/
def push (draft : Draft) (text : String) : Draft := { draft with sql := draft.sql ++ text }

/-- Binds the parameters of a fragment and returns its text, which is not added. -/
def bind (draft : Draft) (fragment : Fragment) : String × Draft :=
  (String.ofList (Fragment.chars draft.dialect draft.parameters.length fragment),
    { draft with parameters := draft.parameters ++ fragment.parameters })

/-- Binds a value of the engine. -/
def bindValue (draft : Draft) (value : Value) : String × Draft :=
  draft.bind [.parameter .plain value]

/-- Binds a JSON literal. -/
def bindLiteral (draft : Draft) (literal : Scalar) : String × Draft :=
  draft.bind [draft.dialect.literal literal]

/-- Binds the text of a document. -/
def bindDocument (draft : Draft) (text : String) : String × Draft :=
  draft.bind [.parameter .document (.text text)]

/-- Binds the literals of a condition and returns its text. -/
def bindCondition (draft : Draft) (condition : Condition) : Except Error (String × Draft) := do
  return draft.bind (← condition.toPredicate.fragment draft.dialect)

/-- The finished statement. -/
def finish (draft : Draft) : Statement := ⟨draft.sql, draft.parameters⟩

end Draft

end DocTable.Sql
