import DocTable.Error

/-!
# Names of dialects

A user may name a dialect by its own name or by a common alias, in any case of the letters.
-/

namespace DocTable.Sql

/-- The text with its ASCII letters in lower case. -/
def asciiLower (text : String) : String := String.ofList (text.toList.map Char.toLower)

/-- Reads the name of a dialect as a user gives it. -/
def Dialect.parse (name : String) : Except Error Dialect :=
  match ofAlias? (asciiLower name) with
  | some dialect => pure dialect
  | none => throw (.unknownDialect (asciiLower name))

/-- The case of the letters does not matter. -/
example : (Dialect.parse "PostgreSQL").toOption = some (.json .postgres) := by decide +kernel

end DocTable.Sql
