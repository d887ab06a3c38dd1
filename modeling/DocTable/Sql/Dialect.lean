/-!
# SQL dialects

The engines that the library writes SQL for. Three of them can look inside a JSON column; the
fourth stands for any engine that stores a document as opaque text.
-/

namespace DocTable.Sql

/-- The dialects whose SQL can look inside a JSON column. -/
inductive JsonDialect where
  | sqlite
  | mysql
  | postgres
deriving DecidableEq, Repr

/-- The dialects of the supported engines. -/
inductive Dialect where
  /-- An engine that can look inside a JSON column. -/
  | json (dialect : JsonDialect)
  /-- An engine without JSON functions. -/
  | text
deriving DecidableEq, Repr

namespace Dialect

instance : Inhabited Dialect := ⟨.json .sqlite⟩

/-- The dialect's own name. -/
def name : Dialect → String
  | .json .sqlite => "sqlite"
  | .json .mysql => "mysql"
  | .json .postgres => "postgres"
  | .text => "text"

/-- The dialect's name in diagnostics. -/
def diagnosticName : Dialect → String
  | .json .sqlite => "Sqlite"
  | .json .mysql => "Mysql"
  | .json .postgres => "Postgres"
  | .text => "Text"

instance : ToString Dialect := ⟨name⟩

/-- The dialect with exactly this name. -/
def ofName? (name : String) : Option Dialect :=
  match name with
  | "sqlite" => some (.json .sqlite)
  | "mysql" => some (.json .mysql)
  | "postgres" => some (.json .postgres)
  | "text" => some .text
  | _ => none

/-- The dialect with this name or common alias, in lower case. -/
def ofAlias? (name : String) : Option Dialect :=
  match name with
  | "sqlite3" => some (.json .sqlite)
  | "mariadb" => some (.json .mysql)
  | "postgresql" | "pg" => some (.json .postgres)
  | _ => ofName? name

/-- A dialect is found under its own name. -/
@[simp] theorem ofName?_name (dialect : Dialect) : ofName? dialect.name = some dialect := by
  cases dialect with
  | text => rfl
  | json dialect => cases dialect <;> rfl

end Dialect

end DocTable.Sql
