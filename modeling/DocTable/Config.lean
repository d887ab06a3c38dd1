import DocTable.DatabaseFile
import DocTable.Sql.DialectName
import DocTable.Text.Decimal
import DocTable.Toml.Reader

/-!
# Configuration

A configuration comes from a TOML text, over which some variables of the environment take
precedence. It names the dialect, the database file and the settings of the log.
-/

namespace DocTable

/-- The settings of the log. -/
structure LogConfig where
  /-- The directory of the log files. -/
  directory : Option String := none
  /-- The level from which messages are logged. -/
  level : Option String := none
  /-- How many old log files are kept. -/
  retention : Option Nat := none
  /-- Whether statements are logged. -/
  traceSql : Bool := false
deriving DecidableEq, Repr

/-- A configuration. -/
structure Config where
  /-- The dialect of the engine. -/
  dialect : Sql.Dialect := .json .sqlite
  /-- The database file; without one the database is in memory. -/
  database : Option String := none
  log : LogConfig := {}
deriving DecidableEq, Repr

/-- The variables of an environment. -/
abbrev Environment : Type := String → Option String

namespace Config

instance : Inhabited Config := ⟨{}⟩

/-- A setting that may be missing. -/
def setting? {α : Type} (read? : Toml → Option α) : Option Toml → Option (Option α)
  | none => some none
  | some value => (read? value).map some

/-- The value of a string. -/
def stringOfToml? : Toml → Option String
  | .string value => some value
  | _ => none

/-- An unsigned number of 32 bits. -/
def countOfToml? : Toml → Option Nat
  | .integer value => if 0 ≤ value ∧ value < 0x100000000 then some value.toNat else none
  | _ => none

/-- A truth value. -/
def boolOfToml? : Toml → Option Bool
  | .boolean value => some value
  | _ => none

/-- Whether a value is an array or a table without content. -/
def isEmptyToml : Toml → Bool
  | .array [] => true
  | .table _ fields => fields.isEmpty
  | _ => false

/-- A dialect: its own name, or a table with nothing under that name. -/
def dialectOfToml? : Toml → Option Sql.Dialect
  | .string name => Sql.Dialect.ofName? name
  | .table _ ⟨[(name, content)]⟩ =>
    if isEmptyToml content then Sql.Dialect.ofName? name else none
  | _ => none

/-- The settings of the log from their values, each of which may be missing. -/
def logOfParts? (directory level retention traceSql : Option Toml) : Option LogConfig := do
  return {
    directory := ← setting? stringOfToml? directory
    level := ← setting? stringOfToml? level
    retention := ← setting? countOfToml? retention
    traceSql := (← setting? boolOfToml? traceSql).getD false }

/-- Whether the entries of a table under other names than these can be passed over: their numbers
must be in range all the same. -/
def ignoresOthers (names : List String) (table : Toml.Table) : Bool :=
  table.entries.all fun (name, value) => names.contains name || value.inRange

/-- The settings of the log: a table, or an array that begins with the settings in their order. A
date or a time holds no setting. -/
def logOfToml? : Toml → Option LogConfig
  | .table _ fields =>
    if ignoresOthers ["dir", "level", "retention", "trace_sql"] fields then
      logOfParts? (fields.get? "dir") (fields.get? "level") (fields.get? "retention")
        (fields.get? "trace_sql")
    else none
  | .array elements => logOfParts? elements[0]? elements[1]? elements[2]? elements[3]?
  | .dateTime => some {}
  | _ => none

/-- The configuration of a table. Other entries are passed over. -/
def ofTable? (table : Toml.Table) : Option Config := do
  if !ignoresOthers ["dialect", "database", "log"] table then none
  return {
    dialect := (← setting? dialectOfToml? (table.get? "dialect")).getD (.json .sqlite)
    database := ← setting? stringOfToml? (table.get? "database")
    log := (← setting? logOfToml? (table.get? "log")).getD {} }

/-- The configuration of a TOML text. -/
def ofText (text : String) : Except Error Config :=
  match (Toml.read? text).bind ofTable? with
  | some config => pure config
  | none => throw .configuration

/-- Whether a text stands for yes. -/
def isTruthy (text : String) : Bool := ["1", "true", "yes", "on"].contains (Sql.asciiLower text)

/-- A configuration with the settings that an environment gives. -/
def withEnvironment (config : Config) (environment : Environment) : Except Error Config := do
  let dialect ← match environment "DOCSQL_DIALECT" with
    | some name => Sql.Dialect.parse name
    | none => pure config.dialect
  return {
    dialect
    database := environment "DOCSQL_DB" <|> config.database
    log := {
      directory := environment "DOCSQL_LOG_DIR" <|> config.log.directory
      level := environment "DOCSQL_LOG_LEVEL" <|> config.log.level
      retention := ((environment "DOCSQL_LOG_RETENTION").bind (unsignedNumber? 32 ·.toList)) <|>
        config.log.retention
      traceSql := ((environment "DOCSQL_TRACE_SQL").map isTruthy).getD config.log.traceSql } }

/-- The configuration file in the current directory. -/
def localFile : String := "docsql.toml"

/-- The file that a configuration is read from: the one asked for, the one that the environment
names, or the one in the current directory if it is there. -/
def source? (environment : Environment) (path : Option String) (hasLocal : Bool) : Option String :=
  path <|> environment "DOCSQL_CONFIG" <|> if hasLocal then some localFile else none

/-- The configuration of a file, given what reading a file yields, and of an environment. -/
def load (read : String → Except FileFault String) (environment : Environment)
    (path : Option String) : Except Error Config := do
  let hasLocal := match read localFile with
    | .error .missing => false
    | _ => true
  let config ← match source? environment path hasLocal with
    | none => pure {}
    | some name => match read name with
      | .ok text => ofText text
      | .error fault => throw (.unreadableFile name fault)
  config.withEnvironment environment

/-- Checks that the built-in engine can open the database, given whether the file at a path can be
opened, or created if that is allowed. -/
def checkOpen (config : Config) (canOpen : (create : Bool) → String → Bool) : Except Error Unit :=
  if config.dialect ≠ .json .sqlite then throw (.noEngine config.dialect)
  else match config.database with
    | none => pure ()
    | some text =>
      match DatabaseFile.ofText? text with
      | some .temporary => pure ()
      | some (.file path create) =>
        if canOpen create path then pure () else throw (.execution (.cannotOpen text))
      | none => throw (.execution (.cannotOpen text))

end Config

end DocTable
