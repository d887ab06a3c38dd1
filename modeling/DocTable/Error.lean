import DocTable.Json.Printer
import DocTable.Sql.Dialect
import DocTable.Sql.Value

/-!
# Errors

Every failure is one constructor of `Error`, named for its cause, and carries what its message
shows. The texts stand in the `message` functions alone.
-/

namespace DocTable

/-- Why a text is no field path. -/
inductive PathError where
  /-- The text is empty. -/
  | empty
  /-- The text begins like an operator. -/
  | operator (path : String)
  /-- There are more segments than a path may have. -/
  | tooDeep (path : String) (limit : Nat)
  /-- Two separators meet, or one stands at an end. -/
  | emptySegment (path : String)
  /-- A character cannot be written in a quoted path of every dialect. -/
  | unquotable (path : String)
deriving DecidableEq, Repr

/-- Why a filter is malformed. -/
inductive FilterError where
  /-- The text of the filter is not JSON. -/
  | malformedText
  /-- The filter is not an object. -/
  | notObject (value : Json)
  /-- The operand of a top-level `$not` is not a document. -/
  | negationOfNonDocument
  /-- A top-level key begins like an operator and is none. -/
  | unknownLogical (operator : String)
  /-- The operand of `$and` or `$or` is not an array. -/
  | listExpected (operator : String)
  /-- The operand of `$and` or `$or` is empty. -/
  | listEmpty (operator : String)
  /-- An element under `$and` or `$or` is not a document. -/
  | listElement (operator : String) (element : Json)
  /-- A field is matched against an object without operators. -/
  | subdocument (path : String)
  /-- A field is matched against an object with and without operators. -/
  | mixedKeys (path : String)
  /-- A field is matched against an array. -/
  | arrayLiteral (path : String)
  /-- An order comparison against null. -/
  | orderAgainstNull (operator path : String)
  /-- The operand of `$exists` is no truth value. -/
  | existsOperand (path : String) (operand : Json)
  /-- The operand of a field's `$not` is not a document. -/
  | fieldNegation (path : String)
  /-- A key under a field begins like an operator and is none. -/
  | unknownOperator (operator path : String)
  /-- An operand is an array or an object. -/
  | scalarExpected (operator path : String)
  /-- The operand of `$in` or `$nin` is not an array. -/
  | arrayExpected (operator path : String)
deriving Repr

/-- Why an update or a replacement is refused. -/
inductive UpdateError where
  /-- The update writes to the id. -/
  | idUpdated
  /-- The replacement holds an id. -/
  | idReplaced
  /-- Some keys are operators and some are not. -/
  | mixedKeys
  /-- An increment is not a number. -/
  | incrementOperand (field : String)
  /-- An element of a list of fields to remove is not a name. -/
  | unsetElement
  /-- A key begins like an operator and is none. -/
  | unknownOperator (operator : String)
  /-- The operand of an operator is not a document. -/
  | fieldsExpected (operator : String)
  /-- A key of a replacement begins like an operator. -/
  | replacementOperator (key : String)
deriving DecidableEq, Repr

/-- What a dialect may be unable to express. -/
inductive Capability where
  | existence
  | nullMatch
  | typeCheck
deriving DecidableEq, Repr

/-- Why a request cannot be turned into statements. -/
inductive CompilationError where
  | path (cause : PathError)
  | filter (cause : FilterError)
  | update (cause : UpdateError)
  /-- The id of a document to be stored is not a string. -/
  | idNotString (id : Json)
  /-- The dialect cannot look inside documents. -/
  | noPaths (dialect : Sql.Dialect)
  /-- The dialect lacks a test. -/
  | unsupported (dialect : Sql.Dialect) (capability : Capability)
  /-- An order comparison against null. -/
  | nullComparison (path : String)
  /-- A limit or a skip is too large to be bound. -/
  | countOutOfRange (count : Nat)
  /-- An argument of the command line is not an object. -/
  | argumentNotObject (what : String) (value : Json)
deriving Repr

/-- Why a stored row holds no document. -/
inductive DecodeError where
  /-- The text is not JSON. -/
  | malformed
  /-- The text is the JSON of another type. -/
  | notObject (typeName : String)
  /-- The bytes are not the encoding of a text. -/
  | notText (byteCount : Nat)
  /-- The column holds another kind of value. -/
  | notColumnText (value : Sql.Value)
deriving DecidableEq, Repr

/-- Why an engine rejects a statement or cannot be opened. -/
inductive ExecutionError where
  /-- The engine answers with an error of its own. -/
  | reported (message : String)
  /-- The database file cannot be opened. -/
  | cannotOpen (path : String)
  /-- The database file holds something else. -/
  | notDatabase
  /-- The table's name is reserved for the engine. -/
  | reservedName (table : String)
  /-- The statement cannot be read. -/
  | unreadable
  /-- There is no such table. -/
  | noTable (table : String)
  /-- The document column may not be null. -/
  | nullDocument
deriving DecidableEq, Repr

/-- Why a file cannot be read. -/
inductive FileFault where
  /-- There is nothing at the path. -/
  | missing
  /-- There is a directory at the path. -/
  | isDirectory
  /-- A name on the way is that of a file. -/
  | notDirectory
  /-- The bytes are not the encoding of a text. -/
  | notText
  /-- The system gives another reason. -/
  | reported (reason : String)
deriving DecidableEq, Repr

/-- Every way in which an operation can fail. -/
inductive Error where
  /-- The request is malformed. No statement has been run. -/
  | compilation (cause : CompilationError)
  /-- A stored row does not hold a document. -/
  | decode (cause : DecodeError)
  /-- The engine rejected a statement. -/
  | execution (cause : ExecutionError)
  /-- A text that should be JSON is not. -/
  | malformedJson
  /-- The configuration is malformed. -/
  | configuration
  /-- A configuration file cannot be read. -/
  | unreadableFile (path : String) (fault : FileFault)
  /-- A document with this id is stored already. -/
  | duplicateId (collection id : String)
  /-- There is no dialect of this name. -/
  | unknownDialect (name : String)
  /-- There is no built-in engine for this dialect. -/
  | noEngine (dialect : Sql.Dialect)
deriving Repr

/-- The message of a path error. -/
def PathError.message : PathError → String
  | .empty => "field path must not be empty"
  | .operator path => s!"unknown operator or invalid field path: {path}"
  | .tooDeep path limit => s!"field path '{path}' exceeds {limit} segments"
  | .emptySegment path => s!"field path '{path}' has an empty segment"
  | .unquotable path => s!"field path '{path}' contains a character that cannot be quoted"

/-- The message of a filter error. -/
def FilterError.message : FilterError → String
  | .malformedText => "malformed filter JSON"
  | .notObject value => s!"filter must be a JSON object, got {value}"
  | .negationOfNonDocument => "$not requires a filter document"
  | .unknownLogical operator => s!"unknown top-level operator: {operator}"
  | .listExpected operator => s!"{operator} requires an array of filter documents"
  | .listEmpty operator => s!"{operator} requires at least one filter document"
  | .listElement operator element => s!"{operator} element is not a filter document: {element}"
  | .subdocument path =>
    s!"matching '{path}' against a sub-document is not supported; use operators"
  | .mixedKeys path => s!"'{path}' mixes operators and field names"
  | .arrayLiteral path => s!"matching '{path}' against an array literal is not supported"
  | .orderAgainstNull operator path => s!"{operator} on '{path}' cannot compare against null"
  | .existsOperand path operand => s!"$exists on '{path}' requires a boolean, got {operand}"
  | .fieldNegation path => s!"$not on '{path}' requires an operator document"
  | .unknownOperator operator path => s!"unknown operator {operator} on '{path}'"
  | .scalarExpected operator path => s!"{operator} on '{path}' requires a scalar operand"
  | .arrayExpected operator path => s!"{operator} on '{path}' requires an array"

/-- The message of an update error. -/
def UpdateError.message : UpdateError → String
  | .idUpdated => "_id is immutable and cannot be updated"
  | .idReplaced => "_id is immutable and cannot be replaced"
  | .mixedKeys => "update document mixes operators and field names"
  | .incrementOperand field => s!"$inc on '{field}' requires a number"
  | .unsetElement => "$unset array must hold field names"
  | .unknownOperator operator => s!"unknown update operator {operator}"
  | .fieldsExpected operator => s!"{operator} requires a document of fields"
  | .replacementOperator key => s!"replacement document cannot contain operator {key}"

/-- The words for a capability. -/
def Capability.words : Capability → String
  | .existence => "$exists"
  | .nullMatch => "null match"
  | .typeCheck => "type check"

/-- The message of a compilation error. -/
def CompilationError.message : CompilationError → String
  | .path cause => cause.message
  | .filter cause => cause.message
  | .update cause => cause.message
  | .idNotString id => s!"_id must be a string, got {id}"
  | .noPaths dialect => s!"dialect '{dialect}' cannot extract JSON paths"
  | .unsupported dialect capability => s!"dialect '{dialect}' does not support {capability.words}"
  | .nullComparison field => s!"cannot compare '{field}' against null"
  | .countOutOfRange count => s!"limit/skip {count} out of range"
  | .argumentNotObject what value => s!"{what} must be a JSON object, got {value}"

/-- The message of a decode error. -/
def DecodeError.message : DecodeError → String
  | .malformed => "stored document is not JSON"
  | .notObject typeName => s!"stored document is not a JSON object: {typeName}"
  | .notText byteCount => s!"document column is not valid UTF-8 ({byteCount} bytes)"
  | .notColumnText value => s!"document column holds a non-text value: {value.diagnostic}"

/-- The message of an execution error. -/
def ExecutionError.message : ExecutionError → String
  | .reported message => message
  | .cannotOpen path => s!"unable to open database file: {path}"
  | .notDatabase => "file is not a database"
  | .reservedName table => s!"object name reserved for internal use: {table}"
  | .unreadable => "unrecognized token"
  | .noTable table => s!"no such table: {table}"
  | .nullDocument => "NOT NULL constraint failed"

/-- The message of a file that cannot be read, in the words of the system. -/
def FileFault.message : FileFault → String
  | .missing => "No such file or directory (os error 2)"
  | .isDirectory => "Is a directory (os error 21)"
  | .notDirectory => "Not a directory (os error 20)"
  | .notText => "stream did not contain valid UTF-8"
  | .reported reason => reason

/-- The message of an error: its kind and then its cause. -/
def Error.message : Error → String
  | .compilation cause => s!"Compilation error: {cause.message}"
  | .decode cause => s!"Decode error: {cause.message}"
  | .execution cause => s!"Execution error: {cause.message}"
  | .malformedJson => "Serde JSON"
  | .configuration => "Config error"
  | .unreadableFile path fault => s!"I/O error: cannot read config {path}: {fault.message}"
  | .duplicateId collection id => s!"Duplicate id: {collection}: {id}"
  | .unknownDialect name => s!"Unsupported dialect: {name}"
  | .noEngine dialect =>
    s!"Unsupported dialect: {dialect} requires a caller-supplied connection " ++
      "(Database::with_connection)"

instance : Coe PathError Error := ⟨fun cause => .compilation (.path cause)⟩

instance : Coe FilterError Error := ⟨fun cause => .compilation (.filter cause)⟩

instance : Coe UpdateError Error := ⟨fun cause => .compilation (.update cause)⟩

instance : ToString Error := ⟨Error.message⟩

end DocTable
