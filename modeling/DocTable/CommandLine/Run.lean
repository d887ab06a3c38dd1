import DocTable.Collection
import DocTable.CommandLine.Help
import DocTable.Config
import DocTable.Engine.Memory

/-!
# Running an invocation

An invocation runs in surroundings: the files there are, the environment and the input. It answers
with the lines it prints and, if it fails, with the error.
-/

namespace DocTable.CommandLine

/-- What an invocation finds around it. -/
structure Surroundings where
  /-- What reading the file at a path yields. -/
  read : String → Except FileFault String
  /-- Whether there is a file at a path, or one may and can be created there. -/
  canOpen : (create : Bool) → String → Bool
  environment : Environment
  /-- The input, which is read only when it is asked for. -/
  input : String

/-- Lines to print and the error behind them, if there is one. -/
structure Printout where
  lines : List String
  error : Option Error

/-- The configuration of an invocation: its own settings come before those of the environment, and
those before the ones of a file. -/
def Invocation.configuration (invocation : Invocation) (surroundings : Surroundings) :
    Except Error Config := do
  let config ← Config.load surroundings.read surroundings.environment invocation.config
  let dialect ← match invocation.dialect with
    | some name => Sql.Dialect.parse name
    | none => pure config.dialect
  return { config with dialect, database := invocation.database <|> config.database }

/-- An argument that must be an object. -/
def parseObject (what text : String) : Except Error Document :=
  match Json.read? text with
  | some (.object fields) => pure fields
  | some other => throw (.compilation (.argumentNotObject what other))
  | none => throw .malformedJson

/-- The lines of a text without their ends. -/
def linesOf (text : String) : List (List Char) :=
  (splitAt '\n' text.toList).map fun line =>
    if line.getLast? = some '\r' then line.dropLast else line

/-- The documents of an input, one in each line that is not blank. -/
def documentsOf (input : String) : Except Error (List Document) :=
  ((linesOf input).filter (!·.all isBlank)).mapM fun line =>
    parseObject "document" (String.ofList line)

/-- The documents up to the first error. -/
def printItems : List (Except Error Document) → Printout
  | [] => ⟨[], none⟩
  | .error error :: _ => ⟨[], some error⟩
  | .ok document :: rest =>
    let printout := printItems rest
    ⟨document.text :: printout.lines, printout.error⟩

/-- A line with an object of counts. -/
def printCounts (counts : List (String × Nat)) : Printout :=
  let entries := counts.map fun (name, count) => (name, FindOptions.countToJson count)
  ⟨[(Json.object ⟨entries⟩).text], none⟩

/-- Carries out a command on a collection. -/
def Command.perform (collection : Collection) (input : String) : Command → Session Printout
  | .find filter options => do
    let cursor ← collection.find (← Filter.parse filter) options
    return printItems cursor.drain
  | .count filter => do
    let count ← collection.count (← Filter.parse filter)
    return ⟨[String.ofList (decimal count)], none⟩
  | .insert document => do
    let documents ← if document = "-" then documentsOf input
      else (fun document => [document]) <$> parseObject "document" document
    let ids ← collection.insertMany documents
    return ⟨ids.map fun id => (Json.object ⟨[(idField, .string id)]⟩).text, none⟩
  | .update filter changes one => do
    let filter ← Filter.parse filter
    let changes ← parseObject "update" changes
    let report ← collection.update filter changes (if one then some 1 else none)
    return printCounts [("matched", report.matched), ("modified", report.modified)]
  | .replace filter replacement one => do
    let filter ← Filter.parse filter
    let replacement ← parseObject "replacement" replacement
    let report ← collection.replace filter replacement (if one then some 1 else none)
    return printCounts [("matched", report.matched), ("modified", report.modified)]
  | .delete filter one => do
    let filter ← Filter.parse filter
    let deleted ← if one then collection.deleteOne filter else collection.deleteMany filter
    return printCounts [("deleted", deleted)]
  | .drop => do
    collection.drop
    return ⟨[], none⟩

/-- Whether a text at the place of a database is none: it is not empty and begins otherwise. -/
def isForeign (content : String) : Bool :=
  !content.isEmpty && !"SQLite format 3\x00".toList.isPrefixOf content.toList

/-- Checks that the database of a configuration can be used. -/
def checkDatabase (surroundings : Surroundings) (config : Config) : Except Error Unit := do
  config.checkOpen surroundings.canOpen
  let content := match config.database.bind DatabaseFile.ofText? with
    | some (.file path _) => (surroundings.read path).toOption
    | _ => none
  if content.any isForeign then throw (.execution .notDatabase)

/-- Runs an invocation on an empty database. -/
def Invocation.run {ι : Type} (invocation : Invocation) (surroundings : Surroundings)
    (ids : IdSource ι) (source : ι) : Printout :=
  let opened : Except Error Config := do
    let config ← invocation.configuration surroundings
    checkDatabase surroundings config
    return config
  match opened with
  | .error error => ⟨[], some error⟩
  | .ok config =>
    let session : Session Printout := do
      let collection ← Collection.create config.dialect invocation.collection
      invocation.command.perform collection surroundings.input
    match (session.run Engine.memory ids {} source).1 with
    | .ok printout => printout
    | .error error => ⟨[], some error⟩

/-- What a run of the program leaves: its exit code and what it prints. -/
structure Outcome where
  exit : Nat
  output : String
  diagnostics : String
deriving DecidableEq, Repr

/-- The outcome of printing lines and perhaps an error. -/
def Printout.outcome (printout : Printout) : Outcome where
  exit := if printout.error.isSome then 1 else 0
  output := String.join (printout.lines.map (· ++ "\n"))
  diagnostics := match printout.error with
    | some error => s!"error: {error.message}\n"
    | none => ""

/-- The outcome of arguments that make no sense. -/
def Outcome.misuse : Outcome :=
  ⟨2, "", "error: the arguments make no sense\n\nFor more information, try '--help'.\n"⟩

/-- The outcome of what a list of arguments asks for. -/
def Request.outcome {ι : Type} (request : Request) (surroundings : Surroundings)
    (ids : IdSource ι) (source : ι) : Outcome :=
  match request with
  | .run invocation => (invocation.run surroundings ids source).outcome
  | .help command => Printout.outcome ⟨helpLines command, none⟩
  | .version => Printout.outcome ⟨[versionLine], none⟩
  | .misuse => .misuse

end DocTable.CommandLine
