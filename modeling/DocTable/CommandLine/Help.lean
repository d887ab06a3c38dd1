import DocTable.CommandLine.Invocation

/-!
# Help

The pages of help: what the program or a command does, how it is called, and what each argument
and option means.
-/

namespace DocTable.CommandLine

/-- A term with its meaning. -/
structure HelpItem where
  term : String
  meaning : String

/-- A page of help. -/
structure HelpPage where
  about : String
  usage : String
  commands : List HelpItem := []
  arguments : List HelpItem := []
  options : List HelpItem := []

/-- Items under a heading, their meanings in one column. -/
def helpSection (heading : String) (items : List HelpItem) : List String :=
  let width := (items.map (·.term.length)).foldl max 0
  let line (item : HelpItem) : String :=
    let padding := String.ofList (List.replicate (width + 2 - item.term.length) ' ')
    "  " ++ item.term ++ padding ++ item.meaning
  if items.isEmpty then [] else "" :: (heading ++ ":") :: items.map line

namespace HelpPage

/-- The lines of a page. -/
def lines (page : HelpPage) : List String :=
  [page.about, "", "Usage: " ++ page.usage] ++ helpSection "Commands" page.commands ++
    helpSection "Arguments" page.arguments ++ helpSection "Options" page.options

/-- The option that asks for help. -/
def helpOption : HelpItem := ⟨"-h, --help", "Print help"⟩

/-- The option of a command that stops after one document. -/
def oneOption (verb : String) : HelpItem := ⟨"    --one", verb ++ " only the first match"⟩

/-- The page of the program. -/
def program : HelpPage where
  about := "Document operations over SQL JSON columns"
  usage := "docsql [OPTIONS] <COMMAND>"
  commands := [
    ⟨"find", "Find documents matching a filter; prints NDJSON to stdout"⟩,
    ⟨"count", "Count documents matching a filter"⟩,
    ⟨"insert",
      "Insert one JSON document, or NDJSON from stdin when the document is '-'"⟩,
    ⟨"update", "Update matching documents (merge or $set/$inc/$unset)"⟩,
    ⟨"replace", "Replace matching documents, keeping their _id"⟩,
    ⟨"delete", "Delete matching documents"⟩,
    ⟨"drop", "Drop a collection's table"⟩,
    ⟨"help", "Print this message or the help of the given subcommand(s)"⟩]
  options := [
    ⟨"    --config <CONFIG>",
      "Path to a config file (TOML). Falls back to DOCSQL_CONFIG, then ./docsql.toml."⟩,
    ⟨"    --db <DB>",
      "Database file path (e.g., app.db). In-memory when omitted everywhere."⟩,
    ⟨"    --dialect <DIALECT>",
      "SQL dialect: sqlite|mysql|postgres|text. Only sqlite is executable here."⟩,
    helpOption,
    ⟨"-V, --version", "Print version"⟩]

/-- The meaning of a command, as on the page of the program. -/
def aboutCommand (name : String) : String :=
  ((program.commands.find? (·.term == name)).map (·.meaning)).getD ""

/-- The page of a command. -/
def ofCommand (name : String) : HelpPage :=
  let collection : HelpItem := ⟨"<COLLECTION>", ""⟩
  let filter : HelpItem := ⟨"<FILTER>", ""⟩
  let about := aboutCommand name
  match name with
  | "find" => {
      about
      usage := "docsql find [OPTIONS] <COLLECTION> [FILTER]"
      arguments := [⟨"<COLLECTION>", "Collection name"⟩,
        ⟨"[FILTER]",
          "Filter JSON (e.g., \x7b\"age\": \x7b\"$gte\": 21\x7d\x7d) [default: \x7b\x7d]"⟩]
      options := [
        ⟨"    --project <PROJECT>", "Projection fields comma-separated (e.g., name,addr.city)"⟩,
        ⟨"    --no-id", "Exclude _id from projected output"⟩,
        ⟨"    --sort <SORT>", "Sort spec comma-separated; -age,+name"⟩,
        ⟨"    --limit <LIMIT>", "Limit results (0 = unbounded)"⟩,
        ⟨"    --skip <SKIP>", "Skip N results"⟩,
        helpOption] }
  | "count" => {
      about
      usage := "docsql count <COLLECTION> [FILTER]"
      arguments := [collection, ⟨"[FILTER]", "[default: \x7b\x7d]"⟩]
      options := [helpOption] }
  | "insert" => {
      about
      usage := "docsql insert <COLLECTION> <DOCUMENT>"
      arguments := [collection, ⟨"<DOCUMENT>", "Document JSON or '-' for NDJSON on stdin"⟩]
      options := [helpOption] }
  | "update" => {
      about
      usage := "docsql update [OPTIONS] <COLLECTION> <FILTER> <UPDATE>"
      arguments := [collection, filter, ⟨"<UPDATE>", ""⟩]
      options := [oneOption "Update", helpOption] }
  | "replace" => {
      about
      usage := "docsql replace [OPTIONS] <COLLECTION> <FILTER> <REPLACEMENT>"
      arguments := [collection, filter, ⟨"<REPLACEMENT>", ""⟩]
      options := [oneOption "Replace", helpOption] }
  | "delete" => {
      about
      usage := "docsql delete [OPTIONS] <COLLECTION> <FILTER>"
      arguments := [collection, filter]
      options := [oneOption "Delete", helpOption] }
  | "drop" => {
      about
      usage := "docsql drop <COLLECTION>"
      arguments := [collection]
      options := [helpOption] }
  | _ => {
      about
      usage := "docsql help [COMMAND]..."
      arguments := [⟨"[COMMAND]...", "Print help for the subcommand(s)"⟩] }

end HelpPage

/-- The lines of the help that is asked for. -/
def helpLines (command : Option String) : List String :=
  ((command.map HelpPage.ofCommand).getD HelpPage.program).lines

/-- The line that names the version. -/
def versionLine : String := "docsql 0.1.0"

end DocTable.CommandLine
