import DocTable.CommandLine.Options
import DocTable.CommandLine.SortText
import DocTable.Text.Decimal

/-!
# Invocations

What a list of arguments asks the program to do: settings for the program, then the name of a
command, then the arguments of the command.
-/

namespace DocTable.CommandLine

/-- What is to be done with a collection. Documents and filters are still texts. -/
inductive Command where
  | find (filter : String) (options : FindOptions)
  | count (filter : String)
  /-- A dash alone stands for the documents of the input, one in each line. -/
  | insert (document : String)
  | update (filter update : String) (one : Bool)
  | replace (filter replacement : String) (one : Bool)
  | delete (filter : String) (one : Bool)
  | drop
deriving DecidableEq, Repr

/-- A run of the program. -/
structure Invocation where
  /-- The configuration file. -/
  config : Option String
  /-- The database file. -/
  database : Option String
  /-- The name of the dialect. -/
  dialect : Option String
  collection : String
  command : Command
deriving DecidableEq, Repr

/-- What a list of arguments asks for. -/
inductive Request where
  | run (invocation : Invocation)
  /-- Help on the program, or on one of its commands. -/
  | help (command : Option String)
  | version
  | misuse
deriving DecidableEq, Repr

/-- An option that takes any text. -/
def textOption (name : String) : OptionRule := ⟨name, some fun _ => true⟩

/-- An option that takes a path, which must not be empty. -/
def pathOption (name : String) : OptionRule := ⟨name, some (!·.isEmpty)⟩

/-- The number that an argument stands for. -/
def countOfText? (text : String) : Option Nat := unsignedNumber? 64 text.toList

/-- An option that takes a number. -/
def countOption (name : String) : OptionRule := ⟨name, some fun text => (countOfText? text).isSome⟩

/-- An option without a value. -/
def flag (name : String) : OptionRule := ⟨name, none⟩

/-- The rules of the program itself. -/
def programRules : Rules where
  options := [pathOption "config", pathOption "db", textOption "dialect"]
  isProgram := true

/-- The rules of a command. -/
def commandRules? (name : String) : Option Rules :=
  match name with
  | "find" => some {
      options := [textOption "project", flag "no-id", textOption "sort", countOption "limit",
        countOption "skip"]
      required := 1, allowed := 2 }
  | "count" => some { options := [], required := 1, allowed := 2 }
  | "insert" => some { options := [], required := 2, allowed := 2 }
  | "update" | "replace" => some { options := [flag "one"], required := 3, allowed := 3 }
  | "delete" => some { options := [flag "one"], required := 2, allowed := 2 }
  | "drop" => some { options := [], required := 1, allowed := 1 }
  | _ => none

/-- The options of a search from what has been given. -/
def findOptions (given : Given) : FindOptions where
  sort := match (given.value? "sort").map sortKeysOfText with
    | none | some [] => none
    | some keys => some keys
  limit := (given.value? "limit").bind countOfText?
  skip := (given.value? "skip").bind countOfText?
  projection := (given.value? "project").map fun text => ⟨namesOfText text, !given.has "no-id"⟩

/-- The collection and the command of what has been given to a command. -/
def command? (name : String) (given : Given) : Option (String × Command) :=
  let one := given.has "one"
  match name, given.positionals with
  | "find", [collection] => some (collection, .find "{}" (findOptions given))
  | "find", [collection, filter] => some (collection, .find filter (findOptions given))
  | "count", [collection] => some (collection, .count "{}")
  | "count", [collection, filter] => some (collection, .count filter)
  | "insert", [collection, document] => some (collection, .insert document)
  | "update", [collection, filter, update] => some (collection, .update filter update one)
  | "replace", [collection, filter, replacement] =>
    some (collection, .replace filter replacement one)
  | "delete", [collection, filter] => some (collection, .delete filter one)
  | "drop", [collection] => some (collection, .drop)
  | _, _ => none

/-- What the arguments behind the name of a command ask for. -/
def readCommand (settings : Given) (name : String) (arguments : List String) : Request :=
  match commandRules? name with
  | none => .misuse
  | some rules =>
    match rules.read {} arguments with
    | .help => .help (some name)
    | .version | .misuse => .misuse
    | .done (given, _) =>
      match command? name given with
      | none => .misuse
      | some (collection, command) => .run {
          config := settings.value? "config"
          database := settings.value? "db"
          dialect := settings.value? "dialect"
          collection, command }

/-- What the arguments of the command that asks for help ask for. -/
def readHelp : List String → Request
  | [] => .help none
  | [name] => if name = "help" ∨ (commandRules? name).isSome then .help (some name) else .misuse
  | _ => .misuse

/-- What a list of arguments asks for. -/
def Request.ofArguments (arguments : List String) : Request :=
  match programRules.read {} arguments with
  | .help => .help none
  | .version => .version
  | .misuse | .done (_, []) => .misuse
  | .done (settings, name :: rest) =>
    if name = "help" then readHelp rest else readCommand settings name rest

end DocTable.CommandLine
