import DocTable.CommandLine.Run
import DocTable.Identifier

/-!
# The program

Reads the arguments and the surroundings, runs what is asked for, and prints the outcome. The
tables live in memory for the time of one run.
-/

open DocTable DocTable.CommandLine

/-- Why the system could not read a file. -/
def faultOf : IO.Error → FileFault
  | .noFileOrDirectory .. => .missing
  | .inappropriateType .. => .isDirectory
  | error => .reported (toString error)

/-- What reading a file yields. -/
def readFile (path : String) : IO (Except FileFault String) := do
  try
    let bytes ← IO.FS.readBinFile path
    return match String.fromUTF8? bytes with
      | some text => .ok text
      | none => .error .notText
  catch error => return .error (faultOf error)

/-- Whether there is a file at a path, or one may and can be created there. -/
def tryOpen (create : Bool) (path : String) : IO Bool := do
  try
    let _ ← IO.FS.Handle.mk path (if create then .append else .read)
    return true
  catch _ => return false

/-- The variables that the configuration looks at. -/
def variableNames : List String :=
  ["DOCSQL_CONFIG", "DOCSQL_DIALECT", "DOCSQL_DB", "DOCSQL_LOG_DIR", "DOCSQL_LOG_LEVEL",
   "DOCSQL_LOG_RETENTION", "DOCSQL_TRACE_SQL"]

/-- The environment, as far as the configuration looks at it. -/
def readEnvironment : IO Environment := do
  let found ← variableNames.filterMapM fun name => do
    return (← IO.getEnv name).map fun value => (name, value)
  return fun name => found.lookup name

/-- The seconds since the epoch, from the time of the system's start and the time since then; zero
if the system does not tell. -/
def readSeconds : IO Int := do
  let start := ((← readFile "/proc/stat").toOption.getD "").splitOn "\n" |>.findSome? fun line =>
    match line.splitOn " " with
    | ["btime", seconds] => seconds.toNat?
    | _ => none
  let since := (((← readFile "/proc/uptime").toOption.getD "").splitOn ".").head?.bind String.toNat?
  return start.getD 0 + since.getD 0

/-- A source of object ids. The host number is taken from the hash of strings that the language
has, not from a cryptographic hash of the host's name; the process number is random, since the
number of the process cannot be asked for; the counter starts at random. -/
def readObjectIds : IO ObjectIds := do
  let host := (← IO.getEnv "HOSTNAME").getD "localhost"
  let process ← IO.rand 0 0xFFFF
  let counter ← IO.rand 0 0xFFFFFF
  return ⟨host.hash.toNat % 0x1000000, process.toUInt16, counter.toUInt32⟩

/-- The surroundings of an invocation: only the files that it looks at are read. -/
def readSurroundings (invocation : Invocation) : IO Surroundings := do
  let environment ← readEnvironment
  let localText ← readFile Config.localFile
  let source := invocation.config <|> environment "DOCSQL_CONFIG"
  let sourceText ← readFile (source.getD Config.localFile)
  let input ← match invocation.command with
    | .insert "-" => (← IO.getStdin).readToEnd
    | _ => pure ""
  let read (path : String) : Except FileFault String :=
    if some path = source then sourceText
    else if path = Config.localFile then localText
    else .error .missing
  let surroundings : Surroundings := ⟨read, fun _ _ => true, environment, input⟩
  let file := match invocation.configuration surroundings with
    | .ok config => config.database.bind DatabaseFile.ofText?
    | .error _ => none
  let opened ← match file with
    | some (.file path create) => tryOpen create path
    | _ => pure true
  return { surroundings with canOpen := fun _ _ => opened }

/-- Runs the program. -/
def main (arguments : List String) : IO UInt32 := do
  let request := Request.ofArguments arguments
  let surroundings ← match request with
    | .run invocation => readSurroundings invocation
    | _ => pure ⟨fun _ => .error .missing, fun _ _ => true, fun _ => none, ""⟩
  let source : IdSource ObjectIds := ObjectIds.freshAt (← readSeconds)
  let outcome := request.outcome surroundings source (← readObjectIds)
  IO.print outcome.output
  IO.eprint outcome.diagnostics
  return outcome.exit.toUInt32
