/-!
# Options and positional arguments

The grammar of argument lists. A long option takes its value from behind an equals sign or from the
next argument, which then must not look like an option; a flag takes no value. Nothing may be given
twice. Two dashes alone end the options, and one dash alone is a positional argument.
-/

namespace DocTable.CommandLine

/-- An option that can be given. -/
structure OptionRule where
  /-- The name without the dashes. -/
  name : String
  /-- Which values it takes; a flag takes none. -/
  accepts : Option (String → Bool)

/-- What can be given. -/
structure Rules where
  options : List OptionRule
  /-- The least number of positional arguments. -/
  required : Nat := 0
  /-- The greatest number of positional arguments. -/
  allowed : Nat := 0
  /-- Whether the first positional argument is the name of a command with rules of its own, and
  whether the version can be asked for. -/
  isProgram : Bool := false

/-- What has been given. -/
structure Given where
  /-- The values of options, and empty texts for flags. -/
  values : List (String × String) := []
  /-- The positional arguments in order. -/
  positionals : List String := []
deriving DecidableEq, Repr

namespace Given

/-- The value of an option. -/
def value? (given : Given) (name : String) : Option String := given.values.lookup name

/-- Whether a flag or an option has been given. -/
def has (given : Given) (name : String) : Bool := (given.value? name).isSome

end Given

/-- How the reading of an argument list ends. -/
inductive Reading (α : Type) where
  /-- The arguments make sense. -/
  | done (value : α)
  /-- Help is asked for. -/
  | help
  /-- The version is asked for. -/
  | version
  /-- The arguments make no sense. -/
  | misuse
deriving DecidableEq, Repr

/-- The forms of an argument. -/
inductive Argument where
  /-- Two dashes alone. -/
  | ending
  /-- An option with the value behind its equals sign, if there is one. -/
  | long (name : String) (value : Option String)
  /-- One dash and the letter behind it. -/
  | short (letter : Char)
  /-- Anything else, one dash alone included. -/
  | positional
deriving DecidableEq, Repr

namespace Argument

/-- An option from the characters behind its dashes. -/
def ofOption (text : List Char) : Argument :=
  let name := String.ofList (text.takeWhile (· != '='))
  match text.dropWhile (· != '=') with
  | [] => .long name none
  | _ :: value => .long name (some (String.ofList value))

/-- The form of an argument. -/
def ofText (text : String) : Argument :=
  match text.toList with
  | ['-', '-'] => .ending
  | '-' :: '-' :: option => ofOption option
  | '-' :: letter :: _ => .short letter
  | _ => .positional

end Argument

namespace Rules

/-- What has been given with one more option, unless it has been given before or does not accept
the value. -/
def give? (given : Given) (rule : OptionRule) (value : String) : Option Given :=
  if given.has rule.name then none
  else if (rule.accepts.map (· value)).getD true then
    some { given with values := given.values ++ [(rule.name, value)] }
  else none

/-- What has been given with one more option, and whether the next argument is its value. -/
def takeOption? (rules : Rules) (given : Given) (name : String) (value next : Option String) :
    Option (Given × Bool) := do
  let rule ← rules.options.find? (·.name == name)
  if rule.accepts.isNone then
    if value.isSome then none else return (← give? given rule "", false)
  else match value with
    | some value => return (← give? given rule value, false)
    | none => do
      let next ← next
      if Argument.ofText next = .positional then return (← give? given rule next, true) else none

/-- What has been given with one more positional argument, unless there are too many. -/
def place? (rules : Rules) (given : Given) (argument : String) : Option Given :=
  if given.positionals.length < rules.allowed then
    some { given with positionals := given.positionals ++ [argument] }
  else none

/-- The end of an argument list, unless a positional argument is missing. -/
def finish (rules : Rules) (given : Given) : Reading (Given × List String) :=
  if rules.required ≤ given.positionals.length then .done (given, []) else .misuse

/-- Reads arguments. The rest begins with the name of a command; a command itself leaves none. -/
def read (rules : Rules) (given : Given) : List String → Reading (Given × List String)
  | [] => if rules.isProgram then .misuse else rules.finish given
  | argument :: rest =>
    match Argument.ofText argument with
    | .positional =>
      if rules.isProgram then .done (given, argument :: rest)
      else match rules.place? given argument with
        | some given => read rules given rest
        | none => .misuse
    | .ending =>
      if rules.isProgram then .misuse
      else match rest.foldlM rules.place? given with
        | some given => rules.finish given
        | none => .misuse
    | .short letter =>
      if letter = 'h' then .help
      else if letter = 'V' && rules.isProgram then .version
      else .misuse
    | .long name value =>
      if name = "help" ∧ value = none then .help
      else if rules.isProgram && name == "version" && value == none then .version
      else match rules.takeOption? given name value rest.head? with
        | some (given, used) => read rules given (if used then rest.tail else rest)
        | none => .misuse
termination_by arguments => arguments.length
decreasing_by
  · simp
  · split
    · exact Nat.lt_succ_of_le (by simp)
    · simp

end Rules

/-- A value that looks like an option is taken only behind an equals sign. -/
example :
    let rules : Rules := { options := [⟨"sort", some fun _ => true⟩], required := 1, allowed := 1 }
    rules.read {} ["c", "--sort=-a"] =
        .done ({ values := [("sort", "-a")], positionals := ["c"] }, [])
      ∧ rules.read {} ["c", "--sort", "-a"] = .misuse
      ∧ rules.read {} ["--", "-c"] = .done ({ positionals := ["-c"] }, []) := by
  decide +kernel

end DocTable.CommandLine
