import DocTable.Document.Basic
import DocTable.Filter.Parser

/-!
# Updates

An update either merges fields over the top level of a document, or sets, increments and removes
values at paths. No update that has been read from a document writes to the id.
-/

namespace DocTable

/-- A change to a document. -/
inductive Update where
  /-- Puts fields over the top level. -/
  | merge (fields : Document)
  /-- Sets values, then adds to numbers, then removes values, each in the order given. -/
  | operators (assignments : List (FieldPath × Json)) (increments : List (FieldPath × Number))
    (removals : List FieldPath)
deriving Repr

/-- The operators of an update document. -/
inductive UpdateOperator where
  | set
  | increment
  | unset
deriving DecidableEq, Repr

/-- The update operator of a key. -/
def UpdateOperator.ofKey? (key : String) : Option UpdateOperator :=
  if key = "$set" then some .set
  else if key = "$inc" then some .increment
  else if key = "$unset" then some .unset
  else none

namespace Update

/-- What an operator with its operand contributes to an update. -/
structure Part where
  assignments : List (FieldPath × Json) := []
  increments : List (FieldPath × Number) := []
  removals : List FieldPath := []
deriving Repr

/-- Two contributions one after the other. -/
def Part.append (first second : Part) : Part where
  assignments := first.assignments ++ second.assignments
  increments := first.increments ++ second.increments
  removals := first.removals ++ second.removals

/-- A path that an update may write to: it does not lead to or into the id. -/
def target (field : String) : Except Error FieldPath := do
  let path ← FieldPath.parse field
  if path.head = idField then throw (UpdateError.idUpdated : Error)
  return path

/-- An operand that must be an object. -/
def fieldsOperand (key : String) : Json → Except Error (List (String × Json))
  | .object fields => pure fields.entries
  | _ => throw (UpdateError.fieldsExpected key : Error)

/-- An entry under `$set`. -/
def assignment (entry : String × Json) : Except Error (FieldPath × Json) := do
  return (← target entry.1, entry.2)

/-- An entry under `$inc`. -/
def increment (entry : String × Json) : Except Error (FieldPath × Number) :=
  match entry.2 with
  | .number amount => do return (← target entry.1, amount)
  | _ => throw (UpdateError.incrementOperand entry.1 : Error)

/-- An element of a list under `$unset`. -/
def removal : Json → Except Error FieldPath
  | .string field => target field
  | _ => throw (UpdateError.unsetElement : Error)

/-- The contribution of one operator. -/
def partOfEntry (key : String) (operand : Json) : Except Error Part :=
  match UpdateOperator.ofKey? key with
  | some .set => do
    return { assignments := ← (← fieldsOperand key operand).mapM assignment }
  | some .increment => do
    return { increments := ← (← fieldsOperand key operand).mapM increment }
  | some .unset =>
    match operand with
    | .array names => do return { removals := ← names.mapM removal }
    | operand => do return { removals := ← (← fieldsOperand key operand).mapM (target ·.1) }
  | none => throw (UpdateError.unknownOperator key : Error)

/-- The contribution of all operators of an update document. -/
def partOfEntries : List (String × Json) → Except Error Part
  | [] => pure {}
  | (key, operand) :: rest => do
    let first ← partOfEntry key operand
    return first.append (← partOfEntries rest)

/-- Reads an update document. Without any operator among its keys it is a merge. -/
def ofDocument (update : Document) : Except Error Update :=
  if update.keys.all (!isOperatorKey ·) then
    if update.contains idField then throw (UpdateError.idUpdated : Error)
    else pure (.merge update)
  else if update.keys.all isOperatorKey then do
    let part ← partOfEntries update.entries
    return .operators part.assignments part.increments part.removals
  else throw (UpdateError.mixedKeys : Error)

end Update

/-- Checks that no key of a replacement begins like an operator. -/
def checkReplacement (replacement : Document) : Except Error Unit :=
  match replacement.keys.find? isOperatorKey with
  | some key => throw (UpdateError.replacementOperator key : Error)
  | none => pure ()

end DocTable
