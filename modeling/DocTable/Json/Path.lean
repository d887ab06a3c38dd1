import DocTable.Json.Basic

/-!
# Values at a path

Looking up, writing and removing the value at a list of names inside a value. Writing creates the
objects on the way and replaces whatever else stands there; removing touches nothing unless every
name on the way leads into an object.
-/

namespace DocTable.Json

/-- The value at a path, or `none` if a name is missing or stands in no object. -/
def lookup? : List String → Json → Option Json
  | [], value => some value
  | key :: rest, .object fields => (fields.get? key).bind (lookup? rest)
  | _ :: _, _ => none

/-- The value with another one put at a path. -/
def write (new : Json) : List String → Json → Json
  | [], _ => new
  | key :: rest, value =>
    let fields := value.fieldsOrEmpty
    .object (fields.insert key (write new rest ((fields.get? key).getD (.object ∅))))

/-- The value without what is at a path. The empty path removes nothing. -/
def erase : List String → Json → Json
  | [], value => value
  | [key], .object fields => .object (fields.erase key)
  | key :: next :: rest, .object fields =>
    match fields.get? key with
    | some inner => .object (fields.insert key (erase (next :: rest) inner))
    | none => .object fields
  | _ :: _, value => value

@[simp] theorem lookup?_nil (value : Json) : lookup? [] value = some value := rfl

@[simp] theorem lookup?_cons_object (key : String) (rest : List String) (fields : Fields Json) :
    lookup? (key :: rest) (.object fields) = (fields.get? key).bind (lookup? rest) := rfl

end DocTable.Json
