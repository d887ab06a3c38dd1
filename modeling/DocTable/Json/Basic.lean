import DocTable.Json.Fields
import DocTable.Json.Number

/-!
# JSON values

The data of documents, filters and updates. Two values are the same as documents when they agree
up to the order of object keys; the elements of arrays must agree in order.
-/

namespace DocTable

/-- A JSON value. The fields of an object are in order of first arrival. -/
inductive Json where
  | null
  | bool (value : Bool)
  | number (value : Number)
  | string (value : String)
  | array (elements : List Json)
  | object (fields : Fields Json)
deriving Repr

/-- A document: the fields of a JSON object. -/
abbrev Document : Type := Fields Json

namespace Json

instance : Inhabited Json := ⟨.null⟩

mutual

/-- Whether two values are the same as documents, key order aside. -/
def same : Json → Json → Bool
  | .null, .null => true
  | .bool left, .bool right => left == right
  | .number left, .number right => left.same right
  | .string left, .string right => left == right
  | .array left, .array right => sameElements left right
  | .object ⟨left⟩, .object right => left.length == right.size && sameEntries left right
  | _, _ => false

/-- Whether two lists of elements are the same, position by position. -/
def sameElements : List Json → List Json → Bool
  | [], [] => true
  | left :: leftRest, right :: rightRest => same left right && sameElements leftRest rightRest
  | _, _ => false

/-- Whether each entry has the same value under its name in the other map. -/
def sameEntries : List (String × Json) → Fields Json → Bool
  | [], _ => true
  | (key, value) :: rest, fields =>
    (match fields.get? key with
      | some other => same value other
      | none => false) && sameEntries rest fields

end

/-- Whether both values are missing, or both are there and the same. -/
def sameOption : Option Json → Option Json → Bool
  | none, none => true
  | some left, some right => same left right
  | _, _ => false

/-- The word for the type of a value. -/
def typeName : Json → String
  | .null => "null"
  | .bool _ => "bool"
  | .number _ => "number"
  | .string _ => "string"
  | .array _ => "array"
  | .object _ => "object"

/-- The fields of an object; any other value has none. -/
def fieldsOrEmpty : Json → Fields Json
  | .object fields => fields
  | _ => ∅

end Json

end DocTable
