import DocTable.Json.Basic

/-!
# The order of JSON values

The order by which scanned rows are sorted. Values of different types are ordered by type, arrays
and objects lexicographically in the order of their entries, and a missing value ranks as null.
-/

namespace DocTable.Json

/-- The rank of a value's type. -/
def rank : Json → Nat
  | .null => 0
  | .number _ => 1
  | .string _ => 2
  | .object _ => 3
  | .array _ => 4
  | .bool _ => 5

mutual

/-- The order of two values. -/
def compare : Json → Json → Ordering
  | .number left, .number right => left.compare right
  | .string left, .string right => Ord.compare left right
  | .bool left, .bool right => Ord.compare left right
  | .array left, .array right => compareElements left right
  | .object ⟨left⟩, .object ⟨right⟩ => compareEntries left right
  | left, right => Ord.compare left.rank right.rank

/-- The lexicographic order of two lists of elements; a proper beginning comes first. -/
def compareElements : List Json → List Json → Ordering
  | [], [] => .eq
  | [], _ :: _ => .lt
  | _ :: _, [] => .gt
  | left :: leftRest, right :: rightRest =>
    (compare left right).then (compareElements leftRest rightRest)

/-- The lexicographic order of two lists of entries, each compared by name and then by value. -/
def compareEntries : List (String × Json) → List (String × Json) → Ordering
  | [], [] => .eq
  | [], _ :: _ => .lt
  | _ :: _, [] => .gt
  | (leftKey, left) :: leftRest, (rightKey, right) :: rightRest =>
    (Ord.compare leftKey rightKey).then <|
      (compare left right).then (compareEntries leftRest rightRest)

end

/-- The order of two values that may be missing. -/
def compareOption (left right : Option Json) : Ordering :=
  compare (left.getD .null) (right.getD .null)

end DocTable.Json
