import DocTable.FieldPath
import DocTable.Document.Basic
import DocTable.Json.Order

/-!
# Conditions

A condition is a validated test of documents. It compares values at paths with scalar literals.
A comparison holds only of a value that is there and has the literal's type, and equality with
null, which is a test of its own, also holds of a missing value.
-/

namespace DocTable

/-- The types that comparisons keep apart. -/
inductive ScalarKind where
  | number
  | string
  | bool
deriving DecidableEq, Repr

/-- A literal that a condition compares with. -/
inductive Scalar where
  | null
  | bool (value : Bool)
  | number (value : Number)
  | string (value : String)
deriving DecidableEq, Repr

namespace Scalar

/-- The scalar that a value is; arrays and objects are none. -/
def ofJson? : Json → Option Scalar
  | .null => some .null
  | .bool value => some (.bool value)
  | .number value => some (.number value)
  | .string value => some (.string value)
  | .array _ => none
  | .object _ => none

/-- The scalar as a value. -/
def toJson : Scalar → Json
  | .null => .null
  | .bool value => .bool value
  | .number value => .number value
  | .string value => .string value

/-- The type of a scalar; null has none. -/
def kind? : Scalar → Option ScalarKind
  | .null => none
  | .bool _ => some .bool
  | .number _ => some .number
  | .string _ => some .string

/-- The order of a stored value and a literal of the same type. -/
def compare? : Json → Scalar → Option Ordering
  | .number value, .number literal => some (value.compare literal)
  | .string value, .string literal => some (Ord.compare value literal)
  | .bool value, .bool literal => some (Ord.compare value literal)
  | _, _ => none

end Scalar

/-- The comparisons. -/
inductive Comparison where
  | eq
  | gt
  | ge
  | lt
  | le
deriving DecidableEq, Repr

namespace Comparison

/-- The symbol of a comparison, in SQL as elsewhere. -/
def symbol : Comparison → String
  | .eq => "="
  | .gt => ">"
  | .ge => ">="
  | .lt => "<"
  | .le => "<="

/-- Whether values in the given order stand in the relation. -/
def holds : Comparison → Ordering → Bool
  | .eq, order => order == .eq
  | .gt, order => order == .gt
  | .ge, order => order != .lt
  | .lt, order => order == .lt
  | .le, order => order != .gt

end Comparison

/-- A validated test of documents. -/
inductive Condition where
  /-- Holds of every document. -/
  | always
  | all (parts : List Condition)
  | any (parts : List Condition)
  | not (part : Condition)
  /-- There is a value at the path, null included, or there is none. -/
  | exists (path : FieldPath) (expected : Bool)
  /-- The value at the path is missing or null. -/
  | isNull (path : FieldPath)
  /-- The value at the path equals one of the literals. -/
  | oneOf (path : FieldPath) (literals : List Scalar)
  /-- The value at the path stands in relation to the literal. -/
  | compare (path : FieldPath) (comparison : Comparison) (literal : Scalar)
deriving Repr

namespace Condition

/-- Whether a value that may be missing is missing or null. -/
def isNullOrMissing : Option Json → Bool
  | none => true
  | some .null => true
  | some _ => false

/-- Whether a value that may be missing equals a literal, null standing for a missing value too. -/
def equals (value : Option Json) : Scalar → Bool
  | .null => isNullOrMissing value
  | literal => match value with
    | some value => Scalar.compare? value literal == some .eq
    | none => false

mutual

/-- Whether a document satisfies a condition. -/
def holds (document : Document) : Condition → Bool
  | .always => true
  | .all parts => allHold document parts
  | .any parts => anyHolds document parts
  | .not part => !holds document part
  | .exists path expected => (document.lookup? path).isSome == expected
  | .isNull path => isNullOrMissing (document.lookup? path)
  | .oneOf path literals => literals.any (equals (document.lookup? path))
  | .compare path comparison literal =>
    match (document.lookup? path).bind (Scalar.compare? · literal) with
    | some order => comparison.holds order
    | none => false

/-- Whether a document satisfies every one of some conditions. -/
def allHold (document : Document) : List Condition → Bool
  | [] => true
  | part :: rest => holds document part && allHold document rest

/-- Whether a document satisfies one of some conditions. -/
def anyHolds (document : Document) : List Condition → Bool
  | [] => false
  | part :: rest => holds document part || anyHolds document rest

end

end Condition

end DocTable
