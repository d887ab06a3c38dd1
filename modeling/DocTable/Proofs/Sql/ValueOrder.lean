import DocTable.Proofs.Json.Order
import DocTable.Proofs.Sql.NumberOrder
import DocTable.Proofs.Text.Encoding

/-!
# The order of extracted values in SQLite

SQLite orders values by their storage class, numbers by their exact values and
texts by their bytes. It knows truth values as numbers, and arrays and objects as
texts, so it cannot rank them as the order in process does, where objects, arrays
and truth values come behind strings. `SortsAlike` says of which values the two
orders are the same.
-/

namespace DocTable.Sql.Sqlite

/-- The place of a value's storage class: nothing, numbers, texts and bytes. -/
def storageClass : Value → Nat
  | .null => 0
  | .integer _ | .real _ => 1
  | .text _ => 2
  | .blob _ => 3

/-- The bytes of a text or of bytes. -/
def contents : Value → List UInt8
  | .text text => encoded text
  | .blob bytes => bytes
  | .null | .integer _ | .real _ => []

/-- The order of two values: by their storage classes, numbers by their exact values, and texts
and bytes byte by byte. -/
def order (left right : Value) : Ordering :=
  (Ord.compare (storageClass left) (storageClass right)).then <|
    (cmp (left.rational?.getD 0) (right.rational?.getD 0)).then
      (Ord.compare (contents left) (contents right))

/-- What `json_extract` finds where a value is stored: truth values are numbers, and arrays and
objects are their compact texts. -/
def extracted : Json → Value
  | .null => .null
  | .bool value => .integer (if value then 1 else 0)
  | .number number => extractedNumber number
  | .string text => .text text
  | .array elements => .text (Json.array elements).text
  | .object fields => .text (Json.object fields).text

/-- Two values that have the same order as in process. Null and two values of one simple type
always do, apart from numbers that are rounded to one double in process; so does a number and
anything but a truth value, and a number below the truth value's own number. A string has to come
in front of the text of an array or an object, and the texts of these in their order. -/
def SortsAlike : Json → Json → Prop
  | .null, _ | _, .null => True
  | .number left, .number right =>
      (left.signed?.isSome ∧ right.signed?.isSome) ∨
        (left.toDouble = right.toDouble ↔ exactValue left = exactValue right)
  | .string _, .string _ | .bool _, .bool _ => True
  | .number number, .bool truth | .bool truth, .number number =>
      exactValue number < if truth then 1 else 0
  | .number _, _ | _, .number _ => True
  | .bool _, _ | _, .bool _ => False
  | .string text, other | other, .string text => Ord.compare text other.text = .lt
  | left, right => Ord.compare left.text right.text = left.compare right

theorem order_of_storageClass_lt {left right : Value}
    (less : storageClass left < storageClass right) :
    order left right = .lt ∧ order right left = .gt := by
  constructor
  · rw [order, Nat.compare_eq_lt.2 less]
    rfl
  · rw [order, Nat.compare_eq_gt.2 less]
    rfl

theorem order_of_rational? {left right : Value} {leftNumber rightNumber : ℚ}
    (isLeft : left.rational? = some leftNumber) (isRight : right.rational? = some rightNumber) :
    order left right = cmp leftNumber rightNumber := by
  have number {value : Value} {own : ℚ} (isNumber : value.rational? = some own) :
      storageClass value = 1 ∧ contents value = [] := by
    cases value with
    | integer _ | real _ => exact ⟨rfl, rfl⟩
    | null | text _ | blob _ => cases isNumber
  rw [order, (number isLeft).1, (number isRight).1, (number isLeft).2, (number isRight).2, isLeft,
    isRight]
  exact Ordering.then_eq

theorem order_text (left right : String) :
    order (.text left) (.text right) = Ord.compare left right := by
  rw [← compare_encoded]
  rfl

theorem order_swap (left right : Value) : order right left = (order left right).swap := by
  rw [order, order, Ordering.swap_then, Ordering.swap_then, ← Std.OrientedOrd.eq_swap,
    ← Std.OrientedOrd.eq_swap, cmp_swap]

theorem chains_order (first second third : Value) :
    Chains (order first second) (order second third) (order first third) := by
  rw [order, order, order, cmp_eq_compare, cmp_eq_compare, cmp_eq_compare]
  exact (Chains.ofOrd _ _ _).andThen fun _ _ => (Chains.ofOrd _ _ _).andThen fun _ _ =>
    Chains.ofOrd _ _ _

theorem storageClass_extractedNumber (number : Number) :
    storageClass (extractedNumber number) = 1 := by
  cases number with
  | double value => rfl
  | integer value inRange =>
      rw [extractedNumber]
      split <;> rfl

theorem order_number_bool (number : Number) (truth : Bool) :
    order (extractedNumber number) (extracted (.bool truth)) =
      cmp (exactValue number) (if truth then 1 else 0) := by
  apply order_of_rational? (rational?_extractedNumber number)
  cases truth <;> rfl

theorem order_number_text (number : Number) (text : String) :
    order (extractedNumber number) (.text text) = .lt ∧
      order (.text text) (extractedNumber number) = .gt :=
  order_of_storageClass_lt (by rw [storageClass_extractedNumber]; exact Nat.one_lt_two)

/-- Two values sort alike if and only if the engine orders what it finds of them as they are ordered
in process. -/
theorem sortsAlike_iff (left right : Json) :
    SortsAlike left right ↔ order (extracted left) (extracted right) = left.compare right := by
  match left, right with
  | .null, .number number | .number number, .null =>
      have front : storageClass .null < storageClass (extractedNumber number) := by
        rw [storageClass_extractedNumber]
        decide
      first
        | exact iff_of_true trivial (order_of_storageClass_lt front).1
        | exact iff_of_true trivial (order_of_storageClass_lt front).2
  | .null, .null | .null, .bool _ | .null, .string _ | .null, .array _ | .null, .object _
  | .bool _, .null | .string _, .null | .array _, .null | .object _, .null =>
      exact iff_of_true trivial rfl
  | .number left, .number right =>
      have numbers := order_of_rational? (rational?_extractedNumber left)
        (rational?_extractedNumber right)
      rw [extracted, extracted, numbers, Json.compare, cmp_exactValue_iff]
      rfl
  | .string left, .string right => exact iff_of_true trivial (order_text left right)
  | .bool left, .bool right =>
      apply iff_of_true trivial
      cases left <;> cases right <;> rfl
  | .number number, .bool truth =>
      change _ ↔ order (extractedNumber number) (extracted (.bool truth)) = .lt
      rw [order_number_bool, cmp_eq_lt_iff]
      rfl
  | .bool truth, .number number =>
      change _ ↔ order (extracted (.bool truth)) (extractedNumber number) = .gt
      rw [order_swap (extractedNumber number), Ordering.swap_eq_gt, order_number_bool,
        cmp_eq_lt_iff]
      rfl
  | .number number, .string _ | .number number, .array _ | .number number, .object _ =>
      exact iff_of_true trivial (order_number_text number _).1
  | .string _, .number number | .array _, .number number | .object _, .number number =>
      exact iff_of_true trivial (order_number_text number _).2
  | .bool _, .string _ | .bool _, .array _ | .bool _, .object _
  | .string _, .bool _ | .array _, .bool _ | .object _, .bool _ =>
      exact iff_of_false not_false nofun
  | .string text, .array _ | .string text, .object _ =>
      rw [extracted, extracted, order_text]
      rfl
  | .array _, .string text | .object _, .string text =>
      rw [order_swap (extracted (.string text)), extracted, extracted, order_text]
      exact Ordering.swap_eq_gt.symm
  | .array _, .array _ | .array _, .object _ | .object _, .array _ | .object _, .object _ =>
      rw [extracted, extracted, order_text]
      rfl

instance (left right : Json) : Decidable (SortsAlike left right) :=
  decidable_of_iff' _ (sortsAlike_iff left right)

/-- A truth value comes behind its number, and a string not always in front of an array. -/
example : SortsAlike (.number (.integer 0 (by decide))) (.bool true) ∧
    ¬SortsAlike (.number (.integer 1 (by decide))) (.bool true) ∧
    SortsAlike (.string "A") (.array []) ∧ ¬SortsAlike (.string "a") (.array []) := by
  decide +kernel

end DocTable.Sql.Sqlite
